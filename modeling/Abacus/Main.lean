import Abacus.CommandLine.Run

/-! The program: it hands the arguments, the environment and the standard input to the command
line, and puts out what that comes to. -/

namespace Abacus.CommandLine

/-- The error of the system with a code, which is the number of the error or that number with its
sign turned. -/
def numberedError (code : UInt32) (details : String) : FileError :=
  let number := if code < 0x80000000 then code.toNat else (0 - code).toNat
  match number with
  | 2 => .missing
  | 20 => .notDirectory
  | 21 => .isDirectory
  | 36 => .nameTooLong
  | _ => .other details number

/-- Why the system did not read a file. -/
def systemError : IO.Error → FileError
  | .alreadyExists _ code details | .interrupted _ code details
  | .noFileOrDirectory _ code details | .invalidArgument _ code details
  | .permissionDenied _ code details | .resourceExhausted _ code details
  | .inappropriateType _ code details | .noSuchThing _ code details
  | .otherError code details | .resourceBusy code details
  | .resourceVanished code details | .unsupportedOperation code details
  | .hardwareFault code details | .unsatisfiedConstraints code details
  | .illegalOperation code details | .protocolError code details
  | .timeExpired code details => numberedError code details
  | .unexpectedEof => .other "Input/output error" 5
  | .userError details => .other details 5

/-- Reads a file of the system. -/
def readFile : FileReader IO := fun path => do
  if path.toList.any (· == '\x00') then return .error .badName
  try
    return .ok (← IO.FS.readBinFile path).toList
  catch error => return .error (systemError error)

/-- The environment variables, as the system keeps them for the process. -/
def readEnvironment : IO (List (String × String)) := do
  match ← readFile "/proc/self/environ" with
  | .error _ => return []
  | .ok bytes =>
    return ((Text.decodeLossy bytes).splitOn "\x00").filterMap fun entry =>
      match entry.splitOn "=" with
      | name :: value :: rest => some (name, "=".intercalate (value :: rest))
      | _ => none

/-- How many steps a program may take: so many that none takes more. -/
def fuel : Nat := 0x4000000000000000

end Abacus.CommandLine

open Abacus.CommandLine in
/-- Runs the command line on the standard streams. -/
def main (arguments : List String) : IO UInt32 := do
  let input ← (← IO.getStdin).readBinToEnd
  let call : Call := { arguments, environment := ← readEnvironment, input := input.toList }
  match ← (run readFile fuel call).run with
  | none => return 1
  | some outcome =>
    let stdout ← IO.getStdout
    stdout.write ⟨outcome.streams.output.written⟩
    stdout.flush
    (← IO.getStderr).putStr outcome.streams.errors
    return UInt32.ofNat outcome.status
