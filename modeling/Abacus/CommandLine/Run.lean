import Abacus.CommandLine.Arguments
import Abacus.Console.Loop
import Abacus.Settings

/-! The command line: what a call of the program does. -/

namespace Abacus.CommandLine

/-- A call of the program: its arguments, its environment variables, and its input. -/
structure Call where
  arguments : List String
  environment : List (String × String) := []
  input : List UInt8 := []

/-- What a call comes to: the exit status, and the streams at the end. -/
structure Outcome where
  status : Nat
  streams : Streams

/-- How a task ends: well, with an error, or broken off. -/
inductive Ending where
  | done
  | failed (message : String)
  | broken
deriving DecidableEq, Repr

/-- The exit status of an ending. -/
def Ending.status : Ending → Nat
  | done => 0
  | failed _ => 1
  | broken => 101

/-- The ending of a task that gives a result or an error. -/
def Ending.ofResult : Except String Unit → Ending
  | .ok () => done
  | .error message => failed message

/-- How the program is called. -/
def usageText : String :=
  "Usage: tally [OPTIONS] [COMMAND]\n\n" ++
  "Commands:\n" ++
  "  run FILE     Compile and execute a program\n" ++
  "  check FILE   Compile a program without running it\n" ++
  "  disasm FILE  Print the bytecode listing of a program\n" ++
  "  help         Print this message\n\n" ++
  "Options:\n" ++
  "  -e, --eval CODE    Compile and run inline source instead of a file\n" ++
  "  -l, --listing      Print the bytecode listing before executing (run)\n" ++
  "      --config PATH  Read configuration from this file only\n" ++
  "      --no-color     Disable colored output\n" ++
  "  -v, --verbose      Enable verbose output\n" ++
  "  -h, --help         Print help\n" ++
  "  -V, --version      Print version\n"

/-- What a call comes to whose arguments ask for nothing to be done. -/
def Stop.outcome (streams : Streams) : Stop → Outcome
  | misuse => ⟨2, { streams with errors := streams.errors ++ usageText }⟩
  | help => ⟨0, streams.print usageText⟩
  | version name => ⟨0, streams.printLine (name ++ " " ++ Console.version)⟩

/-- The path of a name in a directory. -/
def joined (directory name : String) : String :=
  if directory.toList.getLast? = some '/' then directory ++ name else directory ++ "/" ++ name

/-- The directory of the user's documents: one that the environment names by its path from the
root, else a fixed one in the home directory. -/
def userDirectory? (environment : List (String × String)) : Option String :=
  let named := (environment.lookup "XDG_CONFIG_HOME").filter (·.toList.head? == some '/')
  let home := (environment.lookup "HOME").filter (!·.isEmpty)
  named.or (home.map (joined · ".config"))

/-- The paths of the documents that are read if they are there: the user's, and the one in the
working directory. -/
def usualDocuments (environment : List (String × String)) : List String :=
  ((userDirectory? environment).map fun directory =>
    joined (joined directory "tally") "config.toml").toList ++ ["tally.toml"]

variable {m : Type → Type} [Monad m]

/-- The settings with those of a document in a file on top.  If `optional`, the file may be
absent. -/
def mergeFile (read : FileReader m) (optional : Bool) (settings : Settings) (path : String) :
    ExceptT String m Settings := do
  match ← read.text path with
  | .error e =>
    if optional && e.isAbsence then return settings
    else throw ("failed to read config file " ++ path ++ ": " ++ e.message)
  | .ok text =>
    match settings.merge? text with
    | some settings => return settings
    | none => throw ("invalid config file " ++ path)

/-- The settings for a call: the defaults, then documents, then environment variables.  A document
that is asked for replaces the usual ones. -/
def loadSettings (read : FileReader m) (environment : List (String × String))
    (config : Option String) : ExceptT String m Settings := do
  let settings ← match config with
    | some path => mergeFile read false {} path
    | none => (usualDocuments environment).foldlM (mergeFile read true) {}
  return settings.withEnvironment environment

/-- What stands before and behind a listing that a run begins with. -/
def listingFrame (listing : String) : String :=
  "=== bytecode ===\n" ++ listing ++ "================\n\n=== execution ===\n"

/-- Runs a source on the streams, after its listing or not; `none` if that takes more than `fuel`
steps. -/
def runSource (fuel : Nat) (listing : Bool) (streams : Streams) (source : String) :
    Option (Ending × Streams) :=
  match compile source with
  | .error e => some (.failed e.message, streams)
  | .ok code =>
    let streams := if listing then streams.print (listingFrame code.listing) else streams
    (Session.execute? {} code fuel (Feed.ofBytes streams.input) streams.output).map fun reply =>
      (.ofResult (reply.result.mapError Error.message),
        { streams with input := reply.feed.unread, output := reply.sink })

/-- The text of a source file. -/
def sourceOf (read : FileReader m) (path : String) : ExceptT String m String := do
  match ← read.text path with
  | .error e => throw ("failed to read " ++ path ++ ": " ++ e.message)
  | .ok source => return source

/-- The code of a source file. -/
def compileFile (read : FileReader m) (path : String) : ExceptT String m Code := do
  match compile (← sourceOf read path) with
  | .error e => throw e.message
  | .ok code => return code

/-- Whether a kind of terminal cannot do more than show lines, so that prompts are put out. -/
def isPlainTerminal (environment : List (String × String)) : Bool :=
  (environment.lookup "TERM").any fun kind =>
    String.ofList (Text.lower kind.toList) ∈ ["dumb", "cons25", "emacs"]

/-- Performs a task on a file. -/
def performTask (read : FileReader m) (fuel : Nat) (settings : Settings) (streams : Streams)
    (task : Task) : OptionT m (Ending × Streams) := do
  match task with
  | .run file listing =>
    match ← (sourceOf read file).run with
    | .error message => return (.failed message, streams)
    | .ok source => .mk (pure (runSource fuel (listing || settings.listing) streams source))
  | .check file =>
    match ← (compileFile read file).run with
    | .error message => return (.failed message, streams)
    | .ok code =>
      return (.done, streams.printLine ("ok (" ++ Nat.repr code.size ++ " instructions)"))
  | .disasm file =>
    match ← (compileFile read file).run with
    | .error message => return (.failed message, streams)
    | .ok code => return (.done, streams.print code.listing)

/-- Does what the arguments mean. -/
def perform (read : FileReader m) (fuel : Nat) (call : Call) (settings : Settings)
    (arguments : Arguments) : OptionT m (Ending × Streams) := do
  let streams : Streams := { input := call.input }
  match arguments.task, arguments.code with
  | some _, some _ => return (.failed "-e cannot be combined with a subcommand", streams)
  | some task, none => performTask read fuel settings streams task
  | none, some code => .mk (pure (runSource fuel settings.listing streams code))
  | none, none =>
    let console : Console :=
      { color := settings.color
        listing := settings.listing
        prompts := isPlainTerminal call.environment
        streams }
    let console ← console.run read fuel
    return (if console.broken then .broken else .done, console.streams)

/-- The outcome of a call; `none` if a program in it runs for more than `fuel` steps. -/
def run (read : FileReader m) (fuel : Nat) (call : Call) : OptionT m Outcome := do
  let streams : Streams := { input := call.input }
  match Arguments.read (call.environment.lookup "TALLY_CONFIG") call.arguments with
  | .error stop => return stop.outcome streams
  | .ok arguments =>
    match ← (loadSettings read call.environment arguments.config).run with
    | .error message => return ⟨1, streams.report (!arguments.noColor) message⟩
    | .ok settings =>
      let settings := if arguments.noColor then { settings with color := false } else settings
      let (ending, streams) ← perform read fuel call settings arguments
      match ending with
      | .failed message => return ⟨ending.status, streams.report settings.color message⟩
      | _ => return ⟨ending.status, streams⟩

end Abacus.CommandLine
