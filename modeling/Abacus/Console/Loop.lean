import Abacus.Console.Command
import Abacus.Console.Entry
import Abacus.Files
import Abacus.Session
import Abacus.Streams

/-! The console: it reads entries from its input, runs them one after the other in one session,
and obeys commands. -/

namespace Abacus

/-- The console between two entries.  With `prompts` it puts out a prompt before each entry.  It is
`broken` if an entry could not be made sense of, and then takes no more. -/
structure Console where
  color : Bool
  listing : Bool
  prompts : Bool
  streams : Streams
  session : Session := {}
  broken : Bool := false

namespace Console

/-- The version that the console and the command line give. -/
def version : String := "0.1.0"

/-- The two lines that the console begins with. -/
def banner (color : Bool) : String :=
  let paint := paint color
  let name := paint (.bold .brightCyan) "tally"
  let version :=
    if color then paint .dim "v" ++ " " ++ paint (.ink .brightYellow) version else "v" ++ version
  name ++ " " ++ version ++ "\n" ++
    paint .dim "Type" ++ " " ++ paint (.ink .cyan) ".help" ++ " " ++
    paint .dim "for available commands" ++ "\n"

/-- What stands before an entry. -/
def prompt (color : Bool) : String := paint color (.bold .brightGreen) "tally>" ++ " "

/-- The text filled up with blanks to a width. -/
def padded (width : Nat) (text : String) : String :=
  text ++ String.ofList (List.replicate (width - text.length) ' ')

/-- The commands and what they do. -/
def helpText (color : Bool) : String :=
  "\nREPL Commands:\n\n" ++
  String.join (Command.usage.map fun (usage, purpose) =>
    "  " ++ paint color (.ink .cyan) (padded 16 usage) ++ " " ++ paint color .dim purpose ++
      "\n") ++
  "\nDeclarations and values persist between entries.\n" ++
  "An entry that fails to compile declares nothing.\n\n"

/-- A declared variable and its value.  A variable without a value counts as zero. -/
def variableLine (color : Bool) (type : VarType) (name : String) (value : Option Float) : String :=
  let shown := match value with
    | some value => Number.text value
    | none => "0.0 " ++ paint color .dim "(unassigned)"
  "  " ++ type.name ++ " " ++ name ++ " = " ++ shown ++ "\n"

/-- The declared variables of a session, in the order of their names. -/
def variablesText (color : Bool) (session : Session) : String :=
  match session.scope.declared.entries with
  | [] => paint color .dim "no variables declared" ++ "\n"
  | declared =>
    String.join ((declared.mergeSort fun a b => !(b.1 < a.1)).map fun (name, type) =>
      variableLine color type name (session.machine.vars.get? name))

/-- The console after a text has been put out. -/
def print (console : Console) (text : String) : Console :=
  { console with streams := console.streams.print text }

/-- The console after a line has been put out, dimmed. -/
def printDim (console : Console) (text : String) : Console :=
  console.print (paint console.color .dim text ++ "\n")

/-- The console after an error has been reported. -/
def report (console : Console) (message : String) : Console :=
  { console with streams := console.streams.report console.color message }

/-- Compiles a source and runs it on the streams of the console; `none` if that takes more than
`fuel` steps.  Errors are reported. -/
def eval? (fuel : Nat) (console : Console) (source : String) : Option Console :=
  match console.session.compile source with
  | (.error e, session) => some ({ console with session }.report e.message)
  | (.ok code, session) =>
    let console := { console with session }
    let console := if console.listing then code.lines.foldl printDim console else console
    let streams := console.streams
    (session.execute? code fuel (Feed.ofBytes streams.input) streams.output).map fun reply =>
      let console := { console with
        session := reply.session
        streams := { streams with input := reply.feed.unread, output := reply.sink } }
      match reply.result with
      | .ok () => console
      | .error e => console.report e.message

variable {m : Type → Type} [Monad m]

/-- Compiles and runs the text of a file. -/
def load (read : FileReader m) (fuel : Nat) (console : Console) (path : String) :
    OptionT m Console := do
  match ← read.text path with
  | .ok source => .mk (pure (console.eval? fuel source))
  | .error e => return console.report ("failed to read " ++ path ++ ": " ++ e.message)

/-- Obeys a command, other than by leaving. -/
def obey (read : FileReader m) (fuel : Nat) (console : Console) (argument : Option String) :
    Command → OptionT m Console
  | .help => return console.print (helpText console.color)
  | .exit => return console
  | .clear => return console.print "\x1b[2J\x1b[H"
  | .vars => return console.print (variablesText console.color console.session)
  | .listing =>
    let console := { console with listing := !console.listing }
    return console.print (if console.listing then "listing on\n" else "listing off\n")
  | .reset =>
    return { console with session := console.session.reset }.printDim "all declarations forgotten"
  | .load =>
    match argument with
    | some path => console.load read fuel path
    | none => return console.report ".load requires a file path"

/-- Reads at most `count` entries and does what they ask for, up to the end of the input or a
request to leave. -/
def loop (read : FileReader m) (fuel : Nat) : (count : Nat) → Console → OptionT m Console
  | 0, console => return console
  | count + 1, console => do
    let console := if console.prompts then console.print (prompt console.color) else console
    let (reading, input) := readEntry [] console.streams.input
    let console := { console with streams := { console.streams with input } }
    match reading with
    | .ended => return console.printDim "^D"
    | .garbled =>
      return console.report (FileError.notText.message ++ ": " ++ FileError.notText.message)
    | .torn =>
      return { console with broken := true }.report "a backspace leaves a part of a character"
    | .entry text =>
      let text := Text.trim text
      let source := String.ofList text
      if text.isEmpty then loop read fuel count console
      else if text.head? = some '.' then
        match Command.read? source with
        | some (.exit, _) => return console
        | some (command, argument) =>
          loop read fuel count (← console.obey read fuel argument command)
        | none =>
          loop read fuel count
            (console.report ("unknown command '" ++ source ++ "', try .help"))
      else loop read fuel count (← .mk (pure (console.eval? fuel source)))

/-- Runs the console.  Each entry takes at least one byte of the input, which bounds their
number. -/
def run (read : FileReader m) (fuel : Nat) (console : Console) : OptionT m Console :=
  let console := console.print (banner console.color)
  loop read fuel (console.streams.input.length + 1) console

end Console

end Abacus
