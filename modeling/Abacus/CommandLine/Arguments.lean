import Abacus.Text.Basic

/-! The arguments of the command line. -/

namespace Abacus.CommandLine

/-- What can be asked of a source file: to run it, after its listing or not; to check it; or to
list its code. -/
inductive Task where
  | run (file : String) (listing : Bool)
  | check (file : String)
  | disasm (file : String)
deriving DecidableEq, Repr

/-- The arguments as they are meant.  Without code and task the console is meant. -/
structure Arguments where
  verbose : Bool := false
  noColor : Bool := false
  config : Option String := none
  code : Option String := none
  task : Option Task := none
deriving DecidableEq, Repr

/-- Why there is nothing to do: the arguments make no sense, or only ask about the program. -/
inductive Stop where
  | misuse
  | help
  | version (name : String)
deriving DecidableEq, Repr

/-- The options. -/
inductive Switch where
  | verbose | noColor | config | eval | listing | help | version
deriving DecidableEq, Repr

namespace Switch

/-- The name of an option behind two hyphens. -/
def long : Switch → String
  | verbose => "verbose"
  | noColor => "no-color"
  | config => "config"
  | eval => "eval"
  | listing => "listing"
  | help => "help"
  | version => "version"

/-- The letter of an option behind one hyphen. -/
def short? : Switch → Option Char
  | verbose => some 'v'
  | eval => some 'e'
  | listing => some 'l'
  | help => some 'h'
  | version => some 'V'
  | noColor | config => none

/-- Whether an option has a value. -/
def hasValue : Switch → Bool
  | config | eval => true
  | _ => false

end Switch

/-- The kinds of tasks. -/
inductive Verb where
  | run | check | disasm
deriving DecidableEq, Repr

/-- What a name among the arguments asks for: a task, or help. -/
inductive Demand where
  | task (verb : Verb)
  | help
deriving DecidableEq, Repr

/-- The names that ask for something. -/
def demands : List (String × Demand) :=
  [("run", .task .run), ("check", .task .check), ("disasm", .task .disasm),
   ("dis", .task .disasm), ("help", .help)]

/-- A part of the arguments with its own rules: how the program calls itself there, which options
and how many files it takes, and which names ask for something. -/
structure Level where
  name : String
  switches : List Switch
  files : Nat
  demands : List (String × Demand)

/-- The options that may stand before and behind the name of a task. -/
def commonSwitches : List Switch := [.verbose, .noColor, .config, .help, .version]

/-- The arguments up to the name of a task. -/
def topLevel : Level :=
  { name := "tally", switches := .eval :: commonSwitches, files := 0, demands }

/-- The arguments behind the name of a task. -/
def Verb.level : Verb → Level
  | run =>
    { name := "tally-run", switches := .listing :: commonSwitches, files := 1, demands := [] }
  | check => { name := "tally-check", switches := commonSwitches, files := 1, demands := [] }
  | disasm => { name := "tally-disasm", switches := commonSwitches, files := 1, demands := [] }

/-- What a part of the arguments gives: the values of the options, and the files.  A value that is
an argument of its own is `held`, with its option, until the next option of the same part, or until
all arguments are read. -/
structure Given where
  values : List (Switch × String) := []
  held : Option (Switch × String) := none
  files : List String := []

namespace Given

/-- Whether an option is given. -/
def has (given : Given) (switch : Switch) : Bool := (given.values.lookup switch).isSome

/-- One more option with its value.  Each may be given once, and the path of a document cannot be
empty. -/
def addValue (given : Given) (switch : Switch) (value : String) : Except Stop Given :=
  if given.has switch || (switch == .config && value.isEmpty) then .error .misuse
  else .ok { given with values := given.values ++ [(switch, value)] }

/-- What is given once the value that is held has been looked at. -/
def settle (given : Given) : Except Stop Given :=
  match given.held with
  | none => .ok given
  | some (switch, value) => { given with held := none }.addValue switch value

/-- One more option, whose value is part of the same argument if it has one. -/
def addSwitch (given : Given) (level : Level) (switch : Switch) (value : String) :
    Except Stop Given := do
  let given ← given.settle
  match switch with
  | .help => throw .help
  | .version => throw (.version level.name)
  | _ => given.addValue switch value

/-- One more file. -/
def addFile (given : Given) (level : Level) (file : String) : Except Stop Given :=
  if given.files.length < level.files ∧ file ≠ "" then
    .ok { given with files := given.files ++ [file] }
  else .error .misuse

/-- The options behind one hyphen.  The first one that has a value takes the characters that
follow as its value, without an equals sign in front; if none follow, its value is in the next
argument, and it is part of the answer. -/
def addLetters (level : Level) : Given → List Char → Except Stop (Given × Option Switch)
  | given, [] => .ok (given, none)
  | given, letter :: rest => do
    match level.switches.find? (·.short? == some letter) with
    | none => throw .misuse
    | some switch =>
      if switch.hasValue then
        match rest with
        | [] => return (← given.settle, some switch)
        | '=' :: value => return (← given.addSwitch level switch (String.ofList value), none)
        | value => return (← given.addSwitch level switch (String.ofList value), none)
      else
        let given ← given.addSwitch level switch ""
        addLetters level given rest

/-- An option behind two hyphens, with its value behind an equals sign or not.  An option that
waits for its value is part of the answer. -/
def addLong (level : Level) (given : Given) (text : List Char) :
    Except Stop (Given × Option Switch) := do
  let name := String.ofList (text.takeWhile (· != '='))
  match level.switches.find? (·.long == name), text.dropWhile (· != '=') with
  | none, _ => throw .misuse
  | some switch, [] =>
    if switch.hasValue then return (← given.settle, some switch)
    else return (← given.addSwitch level switch "", none)
  | some switch, _ :: value =>
    if switch.hasValue then
      return (← given.addSwitch level switch (String.ofList value), none)
    else throw .misuse

end Given

/-- Whether an argument begins an option: it has a hyphen in front of something. -/
def isSwitch (argument : String) : Bool :=
  match argument.toList with
  | '-' :: _ :: _ => true
  | _ => false

/-- Reads a part of the arguments from left to right, up to a name that asks for something.
`pending` is an option that waits for its value.  Behind two lone hyphens there are only files. -/
def readLevel (level : Level) : (given : Given) → (pending : Option Switch) →
    (onlyFiles : Bool) → List String → Except Stop (Given × Option (Demand × List String))
  | given, none, _, [] => .ok (given, none)
  | _, some _, _, [] => .error .misuse
  | given, some switch, _, argument :: rest => do
    if isSwitch argument then throw .misuse
    readLevel level { given with held := some (switch, argument) } none false rest
  | given, none, true, argument :: rest => do
    readLevel level (← given.addFile level argument) none true rest
  | given, none, false, argument :: rest => do
    match argument.toList with
    | ['-', '-'] => readLevel level given none true rest
    | '-' :: '-' :: text =>
      let (given, pending) ← given.addLong level text
      readLevel level given pending false rest
    | '-' :: letter :: letters =>
      let (given, pending) ← given.addLetters level (letter :: letters)
      readLevel level given pending false rest
    | _ =>
      match level.demands.lookup argument with
      | some demand => return (given, some (demand, rest))
      | none => readLevel level (← given.addFile level argument) none false rest

/-- The task of a kind on a file, with the options behind its name. -/
def Verb.task (file : String) (given : Given) : Verb → Task
  | .run => .run file (given.has .listing)
  | .check => .check file
  | .disasm => .disasm file

/-- Help on one of the tasks, or on the program. -/
def helpOn (topics : List String) : Stop :=
  match topics with
  | [] => .help
  | [topic] => if (demands.lookup topic).isSome then .help else .misuse
  | _ => .misuse

/-- The path of a document in the environment cannot be empty where it is looked at. -/
def checkInherited (given : Given) (inherited : Option String) : Except Stop Unit :=
  if inherited = some "" ∧ !given.has .config then .error .misuse else .ok ()

/-- What the arguments mean.  `inherited` is the path of a document in the environment, which
counts if the arguments give none.  A value held before the name of a task is looked at after all
that stands behind that name. -/
def Arguments.read (inherited : Option String) (arguments : List String) :
    Except Stop Arguments := do
  match ← readLevel topLevel {} none false arguments with
  | (given, none) =>
    let given ← given.settle
    checkInherited given inherited
    return {
      verbose := given.has .verbose
      noColor := given.has .noColor
      config := (given.values.lookup .config).or inherited
      code := given.values.lookup .eval }
  | (_, some (.help, topics)) => throw (helpOn topics)
  | (given, some (.task verb, rest)) =>
    let (inner, _) ← readLevel verb.level {} none false rest
    let inner ← inner.settle
    let given ← given.settle
    checkInherited inner inherited
    checkInherited given inherited
    match inner.files with
    | [file] =>
      return {
        verbose := given.has .verbose || inner.has .verbose
        noColor := given.has .noColor || inner.has .noColor
        config :=
          ((inner.values.lookup .config).or (given.values.lookup .config)).or inherited
        code := given.values.lookup .eval
        task := some (verb.task file inner) }
    | _ => throw .misuse

end Abacus.CommandLine
