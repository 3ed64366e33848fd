import Abacus.Text.Basic

/-! The commands of the console, which begin with a point, and the words that it knows. -/

namespace Abacus.Console

/-- What can be asked of the console. -/
inductive Command where
  | help | exit | clear | vars | listing | reset | load
deriving DecidableEq, Repr

namespace Command

/-- The names of the commands, longer and shorter ones. -/
def names : List (String × Command) :=
  [("help", help), ("h", help), ("?", help),
   ("exit", exit), ("quit", exit), ("q", exit),
   ("clear", clear), ("cls", clear),
   ("vars", vars),
   ("listing", listing),
   ("reset", reset),
   ("load", load), ("l", load)]

/-- The command that a text asks for, and its argument: a point, a name in any case, and after
white space the argument.  Lower case is that of ASCII, since no other character has a lower case
that occurs in the names. -/
def read? (text : String) : Option (Command × Option String) :=
  match Text.trim text.toList with
  | '.' :: rest =>
    let name := String.ofList (Text.lower (rest.takeWhile (!Text.isBlank ·)))
    let argument := Text.trim (rest.dropWhile (!Text.isBlank ·))
    (names.lookup name).map fun command =>
      (command, if argument.isEmpty then none else some (String.ofList argument))
  | _ => none

/-- The commands in the order of the help, with the text of their usage and what they do. -/
def usage : List (String × String) :=
  [(".help", "Show this help message"),
   (".exit", "Exit the REPL"),
   (".clear", "Clear the screen"),
   (".vars", "List declared variables and their values"),
   (".listing", "Toggle printing the bytecode of each entry"),
   (".reset", "Forget every declaration and value"),
   (".load <file>", "Load and execute a tally file")]

end Command

/-- The words that the console can complete: those of the language, then the commands. -/
def words : List String :=
  ["int", "real", "if", "else", "while", "print", "input"] ++
    Command.usage.map fun (usage, _) =>
      String.ofList (usage.toList.takeWhile (!Text.isBlank ·))

end Abacus.Console
