import Abacus.Toml.Document

/-! Settings of the command line: their defaults, and the layers of documents and of the
environment on top of them. -/

namespace Abacus

/-- What can be set: whether code is listed before it runs, whether output is coloured, which log
messages are shown, and how many entries of the console are remembered. -/
structure Settings where
  listing : Bool := false
  color : Bool := true
  log : String := "warn"
  historySize : Nat := 1000
deriving DecidableEq, Repr

namespace Settings

/-- The largest integer that a document can hold, one below `2^63`. -/
def largestInteger : Nat := 0x7FFFFFFFFFFFFFFF

/-- The largest size that can be set, one below `2^64`. -/
def largestSize : Nat := 0xFFFFFFFFFFFFFFFF

/-- A truth value in a document. -/
def flagOf? : Toml.Item → Option Bool
  | .boolean value => some value
  | _ => none

/-- A text in a document.  A date or time counts as its text. -/
def textOf? : Toml.Item → Option String
  | .text value => some value
  | .moment value => some value.text
  | _ => none

/-- A size in a document. -/
def sizeOf? : Toml.Item → Option Nat
  | .integer (.ofNat value) => some value
  | _ => none

/-- What a document says under a key, or the default if it says nothing.  It is an error if what
stands there is of another kind. -/
def fieldOf? {α : Type} (document : Toml.Entries) (key : String) (read : Toml.Item → Option α)
    (default : α) : Option α :=
  match document.get? key with
  | none => some default
  | some item => read item

/-- The settings in a document.  Keys that are missing have their defaults, and keys without a
meaning are passed over. -/
def ofDocument? (document : Toml.Entries) : Option Settings := do
  let defaults : Settings := {}
  return {
    listing := ← fieldOf? document "listing" flagOf? defaults.listing
    color := ← fieldOf? document "color" flagOf? defaults.color
    log := ← fieldOf? document "log" textOf? defaults.log
    historySize := ← fieldOf? document "history_size" sizeOf? defaults.historySize }

/-- The settings as a document, if it can hold the size. -/
def toDocument? (settings : Settings) : Option Toml.Entries :=
  if settings.historySize ≤ largestInteger then
    some ⟨[("listing", .boolean settings.listing), ("color", .boolean settings.color),
      ("log", .text settings.log), ("history_size", .integer settings.historySize)]⟩
  else none

/-- Why settings cannot be merged: the text is no document, the settings below are none that a
document can hold, or something in the document is of the wrong kind. -/
inductive MergeError where
  | malformed
  | unwritable
  | mistyped
deriving DecidableEq, Repr

/-- Puts a document on top of the settings: they are written as a document, which takes over the
keys of the one on top, and read back. -/
def mergeDocument (document : Toml.Entries) : EStateM MergeError Settings Unit := do
  let settings ← get
  match settings.toDocument? with
  | none => throw .unwritable
  | some below =>
    match ofDocument? (below.extend document) with
    | none => throw .mistyped
    | some merged => EStateM.set merged

/-- Puts a document's text on top of the settings. -/
def merge (text : String) : EStateM MergeError Settings Unit :=
  match Toml.parse? text with
  | none => throw .malformed
  | some document => mergeDocument document

/-- The settings with those of a document's text on top. -/
def merge? (settings : Settings) (text : String) : Option Settings :=
  match merge text settings with
  | .ok _ merged => some merged
  | .error _ _ => none

/-- The truth value that a word stands for, whatever the case of its ASCII letters and the white
space around it. -/
def flag? (word : String) : Option Bool :=
  let word := String.ofList (Text.lower (Text.trim word.toList))
  if word ∈ ["1", "true", "yes", "on"] then some true
  else if word ∈ ["0", "false", "no", "off"] then some false
  else none

/-- The size that a text stands for: digits, behind a plus or not. -/
def size? (text : String) : Option Nat :=
  let digits := match text.toList with
    | '+' :: digits => digits
    | digits => digits
  let size := Nat.ofDigitChars 10 digits 0
  if digits ≠ [] ∧ digits.all Char.isDigit ∧ size ≤ largestSize then some size else none

/-- The settings with the one under a key set.  An unknown key, and a text that is no value for
the key, change nothing. -/
def set (settings : Settings) (key text : String) : Settings :=
  match key with
  | "listing" => { settings with listing := (flag? text).getD settings.listing }
  | "color" => { settings with color := (flag? text).getD settings.color }
  | "log" => { settings with log := text }
  | "history_size" => { settings with historySize := (size? text).getD settings.historySize }
  | _ => settings

/-- The key that an environment variable sets.  Lower case is that of ASCII, since no other
character has a lower case that occurs in the keys. -/
def variableKey? (name : String) : Option String :=
  ("TALLY_".toList.isPrefixOf? name.toList).map fun key => String.ofList (Text.lower key)

/-- The settings with those of environment variables on top, later ones over earlier ones. -/
def withEnvironment (settings : Settings) (environment : List (String × String)) : Settings :=
  environment.foldl (fun settings (name, text) =>
    match variableKey? name with
    | some key => settings.set key text
    | none => settings) settings

end Settings

end Abacus
