import Abacus.Text.Basic

/-! Readers that take characters from the front of a text or fail. -/

namespace Abacus.Toml

/-- A reader: what it reads, and the text behind that. -/
abbrev Reader := StateT (List Char) Option

namespace Reader

variable {α β : Type}

/-- One character of a class. -/
def one (admits : Char → Bool) : Reader Char
  | c :: rest => if admits c then some (c, rest) else none
  | [] => none

/-- One given character. -/
def mark (c : Char) : Reader Unit := one (· == c) *> pure ()

/-- The characters of a word. -/
def word (w : String) : Reader Unit := fun text => (w.toList.isPrefixOf? text).map ((), ·)

/-- As many characters of a class as there are. -/
def span (admits : Char → Bool) : Reader (List Char) := fun text =>
  some (text.takeWhile admits, text.dropWhile admits)

/-- At least one character of a class, and as many as there are. -/
def span1 (admits : Char → Bool) : Reader (List Char) := do
  let c ← one admits
  let cs ← span admits
  return c :: cs

/-- What a reader reads, or nothing if it fails. -/
def optional? (p : Reader α) : Reader (Option α) := (some <$> p) <|> pure none

/-- What a reader reads again and again, at most `count` times. -/
def manyUpTo (p : Reader α) : (count : Nat) → Reader (List α)
  | 0 => pure []
  | count + 1 => (do
      let a ← p
      let rest ← manyUpTo p count
      return a :: rest) <|> pure []

/-- What a reader that takes at least one character reads again and again. -/
def many (p : Reader α) : Reader (List α) := fun text => manyUpTo p text.length text

/-- What a reader reads, at least once, with a separator between. -/
def separated1 (p : Reader α) (separator : Reader β) : Reader (List α) := do
  let first ← p
  let rest ← many (separator *> p)
  return first :: rest

/-- The characters that a reader takes. -/
def spelling (p : Reader α) : Reader (List Char) := fun text =>
  (p text).map fun (_, rest) => (text.take (text.length - rest.length), rest)

/-- The end of the text. -/
def done : Reader Unit
  | [] => some ((), [])
  | _ :: _ => none

/-- Blanks and tabs. -/
def blanks : Reader Unit := span (fun c => c == ' ' || c == '\t') *> pure ()

/-- The end of a line. -/
def lineEnd : Reader Unit := mark '\n' <|> word "\r\n"

/-- Whether a character may stand in a line of text: a tab, or anything that is no control
character of ASCII. -/
def isPlain (c : Char) : Bool := c == '\t' || (' ' ≤ c && c != '\x7f')

/-- A comment. -/
def comment : Reader Unit := mark '#' *> span isPlain *> pure ()

/-- Blanks, line ends and comments. -/
def gap : Reader Unit :=
  many ((span1 (fun c => c == ' ' || c == '\t') *> pure ()) <|> lineEnd <|> comment) *> pure ()

end Reader

end Abacus.Toml
