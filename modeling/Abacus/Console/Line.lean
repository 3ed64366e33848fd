import Abacus.Console.Command
import Abacus.Console.Paint

/-! Help with the line that is being edited: completion of the word before the cursor, and
colours. -/

namespace Abacus.Console

open Text

/-- A line with the cursor in it. -/
structure Line where
  before : List Char
  after : List Char
deriving DecidableEq, Repr

/-- Whether a character belongs to a word that can be completed. -/
def isWordChar (c : Char) : Bool := isAlphanumeric c || c == '_' || c == '.'

namespace Line

/-- The text cut behind the characters that fit into `count` bytes. -/
def cutBytes (count : Nat) : List Char → List Char × List Char
  | [] => ([], [])
  | c :: rest =>
    if c.utf8Size ≤ count then
      let (front, back) := cutBytes (count - c.utf8Size) rest
      (c :: front, back)
    else ([], c :: rest)

/-- Nothing is lost at the cut. -/
theorem cutBytes_append (count : Nat) (text : List Char) :
    (cutBytes count text).1 ++ (cutBytes count text).2 = text := by
  induction text generalizing count with
  | nil => rfl
  | cons c rest ih =>
    by_cases h : c.utf8Size ≤ count
    · simp [cutBytes, h, ih]
    · simp [cutBytes, h]

/-- The line with the cursor behind a number of bytes. -/
def ofOffset (text : String) (offset : Nat) : Line :=
  let (before, after) := cutBytes offset text.toList
  ⟨before, after⟩

/-- Where the cursor is, in bytes. -/
def offset (line : Line) : Nat := byteLength line.before

/-- The word that ends at the cursor. -/
def word (line : Line) : List Char := (line.before.reverse.takeWhile isWordChar).reverse

/-- What stands before the word that ends at the cursor. -/
def lead (line : Line) : List Char := (line.before.reverse.dropWhile isWordChar).reverse

theorem lead_append_word (line : Line) : line.lead ++ line.word = line.before := by
  rw [lead, word, ← List.reverse_append, List.takeWhile_append_dropWhile, List.reverse_reverse]

/-- Where the word that ends at the cursor begins, in bytes. -/
def wordOffset (line : Line) : Nat := byteLength line.lead

/-- The known words that begin with the word before the cursor, each with the part that is
missing. -/
def completions (line : Line) : List (String × String) :=
  if line.word.isEmpty then []
  else words.filterMap fun known =>
    (line.word.isPrefixOf? known.toList).map fun missing => (known, String.ofList missing)

/-- What completing at the cursor gives: where the missing parts belong, and the completions. -/
def complete (line : Line) : Nat × List (String × String) := (line.offset, line.completions)

/-- What is missing of the first known word that is longer than the word before the cursor.  The
cursor has to be at the end of the line, behind at least two bytes of a word. -/
def hint? (color : Bool) (line : Line) : Option String :=
  if line.after.isEmpty && 2 ≤ byteLength line.word then
    (line.completions.find? fun (_, missing) => !missing.isEmpty).map fun (_, missing) =>
      paint color .dim missing
  else none

end Line

/-- The style of a word in the language: types, other keywords and numbers stand out. -/
def wordStyle? (word : List Char) : Option Style :=
  let text := String.ofList word
  if text ∈ ["int", "real"] then some (.bold .blue)
  else if text ∈ ["if", "else", "while", "print", "input"] then some (.bold .magenta)
  else if word.head?.any Char.isDigit then some (.ink .yellow)
  else none

/-- The style of a character outside words: brackets and operators stand out. -/
def symbolStyle? (c : Char) : Option Style :=
  if c ∈ ['(', ')', '\x7b', '\x7d'] then some (.ink .yellow)
  else if c ∈ ['+', '-', '*', '/', '=', '<', '>', '!'] then some (.ink .cyan)
  else none

/-- A word as a piece of a line. -/
def wordPieces (word : List Char) : List Piece :=
  if word.isEmpty then [] else [⟨wordStyle? word, String.ofList word⟩]

/-- The pieces of a text that follows the characters of a word.  A point belongs to a word if it
does not begin it, and a comment goes on to the end of the text. -/
def pieces (word : List Char) : List Char → List Piece
  | [] => wordPieces word
  | c :: rest =>
    if isAlphanumeric c || c == '_' || (c == '.' && !word.isEmpty) then pieces (word ++ [c]) rest
    else if c == '/' && rest.head? == some '/' then
      wordPieces word ++ [⟨some .dim, String.ofList (c :: rest)⟩]
    else wordPieces word ++ ⟨symbolStyle? c, String.ofList [c]⟩ :: pieces [] rest

/-- A line in colours, if there are to be any.  Commands stay plain. -/
def highlight (color : Bool) (line : String) : String :=
  if !color || (trimStart line.toList).head? == some '.' then line
  else String.join ((pieces [] line.toList).map Piece.render)

/-- Whether a line has to be drawn again after a key has been pressed: only if it has colours. -/
def redraws (color : Bool) : Bool := color

end Abacus.Console
