import Abacus.Text.Basic
import Abacus.Token.Basic

/-! Lexemes: the longest stretch of text that is one token, and its kind. -/

namespace Abacus.Token

open Text

/-- A lexeme at the start of a text: its kind, its characters, and the text behind it. -/
structure Lexeme where
  kind : Kind
  chars : List Char
  rest : List Char
deriving DecidableEq, Repr

namespace Lexeme

/-- The characters that are tokens whatever follows them. -/
def symbol? : Char → Option Kind
  | '+' => some .plus
  | '-' => some .minus
  | '*' => some .star
  | '/' => some .slash
  | ';' => some .semicolon
  | '(' => some .leftParen
  | ')' => some .rightParen
  | '\x7b' => some .leftBrace
  | '\x7d' => some .rightBrace
  | _ => none

/-- The characters that may have an equals sign behind them: the kind with it, and the kind
without it, if the character may stand alone. -/
def comparison? : Char → Option (Kind × Option Kind)
  | '=' => some (.equalEqual, some .equal)
  | '!' => some (.notEqual, none)
  | '<' => some (.lessEqual, some .less)
  | '>' => some (.greaterEqual, some .greater)
  | _ => none

/-- The character `c` together with an equals sign behind it, or else alone, if it may be. -/
def orEqual? (double : Kind) (alone : Option Kind) (c : Char) (rest : List Char) :
    Option Lexeme :=
  match rest with
  | '=' :: after => some ⟨double, [c, '='], after⟩
  | _ => alone.map (⟨·, [c], rest⟩)

/-- Digits, then at most one point with digits behind it. -/
def number (text : List Char) : Lexeme :=
  let whole := text.takeWhile Char.isDigit
  match text.dropWhile Char.isDigit with
  | '.' :: after =>
    ⟨.number, whole ++ '.' :: after.takeWhile Char.isDigit, after.dropWhile Char.isDigit⟩
  | rest => ⟨.number, whole, rest⟩

/-- A run of name characters: a keyword if it is spelled like one, otherwise a name. -/
def word (text : List Char) : Lexeme :=
  let chars := text.takeWhile isNameChar
  ⟨(Kind.keyword? (String.ofList chars)).getD .identifier, chars, text.dropWhile isNameChar⟩

/-- The lexeme at the start of a text, if there is one. -/
def read? : List Char → Option Lexeme
  | [] => none
  | c :: rest =>
    match symbol? c, comparison? c with
    | some kind, _ => some ⟨kind, [c], rest⟩
    | none, some (double, alone) => orEqual? double alone c rest
    | none, none =>
      if c.isDigit then some (number (c :: rest))
      else if isNameStart c then some (word (c :: rest))
      else none

theorem orEqual?_append {double : Kind} {alone : Option Kind} {c : Char} {rest : List Char}
    {l : Lexeme} (h : orEqual? double alone c rest = some l) : l.chars ++ l.rest = c :: rest := by
  unfold orEqual? at h
  split at h
  · cases h; rfl
  · obtain ⟨kind, -, rfl⟩ := Option.map_eq_some_iff.mp h
    rfl

theorem orEqual?_chars_ne_nil {double : Kind} {alone : Option Kind} {c : Char} {rest : List Char}
    {l : Lexeme} (h : orEqual? double alone c rest = some l) : l.chars ≠ [] := by
  unfold orEqual? at h
  split at h
  · cases h; simp
  · obtain ⟨kind, -, rfl⟩ := Option.map_eq_some_iff.mp h
    simp

theorem number_append (text : List Char) : (number text).chars ++ (number text).rest = text := by
  have cut := List.takeWhile_append_dropWhile (p := Char.isDigit) (l := text)
  unfold number
  split
  · next after h => rw [h] at cut; simpa using cut
  · exact cut

theorem number_chars_ne_nil {c : Char} (rest : List Char) (h : c.isDigit = true) :
    (number (c :: rest)).chars ≠ [] := by
  unfold number
  split <;> simp [h]

theorem word_append (text : List Char) : (word text).chars ++ (word text).rest = text :=
  List.takeWhile_append_dropWhile

theorem word_chars_ne_nil {c : Char} (rest : List Char) (h : isNameStart c = true) :
    (word (c :: rest)).chars ≠ [] := by
  simp [word, isNameChar_of_isNameStart h]

/-- A lexeme and the text behind it make up the text. -/
theorem read?_append {text : List Char} {l : Lexeme} (h : read? text = some l) :
    l.chars ++ l.rest = text := by
  unfold read? at h
  split at h
  · cases h
  · split at h
    · cases h; rfl
    · exact orEqual?_append h
    · split at h
      · cases h; exact number_append _
      · split at h
        · cases h; exact word_append _
        · cases h

/-- No lexeme is empty. -/
theorem read?_chars_ne_nil {text : List Char} {l : Lexeme} (h : read? text = some l) :
    l.chars ≠ [] := by
  unfold read? at h
  split at h
  · cases h
  · split at h
    · cases h; simp
    · exact orEqual?_chars_ne_nil h
    · split at h
      · cases h; exact number_chars_ne_nil _ (by assumption)
      · split at h
        · cases h; exact word_chars_ne_nil _ (by assumption)
        · cases h

theorem length_rest_lt {text : List Char} {l : Lexeme} (h : read? text = some l) :
    l.rest.length < text.length := by
  have cut := congrArg List.length (read?_append h)
  have filled := List.length_pos_iff.mpr (read?_chars_ne_nil h)
  rw [List.length_append] at cut
  omega

end Lexeme

end Abacus.Token
