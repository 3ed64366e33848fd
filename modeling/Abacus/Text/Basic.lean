import Abacus.Text.Class

/-! Cutting text: its length in bytes, trimming, lines, and words without regard to case. -/

namespace Abacus.Text

/-- The number of bytes that the characters take in UTF-8. -/
def byteLength : List Char → Nat
  | [] => 0
  | c :: rest => c.utf8Size + byteLength rest

@[simp] theorem byteLength_append (front back : List Char) :
    byteLength (front ++ back) = byteLength front + byteLength back := by
  induction front with
  | nil => simp [byteLength]
  | cons c front ih => simp [byteLength, ih, Nat.add_assoc]

theorem byteLength_pos {text : List Char} (h : text ≠ []) : 0 < byteLength text := by
  cases text with
  | nil => exact absurd rfl h
  | cons c rest => exact Nat.add_pos_left c.utf8Size_pos _

theorem byteLength_toList (text : String) : byteLength text.toList = text.utf8ByteSize := by
  have h (chars : List Char) : byteLength chars = (String.ofList chars).utf8ByteSize := by
    induction chars with
    | nil => rfl
    | cons c rest ih =>
      rw [byteLength, ih, ← List.singleton_append, String.ofList_append, String.utf8ByteSize_append,
        ← String.singleton_eq_ofList, String.utf8ByteSize_singleton]
  rw [h, String.ofList_toList]

/-- The text without the white space at its start. -/
def trimStart (text : List Char) : List Char := text.dropWhile isBlank

/-- The text without the white space at its end. -/
def trimEnd (text : List Char) : List Char := (trimStart text.reverse).reverse

/-- A text without the characters of a class at its end is empty, or it ends in another one. -/
theorem reverse_dropWhile_cases (p : Char → Bool) (text : List Char) :
    (text.reverse.dropWhile p).reverse = [] ∨
      ∃ front c, (text.reverse.dropWhile p).reverse = front ++ [c] ∧ p c = false := by
  have hFirst := List.head?_dropWhile_not p text.reverse
  cases hKept : text.reverse.dropWhile p with
  | nil => exact .inl rfl
  | cons c others =>
    rw [hKept] at hFirst
    exact .inr ⟨others.reverse, c, List.reverse_cons, hFirst⟩

/-- The text without the white space at both ends. -/
def trim (text : List Char) : List Char := trimEnd (trimStart text)

/-- The text with its ASCII capitals in lower case. -/
def lower (text : List Char) : List Char := text.map Char.toLower

/-- The text in pieces, cut at each line feed. -/
def splitLines : List Char → List (List Char)
  | [] => [[]]
  | c :: rest =>
    if c = '\n' then [] :: splitLines rest
    else match splitLines rest with
      | [] => [[c]]
      | line :: lines => (c :: line) :: lines

theorem splitLines_ne_nil (text : List Char) : splitLines text ≠ [] := by
  cases text with
  | nil => simp [splitLines]
  | cons c rest =>
    unfold splitLines
    repeat' split
    all_goals simp

/-- A line feed ends a line. -/
theorem splitLines_append_lineFeed (front back : List Char) :
    splitLines (front ++ '\n' :: back) = splitLines front ++ splitLines back := by
  induction front with
  | nil => rfl
  | cons c front ih =>
    rw [List.cons_append, splitLines, splitLines, ih]
    split
    · rfl
    · cases lines : splitLines front with
      | nil => exact absurd lines (splitLines_ne_nil front)
      | cons line lines => rfl

theorem splitLines_of_not_mem {line : List Char} (h : '\n' ∉ line) : splitLines line = [line] := by
  induction line with
  | nil => rfl
  | cons c rest ih =>
    have first : c ≠ '\n' := (List.ne_of_not_mem_cons h).symm
    rw [splitLines, if_neg first, ih (List.not_mem_of_not_mem_cons h)]

end Abacus.Text
