import Abacus.Console.Line
import Abacus.Proofs.Number.Digits

/-! Lines in colours, as a terminal takes them.  A colour sequence is an escape character, a bracket,
digits and an `m`, and a terminal changes its pen by the number.  Without these sequences a line in
colours is the line itself, and whatever a sequence changes is undone behind the one word, the one
character or the comment that it was meant for. -/

namespace Abacus.Console

open Text

/-! ### Terminals -/

/-- The character that begins a colour sequence. -/
def escape : Char := '\x1b'

/-- What a terminal gets: a character to write, or the number of a colour sequence. -/
inductive Signal where
  | char (c : Char)
  | control (number : Nat)
deriving DecidableEq, Repr

/-- The number of the colour sequence that a text begins with, and the text behind it. -/
def sequence? : List Char → Option (Nat × List Char)
  | '\x1b' :: '[' :: rest =>
    match rest.takeWhile Char.isDigit, rest.dropWhile Char.isDigit with
    | d :: digits, 'm' :: after => some (Nat.ofDigitChars 10 (d :: digits) 0, after)
    | _, _ => none
  | _ => none

theorem length_sequence?_lt {text after : List Char} {number : Nat}
    (h : sequence? text = some (number, after)) : after.length < text.length := by
  unfold sequence? at h
  split at h
  · next rest =>
    have hCut := congrArg List.length (List.takeWhile_append_dropWhile (p := Char.isDigit) (l := rest))
    split at h
    · next hDigits hBehind =>
      cases h
      rw [hDigits, hBehind, List.length_append] at hCut
      simp only [List.length_cons] at hCut ⊢
      omega
    · cases h
  · cases h

/-- A text as a terminal takes it. -/
def signals : List Char → List Signal
  | [] => []
  | c :: rest =>
    match found : sequence? (c :: rest) with
    | some (number, after) =>
      have := length_sequence?_lt found
      .control number :: signals after
    | none => .char c :: signals rest
termination_by text => text.length
decreasing_by
  · exact this
  · exact Nat.lt_succ_self _

/-- The characters that are written: all but the colour sequences. -/
def written (signals : List Signal) : List Char :=
  signals.filterMap fun
    | .char c => some c
    | .control _ => none

/-- How a terminal writes: bold or not, dimmed or not, and in a colour or in the usual one. -/
structure Pen where
  bold : Bool := false
  dimmed : Bool := false
  ink : Option Nat := none
deriving DecidableEq, Repr

/-- The pen behind a colour sequence. -/
def Pen.change (pen : Pen) (number : Nat) : Pen :=
  if number = 0 then {}
  else if number = 1 then { pen with bold := true }
  else if number = 2 then { pen with dimmed := true }
  else if number = 39 then { pen with ink := none }
  else if (30 ≤ number ∧ number ≤ 37) ∨ (90 ≤ number ∧ number ≤ 97) then
    { pen with ink := some number }
  else pen

/-- What may be in one style: a word, a character, or a comment. -/
def StyledAsOne (text : List Char) : Prop :=
  (text ≠ [] ∧ ∀ c ∈ text, isWordChar c = true) ∨ (∃ c, text = [c]) ∨
    ∃ comment, text = '/' :: '/' :: comment

/-- Signals that are written with the usual pen but for such stretches, and behind each the pen is
the usual one again. -/
inductive Tidy : List Signal → Prop
  | done : Tidy []
  | usual (c : Char) {others : List Signal} (tidy : Tidy others) : Tidy (.char c :: others)
  | styled {opening closing : List Nat} {text : List Char} {others : List Signal}
      (opens : opening.foldl Pen.change {} ≠ {})
      (closes : (opening ++ closing).foldl Pen.change {} = {})
      (one : StyledAsOne text) (tidy : Tidy others) :
      Tidy (opening.map .control ++ text.map .char ++ closing.map .control ++ others)

/-! ### Signals of a text -/

theorem sequence?_of_ne {c : Char} (h : c ≠ escape) (rest : List Char) :
    sequence? (c :: rest) = none := by
  unfold sequence?
  split
  · next hText => exact absurd (List.cons.inj hText).1 h
  · rfl

theorem signals_char {c : Char} (h : c ≠ escape) (rest : List Char) :
    signals (c :: rest) = .char c :: signals rest := by
  rw [signals]
  split
  · next hFound =>
    rw [sequence?_of_ne h] at hFound
    cases hFound
  · rfl

theorem signals_append {text : List Char} (h : escape ∉ text) (rest : List Char) :
    signals (text ++ rest) = text.map .char ++ signals rest := by
  induction text with
  | nil => rfl
  | cons c text ih =>
    have hFirst : c ≠ escape := (List.ne_of_not_mem_cons h).symm
    rw [List.cons_append, signals_char hFirst, ih (List.not_mem_of_not_mem_cons h)]
    rfl

theorem sequence?_control (number : Nat) (rest : List Char) :
    sequence? ((control number).toList ++ rest) = some (number, rest) := by
  have hText : (control number).toList ++ rest =
      '\x1b' :: '[' :: (Nat.toDigits 10 number ++ 'm' :: rest) := by
    simp [control, Nat.toList_repr]
  have hDigits := Number.IsDigits.toDigits number
  obtain ⟨d, digits, hCons⟩ := List.exists_cons_of_ne_nil hDigits.filled
  have hTake : (Nat.toDigits 10 number ++ 'm' :: rest).takeWhile Char.isDigit = d :: digits := by
    rw [List.takeWhile_append_of_pos hDigits.all, ← hCons]
    simp
  have hDrop : (Nat.toDigits 10 number ++ 'm' :: rest).dropWhile Char.isDigit = 'm' :: rest := by
    rw [List.dropWhile_append_of_pos hDigits.all]
    simp
  rw [hText, sequence?]
  simp only [hTake, hDrop]
  rw [← hCons, Nat.ofDigitChars_ten_toDigits]

theorem signals_control (number : Nat) (rest : List Char) :
    signals ((control number).toList ++ rest) = .control number :: signals rest := by
  have hFound := sequence?_control number rest
  generalize (control number).toList ++ rest = text at hFound
  cases text with
  | nil => cases hFound
  | cons c text =>
    rw [signals]
    split
    · next hFound' =>
      rw [hFound] at hFound'
      cases hFound'
      rfl
    · next hNone =>
      rw [hFound] at hNone
      cases hNone

theorem signals_controls (numbers : List Nat) (rest : List Char) :
    signals ((numbers.flatMap fun number => (control number).toList) ++ rest) =
      numbers.map .control ++ signals rest := by
  induction numbers with
  | nil => rfl
  | cons number numbers ih =>
    rw [List.flatMap_cons, List.append_assoc, signals_control, ih]
    rfl

/-! ### Styles -/

namespace Style

/-- The numbers of the sequences in front of text in a style. -/
def opens : Style → List Nat
  | dim => [2]
  | ink color => [color.number]
  | bold color => [1, color.number]

/-- The numbers of the sequences behind text in a style. -/
def closes : Style → List Nat
  | dim => [0]
  | ink _ => [39]
  | bold _ => [39, 0]

theorem toList_opening (style : Style) :
    style.opening.toList = style.opens.flatMap fun number => (control number).toList := by
  cases style <;> simp [opening, opens]

theorem toList_closing (style : Style) :
    style.closing.toList = style.closes.flatMap fun number => (control number).toList := by
  cases style <;> simp [closing, closes]

/-- The pen is changed in front of text in a style, and is the usual one behind it. -/
theorem pen_changes (style : Style) :
    style.opens.foldl Pen.change {} ≠ {} ∧
      (style.opens ++ style.closes).foldl Pen.change {} = {} := by
  cases style with
  | dim => decide
  | ink color | bold color => cases color <;> decide

end Style

/-! ### Pieces of a line -/

namespace Piece

/-- The signals of a piece. -/
def signals (piece : Piece) : List Signal :=
  match piece.style with
  | some style =>
    style.opens.map .control ++ piece.text.toList.map .char ++ style.closes.map .control
  | none => piece.text.toList.map .char

theorem signals_render {piece : Piece} (h : escape ∉ piece.text.toList) (rest : List Char) :
    Console.signals (piece.render.toList ++ rest) = piece.signals ++ Console.signals rest := by
  obtain ⟨_ | style, text⟩ := piece
  · exact signals_append h rest
  · simp only [render, signals, Style.apply, String.toList_append, List.append_assoc,
      style.toList_opening, style.toList_closing]
    rw [signals_controls, signals_append h, signals_controls]

theorem written_signals (piece : Piece) : written piece.signals = piece.text.toList := by
  have hControls (numbers : List Nat) : written (numbers.map .control) = [] := by
    simp [written]
  have hChars (text : List Char) : written (text.map .char) = text := by
    induction text with
    | nil => rfl
    | cons c text ih => exact congrArg (c :: ·) ih
  unfold signals
  split
  · simp only [written, List.filterMap_append] at hControls hChars ⊢
    rw [hControls, hControls, hChars, List.nil_append, List.append_nil]
  · exact hChars _

end Piece

theorem tidy_append {text : List Char} {others : List Signal} (h : Tidy others) :
    Tidy (text.map .char ++ others) := by
  induction text with
  | nil => exact h
  | cons c text ih => exact .usual c ih

/-- Pieces in which each style is on one stretch. -/
def Neat (pieces : List Piece) : Prop :=
  ∀ piece ∈ pieces, piece.style ≠ none → StyledAsOne piece.text.toList

theorem Neat.nil : Neat [] := by
  intro piece hMem
  cases hMem

theorem Neat.append {front back : List Piece} (h : Neat front) (h' : Neat back) :
    Neat (front ++ back) := List.forall_mem_append.mpr ⟨h, h'⟩

theorem Neat.cons {piece : Piece} {others : List Piece} (h : StyledAsOne piece.text.toList)
    (h' : Neat others) : Neat (piece :: others) := List.forall_mem_cons.mpr ⟨fun _ => h, h'⟩

theorem Neat.tidy {pieces : List Piece} (h : Neat pieces) : Tidy (pieces.flatMap Piece.signals) := by
  induction pieces with
  | nil => exact .done
  | cons piece pieces ih =>
    obtain ⟨hFirst, hOthers⟩ := List.forall_mem_cons.mp h
    have hTidy := ih hOthers
    rw [List.flatMap_cons, Piece.signals]
    split
    · next style hStyle =>
      obtain ⟨opens, closes⟩ := style.pen_changes
      exact .styled opens closes (hFirst (by simp [hStyle])) hTidy
    · exact tidy_append hTidy

theorem signals_pieces {pieces : List Piece}
    (h : escape ∉ pieces.flatMap fun piece => piece.text.toList) :
    signals (pieces.flatMap fun piece => piece.render.toList) = pieces.flatMap Piece.signals := by
  induction pieces with
  | nil => rw [List.flatMap_nil, List.flatMap_nil, signals]
  | cons piece pieces ih =>
    rw [List.flatMap_cons, List.mem_append, not_or] at h
    rw [List.flatMap_cons, List.flatMap_cons, Piece.signals_render h.1, ih h.2]

theorem text_wordPieces (word : List Char) :
    (wordPieces word).flatMap (fun piece => piece.text.toList) = word := by
  cases word <;> simp [wordPieces]

/-- Nothing of the word or of the text is lost or repeated in the pieces. -/
theorem text_pieces (word text : List Char) :
    (pieces word text).flatMap (fun piece => piece.text.toList) = word ++ text := by
  fun_induction pieces word text with
  | case1 word => rw [text_wordPieces, List.append_nil]
  | case2 word c rest inWord ih => rw [ih, List.append_assoc, List.singleton_append]
  | case3 word c rest outside comment => simp [text_wordPieces]
  | case4 word c rest outside noComment ih => simp [text_wordPieces, ih]

theorem neat_wordPieces {word : List Char} (h : ∀ c ∈ word, isWordChar c = true) :
    Neat (wordPieces word) := by
  intro piece hMem _
  unfold wordPieces at hMem
  split at hMem
  · cases hMem
  · next filled =>
    obtain rfl := List.mem_singleton.mp hMem
    refine .inl ⟨?_, ?_⟩
    · simpa using filled
    · simpa using h

theorem neat_pieces {word : List Char} (text : List Char) (h : ∀ c ∈ word, isWordChar c = true) :
    Neat (pieces word text) := by
  fun_induction pieces word text with
  | case1 word => exact neat_wordPieces h
  | case2 word c rest inWord ih =>
    have hChar : isWordChar c = true := by
      simp only [Bool.or_eq_true, Bool.and_eq_true] at inWord
      simp only [isWordChar, Bool.or_eq_true]
      exact inWord.imp_right And.left
    exact ih (List.forall_mem_append.mpr ⟨h, List.forall_mem_singleton.mpr hChar⟩)
  | case3 word c rest outside comment =>
    simp only [Bool.and_eq_true, beq_iff_eq, List.head?_eq_some_iff] at comment
    obtain ⟨rfl, behind, rfl⟩ := comment
    refine (neat_wordPieces h).append (.cons (.inr (.inr ⟨behind, ?_⟩)) .nil)
    exact String.toList_ofList
  | case4 word c rest outside noComment ih =>
    refine (neat_wordPieces h).append (.cons (.inr (.inl ⟨c, ?_⟩)) (ih ?_))
    · exact String.toList_ofList
    · intro c hc
      cases hc

/-- Highlighting adds colours and nothing else: what a terminal writes is the line, and each change
of its pen is undone before the next one and before the end.  The line may be any text without
escape characters, and the cursor makes no difference. -/
theorem highlight_adds_colours_only {line : String} (h : escape ∉ line.toList) (color : Bool) :
    written (signals (highlight color line).toList) = line.toList ∧
      Tidy (signals (highlight color line).toList) := by
  -- A line without colours is one plain piece.
  obtain ⟨pieces, hText, hRender, hNeat⟩ : ∃ pieces : List Piece,
      (pieces.flatMap fun piece => piece.text.toList) = line.toList ∧
      (highlight color line).toList = (pieces.flatMap fun piece => piece.render.toList) ∧
      Neat pieces := by
    unfold highlight
    split
    · refine ⟨[⟨none, line⟩], by simp, by simp [Piece.render], ?_⟩
      exact List.forall_mem_singleton.mpr fun hStyle => absurd rfl hStyle
    · refine ⟨pieces [] line.toList, text_pieces [] line.toList, ?_, neat_pieces _ (by simp)⟩
      rw [String.toList_join, List.flatMap_map]
  have hSignals := signals_pieces (hText ▸ h)
  rw [hRender, hSignals]
  refine ⟨?_, hNeat.tidy⟩
  have hWritten : written (pieces.flatMap Piece.signals) =
      pieces.flatMap fun piece => written piece.signals := List.filterMap_flatMap ..
  simp only [hWritten, Piece.written_signals, hText]

/-- A line with words of every style, signs, and a comment with a keyword in it. -/
def colourful : String := "int größe; if (größe >= 2.5) x = .5; // print"

theorem highlight_adds_colours_only_colourful :
    escape ∉ colourful.toList ∧
      written (signals (highlight true colourful).toList) = colourful.toList ∧
      Tidy (signals (highlight true colourful).toList) :=
  have plain : escape ∉ colourful.toList := by decide
  ⟨plain, highlight_adds_colours_only plain true⟩

end Abacus.Console
