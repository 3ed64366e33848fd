import Abacus.Proofs.Token.Scans
import Mathlib.Data.List.TakeWhile

/-! Words as text.  The lexical grammar says which texts are lexemes of which kind.  Words are
printed with layout between them, and scanning a printed text gives the words back: layout that
begins with white space ends every lexeme, and no lexeme begins like layout. -/

namespace Abacus

namespace Text

/-- Every code point of a set. -/
def Ranges.codes (ranges : Ranges) : List Nat :=
  ranges.flatMap fun range => List.range' range.1 (range.2 + 1 - range.1)

/-- A property of the characters of a set can be checked code point by code point. -/
theorem Ranges.forall_has {ranges : Ranges} {p : Char → Bool}
    (h : ranges.codes.all (fun n => p (.ofNat n)) = true) {c : Char} (hc : ranges.has c = true) :
    p c = true := by
  obtain ⟨range, member, low, high⟩ := has_iff.mp hc
  have inCodes : c.toNat ∈ ranges.codes := by
    refine List.mem_flatMap.mpr ⟨range, member, List.mem_range'_1.mpr ⟨low, ?_⟩⟩
    omega
  have checked := List.all_eq_true.mp h c.toNat inCodes
  rwa [Char.ofNat_toNat] at checked

theorem has_of_isBlank {c : Char} (h : isBlank c = true) :
    Ranges.has ((0x20, 0x20) :: (0x09, 0x0D) :: blankRanges) c = true := by
  simp only [isBlank, Bool.or_eq_true, Bool.and_eq_true, beq_iff_eq, decide_eq_true_eq] at h
  apply Ranges.has_iff.mpr
  rcases h with (rfl | ⟨low, high⟩) | inTable
  · exact ⟨(0x20, 0x20), by simp, by decide, by decide⟩
  · exact ⟨(0x09, 0x0D), by simp, low, high⟩
  · obtain ⟨range, member, bounds⟩ := Ranges.has_iff.mp inTable
    exact ⟨range, by simp [member], bounds⟩

theorem isNameStart_of_isDigit {c : Char} (h : c.isDigit = true) : isNameStart c = false := by
  have inRange : Ranges.has [(0x30, 0x39)] c = true := by
    simp only [Char.isDigit, Bool.and_eq_true, decide_eq_true_eq] at h
    exact Ranges.has_iff.mpr ⟨(0x30, 0x39), by simp, h⟩
  have checked := Ranges.forall_has
    (p := fun c => c.toNat < 128 && !(c == '_' || c.isAlpha)) (by decide) inRange
  simp only [Bool.and_eq_true, decide_eq_true_eq, Bool.not_eq_true'] at checked
  rw [isNameStart_of_ascii checked.1, checked.2]

end Text

namespace Token

open Text

theorem separates_of_isBlank {c : Char} (h : isBlank c = true) : Separates c := by
  have checked := Ranges.forall_has (p := fun c => !isNameChar c && c != '=' && c != '.')
    (by decide +kernel) (has_of_isBlank h)
  simp only [Bool.and_eq_true, Bool.not_eq_true', bne_iff_ne] at checked
  exact ⟨checked.1.1, checked.1.2, checked.2⟩

/-! ### The lexical grammar -/

/-- Whether all tokens of a kind have the same lexeme, which is then the name of the kind. -/
def Kind.hasOneLexeme : Kind → Bool
  | identifier | number | eof => false
  | _ => true

/-- The lexemes of each kind. -/
inductive IsLexeme : Kind → List Char → Prop
  | fixed {kind : Kind} (one : kind.hasOneLexeme = true) : IsLexeme kind kind.name.toList
  | name {first : Char} {rest : List Char} (start : isNameStart first = true)
      (others : ∀ c ∈ rest, isNameChar c = true)
      (free : ∀ kind : Kind, kind.isKeyword = true → kind.name.toList ≠ first :: rest) :
      IsLexeme .identifier (first :: rest)
  | whole {digits : List Char} (filled : digits ≠ []) (all : ∀ c ∈ digits, c.isDigit = true) :
      IsLexeme .number digits
  | decimal {digits places : List Char} (filled : digits ≠ [])
      (all : ∀ c ∈ digits, c.isDigit = true) (behind : ∀ c ∈ places, c.isDigit = true) :
      IsLexeme .number (digits ++ '.' :: places)

namespace Lexeme

theorem symbol?_of_isNameChar {c : Char} (h : isNameChar c = true) : symbol? c = none := by
  unfold symbol?
  split
  case h_10 => rfl
  all_goals
    rw [isNameChar_of_ascii (by decide)] at h
    cases h

theorem comparison?_of_isNameChar {c : Char} (h : isNameChar c = true) : comparison? c = none := by
  unfold comparison?
  split
  case h_5 => rfl
  all_goals
    rw [isNameChar_of_ascii (by decide)] at h
    cases h

theorem read?_of_isDigit {c : Char} (rest : List Char) (h : c.isDigit = true) :
    read? (c :: rest) = some (number (c :: rest)) := by
  have inName : isNameChar c = true := by simp [isNameChar, h]
  simp only [read?, symbol?_of_isNameChar inName, comparison?_of_isNameChar inName, h, if_true]

theorem read?_of_isNameStart {c : Char} (rest : List Char) (h : isNameStart c = true) :
    read? (c :: rest) = some (word (c :: rest)) := by
  have inName : isNameChar c = true := isNameChar_of_isNameStart h
  have notDigit : ¬ c.isDigit = true := by
    intro isDigit
    rw [isNameStart_of_isDigit isDigit] at h
    cases h
  simp only [read?, symbol?_of_isNameChar inName, comparison?_of_isNameChar inName,
    if_neg notDigit, if_pos h]

theorem number_whole {digits : List Char} (all : ∀ c ∈ digits, c.isDigit = true) :
    number digits = ⟨.number, digits, []⟩ := by
  unfold number
  rw [List.takeWhile_eq_self_iff.mpr all, List.dropWhile_eq_nil_iff.mpr all]

theorem number_decimal {digits places : List Char} (all : ∀ c ∈ digits, c.isDigit = true)
    (behind : ∀ c ∈ places, c.isDigit = true) :
    number (digits ++ '.' :: places) = ⟨.number, digits ++ '.' :: places, []⟩ := by
  have point : '.'.isDigit = false := by decide
  unfold number
  rw [takeWhile_behind places point, dropWhile_behind places point,
    List.takeWhile_eq_self_iff.mpr all, List.dropWhile_eq_nil_iff.mpr all]
  simp only [List.nil_append]
  rw [List.takeWhile_eq_self_iff.mpr behind, List.dropWhile_eq_nil_iff.mpr behind]

/-- A lexeme is read whole. -/
theorem read?_of_isLexeme {kind : Kind} {chars : List Char} (h : IsLexeme kind chars) :
    read? chars = some ⟨kind, chars, []⟩ := by
  cases h with
  | fixed one =>
    revert one
    cases kind <;> decide +kernel
  | @name first rest start others free =>
    have all : ∀ c ∈ first :: rest, isNameChar c = true :=
      List.forall_mem_cons.mpr ⟨isNameChar_of_isNameStart start, others⟩
    have notKeyword : Kind.keyword? (String.ofList (first :: rest)) = none := by
      apply Option.eq_none_iff_forall_ne_some.mpr
      intro kind found
      obtain ⟨isKeyword, text_eq⟩ := Kind.keyword?_eq_some_iff.mp found
      apply free kind isKeyword
      rw [← text_eq, String.toList_ofList]
    rw [read?_of_isNameStart rest start, word]
    simp only [List.takeWhile_eq_self_iff.mpr all, List.dropWhile_eq_nil_iff.mpr all, notKeyword,
      Option.getD_none]
  | whole filled all =>
    obtain ⟨first, rest, rfl⟩ := List.exists_cons_of_ne_nil filled
    rw [read?_of_isDigit rest (all first List.mem_cons_self), number_whole all]
  | decimal filled all behind =>
    obtain ⟨first, rest, rfl⟩ := List.exists_cons_of_ne_nil filled
    rw [List.cons_append, read?_of_isDigit _ (all first List.mem_cons_self), ← List.cons_append,
      number_decimal all behind]

end Lexeme

/-! ### Layout and words -/

/-- At a line feed or at the end of the text a comment ends. -/
theorem cutLayout_true_of_ended {text : List Char} (h : ∀ c ∈ text.head?, c = '\n') :
    cutLayout true text = cutLayout false text := by
  cases text with
  | nil => rfl
  | cons c rest =>
    obtain rfl : c = '\n' := h c rfl
    rfl

theorem cutLayout_true_append {body : List Char} (inLine : '\n' ∉ body) (text : List Char) :
    cutLayout true (body ++ text) =
      (body ++ (cutLayout true text).1, (cutLayout true text).2) := by
  induction body with
  | nil => rfl
  | cons c body ih =>
    obtain ⟨hc, inLine⟩ := not_or.mp (mt List.mem_cons.mpr inLine)
    have notEnded : (c != '\n') = true := bne_iff_ne.mpr (Ne.symm hc)
    rw [List.cons_append, cutLayout_true_cons, notEnded, ih inLine]
    rfl

/-- Layout is cut off whole in front of a text that does not begin with layout. -/
theorem cutLayout_append_of_isLayout {gap after : List Char} (h : IsLayout after gap)
    (bare : cutLayout false after = ([], after)) :
    cutLayout false (gap ++ after) = (gap, after) := by
  induction h with
  | nil => exact bare
  | @blank c rest isBlank _ ih =>
    simp only [List.cons_append, cutLayout, isBlank, Bool.false_eq_true, if_false, if_true, ih]
  | @comment body rest inLine ended _ ih =>
    have inComment := cutLayout_true_append inLine (rest ++ after)
    rw [cutLayout_true_of_ended ended, ih] at inComment
    have slash : isBlank '/' = false := by decide
    simp only [List.cons_append, List.append_assoc, cutLayout, slash, Bool.false_eq_true,
      if_false, beq_self_eq_true, List.head?_cons, Bool.and_self, if_true,
      show ('/' != '\n') = true by decide, inComment]

/-- Whether a text is layout in front of another one depends on the start of that one only. -/
theorem IsLayout.append {gap after : List Char} (h : IsLayout after gap) (filled : after ≠ [])
    (more : List Char) : IsLayout (after ++ more) gap := by
  induction h with
  | nil => exact .nil
  | blank isBlank _ ih => exact .blank isBlank ih
  | @comment body rest inLine ended _ ih =>
    have head_eq : (rest ++ (after ++ more)).head? = (rest ++ after).head? := by
      obtain ⟨c, tail, rfl⟩ := List.exists_cons_of_ne_nil filled
      cases rest <;> rfl
    exact .comment inLine (head_eq ▸ ended) ih

theorem cutLayout_of_isLayout {gap : List Char} (h : IsLayout [] gap) :
    cutLayout false gap = (gap, []) := by
  have cut := cutLayout_append_of_isLayout h rfl
  rwa [List.append_nil] at cut

theorem Lexeme.read?_of_isBlank {c : Char} (rest : List Char) (h : isBlank c = true) :
    read? (c :: rest) = none := by
  have checked := Ranges.forall_has
    (p := fun c => (symbol? c).isNone && (comparison? c).isNone) (by decide +kernel)
    (has_of_isBlank h)
  simp only [Bool.and_eq_true, Option.isNone_iff_eq_none] at checked
  have notInName := (separates_of_isBlank h).1
  simp only [isNameChar, Bool.or_eq_false_iff] at notInName
  obtain ⟨⟨noStart, noDigit⟩, -⟩ := notInName
  simp only [read?, checked.1, checked.2, noDigit, noStart, Bool.false_eq_true, if_false]

/-- Nothing, or a text that begins with white space. -/
def Parted (text : List Char) : Prop := ∀ c ∈ text.head?, isBlank c = true

section Lexeme

variable {kind : Kind} {chars more : List Char}

/-- No lexeme begins with layout.  A slash does not begin a comment, since what is behind it is no
slash. -/
theorem cutLayout_of_isLexeme (h : IsLexeme kind chars) (hMore : Parted more) :
    cutLayout false (chars ++ more) = ([], chars ++ more) := by
  have found := Lexeme.read?_of_isLexeme h
  cases chars with
  | nil => cases found
  | cons c rest =>
    have notBlank : isBlank c = false := by
      apply Bool.eq_false_iff.mpr
      intro isBlank
      rw [Lexeme.read?_of_isBlank rest isBlank] at found
      cases found
    have noComment : (c == '/' && (rest ++ more).head? == some '/') = false := by
      apply Bool.eq_false_iff.mpr
      intro slashes
      simp only [Bool.and_eq_true, beq_iff_eq] at slashes
      obtain ⟨rfl, second⟩ := slashes
      -- A slash is a lexeme alone, so the second one is at the start of `more`.
      obtain rfl : [] = rest := (List.cons.inj (congrArg Lexeme.chars (Option.some.inj found))).2
      have isBlank := hMore '/' second
      revert isBlank
      decide
    simp only [List.cons_append, cutLayout, notBlank, noComment, Bool.false_eq_true, if_false]

theorem read?_of_isLexeme_append (h : IsLexeme kind chars) (hMore : Parted more) :
    Lexeme.read? (chars ++ more) = some ⟨kind, chars, more⟩ := by
  have found := Lexeme.read?_of_isLexeme h
  cases more with
  | nil => rwa [List.append_nil]
  | cons c more => exact Lexeme.read?_behind more (separates_of_isBlank (hMore c rfl)) found

end Lexeme

/-! ### Printing -/

/-- A word, and the layout it is printed behind. -/
structure Piece where
  gap : List Char
  kind : Kind
  chars : List Char
  isLexeme : IsLexeme kind chars
  layout : IsLayout chars gap

/-- Words printed one behind the other, and the layout at the end.  White space parts the words;
the first one may stand at the start. -/
structure Printing where
  pieces : List Piece
  last : List Char
  layout : IsLayout [] last
  gaps_parted : ∀ piece ∈ pieces.tail, piece.gap ≠ [] ∧ Parted piece.gap
  last_parted : Parted last

namespace Printing

def textOf (last : List Char) : List Piece → List Char
  | [] => last
  | piece :: pieces => piece.gap ++ (piece.chars ++ textOf last pieces)

def text (p : Printing) : String := String.ofList (textOf p.last p.pieces)

def words (p : Printing) : List (Kind × String) :=
  p.pieces.map fun piece => (piece.kind, String.ofList piece.chars)

theorem parted_textOf {last : List Char} {pieces : List Piece} (hLast : Parted last)
    (hGaps : ∀ piece ∈ pieces, piece.gap ≠ [] ∧ Parted piece.gap) :
    Parted (textOf last pieces) := by
  cases pieces with
  | nil => exact hLast
  | cons piece pieces =>
    obtain ⟨filled, parted⟩ := hGaps piece List.mem_cons_self
    obtain ⟨c, gap, hGap⟩ := List.exists_cons_of_ne_nil filled
    intro d hd
    rw [textOf, hGap] at hd
    exact parted d (by rwa [hGap])

theorem scans_textOf {last : List Char} {pieces : List Piece} (layout : IsLayout [] last)
    (hLast : Parted last) (hGaps : ∀ piece ∈ pieces.tail, piece.gap ≠ [] ∧ Parted piece.gap) :
    Scans (textOf last pieces)
      (pieces.map fun piece => (piece.kind, String.ofList piece.chars)) := by
  induction pieces with
  | nil => exact .done (congrArg Prod.snd (cutLayout_of_isLayout layout))
  | cons piece pieces ih =>
    have hMore : Parted (textOf last pieces) := parted_textOf hLast hGaps
    have found := read?_of_isLexeme_append piece.isLexeme hMore
    have cut : cutLayout false (textOf last (piece :: pieces)) =
        (piece.gap, piece.chars ++ textOf last pieces) := by
      have filled : piece.chars ≠ [] :=
        Lexeme.read?_chars_ne_nil (Lexeme.read?_of_isLexeme piece.isLexeme)
      exact cutLayout_append_of_isLayout (piece.layout.append filled _)
        (cutLayout_of_isLexeme piece.isLexeme hMore)
    refine Scans.more (l := ⟨piece.kind, piece.chars, textOf last pieces⟩) ?_ ?_
    · rw [cut, found]
    · exact ih fun piece member => hGaps piece (List.mem_of_mem_tail member)

theorem scans (p : Printing) : Scans p.text.toList p.words := by
  rw [text, String.toList_ofList]
  exact scans_textOf p.layout p.last_parted p.gaps_parted

end Printing

end Token

end Abacus
