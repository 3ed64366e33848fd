import Abacus.Console.Line
import Abacus.Proofs.Token.Lossless
import Mathlib.Data.List.Basic
import Mathlib.Data.List.TakeWhile

/-! Completion at a cursor that is given by its byte offset.  The word before the cursor is cut out
between two characters, it goes back as far as there are characters of words, and completions and
hints are what the known words have behind it. -/

namespace Abacus.Console

open Text

/-! ### Offsets between characters -/

theorem isValid_iff {text : String} {offset : Nat} :
    String.Pos.Raw.IsValid text ⟨offset⟩ ↔
      ∃ front back, text.toList = front ++ back ∧ byteLength front = offset := by
  rw [String.Pos.Raw.isValid_iff_exists_append]
  constructor
  · rintro ⟨front, back, rfl, hOffset⟩
    refine ⟨front.toList, back.toList, String.toList_append, ?_⟩
    rw [byteLength_toList]
    exact (congrArg String.Pos.Raw.byteIdx hOffset).symm
  · rintro ⟨front, back, hText, rfl⟩
    refine ⟨String.ofList front, String.ofList back, ?_, ?_⟩
    · rw [← String.ofList_append, ← hText, String.ofList_toList]
    · apply String.Pos.Raw.ext
      rw [String.byteIdx_rawEndPos, ← byteLength_toList, String.toList_ofList]

namespace Line

theorem cutBytes_byteLength (front back : List Char) :
    cutBytes (byteLength front) (front ++ back) = (front, back) := by
  induction front with
  | nil =>
    cases back with
    | nil => rfl
    | cons c back =>
      have hSize : ¬ c.utf8Size ≤ 0 := by
        have := c.utf8Size_pos
        omega
      simp [cutBytes, byteLength, hSize]
  | cons c front ih => simp [cutBytes, byteLength, ih]

theorem exists_ofOffset {text : String} {pos : Nat} (h : String.Pos.Raw.IsValid text ⟨pos⟩) :
    text.toList = (ofOffset text pos).before ++ (ofOffset text pos).after ∧
      (ofOffset text pos).offset = pos := by
  obtain ⟨front, back, hText, rfl⟩ := isValid_iff.mp h
  have hCut : ofOffset text (byteLength front) = ⟨front, back⟩ := by
    rw [ofOffset, hText, cutBytes_byteLength]
  rw [hCut]
  exact ⟨hText, rfl⟩

/-! ### The word before the cursor -/

/-- The word that ends at `pos` begins at `start`: it stands between two offsets in the text, is made
of the characters of words, and nothing or some other character stands before it. -/
structure WordEndsAt (text : String) (start pos : Nat) (word : List Char) : Prop where
  valid : String.Pos.Raw.IsValid text ⟨start⟩
  start_le : start ≤ pos
  stands : ∃ after, Token.StandsAt text.toList ⟨start, pos⟩ word after
  inside : ∀ c ∈ word, isWordChar c = true
  whole : start = 0 ∨ ∃ front c back, text.toList = front ++ c :: back ∧
    byteLength (front ++ [c]) = start ∧ isWordChar c = false

theorem isWordChar_of_mem_word {line : Line} : ∀ c ∈ line.word, isWordChar c = true := by
  intro c hc
  exact List.mem_takeWhile_imp (List.mem_reverse.mp hc)

theorem wordEndsAt {text : String} {line : Line} (h : text.toList = line.before ++ line.after) :
    WordEndsAt text line.wordOffset line.offset line.word := by
  have hText : text.toList = line.lead ++ (line.word ++ line.after) := by
    rw [h, ← line.lead_append_word, List.append_assoc]
  have hOffset : line.offset = line.wordOffset + byteLength line.word := by
    rw [offset, ← line.lead_append_word, byteLength_append, wordOffset]
  refine ⟨?_, by omega, ⟨line.after, line.lead, hText, ?_⟩, isWordChar_of_mem_word, ?_⟩
  · exact isValid_iff.mpr ⟨line.lead, _, hText, rfl⟩
  · rw [hOffset, wordOffset]
  · rcases reverse_dropWhile_cases isWordChar line.before with hNil | ⟨front, c, hLead, hOther⟩
    · left
      rw [wordOffset, lead, hNil]
      rfl
    · right
      refine ⟨front, c, line.word ++ line.after, ?_, ?_, hOther⟩
      · rw [hText, lead, hLead, List.append_assoc, List.singleton_append]
      · rw [wordOffset, lead, hLead]

/-! ### Completions -/

/-- The known words that begin with a word, in their order and each once, with what they have behind
it.  The cut is between two characters. -/
structure Completes (word : List Char) (pairs : List (String × String)) : Prop where
  known : pairs.map Prod.fst = words.filter fun known => word.isPrefixOf known.toList
  distinct : (pairs.map Prod.fst).Nodup
  missing : ∀ pair ∈ pairs, pair.1 = String.ofList word ++ pair.2
  valid : ∀ pair ∈ pairs, String.Pos.Raw.IsValid pair.1 ⟨byteLength word⟩

theorem nodup_words : words.Nodup := by decide +kernel

theorem isValid_behind (word : List Char) (missing : String) :
    String.Pos.Raw.IsValid (String.ofList word ++ missing) ⟨byteLength word⟩ := by
  refine isValid_iff.mpr ⟨word, missing.toList, ?_, rfl⟩
  rw [String.toList_append, String.toList_ofList]

/-- What a known word has behind a word that it begins with. -/
def missing? (word : List Char) (known : String) : Option (String × String) :=
  (word.isPrefixOf? known.toList).map fun missing => (known, String.ofList missing)

theorem missing?_eq_some_iff {word : List Char} {known : String} {pair : String × String} :
    missing? word known = some pair ↔ pair.1 = known ∧ known = String.ofList word ++ pair.2 := by
  obtain ⟨displayed, missing⟩ := pair
  rw [missing?, Option.map_eq_some_iff]
  constructor
  · rintro ⟨rest, hRest, hPair⟩
    cases hPair
    refine ⟨rfl, ?_⟩
    rw [← String.ofList_append, List.append_eq_of_isPrefixOf?_eq_some hRest, String.ofList_toList]
  · rintro ⟨rfl, hKnown⟩
    refine ⟨missing.toList, List.isPrefixOf?_eq_some_iff_append_eq.mpr ?_, ?_⟩
    · rw [hKnown, String.toList_append, String.toList_ofList]
    · rw [String.ofList_toList]

theorem completions_of_word {line : Line} (h : line.word ≠ []) :
    line.completions = words.filterMap (missing? line.word) := by
  rw [completions, if_neg (by simpa using h)]
  rfl

theorem map_fst_missing? (word : List Char) (known : String) :
    (missing? word known).map Prod.fst =
      Option.guard (fun known => word.isPrefixOf known.toList) known := by
  have hPrefix := List.isSome_isPrefixOf?_eq_isPrefixOf word known.toList
  rw [missing?, Option.guard, ← hPrefix]
  cases word.isPrefixOf? known.toList <;> rfl

theorem completes {line : Line} (h : line.word ≠ []) : Completes line.word line.completions := by
  have hKnown : line.completions.map Prod.fst =
      words.filter fun known => line.word.isPrefixOf known.toList := by
    rw [completions_of_word h, List.map_filterMap, ← List.filterMap_eq_filter]
    exact congrArg (List.filterMap · words) (funext (map_fst_missing? line.word))
  have hMissing : ∀ pair ∈ line.completions, pair.1 = String.ofList line.word ++ pair.2 := by
    intro pair hMem
    rw [completions_of_word h, List.mem_filterMap] at hMem
    obtain ⟨known, -, hPair⟩ := hMem
    obtain ⟨hFirst, hSecond⟩ := missing?_eq_some_iff.mp hPair
    exact hFirst.trans hSecond
  refine ⟨hKnown, ?_, hMissing, ?_⟩
  · rw [hKnown]
    exact nodup_words.filter _
  · intro pair hMem
    rw [hMissing pair hMem]
    exact isValid_behind line.word pair.2

/-! ### Hints -/

/-- What the first known word that is longer than the given one has behind it. -/
def IsHint (word : List Char) (missing : String) : Prop :=
  ∃ front known back, words = front ++ known :: back ∧ known = String.ofList word ++ missing ∧
    missing ≠ "" ∧ ∀ other ∈ front, ∀ rest, other = String.ofList word ++ rest → rest = ""

theorem missing?_any_iff {word : List Char} {known : String} :
    (missing? word known).any (fun pair => !pair.2.isEmpty) = true ↔
      ∃ missing, known = String.ofList word ++ missing ∧ missing ≠ "" := by
  rw [Option.any_eq_true]
  constructor
  · rintro ⟨pair, hPair, hLonger⟩
    exact ⟨pair.2, (missing?_eq_some_iff.mp hPair).2, by simpa using hLonger⟩
  · rintro ⟨missing, hKnown, hLonger⟩
    exact ⟨(known, missing), missing?_eq_some_iff.mpr ⟨rfl, hKnown⟩, by simpa using hLonger⟩

theorem find?_completions {line : Line} (h : line.word ≠ []) {missing : String} :
    (∃ known, line.completions.find? (fun pair => !pair.2.isEmpty) = some (known, missing)) ↔
      IsHint line.word missing := by
  rw [completions_of_word h, List.find?_filterMap]
  constructor
  · rintro ⟨displayed, hFind⟩
    obtain ⟨known, hKnown, hPair⟩ := Option.bind_eq_some_iff.mp hFind
    obtain ⟨hLonger, front, back, hWords, hFront⟩ := List.find?_eq_some_iff_append.mp hKnown
    obtain ⟨-, hMissing⟩ := missing?_eq_some_iff.mp hPair
    rw [hPair] at hLonger
    refine ⟨front, known, back, hWords, hMissing, by simpa using hLonger, ?_⟩
    intro other hOther rest hRest
    apply Classical.byContradiction
    intro hFilled
    have hAny := missing?_any_iff.mpr ⟨rest, hRest, hFilled⟩
    have hNone := hFront other hOther
    rw [hAny] at hNone
    cases hNone
  · rintro ⟨front, known, back, hWords, hMissing, hFilled, hFront⟩
    refine ⟨known, Option.bind_eq_some_iff.mpr ⟨known, ?_, ?_⟩⟩
    · apply List.find?_eq_some_iff_append.mpr
      refine ⟨missing?_any_iff.mpr ⟨missing, hMissing, hFilled⟩, front, back, hWords, ?_⟩
      intro other hOther
      rw [Bool.not_eq_true', ← Bool.not_eq_true, missing?_any_iff]
      rintro ⟨rest, hRest, hLonger⟩
      exact hLonger (hFront other hOther rest hRest)
    · exact missing?_eq_some_iff.mpr ⟨rfl, hMissing⟩

theorem hint?_eq_some_iff {line : Line} {missing : String} :
    line.hint? false = some missing ↔
      line.after = [] ∧ 2 ≤ byteLength line.word ∧ IsHint line.word missing := by
  by_cases hPlace : line.after = [] ∧ 2 ≤ byteLength line.word
  · have hWord : line.word ≠ [] := by
      intro hNil
      rw [hNil] at hPlace
      exact absurd hPlace.2 (by decide)
    rw [hint?, if_pos (by simpa using hPlace), ← and_assoc, and_iff_right hPlace,
      ← find?_completions hWord, Option.map_eq_some_iff]
    constructor
    · rintro ⟨⟨known, _⟩, hFind, rfl⟩
      exact ⟨known, hFind⟩
    · rintro ⟨known, hFind⟩
      exact ⟨(known, missing), hFind, rfl⟩
  · rw [hint?, if_neg (by simpa using hPlace), ← and_assoc]
    simp [hPlace]

/-- Whatever the text, and wherever the cursor is between its characters: the word before the cursor
goes back from it as far as there are characters of words.  The completions at the cursor are the
known words that begin with this word.  There is a hint if the cursor is at the end, behind a word
of two bytes or more that a known word goes on from. -/
theorem completes_word_before_cursor {text : String} {pos : Nat}
    (h : String.Pos.Raw.IsValid text ⟨pos⟩) :
    WordEndsAt text (ofOffset text pos).wordOffset pos (ofOffset text pos).word ∧
      (∃ pairs, (ofOffset text pos).complete = (pos, pairs) ∧
        ((ofOffset text pos).word = [] → pairs = []) ∧
        ((ofOffset text pos).word ≠ [] → Completes (ofOffset text pos).word pairs)) ∧
      ∀ missing, (ofOffset text pos).hint? false = some missing ↔
        pos = text.utf8ByteSize ∧ 2 ≤ byteLength (ofOffset text pos).word ∧
          IsHint (ofOffset text pos).word missing := by
  obtain ⟨hText, hPos⟩ := exists_ofOffset h
  generalize ofOffset text pos = line at hText hPos
  subst hPos
  have hEnd : line.after = [] ↔ line.offset = text.utf8ByteSize := by
    have hSize : text.utf8ByteSize = line.offset + byteLength line.after := by
      rw [← byteLength_toList, hText, byteLength_append, offset]
    constructor
    · intro hNil
      rw [hSize, hNil]
      rfl
    · intro hOffset
      apply Classical.byContradiction
      intro hFilled
      have := byteLength_pos hFilled
      omega
  refine ⟨wordEndsAt hText, ⟨line.completions, rfl, ?_, completes⟩, ?_⟩
  · intro hNil
    rw [completions, hNil]
    rfl
  · intro missing
    rw [hint?_eq_some_iff, hEnd]

/-- A word behind letters of two bytes and a separator of three. -/
def behindEllipsis : String := "größe…pr"

theorem completes_word_before_cursor_behindEllipsis :
    String.Pos.Raw.IsValid behindEllipsis ⟨12⟩ ∧
      WordEndsAt behindEllipsis 10 12 ['p', 'r'] ∧
      Completes ['p', 'r'] [("print", "int")] ∧
      IsHint ['p', 'r'] "int" := by
  have valid : String.Pos.Raw.IsValid behindEllipsis ⟨12⟩ :=
    isValid_iff.mpr ⟨behindEllipsis.toList, [], (List.append_nil _).symm, by decide⟩
  have hWord : (ofOffset behindEllipsis 12).word = ['p', 'r'] := by decide +kernel
  have hStart : (ofOffset behindEllipsis 12).wordOffset = 10 := by decide +kernel
  have hPairs : (ofOffset behindEllipsis 12).complete = (12, [("print", "int")]) := by decide +kernel
  have hHint : (ofOffset behindEllipsis 12).hint? false = some "int" := by decide +kernel
  obtain ⟨hEnds, ⟨pairs, hComplete, -, hCompletes⟩, hHints⟩ := completes_word_before_cursor valid
  obtain ⟨-, rfl⟩ := Prod.mk.inj (hPairs.symm.trans hComplete)
  rw [hWord, hStart] at hEnds
  rw [hWord] at hCompletes
  have hFirst := ((hHints "int").mp hHint).2.2
  rw [hWord] at hFirst
  exact ⟨valid, hEnds, hCompletes (by simp), hFirst⟩

end Line

end Abacus.Console
