import Abacus.Proofs.Token.Printing

/-! The longest match.  What is read at the start of a text is a lexeme of the kind that is told,
and in a longer text what is read is no shorter.  So no lexeme at the same place is longer than what
is read, and nothing is read only where there is no lexeme at all.  Of the characters of names this
rests on no more than that those that begin a name also continue one, that no digit begins a name,
and that the characters of operators and punctuation do neither. -/

namespace Abacus.Token

open Text

namespace Lexeme

variable {text : List Char} {l : Lexeme}

/-! ### What is read is a lexeme -/

theorem isLexeme_symbol {c : Char} {kind : Kind} (h : symbol? c = some kind) :
    IsLexeme kind [c] := by
  unfold symbol? at h
  split at h <;> cases h <;> exact .fixed rfl

theorem isLexeme_orEqual? {c : Char} {double : Kind} {alone : Option Kind} {rest : List Char}
    (hc : comparison? c = some (double, alone)) (h : orEqual? double alone c rest = some l) :
    IsLexeme l.kind l.chars := by
  have withEqual : IsLexeme double [c, '='] := by
    unfold comparison? at hc
    split at hc <;> cases hc <;> exact .fixed rfl
  have without : ∀ kind ∈ alone, IsLexeme kind [c] := by
    unfold comparison? at hc
    split at hc <;> cases hc <;> rintro _ ⟨⟩ <;> exact .fixed rfl
  unfold orEqual? at h
  split at h
  · cases h
    exact withEqual
  · obtain ⟨kind, rfl, rfl⟩ := Option.map_eq_some_iff.mp h
    exact without kind rfl

theorem isLexeme_number {c : Char} (rest : List Char) (h : c.isDigit = true) :
    IsLexeme .number (number (c :: rest)).chars := by
  have filled : (c :: rest).takeWhile Char.isDigit ≠ [] := by simp [h]
  unfold number
  split
  · exact .decimal filled (fun _ => List.mem_takeWhile_imp) fun _ => List.mem_takeWhile_imp
  · exact .whole filled fun _ => List.mem_takeWhile_imp

theorem kind_number (text : List Char) : (number text).kind = .number := by
  unfold number
  split <;> rfl

theorem isLexeme_word {c : Char} (rest : List Char) (h : isNameStart c = true) :
    IsLexeme (word (c :: rest)).kind (word (c :: rest)).chars := by
  have chars_eq : (c :: rest).takeWhile isNameChar = c :: rest.takeWhile isNameChar := by
    rw [List.takeWhile_cons, isNameChar_of_isNameStart h, if_pos rfl]
  simp only [word, chars_eq]
  cases found : Kind.keyword? (String.ofList (c :: rest.takeWhile isNameChar)) with
  | none =>
    refine .name h (fun _ => List.mem_takeWhile_imp) ?_
    intro kind isKeyword spelled
    have text_eq : String.ofList (c :: rest.takeWhile isNameChar) = kind.name := by
      rw [← spelled, String.ofList_toList]
    rw [Kind.keyword?_eq_some_iff.mpr ⟨isKeyword, text_eq⟩] at found
    cases found
  | some kind =>
    obtain ⟨isKeyword, text_eq⟩ := Kind.keyword?_eq_some_iff.mp found
    have one : kind.hasOneLexeme = true := by cases kind <;> first | rfl | cases isKeyword
    have fixed := IsLexeme.fixed one
    rwa [← text_eq, String.toList_ofList] at fixed

/-- What is read is a lexeme of its kind. -/
theorem isLexeme_of_read? (h : read? text = some l) : IsLexeme l.kind l.chars := by
  unfold read? at h
  split at h
  · cases h
  · next c rest =>
    split at h
    · next kind isSymbol =>
      cases h
      exact isLexeme_symbol isSymbol
    · next isComparison => exact isLexeme_orEqual? isComparison h
    · split at h
      · next isDigit =>
        cases h
        rw [kind_number]
        exact isLexeme_number rest isDigit
      · split at h
        · next isStart =>
          cases h
          exact isLexeme_word rest isStart
        · cases h

/-! ### What is read in a longer text -/

theorem takeWhile_isPrefix_append (p : Char → Bool) (text more : List Char) :
    text.takeWhile p <+: (text ++ more).takeWhile p := by
  induction text with
  | nil => exact List.nil_prefix
  | cons c rest ih =>
    rw [List.cons_append, List.takeWhile_cons, List.takeWhile_cons]
    split
    · exact List.cons_prefix_cons.mpr ⟨rfl, ih⟩
    · exact List.nil_prefix

theorem number_isPrefix_append (text more : List Char) :
    (number text).chars <+: (number (text ++ more)).chars := by
  cases behind : text.dropWhile Char.isDigit with
  | nil =>
    -- The whole text is digits, and a number begins with all the digits ahead.
    have all : ∀ c ∈ text, c.isDigit = true := List.dropWhile_eq_nil_iff.mp behind
    have digits : text <+: (text ++ more).takeWhile Char.isDigit := by
      rw [List.takeWhile_append_of_pos all]
      exact List.prefix_append _ _
    rw [number_whole all]
    unfold number
    split
    · exact digits.trans (List.prefix_append _ _)
    · exact digits
  | cons c rest =>
    have sameDigits : (text ++ more).takeWhile Char.isDigit = text.takeWhile Char.isDigit := by
      rw [List.takeWhile_append, if_neg]
      intro allTaken
      have cut := List.takeWhile_append_dropWhile (p := Char.isDigit) (l := text)
      rw [behind] at cut
      have lengths := congrArg List.length cut
      rw [List.length_append, List.length_cons] at lengths
      omega
    have sameBehind : (text ++ more).dropWhile Char.isDigit = c :: (rest ++ more) := by
      rw [List.dropWhile_append, behind]
      rfl
    unfold number
    rw [sameDigits, sameBehind, behind]
    by_cases point : c = '.'
    · subst point
      exact (List.prefix_append_right_inj _).mpr
        (List.cons_prefix_cons.mpr ⟨rfl, takeWhile_isPrefix_append _ rest more⟩)
    · split
      · next eq => exact absurd (List.cons.inj eq).1 point
      · split
        · next eq => exact absurd (List.cons.inj eq).1 point
        · exact List.prefix_rfl

theorem orEqual?_append_of_some {double : Kind} {alone : Option Kind} {c : Char} {rest : List Char}
    (h : orEqual? double alone c rest = some l) (more : List Char) :
    ∃ l', orEqual? double alone c (rest ++ more) = some l' ∧ l.chars <+: l'.chars := by
  unfold orEqual? at h ⊢
  split at h
  · cases h
    exact ⟨_, rfl, List.prefix_rfl⟩
  · obtain ⟨kind, rfl, rfl⟩ := Option.map_eq_some_iff.mp h
    split
    · exact ⟨_, rfl, List.prefix_append [c] ['=']⟩
    · exact ⟨_, rfl, List.prefix_rfl⟩

/-- What is read in a longer text begins with what is read in the text. -/
theorem read?_append_of_some (h : read? text = some l) (more : List Char) :
    ∃ l', read? (text ++ more) = some l' ∧ l.chars <+: l'.chars := by
  cases text with
  | nil => cases h
  | cons c rest =>
    simp only [read?, List.cons_append] at h ⊢
    split at h
    · cases h
      exact ⟨_, rfl, List.prefix_rfl⟩
    · exact orEqual?_append_of_some h more
    · split at h
      · next isDigit =>
        cases h
        rw [if_pos isDigit]
        exact ⟨_, rfl, number_isPrefix_append (c :: rest) more⟩
      · next notDigit =>
        rw [if_neg notDigit]
        split at h
        · next isStart =>
          cases h
          rw [if_pos isStart]
          exact ⟨_, rfl, takeWhile_isPrefix_append _ (c :: rest) more⟩
        · cases h

/-- A text that begins with a lexeme is read at least as far. -/
theorem exists_read?_of_isLexeme {kind : Kind} {chars : List Char} (h : IsLexeme kind chars)
    (begins : chars <+: text) : ∃ l, read? text = some l ∧ chars <+: l.chars := by
  obtain ⟨more, rfl⟩ := begins
  exact read?_append_of_some (read?_of_isLexeme h) more

end Lexeme

theorem IsLexeme.kind_eq {kind kind' : Kind} {chars : List Char} (h : IsLexeme kind chars)
    (h' : IsLexeme kind' chars) : kind = kind' := by
  have found := Lexeme.read?_of_isLexeme h
  rw [Lexeme.read?_of_isLexeme h'] at found
  exact (congrArg Lexeme.kind (Option.some.inj found)).symm

/-- Every word of a text is a lexeme. -/
theorem Scans.isLexeme {text : List Char} {words : List (Kind × String)} (h : Scans text words) :
    ∀ word ∈ words, IsLexeme word.1 word.2.toList := by
  induction h with
  | done => nofun
  | more found _ ih =>
    refine List.forall_mem_cons.mpr ⟨?_, ih⟩
    rw [String.toList_ofList]
    exact Lexeme.isLexeme_of_read? found

theorem Scans.isLexeme_of_mem {text : List Char} {tokens : List Token}
    (h : Scans text (tokens.map word)) : ∀ t ∈ tokens, IsLexeme t.kind t.lexeme.toList := by
  intro t member
  exact h.isLexeme t.word (List.mem_map_of_mem member)

/-! ### The longest match in a source -/

/-- What an item in front of `after` says of the text.  The kind of a token is the one kind that has
its lexeme, and no longer lexeme begins at the same place.  At an error no lexeme begins. -/
def Item.LongestMatch (after : List Char) : Item → Prop
  | .ok token =>
    (∀ kind, token.kind = kind ↔ IsLexeme kind token.lexeme.toList) ∧
      ∀ kind longer, longer <+: token.lexeme.toList ++ after →
        token.lexeme.toList.length < longer.length → ¬ IsLexeme kind longer
  | .error e => ∀ kind front, front <+: e.char :: after → ¬ IsLexeme kind front

namespace Stream

theorem next_longest {s after : Stream} {item : Item} (h : s.next = (item, after))
    (inside : item.isEof = false) : item.LongestMatch after.rest := by
  unfold next at h
  simp only at h
  split at h
  · cases h
    cases inside
  · next c tail ahead =>
    split at h
    · next l found =>
      cases h
      have isLexeme := Lexeme.isLexeme_of_read? found
      simp only [Item.LongestMatch, String.toList_ofList, Lexeme.read?_append found]
      refine ⟨fun kind => ⟨fun eq => eq ▸ isLexeme, fun other => isLexeme.kind_eq other⟩, ?_⟩
      intro kind longer begins beyond other
      obtain ⟨l', found', reaches⟩ := Lexeme.exists_read?_of_isLexeme other begins
      rw [found] at found'
      cases found'
      have := reaches.length_le
      omega
    · next missing =>
      cases h
      simp only [Item.LongestMatch, char_refusal]
      intro kind front begins isLexeme
      obtain ⟨l, found, -⟩ := Lexeme.exists_read?_of_isLexeme isLexeme begins
      rw [missing] at found
      cases found

/-- Every item of the calls stands in the source, in front of a text that it is longest before. -/
theorem Calls.longest {s : Stream} {items : List Item} {eof : Token} (h : s.Calls items eof)
    (before : List Char) (hBefore : byteLength before = s.offset) :
    ∀ item ∈ items, ∃ after,
      StandsAt (before ++ s.rest) item.span item.text after ∧ item.LongestMatch after := by
  induction h generalizing before with
  | done => nofun
  | @more s after first items eof step inside _ ih =>
    rcases s.next_cases with ⟨_, step', -⟩ | ⟨gap, _, _, step', -, cut, follows, offset_eq⟩
    · rw [step] at step'
      cases step'
      cases inside
    · rw [step] at step'
      cases step'
      have start_eq := follows.start_eq
      have stop_eq := follows.stop_eq
      intro item member
      rcases List.mem_cons.mp member with rfl | member
      · refine ⟨after.rest, ⟨before ++ gap, by simp [cut], ?_⟩, next_longest step inside⟩
        rw [byteLength_append, hBefore, ← stop_eq, ← start_eq]
      · have others := ih (before ++ (gap ++ first.text))
          (by simp only [byteLength_append, hBefore, offset_eq, stop_eq, Nat.add_assoc]) item member
        rwa [List.append_assoc, List.append_assoc, ← cut] at others

end Stream

/-- The calls on a source, up to the end token, give items that stand in the source.  The kind of a
token is the one that has its lexeme, and no longer text from the start of the token on is a lexeme
of any kind.  Where a call gives an error, no text from there on is a lexeme. -/
theorem items_longest (source : String) :
    ∃ items eof, (Stream.ofSource source).Calls items eof ∧
      ∀ item ∈ items, ∃ after,
        StandsAt source.toList item.span item.text after ∧ item.LongestMatch after := by
  obtain ⟨items, eof, calls⟩ := (Stream.ofSource source).exists_calls
  exact ⟨items, eof, calls, calls.longest [] rfl⟩

end Abacus.Token
