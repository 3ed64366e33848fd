import Abacus.Proofs.Token.Lossless

/-! Scanning without places.  A word is a token without its span.  `Scans text words` says that a
text has no scan error and which words it has before the end token.  A line feed between two texts
ends the last word or comment of the first one, so the text has the words of both. -/

namespace Abacus.Token

open Text

/-- The kind and the lexeme of a token. -/
def word (t : Token) : Kind × String := (t.kind, t.lexeme)

/-- The text is cut into the given words. -/
inductive Scans : List Char → List (Kind × String) → Prop
  | done {text : List Char} (layout : (cutLayout false text).2 = []) : Scans text []
  | more {text : List Char} {l : Lexeme} {words : List (Kind × String)}
      (found : Lexeme.read? (cutLayout false text).2 = some l) (others : Scans l.rest words) :
      Scans text ((l.kind, String.ofList l.chars) :: words)

/-! ### Words and tokens -/

namespace Stream

theorem next_of_layout {s : Stream} (h : (cutLayout false s.rest).2 = []) :
    ∃ eof after, s.next = (.ok eof, after) ∧ eof.isEof = true := by
  unfold next
  simp only [h]
  exact ⟨_, _, rfl, rfl⟩

theorem next_of_read? {s : Stream} {l : Lexeme}
    (h : Lexeme.read? (cutLayout false s.rest).2 = some l) :
    ∃ token after, s.next = (.ok token, after) ∧ token.word = (l.kind, String.ofList l.chars) ∧
      token.isEof = false ∧ after.rest = l.rest := by
  have inside : (l.kind == .eof) = false := by simpa using Lexeme.read?_kind_ne_eof h
  unfold next
  simp only
  split
  · next ahead => simp [ahead, Lexeme.read?] at h
  · next ahead =>
    rw [ahead] at h
    simp only [h]
    exact ⟨_, _, rfl, rfl, inside, rfl⟩

theorem next_eq_ok {s after : Stream} {token : Token} (h : s.next = (.ok token, after)) :
    (token.isEof = true ∧ (cutLayout false s.rest).2 = []) ∨
      ∃ l, Lexeme.read? (cutLayout false s.rest).2 = some l ∧
        token.word = (l.kind, String.ofList l.chars) ∧ token.isEof = false ∧
        after.rest = l.rest := by
  cases ahead : (cutLayout false s.rest).2 with
  | nil =>
    obtain ⟨eof, _, step, isEof⟩ := next_of_layout ahead
    rw [h] at step
    cases step
    exact .inl ⟨isEof, rfl⟩
  | cons c tail =>
    cases found : Lexeme.read? (c :: tail) with
    | none =>
      unfold next at h
      simp only [ahead, found] at h
      cases h
    | some l =>
      obtain ⟨_, _, step, word_eq, inside, rest_eq⟩ := next_of_read? (s := s) (ahead ▸ found)
      rw [h] at step
      cases step
      exact .inr ⟨l, rfl, word_eq, inside, rest_eq⟩

theorem Calls.scans {s : Stream} {items : List Item} {eof : Token} (h : s.Calls items eof)
    {tokens : List Token} (hItems : items = tokens.map .ok) :
    Scans s.rest (tokens.map word) := by
  induction h generalizing tokens with
  | done step isEof =>
    obtain rfl := List.map_eq_nil_iff.mp hItems.symm
    rcases next_eq_ok step with ⟨-, layout⟩ | ⟨_, _, _, inside, _⟩
    · exact .done layout
    · cases isEof.symm.trans inside
  | more step inside _ ih =>
    obtain ⟨token, tokens, rfl, rfl, rfl⟩ := List.map_eq_cons_iff.mp hItems.symm
    rcases next_eq_ok step with ⟨isEof, -⟩ | ⟨l, found, word_eq, -, rest_eq⟩
    · cases isEof.symm.trans inside
    · rw [List.map_cons, word_eq]
      exact .more found (rest_eq ▸ ih rfl)

theorem calls_of_scans {s : Stream} {words : List (Kind × String)} (h : Scans s.rest words) :
    ∃ (tokens : List Token) (eof : Token),
      s.Calls (tokens.map .ok) eof ∧ tokens.map word = words := by
  generalize hText : s.rest = text at h
  induction h generalizing s with
  | done layout =>
    obtain ⟨eof, after, step, isEof⟩ := next_of_layout (hText ▸ layout)
    exact ⟨[], eof, .done step isEof, rfl⟩
  | more found _ ih =>
    obtain ⟨token, after, step, word_eq, inside, rest_eq⟩ := next_of_read? (hText ▸ found)
    obtain ⟨tokens, eof, calls, rfl⟩ := ih rest_eq
    exact ⟨token :: tokens, eof, .more step inside calls, by rw [List.map_cons, word_eq]⟩

theorem Calls.isEof {s : Stream} {items : List Item} {eof : Token} (h : s.Calls items eof) :
    eof.isEof = true := by
  induction h with
  | done _ isEof => exact isEof
  | more _ _ _ ih => exact ih

theorem Calls.inside {s : Stream} {items : List Item} {eof : Token} (h : s.Calls items eof) :
    ∀ item ∈ items, item.isEof = false := by
  induction h with
  | done => nofun
  | more _ inside _ ih => exact List.forall_mem_cons.mpr ⟨inside, ih⟩

end Stream

theorem mapM_id_map_ok (tokens : List Token) :
    (tokens.map Except.ok : List Item).mapM id = .ok tokens := by
  induction tokens with
  | nil => rfl
  | cons token tokens ih => simp [ih, bind, Except.bind, pure, Except.pure]

theorem eq_map_ok_of_mapM {items : List Item} {tokens : List Token}
    (h : items.mapM id = .ok tokens) : items = tokens.map .ok := by
  induction items generalizing tokens with
  | nil => cases h; rfl
  | cons item items ih =>
    rw [List.mapM_cons] at h
    cases item with
    | error e => cases h
    | ok token =>
      cases others : items.mapM id with
      | error e => rw [others] at h; cases h
      | ok rest =>
        rw [others] at h
        cases h
        rw [ih others, List.map_cons]

theorem exists_of_mapM_error {items : List Item} {e : ScanError} (h : items.mapM id = .error e) :
    ∃ (tokens : List Token) (others : List Item), items = tokens.map .ok ++ .error e :: others := by
  induction items with
  | nil => cases h
  | cons item items ih =>
    rw [List.mapM_cons] at h
    cases item with
    | error e' =>
      cases h
      exact ⟨[], items, rfl⟩
    | ok token =>
      cases rest : items.mapM id with
      | ok tokens =>
        rw [rest] at h
        cases h
      | error e' =>
        rw [rest] at h
        cases h
        obtain ⟨tokens, others, rfl⟩ := ih rest
        exact ⟨token :: tokens, others, rfl⟩

theorem Stream.Calls.of_tokens_ok {s : Stream} {items : List Item} {eof : Token}
    {tokens : List Token} (h : s.Calls items eof) (hTokens : s.tokens = .ok tokens) :
    ∃ front : List Token, items = front.map .ok ∧ tokens = front ++ [eof] := by
  rw [h.tokens_eq] at hTokens
  cases read : items.mapM id with
  | error e =>
    rw [read] at hTokens
    cases hTokens
  | ok front =>
    rw [read] at hTokens
    cases hTokens
    exact ⟨front, eq_map_ok_of_mapM read, rfl⟩

theorem Stream.Calls.of_tokens_error {s : Stream} {items : List Item} {eof : Token}
    {e : ScanError} (h : s.Calls items eof) (hTokens : s.tokens = .error e) :
    ∃ (front : List Token) (others : List Item), items = front.map .ok ++ .error e :: others := by
  rw [h.tokens_eq] at hTokens
  cases failed : items.mapM id with
  | error e' =>
    rw [failed] at hTokens
    cases hTokens
    exact exists_of_mapM_error failed
  | ok front =>
    rw [failed] at hTokens
    cases hTokens

/-- The tokens of a source are words and the end token. -/
theorem scans_of_scan {source : String} {tokens : List Token} (h : scan source = .ok tokens) :
    ∃ front eof, tokens = front ++ [eof] ∧ eof.isEof = true ∧ (∀ t ∈ front, t.isEof = false) ∧
      Scans source.toList (front.map word) := by
  obtain ⟨items, eof, calls⟩ := (Stream.ofSource source).exists_calls
  obtain ⟨front, rfl, rfl⟩ := calls.of_tokens_ok h
  have inside : ∀ t ∈ front, t.isEof = false := fun t member =>
    calls.inside (.ok t) (List.mem_map_of_mem member)
  exact ⟨front, eof, rfl, calls.isEof, inside, calls.scans rfl⟩

theorem scan_of_scans {source : String} {words : List (Kind × String)}
    (h : Scans source.toList words) :
    ∃ front eof, scan source = .ok (front ++ [eof]) ∧ eof.isEof = true ∧
      front.map word = words := by
  obtain ⟨front, eof, calls, words_eq⟩ := Stream.calls_of_scans (s := .ofSource source) h
  refine ⟨front, eof, ?_, calls.isEof, words_eq⟩
  rw [scan, calls.tokens_eq, mapM_id_map_ok]
  rfl

/-! ### Words in a longer text -/

/-- Behind a lexeme the character is no part of it. -/
def Separates (c : Char) : Prop := isNameChar c = false ∧ c ≠ '=' ∧ c ≠ '.'

theorem Separates.isDigit {c : Char} (h : Separates c) : c.isDigit = false := by
  have := h.1
  simp only [isNameChar, Bool.or_eq_false_iff] at this
  exact this.1.2

theorem separates_lineFeed : Separates '\n' :=
  ⟨isNameChar_of_ascii (by decide), by decide, by decide⟩

section Behind

variable {c : Char} (more : List Char)

theorem takeWhile_behind {p : Char → Bool} (hc : p c = false) (text : List Char) :
    (text ++ c :: more).takeWhile p = text.takeWhile p := by
  induction text with
  | nil => simp [hc]
  | cons a text ih => simp [List.takeWhile_cons, ih]

theorem dropWhile_behind {p : Char → Bool} (hc : p c = false) (text : List Char) :
    (text ++ c :: more).dropWhile p = text.dropWhile p ++ c :: more := by
  rw [List.dropWhile_append]
  split
  · next empty => simp [hc, List.isEmpty_iff.mp empty]
  · rfl

namespace Lexeme

/-- The same lexeme in front of a longer text. -/
def before (l : Lexeme) (more : List Char) : Lexeme := { l with rest := l.rest ++ more }

theorem orEqual?_behind (hc : Separates c) {double : Kind} {alone : Option Kind} {first : Char}
    {rest : List Char} {l : Lexeme} (h : orEqual? double alone first rest = some l) :
    orEqual? double alone first (rest ++ c :: more) = some (l.before (c :: more)) := by
  unfold orEqual? at h ⊢
  split at h
  · cases h; rfl
  · next single =>
    obtain ⟨kind, rfl, rfl⟩ := Option.map_eq_some_iff.mp h
    split
    · next after whole =>
      exfalso
      cases rest with
      | nil => exact hc.2.1 (List.cons.inj whole).1
      | cons r rest => exact single rest (by rw [(List.cons.inj whole).1])
    · rfl

theorem number_behind (hc : Separates c) (text : List Char) :
    number (text ++ c :: more) = (number text).before (c :: more) := by
  unfold number
  rw [takeWhile_behind more hc.isDigit, dropWhile_behind more hc.isDigit]
  cases text.dropWhile Char.isDigit with
  | nil =>
    simp only [List.nil_append]
    split
    · next whole => exact absurd (List.cons.inj whole).1 hc.2.2
    · rfl
  | cons r rest =>
    by_cases hr : r = '.'
    · subst hr
      simp only [List.cons_append, takeWhile_behind more hc.isDigit,
        dropWhile_behind more hc.isDigit]
      rfl
    · simp only [List.cons_append]
      split
      · next whole => exact absurd (List.cons.inj whole).1 hr
      · split
        · next whole => exact absurd (List.cons.inj whole).1 hr
        · rfl

theorem word_behind (hc : Separates c) (text : List Char) :
    word (text ++ c :: more) = (word text).before (c :: more) := by
  simp only [word, before, takeWhile_behind more hc.1, dropWhile_behind more hc.1]

/-- A lexeme ends where it does at the end of the text. -/
theorem read?_behind (hc : Separates c) {text : List Char} {l : Lexeme}
    (h : read? text = some l) : read? (text ++ c :: more) = some (l.before (c :: more)) := by
  cases text with
  | nil => cases h
  | cons first rest =>
    simp only [read?, List.cons_append] at h ⊢
    split at h
    · cases h; rfl
    · exact orEqual?_behind more hc h
    · rw [← List.cons_append, number_behind more hc, word_behind more hc]
      split at h
      · next isDigit => cases h; rw [if_pos isDigit]
      · next notDigit =>
        rw [if_neg notDigit]
        split at h
        · next isStart => cases h; rw [if_pos isStart]
        · cases h

end Lexeme

/-- A line feed ends a comment and is layout itself. -/
theorem cutLayout_behind (inComment : Bool) (text : List Char) :
    (cutLayout inComment (text ++ '\n' :: more)).2 =
      if (cutLayout inComment text).2 = [] then (cutLayout false more).2
      else (cutLayout inComment text).2 ++ '\n' :: more := by
  induction text generalizing inComment with
  | nil => cases inComment <;> rfl
  | cons c rest ih =>
    have head_eq : ((rest ++ '\n' :: more).head? == some '/') = (rest.head? == some '/') := by
      cases rest <;> rfl
    simp only [List.cons_append, cutLayout, head_eq]
    split
    · exact ih _
    · split
      · exact ih _
      · split
        · exact ih _
        · simp

/-- The words of two texts with a line feed between them. -/
theorem Scans.join {text text' : List Char} {words words' : List (Kind × String)}
    (h : Scans text words) (h' : Scans text' words') :
    Scans (text ++ '\n' :: text') (words ++ words') := by
  induction h with
  | @done text layout =>
    have cut := cutLayout_behind text' false text
    rw [if_pos layout] at cut
    cases h' with
    | done layout' => exact .done (cut.trans layout')
    | more found others => exact .more (cut ▸ found) others
  | @more text l words found _ ih =>
    have ahead : (cutLayout false text).2 ≠ [] := by
      intro layout
      rw [layout] at found
      cases found
    have cut := cutLayout_behind text' false text
    rw [if_neg ahead] at cut
    have found' := Lexeme.read?_behind text' separates_lineFeed found
    rw [← cut] at found'
    have joined := Scans.more found' ih
    exact joined

end Behind

end Abacus.Token
