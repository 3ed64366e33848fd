import Abacus.Proofs.Token.Scans

/-! Scanning line by line.  A line feed ends whatever stands before it, so the calls on a source up
to a line feed give what they give on that part alone, and the calls behind it give what they give
on the rest alone, at places that are further on. -/

namespace Abacus

open Text

def Span.shift (distance : Nat) (s : Span) : Span := ⟨s.start + distance, s.stop + distance⟩

def ScanError.shift (distance : Nat) : ScanError → ScanError
  | unexpectedChar c position => .unexpectedChar c (position + distance)
  | malformedOperator c position => .malformedOperator c (position + distance)

namespace Token

def shift (distance : Nat) (t : Token) : Token := { t with span := t.span.shift distance }

namespace Item

/-- The item in a text that begins `distance` further on. -/
def shift (distance : Nat) : Item → Item
  | .ok token => .ok (token.shift distance)
  | .error e => .error (e.shift distance)

theorem isEof_shift (distance : Nat) (item : Item) :
    (item.shift distance).isEof = item.isEof := by
  cases item <;> rfl

theorem mapM_shift (distance : Nat) (items : List Item) :
    (items.map (shift distance)).mapM id =
      ((items.mapM id).mapError (ScanError.shift distance)).map (·.map (Token.shift distance)) := by
  induction items with
  | nil => rfl
  | cons item items ih =>
    cases item with
    | error e => rfl
    | ok token =>
      rw [List.map_cons, List.mapM_cons, List.mapM_cons, ih]
      cases items.mapM id <;> rfl

end Item

/-- What is cut off is known from what is left. -/
theorem cutLayout_eq {text front back : List Char} (whole : front ++ back = text)
    (left : (cutLayout false text).2 = back) : cutLayout false text = (front, back) := by
  have cut := cutLayout_append false text
  rw [left, ← whole] at cut
  exact Prod.ext (whole ▸ List.append_cancel_right cut) left

theorem Lexeme.read?_behind_of_none {c : Char} (hc : Separates c) (more : List Char) {first : Char}
    {rest : List Char} (h : read? (first :: rest) = none) :
    read? (first :: (rest ++ c :: more)) = none := by
  simp only [read?] at h ⊢
  split at h
  · cases h
  · next double alone _ =>
    -- Of the four characters that may have an equals sign behind them, one must have it.
    unfold orEqual? at h ⊢
    split at h
    · cases h
    · next single =>
      obtain rfl := Option.map_eq_none_iff.mp h
      split
      · next after whole =>
        exfalso
        cases rest with
        | nil => exact hc.2.1 (List.cons.inj whole).1
        | cons r rest => exact single rest (by rw [(List.cons.inj whole).1])
      · rfl
  · split at h
    · cases h
    · next notDigit =>
      rw [if_neg notDigit]
      split at h
      · cases h
      · next notStart => rw [if_neg notStart]

namespace Stream

/-! ### Further on -/

def shift (distance : Nat) (s : Stream) : Stream := { s with offset := s.offset + distance }

theorem next_shift (distance : Nat) (s : Stream) :
    (s.shift distance).next = (Item.shift distance s.next.1, s.next.2.shift distance) := by
  have further (n : Nat) : s.offset + distance + n = s.offset + n + distance :=
    Nat.add_right_comm ..
  unfold next
  simp only [shift, further]
  cases (cutLayout false s.rest).2 with
  | nil => rfl
  | cons c tail =>
    dsimp only
    cases Lexeme.read? (c :: tail) with
    | none =>
      have refused (position : Nat) :
          refusal c (position + distance) = (refusal c position).shift distance := by
        unfold refusal
        split <;> rfl
      simp only [refused, Nat.add_right_comm _ distance]
      rfl
    | some l =>
      simp only [Nat.add_right_comm _ distance]
      rfl

theorem Calls.shift {s : Stream} {items : List Item} {eof : Token} (h : s.Calls items eof)
    (distance : Nat) :
    (s.shift distance).Calls (items.map (Item.shift distance)) (eof.shift distance) := by
  induction h with
  | done step isEof => exact .done ((next_shift distance _).trans (by rw [step]; rfl)) isEof
  | @more s after item items eof step inside _ ih =>
    have step' : (s.shift distance).next = (item.shift distance, after.shift distance) := by
      rw [next_shift, step]
    exact .more step' (by rw [Item.isEof_shift, inside]) ih

/-! ### In a longer source -/

/-- The same place in a source that goes on with the text `more`. -/
def followedBy (s : Stream) (more : List Char) : Stream := { s with rest := s.rest ++ more }

theorem ahead_of_next {s after : Stream} {item : Item} (h : s.next = (item, after))
    (inside : item.isEof = false) : (cutLayout false s.rest).2 ≠ [] := by
  intro layout
  obtain ⟨_, _, h', isEof⟩ := next_of_layout layout
  rw [h] at h'
  cases h'
  cases isEof.symm.trans inside

/-- A call with an item ahead gives it, whatever stands behind a character that ends every item. -/
theorem next_followedBy {s : Stream} {c : Char} (hc : Separates c) {more : List Char}
    (ahead : (cutLayout false s.rest).2 ≠ [])
    (cut : cutLayout false (s.rest ++ c :: more) =
      ((cutLayout false s.rest).1, (cutLayout false s.rest).2 ++ c :: more)) :
    (s.followedBy (c :: more)).next = (s.next.1, s.next.2.followedBy (c :: more)) := by
  obtain ⟨first, tail, hAhead⟩ := List.exists_cons_of_ne_nil ahead
  unfold next
  simp only [followedBy, cut, hAhead, List.cons_append]
  cases found : Lexeme.read? (first :: tail) with
  | none =>
    have found' := Lexeme.read?_behind_of_none hc more found
    simp only [found']
  | some l =>
    have found' := Lexeme.read?_behind more hc found
    rw [List.cons_append] at found'
    simp only [found']
    rfl

/-! ### In front of a line feed -/

/-- The same place in a source that goes on with a line feed and the text `more`. -/
def before (s : Stream) (more : List Char) : Stream := { s with rest := s.rest ++ '\n' :: more }

/-- The place behind the line feed. -/
def nextLine (s : Stream) (more : List Char) : Stream :=
  { s with rest := more, offset := s.offset + byteLength s.rest + 1 }

section LineFeed

variable {s after : Stream} {item : Item} (more : List Char)

theorem cutLayout_before (ahead : (cutLayout false s.rest).2 ≠ []) :
    cutLayout false (s.before more).rest =
      ((cutLayout false s.rest).1, (cutLayout false s.rest).2 ++ '\n' :: more) := by
  have second := cutLayout_behind more false s.rest
  rw [if_neg ahead] at second
  apply cutLayout_eq ?_ second
  rw [← List.append_assoc, cutLayout_append]

theorem cutLayout_nextLine (layout : (cutLayout false s.rest).2 = []) :
    cutLayout false (s.before more).rest =
      (s.rest ++ '\n' :: (cutLayout false more).1, (cutLayout false more).2) := by
  have second := cutLayout_behind more false s.rest
  rw [if_pos layout] at second
  apply cutLayout_eq ?_ second
  rw [List.append_assoc, List.cons_append, cutLayout_append]

theorem next_before (ahead : (cutLayout false s.rest).2 ≠ []) :
    (s.before more).next = (s.next.1, s.next.2.before more) :=
  next_followedBy separates_lineFeed ahead (cutLayout_before more ahead)

/-- A call with only layout ahead gives what comes first behind the line feed. -/
theorem next_nextLine (layout : (cutLayout false s.rest).2 = []) :
    (s.before more).next = (s.nextLine more).next := by
  have start : s.offset + byteLength (s.rest ++ '\n' :: (cutLayout false more).1) =
      s.offset + byteLength s.rest + 1 + byteLength (cutLayout false more).1 := by
    have feed : '\n'.utf8Size = 1 := rfl
    simp only [byteLength_append, byteLength, feed]
    omega
  unfold next
  rw [cutLayout_nextLine more layout]
  simp only [before, nextLine, start]

theorem finished_next (h : s.next = (item, after)) (inside : item.isEof = false) :
    after.finished = s.finished := by
  unfold next at h
  simp only at h
  split at h
  · cases h
    cases inside
  · split at h <;> cases h <;> rfl

theorem nextLine_next (h : s.next = (item, after)) (inside : item.isEof = false) :
    after.nextLine more = s.nextLine more := by
  have finished := finished_next h inside
  rcases s.next_cases with ⟨_, h', -⟩ | ⟨gap, _, _, h', -, cut, follows, offset_eq⟩
  · rw [h] at h'
    cases h'
    cases inside
  · rw [h] at h'
    cases h'
    have stop_eq := follows.stop_eq
    have offset : after.offset + byteLength after.rest + 1 = s.offset + byteLength s.rest + 1 := by
      rw [cut, byteLength_append, byteLength_append, offset_eq, stop_eq]
      omega
    simp only [nextLine, finished, offset]

/-- The calls up to the line feed, and behind it the calls on the text that follows. -/
theorem Calls.join {items items' : List Item} {eof eof' : Token} (h : s.Calls items eof)
    (h' : (s.nextLine more).Calls items' eof') : (s.before more).Calls (items ++ items') eof' := by
  induction h with
  | done step isEof =>
    rcases next_eq_ok step with ⟨-, layout⟩ | ⟨_, _, _, inside, _⟩
    · have same := next_nextLine more layout
      cases h' with
      | done step' isEof' => exact .done (same.trans step') isEof'
      | more step' inside' others => exact .more (same.trans step') inside' others
    · cases isEof.symm.trans inside
  | @more s after item items eof step inside _ ih =>
    have step' : (s.before more).next = (item, after.before more) := by
      rw [next_before more (ahead_of_next step inside), step]
    rw [← nextLine_next more step inside] at h'
    exact .more step' inside (ih h')

end LineFeed

end Stream

/-- Two sources with a line feed between them.  An error of the first is the error of the whole.
Otherwise an error of the second is, further on by the length of the first and the line feed.
Without errors the tokens are those of the first but for its end token, and behind them those of the
second, as much further on. -/
theorem scan_across_lineFeed (source source' : String) :
    scan (source ++ "\n" ++ source') = do
      let tokens ← scan source
      let tokens' ← (scan source').mapError (ScanError.shift (source.utf8ByteSize + 1))
      return tokens.filter (!·.isEof) ++ tokens'.map (shift (source.utf8ByteSize + 1)) := by
  obtain ⟨items, eof, calls⟩ := (Stream.ofSource source).exists_calls
  obtain ⟨items', eof', calls'⟩ := (Stream.ofSource source').exists_calls
  let distance := source.utf8ByteSize + 1
  have behind : (Stream.ofSource source).nextLine source'.toList =
      (Stream.ofSource source').shift distance := by
    have start : 0 + source.utf8ByteSize + 1 = 0 + distance := Nat.add_assoc ..
    simp only [Stream.nextLine, Stream.ofSource, Stream.shift, byteLength_toList, start]
  have whole : (Stream.ofSource source).before source'.toList =
      Stream.ofSource (source ++ "\n" ++ source') := by
    simp [Stream.before, Stream.ofSource]
  have joined := calls.join source'.toList (behind ▸ calls'.shift distance)
  rw [whole] at joined
  rw [scan, scan, scan, joined.tokens_eq, calls.tokens_eq, calls'.tokens_eq, List.mapM_append,
    Item.mapM_shift]
  cases front : items.mapM id with
  | error e => rfl
  | ok tokens =>
    obtain rfl := eq_map_ok_of_mapM front
    have inside : ∀ t ∈ tokens, (!t.isEof) = true := by
      intro t member
      have := calls.inside (.ok t) (List.mem_map_of_mem member)
      exact Bool.not_eq_true' .. ▸ this
    have withoutEnd : (tokens ++ [eof]).filter (!·.isEof) = tokens := by
      rw [List.filter_append, List.filter_eq_self.mpr inside]
      simp [calls.isEof]
    cases items'.mapM id with
    | error e => rfl
    | ok tokens' =>
      show Except.ok (tokens ++ tokens'.map (shift distance) ++ [eof'.shift distance]) =
        .ok ((tokens ++ [eof]).filter (!·.isEof) ++ (tokens' ++ [eof']).map (shift distance))
      rw [withoutEnd, List.map_append, List.append_assoc, List.map_singleton]

end Token

end Abacus
