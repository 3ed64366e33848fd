import Abacus.Proofs.Token.Lines
import Mathlib.Control.Monad.Basic

/-! The sequence of items of a source, from a stream that is asked for tokens and for items in any
order.  The sequence ends before the end token or behind the first error that it gives.  Until then
the two kinds of calls give the same.  After that only the calls for tokens move the stream, so the
calls for items make no difference to them. -/

namespace Abacus.Token

open Text

namespace Stream

/-- What a stream is asked for: its next token, also behind errors and at the end, or the next item
of the sequence. -/
inductive Pull where
  | token
  | item
deriving DecidableEq, Repr

/-- The answer to a call, and the place behind it. -/
def pull (s : Stream) : Pull → Option Item × Stream
  | .token => (some s.next.1, s.next.2)
  | .item => s.nextItem?

/-- Calls one after the other, each with its answer. -/
def answers (s : Stream) : List Pull → List (Pull × Option Item)
  | [] => []
  | p :: pulls => (p, (s.pull p).1) :: (s.pull p).2.answers pulls

def behind (s : Stream) (pulls : List Pull) : Stream := pulls.foldl (fun s p => (s.pull p).2) s

/-- The calls that give something, with what they give. -/
def heard (s : Stream) (pulls : List Pull) : List (Pull × Option Item) :=
  (s.answers pulls).filter (·.2.isSome)

/-- Calls for items give these items, and nothing from then on. -/
def Yields (s : Stream) (items : List Item) : Prop :=
  ∀ n, (s.behind (List.replicate n .item)).nextItem?.1 = items[n]?

/-- The answers behind which the sequence is at its end: an error or nothing as an item, and the end
token. -/
inductive Ends : Pull → Option Item → Prop
  | error (e : ScanError) : Ends .item (some (.error e))
  | nothing : Ends .item none
  | eof {token : Token} (isEof : token.isEof = true) : Ends .token (some (.ok token))

variable {s after : Stream}

/-! ### One call for an item -/

theorem nextItem?_of_finished (h : s.finished = true) : s.nextItem? = (none, s) := by
  simp [nextItem?, h]

theorem nextItem?_of_token {token : Token} (h : s.finished = false)
    (step : s.next = (.ok token, after)) (inside : token.isEof = false) :
    s.nextItem? = (some (.ok token), after) := by
  simp [nextItem?, h, step, inside]

theorem nextItem?_of_error {e : ScanError} (h : s.finished = false)
    (step : s.next = (.error e, after)) :
    s.nextItem? = (some (.error e), { after with finished := true }) := by
  simp [nextItem?, h, step]

theorem nextItem?_of_eof {token : Token} (h : s.finished = false)
    (step : s.next = (.ok token, after)) (isEof : token.isEof = true) :
    s.nextItem? = (none, after) := by
  simp [nextItem?, h, step, isEof]

/-- A call for an item changes nothing if the sequence is at its end.  Otherwise it is a call for a
token, but for the end token, which it does not give, and for an error, which ends the sequence. -/
theorem nextItem?_cases (s : Stream) :
    (s.finished = true ∧ s.nextItem? = (none, s)) ∨
      (Item.isEof s.next.1 = true ∧ s.nextItem? = (none, s.next.2)) ∨
      ∃ finished, s.nextItem? = (some s.next.1, { s.next.2 with finished }) ∧
        ∀ e, s.next.1 = .error e → finished = true := by
  cases hFinished : s.finished with
  | true => exact .inl ⟨rfl, nextItem?_of_finished hFinished⟩
  | false =>
    right
    rcases hNext : s.next with ⟨item, after⟩
    cases item with
    | error e => exact .inr ⟨true, nextItem?_of_error hFinished hNext, fun _ _ => rfl⟩
    | ok token =>
      cases isEof : token.isEof with
      | true => exact .inl ⟨isEof, nextItem?_of_eof hFinished hNext isEof⟩
      | false => exact .inr ⟨after.finished, nextItem?_of_token hFinished hNext isEof,
        fun _ isError => by cases isError⟩

/-! ### Only layout ahead -/

section AtEnd

variable {stop : Nat}

/-- There is only layout ahead, up to the offset `stop`. -/
def AtEnd (s : Stream) (stop : Nat) : Prop :=
  (cutLayout false s.rest).2 = [] ∧ s.offset + byteLength s.rest = stop

theorem AtEnd.next (h : s.AtEnd stop) :
    s.next = (.ok ⟨.eof, "", ⟨stop, stop⟩⟩, ⟨[], stop, true⟩) := by
  obtain ⟨layout, hStop⟩ := h
  have cut : cutLayout false s.rest = (s.rest, []) := cutLayout_eq (List.append_nil _) layout
  unfold Stream.next
  simp only [cut, hStop]

theorem exists_atEnd_of_eof (h : Item.isEof s.next.1 = true) : ∃ stop, s.AtEnd stop := by
  rcases hNext : s.next with ⟨item, after⟩
  rw [hNext] at h
  cases item with
  | error e => cases h
  | ok token =>
    rcases next_eq_ok hNext with ⟨-, layout⟩ | ⟨_, -, -, inside, -⟩
    · exact ⟨_, layout, rfl⟩
    · cases inside.symm.trans h

/-- What a call gives where only layout is ahead. -/
def Pull.atEnd (stop : Nat) : Pull → Option Item
  | .token => some (.ok ⟨.eof, "", ⟨stop, stop⟩⟩)
  | .item => none

theorem AtEnd.pull (h : s.AtEnd stop) (p : Pull) :
    (s.pull p).1 = p.atEnd stop ∧ (s.pull p).2.AtEnd stop := by
  have done : (⟨[], stop, true⟩ : Stream).AtEnd stop := ⟨rfl, rfl⟩
  cases p with
  | token =>
    rw [Stream.pull, h.next]
    exact ⟨rfl, done⟩
  | item =>
    rw [Stream.pull]
    cases hFinished : s.finished with
    | true =>
      rw [nextItem?_of_finished hFinished]
      exact ⟨rfl, h⟩
    | false =>
      rw [nextItem?_of_eof hFinished h.next rfl]
      exact ⟨rfl, done⟩

theorem AtEnd.answers (h : s.AtEnd stop) (pulls : List Pull) :
    s.answers pulls = pulls.map fun p => (p, p.atEnd stop) := by
  induction pulls generalizing s with
  | nil => rfl
  | cons p pulls ih =>
    obtain ⟨answer, hAfter⟩ := h.pull p
    rw [Stream.answers, ih hAfter, answer, List.map_cons]

end AtEnd

/-! ### Calls without an answer -/

/-- A call for an item that gives none makes no difference to the calls behind it. -/
theorem answers_of_nextItem?_none (h : s.nextItem? = (none, after)) (pulls : List Pull) :
    after.answers pulls = s.answers pulls := by
  rcases s.nextItem?_cases with ⟨-, h'⟩ | ⟨isEof, h'⟩ | ⟨_, h', -⟩
  · rw [h] at h'
    cases h'
    rfl
  · rw [h] at h'
    cases h'
    -- The call has moved over the layout in front of the end, and later calls see only the end.
    obtain ⟨stop, atEnd⟩ := exists_atEnd_of_eof isEof
    have atEnd' := (atEnd.pull .token).2
    rw [atEnd.answers]
    exact atEnd'.answers pulls
  · rw [h] at h'
    cases h'

theorem heard_cons (s : Stream) (p : Pull) (pulls : List Pull) :
    (∃ item, (s.pull p).1 = some item ∧
        s.heard (p :: pulls) = (p, some item) :: (s.pull p).2.heard pulls) ∨
      p = .item ∧ s.nextItem? = (none, (s.pull p).2) ∧
        s.heard (p :: pulls) = (s.pull p).2.heard pulls := by
  cases hAnswer : (s.pull p).1 with
  | some item =>
    left
    refine ⟨item, rfl, ?_⟩
    rw [heard, Stream.answers, hAnswer]
    rfl
  | none =>
    right
    cases p with
    | token => cases hAnswer
    | item =>
      refine ⟨rfl, Prod.ext hAnswer rfl, ?_⟩
      rw [heard, Stream.answers, hAnswer]
      rfl

/-- The calls that give something give the same without the others. -/
theorem answers_heard (s : Stream) (pulls : List Pull) :
    s.answers ((s.heard pulls).map (·.1)) = s.heard pulls := by
  induction pulls generalizing s with
  | nil => rfl
  | cons p pulls ih =>
    rcases s.heard_cons p pulls with ⟨item, answer, whole⟩ | ⟨rfl, step, whole⟩
    · rw [whole, List.map_cons, Stream.answers, answer, ih]
    · rw [whole, ← answers_of_nextItem?_none step, ih]

/-- Calls for tokens do not look at whether the sequence is at its end. -/
theorem next_finished (s : Stream) (finished : Bool) :
    ∃ finished',
      { s with finished }.next = (s.next.1, { s.next.2 with finished := finished' }) := by
  unfold Stream.next
  dsimp only
  cases (cutLayout false s.rest).2 with
  | nil => exact ⟨true, rfl⟩
  | cons c tail =>
    dsimp only
    cases Lexeme.read? (c :: tail) <;> exact ⟨finished, rfl⟩

theorem answers_token_finished (s : Stream) (finished : Bool) (n : Nat) :
    { s with finished }.answers (List.replicate n .token) =
      s.answers (List.replicate n .token) := by
  induction n generalizing s finished with
  | zero => rfl
  | succ n ih =>
    obtain ⟨finished', step⟩ := s.next_finished finished
    rw [List.replicate_succ, Stream.answers, Stream.answers, Stream.pull, Stream.pull, step, ih]

/-- A call that gives something is a call for a token, but for the end of the sequence. -/
theorem next_of_pull_some {p : Pull} {item : Item} (h : (s.pull p).1 = some item) :
    s.next.1 = item ∧ ∃ finished, (s.pull p).2 = { s.next.2 with finished } := by
  cases p with
  | token => exact ⟨Option.some.inj h, s.next.2.finished, rfl⟩
  | item =>
    rw [Stream.pull] at h ⊢
    rcases s.nextItem?_cases with ⟨-, step⟩ | ⟨-, step⟩ | ⟨finished, step, -⟩
    · rw [step] at h
      cases h
    · rw [step] at h
      cases h
    · rw [step] at h ⊢
      exact ⟨Option.some.inj h, finished, rfl⟩

/-- What calls give is what as many calls for tokens give. -/
theorem heard_eq_tokens (s : Stream) (pulls : List Pull) :
    (s.heard pulls).map (·.2) =
      (s.answers (List.replicate (s.heard pulls).length .token)).map (·.2) := by
  induction pulls generalizing s with
  | nil => rfl
  | cons p pulls ih =>
    rcases s.heard_cons p pulls with ⟨item, answer, whole⟩ | ⟨rfl, step, whole⟩
    · obtain ⟨rfl, finished, hAfter⟩ := next_of_pull_some answer
      -- The places behind the two kinds of calls differ at most in the flag.
      rw [whole, List.map_cons, ih, List.length_cons, List.replicate_succ, Stream.answers,
        List.map_cons, hAfter, answers_token_finished]
      rfl
    · rw [whole, ih, answers_of_nextItem?_none step]

/-! ### The end of the sequence -/

theorem finished_of_eof (h : Item.isEof s.next.1 = true) : s.next.2.finished = true := by
  obtain ⟨stop, atEnd⟩ := exists_atEnd_of_eof h
  rw [atEnd.next]

theorem finished_pull (h : s.finished = true) (p : Pull) : (s.pull p).2.finished = true := by
  cases p with
  | token =>
    cases inside : Item.isEof s.next.1 with
    | true => exact finished_of_eof inside
    | false => exact (finished_next rfl inside).trans h
  | item =>
    rw [pull, nextItem?_of_finished h]
    exact h

theorem finished_of_ends {p : Pull} (h : Ends p (s.pull p).1) : (s.pull p).2.finished = true := by
  cases p with
  | token =>
    rw [pull] at h
    generalize hItem : s.next.1 = item at h
    cases h with
    | eof isEof => exact finished_of_eof (hItem ▸ isEof)
  | item =>
    rw [pull] at h ⊢
    rcases s.nextItem?_cases with ⟨finished, step⟩ | ⟨isEof, step⟩ | ⟨finished, step, onError⟩
    · rw [step]
      exact finished
    · rw [step]
      exact finished_of_eof isEof
    · rw [step] at h ⊢
      generalize hItem : s.next.1 = item at h
      cases h with
      | error e => exact onError e hItem

theorem finished_behind (h : s.finished = true) (pulls : List Pull) :
    (s.behind pulls).finished = true := by
  induction pulls generalizing s with
  | nil => exact h
  | cons p pulls ih => exact ih (finished_pull h p)

/-- The sequence stays at its end once an answer has ended it. -/
theorem finished_behind_of_ends {pulls : List Pull} {p : Pull} {answer : Option Item}
    (member : (p, answer) ∈ s.answers pulls) (h : Ends p answer) :
    (s.behind pulls).finished = true := by
  induction pulls generalizing s with
  | nil => cases member
  | cons q pulls ih =>
    rcases List.mem_cons.mp member with first | later
    · cases first
      exact finished_behind (finished_of_ends h) pulls
    · exact ih later

/-! ### All items -/

theorem behind_of_finished (h : s.finished = true) (n : Nat) :
    s.behind (List.replicate n .item) = s := by
  induction n with
  | zero => rfl
  | succ n ih =>
    rw [List.replicate_succ, behind, List.foldl_cons, pull, nextItem?_of_finished h]
    exact ih

theorem yields_of_finished (h : s.finished = true) : s.Yields [] := by
  intro n
  rw [behind_of_finished h, nextItem?_of_finished h, List.getElem?_nil]

theorem Yields.cons {item : Item} {items : List Item} (step : s.nextItem? = (some item, after))
    (others : after.Yields items) : s.Yields (item :: items) := by
  intro n
  cases n with
  | zero =>
    show s.nextItem?.1 = some item
    rw [step]
  | succ n =>
    rw [List.replicate_succ, behind, List.foldl_cons, pull, step]
    exact others n

theorem yields_of_nextItem?_none (step : s.nextItem? = (none, after)) : s.Yields [] := by
  intro n
  cases n with
  | zero =>
    show s.nextItem?.1 = none
    rw [step]
  | succ n =>
    have ended : (s.pull .item).2.finished = true :=
      finished_of_ends (by rw [pull, step]; exact .nothing)
    rw [List.replicate_succ, behind, List.foldl_cons]
    exact yields_of_finished ended n

/-- The items up to the first error, and this error. -/
def upToError : List Item → List Item
  | [] => []
  | .ok token :: items => .ok token :: upToError items
  | .error e :: _ => [.error e]

theorem upToError_map_ok_append (tokens : List Token) (items : List Item) :
    upToError (tokens.map .ok ++ items) = tokens.map .ok ++ upToError items := by
  induction tokens with
  | nil => rfl
  | cons token tokens ih => rw [List.map_cons, List.cons_append, upToError, ih, List.cons_append]

theorem Calls.yields {items : List Item} {eof : Token} (h : s.Calls items eof)
    (unfinished : s.finished = false) : s.Yields (upToError items) := by
  induction h with
  | done step isEof => exact yields_of_nextItem?_none (nextItem?_of_eof unfinished step isEof)
  | @more s after item items eof step inside _ ih =>
    cases item with
    | error e =>
      exact .cons (nextItem?_of_error unfinished step) (yields_of_finished rfl)
    | ok token =>
      have unfinished' := (finished_next step inside).trans unfinished
      exact .cons (nextItem?_of_token unfinished step inside) (ih unfinished')

/-- The sequence of a source that can be scanned has its tokens but for the end token.  That of any
other has the tokens in front of the first error, and then this error.

Of calls for tokens and for items in any order, those for items give nothing and do not move the
stream once an item was an error or the end was reached.  The calls that give something give the
same if the others are left out, and they give what as many calls for tokens give. -/
theorem sequence_agrees_with_scan (source : String) :
    (∀ tokens, scan source = .ok tokens → ∃ front eof, tokens = front ++ [eof] ∧
      eof.isEof = true ∧ (ofSource source).Yields (front.map .ok)) ∧
    (∀ e, scan source = .error e → ∃ (front : List Token) (others : List Item) (eof : Token),
      (ofSource source).Calls (front.map .ok ++ .error e :: others) eof ∧
        (ofSource source).Yields (front.map .ok ++ [.error e])) ∧
    ∀ pulls : List Pull,
      (∀ p answer, (p, answer) ∈ (ofSource source).answers pulls → Ends p answer →
        ∀ more, ((ofSource source).behind (pulls ++ more)).nextItem? =
          (none, (ofSource source).behind (pulls ++ more))) ∧
      (ofSource source).answers (((ofSource source).heard pulls).map (·.1)) =
        (ofSource source).heard pulls ∧
      ((ofSource source).heard pulls).map (·.2) =
        ((ofSource source).answers
          (List.replicate ((ofSource source).heard pulls).length .token)).map (·.2) := by
  obtain ⟨items, eof, calls⟩ := (ofSource source).exists_calls
  have yields := calls.yields rfl
  refine ⟨?_, ?_, ?_⟩
  · intro tokens hScan
    obtain ⟨front, rfl, rfl⟩ := calls.of_tokens_ok hScan
    refine ⟨front, eof, rfl, calls.isEof, ?_⟩
    rw [← List.append_nil (front.map _), upToError_map_ok_append] at yields
    simpa [upToError] using yields
  · intro e hScan
    obtain ⟨front, others, rfl⟩ := calls.of_tokens_error hScan
    rw [upToError_map_ok_append] at yields
    exact ⟨front, others, eof, calls, yields⟩
  · intro pulls
    refine ⟨?_, answers_heard _ pulls, heard_eq_tokens _ pulls⟩
    intro p answer member ends more
    apply nextItem?_of_finished
    rw [behind, List.foldl_append]
    exact finished_behind (finished_behind_of_ends member ends) more

/-- A source with an error between two tokens. -/
def brokenSource : String := "1 @ 2"

theorem sequence_ends_at_error :
    (scan "1" = .ok [⟨.number, "1", ⟨0, 1⟩⟩, ⟨.eof, "", ⟨1, 1⟩⟩] ∧
      (ofSource "1").Yields [.ok ⟨.number, "1", ⟨0, 1⟩⟩]) ∧
    (scan brokenSource = .error (.unexpectedChar '@' 2) ∧
      ∃ front : List Token, (ofSource brokenSource).Yields
        (front.map .ok ++ [.error (.unexpectedChar '@' 2)])) ∧
    (Pull.item, some (.error (.unexpectedChar '@' 2))) ∈
      (ofSource brokenSource).answers [.item, .item, .token] ∧
    ∀ more, ((ofSource brokenSource).behind ([.item, .item, .token] ++ more)).nextItem? =
      (none, (ofSource brokenSource).behind ([.item, .item, .token] ++ more)) := by
  have hRead : scan "1" = .ok [⟨.number, "1", ⟨0, 1⟩⟩, ⟨.eof, "", ⟨1, 1⟩⟩] := by decide +kernel
  have hBroken : scan brokenSource = .error (.unexpectedChar '@' 2) := by decide +kernel
  have hError : (Pull.item, some (.error (.unexpectedChar '@' 2))) ∈
      (ofSource brokenSource).answers [.item, .item, .token] := by decide +kernel
  obtain ⟨front, eof, whole, -, hYields⟩ := (sequence_agrees_with_scan "1").1 _ hRead
  obtain ⟨rfl, -⟩ := List.append_inj' (show [_] ++ [_] = front ++ [eof] from whole) rfl
  obtain ⟨-, onError, onPulls⟩ := sequence_agrees_with_scan brokenSource
  obtain ⟨tokens, _, _, -, hTokens⟩ := onError _ hBroken
  exact ⟨⟨hRead, hYields⟩, ⟨hBroken, tokens, hTokens⟩, hError, (onPulls _).1 _ _ hError (.error _)⟩

end Stream

end Abacus.Token
