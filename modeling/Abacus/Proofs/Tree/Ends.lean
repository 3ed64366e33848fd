import Abacus.Proofs.Tree.Calls
import Abacus.Proofs.Tree.Completeness

/-! The end of the tokens, as a parser sees it.  It never looks behind the first end token, and where
there is none it takes one to be there.  Two sequences with the same tokens up to there are read side
by side, call by call, and only an error at the end tells one end token from the other. -/

namespace Abacus

open Counting (ComesTo ahead)

/-- The second token in place of the first, and every other token as it is. -/
def Token.swap (e e' t : Token) : Token := if t = e then e' else t

/-- The error with other tokens in place of those that it can be found at. -/
def SyntaxError.mapFound (f : Token → Token) : SyntaxError → SyntaxError
  | unexpected found expected => .unexpected (f found) expected
  | invalidNumber lexeme => .invalidNumber lexeme
  | tooDeep found limit => .tooDeep (f found) limit

def Answer.mapFound (f : Token → Token) (answer : Answer) : Answer :=
  { answer with result := answer.result.mapError (SyntaxError.mapFound f) }

/-! ### Side by side -/

namespace Frontier

variable {e e' : Token}

theorem nil_iff_of_stops (e e' : Token) :
    (⟨[], e⟩ : Cursor).rest = [] ↔ (⟨[], e'⟩ : Cursor).rest = [] := Iff.rfl

/-- The same tokens with two end tokens behind them. -/
def ofStops (hEnd : e.kind = .eof) (hEnd' : e'.kind = .eof) : Frontier where
  Same t t' := (t = t' ∧ t.isEof = false) ∨ (t = e ∧ t' = e')
  left := ⟨[], e⟩
  right := ⟨[], e'⟩
  kind_eq := by
    rintro t t' (⟨rfl, -⟩ | ⟨rfl, rfl⟩)
    · rfl
    · rw [hEnd, hEnd']
  lexeme_eq := by
    rintro t t' (⟨rfl, -⟩ | ⟨rfl, rfl⟩) inside
    · rfl
    · exact absurd hEnd inside
  current := .inr ⟨rfl, rfl⟩
  nil_iff := nil_iff_of_stops e e'
  ended_left := hEnd
  ended_right := hEnd'

variable {hEnd : e.kind = .eof} {hEnd' : e'.kind = .eof}

theorem abreast_ofStops {tokens : List Token} (h : ∀ t ∈ tokens, t.isEof = false) :
    (ofStops hEnd hEnd').Abreast ⟨tokens, e⟩ ⟨tokens, e'⟩ := by
  induction tokens with
  | nil => exact .edge
  | cons t tokens ih =>
    obtain ⟨hFirst, hOthers⟩ := List.forall_mem_cons.mp h
    exact .before (.inl ⟨rfl, hFirst⟩) (ih hOthers)

theorem Abreast.length_eq {c d : Cursor} (h : (ofStops hEnd hEnd').Abreast c d) :
    c.rest.length = d.rest.length := by
  induction h with
  | edge => rfl
  | before _ _ ih => exact congrArg (· + 1) ih

theorem eq_swap {t t' : Token} (h : (ofStops hEnd hEnd').Same t t') : t' = Token.swap e e' t := by
  rcases h with ⟨rfl, inside⟩ | ⟨rfl, rfl⟩
  · have hOther : t ≠ e := by
      rintro rfl
      simp [Token.isEof, hEnd] at inside
    exact (if_neg hOther).symm
  · exact (if_pos rfl).symm

theorem SameError.eq_mapFound {cause cause' : SyntaxError}
    (h : (ofStops hEnd hEnd').SameError cause cause') :
    cause' = cause.mapFound (Token.swap e e') := by
  cases h with
  | unexpected same expected => rw [eq_swap same, SyntaxError.mapFound]
  | invalidNumber => rfl
  | tooDeep same limit => rw [eq_swap same, SyntaxError.mapFound]

end Frontier

namespace Call

variable {tokens tokens' : List Token} {call : Call} {s : Place}

/-- The results of calls one after the other on the parser at a cursor. -/
def results : List Call → Cursor → List (Except SyntaxError Part)
  | [], _ => []
  | call :: calls, c =>
    match call.parse c with
    | .ok part c' => .ok part :: results calls c'
    | .error e c' => .error e :: results calls c'

namespace AllFair

variable {calls : List Call} {answers : List Answer}

theorem eq_nil (h : AllFair tokens [] s answers) : answers = [] := by
  cases answers with
  | nil => rfl
  | cons => cases h

theorem uncons (h : AllFair tokens (call :: calls) s answers) :
    ∃ answer others, answers = answer :: others ∧ Fair tokens call s answer ∧
      AllFair tokens calls answer.place others := by
  cases answers with
  | nil => cases h
  | cons answer others => exact ⟨answer, others, rfl, h⟩

theorem results_eq (h : AllFair tokens calls s answers) :
    results calls (s.cursor tokens) = answers.map Answer.result := by
  induction calls generalizing s answers with
  | nil => rw [h.eq_nil]; rfl
  | cons call calls ih =>
    obtain ⟨answer, others, rfl, hFirst, hOthers⟩ := h.uncons
    have hSame := hFirst.same
    rw [results, List.map_cons, ← ih hOthers]
    cases hResult : answer.result <;> rw [hResult] at hSame <;> rw [hSame]

end AllFair

/-- A place on no level is known from what is ahead of its cursor. -/
theorem place_eq_of_length {p p' : Place} (hAhead : ahead tokens = ahead tokens')
    (hInside : p.Inside tokens) (hInside' : p'.Inside tokens') (hDepth : p.depth = p'.depth)
    (hLength : (p.cursor tokens).rest.length = (p'.cursor tokens').rest.length) : p = p' := by
  rw [Place.length_rest_cursor, Place.length_rest_cursor, hAhead] at hLength
  unfold Place.Inside at hInside hInside'
  rw [hAhead] at hInside
  obtain ⟨position, depth⟩ := p
  obtain ⟨position', depth'⟩ := p'
  obtain rfl : depth = depth' := hDepth
  obtain rfl : position = position' := by
    simp only at hLength hInside hInside'
    omega
  rfl

/-- One call on two parsers whose tokens are the same up to the end tokens. -/
theorem Fair.eq_mapFound {answer answer' : Answer} (hAhead : ahead tokens = ahead tokens')
    (h : Fair tokens call s answer) (h' : Fair tokens' call s answer') :
    answer' = answer.mapFound
      (Token.swap (Cursor.ofTokens tokens).stop (Cursor.ofTokens tokens').stop) := by
  have hTokens : ∀ t ∈ (ahead tokens).drop s.position, t.isEof = false := by
    intro t ht
    have hTaken := List.mem_takeWhile_imp (List.mem_of_mem_drop ht)
    simpa using hTaken
  have hCursor' : s.cursor tokens' =
      ⟨(ahead tokens).drop s.position, (Cursor.ofTokens tokens').stop⟩ := by
    rw [hAhead]
    rfl
  have hAgree : (Frontier.ofStops (Cursor.stop_ofTokens tokens)
      (Cursor.stop_ofTokens tokens')).Agree (call.parse (s.cursor tokens))
        (call.parse (s.cursor tokens')) := by
    rw [hCursor']
    exact call.local_parse.agrees (Frontier.abreast_ofStops hTokens)
  have hDepth := h.depth_eq.trans h'.depth_eq.symm
  have hPlace := place_eq_of_length hAhead h.inside h'.inside hDepth
  rw [h.same, h'.same] at hAgree
  obtain ⟨result, place⟩ := answer
  obtain ⟨result', place'⟩ := answer'
  cases result with
  | ok part =>
    cases result' with
    | ok part' =>
      cases hAgree with
      | ok abreast =>
        obtain rfl : place = place' := hPlace abreast.length_eq
        rfl
      | past hPast => exact absurd hPast (Nat.not_lt_zero _)
    | error cause' =>
      cases hAgree with
      | past hPast => exact absurd hPast (Nat.not_lt_zero _)
  | error cause =>
    cases result' with
    | ok part' =>
      cases hAgree with
      | past hPast => exact absurd hPast (Nat.not_lt_zero _)
    | error cause' =>
      cases hAgree with
      | error same abreast =>
        obtain rfl : place = place' := hPlace abreast.length_eq
        rw [same.eq_mapFound]
        rfl
      | past hPast => exact absurd hPast (Nat.not_lt_zero _)

theorem AllFair.eq_mapFound {calls : List Call} {answers answers' : List Answer}
    (hAhead : ahead tokens = ahead tokens') (h : AllFair tokens calls s answers)
    (h' : AllFair tokens' calls s answers') :
    answers' = answers.map (Answer.mapFound
      (Token.swap (Cursor.ofTokens tokens).stop (Cursor.ofTokens tokens').stop)) := by
  induction calls generalizing s answers answers' with
  | nil => rw [h.eq_nil, h'.eq_nil, List.map_nil]
  | cons call calls ih =>
    obtain ⟨answer, others, rfl, hFirst, hOthers⟩ := h.uncons
    obtain ⟨answer', others', rfl, hFirst', hOthers'⟩ := h'.uncons
    -- The first call leaves both parsers at the same place.
    obtain rfl := hFirst.eq_mapFound hAhead hFirst'
    rw [ih hOthers hOthers', List.map_cons]

/-! ### All calls -/

/-- The answers to calls on one parser: the machine comes to them, and the parser at a cursor comes
to their results. -/
structure Answered (tokens : List Token) (calls : List Call) (answers : List Answer) : Prop where
  machine : ComesTo (answers? tokens · calls {}) answers
  cursor : results calls (Cursor.ofTokens tokens) = answers.map Answer.result

theorem exists_answered (tokens : List Token) (calls : List Call) :
    ∃ answers, Answered tokens calls answers ∧ AllFair tokens calls {} answers := by
  have hInside : Place.Inside tokens {} := Nat.zero_le _
  obtain ⟨answers, hComes, hFair⟩ := exists_allFair calls hInside rfl
  exact ⟨answers, ⟨hComes, hFair.results_eq⟩, hFair⟩

theorem Answered.other_end {calls : List Call} {answers : List Answer}
    (hAhead : ahead tokens = ahead tokens') (h : AllFair tokens calls {} answers) :
    Answered tokens' calls (answers.map (Answer.mapFound
      (Token.swap (Cursor.ofTokens tokens).stop (Cursor.ofTokens tokens').stop))) := by
  obtain ⟨answers', hAnswered, hFair⟩ := exists_answered tokens' calls
  rwa [h.eq_mapFound hAhead hFair] at hAnswered

theorem mapFound_swap_self (e : Token) : Answer.mapFound (Token.swap e e) = id := by
  have hSwap (t : Token) : Token.swap e e t = t := by
    unfold Token.swap
    split
    · next h => exact h.symm
    · rfl
  funext answer
  obtain ⟨cause | part, place⟩ := answer
  · cases cause <;> simp [Answer.mapFound, SyntaxError.mapFound, Except.mapError, hSwap]
  · rfl

/-- Any sequence of calls on a parser: what stands behind the first end token makes no difference to
the answers.  Without an end token they are the same too, but for the errors at the end token, which
have the one that a parser takes to be there. -/
theorem answers_up_to_end {tokens : List Token} {e : Token} (hTokens : ∀ t ∈ tokens, t.isEof = false)
    (hEnd : e.isEof = true) (behind : List Token) (calls : List Call) :
    ∃ answers, Answered (tokens ++ [e]) calls answers ∧
      Answered (tokens ++ e :: behind) calls answers ∧
      Answered tokens calls
        (answers.map (Answer.mapFound fun t => if t = e then Cursor.endOf tokens else t)) := by
  have hCursor (behind : List Token) : Cursor.ofTokens (tokens ++ e :: behind) = ⟨tokens, e⟩ :=
    Cursor.ofTokens_append hTokens hEnd
  have hCursor' : Cursor.ofTokens tokens = ⟨tokens, Cursor.endOf tokens⟩ := by
    have hAhead : tokens.takeWhile (!·.isEof) = tokens :=
      List.takeWhile_eq_self_iff.mpr (by simpa using hTokens)
    have hFind : tokens.find? (·.isEof) = none := List.find?_eq_none.mpr (by simpa using hTokens)
    rw [Cursor.ofTokens, hAhead, hFind]
    rfl
  have hAhead (behind : List Token) : ahead (tokens ++ e :: behind) = tokens :=
    congrArg Cursor.rest (hCursor behind)
  have hAhead' : ahead tokens = tokens := congrArg Cursor.rest hCursor'
  obtain ⟨answers, hAnswered, hFair⟩ := exists_answered (tokens ++ [e]) calls
  refine ⟨answers, hAnswered, ?_, ?_⟩
  · have hBehind := Answered.other_end ((hAhead []).trans (hAhead behind).symm) hFair
    rwa [hCursor, hCursor, mapFound_swap_self, List.map_id] at hBehind
  · have hMissing := Answered.other_end ((hAhead []).trans hAhead'.symm) hFair
    rwa [hCursor, hCursor'] at hMissing

/-- A print statement whose bracket is left open. -/
def leftOpen : List Token := [⟨.printWord, "print", ⟨0, 5⟩⟩, ⟨.leftParen, "(", ⟨6, 7⟩⟩]

/-- An end token further on, with a text of its own. -/
def farEnd : Token := ⟨.eof, "end", ⟨9, 12⟩⟩

theorem answers_up_to_end_leftOpen :
    (∀ t ∈ leftOpen, t.isEof = false) ∧ farEnd.isEof = true ∧
      results [.statement, .program] (Cursor.ofTokens leftOpen) =
        [.error (.unexpected ⟨.eof, "", ⟨7, 7⟩⟩ .expression), .ok (.program [])] ∧
      ∃ answers, Answered (leftOpen ++ [farEnd]) [.statement, .program] answers ∧
        Answered (leftOpen ++ farEnd :: leftOpen) [.statement, .program] answers ∧
        Answered leftOpen [.statement, .program]
          (answers.map (Answer.mapFound fun t => if t = farEnd then Cursor.endOf leftOpen else t)) :=
  have inside : ∀ t ∈ leftOpen, t.isEof = false := by decide
  ⟨inside, rfl, rfl, answers_up_to_end inside rfl leftOpen _⟩

end Call

end Abacus
