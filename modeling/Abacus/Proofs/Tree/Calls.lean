import Abacus.Proofs.Tree.Counter

/-! One parser and any sequence of calls on it, also behind calls that fail.  Every call comes to an
end with the counter at zero, goes forward, and stops at the first end token at the latest; a call
that succeeds has read something; and an error that names a token names the one at the position. -/

namespace Abacus

/-- What a parser can be asked for. -/
inductive Call where
  | program | item | statement | expression
deriving DecidableEq, Repr

/-- What a call reads. -/
inductive Part where
  | program (program : Program)
  | stmt (stmt : Stmt)
  | expr (expr : Expr)

/-- What a call comes to: its result, and the place where it leaves the parser. -/
structure Answer where
  result : Except SyntaxError Part
  place : Place

open Counting (ComesTo)

namespace Call

/-- A call on the machine with a position and a counter. -/
def counting (tokens : List Token) (fuel : Nat) : Call → Counting Part
  | program => return .program (← Counting.program tokens fuel)
  | item => return .stmt (← Counting.item tokens fuel)
  | statement => return .stmt (← Counting.statement tokens fuel)
  | expression => return .expr (← Counting.expression tokens fuel)

/-- A call on the parser at a cursor. -/
def parse : Call → Parse Part
  | program => return .program (← Parse.program)
  | item => return .stmt (← Parse.item)
  | statement => return .stmt (← Parse.statement Parse.nestingLimit)
  | expression => return .expr (← Parse.expression Parse.nestingLimit)

/-- The calls one after the other on one parser, each with the given fuel.  If it is not enough for
one of them, there is no answer. -/
def answers? (tokens : List Token) (fuel : Nat) : List Call → Place → Option (List Answer)
  | [], _ => some []
  | call :: calls, s => do
    let (result, s') ← Counting.runAt (call.counting tokens fuel) s
    return ⟨result, s'⟩ :: (← answers? tokens fuel calls s')

/-- What is known of the answer to a call at a place. -/
structure Fair (tokens : List Token) (call : Call) (s : Place) (answer : Answer) : Prop where
  same : call.parse (s.cursor tokens) =
    match answer.result with
    | .ok part => .ok part (answer.place.cursor tokens)
    | .error e => .error e (answer.place.cursor tokens)
  depth_eq : answer.place.depth = 0
  forward : s.position ≤ answer.place.position
  inside : answer.place.position ≤ (tokens.takeWhile (!·.isEof)).length
  reads : call ≠ .program → ∀ part, answer.result = .ok part → s.position < answer.place.position
  whole : call = .program → ∀ part, answer.result = .ok part →
    answer.place.position = (tokens.takeWhile (!·.isEof)).length
  found : ∀ e, answer.result = .error e → ∀ t ∈ e.found?, t = tokenAt tokens answer.place.position

/-- Each answer is fair to its call at the place where the answer before it leaves the parser. -/
def AllFair (tokens : List Token) : List Call → Place → List Answer → Prop
  | [], _, [] => True
  | call :: calls, s, answer :: answers =>
    Fair tokens call s answer ∧ AllFair tokens calls answer.place answers
  | _, _, _ => False

variable {tokens : List Token} {call : Call} {s : Place}

/-! ### The parser at a cursor -/

theorem local_parse (call : Call) : Parse.Local call.parse := by
  have hStatement := Parse.local_statement Parse.nestingLimit
  cases call with
  | program => exact Parse.local_program.bind fun _ => .pure _
  | item => exact (Parse.local_itemOf hStatement).bind fun _ => .pure _
  | statement => exact hStatement.bind fun _ => .pure _
  | expression => exact (Parse.local_expression _).bind fun _ => .pure _

/-- Whatever is not a whole program takes a token. -/
theorem length_lt {c c' : Cursor} {part : Part} (hCall : call ≠ .program)
    (h : call.parse c = .ok part c') (hStop : c.stop.kind = .eof) :
    c'.rest.length < c.rest.length := by
  cases call with
  | program => exact absurd rfl hCall
  | item =>
    obtain ⟨stmt, _, hItem, h⟩ := Parse.ok_of_bind h
    cases h
    exact Parse.length_itemOf_lt (Parse.sound_statement Parse.nestingLimit) hItem hStop
  | statement =>
    obtain ⟨stmt, _, hStatement, h⟩ := Parse.ok_of_bind h
    cases h
    obtain ⟨hTakes, hFits, -⟩ := Parse.sound_statement Parse.nestingLimit hStatement hStop
    obtain ⟨m, marks, hMarks, -⟩ := Stmt.exists_marks hFits.canonical
    have hLength := hTakes.length_rest
    rw [hMarks, List.length_cons] at hLength
    omega
  | expression =>
    obtain ⟨expr, _, hExpression, h⟩ := Parse.ok_of_bind h
    cases h
    obtain ⟨hTakes, hFits⟩ := Parse.sound_expression Parse.nestingLimit hExpression hStop
    obtain ⟨m, marks, hMarks, -⟩ := Expr.exists_marks hFits.canonical
    have hLength := hTakes.length_rest
    rw [hMarks, List.length_cons] at hLength
    omega

/-- A whole program goes up to an end token. -/
theorem kind_current_of_program {c c' : Cursor} {part : Part}
    (h : Call.parse .program c = .ok part c') (hStop : c.stop.kind = .eof) :
    c'.current.kind = .eof := by
  obtain ⟨p, _, hProgram, h⟩ := Parse.ok_of_bind h
  cases h
  obtain ⟨hTakes, -, -, hEnd⟩ :=
    Parse.takes_itemsUpTo (Parse.sound_statement Parse.nestingLimit) hProgram hStop (Nat.le_refl _)
  rcases hEnd with hCloses | hNil
  · exact eq_of_beq hCloses
  · rw [Cursor.current, hNil]
    exact hTakes.ended hStop

/-! ### The machine -/

theorem mirrors (call : Call) :
    Counting.Mirrors tokens Parse.nestingLimit (call.counting tokens ·) call.parse := by
  cases call with
  | program => exact Counting.mirrors_program.bind fun _ => .pure _
  | item => exact (Counting.mirrors_itemOf (Counting.mirrors_statement _)).bind fun _ => .pure _
  | statement => exact (Counting.mirrors_statement _).bind fun _ => .pure _
  | expression => exact (Counting.mirrors_expression _).bind fun _ => .pure _

/-- At an end token the position is that of the first one. -/
theorem position_eq_of_eof (hInside : s.Inside tokens)
    (hKind : (s.cursor tokens).current.kind = .eof) :
    s.position = (tokens.takeWhile (!·.isEof)).length := by
  have hRest : (Cursor.ofTokens tokens).rest =
      (Counting.ahead tokens).take s.position ++ (s.cursor tokens).rest :=
    (List.take_append_drop _ _).symm
  have hNil := Cursor.rest_eq_nil hRest hKind
  exact Nat.le_antisymm hInside (List.drop_eq_nil_iff.mp hNil)

/-- A call on a parser outside of all levels has a fair answer. -/
theorem exists_fair (call : Call) (hInside : s.Inside tokens) (hDepth : s.depth = 0) :
    ∃ answer : Answer,
      ComesTo (fun fuel => Counting.runAt (call.counting tokens fuel) s)
        (answer.result, answer.place) ∧
      Fair tokens call s answer := by
  have hFollows := call.mirrors hInside (by rw [hDepth, Nat.zero_add])
  unfold Counting.Follows at hFollows
  generalize hParse : call.parse (s.cursor tokens) = r' at hFollows
  have hStop : (s.cursor tokens).stop.kind = .eof := Place.kind_stop_cursor s
  cases hFollows with
  | @ok part s' comes keeps =>
    refine ⟨⟨.ok part, s'⟩, comes, hParse, keeps.depth_eq.trans hDepth, keeps.position_le,
      keeps.inside, fun hCall _ _ => ?_, fun hCall _ _ => ?_, nofun⟩
    · have hShorter := length_lt hCall hParse hStop
      rw [Place.length_rest_cursor, Place.length_rest_cursor] at hShorter
      show s.position < s'.position
      omega
    · subst hCall
      exact position_eq_of_eof keeps.inside (kind_current_of_program hParse hStop)
  | @error e s' comes keeps =>
    refine ⟨⟨.error e, s'⟩, comes, hParse, keeps.depth_eq.trans hDepth, keeps.position_le,
      keeps.inside, nofun, nofun, ?_⟩
    rintro _ ⟨⟩ t hFound
    rw [Place.tokenAt_eq keeps.inside]
    exact call.local_parse.found hParse t hFound

theorem exists_allFair (calls : List Call) (hInside : s.Inside tokens) (hDepth : s.depth = 0) :
    ∃ answers, ComesTo (answers? tokens · calls s) answers ∧ AllFair tokens calls s answers := by
  induction calls generalizing s with
  | nil => exact ⟨[], .always fun _ => rfl, trivial⟩
  | cons call calls ih =>
    obtain ⟨answer, hRun, hFair⟩ := exists_fair call hInside hDepth
    obtain ⟨answers, hAnswers, hAll⟩ := ih hFair.inside hFair.depth_eq
    exact ⟨answer :: answers, hRun.bind (hAnswers.bind (.always fun _ => rfl)), hFair, hAll⟩

/-- Any sequence of calls on one parser: with enough fuel every call comes to an end, whatever the
calls before it came to, with the answer of the parser at the cursor, and leaves the counter at
zero.  The position never goes back, and never past the first end token or the end of the tokens.  A
declaration, a statement or an expression that is read takes a token, and a program takes all of
them.  A token in an error is the one at the position. -/
theorem calls_answered_fairly (tokens : List Token) (calls : List Call) :
    ∃ answers, ComesTo (answers? tokens · calls {}) answers ∧ AllFair tokens calls {} answers :=
  exists_allFair calls (Nat.zero_le _) rfl

end Call

end Abacus
