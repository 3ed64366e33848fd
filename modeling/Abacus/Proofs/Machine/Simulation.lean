import Abacus.Proofs.Code.Layout
import Abacus.Proofs.Machine.Ports
import Abacus.Proofs.Tree.Evaluation

/-! Code does what its tree means.  `Matches` relates single actions of the machine and of an
evaluation, `Follows` relates the machine at the code of a tree to the evaluation of the tree: the
machine gets behind the code, halts, or takes at least as many steps as the evaluation was given
rounds.  So a run of the code of a program halts exactly as the evaluation ends, and never halts
exactly if the evaluation never ends. -/

namespace Abacus.Machine

variable {π α β : Type}

/-- The machine at an index, with the given stack and memory. -/
def stateAt (pc : Nat) (stack : List Float) (mem : Memory π) : State π :=
  { pc, stack, vars := mem.vars, port := mem.port }

/-- The memory of a machine at work. -/
def State.memory (s : State π) : Memory π := ⟨s.vars, s.port⟩

/-- An action of the machine does what an evaluation does, and leaves the index of the next
instruction and the stack alone. -/
def Matches (act : Action π α) (eval : Eval π α) : Prop :=
  ∀ pc stack mem,
    (∃ a after, eval.outcome? mem = some (.ok a, after) ∧
      act (stateAt pc stack mem) = .ok a (stateAt pc stack after)) ∨
    (∃ e after, eval.outcome? mem = some (.error e, after) ∧
      act (stateAt pc stack mem) = .error e (stateAt pc stack after))

namespace Matches

theorem io (act : EStateM String π α) : Matches (Machine.io act) (Eval.io act) := by
  intro pc stack mem
  cases h : act mem.port with
  | ok a port =>
    refine .inl ⟨a, { mem with port }, ?_, ?_⟩
    · simp only [Eval.outcome?, Eval.io, ExceptT.run_mk, StateT.run_mk, h]
    · simp only [Machine.io, stateAt, h]
  | error message port =>
    refine .inr ⟨.io message, { mem with port }, ?_, ?_⟩
    · simp only [Eval.outcome?, Eval.io, ExceptT.run_mk, StateT.run_mk, h]
    · simp only [Machine.io, stateAt, h]

theorem pure (a : α) : Matches (pure a : Action π α) (pure a) :=
  fun _ _ mem => .inl ⟨a, mem, rfl, rfl⟩

theorem throw (e : RuntimeError) : Matches (throw e : Action π α) (throw e) :=
  fun _ _ mem => .inr ⟨e, mem, rfl, rfl⟩

theorem store (name : String) (value : Float) :
    Matches (Machine.store (π := π) name value) (Eval.assign name value) :=
  fun _ _ _ => .inl ⟨(), _, rfl, rfl⟩

theorem bind {act : Action π α} {eval : Eval π α} {actNext : α → Action π β}
    {evalNext : α → Eval π β} (hFirst : Matches act eval)
    (hNext : ∀ a, Matches (actNext a) (evalNext a)) :
    Matches (act >>= actNext) (eval >>= evalNext) := by
  intro pc stack mem
  simp only [Eval.outcome?_bind]
  obtain ⟨a, after, hEval, hAct⟩ | ⟨e, after, hEval, hAct⟩ := hFirst pc stack mem
  · have hBind : (act >>= actNext) (stateAt pc stack mem) =
        actNext a (stateAt pc stack after) := by
      simp only [Bind.bind, EStateM.bind, hAct]
    rw [hEval, hBind]
    exact hNext a pc stack after
  · have hBind : (act >>= actNext) (stateAt pc stack mem) =
        .error e (stateAt pc stack after) := by
      simp only [Bind.bind, EStateM.bind, hAct]
    rw [hEval, hBind]
    exact .inr ⟨e, after, rfl, rfl⟩

end Matches

variable [Intake π] [Sink π] {code : Code} {start : Nat}

theorem zero_eq : zero = 0.0 := by decide

theorem one_eq : one = 1.0 := by decide

theorem truth_eq (holds : Bool) : truth holds = if holds then 1.0 else 0.0 := by
  rw [truth, zero_eq, one_eq]

/-- The operation of an operator combines two values as the operator does. -/
theorem exec_opcode (op : BinaryOp) (index size : Nat) :
    exec (π := π) (.simple op.opcode) index size = binary op.opcode index op.apply := by
  have hApply : ∀ f : Float → Float → Float, (∀ a b, f a b = op.apply a b) →
      binary (π := π) op.opcode index f = binary op.opcode index op.apply := by
    intro f h
    rw [funext fun a => funext (h a)]
  cases op <;> refine hApply _ fun a b => ?_ <;> simp [BinaryOp.apply, truth_eq]

theorem step_opcode {op : BinaryOp} (h : code.instrs[start]? = some (.simple op.opcode))
    (left right : Float) (stack : List Float) (mem : Memory π) :
    step code (stateAt start (right :: left :: stack) mem) =
      .next (stateAt (start + 1) (op.apply left right :: stack) mem) := by
  refine step_of_exec_ok h ?_
  rw [exec_opcode]
  rfl

/-- The code of an expression pushes its value and changes nothing else. -/
theorem steps_expr {e : Expr} (h : code.Holds start e.instrs) (stack : List Float)
    (mem : Memory π) :
    Steps code e.instrs.length (stateAt start stack mem)
      (stateAt (start + e.instrs.length) (e.value mem.vars :: stack) mem) := by
  induction e generalizing start stack with
  | literal value => exact .one (step_of_exec_ok h.head rfl)
  | var name =>
    refine .one (step_of_exec_ok h.head ?_)
    rw [Expr.value, ← zero_eq]
    rfl
  | group inner ih => exact ih h stack
  | unary op operand ih =>
    cases op with
    | neg =>
      have hFirst : Steps code 1 (stateAt start stack mem)
          (stateAt (start + 1) (0.0 :: stack) mem) := by
        refine .one (step_of_exec_ok h.head ?_)
        rw [← zero_eq]
        rfl
      have hSub : code.instrs[start + 1 + operand.instrs.length]? =
          some (.simple BinaryOp.sub.opcode) := h.tail.right.head
      have hAll := (hFirst.trans (ih h.tail.left (0.0 :: stack))).trans
        (.one (step_opcode hSub 0.0 (operand.value mem.vars) stack mem))
      simp only [Expr.instrs, List.length_cons, List.length_append, List.length_nil, Expr.value]
      rw [show operand.instrs.length + (0 + 1) + 1 = 1 + operand.instrs.length + 1 by omega,
        ← Nat.add_assoc, ← Nat.add_assoc]
      exact hAll
    | plus => exact ih h stack
  | binary op left right ihLeft ihRight =>
    have hOperands := (ihLeft h.left stack).trans
      (ihRight h.right.left (left.value mem.vars :: stack))
    have hAll := hOperands.trans (.one (step_opcode h.right.right.head (left.value mem.vars)
      (right.value mem.vars) stack mem))
    simp only [Expr.instrs, List.length_append, List.length_singleton, Expr.value]
    rw [← Nat.add_assoc, ← Nat.add_assoc, ← Nat.add_assoc]
    exact hAll

/-- The machine, from a state, does what an evaluation comes to: if the evaluation ends well, it
gets to index `stop` with the given stack and with the memory that the evaluation leaves; if the
evaluation fails, it halts with that error and memory; and if the evaluation runs out of rounds, it
takes more than as many steps. -/
def Follows (code : Code) (rounds : Nat) (s : State π) (stop : Nat) (stack : List Float) :
    Option (Except RuntimeError Unit × Memory π) → Prop
  | none => run? code rounds s = none
  | some (.ok (), mem) => ∃ n, Steps code n s (stateAt stop stack mem)
  | some (.error e, mem) =>
    ∃ fuel h, run? code fuel s = some h ∧ h.result = .error e ∧ h.state.memory = mem

namespace Follows

variable {rounds stop middle : Nat} {s s' : State π} {stack : List Float}
  {outcome : Option (Except RuntimeError Unit × Memory π)}

/-- Steps before, which also count as rounds. -/
theorem of_steps {n more : Nat} (hSteps : Steps code n s s')
    (h : Follows code rounds s' stop stack outcome) (hMore : more ≤ n + rounds) :
    Follows code more s stop stack outcome := by
  match outcome, h with
  | none, h =>
    have hRun : run? code (n + rounds) s = none := by
      rw [hSteps.run?_add]
      exact h
    exact run?_none_of_le hRun hMore
  | some (.ok (), mem), ⟨k, h⟩ => exact ⟨n + k, hSteps.trans h⟩
  | some (.error e, mem), ⟨fuel, halt, hRun, hHalt⟩ =>
    exact ⟨n + fuel, halt, by rw [hSteps.run?_add, hRun], hHalt⟩

/-- Steps behind that leave the stack and the memory alone. -/
theorem then_steps {n : Nat} (h : Follows code rounds s middle stack outcome)
    (hSteps : ∀ mem : Memory π,
      Steps code n (stateAt middle stack mem) (stateAt stop stack mem)) :
    Follows code rounds s stop stack outcome := by
  match outcome, h with
  | none, h => exact h
  | some (.ok (), mem), ⟨k, h⟩ => exact ⟨k + n, h.trans (hSteps mem)⟩
  | some (.error e, mem), h => exact h

/-- One evaluation after another. -/
theorem bind {act next : Eval π Unit} {mem : Memory π}
    (hAct : Follows code rounds s middle stack (act.outcome? mem))
    (hNext : ∀ after, act.outcome? mem = some (.ok (), after) →
      Follows code rounds (stateAt middle stack after) stop stack (next.outcome? after)) :
    Follows code rounds s stop stack ((act >>= fun _ => next).outcome? mem) := by
  rw [Eval.outcome?_bind]
  match hOutcome : act.outcome? mem with
  | none => rwa [hOutcome] at hAct
  | some (.ok (), after) =>
    rw [hOutcome] at hAct
    obtain ⟨n, hSteps⟩ := hAct
    exact of_steps hSteps (hNext after hOutcome) (by omega)
  | some (.error e, after) => rwa [hOutcome] at hAct

/-- An instruction that does what an evaluation does, once its operands are off the stack. -/
theorem of_matches {i : Instr} {act : Action π Unit} {eval : Eval π Unit} {full : List Float}
    {mem : Memory π} (hInstr : code.instrs[start]? = some i)
    (hExec : exec i start code.size (stateAt (start + 1) full mem) =
      act (stateAt (start + 1) stack mem)) (hMatches : Matches act eval) :
    Follows code rounds (stateAt start full mem) (start + 1) stack (eval.outcome? mem) := by
  obtain ⟨a, after, hEval, hAct⟩ | ⟨e, after, hEval, hAct⟩ := hMatches (start + 1) stack mem
  · rw [hEval]
    exact ⟨1, .one (step_of_exec_ok hInstr (hExec.trans hAct))⟩
  · rw [hEval]
    exact ⟨1, _, run?_of_halt (step_of_exec_error hInstr (hExec.trans hAct)) 0, rfl, rfl⟩

end Follows

/-- A jump continues at its target. -/
theorem step_jump {target : Nat} (h : code.instrs[start]? = some (.jumpTo .jump target))
    (hTarget : target ≤ code.size) (stack : List Float) (mem : Memory π) :
    step code (stateAt start stack mem) = .next (stateAt target stack mem) := by
  refine step_of_exec_ok h ?_
  simp only [exec, Instr.jumpTo]
  rw [jumpTarget_eq_pure rfl _ hTarget, pure_bind]
  rfl

/-- A test behind the code of its expression continues at the next instruction if the value is true
and at the target otherwise. -/
theorem steps_test {test : Expr} {target : Nat} {rest : List Instr}
    (h : code.Holds start (test.instrs ++ .jumpTo .jumpIfFalse target :: rest))
    (hTarget : target ≤ code.size) (stack : List Float) (mem : Memory π) :
    Steps code (test.instrs.length + 1) (stateAt start stack mem)
      (stateAt (if isTrue (test.value mem.vars) then start + test.instrs.length + 1 else target)
        stack mem) := by
  refine (steps_expr h.left stack mem).trans (.one (step_of_exec_ok h.right.head ?_))
  simp only [exec, Instr.jumpTo]
  rw [jumpTarget_eq_pure rfl _ hTarget, pure_bind]
  show (if test.value mem.vars == zero then goto target else pure ())
    (stateAt (start + test.instrs.length + 1) stack mem) = _
  rw [zero_eq]
  cases hZero : test.value mem.vars == 0.0 <;> simp only [isTrue, hZero] <;> rfl

omit [Intake π] in
theorem printNumber_matches (value : Float) :
    Matches (printNumber (π := π) value) (do
      Eval.io (Sink.write (Number.text value))
      Eval.io (Sink.write "\n")) :=
  (Matches.io _).bind fun _ => Matches.io _

theorem inputNumber_matches (rounds : Nat) (name : String) :
    Matches (inputNumber (π := π) name) ((Stmt.input name).eval rounds) := by
  rw [Stmt.eval]
  refine (Matches.io _).bind fun _ => (Matches.io _).bind fun _ => (Matches.io _).bind fun _ =>
    (Matches.io _).bind fun word => ?_
  cases word with
  | none => exact Matches.throw _
  | some text =>
    cases h : Number.read? text with
    | none =>
      simp only [h]
      exact Matches.throw _
    | some value =>
      simp only [h]
      exact Matches.store name value

/-- The code of an expression, and an instruction that takes its value off the stack. -/
theorem follows_value {e : Expr} {i : Instr} {act : Float → Action π Unit}
    {next : Float → Eval π Unit} (h : code.Holds start (e.instrs ++ [i]))
    (hExec : ∀ index value stack mem, exec i index code.size (stateAt (index + 1)
      (value :: stack) mem) = act value (stateAt (index + 1) stack mem))
    (hMatches : ∀ value, Matches (act value) (next value)) (rounds : Nat) (stack : List Float)
    (mem : Memory π) :
    Follows code rounds (stateAt start stack mem) (start + (e.instrs ++ [i]).length) stack
      ((Eval.valueOf e >>= next).outcome? mem) := by
  rw [Eval.outcome?_bind, Eval.outcome?_valueOf, List.length_append, ← Nat.add_assoc]
  exact (Follows.of_matches h.right.head (hExec _ _ _ _) (hMatches _)).of_steps
    (steps_expr h.left stack mem) (Nat.le_add_left _ _)

/-- The code of a loop does what the repetition of its body does. -/
theorem follows_repeatWhile {test : Expr} {body : Eval π Unit} {bodyInstrs : List Instr}
    {stack : List Float} {rounds : Nat}
    (h : code.Holds start (test.instrs ++
      .jumpTo .jumpIfFalse (start + test.instrs.length + 1 + bodyInstrs.length + 1) ::
        (bodyInstrs ++ [.jumpTo .jump start])))
    (hBody : ∀ mem, Follows code rounds (stateAt (start + test.instrs.length + 1) stack mem)
      (start + test.instrs.length + 1 + bodyInstrs.length) stack (body.outcome? mem))
    (k : Nat) (hk : k ≤ rounds) (mem : Memory π) :
    Follows code k (stateAt start stack mem)
      (start + test.instrs.length + 1 + bodyInstrs.length + 1) stack
      ((Eval.repeatWhile test body k).outcome? mem) := by
  have hEnd : start + test.instrs.length + 1 + bodyInstrs.length + 1 ≤ code.size := by
    have := h.end_le
    simp only [List.length_append, List.length_cons, List.length_nil] at this
    omega
  induction k generalizing mem with
  | zero => exact rfl
  | succ k ih =>
    have hTest := steps_test h hEnd stack mem
    rw [Eval.repeatWhile, Eval.outcome?_bind, Eval.outcome?_valueOf]
    simp only
    cases hTrue : isTrue (test.value mem.vars) with
    | false =>
      rw [hTrue] at hTest
      exact ⟨_, hTest⟩
    | true =>
      rw [hTrue] at hTest
      have hJump : code.instrs[start + test.instrs.length + 1 + bodyInstrs.length]? =
          some (.jumpTo .jump start) := h.right.tail.right.head
      have hOnce : Follows code (k + 1) (stateAt (start + test.instrs.length + 1) stack mem)
          (start + test.instrs.length + 1 + bodyInstrs.length) stack (body.outcome? mem) :=
        (hBody mem).of_steps (.refl _) (by omega)
      refine (hOnce.bind fun after _ => ?_).of_steps hTest (Nat.le_add_left _ _)
      -- The step back to the test is what makes a round take a step.
      exact (ih (by omega) after).of_steps
        (.one (step_jump hJump (by omega) stack after)) (by omega)

mutual

/-- The code of a statement does what its evaluation comes to. -/
theorem follows_stmt (rounds : Nat) (stack : List Float) (mem : Memory π) :
    (stmt : Stmt) → {start : Nat} → code.Holds start (stmt.instrs start) →
      Follows code rounds (stateAt start stack mem) (start + (stmt.instrs start).length) stack
        ((stmt.eval rounds).outcome? mem)
  | .declare _ _, start, _ => ⟨0, .refl _⟩
  | .assign name value, start, h => by
    simp only [Stmt.instrs, Stmt.eval] at h ⊢
    exact follows_value h (fun _ _ _ _ => rfl) (Matches.store name) rounds stack mem
  | .print value, start, h => by
    simp only [Stmt.instrs, Stmt.eval] at h ⊢
    exact follows_value h (fun _ _ _ _ => rfl) printNumber_matches rounds stack mem
  | .input name, start, h => by
    rw [Stmt.instrs] at h
    exact Follows.of_matches h.head rfl (inputNumber_matches rounds name)
  | .discard value, start, h => by
    simp only [Stmt.instrs, Stmt.eval] at h ⊢
    exact follows_value h (fun _ _ _ _ => rfl) (fun _ => Matches.pure ()) rounds stack mem
  | .block body, start, h => by
    simp only [Stmt.instrs, Stmt.eval] at h ⊢
    exact follows_all rounds stack mem body h
  | .ifThen test body, start, h => by
    have hEnd := h.end_le
    rw [Stmt.end_ifThen] at hEnd ⊢
    rw [Stmt.instrs] at h
    have hTest := steps_test h hEnd stack mem
    rw [Stmt.eval, Eval.outcome?_bind, Eval.outcome?_valueOf]
    simp only
    cases hTrue : isTrue (test.value mem.vars) with
    | false =>
      rw [hTrue] at hTest
      exact ⟨_, hTest⟩
    | true =>
      rw [hTrue] at hTest
      exact (follows_stmt rounds stack mem body h.right.tail).of_steps hTest (Nat.le_add_left _ _)
  | .ifElse test body otherwise, start, h => by
    have hEnd := h.end_le
    rw [Stmt.end_ifElse] at hEnd ⊢
    rw [Stmt.instrs] at h
    have hTest := steps_test h (by omega) stack mem
    rw [Stmt.eval, Eval.outcome?_bind, Eval.outcome?_valueOf]
    simp only
    cases hTrue : isTrue (test.value mem.vars) with
    | false =>
      rw [hTrue] at hTest
      exact (follows_stmt rounds stack mem otherwise h.right.tail.right.tail).of_steps hTest
        (Nat.le_add_left _ _)
    | true =>
      rw [hTrue] at hTest
      -- The first branch ends with a jump over the other one.
      have hBody := follows_stmt rounds stack mem body h.right.tail.left
      have hJump : ∀ after : Memory π, Steps code 1 _ _ := fun after =>
        .one (step_jump h.right.tail.right.head hEnd stack after)
      exact (hBody.then_steps hJump).of_steps hTest (Nat.le_add_left _ _)
  | .loop test body, start, h => by
    rw [Stmt.end_loop, Stmt.eval]
    rw [Stmt.instrs] at h
    exact follows_repeatWhile h (fun after => follows_stmt rounds stack after body
      h.right.tail.left) rounds (Nat.le_refl _) mem

/-- The code of statements does what their evaluation comes to. -/
theorem follows_all (rounds : Nat) (stack : List Float) (mem : Memory π) :
    (stmts : List Stmt) → {start : Nat} → code.Holds start (instrsOfAll start stmts) →
      Follows code rounds (stateAt start stack mem) (start + (instrsOfAll start stmts).length)
        stack ((evalAll rounds stmts).outcome? mem)
  | [], start, _ => ⟨0, .refl _⟩
  | first :: rest, start, h => by
    rw [instrsOfAll] at h
    rw [evalAll, instrsOfAll, List.length_append, ← Nat.add_assoc]
    exact (follows_stmt rounds stack mem first h.left).bind fun after _ =>
      follows_all rounds stack after rest h.right

end

/-- The run of the code of a program, from its start, comes to what the evaluation of the program
comes to. -/
theorem execute?_assembled (program : Program) (m : Machine) (port : π) (rounds : Nat) :
    match (program.eval rounds).outcome? ⟨m.vars, port⟩ with
    | none => m.execute? program.assembled rounds port = none
    | some (result, mem) => ∃ fuel h, m.execute? program.assembled fuel port = some h ∧
        h.result = result ∧ h.state.memory = mem := by
  have hAll := follows_all rounds [] ⟨m.vars, port⟩ program program.holds_assembled
  rw [Nat.zero_add] at hAll
  rw [Program.eval, Eval.outcome?_bind]
  match hOutcome : (evalAll rounds program).outcome? ⟨m.vars, port⟩ with
  | none =>
    rw [hOutcome] at hAll
    exact hAll
  | some (.error e, mem) =>
    rw [hOutcome] at hAll
    exact hAll
  | some (.ok (), mem) =>
    rw [hOutcome] at hAll
    obtain ⟨n, hSteps⟩ := hAll
    have hEnd : program.assembled.instrs[(instrsOfAll 0 program).length]? = none := by
      simp [Program.assembled]
    have hStep : step program.assembled (stateAt (instrsOfAll 0 program).length [] mem) =
        .halt (Halt.of (io Sink.flush) (stateAt (instrsOfAll 0 program).length [] mem)) := by
      simp only [step, stateAt, hEnd]
    have hRun := hSteps.run?_add 1
    rw [run?_of_halt hStep] at hRun
    obtain ⟨_, after, hEval, hFlush⟩ | ⟨e, after, hEval, hFlush⟩ :=
      Matches.io (Sink.flush (σ := π)) (instrsOfAll 0 program).length [] mem
    · simp only [hEval]
      exact ⟨n + 1, _, hRun, by simp [Halt.of, hFlush], by simp [Halt.of, hFlush]; rfl⟩
    · simp only [hEval]
      exact ⟨n + 1, _, hRun, by simp [Halt.of, hFlush], by simp [Halt.of, hFlush]; rfl⟩

/-- A run of the code of a program halts exactly as the evaluation of the program ends. -/
theorem execute?_halts_iff (program : Program) (m : Machine) (port : π)
    (result : Except RuntimeError Unit) (mem : Memory π) :
    (∃ fuel h, m.execute? program.assembled fuel port = some h ∧ h.result = result ∧
        h.state.memory = mem) ↔
      ∃ rounds, (program.eval rounds).outcome? ⟨m.vars, port⟩ = some (result, mem) := by
  constructor
  · rintro ⟨fuel, h, hRun, hResult, hMem⟩
    have hEval := execute?_assembled program m port fuel
    match hOutcome : (program.eval fuel).outcome? ⟨m.vars, port⟩ with
    | none =>
      rw [hOutcome, hRun] at hEval
      cases hEval
    | some (result', mem') =>
      rw [hOutcome] at hEval
      obtain ⟨fuel', h', hRun', hResult', hMem'⟩ := hEval
      obtain rfl := run?_unique hRun hRun'
      exact ⟨fuel, by rw [hOutcome, ← hResult, ← hMem, hResult', hMem']⟩
  · rintro ⟨rounds, hOutcome⟩
    have hEval := execute?_assembled program m port rounds
    rw [hOutcome] at hEval
    exact hEval

/-- A run of the code of a program goes on forever exactly if the evaluation of the program does. -/
theorem execute?_forever_iff (program : Program) (m : Machine) (port : π) :
    (∀ fuel, m.execute? program.assembled fuel port = none) ↔
      ∀ rounds, (program.eval rounds).outcome? ⟨m.vars, port⟩ = none := by
  constructor
  · intro hForever rounds
    match hOutcome : (program.eval rounds).outcome? ⟨m.vars, port⟩ with
    | none => rfl
    | some (result, mem) =>
      obtain ⟨fuel, h, hRun, _⟩ :=
        (execute?_halts_iff program m port result mem).mpr ⟨rounds, hOutcome⟩
      rw [hForever fuel] at hRun
      cases hRun
  · intro hForever fuel
    have hEval := execute?_assembled program m port fuel
    rw [hForever fuel] at hEval
    exact hEval

/-- Compiler correctness.  Every program has code, and on every input and output the run of the
code halts with a result, variables, effects and an unread input exactly if the evaluation of the
program ends with the same; it goes on forever exactly if the evaluation does.  The effects are
those on a port that keeps a record of them, which a run does not notice: without the record it
takes the same time and comes to the same end. -/
theorem execute?_code_iff_eval (program : Program) :
    ∃ code, program.code = .ok code ∧
      ∀ (ρ σ : Type) [Intake ρ] [Sink σ] (m : Machine) (feed : ρ) (sink : σ),
        let port : Recorded (Channels ρ σ) := ⟨⟨feed, sink⟩, []⟩
        (∀ result vars effects unread left,
          (∃ fuel halt, m.execute? code fuel port = some halt ∧ halt.result = result ∧
            halt.state.vars = vars ∧ halt.state.port = ⟨⟨unread, left⟩, effects⟩) ↔
          ∃ rounds, (program.eval rounds).outcome? ⟨m.vars, port⟩ =
            some (result, ⟨vars, ⟨⟨unread, left⟩, effects⟩⟩)) ∧
        ((∀ fuel, m.execute? code fuel port = none) ↔
          ∀ rounds, (program.eval rounds).outcome? ⟨m.vars, port⟩ = none) ∧
        ∀ fuel, Option.Rel (Halt.Alike fun recorded plain => recorded.port = plain)
          (m.execute? code fuel port) (m.execute? code fuel (Channels.mk feed sink)) := by
  refine ⟨program.assembled, program.code_eq_assembled, fun ρ σ _ _ m feed sink => ?_⟩
  refine ⟨fun result vars effects unread left => ?_, execute?_forever_iff program m _,
    fun fuel => ?_⟩
  · rw [← execute?_halts_iff]
    simp only [State.memory, Memory.mk.injEq]
  · exact run?_alike Recorded.alike program.assembled fuel ⟨rfl, rfl⟩

end Abacus.Machine
