import Abacus.Proofs.Code.Layout
import Abacus.Proofs.Machine.Runs

/-! How many values are on the stack before each instruction of the code of a program.  `Fits` says
that a depth at every index goes together with what one instruction does; code whose instructions
all fit keeps to the depths in every run, and the code of a program fits `Program.stackDepth`. -/

namespace Abacus

/-- An instruction at an index has its operand, and takes the depth there to the depths at the
indices where the machine may go on. -/
def Instr.Fits (depth : Nat → Nat) (size index : Nat) (i : Instr) : Prop :=
  match i.op with
  | .pushConst => (∃ value, i.value = some value) ∧ depth (index + 1) = depth index + 1
  | .loadVar => (∃ name, i.name = some name) ∧ depth (index + 1) = depth index + 1
  | .storeVar => (∃ name, i.name = some name) ∧ depth index = depth (index + 1) + 1
  | .pop | .print => depth index = depth (index + 1) + 1
  | .input => (∃ name, i.name = some name) ∧ depth (index + 1) = depth index
  | .jump => ∃ target, i.target = some target ∧ target ≤ size ∧ depth target = depth index
  | .jumpIfFalse => ∃ target, i.target = some target ∧ target ≤ size ∧
      depth index = depth (index + 1) + 1 ∧ depth target = depth (index + 1)
  | _ => ∃ rest, depth index = rest + 2 ∧ depth (index + 1) = rest + 1

/-- Every instruction of the code fits. -/
def Code.Fits (code : Code) (depth : Nat → Nat) : Prop :=
  ∀ (index : Nat) (i : Instr), code.instrs[index]? = some i → i.Fits depth code.size index

/-- Whether an error comes from the input or the output, and not from the code. -/
def RuntimeError.isOutside : RuntimeError → Bool
  | inputExhausted _ | invalidInput _ _ | io _ => true
  | _ => false

namespace Machine

variable {π α β : Type}

/-- An action that leaves the index of the next instruction and the stack alone, and that fails
only from outside. -/
def Neutral (act : Action π α) : Prop :=
  ∀ s, match act s with
    | .ok _ after => after.pc = s.pc ∧ after.stack = s.stack
    | .error e _ => e.isOutside = true

namespace Neutral

theorem throw {e : RuntimeError} (h : e.isOutside = true) : Neutral (throw e : Action π α) :=
  fun _ => h

theorem store (name : String) (value : Float) : Neutral (Machine.store (π := π) name value) :=
  fun _ => ⟨rfl, rfl⟩

theorem io (act : EStateM String π α) : Neutral (Machine.io act) := by
  intro s
  rw [Machine.io]
  cases act s.port with
  | ok a port => exact ⟨rfl, rfl⟩
  | error message port => rfl

theorem bind {act : Action π α} {next : α → Action π β} (hAct : Neutral act)
    (hNext : ∀ a, Neutral (next a)) : Neutral (act >>= next) := by
  intro s
  have h := hAct s
  simp only [Bind.bind, EStateM.bind]
  cases hFirst : act s with
  | error e after =>
    rw [hFirst] at h
    exact h
  | ok a middle =>
    rw [hFirst] at h
    have h' := hNext a middle
    dsimp only
    cases hSecond : next a middle with
    | error e after =>
      rw [hSecond] at h'
      exact h'
    | ok b after =>
      rw [hSecond] at h'
      exact ⟨h'.1.trans h.1, h'.2.trans h.2⟩

end Neutral

theorem printNumber_neutral [Sink π] (value : Float) : Neutral (printNumber (π := π) value) :=
  (Neutral.io _).bind fun _ => Neutral.io _

theorem inputNumber_neutral [Intake π] [Sink π] (name : String) :
    Neutral (inputNumber (π := π) name) := by
  refine (Neutral.io _).bind fun _ => (Neutral.io _).bind fun _ => (Neutral.io _).bind fun _ =>
    (Neutral.io _).bind fun word => ?_
  cases word with
  | none => exact Neutral.throw rfl
  | some text =>
    cases h : Number.read? text with
    | none =>
      simp only [h]
      exact Neutral.throw rfl
    | some value =>
      simp only [h]
      exact Neutral.store name value

/-- The machine is inside its code or behind it, with as many values on the stack as the depth at
its index says. -/
def State.Keeps (depth : Nat → Nat) (size : Nat) (s : State π) : Prop :=
  s.pc ≤ size ∧ s.stack.length = depth s.pc

/-- What an instruction that fits comes to. -/
def Kept (depth : Nat → Nat) (size : Nat) : EStateM.Result RuntimeError (State π) Unit → Prop
  | .ok () after => after.Keeps depth size
  | .error e _ => e.isOutside = true

/-- Behind an action that is neutral the depth is that of the stack before it. -/
theorem Neutral.kept {depth : Nat → Nat} {size : Nat} {act : Action π Unit} (hAct : Neutral act)
    {s : State π} (h : s.Keeps depth size) : Kept depth size (act s) := by
  have hNeutral := hAct s
  cases hResult : act s with
  | ok _ after =>
    rw [hResult] at hNeutral
    show after.pc ≤ size ∧ after.stack.length = depth after.pc
    rw [hNeutral.1, hNeutral.2]
    exact h
  | error e after =>
    rw [hResult] at hNeutral
    exact hNeutral

/-- An instruction that fits keeps to the depths. -/
theorem exec_kept [Intake π] [Sink π] {depth : Nat → Nat} {size index : Nat} {i : Instr}
    (hFits : i.Fits depth size index) (hIndex : index < size) {s : State π}
    (hStack : s.stack.length = depth index) :
    Kept depth size (exec i index size { s with pc := index + 1 }) := by
  obtain ⟨op, name, value, target⟩ := i
  obtain ⟨⟨pc, stack, vars⟩, port⟩ := s
  simp only at hStack ⊢
  cases op with
  | pushConst =>
    obtain ⟨⟨v, rfl⟩, hNext⟩ := hFits
    exact ⟨hIndex, by simp [hStack, hNext]⟩
  | loadVar =>
    obtain ⟨⟨n, rfl⟩, hNext⟩ := hFits
    exact ⟨hIndex, by simp [hStack, hNext]⟩
  | storeVar =>
    obtain ⟨⟨n, rfl⟩, hNext⟩ := hFits
    obtain ⟨top, rest, rfl⟩ := List.exists_cons_of_length_eq_add_one (hStack.trans hNext)
    exact ⟨hIndex, by simpa [hNext] using hStack⟩
  | pop =>
    obtain ⟨top, rest, rfl⟩ := List.exists_cons_of_length_eq_add_one (hStack.trans hFits)
    exact ⟨hIndex, Nat.succ.inj (hStack.trans hFits)⟩
  | print =>
    obtain ⟨top, rest, rfl⟩ := List.exists_cons_of_length_eq_add_one (hStack.trans hFits)
    exact (printNumber_neutral top).kept ⟨hIndex, Nat.succ.inj (hStack.trans hFits)⟩
  | input =>
    obtain ⟨⟨n, rfl⟩, hNext⟩ := hFits
    exact (inputNumber_neutral n).kept ⟨hIndex, hStack.trans hNext.symm⟩
  | jump =>
    obtain ⟨t, rfl, hTarget, hNext⟩ := hFits
    simp only [exec]
    rw [jumpTarget_eq_pure rfl _ hTarget, pure_bind]
    exact ⟨hTarget, hStack.trans hNext.symm⟩
  | jumpIfFalse =>
    obtain ⟨t, rfl, hTarget, hNext, hJump⟩ := hFits
    obtain ⟨top, rest, rfl⟩ := List.exists_cons_of_length_eq_add_one (hStack.trans hNext)
    have hRest : rest.length = depth (index + 1) := Nat.succ.inj (hStack.trans hNext)
    simp only [exec]
    rw [jumpTarget_eq_pure rfl _ hTarget, pure_bind]
    show Kept depth size ((if top == zero then goto t else pure ()) _)
    cases top == zero
    · exact ⟨hIndex, hRest⟩
    · exact ⟨hTarget, hRest.trans hJump.symm⟩
  | _ =>
    obtain ⟨n, hDepth, hNext⟩ := hFits
    obtain ⟨right, rest, rfl⟩ := List.exists_cons_of_length_eq_add_one (hStack.trans hDepth)
    obtain ⟨left, rest, rfl⟩ :=
      List.exists_cons_of_length_eq_add_one (Nat.succ.inj (hStack.trans hDepth))
    exact ⟨hIndex, (Nat.succ.inj (hStack.trans hDepth)).trans hNext.symm⟩

variable [Intake π] [Sink π] {code : Code} {depth : Nat → Nat} {s s' : State π}

theorem State.Keeps.step (hCode : code.Fits depth) (h : s.Keeps depth code.size)
    (hStep : Machine.step code s = .next s') : s'.Keeps depth code.size := by
  obtain ⟨i, hInstr, hExec⟩ := exists_exec_of_next hStep
  have hPc : s.pc < code.size := (Array.getElem?_eq_some_iff.mp hInstr).1
  have hKept := exec_kept (hCode s.pc i hInstr) hPc h.2
  rw [hExec] at hKept
  exact hKept

/-- Code that fits keeps to the depths in every run. -/
theorem State.Keeps.steps (hCode : code.Fits depth) {n : Nat} (hSteps : Steps code n s s')
    (h : s.Keeps depth code.size) : s'.Keeps depth code.size := by
  induction hSteps with
  | refl => exact h
  | step first rest ih => exact ih (h.step hCode first)

/-- Code that fits halts with the depth behind its end, or by an error from outside. -/
theorem State.Keeps.halt (hCode : code.Fits depth) (h : s.Keeps depth code.size) {halt : Halt π}
    (hStep : Machine.step code s = .halt halt) :
    (halt.result = .ok () → halt.state.stack.length = depth code.size) ∧
      ∀ e, halt.result = .error e → e.isOutside = true := by
  rcases halt_cases hStep with ⟨hNone, rfl⟩ | ⟨i, cause, hInstr, hResult, hExec⟩
  · have hPc : s.pc = code.size :=
      Nat.le_antisymm h.1 (Array.getElem?_eq_none_iff.mp hNone)
    have hFlush := Neutral.io (Sink.flush (σ := π)) s
    unfold Halt.of
    cases hResult : io Sink.flush s with
    | ok _ after =>
      rw [hResult] at hFlush
      refine ⟨fun _ => ?_, fun e he => by cases he⟩
      show after.stack.length = depth code.size
      rw [hFlush.2, h.2, hPc]
    | error e after =>
      rw [hResult] at hFlush
      exact ⟨fun hOk => (by cases hOk), fun e' he => (by cases he; exact hFlush)⟩
  · have hPc : s.pc < code.size := (Array.getElem?_eq_some_iff.mp hInstr).1
    have hKept := exec_kept (hCode s.pc i hInstr) hPc h.2
    rw [hExec] at hKept
    rw [hResult]
    exact ⟨fun hOk => (by cases hOk), fun e he => (by cases he; exact hKept)⟩

end Machine

/-! ### The depths of the code of a tree -/

/-- The depths before the instructions of an expression, on a stack of `base` values. -/
def Expr.depths (base : Nat) : Expr → List Nat
  | .literal _ | .var _ => [base]
  | .group inner => inner.depths base
  | .unary .neg operand => base :: (operand.depths (base + 1) ++ [base + 2])
  | .unary .plus operand => operand.depths base
  | .binary _ left right => left.depths base ++ (right.depths (base + 1) ++ [base + 2])

mutual

/-- The depths before the instructions of a statement. -/
def Stmt.depths : Stmt → List Nat
  | .declare _ _ => []
  | .assign _ value | .print value | .discard value => value.depths 0 ++ [1]
  | .input _ => [0]
  | .block body => depthsOfAll body
  | .ifThen test body => test.depths 0 ++ 1 :: body.depths
  | .ifElse test body otherwise => test.depths 0 ++ 1 :: (body.depths ++ 0 :: otherwise.depths)
  | .loop test body => test.depths 0 ++ 1 :: (body.depths ++ [0])

/-- The depths before the instructions of statements. -/
def depthsOfAll : List Stmt → List Nat
  | [] => []
  | first :: rest => first.depths ++ depthsOfAll rest

end

/-- The depth of the stack at an index in the code of a program. -/
def Program.stackDepth (program : Program) (index : Nat) : Nat := (depthsOfAll program).getD index 0

/-- The indices at which the code of a statement begins and ends. -/
def Stmt.edges (start : Nat) (stmt : Stmt) : List Nat := [start, start + (stmt.instrs start).length]

mutual

/-- The indices at which the statements inside a statement begin and end. -/
def Stmt.innerEdges (start : Nat) : Stmt → List Nat
  | .block body => edgesOfAll start body
  | .ifThen test body | .loop test body =>
    let first := start + test.instrs.length + 1
    body.edges first ++ body.innerEdges first
  | .ifElse test body otherwise =>
    let first := start + test.instrs.length + 1
    let second := first + (body.instrs first).length + 1
    body.edges first ++ body.innerEdges first ++
      (otherwise.edges second ++ otherwise.innerEdges second)
  | _ => []

/-- The indices at which statements, and the statements inside them, begin and end. -/
def edgesOfAll (start : Nat) : List Stmt → List Nat
  | [] => []
  | first :: rest =>
    first.edges start ++ first.innerEdges start ++
      edgesOfAll (start + (first.instrs start).length) rest

end

theorem Expr.length_depths (e : Expr) (base : Nat) : (e.depths base).length = e.instrs.length := by
  induction e generalizing base with
  | literal value => rfl
  | var name => rfl
  | group inner ih => exact ih base
  | unary op operand ih => cases op <;> simp [depths, instrs, ih]
  | binary op left right ihLeft ihRight => simp [depths, instrs, ihLeft, ihRight]

mutual

theorem Stmt.length_depths :
    (stmt : Stmt) → (start : Nat) → stmt.depths.length = (stmt.instrs start).length
  | .declare _ _, _ => rfl
  | .assign _ _, _ | .print _, _ | .discard _, _ => by
    simp [Stmt.depths, Stmt.instrs, Expr.length_depths]
  | .input _, _ => rfl
  | .block body, start => length_depthsOfAll body start
  | .ifThen test body, start => by
    simp only [Stmt.depths, Stmt.instrs, List.length_append, List.length_cons, Expr.length_depths]
    rw [Stmt.length_depths body]
  | .ifElse test body otherwise, start => by
    simp only [Stmt.depths, Stmt.instrs, List.length_append, List.length_cons, Expr.length_depths]
    rw [Stmt.length_depths body, Stmt.length_depths otherwise]
  | .loop test body, start => by
    simp only [Stmt.depths, Stmt.instrs, List.length_append, List.length_cons, Expr.length_depths]
    rw [Stmt.length_depths body]
    rfl

theorem length_depthsOfAll :
    (stmts : List Stmt) → (start : Nat) →
      (depthsOfAll stmts).length = (instrsOfAll start stmts).length
  | [], _ => rfl
  | first :: rest, start => by
    rw [depthsOfAll, instrsOfAll, List.length_append, List.length_append,
      Stmt.length_depths first start, length_depthsOfAll rest]

end

theorem Expr.depths_eq_cons (e : Expr) (base : Nat) : ∃ rest, e.depths base = base :: rest := by
  induction e with
  | literal value => exact ⟨[], rfl⟩
  | var name => exact ⟨[], rfl⟩
  | group inner ih => exact ih
  | unary op operand ih =>
    cases op with
    | neg => exact ⟨_, rfl⟩
    | plus => exact ih
  | binary op left right ihLeft ihRight =>
    obtain ⟨rest, hRest⟩ := ihLeft
    exact ⟨_, by rw [depths, hRest, List.cons_append]⟩

mutual

/-- A statement begins and ends with nothing on the stack. -/
theorem Stmt.depths_append_zero : (stmt : Stmt) → ∃ rest, stmt.depths ++ [0] = 0 :: rest
  | .declare _ _ => ⟨[], rfl⟩
  | .assign _ e | .print e | .discard e | .ifThen e _ | .ifElse e _ _ | .loop e _ => by
    obtain ⟨rest, hRest⟩ := e.depths_eq_cons 0
    exact ⟨_, by rw [Stmt.depths, hRest, List.cons_append, List.cons_append]⟩
  | .input _ => ⟨[0], rfl⟩
  | .block body => by
    rw [Stmt.depths]
    exact depthsOfAll_append_zero body

theorem depthsOfAll_append_zero : (stmts : List Stmt) → ∃ rest, depthsOfAll stmts ++ [0] = 0 :: rest
  | [] => ⟨[], rfl⟩
  | first :: rest => by
    obtain ⟨after, hAfter⟩ := depthsOfAll_append_zero rest
    obtain ⟨inner, hInner⟩ := Stmt.depths_append_zero first
    refine ⟨inner ++ after, ?_⟩
    rw [depthsOfAll, List.append_assoc, hAfter, List.append_cons, hInner, List.cons_append]

end

/-- A property of the members of a list by their indices, the first of which is `start`. -/
def Along {α : Type} (P : Nat → α → Prop) : (start : Nat) → List α → Prop
  | _, [] => True
  | start, x :: rest => P start x ∧ Along P (start + 1) rest

section Along

variable {α : Type} {P : Nat → α → Prop}

theorem along_append {start : Nat} {xs ys : List α} :
    Along P start (xs ++ ys) ↔ Along P start xs ∧ Along P (start + xs.length) ys := by
  induction xs generalizing start with
  | nil => simp [Along]
  | cons x rest ih =>
    simp only [List.cons_append, Along, ih, List.length_cons]
    rw [and_assoc, Nat.add_assoc, Nat.add_comm 1]

theorem along_iff {start : Nat} {xs : List α} :
    Along P start xs ↔ ∀ k x, xs[k]? = some x → P (start + k) x := by
  induction xs generalizing start with
  | nil => simp [Along]
  | cons x rest ih =>
    simp only [Along, ih]
    constructor
    · rintro ⟨hHead, hRest⟩ k y hk
      cases k with
      | zero =>
        cases hk
        exact hHead
      | succ k =>
        rw [show start + (k + 1) = start + 1 + k by omega]
        exact hRest k y hk
    · intro h
      refine ⟨h 0 x rfl, fun k y hk => ?_⟩
      rw [show start + 1 + k = start + (k + 1) by omega]
      exact h (k + 1) y hk

end Along

section Fits

variable {depth : Nat → Nat} {size start : Nat}

/-- The depths from an index on are the given ones. -/
abbrev Charted (depth : Nat → Nat) (start : Nat) (depths : List Nat) : Prop :=
  Along (fun index n => depth index = n) start depths

/-- The instructions from an index on fit the depths. -/
abbrev AllFit (depth : Nat → Nat) (size start : Nat) (instrs : List Instr) : Prop :=
  Along (fun index i => i.Fits depth size index) start instrs

theorem BinaryOp.fits_opcode (op : BinaryOp) {index rest : Nat} (h : depth index = rest + 2)
    (hNext : depth (index + 1) = rest + 1) : (Instr.simple op.opcode).Fits depth size index := by
  cases op <;> exact ⟨rest, h, hNext⟩

/-- The depths of a part up to and with the one behind it, which is the first of the rest. -/
theorem charted_split {depths rest : List Nat} {n length : Nat}
    (h : Charted depth start (depths ++ rest)) (hLength : depths.length = length)
    (hNext : Charted depth (start + length) rest → depth (start + length) = n) :
    Charted depth start (depths ++ [n]) ∧ Charted depth (start + length) rest := by
  subst hLength
  obtain ⟨hPart, hRest⟩ := along_append.mp h
  exact ⟨along_append.mpr ⟨hPart, hNext hRest, trivial⟩, hRest⟩

theorem Expr.depth_start {e : Expr} {base : Nat} {rest : List Nat}
    (h : Charted depth start (e.depths base ++ rest)) : depth start = base := by
  obtain ⟨tail, hTail⟩ := e.depths_eq_cons base
  rw [hTail] at h
  exact h.1

theorem Stmt.depth_start {stmt : Stmt} (h : Charted depth start (stmt.depths ++ [0])) :
    depth start = 0 := by
  obtain ⟨rest, hRest⟩ := stmt.depths_append_zero
  rw [hRest] at h
  exact h.1

theorem Stmt.charted_cons {stmt : Stmt} {rest : List Nat}
    (h : Charted depth start (stmt.depths ++ 0 :: rest)) :
    Charted depth start (stmt.depths ++ [0]) ∧ depth (start + (stmt.instrs start).length) = 0 ∧
      Charted depth (start + (stmt.instrs start).length + 1) rest :=
  charted_split h (stmt.length_depths start) fun hRest => hRest.1

theorem depth_start_of_all {stmts : List Stmt}
    (h : Charted depth start (depthsOfAll stmts ++ [0])) : depth start = 0 := by
  obtain ⟨rest, hRest⟩ := depthsOfAll_append_zero stmts
  rw [hRest] at h
  exact h.1

theorem Expr.allFit {e : Expr} {base : Nat}
    (h : Charted depth start (e.depths base ++ [base + 1])) :
    AllFit depth size start e.instrs := by
  induction e generalizing start base with
  | literal value => exact ⟨⟨⟨value, rfl⟩, by rw [h.1, h.2.1]⟩, trivial⟩
  | var name => exact ⟨⟨⟨name, rfl⟩, by rw [h.1, h.2.1]⟩, trivial⟩
  | group inner ih => exact ih h
  | unary op operand ih =>
    cases op with
    | plus => exact ih h
    | neg =>
      simp only [depths, List.cons_append, List.append_assoc] at h
      obtain ⟨hFirst, hRest⟩ := h
      obtain ⟨hOperand, hSub, hLast, -⟩ :=
        charted_split hRest (operand.length_depths _) fun hSub => hSub.1
      exact ⟨⟨⟨_, rfl⟩, by rw [hFirst, depth_start hOperand]⟩, along_append.mpr
        ⟨ih hOperand, BinaryOp.sub.fits_opcode hSub hLast, trivial⟩⟩
  | binary op left right ihLeft ihRight =>
    simp only [depths, List.append_assoc, List.cons_append] at h
    obtain ⟨hLeft, hRest⟩ := charted_split h (left.length_depths _) depth_start
    obtain ⟨hRight, hOp, hLast, -⟩ :=
      charted_split hRest (right.length_depths _) fun hOp => hOp.1
    exact along_append.mpr ⟨ihLeft hLeft, along_append.mpr
      ⟨ihRight hRight, op.fits_opcode hOp hLast, trivial⟩⟩

/-- An expression, and an instruction that takes its value off the stack. -/
theorem Expr.allFit_cons {e : Expr} {i : Instr} {rest : List Nat} {instrs : List Instr}
    (h : Charted depth start (e.depths 0 ++ 1 :: rest))
    (hRest : Charted depth (start + e.instrs.length + 1) rest →
      AllFit depth size (start + e.instrs.length + 1) instrs)
    (hInstr : depth (start + e.instrs.length) = 1 →
      Charted depth (start + e.instrs.length + 1) rest →
        i.Fits depth size (start + e.instrs.length)) :
    AllFit depth size start (e.instrs ++ i :: instrs) := by
  obtain ⟨hValue, hOne, hTail⟩ := charted_split h (e.length_depths _) fun hOne => hOne.1
  exact along_append.mpr ⟨allFit hValue, hInstr hOne hTail, hRest hTail⟩

mutual

theorem Stmt.allFit : (stmt : Stmt) → {start : Nat} → Charted depth start (stmt.depths ++ [0]) →
    start + (stmt.instrs start).length ≤ size → AllFit depth size start (stmt.instrs start)
  | .declare _ _, _, _, _ => trivial
  | .assign name value, start, h, _ => by
    rw [Stmt.depths, List.append_assoc] at h
    exact Expr.allFit_cons h (fun _ => trivial) fun hOne hZero =>
      ⟨⟨name, rfl⟩, by rw [hOne, hZero.1]⟩
  | .print value, start, h, _ => by
    rw [Stmt.depths, List.append_assoc] at h
    exact Expr.allFit_cons h (fun _ => trivial) fun hOne hZero => hOne.trans (by rw [hZero.1])
  | .discard value, start, h, _ => by
    rw [Stmt.depths, List.append_assoc] at h
    exact Expr.allFit_cons h (fun _ => trivial) fun hOne hZero => hOne.trans (by rw [hZero.1])
  | .input name, _, h, _ => ⟨⟨⟨name, rfl⟩, by rw [h.1, h.2.1]⟩, trivial⟩
  | .block body, _, h, hEnd => allFit_of_all body h hEnd
  | .ifThen test body, start, h, hEnd => by
    rw [Stmt.end_ifThen] at hEnd
    rw [Stmt.depths, List.append_assoc, List.cons_append] at h
    refine Expr.allFit_cons h (fun hBody => Stmt.allFit body hBody hEnd) fun hOne hBody => ?_
    have hFirst := Stmt.depth_start hBody
    obtain ⟨-, hLast, -⟩ := Stmt.charted_cons hBody
    exact ⟨_, rfl, hEnd, by rw [hOne, hFirst], by rw [hLast, hFirst]⟩
  | .ifElse test body otherwise, start, h, hEnd => by
    rw [Stmt.end_ifElse] at hEnd
    rw [Stmt.depths, List.append_assoc, List.cons_append, List.append_assoc, List.cons_append] at h
    refine Expr.allFit_cons h (fun hRest => ?_) fun hOne hRest => ?_
    · obtain ⟨hBody, hJump, hOther⟩ := Stmt.charted_cons hRest
      obtain ⟨-, hLast, -⟩ := Stmt.charted_cons hOther
      exact along_append.mpr ⟨Stmt.allFit body hBody (by omega),
        ⟨_, rfl, hEnd, by rw [hLast, hJump]⟩, Stmt.allFit otherwise hOther hEnd⟩
    · obtain ⟨hBody, -, hOther⟩ := Stmt.charted_cons hRest
      have hFirst := Stmt.depth_start hBody
      exact ⟨_, rfl, by omega, by rw [hOne, hFirst], by rw [Stmt.depth_start hOther, hFirst]⟩
  | .loop test body, start, h, hEnd => by
    rw [Stmt.end_loop] at hEnd
    rw [Stmt.depths, List.append_assoc, List.cons_append, List.append_assoc, List.cons_append] at h
    have hStart := Expr.depth_start h
    refine Expr.allFit_cons h (fun hRest => ?_) fun hOne hRest => ?_
    · obtain ⟨hBody, hJump, -⟩ := Stmt.charted_cons hRest
      exact along_append.mpr ⟨Stmt.allFit body hBody (by omega),
        ⟨start, rfl, by omega, by rw [hStart, hJump]⟩, trivial⟩
    · obtain ⟨hBody, -, hLast, -⟩ := Stmt.charted_cons hRest
      have hFirst := Stmt.depth_start hBody
      exact ⟨_, rfl, hEnd, by rw [hOne, hFirst], by rw [hLast, hFirst]⟩

theorem allFit_of_all : (stmts : List Stmt) → {start : Nat} →
    Charted depth start (depthsOfAll stmts ++ [0]) →
    start + (instrsOfAll start stmts).length ≤ size →
    AllFit depth size start (instrsOfAll start stmts)
  | [], _, _, _ => trivial
  | first :: rest, start, h, hEnd => by
    rw [instrsOfAll, List.length_append] at hEnd
    rw [depthsOfAll, List.append_assoc] at h
    obtain ⟨hFirst, hRest⟩ := charted_split h (first.length_depths start) depth_start_of_all
    exact along_append.mpr ⟨Stmt.allFit first hFirst (by omega),
      allFit_of_all rest hRest (by omega)⟩

end

theorem Stmt.depth_edges {stmt : Stmt} (h : Charted depth start (stmt.depths ++ [0])) {index : Nat}
    (hIndex : index ∈ stmt.edges start) : depth index = 0 := by
  simp only [edges, List.mem_cons, List.not_mem_nil, or_false] at hIndex
  rcases hIndex with rfl | rfl
  · exact depth_start h
  · exact (charted_cons h).2.1

mutual

theorem Stmt.depth_innerEdges {index : Nat} : (stmt : Stmt) → {start : Nat} →
    Charted depth start (stmt.depths ++ [0]) → index ∈ stmt.innerEdges start → depth index = 0
  | .declare _ _, _, _, hIndex | .assign _ _, _, _, hIndex | .print _, _, _, hIndex
  | .input _, _, _, hIndex | .discard _, _, _, hIndex => by
    simp [Stmt.innerEdges] at hIndex
  | .block body, _, h, hIndex => by
    rw [Stmt.innerEdges] at hIndex
    exact depth_edgesOfAll body h hIndex
  | .ifThen test body, start, h, hIndex => by
    rw [Stmt.depths, List.append_assoc, List.cons_append] at h
    obtain ⟨-, -, hBody⟩ := charted_split h (test.length_depths _) fun hOne => hOne.1
    rw [Stmt.innerEdges, List.mem_append] at hIndex
    exact hIndex.elim (Stmt.depth_edges hBody) (Stmt.depth_innerEdges body hBody)
  | .ifElse test body otherwise, start, h, hIndex => by
    rw [Stmt.depths, List.append_assoc, List.cons_append, List.append_assoc, List.cons_append] at h
    obtain ⟨-, -, hRest⟩ := charted_split h (test.length_depths _) fun hOne => hOne.1
    obtain ⟨hBody, -, hOther⟩ := Stmt.charted_cons hRest
    simp only [Stmt.innerEdges, List.mem_append] at hIndex
    rcases hIndex with (hIndex | hIndex) | hIndex | hIndex
    · exact Stmt.depth_edges hBody hIndex
    · exact Stmt.depth_innerEdges body hBody hIndex
    · exact Stmt.depth_edges hOther hIndex
    · exact Stmt.depth_innerEdges otherwise hOther hIndex
  | .loop test body, start, h, hIndex => by
    rw [Stmt.depths, List.append_assoc, List.cons_append, List.append_assoc, List.cons_append] at h
    obtain ⟨-, -, hRest⟩ := charted_split h (test.length_depths _) fun hOne => hOne.1
    obtain ⟨hBody, -, -⟩ := Stmt.charted_cons hRest
    rw [Stmt.innerEdges, List.mem_append] at hIndex
    exact hIndex.elim (Stmt.depth_edges hBody) (Stmt.depth_innerEdges body hBody)

theorem depth_edgesOfAll {index : Nat} : (stmts : List Stmt) → {start : Nat} →
    Charted depth start (depthsOfAll stmts ++ [0]) → index ∈ edgesOfAll start stmts →
    depth index = 0
  | [], _, _, hIndex => by simp [edgesOfAll] at hIndex
  | first :: rest, start, h, hIndex => by
    rw [depthsOfAll, List.append_assoc] at h
    obtain ⟨hFirst, hRest⟩ := charted_split h (first.length_depths start) depth_start_of_all
    simp only [edgesOfAll, List.mem_append] at hIndex
    rcases hIndex with (hIndex | hIndex) | hIndex
    · exact Stmt.depth_edges hFirst hIndex
    · exact Stmt.depth_innerEdges first hFirst hIndex
    · exact depth_edgesOfAll rest hRest hIndex

end

end Fits

namespace Program

theorem charted_stackDepth (program : Program) :
    Charted program.stackDepth 0 (depthsOfAll program ++ [0]) := by
  refine along_append.mpr ⟨along_iff.mpr fun k n hk => ?_, ?_, trivial⟩
  · simp [stackDepth, hk]
  · simp [stackDepth]

/-- The code of a program fits the depths of the program. -/
theorem fits_assembled (program : Program) : program.assembled.Fits program.stackDepth := by
  have hAll : AllFit program.stackDepth program.assembled.size 0 (instrsOfAll 0 program) :=
    allFit_of_all program program.charted_stackDepth (Nat.le_of_eq (Nat.zero_add _))
  intro index i hInstr
  rw [← Code.getElem?_toList, toList_assembled] at hInstr
  simpa using along_iff.mp hAll index i hInstr

end Program

/-- Stack discipline.  The code of every program has a depth for each of its indices and the one
behind it, zero at both ends, that the stack has in every state of every run.  So no run ends in an
error of the code, and the stack is empty at the edges of statements and at a normal end. -/
theorem stack_length_eq_depth (program : Program) :
    ∃ (code : Code) (depth : Nat → Nat), program.code = .ok code ∧ depth 0 = 0 ∧
      depth code.size = 0 ∧
      ∀ (π : Type) [Intake π] [Sink π] (m : Machine) (port : π),
        (∀ n s, Machine.Steps code n (m.start port) s →
          s.pc ≤ code.size ∧ s.stack.length = depth s.pc ∧
            (s.pc ∈ edgesOfAll 0 program → s.stack = [])) ∧
        ∀ fuel halt, m.execute? code fuel port = some halt →
          (halt.result = .ok () → halt.state.stack = []) ∧
          ∀ op index target, halt.result ≠ .error (.stackUnderflow op index) ∧
            halt.result ≠ .error (.missingOperand op index) ∧
            halt.result ≠ .error (.jumpOutOfRange target index) := by
  have hChart := program.charted_stackDepth
  have hFirst : program.stackDepth 0 = 0 := depth_start_of_all hChart
  have hLast : program.stackDepth program.assembled.size = 0 := by
    have h := (along_append.mp hChart).2.1
    rwa [Nat.zero_add, length_depthsOfAll program 0] at h
  refine ⟨program.assembled, program.stackDepth, program.code_eq_assembled, hFirst, hLast,
    fun π _ _ m port => ?_⟩
  have hStart : (m.start port).Keeps program.stackDepth program.assembled.size :=
    ⟨Nat.zero_le _, hFirst.symm⟩
  refine ⟨fun n s hSteps => ?_, fun fuel halt hRun => ?_⟩
  · have hKeeps := hStart.steps program.fits_assembled hSteps
    refine ⟨hKeeps.1, hKeeps.2, fun hEdge => ?_⟩
    exact List.eq_nil_of_length_eq_zero (hKeeps.2.trans (depth_edgesOfAll program hChart hEdge))
  · obtain ⟨n, s, hSteps, hStep⟩ := Machine.exists_steps_of_run? hRun
    obtain ⟨hOk, hError⟩ :=
      (hStart.steps program.fits_assembled hSteps).halt program.fits_assembled hStep
    refine ⟨fun h => List.eq_nil_of_length_eq_zero ((hOk h).trans hLast), fun op index target => ?_⟩
    refine ⟨fun h => ?_, fun h => ?_, fun h => ?_⟩
    · cases hError _ h
    · cases hError _ h
    · cases hError _ h

end Abacus
