import Abacus.Proofs.Machine.Forward
import Abacus.Proofs.Machine.Writes

/-! Runs of any code, also of code that no program has.  Such code may lack operands, take values
from an empty stack, or jump out of itself.  A run of it stays inside the code or behind its end, an
error about the code tells an instruction of it, and the variables at the end are those at the start
with what the completed instructions wrote, one after the other. -/

namespace Abacus

namespace Store

variable {α : Type}

/-- The store after values are put under names, one after the other. -/
def update (s : Store α) (writes : List (String × α)) : Store α :=
  writes.foldl (fun s write => s.set write.1 write.2) s

theorem update_cons (s : Store α) (write : String × α) (writes : List (String × α)) :
    s.update (write :: writes) = (s.set write.1 write.2).update writes := rfl

theorem get?_update {writes : List (String × α)} {name : String}
    (h : ∀ write ∈ writes, write.1 ≠ name) (s : Store α) :
    (s.update writes).get? name = s.get? name := by
  induction writes generalizing s with
  | nil => rfl
  | cons write writes ih =>
    obtain ⟨hFirst, hOthers⟩ := List.forall_mem_cons.mp h
    rw [update_cons, ih hOthers, get?_set_ne _ _ hFirst.symm]

theorem contains_update {s : Store α} {name : String} (h : s.contains name = true)
    (writes : List (String × α)) : (s.update writes).contains name = true := by
  induction writes generalizing s with
  | nil => exact h
  | cons write writes ih =>
    apply ih
    by_cases hName : name = write.1
    · rw [hName, contains, get?_set_self]
      rfl
    · rwa [contains, get?_set_ne _ _ hName]

end Store

namespace RuntimeError

/-- What an error of the instruction at an index tells of it, in code of the given size. -/
def Concerns (i : Instr) (index size : Nat) : RuntimeError → Prop
  | stackUnderflow op place | missingOperand op place => op = i.op ∧ place = index
  | jumpOutOfRange target place =>
    i.op.isJump = true ∧ i.target = some target ∧ size < target ∧ place = index
  | inputExhausted _ | invalidInput _ _ | io _ => True

/-- An error about the code tells an instruction of it: the operation that it is, or the target
behind the end that it jumps to. -/
def LocatedIn (code : Code) : RuntimeError → Prop
  | stackUnderflow op index | missingOperand op index =>
    ∃ i, code.instrs[index]? = some i ∧ i.op = op
  | jumpOutOfRange target index =>
    ∃ i, code.instrs[index]? = some i ∧ i.op.isJump = true ∧ i.target = some target ∧
      code.size < target
  | inputExhausted _ | invalidInput _ _ | io _ => True

theorem Concerns.locatedIn {code : Code} {i : Instr} {index : Nat} {e : RuntimeError}
    (h : e.Concerns i index code.size) (hAt : code.instrs[index]? = some i) : e.LocatedIn code := by
  cases e with
  | stackUnderflow op place | missingOperand op place =>
    obtain ⟨rfl, rfl⟩ := h
    exact ⟨i, hAt, rfl⟩
  | jumpOutOfRange target place =>
    obtain ⟨hJump, hTarget, hBehind, rfl⟩ := h
    exact ⟨i, hAt, hJump, hTarget, hBehind⟩
  | inputExhausted name | invalidInput name text | io message => trivial

end RuntimeError

namespace Machine

variable {π α β : Type}

/-! ### One instruction -/

/-- However it ends, the action leaves the machine inside code of the given size or behind it, and
its errors concern the instruction at the index. -/
def Contained (i : Instr) (index size : Nat) (act : Action π α) : Prop :=
  ∀ s, s.pc ≤ size → match act s with
    | .ok _ after => after.pc ≤ size
    | .error e after => after.pc ≤ size ∧ e.Concerns i index size

namespace Contained

variable {i : Instr} {index size : Nat}

theorem pure (a : α) : Contained i index size (pure a : Action π α) := fun _ h => h

theorem throw {e : RuntimeError} (he : e.Concerns i index size) :
    Contained i index size (throw e : Action π α) := fun _ h => ⟨h, he⟩

theorem push (value : Float) : Contained i index size (push value : Action π Unit) := fun _ h => h

theorem store (name : String) (value : Float) :
    Contained i index size (store name value : Action π Unit) := fun _ h => h

theorem goto {target : Nat} (h : target ≤ size) :
    Contained i index size (goto target : Action π Unit) := fun _ _ => h

theorem load (name : String) :
    Contained i index size (do Machine.push (((← get).vars.get? name).getD zero) : Action π Unit) :=
  fun _ h => h

theorem pop : Contained i index size (pop i.op index : Action π Float) := by
  rintro ⟨⟨pc, stack, vars⟩, port⟩ h
  cases stack with
  | nil => exact ⟨h, rfl, rfl⟩
  | cons value rest => exact h

theorem io (act : EStateM String π α) : Contained i index size (Machine.io act) := by
  intro s h
  rw [Machine.io]
  cases act s.port with
  | ok a port => exact h
  | error message port => exact ⟨h, trivial⟩

theorem bind {act : Action π α} {next : α → Action π β} (hAct : Contained i index size act)
    (hNext : ∀ a, Contained i index size (next a)) : Contained i index size (act >>= next) := by
  intro s hs
  have h := hAct s hs
  simp only [Bind.bind, EStateM.bind]
  cases hFirst : act s with
  | error e after =>
    rw [hFirst] at h
    exact h
  | ok a middle =>
    rw [hFirst] at h
    exact hNext a middle h

theorem operand : (value : Option α) →
    Contained i index size (operand i.op index value : Action π α)
  | some a => pure a
  | none => throw ⟨rfl, rfl⟩

theorem binary (f : Float → Float → Float) :
    Contained i index size (binary i.op index f : Action π Unit) :=
  pop.bind fun _ => pop.bind fun _ => push _

/-- Behind the check of its target a jump goes to a place inside the code or behind it. -/
theorem jumpTarget {next : Nat → Action π β} (hJump : i.op.isJump = true)
    (hNext : ∀ target ≤ size, Contained i index size (next target)) :
    Contained i index size (jumpTarget i index size >>= next) := by
  cases hTarget : i.target with
  | none =>
    intro s hs
    simp only [Machine.jumpTarget, hTarget]
    exact ⟨hs, rfl, rfl⟩
  | some target =>
    by_cases hInside : target ≤ size
    · rw [jumpTarget_eq_pure hTarget index hInside, pure_bind]
      exact hNext target hInside
    · have hBehind : size < target := Nat.not_le.mp hInside
      simp only [Machine.jumpTarget, hTarget, Machine.operand, pure_bind, hBehind, if_true]
      intro s hs
      exact ⟨hs, hJump, hTarget, hBehind, rfl⟩

theorem printNumber [Sink π] (value : Float) :
    Contained i index size (printNumber value : Action π Unit) :=
  (io _).bind fun _ => io _

theorem inputNumber [Intake π] [Sink π] (name : String) :
    Contained i index size (inputNumber name : Action π Unit) := by
  refine (io _).bind fun _ => (io _).bind fun _ => (io _).bind fun _ => (io _).bind fun word => ?_
  cases word with
  | none => exact throw trivial
  | some text =>
    cases h : Number.read? text with
    | none =>
      simp only [h]
      exact throw trivial
    | some value =>
      simp only [h]
      exact store name value

end Contained

theorem io_bind (act : EStateM String π α) (next : α → EStateM String π β) :
    (io act >>= fun a => io (next a)) = io (act >>= next) := by
  funext s
  simp only [io, bind, EStateM.bind]
  cases act s.port <;> rfl

/-- What is done with the word that answers the question for a variable. -/
def accept (name : String) : Option String → Action π Unit
  | none => throw (.inputExhausted name)
  | some text =>
    match Number.read? text with
    | none => throw (.invalidInput name text)
    | some value => store name value

variable [Intake π] [Sink π]

theorem contained_exec (i : Instr) (index size : Nat) :
    Contained i index size (exec i index size : Action π Unit) := by
  obtain ⟨op, name, value, target⟩ := i
  cases op with
  | pushConst => exact (Contained.operand _).bind Contained.push
  | loadVar => exact (Contained.operand _).bind Contained.load
  | storeVar =>
    exact (Contained.operand _).bind fun name => Contained.pop.bind (Contained.store name)
  | pop => exact Contained.pop.bind fun _ => Contained.pure ()
  | print => exact Contained.pop.bind Contained.printNumber
  | input => exact (Contained.operand _).bind Contained.inputNumber
  | jump => exact Contained.jumpTarget rfl fun target h => Contained.goto h
  | jumpIfFalse =>
    refine Contained.jumpTarget rfl fun target h => Contained.pop.bind fun value => ?_
    cases value == zero
    · exact Contained.pure ()
    · exact Contained.goto h
  | _ => exact Contained.binary _

/-- The question for a variable, and the word that answers it. -/
def ask (name : String) : EStateM String π (Option String) := do
  Sink.write name
  Sink.write " = "
  Sink.flush
  Intake.readWord

/-- The number that answers the question for a variable. -/
def answer? (name : String) (port : π) : Option Float :=
  match ask name port with
  | .ok (some text) _ => Number.read? text
  | _ => none

/-- The name and the value that an instruction writes when it completes in a state. -/
def write? (i : Instr) (s : State π) : Option (String × Float) :=
  match i.op, i.name with
  | .storeVar, some name => s.stack.head?.map (name, ·)
  | .input, some name => (answer? name s.port).map (name, ·)
  | _, _ => none

theorem inputNumber_eq (name : String) :
    (inputNumber name : Action π Unit) = io (ask name) >>= accept name := by
  simp only [inputNumber, ask, ← io_bind, bind_assoc]
  rfl

theorem vars_of_inputNumber {name : String} {s s' : State π}
    (h : inputNumber name s = .ok () s') :
    ∃ value, answer? name s.port = some value ∧ s'.vars = s.vars.set name value := by
  rw [inputNumber_eq] at h
  obtain ⟨word, middle, hAsk, hStore⟩ := exists_of_bind_eq_ok h
  rw [io] at hAsk
  cases hPort : ask name s.port with
  | error message port =>
    rw [hPort] at hAsk
    cases hAsk
  | ok word port =>
    rw [hPort] at hAsk
    cases hAsk
    cases word with
    | none => cases hStore
    | some text =>
      cases hRead : Number.read? text with
      | none =>
        simp only [accept, hRead] at hStore
        cases hStore
      | some value =>
        simp only [accept, hRead] at hStore
        cases hStore
        exact ⟨value, by simp only [answer?, hPort, hRead], rfl⟩

/-- A completed instruction writes its variable, if it is one that writes. -/
theorem vars_of_exec {i : Instr} {index size : Nat} {s s' : State π}
    (h : exec i index size s = .ok () s') :
    (write? i s).map Prod.fst = i.written? ∧ s'.vars = s.vars.update (write? i s).toList := by
  obtain ⟨op, name, value, target⟩ := i
  have hWrites := writes_exec ⟨op, name, value, target⟩ index size s
  rw [h] at hWrites
  cases op with
  | storeVar =>
    obtain ⟨⟨pc, stack, vars⟩, port⟩ := s
    cases name <;> cases stack <;> cases h
    exact ⟨rfl, rfl⟩
  | input =>
    cases name with
    | none => cases h
    | some name =>
      have hInput : inputNumber name s = .ok () s' := h
      obtain ⟨value, hAnswer, hVars⟩ := vars_of_inputNumber hInput
      simp only [write?, hAnswer]
      exact ⟨rfl, hVars⟩
  | _ => exact ⟨rfl, hWrites⟩

/-! ### Runs -/

/-- The instructions that are completed in the first `fuel` steps of a run, in order, each with the
state that it begins in. -/
def completed (code : Code) : (fuel : Nat) → State π → List (Instr × State π)
  | 0, _ => []
  | fuel + 1, s =>
    match code.instrs[s.pc]?, step code s with
    | some i, .next after => (i, s) :: completed code fuel after
    | _, _ => []

/-- What the completed instructions write, in order. -/
def writes (code : Code) (fuel : Nat) (s : State π) : List (String × Float) :=
  (completed code fuel s).filterMap fun x => write? x.1 x.2

variable {code : Code} {s s' : State π}

theorem completed_next (h : step code s = .next s') (fuel : Nat) :
    ∃ i, completed code (fuel + 1) s = (i, s) :: completed code fuel s' ∧
      (write? i s).map Prod.fst = i.written? ∧ s'.vars = s.vars.update (write? i s).toList := by
  obtain ⟨i, hAt, hExec⟩ := exists_exec_of_next h
  have hWrite := vars_of_exec hExec
  exact ⟨i, by simp only [completed, hAt, h], hWrite⟩

theorem completed_halt {halt : Halt π} (h : step code s = .halt halt) (fuel : Nat) :
    completed code (fuel + 1) s = [] := by
  simp only [completed, h]
  cases code.instrs[s.pc]? <;> rfl

theorem pc_le_of_next (h : step code s = .next s') : s'.pc ≤ code.size := by
  obtain ⟨i, hAt, hExec⟩ := exists_exec_of_next h
  -- There is an instruction at the index, so the one behind it is at most the size.
  have hInside : s.pc < code.size := (Array.getElem?_eq_some_iff.mp hAt).1
  have hContained := contained_exec i s.pc code.size { s with pc := s.pc + 1 } hInside
  rw [hExec] at hContained
  exact hContained

theorem located_of_halt (hs : s.pc ≤ code.size) {halt : Halt π} (h : step code s = .halt halt) :
    halt.state.pc ≤ code.size ∧ ∀ e, halt.result = .error e → e.LocatedIn code := by
  rcases halt_cases h with ⟨-, rfl⟩ | ⟨i, e, hAt, hResult, hExec⟩
  · rw [Halt.of, io]
    cases Sink.flush s.port with
    | ok _ port =>
      refine ⟨hs, fun e he => ?_⟩
      cases he
    | error message port =>
      refine ⟨hs, fun e he => ?_⟩
      cases he
      trivial
  · have hInside : s.pc < code.size := (Array.getElem?_eq_some_iff.mp hAt).1
    have hContained := contained_exec i s.pc code.size { s with pc := s.pc + 1 } hInside
    rw [hExec] at hContained
    refine ⟨hContained.1, fun e' he => ?_⟩
    rw [hResult] at he
    cases he
    exact hContained.2.locatedIn hAt

theorem pc_le_of_steps {n : Nat} (h : Steps code n s s') (hs : s.pc ≤ code.size) :
    s'.pc ≤ code.size := by
  induction h with
  | refl => exact hs
  | step first _ ih => exact ih (pc_le_of_next first)

/-- Every completed instruction that writes has something to write, and no other has. -/
theorem written_of_completed {fuel : Nat} {x : Instr × State π} (h : x ∈ completed code fuel s) :
    (write? x.1 x.2).map Prod.fst = x.1.written? := by
  induction fuel generalizing s with
  | zero => cases h
  | succ fuel ih =>
    cases hStep : step code s with
    | halt halt =>
      rw [completed_halt hStep] at h
      cases h
    | next after =>
      obtain ⟨i, hCompleted, hWritten, -⟩ := completed_next hStep fuel
      rw [hCompleted] at h
      rcases List.mem_cons.mp h with rfl | hMem
      · exact hWritten
      · exact ih hMem

/-- A step takes the first write over into the variables, so the variables with all writes to come
stay the same. -/
theorem update_writes_next (h : step code s = .next s') (fuel : Nat) :
    s.vars.update (writes code (fuel + 1) s) = s'.vars.update (writes code fuel s') := by
  obtain ⟨i, hCompleted, -, hVars⟩ := completed_next h fuel
  rw [writes, hCompleted, hVars, List.filterMap_cons]
  cases write? i s <;> rfl

theorem vars_of_steps {n : Nat} (h : Steps code n s s') :
    s'.vars = s.vars.update (writes code n s) := by
  induction h with
  | refl => rfl
  | step first _ ih => rw [ih, update_writes_next first]

theorem vars_of_run? {fuel : Nat} {halt : Halt π} (h : run? code fuel s = some halt) :
    halt.state.vars = s.vars.update (writes code fuel s) := by
  induction fuel generalizing s with
  | zero => cases h
  | succ fuel ih =>
    rw [run?] at h
    cases hStep : step code s with
    | next after =>
      rw [hStep] at h
      rw [ih h, update_writes_next hStep]
    | halt last =>
      rw [hStep] at h
      cases h
      rw [vars_of_halt hStep, writes, completed_halt hStep]
      rfl

/-- A name that no completed instruction writes is not among the writes. -/
theorem ne_of_mem_writes {fuel : Nat} {name : String}
    (h : ∀ x ∈ completed code fuel s, x.1.written? ≠ some name) :
    ∀ write ∈ writes code fuel s, write.1 ≠ name := by
  rintro write hMem rfl
  obtain ⟨x, hCompleted, hWrite⟩ := List.mem_filterMap.mp hMem
  have hWritten := written_of_completed hCompleted
  rw [hWrite] at hWritten
  exact h x hCompleted hWritten.symm

/-- Any code, run on any variables, input and output.  At every step the machine is inside the code
or behind it, and its variables are those at the start with what the completed instructions wrote.
However a run ends, this is so at its end as well: what failed wrote nothing, no variable is gone,
and one that no completed instruction writes is as it was.  An error about the code tells one of its
instructions. -/
theorem any_code_contained (code : Code) (m : Machine) (port : π) :
    (∀ n s, Steps code n (m.start port) s →
      s.pc ≤ code.size ∧ s.vars = m.vars.update (writes code n (m.start port))) ∧
    ∀ fuel halt, m.execute? code fuel port = some halt →
      halt.state.pc ≤ code.size ∧
      (∀ e, halt.result = .error e → e.LocatedIn code) ∧
      halt.state.vars = m.vars.update (writes code fuel (m.start port)) ∧
      (∀ x ∈ completed code fuel (m.start port),
        (write? x.1 x.2).map Prod.fst = x.1.written?) ∧
      (∀ name, m.vars.contains name = true → halt.state.vars.contains name = true) ∧
      ∀ name, (∀ x ∈ completed code fuel (m.start port), x.1.written? ≠ some name) →
        halt.state.vars.get? name = m.vars.get? name := by
  have hStart : (m.start port).pc ≤ code.size := Nat.zero_le _
  constructor
  · intro n s hSteps
    exact ⟨pc_le_of_steps hSteps hStart, vars_of_steps hSteps⟩
  · intro fuel halt hRun
    obtain ⟨n, last, hSteps, hHalt⟩ := exists_steps_of_run? hRun
    obtain ⟨hPc, hLocated⟩ := located_of_halt (pc_le_of_steps hSteps hStart) hHalt
    have hVars : halt.state.vars = m.vars.update (writes code fuel (m.start port)) :=
      vars_of_run? hRun
    refine ⟨hPc, hLocated, hVars, fun x => written_of_completed, ?_, ?_⟩
    · intro name hName
      rw [hVars]
      exact Store.contains_update hName _
    · intro name hUnwritten
      rw [hVars]
      exact Store.get?_update (ne_of_mem_writes hUnwritten) _

/-- Code that no program has: it stores a value and an answer, and then a value that is not
there. -/
def storesOnceMore : Code :=
  ⟨#[.pushConst one, .withName .storeVar "a", .withName .input "b", .withName .storeVar "c"]⟩

/-- A port with the answer zero. -/
def zeroAnswered : Channels Feed Tape := ⟨.ofBytes "0".toUTF8.data.toList, {}⟩

theorem any_code_contained_storesOnceMore :
    ∃ halt, execute? { vars := ⟨[("b", one), ("c", one)]⟩ } storesOnceMore 9 zeroAnswered =
        some halt ∧
      halt.result = .error (.stackUnderflow .storeVar 3) ∧
      (∃ i, storesOnceMore.instrs[3]? = some i ∧ i.op = .storeVar) ∧
      halt.state.vars = ⟨[("b", zero), ("c", one), ("a", one)]⟩ := by
  obtain ⟨halt, hRun, hResult⟩ : ∃ halt, execute? { vars := ⟨[("b", one), ("c", one)]⟩ }
      storesOnceMore 9 zeroAnswered = some halt ∧
        halt.result = .error (.stackUnderflow .storeVar 3) := ⟨_, rfl, rfl⟩
  obtain ⟨-, hLocated, hVars, -⟩ := (any_code_contained storesOnceMore
    { vars := ⟨[("b", one), ("c", one)]⟩ } zeroAnswered).2 9 halt hRun
  exact ⟨halt, hRun, hResult, hLocated _ hResult, hVars.trans (by decide +kernel)⟩

end Machine

end Abacus
