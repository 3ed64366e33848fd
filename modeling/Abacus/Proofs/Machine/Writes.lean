import Abacus.Proofs.Machine.Runs

/-! What runs do to the variables.  An instruction that completes writes at most the variable that
it names, and one that fails writes none.  So a run, however it ends, leaves every variable as it
was that no instruction of its code writes. -/

namespace Abacus

/-- The variable that an instruction writes when it completes. -/
def Instr.written? (i : Instr) : Option String :=
  match i.op with
  | .storeVar | .input => i.name
  | _ => none

namespace Machine

variable {π α β : Type}

/-- What becomes of the variables where a value is put under a name, or none. -/
def Written (name? : Option String) (before after : Store Float) : Prop :=
  match name? with
  | none => after = before
  | some name => ∃ value, after = before.set name value

/-- An action that writes the given variable when it completes, and none when it fails. -/
def Writes (name? : Option String) (act : Action π α) : Prop :=
  ∀ s, match act s with
    | .ok _ after => Written name? s.vars after.vars
    | .error _ after => after.vars = s.vars

namespace Writes

variable {name? : Option String}

theorem pure (a : α) : Writes none (pure a : Action π α) := fun _ => rfl

theorem throw (e : RuntimeError) : Writes name? (throw e : Action π α) := fun _ => rfl

theorem push (value : Float) : Writes none (push value : Action π Unit) := fun _ => rfl

theorem goto (target : Nat) : Writes none (goto target : Action π Unit) := fun _ => rfl

theorem store (name : String) (value : Float) :
    Writes (some name) (store name value : Action π Unit) := fun _ => ⟨value, rfl⟩

theorem pop (op : Opcode) (index : Nat) : Writes none (pop op index : Action π Float) := by
  rintro ⟨⟨pc, stack, vars⟩, port⟩
  cases stack with
  | nil => exact rfl
  | cons value rest => exact rfl

theorem io (act : EStateM String π α) : Writes none (Machine.io act) := by
  intro s
  rw [Machine.io]
  cases act s.port with
  | ok a port => exact rfl
  | error message port => exact rfl

theorem bind {act : Action π α} {next : α → Action π β} (hAct : Writes none act)
    (hNext : ∀ a, Writes name? (next a)) : Writes name? (act >>= next) := by
  intro s
  have h := hAct s
  simp only [Bind.bind, EStateM.bind]
  cases hFirst : act s with
  | error e after =>
    rw [hFirst] at h
    exact h
  | ok a middle =>
    rw [hFirst] at h
    have hVars : middle.vars = s.vars := h
    have h' := hNext a middle
    rw [hVars] at h'
    exact h'

theorem operand (op : Opcode) (index : Nat) :
    (value : Option α) → Writes none (operand op index value : Action π α)
  | some a => .pure a
  | none => .throw _

theorem binary (op : Opcode) (index : Nat) (f : Float → Float → Float) :
    Writes none (binary op index f : Action π Unit) :=
  (pop op index).bind fun _ => (pop op index).bind fun _ => push _

theorem jumpTarget (i : Instr) (index size : Nat) :
    Writes none (jumpTarget i index size : Action π Nat) := by
  refine (operand _ _ _).bind fun target => ?_
  by_cases h : size < target
  · simp only [h, if_true]
    exact (throw _).bind fun _ => pure target
  · simp only [h, if_false]
    exact pure target

theorem load (name : String) :
    Writes none (do Machine.push (((← get).vars.get? name).getD zero) : Action π Unit) :=
  fun _ => rfl

theorem printNumber [Sink π] (value : Float) : Writes none (printNumber (π := π) value) :=
  (io _).bind fun _ => io _

theorem inputNumber [Intake π] [Sink π] (name : String) :
    Writes (some name) (inputNumber (π := π) name) := by
  refine (io _).bind fun _ => (io _).bind fun _ => (io _).bind fun _ => (io _).bind fun word => ?_
  cases word with
  | none => exact throw _
  | some text =>
    cases h : Number.read? text with
    | none =>
      simp only [h]
      exact throw _
    | some value =>
      simp only [h]
      exact store name value

end Writes

variable [Intake π] [Sink π] {code : Code} {s s' : State π}

/-- An instruction writes the variable that it names, if it is one that writes. -/
theorem writes_exec (i : Instr) (index size : Nat) :
    Writes i.written? (exec i index size : Action π Unit) := by
  obtain ⟨op, name, value, target⟩ := i
  cases op with
  | pushConst => exact (Writes.operand _ _ _).bind Writes.push
  | loadVar => exact (Writes.operand _ _ _).bind Writes.load
  | storeVar =>
    cases name with
    | none => exact Writes.throw _
    | some name => exact (Writes.pop _ _).bind (Writes.store name)
  | pop => exact (Writes.pop _ _).bind fun _ => Writes.pure ()
  | print => exact (Writes.pop _ _).bind Writes.printNumber
  | input =>
    cases name with
    | none => exact Writes.throw _
    | some name => exact Writes.inputNumber name
  | jump => exact (Writes.jumpTarget _ _ _).bind Writes.goto
  | jumpIfFalse =>
    refine (Writes.jumpTarget _ _ _).bind fun target => (Writes.pop _ _).bind fun value => ?_
    cases value == zero
    · exact Writes.pure ()
    · exact Writes.goto target
  | _ => exact Writes.binary _ _ _

theorem written_of_step (h : step code s = .next s') :
    ∃ i, code.instrs[s.pc]? = some i ∧ Written i.written? s.vars s'.vars := by
  obtain ⟨i, hInstr, hExec⟩ := exists_exec_of_next h
  have hWrites := writes_exec i s.pc code.size { s with pc := s.pc + 1 }
  rw [hExec] at hWrites
  exact ⟨i, hInstr, hWrites⟩

/-- The last step of a run writes nothing, whether it flushes or fails. -/
theorem vars_of_halt {halt : Halt π} (h : step code s = .halt halt) :
    halt.state.vars = s.vars := by
  rcases halt_cases h with ⟨-, rfl⟩ | ⟨i, e, -, -, hExec⟩
  · have hFlush := Writes.io (Sink.flush (σ := π)) s
    rw [Halt.of]
    cases hResult : io Sink.flush s with
    | ok _ after =>
      rw [hResult] at hFlush
      exact hFlush
    | error e after =>
      rw [hResult] at hFlush
      exact hFlush
  · have hWrites := writes_exec i s.pc code.size { s with pc := s.pc + 1 }
    rw [hExec] at hWrites
    exact hWrites

/-- Steps write only what some instruction writes. -/
theorem contains_of_steps {n : Nat} (h : Steps code n s s') {name : String}
    (hName : s'.vars.contains name = true) :
    s.vars.contains name = true ∨ ∃ i ∈ code.instrs, i.written? = some name := by
  induction h with
  | refl => exact .inl hName
  | @step n s middle s' first _ ih =>
    obtain ⟨i, hInstr, hWritten⟩ := written_of_step first
    rcases ih hName with hMiddle | hCode
    · cases hTarget : i.written? with
      | none =>
        rw [hTarget] at hWritten
        rw [show middle.vars = s.vars from hWritten] at hMiddle
        exact .inl hMiddle
      | some other =>
        rw [hTarget] at hWritten
        obtain ⟨value, hVars⟩ := hWritten
        by_cases hSame : name = other
        · subst hSame
          exact .inr ⟨i, Array.mem_of_getElem? hInstr, hTarget⟩
        · rw [hVars, Store.contains, Store.get?_set_ne _ _ hSame] at hMiddle
          exact .inl hMiddle
    · exact .inr hCode

/-- A run has only the variables that were there and those that its code writes, however it ends. -/
theorem contains_of_execute? {m : Machine} {fuel : Nat} {port : π} {halt : Halt π}
    (h : m.execute? code fuel port = some halt) {name : String}
    (hName : halt.state.vars.contains name = true) :
    m.vars.contains name = true ∨ ∃ i ∈ code.instrs, i.written? = some name := by
  obtain ⟨n, last, hSteps, hHalt⟩ := exists_steps_of_run? h
  rw [vars_of_halt hHalt] at hName
  exact contains_of_steps hSteps hName

end Machine

end Abacus
