import Abacus.Machine.Basic

/-! Runs of the machine as sequences of steps: `Steps code n s s'` says that `n` steps lead from `s`
to `s'`.  A run that halts does so whatever fuel is left over, and a run that has not halted after
some fuel had not halted before. -/

namespace Abacus.Machine

theorem jumpTarget_eq_pure {π : Type} {i : Instr} {target size : Nat} (h : i.target = some target)
    (index : Nat) (hTarget : target ≤ size) :
    jumpTarget i index size = (pure target : Action π Nat) := by
  simp [jumpTarget, h, operand, Nat.not_lt.mpr hTarget]

variable {π : Type} [Intake π] [Sink π] {code : Code} {s s' s'' : State π} {i : Instr}

/-- The machine goes from one state to another in the given number of steps. -/
inductive Steps (code : Code) : Nat → State π → State π → Prop
  | refl (s : State π) : Steps code 0 s s
  | step {n : Nat} {s s' s'' : State π} (first : Machine.step code s = .next s')
      (rest : Steps code n s' s'') : Steps code (n + 1) s s''

theorem step_of_exec_ok (h : code.instrs[s.pc]? = some i)
    (hExec : exec i s.pc code.size { s with pc := s.pc + 1 } = .ok () s') :
    step code s = .next s' := by
  simp only [step, h, hExec]

theorem step_of_exec_error {e : RuntimeError} (h : code.instrs[s.pc]? = some i)
    (hExec : exec i s.pc code.size { s with pc := s.pc + 1 } = .error e s') :
    step code s = .halt ⟨.error e, s'⟩ := by
  simp only [step, h, hExec]

/-- A step that goes on does so behind an instruction. -/
theorem exists_exec_of_next (h : step code s = .next s') :
    ∃ i, code.instrs[s.pc]? = some i ∧
      exec i s.pc code.size { s with pc := s.pc + 1 } = .ok () s' := by
  rw [step] at h
  cases hInstr : code.instrs[s.pc]? with
  | none =>
    rw [hInstr] at h
    cases h
  | some i =>
    simp only [hInstr] at h
    refine ⟨i, rfl, ?_⟩
    cases hExec : exec i s.pc code.size { s with pc := s.pc + 1 } with
    | ok _ after =>
      rw [hExec] at h
      cases h
      rfl
    | error e after =>
      rw [hExec] at h
      cases h

/-- A run halts at the flush behind its code, or at an instruction that fails. -/
theorem halt_cases {halt : Halt π} (h : step code s = .halt halt) :
    (code.instrs[s.pc]? = none ∧ halt = Halt.of (io Sink.flush) s) ∨
      ∃ i e, code.instrs[s.pc]? = some i ∧ halt.result = .error e ∧
        exec i s.pc code.size { s with pc := s.pc + 1 } = .error e halt.state := by
  rw [step] at h
  cases hInstr : code.instrs[s.pc]? with
  | none =>
    simp only [hInstr] at h
    cases h
    exact .inl ⟨rfl, rfl⟩
  | some i =>
    simp only [hInstr] at h
    refine .inr ⟨i, ?_⟩
    cases hExec : exec i s.pc code.size { s with pc := s.pc + 1 } with
    | ok _ after =>
      rw [hExec] at h
      cases h
    | error e after =>
      rw [hExec] at h
      cases h
      exact ⟨e, rfl, rfl, rfl⟩

theorem run?_of_halt {h : Halt π} (hStep : step code s = .halt h) (fuel : Nat) :
    run? code (fuel + 1) s = some h := by
  simp only [run?, hStep]

namespace Steps

theorem one (h : Machine.step code s = .next s') : Steps code 1 s s' := .step h (.refl s')

theorem trans {n k : Nat} (h : Steps code n s s') (h' : Steps code k s' s'') :
    Steps code (n + k) s s'' := by
  induction h with
  | refl => rwa [Nat.zero_add]
  | step first rest ih =>
    rw [Nat.add_right_comm]
    exact .step first (ih h')

/-- A run goes on behind steps with the fuel that they leave. -/
theorem run?_add {n : Nat} (h : Steps code n s s') (fuel : Nat) :
    run? code (n + fuel) s = run? code fuel s' := by
  induction h with
  | refl => rw [Nat.zero_add]
  | step first rest ih =>
    rw [Nat.add_right_comm, run?, first]
    exact ih

end Steps

theorem run?_succ_of_some {fuel : Nat} {h : Halt π} (hRun : run? code fuel s = some h) :
    run? code (fuel + 1) s = some h := by
  induction fuel generalizing s with
  | zero => simp [run?] at hRun
  | succ fuel ih =>
    rw [run?] at hRun ⊢
    cases hStep : step code s with
    | next after =>
      simp only [hStep] at hRun ⊢
      exact ih hRun
    | halt h' => simpa only [hStep] using hRun

/-- More fuel does not change how a run halts. -/
theorem run?_mono {fuel more : Nat} {h : Halt π} (hRun : run? code fuel s = some h)
    (hLe : fuel ≤ more) : run? code more s = some h := by
  induction hLe with
  | refl => exact hRun
  | step _ ih => exact run?_succ_of_some ih

theorem run?_none_of_le {fuel less : Nat} (hRun : run? code fuel s = none) (hLe : less ≤ fuel) :
    run? code less s = none := by
  cases h : run? code less s with
  | none => rfl
  | some halt =>
    rw [run?_mono h hLe] at hRun
    cases hRun

/-- A run that halts takes steps up to the one that halts. -/
theorem exists_steps_of_run? {fuel : Nat} {h : Halt π} (hRun : run? code fuel s = some h) :
    ∃ n s', Steps code n s s' ∧ step code s' = .halt h := by
  induction fuel generalizing s with
  | zero => cases hRun
  | succ fuel ih =>
    rw [run?] at hRun
    cases hStep : step code s with
    | next after =>
      rw [hStep] at hRun
      obtain ⟨n, s', hSteps, hHalt⟩ := ih hRun
      exact ⟨n + 1, s', .step hStep hSteps, hHalt⟩
    | halt h' =>
      rw [hStep] at hRun
      cases hRun
      exact ⟨0, s, .refl s, hStep⟩

/-- A run halts in one way only. -/
theorem run?_unique {fuel fuel' : Nat} {h h' : Halt π} (hRun : run? code fuel s = some h)
    (hRun' : run? code fuel' s = some h') : h = h' := by
  have hMore := run?_mono hRun (Nat.le_max_left fuel fuel')
  rw [run?_mono hRun' (Nat.le_max_right fuel fuel')] at hMore
  exact (Option.some.inj hMore).symm

end Abacus.Machine
