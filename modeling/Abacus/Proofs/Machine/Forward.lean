import Abacus.Proofs.Code.Jumps
import Abacus.Proofs.Machine.StackDepth

/-! Code whose jumps all go forward, as in the code of a program without loops.  Each step of a run
of such code leads to a higher index, so no instruction is executed twice, and the run halts after
at most one step for each instruction and one for the flush behind them. -/

namespace Abacus

namespace Machine

variable {π α β : Type} {s s' : State π}

theorem Neutral.pc_eq {act : Action π α} (h : Neutral act) {a : α} (hAct : act s = .ok a s') :
    s'.pc = s.pc := by
  have hNeutral := h s
  rw [hAct] at hNeutral
  exact hNeutral.1

theorem exists_of_bind_eq_ok {act : Action π α} {next : α → Action π β} {b : β}
    (h : (act >>= next) s = .ok b s') :
    ∃ a middle, act s = .ok a middle ∧ next a middle = .ok b s' := by
  simp only [bind, EStateM.bind] at h
  cases hAct : act s with
  | ok a middle =>
    rw [hAct] at h
    exact ⟨a, middle, rfl, h⟩
  | error e middle =>
    rw [hAct] at h
    cases h

variable [Intake π] [Sink π] {code : Code}

/-- The indices of the instructions that a run executes in its first `fuel` steps, in order.  An
instruction that fails counts as executed. -/
def executed (code : Code) : (fuel : Nat) → State π → List Nat
  | 0, _ => []
  | fuel + 1, s =>
    if s.pc < code.size then
      match step code s with
      | .next after => s.pc :: executed code fuel after
      | .halt _ => [s.pc]
    else []

end Machine

end Abacus
