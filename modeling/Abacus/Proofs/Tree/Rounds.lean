import Abacus.Proofs.Tree.Evaluation

/-! How the number of rounds bears on an evaluation: once they are enough, more of them change
nothing.  So of two programs one behind the other, the second is evaluated in what the first one
leaves, whatever rounds each of them takes. -/

namespace Abacus

namespace Eval

variable {π α β : Type}

/-- Where the one evaluation ends, the other one ends the same way. -/
def Extends (act act' : Eval π α) : Prop :=
  ∀ mem outcome, act.outcome? mem = some outcome → act'.outcome? mem = some outcome

namespace Extends

theorem refl (act : Eval π α) : act.Extends act := fun _ _ h => h

theorem bind {act act' : Eval π α} {next next' : α → Eval π β} (h : act.Extends act')
    (hNext : ∀ a, (next a).Extends (next' a)) : (act >>= next).Extends (act' >>= next') := by
  intro mem outcome hOutcome
  rw [outcome?_bind] at hOutcome ⊢
  cases hAct : act.outcome? mem with
  | none =>
    rw [hAct] at hOutcome
    cases hOutcome
  | some ended =>
    rw [h mem ended hAct]
    rw [hAct] at hOutcome
    obtain ⟨_ | a, after⟩ := ended
    · exact hOutcome
    · exact hNext a after outcome hOutcome

theorem repeatWhile {test : Expr} {body body' : Eval π Unit} (h : body.Extends body')
    {rounds more : Nat} (hLe : rounds ≤ more) :
    (repeatWhile test body rounds).Extends (repeatWhile test body' more) := by
  induction rounds generalizing more with
  | zero =>
    intro mem outcome hOutcome
    cases hOutcome
  | succ rounds ih =>
    obtain ⟨more, rfl⟩ := Nat.exists_eq_add_of_lt hLe
    refine (refl (valueOf test)).bind fun value => ?_
    cases isTrue value with
    | false => exact refl _
    | true => exact h.bind fun _ => ih (by omega)

end Extends

end Eval

section

variable {π : Type} [Intake π] [Sink π] {rounds more : Nat}

open Eval

mutual

/-- More rounds do not change how the evaluation of a statement ends. -/
theorem Stmt.eval_extends (hLe : rounds ≤ more) :
    (stmt : Stmt) → (stmt.eval (π := π) rounds).Extends (stmt.eval more)
  | .declare _ _ | .assign _ _ | .print _ | .input _ | .discard _ => by
    simp only [Stmt.eval]
    exact .refl _
  | .block body => by
    simp only [Stmt.eval]
    exact evalAll_extends hLe body
  | .ifThen test body => by
    simp only [Stmt.eval]
    refine (Extends.refl (valueOf test)).bind fun value => ?_
    cases isTrue value with
    | false => exact .refl _
    | true => exact body.eval_extends hLe
  | .ifElse test body otherwise => by
    simp only [Stmt.eval]
    refine (Extends.refl (valueOf test)).bind fun value => ?_
    cases isTrue value with
    | false => exact otherwise.eval_extends hLe
    | true => exact body.eval_extends hLe
  | .loop test body => by
    simp only [Stmt.eval]
    exact Extends.repeatWhile (body.eval_extends hLe) hLe

theorem evalAll_extends (hLe : rounds ≤ more) :
    (stmts : List Stmt) → (evalAll (π := π) rounds stmts).Extends (evalAll more stmts)
  | [] => by
    simp only [evalAll]
    exact .refl _
  | first :: rest => by
    simp only [evalAll]
    exact (first.eval_extends hLe).bind fun _ => evalAll_extends hLe rest

end

theorem evalAll_append (front back : List Stmt) :
    evalAll (π := π) rounds (front ++ back) = (do evalAll rounds front; evalAll rounds back) := by
  induction front with
  | nil => simp only [List.nil_append, evalAll, pure_bind]
  | cons first front ih => simp only [List.cons_append, evalAll, ih, bind_assoc]

namespace Program

theorem eval_extends (hLe : rounds ≤ more) (p : Program) :
    (p.eval (π := π) rounds).Extends (p.eval more) :=
  (evalAll_extends hLe p).bind fun _ => .refl _

theorem eval_append (p p' : Program) :
    Program.eval (π := π) rounds (p ++ p') = (do evalAll rounds p; p'.eval rounds) := by
  rw [Program.eval, evalAll_append, bind_assoc]
  rfl

/-- Behind a program that ends well, another one ends as it does alone in the memory that the first
one leaves. -/
theorem exists_eval_append_iff {p p' : Program} {mem middle : Memory π}
    {outcome : Except RuntimeError Unit × Memory π}
    (h : (evalAll rounds p).outcome? mem = some (.ok (), middle)) :
    (∃ k, (Program.eval k (p ++ p')).outcome? mem = some outcome) ↔
      ∃ k, (p'.eval k).outcome? middle = some outcome := by
  simp only [eval_append, outcome?_bind]
  constructor
  · rintro ⟨k, hBoth⟩
    cases hFirst : (evalAll k p).outcome? mem with
    | none =>
      rw [hFirst] at hBoth
      cases hBoth
    | some ended =>
      have hSame := evalAll_extends (Nat.le_max_left k rounds) p mem ended hFirst
      rw [evalAll_extends (Nat.le_max_right k rounds) p mem _ h] at hSame
      obtain rfl := Option.some.inj hSame
      rw [hFirst] at hBoth
      exact ⟨k, hBoth⟩
  · rintro ⟨k, hSecond⟩
    refine ⟨max k rounds, ?_⟩
    rw [evalAll_extends (Nat.le_max_right k rounds) p mem _ h]
    exact p'.eval_extends (Nat.le_max_left k rounds) middle outcome hSecond

end Program

end

end Abacus
