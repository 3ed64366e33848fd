import Abacus.Proofs.Code.Layout
import Abacus.Proofs.Tree.Grammar

/-! Where the operands of instructions come from.  In the code of a tree every instruction has the
operand that its operation takes, and no other.  A name is one that the tree is spelled with, and so
is a constant, except for the zero that a minus is a difference from. -/

namespace Abacus

/-- What an operation takes from its instruction. -/
inductive Operand where
  | nothing | value | name | target
deriving DecidableEq

def Opcode.operand : Opcode → Operand
  | pushConst => .value
  | loadVar | storeVar | input => .name
  | jump | jumpIfFalse => .target
  | _ => .nothing

theorem BinaryOp.operand_opcode (op : BinaryOp) : op.opcode.operand = .nothing := by
  cases op <;> rfl

/-- Instructions with operands among the marks. -/
inductive Instr.MadeOf (marks : List Mark) : Instr → Prop
  | zero : MadeOf marks (.pushConst (Number.ofMagnitude false 0))
  | constant {value : Float} (literal : .number value ∈ marks) : MadeOf marks (.pushConst value)
  | named {op : Opcode} {name : String} (takes : op.operand = .name) (used : .name name ∈ marks) :
      MadeOf marks (.withName op name)
  | jump {op : Opcode} (takes : op.operand = .target) (target : Nat) :
      MadeOf marks (.jumpTo op target)
  | bare {op : Opcode} (takes : op.operand = .nothing) : MadeOf marks (.simple op)

variable {marks : List Mark}

open Instr (MadeOf)

theorem subset_of_parenthesized {inner : List Mark} (h : parenthesized inner ⊆ marks) :
    inner ⊆ marks :=
  (List.append_subset.mp (List.cons_subset.mp h).2).1

theorem Expr.madeOf_instrs (e : Expr) (h : e.marks ⊆ marks) : ∀ i ∈ e.instrs, MadeOf marks i := by
  induction e with
  | literal value => exact List.forall_mem_singleton.mpr (.constant (h List.mem_cons_self))
  | var name => exact List.forall_mem_singleton.mpr (.named rfl (h List.mem_cons_self))
  | group inner ih => exact ih (subset_of_parenthesized h)
  | unary op operand ih =>
    have hOperand : operand.marks ⊆ marks := (List.cons_subset.mp h).2
    cases op with
    | neg =>
      refine List.forall_mem_cons.mpr ⟨.zero, List.forall_mem_append.mpr ⟨ih hOperand, ?_⟩⟩
      exact List.forall_mem_singleton.mpr (.bare rfl)
    | plus => exact ih hOperand
  | binary op left right ihLeft ihRight =>
    obtain ⟨hLeft, hBehind⟩ := List.append_subset.mp h
    have hRight : right.marks ⊆ marks := (List.cons_subset.mp hBehind).2
    refine List.forall_mem_append.mpr ⟨ihLeft hLeft, ?_⟩
    refine List.forall_mem_append.mpr ⟨ihRight hRight, ?_⟩
    exact List.forall_mem_singleton.mpr (.bare op.operand_opcode)

theorem madeOf_concat {e : Expr} {last : Instr} (h : e.marks ⊆ marks) (hLast : MadeOf marks last) :
    ∀ i ∈ e.instrs ++ [last], MadeOf marks i :=
  List.forall_mem_append.mpr ⟨e.madeOf_instrs h, List.forall_mem_singleton.mpr hLast⟩

mutual

theorem Stmt.madeOf_instrs (start : Nat) (s : Stmt) (h : s.marks ⊆ marks) :
    ∀ i ∈ s.instrs start, MadeOf marks i := by
  match s with
  | .declare _ _ => nofun
  | .assign name value =>
    simp only [Stmt.marks, List.cons_subset, List.append_subset] at h
    exact madeOf_concat h.2.2.1 (.named rfl h.1)
  | .print value =>
    simp only [Stmt.marks, List.cons_subset, List.append_subset] at h
    exact madeOf_concat h.2.1 (.bare rfl)
  | .input name =>
    simp only [Stmt.marks, List.cons_subset] at h
    exact List.forall_mem_singleton.mpr (.named rfl h.2.1)
  | .discard value =>
    simp only [Stmt.marks, List.append_subset] at h
    exact madeOf_concat h.1 (.bare rfl)
  | .block body =>
    simp only [Stmt.marks, List.cons_subset, List.append_subset] at h
    exact madeOf_instrsOfAll start body h.2.1
  | .ifThen test body =>
    simp only [Stmt.marks, List.cons_subset, List.append_subset] at h
    obtain ⟨-, hTest, hBody⟩ := h
    refine List.forall_mem_append.mpr ⟨test.madeOf_instrs (subset_of_parenthesized hTest), ?_⟩
    exact List.forall_mem_cons.mpr ⟨.jump rfl _, body.madeOf_instrs _ hBody⟩
  | .ifElse test body otherwise =>
    simp only [Stmt.marks, List.cons_subset, List.append_subset] at h
    obtain ⟨-, hTest, hBody, -, hOther⟩ := h
    refine List.forall_mem_append.mpr ⟨test.madeOf_instrs (subset_of_parenthesized hTest), ?_⟩
    refine List.forall_mem_cons.mpr ⟨.jump rfl _, ?_⟩
    refine List.forall_mem_append.mpr ⟨body.madeOf_instrs _ hBody, ?_⟩
    exact List.forall_mem_cons.mpr ⟨.jump rfl _, otherwise.madeOf_instrs _ hOther⟩
  | .loop test body =>
    simp only [Stmt.marks, List.cons_subset, List.append_subset] at h
    obtain ⟨-, hTest, hBody⟩ := h
    refine List.forall_mem_append.mpr ⟨test.madeOf_instrs (subset_of_parenthesized hTest), ?_⟩
    refine List.forall_mem_cons.mpr ⟨.jump rfl _, ?_⟩
    refine List.forall_mem_append.mpr ⟨body.madeOf_instrs _ hBody, ?_⟩
    exact List.forall_mem_singleton.mpr (.jump rfl _)

theorem madeOf_instrsOfAll (start : Nat) (body : List Stmt) (h : marksOfAll body ⊆ marks) :
    ∀ i ∈ instrsOfAll start body, MadeOf marks i := by
  match body with
  | [] => nofun
  | first :: rest =>
    simp only [marksOfAll, List.append_subset] at h
    exact List.forall_mem_append.mpr
      ⟨first.madeOf_instrs start h.1, madeOf_instrsOfAll _ rest h.2⟩

end

/-- The code of a program is made of what the program is spelled with. -/
theorem Program.madeOf_assembled (p : Program) : ∀ i ∈ p.assembled.instrs, MadeOf p.marks i := by
  intro i hMem
  exact madeOf_instrsOfAll 0 p (List.Subset.refl _) i (Array.mem_toList_iff.mpr hMem)

end Abacus
