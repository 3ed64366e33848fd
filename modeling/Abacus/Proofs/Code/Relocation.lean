import Abacus.Proofs.Code.Layout

/-! Code that can be moved.  Where the code of a statement begins shows in the targets of its jumps
and nowhere else, and a target moves as far as the code does.  So emission puts the same code behind
whatever is there, and the code of two programs in a row is made up of the code of each. -/

namespace Abacus

namespace Instr

/-- The instruction in code that begins `distance` further on: a jump goes that much further, and
any other instruction stays as it is. -/
def moved (distance : Nat) (i : Instr) : Instr :=
  if i.op.isJump then { i with target := i.target.map (· + distance) } else i

theorem moved_of_isJump_eq_false {i : Instr} (h : i.op.isJump = false) (distance : Nat) :
    i.moved distance = i := by
  simp [moved, h]

end Instr

theorem Expr.map_moved_instrs (e : Expr) (distance : Nat) :
    e.instrs.map (Instr.moved distance) = e.instrs := by
  have h : ∀ i ∈ e.instrs, Instr.moved distance i = i := by
    intro i hi
    exact Instr.moved_of_isJump_eq_false (isJump_of_mem_instrs hi) distance
  rw [List.map_congr_left h, List.map_id']

theorem Expr.map_moved_concat (e : Expr) {i : Instr} (h : i.op.isJump = false) (distance : Nat) :
    (e.instrs ++ [i]).map (Instr.moved distance) = e.instrs ++ [i] := by
  rw [List.map_append, e.map_moved_instrs, List.map_singleton,
    Instr.moved_of_isJump_eq_false h]

mutual

/-- The code of a statement that begins further on. -/
theorem Stmt.instrs_add (start distance : Nat) : (stmt : Stmt) →
    stmt.instrs (start + distance) = (stmt.instrs start).map (Instr.moved distance)
  | .declare _ _ => rfl
  | .assign _ value | .print value | .discard value => (value.map_moved_concat rfl distance).symm
  | .input _ => rfl
  | .block body => instrsOfAll_add start distance body
  | .ifThen test body => by
    simp only [Stmt.instrs, Nat.add_right_comm _ distance, Stmt.instrs_add _ distance body,
      List.length_map, List.map_append, List.map_cons, test.map_moved_instrs]
    rfl
  | .ifElse test body otherwise => by
    simp only [Stmt.instrs, Nat.add_right_comm _ distance, Stmt.instrs_add _ distance body,
      List.length_map, Stmt.instrs_add _ distance otherwise, List.map_append, List.map_cons,
      test.map_moved_instrs]
    rfl
  | .loop test body => by
    simp only [Stmt.instrs, Nat.add_right_comm _ distance, Stmt.instrs_add _ distance body,
      List.length_map, List.map_append, List.map_cons, List.map_nil, test.map_moved_instrs]
    rfl

theorem instrsOfAll_add (start distance : Nat) : (stmts : List Stmt) →
    instrsOfAll (start + distance) stmts = (instrsOfAll start stmts).map (Instr.moved distance)
  | [] => rfl
  | first :: rest => by
    rw [instrsOfAll, instrsOfAll, first.instrs_add start distance, List.length_map,
      Nat.add_right_comm, instrsOfAll_add _ distance rest, List.map_append]

end

theorem instrsOfAll_append (start : Nat) (p q : List Stmt) :
    instrsOfAll start (p ++ q) =
      instrsOfAll start p ++ instrsOfAll (start + (instrsOfAll start p).length) q := by
  induction p generalizing start with
  | nil => rfl
  | cons first rest ih =>
    rw [List.cons_append, instrsOfAll, instrsOfAll, ih, List.length_append, List.append_assoc,
      Nat.add_assoc]

theorem Code.toList_emitStmt_empty (stmt : Stmt) :
    (emitStmt {} stmt).toList = stmt.instrs 0 := by
  rw [toList_emitStmt, toList_empty, size_empty, List.nil_append]

/-- The code of two programs in a row is the code of the first, and behind it the code of the second
with its jumps moved.  In the same way the code of a statement is put behind any code that is there,
which stays as it is. -/
theorem code_moved_behind :
    (∀ p q : Program, ∃ front back both : Code,
      p.code = .ok front ∧ q.code = .ok back ∧ Program.code (p ++ q) = .ok both ∧
        both.toList = front.toList ++ back.toList.map (Instr.moved front.size)) ∧
      ∀ (code : Code) (stmt : Stmt), (code.emitStmt stmt).toList =
        code.toList ++ (Code.emitStmt {} stmt).toList.map (Instr.moved code.size) := by
  constructor
  · intro p q
    refine ⟨p.assembled, q.assembled, Program.assembled (p ++ q), p.code_eq_assembled,
      q.code_eq_assembled, Program.code_eq_assembled _, ?_⟩
    rw [Program.toList_assembled, Program.toList_assembled, Program.toList_assembled,
      instrsOfAll_append, Nat.zero_add, ← Code.length_toList, Program.toList_assembled,
      ← instrsOfAll_add, Nat.zero_add]
  · intro code stmt
    rw [Code.toList_emitStmt, Code.toList_emitStmt_empty, ← stmt.instrs_add, Nat.zero_add]

end Abacus
