import Abacus.Code.Emit

/-! The code of a tree as a list of its own: `Expr.instrs`, and `Stmt.instrs` for a statement whose
code begins at a given index.  Emission appends exactly this list to the code that is there, with
every jump closed, so emission of a program never fails. -/

namespace Abacus

/-- The instructions of an expression. -/
def Expr.instrs : Expr → List Instr
  | .literal value => [.pushConst value]
  | .var name => [.withName .loadVar name]
  | .group inner => inner.instrs
  | .unary .neg operand =>
    .pushConst (Number.ofMagnitude false 0) :: (operand.instrs ++ [.simple .sub])
  | .unary .plus operand => operand.instrs
  | .binary op left right => left.instrs ++ (right.instrs ++ [.simple op.opcode])

mutual

/-- The instructions of a statement whose code begins at index `start`. -/
def Stmt.instrs (start : Nat) : Stmt → List Instr
  | .declare _ _ => []
  | .assign name value => value.instrs ++ [.withName .storeVar name]
  | .print value => value.instrs ++ [.simple .print]
  | .input name => [.withName .input name]
  | .discard value => value.instrs ++ [.simple .pop]
  | .block body => instrsOfAll start body
  | .ifThen test body =>
    let first := start + test.instrs.length + 1
    let bodyInstrs := body.instrs first
    test.instrs ++ .jumpTo .jumpIfFalse (first + bodyInstrs.length) :: bodyInstrs
  | .ifElse test body otherwise =>
    let first := start + test.instrs.length + 1
    let bodyInstrs := body.instrs first
    let second := first + bodyInstrs.length + 1
    let otherInstrs := otherwise.instrs second
    test.instrs ++ .jumpTo .jumpIfFalse second ::
      (bodyInstrs ++ .jumpTo .jump (second + otherInstrs.length) :: otherInstrs)
  | .loop test body =>
    let first := start + test.instrs.length + 1
    let bodyInstrs := body.instrs first
    test.instrs ++ .jumpTo .jumpIfFalse (first + bodyInstrs.length + 1) ::
      (bodyInstrs ++ [.jumpTo .jump start])

/-- The instructions of statements, one after the other, that begin at index `start`. -/
def instrsOfAll (start : Nat) : List Stmt → List Instr
  | [] => []
  | first :: rest => first.instrs start ++ instrsOfAll (start + (first.instrs start).length) rest

end

namespace Stmt

/-! The index behind the code of a statement with jumps. -/

theorem end_ifThen (start : Nat) (test : Expr) (body : Stmt) :
    start + ((ifThen test body).instrs start).length =
      start + test.instrs.length + 1 + (body.instrs (start + test.instrs.length + 1)).length := by
  simp only [instrs, List.length_append, List.length_cons]
  omega

theorem end_ifElse (start : Nat) (test : Expr) (body otherwise : Stmt) :
    start + ((ifElse test body otherwise).instrs start).length =
      start + test.instrs.length + 1 + (body.instrs (start + test.instrs.length + 1)).length + 1 +
        (otherwise.instrs (start + test.instrs.length + 1 +
          (body.instrs (start + test.instrs.length + 1)).length + 1)).length := by
  simp only [instrs, List.length_append, List.length_cons]
  omega

theorem end_loop (start : Nat) (test : Expr) (body : Stmt) :
    start + ((loop test body).instrs start).length =
      start + test.instrs.length + 1 + (body.instrs (start + test.instrs.length + 1)).length +
        1 := by
  simp only [instrs, List.length_append, List.length_cons, List.length_nil]
  omega

end Stmt

namespace Code

/-- The instructions of code as a list. -/
def toList (code : Code) : List Instr := code.instrs.toList

@[simp] theorem length_toList (code : Code) : code.toList.length = code.size := rfl

@[simp] theorem toList_empty : (∅ : Code).toList = [] := rfl

@[simp] theorem size_empty : (∅ : Code).size = 0 := rfl

@[simp] theorem toList_emit (code : Code) (i : Instr) :
    (code.emit i).toList = code.toList ++ [i] := by
  simp [toList, emit]

@[simp] theorem size_emit (code : Code) (i : Instr) : (code.emit i).size = code.size + 1 := by
  simp [size, emit]

theorem getElem?_toList (code : Code) (index : Nat) :
    code.toList[index]? = code.instrs[index]? := by
  simp [toList]

/-- Closing an open jump gives it the end of the code as its target and changes nothing else. -/
theorem toList_closeHere {code : Code} {before after : List Instr} {op : Opcode} {index : Nat}
    (h : code.toList = before ++ .simple op :: after) (hIndex : before.length = index)
    (hJump : op.isJump = true) :
    (code.closeHere index).toList = before ++ .jumpTo op (index + 1 + after.length) :: after := by
  subst hIndex
  have hSize : code.size = before.length + 1 + after.length := by
    rw [← length_toList code, h, List.length_append, List.length_cons]
    omega
  have hAt : code.instrs[before.length]? = some (.simple op) := by
    rw [← getElem?_toList, h]
    simp
  simp only [closeHere, patch?, hAt, Instr.simple, hJump, if_true, Option.getD_some]
  rw [toList, Array.toList_setIfInBounds, ← toList, h, hSize]
  simp [Instr.jumpTo, Instr.simple]

/-- Emission of an expression appends its instructions. -/
theorem toList_emitExpr (code : Code) (e : Expr) :
    (code.emitExpr e).toList = code.toList ++ e.instrs := by
  induction e generalizing code with
  | literal value => simp [emitExpr, Expr.instrs]
  | var name => simp [emitExpr, Expr.instrs]
  | group inner ih => simp [emitExpr, Expr.instrs, ih]
  | unary op operand ih => cases op <;> simp [emitExpr, Expr.instrs, ih]
  | binary op left right ihLeft ihRight => simp [emitExpr, Expr.instrs, ihLeft, ihRight]

theorem size_emitExpr (code : Code) (e : Expr) :
    (code.emitExpr e).size = code.size + e.instrs.length := by
  rw [← length_toList, toList_emitExpr]
  simp

mutual

/-- Emission of a statement appends its instructions. -/
theorem toList_emitStmt (code : Code) :
    (stmt : Stmt) → (code.emitStmt stmt).toList = code.toList ++ stmt.instrs code.size
  | .declare _ _ => by simp [emitStmt, Stmt.instrs]
  | .assign _ _ => by simp [emitStmt, Stmt.instrs, toList_emitExpr]
  | .print _ => by simp [emitStmt, Stmt.instrs, toList_emitExpr]
  | .input _ => by simp [emitStmt, Stmt.instrs]
  | .discard _ => by simp [emitStmt, Stmt.instrs, toList_emitExpr]
  | .block body => by simp only [emitStmt, Stmt.instrs, toList_emitAll code body]
  | .ifThen test body => by
    have hBody := toList_emitStmt ((code.emitExpr test).emit (.simple .jumpIfFalse)) body
    rw [toList_emit, size_emit, List.append_assoc, List.singleton_append] at hBody
    simp only [emitStmt, Stmt.instrs]
    rw [toList_closeHere hBody (length_toList _) rfl, toList_emitExpr, size_emitExpr,
      List.append_assoc]
  | .ifElse test body otherwise => by
    have hBody := toList_emitStmt ((code.emitExpr test).emit (.simple .jumpIfFalse)) body
    rw [toList_emit, size_emit, List.append_assoc, List.singleton_append] at hBody
    simp only [emitStmt, Stmt.instrs]
    generalize emitStmt ((code.emitExpr test).emit (.simple .jumpIfFalse)) body = done at hBody ⊢
    -- The jump over the other branch is there when the first jump is closed.
    have hDone : (done.emit (.simple .jump)).toList = (code.emitExpr test).toList ++
        .simple .jumpIfFalse :: (body.instrs ((code.emitExpr test).size + 1) ++
          [.simple .jump]) := by
      rw [toList_emit, hBody]
      simp
    have hTurned := toList_closeHere hDone (length_toList _) rfl
    have hOther := toList_emitStmt
      ((done.emit (.simple .jump)).closeHere (code.emitExpr test).size) otherwise
    generalize (done.emit (.simple .jump)).closeHere (code.emitExpr test).size = turned
      at hTurned hOther ⊢
    have hSize : done.size = (code.emitExpr test).size + 1 +
        (body.instrs ((code.emitExpr test).size + 1)).length := by
      rw [← length_toList done, hBody, List.length_append, length_toList, List.length_cons]
      omega
    have hTurnedSize : turned.size = done.size + 1 := by
      rw [← length_toList turned, hTurned, hSize, List.length_append, length_toList,
        List.length_cons, List.length_append, List.length_singleton]
      omega
    rw [hTurned, hTurnedSize, List.length_append, List.length_singleton] at hOther
    have hAll : (turned.emitStmt otherwise).toList = ((code.emitExpr test).toList ++
        .jumpTo .jumpIfFalse (done.size + 1) :: body.instrs ((code.emitExpr test).size + 1)) ++
          .simple .jump :: otherwise.instrs (done.size + 1) := by
      rw [hOther, hSize, ← Nat.add_assoc]
      simp
    rw [toList_closeHere hAll (by rw [hSize, List.length_append, length_toList, List.length_cons]
                                  omega) rfl, hSize, toList_emitExpr, size_emitExpr]
    simp
  | .loop test body => by
    have hBody := toList_emitStmt ((code.emitExpr test).emit (.simple .jumpIfFalse)) body
    rw [toList_emit, size_emit, List.append_assoc, List.singleton_append] at hBody
    have hDone : ((emitStmt ((code.emitExpr test).emit (.simple .jumpIfFalse)) body).emit
        (.jumpTo .jump code.size)).toList = (code.emitExpr test).toList ++
          .simple .jumpIfFalse :: (body.instrs ((code.emitExpr test).size + 1) ++
            [.jumpTo .jump code.size]) := by
      rw [toList_emit, hBody]
      simp
    simp only [emitStmt, Stmt.instrs]
    rw [toList_closeHere hDone (length_toList _) rfl, toList_emitExpr, size_emitExpr,
      List.length_append, List.append_assoc, List.length_singleton, ← Nat.add_assoc]

/-- Emission of statements appends their instructions. -/
theorem toList_emitAll (code : Code) :
    (stmts : List Stmt) → (emitAll code stmts).toList = code.toList ++ instrsOfAll code.size stmts
  | [] => by simp [emitAll, instrsOfAll]
  | first :: rest => by
    have hFirst := toList_emitStmt code first
    have hSize : (code.emitStmt first).size = code.size + (first.instrs code.size).length := by
      rw [← length_toList, hFirst, List.length_append, length_toList]
    rw [emitAll, instrsOfAll, toList_emitAll (code.emitStmt first) rest, hFirst, hSize,
      List.append_assoc]

end

end Code

theorem BinaryOp.isJump_opcode (op : BinaryOp) : op.opcode.isJump = false := by
  cases op <;> rfl

/-- The code of an expression does not jump. -/
theorem Expr.isJump_of_mem_instrs {e : Expr} {i : Instr} (h : i ∈ e.instrs) :
    i.op.isJump = false := by
  induction e with
  | literal value => simp [instrs] at h; subst h; rfl
  | var name => simp [instrs] at h; subst h; rfl
  | group inner ih => exact ih h
  | unary op operand ih =>
    cases op with
    | neg =>
      simp only [instrs, List.mem_cons, List.mem_append, List.not_mem_nil, or_false] at h
      rcases h with rfl | h | rfl
      · rfl
      · exact ih h
      · rfl
    | plus => exact ih h
  | binary op left right ihLeft ihRight =>
    simp only [instrs, List.mem_cons, List.mem_append, List.not_mem_nil, or_false] at h
    rcases h with h | h | rfl
    · exact ihLeft h
    · exact ihRight h
    · exact op.isJump_opcode

theorem Expr.isOpenJump_of_mem_instrs {e : Expr} {i : Instr} (h : i ∈ e.instrs) :
    i.isOpenJump = false := by
  simp [Instr.isOpenJump, isJump_of_mem_instrs h]

mutual

/-- Every jump in the code of a statement has a target. -/
theorem Stmt.isOpenJump_of_mem_instrs {i : Instr} :
    {start : Nat} → {stmt : Stmt} → i ∈ stmt.instrs start → i.isOpenJump = false
  | _, .declare _ _, h => by simp [Stmt.instrs] at h
  | _, .assign _ _, h | _, .print _, h | _, .discard _, h => by
    simp only [Stmt.instrs, List.mem_append, List.mem_singleton] at h
    rcases h with h | rfl
    · exact Expr.isOpenJump_of_mem_instrs h
    · rfl
  | _, .input _, h => by simp [Stmt.instrs] at h; subst h; rfl
  | _, .block _, h => by
    rw [Stmt.instrs] at h
    exact isOpenJump_of_mem_instrsOfAll h
  | _, .ifThen _ body, h => by
    simp only [Stmt.instrs, List.mem_append, List.mem_cons] at h
    rcases h with h | rfl | h
    · exact Expr.isOpenJump_of_mem_instrs h
    · rfl
    · exact Stmt.isOpenJump_of_mem_instrs h
  | _, .ifElse _ body otherwise, h => by
    simp only [Stmt.instrs, List.mem_append, List.mem_cons] at h
    rcases h with h | rfl | h | rfl | h
    · exact Expr.isOpenJump_of_mem_instrs h
    · rfl
    · exact Stmt.isOpenJump_of_mem_instrs h
    · rfl
    · exact Stmt.isOpenJump_of_mem_instrs h
  | _, .loop _ body, h => by
    simp only [Stmt.instrs, List.mem_append, List.mem_cons, List.not_mem_nil, or_false] at h
    rcases h with h | rfl | h | rfl
    · exact Expr.isOpenJump_of_mem_instrs h
    · rfl
    · exact Stmt.isOpenJump_of_mem_instrs h
    · rfl

theorem isOpenJump_of_mem_instrsOfAll {i : Instr} :
    {start : Nat} → {stmts : List Stmt} → i ∈ instrsOfAll start stmts → i.isOpenJump = false
  | _, [], h => by simp [instrsOfAll] at h
  | _, first :: rest, h => by
    rw [instrsOfAll, List.mem_append] at h
    rcases h with h | h
    · exact Stmt.isOpenJump_of_mem_instrs h
    · exact isOpenJump_of_mem_instrsOfAll h

end

/-- The code of a program: its instructions from index 0 on. -/
def Program.assembled (program : Program) : Code := ⟨(instrsOfAll 0 program).toArray⟩

@[simp] theorem Program.toList_assembled (program : Program) :
    program.assembled.toList = instrsOfAll 0 program := rfl

theorem Program.emitAll_eq_assembled (program : Program) :
    Code.emitAll {} program = program.assembled := by
  have h := Code.toList_emitAll {} program
  rw [Code.toList_empty, List.nil_append, Code.size_empty] at h
  rw [assembled, ← h, Code.toList, Array.toArray_toList]

/-- Every program has code. -/
theorem Program.code_eq_assembled (program : Program) : program.code = .ok program.assembled := by
  have hClosed : program.assembled.firstOpenJump? = none := by
    simp only [Code.firstOpenJump?, assembled, Array.findIdx?_eq_none_iff]
    intro i hi
    exact isOpenJump_of_mem_instrsOfAll (by simpa using hi)
  simp only [Program.code, emitAll_eq_assembled, hClosed]

namespace Code

/-- The instructions `block` stand in the code from index `start` on. -/
def Holds (code : Code) (start : Nat) (block : List Instr) : Prop :=
  ∃ before after, code.toList = before ++ (block ++ after) ∧ before.length = start

namespace Holds

variable {code : Code} {start : Nat} {i : Instr} {block first second : List Instr}

theorem head (h : code.Holds start (i :: block)) : code.instrs[start]? = some i := by
  obtain ⟨before, after, hCode, rfl⟩ := h
  rw [← getElem?_toList, hCode]
  simp

theorem left (h : code.Holds start (first ++ second)) : code.Holds start first := by
  obtain ⟨before, after, hCode, hStart⟩ := h
  exact ⟨before, second ++ after, by rw [hCode, List.append_assoc], hStart⟩

theorem right (h : code.Holds start (first ++ second)) :
    code.Holds (start + first.length) second := by
  obtain ⟨before, after, hCode, rfl⟩ := h
  exact ⟨before ++ first, after, by simp [hCode], by simp⟩

theorem tail (h : code.Holds start (i :: block)) : code.Holds (start + 1) block :=
  (show code.Holds start ([i] ++ block) from h).right

/-- The end of a block is an index that a jump may go to. -/
theorem end_le (h : code.Holds start block) : start + block.length ≤ code.size := by
  obtain ⟨before, after, hCode, rfl⟩ := h
  rw [← length_toList, hCode, List.length_append, List.length_append]
  omega

end Holds

end Code

theorem Program.holds_assembled (program : Program) :
    program.assembled.Holds 0 (instrsOfAll 0 program) :=
  ⟨[], [], by simp, rfl⟩

end Abacus
