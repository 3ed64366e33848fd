import Abacus.Code.Basic
import Abacus.Tree.Basic

/-! Code for trees.

An expression leaves its value on the stack, a statement leaves the stack as it was.  The forms
with jumps are these, with names for the places that jumps go to:

* `ifThen test body`: test, jump to `end` if false, body; `end`
* `ifElse test body otherwise`: test, jump to `else` if false, body, jump to `end`; `else`:
  otherwise; `end`
* `loop test body`: `start`: test, jump to `end` if false, body, jump to `start`; `end`

A jump forward is emitted open and gets its target when the code in between is there. -/

namespace Abacus

/-- Why code cannot be run: a jump in it has no target. -/
inductive EmitError where
  | unresolvedJump (index : Nat)
deriving DecidableEq, Repr

/-- The text of an emission error. -/
def EmitError.message : EmitError → String
  | unresolvedJump index =>
    "internal compiler error: jump at " ++ Nat.repr index ++ " was never patched"

/-- The operation that combines two operands. -/
def BinaryOp.opcode : BinaryOp → Opcode
  | add => .add
  | sub => .sub
  | mul => .mul
  | div => .div
  | eq => .cmpEq
  | ne => .cmpNe
  | gt => .cmpGt
  | ge => .cmpGe
  | lt => .cmpLt
  | le => .cmpLe

namespace Code

/-- The code with the jump at an index going to the end of the code. -/
def closeHere (code : Code) (index : Nat) : Code := (code.patch? index code.size).getD code

/-- Code that pushes the value of an expression.  A minus is a difference from zero. -/
def emitExpr (code : Code) : Expr → Code
  | .literal value => code.emit (.pushConst value)
  | .var name => code.emit (.withName .loadVar name)
  | .group inner => code.emitExpr inner
  | .unary .neg operand =>
    ((code.emit (.pushConst (Number.ofMagnitude false 0))).emitExpr operand).emit (.simple .sub)
  | .unary .plus operand => code.emitExpr operand
  | .binary op left right => ((code.emitExpr left).emitExpr right).emit (.simple op.opcode)

mutual

/-- Code that does what a statement says. -/
def emitStmt (code : Code) : Stmt → Code
  | .declare _ _ => code
  | .assign name value => (code.emitExpr value).emit (.withName .storeVar name)
  | .print value => (code.emitExpr value).emit (.simple .print)
  | .input name => code.emit (.withName .input name)
  | .discard value => (code.emitExpr value).emit (.simple .pop)
  | .block body => emitAll code body
  | .ifThen test body =>
    let tested := code.emitExpr test
    (emitStmt (tested.emit (.simple .jumpIfFalse)) body).closeHere tested.size
  | .ifElse test body otherwise =>
    let tested := code.emitExpr test
    let done := emitStmt (tested.emit (.simple .jumpIfFalse)) body
    let turned := (done.emit (.simple .jump)).closeHere tested.size
    (emitStmt turned otherwise).closeHere done.size
  | .loop test body =>
    let tested := code.emitExpr test
    let done := emitStmt (tested.emit (.simple .jumpIfFalse)) body
    (done.emit (.jumpTo .jump code.size)).closeHere tested.size

/-- Code that does what statements say, one after the other. -/
def emitAll (code : Code) : List Stmt → Code
  | [] => code
  | first :: rest => emitAll (emitStmt code first) rest

end

end Code

/-- The code of a program, with a target for every jump. -/
def Program.code (program : Program) : Except EmitError Code :=
  let code := Code.emitAll {} program
  match code.firstOpenJump? with
  | some index => .error (.unresolvedJump index)
  | none => .ok code

end Abacus
