import Abacus.Machine.Basic
import Abacus.Tree.Basic

/-! What trees mean, without code: the value of an expression, and the evaluation of statements on
variables and a port.  The loops of an evaluation may take only a number of rounds; an evaluation
that ends does so with some number, one that runs forever with none. -/

namespace Abacus

/-- The result of an operator.  A comparison gives one if it holds and zero otherwise. -/
def BinaryOp.apply : BinaryOp → Float → Float → Float
  | add, a, b => a + b
  | sub, a, b => a - b
  | mul, a, b => a * b
  | div, a, b => a / b
  | eq, a, b => if a == b then 1.0 else 0.0
  | ne, a, b => if a != b then 1.0 else 0.0
  | gt, a, b => if a > b then 1.0 else 0.0
  | ge, a, b => if a ≥ b then 1.0 else 0.0
  | lt, a, b => if a < b then 1.0 else 0.0
  | le, a, b => if a ≤ b then 1.0 else 0.0

/-- The value of an expression.  A variable that was never written is zero, and a minus is a
difference from zero.  Expressions have no effects and do not fail. -/
def Expr.value (vars : Store Float) : Expr → Float
  | .literal value => value
  | .var name => (vars.get? name).getD 0.0
  | .group inner => inner.value vars
  | .unary .neg operand => 0.0 - operand.value vars
  | .unary .plus operand => operand.value vars
  | .binary op left right => op.apply (left.value vars) (right.value vars)

/-- Whether a value counts as true: every value but the two zeros does. -/
def isTrue (value : Float) : Bool := !(value == 0.0)

example : isTrue (-0.0) = false := by decide
example : isTrue (0.0 / 0.0) = true := by decide

/-- What statements work on: the variables that have been written, and the port. -/
structure Memory (π : Type) where
  vars : Store Float
  port : π

/-- An evaluation.  It may run out of rounds; otherwise it leaves a memory behind, also if it
fails. -/
abbrev Eval (π α : Type) := ExceptT RuntimeError (StateT (Memory π) Option) α

namespace Eval

variable {π α β : Type}

/-- What an evaluation comes to: nothing if it runs out of rounds, else its result and the memory
that it leaves. -/
def outcome? (act : Eval π α) (mem : Memory π) : Option (Except RuntimeError α × Memory π) :=
  StateT.run (ExceptT.run act) mem

/-- The evaluation that runs out of rounds. -/
def unfinished : Eval π α := ExceptT.mk (StateT.mk fun _ => none)

/-- Does something with the port.  A failure of the port is an error. -/
def io (act : EStateM String π α) : Eval π α := ExceptT.mk (StateT.mk fun mem =>
  match act mem.port with
  | .ok a port => some (.ok a, { mem with port })
  | .error message port => some (.error (.io message), { mem with port }))

/-- Puts a value under the name of a variable. -/
def assign (name : String) (value : Float) : Eval π Unit :=
  modify fun mem => { mem with vars := mem.vars.set name value }

/-- The value of an expression in the memory as it is. -/
def valueOf (e : Expr) : Eval π Float := return e.value (← get).vars

/-- Repeats an evaluation as long as a test holds, for less than the given number of rounds. -/
def repeatWhile (test : Expr) (body : Eval π Unit) : (rounds : Nat) → Eval π Unit
  | 0 => unfinished
  | rounds + 1 => do
    if isTrue (← valueOf test) then
      body
      repeatWhile test body rounds

end Eval

open Eval in
mutual

/-- The evaluation of a statement. -/
def Stmt.eval {π : Type} [Intake π] [Sink π] (rounds : Nat) : Stmt → Eval π Unit
  | .declare _ _ => return
  | .assign name value => do assign name (← valueOf value)
  | .print value => do
    io (Sink.write (Number.text (← valueOf value)))
    io (Sink.write "\n")
  | .input name => do
    io (Sink.write name)
    io (Sink.write " = ")
    io Sink.flush
    match ← io Intake.readWord with
    | none => throw (.inputExhausted name)
    | some text =>
      match Number.read? text with
      | none => throw (.invalidInput name text)
      | some value => assign name value
  | .discard value => do let _ ← valueOf value
  | .block body => evalAll rounds body
  | .ifThen test body => do
    if isTrue (← valueOf test) then body.eval rounds
  | .ifElse test body otherwise => do
    if isTrue (← valueOf test) then body.eval rounds else otherwise.eval rounds
  | .loop test body => repeatWhile test (body.eval rounds) rounds

/-- The evaluation of statements, one after the other. -/
def evalAll {π : Type} [Intake π] [Sink π] (rounds : Nat) : List Stmt → Eval π Unit
  | [] => return
  | first :: rest => do
    first.eval rounds
    evalAll rounds rest

end

/-- The evaluation of a program: its statements, and a flush at the end. -/
def Program.eval {π : Type} [Intake π] [Sink π] (rounds : Nat) (program : Program) :
    Eval π Unit := do
  evalAll rounds program
  Eval.io Sink.flush

namespace Eval

variable {π α β : Type} (mem : Memory π)

@[simp] theorem outcome?_valueOf (e : Expr) :
    (valueOf e).outcome? mem = some (.ok (e.value mem.vars), mem) := rfl

theorem outcome?_bind (act : Eval π α) (next : α → Eval π β) :
    (act >>= next).outcome? mem =
      match act.outcome? mem with
      | none => none
      | some (.ok a, after) => (next a).outcome? after
      | some (.error e, after) => some (.error e, after) := by
  simp only [outcome?, ExceptT.run_bind, StateT.run_bind]
  cases StateT.run (ExceptT.run act) mem with
  | none => rfl
  | some result =>
    obtain ⟨_ | _, after⟩ := result <;> rfl

end Eval

end Abacus
