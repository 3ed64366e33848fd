import Abacus.Code.Basic
import Abacus.Machine.Channels
import Abacus.Store

/-! The stack machine: its state, what each instruction does, and runs of code. -/

namespace Abacus

/-- Why a run stops before the end of its code.  The first three tell the index of the
instruction; they cannot happen in code that comes from a program. -/
inductive RuntimeError where
  | stackUnderflow (op : Opcode) (index : Nat)
  | missingOperand (op : Opcode) (index : Nat)
  | jumpOutOfRange (target index : Nat)
  | inputExhausted (name : String)
  | invalidInput (name text : String)
  | io (message : String)
deriving DecidableEq, Repr

/-- The text of a runtime error. -/
def RuntimeError.message : RuntimeError → String
  | stackUnderflow op index =>
    "runtime error: stack underflow in " ++ op.mnemonic ++ " at " ++ Nat.repr index
  | missingOperand op index =>
    "runtime error: " ++ op.mnemonic ++ " at " ++ Nat.repr index ++ " is missing its operand"
  | jumpOutOfRange target index =>
    "runtime error: jump at " ++ Nat.repr index ++ " targets " ++ Nat.repr target ++
      ", outside the program"
  | inputExhausted name => "runtime error: no input left to read into '" ++ name ++ "'"
  | invalidInput name text =>
    "runtime error: cannot read '" ++ text ++ "' into '" ++ name ++ "': not a number"
  | io message => "runtime error: " ++ message

/-- A machine: the index of the next instruction, the operand stack with its top first, and the
variables that have been written. -/
structure Machine where
  pc : Nat := 0
  stack : List Float := []
  vars : Store Float := {}
deriving DecidableEq

namespace Machine

/-- Zero, which is also the value of a variable that was never written, and false. -/
def zero : Float := Number.ofMagnitude false 0

/-- One, the value of a comparison that holds. -/
def one : Float := Number.ofMagnitude false 0x3FF0000000000000

/-- The value of a comparison. -/
def truth (holds : Bool) : Float := if holds then one else zero

/-- A machine at work, with the port that it reads from and writes to. -/
structure State (π : Type) extends Machine where
  port : π

/-- A step of a machine at work.  A failure leaves the state as it is then. -/
abbrev Action (π α : Type) := EStateM RuntimeError (State π) α

variable {π α : Type}

/-- The operand that the instruction at an index needs. -/
def operand (op : Opcode) (index : Nat) : Option α → Action π α
  | some value => return value
  | none => throw (.missingOperand op index)

/-- Puts a value on the stack. -/
def push (value : Float) : Action π Unit :=
  modify fun s => { s with stack := value :: s.stack }

/-- Takes the top value off the stack. -/
def pop (op : Opcode) (index : Nat) : Action π Float := fun s =>
  match s.stack with
  | value :: rest => .ok value { s with stack := rest }
  | [] => .error (.stackUnderflow op index) s

/-- Puts a value under the name of a variable. -/
def store (name : String) (value : Float) : Action π Unit :=
  modify fun s => { s with vars := s.vars.set name value }

/-- Replaces the two top values by a combination of them; the top one is the right operand. -/
def binary (op : Opcode) (index : Nat) (f : Float → Float → Float) : Action π Unit := do
  let right ← pop op index
  let left ← pop op index
  push (f left right)

/-- Does something with the port.  A failure of the port is an error of the run. -/
def io (act : EStateM String π α) : Action π α := fun s =>
  match act s.port with
  | .ok a port => .ok a { s with port }
  | .error message port => .error (.io message) { s with port }

/-- The target of the jump at an index in code of the given size. -/
def jumpTarget (i : Instr) (index size : Nat) : Action π Nat := do
  let target ← operand i.op index i.target
  if size < target then throw (.jumpOutOfRange target index)
  return target

/-- Continues at an index. -/
def goto (target : Nat) : Action π Unit := modify fun s => { s with pc := target }

/-- Writes a number on a line of its own. -/
def printNumber [Sink π] (value : Float) : Action π Unit := do
  io (Sink.write (Number.text value))
  io (Sink.write "\n")

/-- Asks for a number and reads it into a variable. -/
def inputNumber [Intake π] [Sink π] (name : String) : Action π Unit := do
  io (Sink.write name)
  io (Sink.write " = ")
  io Sink.flush
  match ← io Intake.readWord with
  | none => throw (.inputExhausted name)
  | some text =>
    match Number.read? text with
    | none => throw (.invalidInput name text)
    | some value => store name value

/-- What the instruction at an index does, in code of the given size. -/
def exec [Intake π] [Sink π] (i : Instr) (index size : Nat) : Action π Unit :=
  match i.op with
  | .pushConst => do push (← operand i.op index i.value)
  | .loadVar => do
    let name ← operand i.op index i.name
    push (((← get).vars.get? name).getD zero)
  | .storeVar => do
    let name ← operand i.op index i.name
    store name (← pop i.op index)
  | .pop => do
    let _ ← pop i.op index
  | .add => binary i.op index (· + ·)
  | .sub => binary i.op index (· - ·)
  | .mul => binary i.op index (· * ·)
  | .div => binary i.op index (· / ·)
  | .cmpEq => binary i.op index fun a b => truth (a == b)
  | .cmpNe => binary i.op index fun a b => truth (a != b)
  | .cmpGt => binary i.op index fun a b => truth (b < a)
  | .cmpGe => binary i.op index fun a b => truth (b ≤ a)
  | .cmpLt => binary i.op index fun a b => truth (a < b)
  | .cmpLe => binary i.op index fun a b => truth (a ≤ b)
  | .print => do printNumber (← pop i.op index)
  | .input => do inputNumber (← operand i.op index i.name)
  | .jump => do goto (← jumpTarget i index size)
  | .jumpIfFalse => do
    let target ← jumpTarget i index size
    if (← pop i.op index) == zero then goto target

/-- What a run comes to: its result and the state it leaves. -/
structure Halt (π : Type) where
  result : Except RuntimeError Unit
  state : State π

/-- Where a step leads: to a state to go on from, or to the end of the run. -/
inductive Step (π : Type) where
  | next (state : State π)
  | halt (halt : Halt π)

/-- The end of a run by an action. -/
def Halt.of (act : Action π Unit) (s : State π) : Halt π :=
  match act s with
  | .ok () after => ⟨.ok (), after⟩
  | .error e after => ⟨.error e, after⟩

/-- One step: the next instruction, or the last flush behind the end of the code. -/
def step [Intake π] [Sink π] (code : Code) (s : State π) : Step π :=
  match code.instrs[s.pc]? with
  | none => .halt (Halt.of (io Sink.flush) s)
  | some i =>
    match exec i s.pc code.size { s with pc := s.pc + 1 } with
    | .ok () after => .next after
    | .error e after => .halt ⟨.error e, after⟩

/-- A run of at most `fuel` steps from a state; `none` if it takes more. -/
def run? [Intake π] [Sink π] (code : Code) : (fuel : Nat) → State π → Option (Halt π)
  | 0, _ => none
  | fuel + 1, s =>
    match step code s with
    | .next after => run? code fuel after
    | .halt h => some h

/-- The state in which a machine begins to run code: at the first instruction and with nothing on
the stack. -/
def start (m : Machine) (port : π) : State π := { vars := m.vars, port }

/-- Runs code on a machine, from the start of the code. -/
def execute? [Intake π] [Sink π] (m : Machine) (code : Code) (fuel : Nat) (port : π) :
    Option (Halt π) :=
  run? code fuel (m.start port)

end Machine

end Abacus
