import Abacus.Number.Text

/-! Instructions of the stack machine, code as a sequence of them, and its listing. -/

namespace Abacus

/-- The operations of the machine. -/
inductive Opcode where
  | pushConst | loadVar | storeVar | pop
  | add | sub | mul | div
  | cmpEq | cmpNe | cmpGt | cmpGe | cmpLt | cmpLe
  | print | input
  | jump | jumpIfFalse
deriving DecidableEq, Repr

namespace Opcode

/-- Whether an operation may continue elsewhere than at the next instruction. -/
def isJump : Opcode → Bool
  | jump | jumpIfFalse => true
  | _ => false

/-- The word for an operation in a listing. -/
def mnemonic : Opcode → String
  | pushConst => "PUSH_CONST"
  | loadVar => "LOAD_VAR"
  | storeVar => "STORE_VAR"
  | pop => "POP"
  | add => "ADD"
  | sub => "SUB"
  | mul => "MUL"
  | div => "DIV"
  | cmpEq => "CMP_EQ"
  | cmpNe => "CMP_NEQ"
  | cmpGt => "CMP_GT"
  | cmpGe => "CMP_GTE"
  | cmpLt => "CMP_LT"
  | cmpLe => "CMP_LTE"
  | print => "PRINT"
  | input => "INPUT"
  | jump => "JMP"
  | jumpIfFalse => "JMP_IF_FALSE"

end Opcode

/-- An instruction.  Constants use the value, variables the name and jumps the target; an operand
that an operation does not use may be there all the same. -/
structure Instr where
  op : Opcode
  name : Option String
  value : Option Float
  target : Option Nat
deriving DecidableEq

namespace Instr

/-- An instruction without operands.  A jump is open without its target. -/
def simple (op : Opcode) : Instr := ⟨op, none, none, none⟩

/-- The instruction that pushes a constant. -/
def pushConst (value : Float) : Instr := { simple .pushConst with value }

/-- An instruction on a variable. -/
def withName (op : Opcode) (name : String) : Instr := { simple op with name }

/-- A jump to a target. -/
def jumpTo (op : Opcode) (target : Nat) : Instr := { simple op with target }

/-- Whether an instruction is a jump without a target. -/
def isOpenJump (i : Instr) : Bool := i.op.isJump && i.target.isNone

/-- The operand of an instruction in a listing, with the blank before it. -/
def operandText (i : Instr) : String :=
  match i.op with
  | .pushConst => (i.value.map fun value => " " ++ Number.text value).getD ""
  | .loadVar | .storeVar | .input => (i.name.map fun name => " " ++ name).getD ""
  | .jump | .jumpIfFalse => " -> " ++ (i.target.map Nat.repr).getD "?"
  | _ => ""

/-- An instruction in a listing. -/
def text (i : Instr) : String := i.op.mnemonic ++ i.operandText

end Instr

/-- Code for the machine. -/
structure Code where
  instrs : Array Instr
deriving DecidableEq

namespace Code

/-- The code without instructions. -/
def empty : Code := ⟨#[]⟩

instance : EmptyCollection Code := ⟨empty⟩

/-- The number of instructions. -/
def size (code : Code) : Nat := code.instrs.size

/-- The code with one more instruction, whose index is the former size. -/
def emit (code : Code) (i : Instr) : Code := ⟨code.instrs.push i⟩

/-- The code with a target for the jump at an index, if there is a jump. -/
def patch? (code : Code) (index target : Nat) : Option Code :=
  match code.instrs[index]? with
  | some i =>
    if i.op.isJump then some ⟨code.instrs.setIfInBounds index { i with target }⟩ else none
  | none => none

/-- The index of the first jump without a target. -/
def firstOpenJump? (code : Code) : Option Nat := code.instrs.findIdx? (·.isOpenJump)

/-- The lines of a listing: each instruction behind its index. -/
def lines (code : Code) : List String :=
  code.instrs.toList.zipIdx.map fun (i, index) => Nat.repr index ++ ": " ++ i.text

/-- The listing, with a line feed behind each line. -/
def listing (code : Code) : String := String.join (code.lines.map (· ++ "\n"))

end Code

end Abacus
