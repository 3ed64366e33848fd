import Abacus.Number.Text

/-! The trees of the language: expressions, statements and programs. -/

namespace Abacus

/-- The types that a variable can be declared with.  Both hold the same numbers. -/
inductive VarType where
  | int | real
deriving DecidableEq, Repr

/-- The word that declares a variable of a type. -/
def VarType.name : VarType → String
  | int => "int"
  | real => "real"

/-- The operators with one operand.  No source has a plus before its operand, but trees may. -/
inductive UnaryOp where
  | neg | plus
deriving DecidableEq, Repr

/-- The operators with two operands. -/
inductive BinaryOp where
  | add | sub | mul | div | eq | ne | gt | ge | lt | le
deriving DecidableEq, Repr

/-- How an operator is written. -/
def UnaryOp.symbol : UnaryOp → String
  | neg => "-"
  | plus => "+"

/-- How an operator is written. -/
def BinaryOp.symbol : BinaryOp → String
  | add => "+"
  | sub => "-"
  | mul => "*"
  | div => "/"
  | eq => "=="
  | ne => "!="
  | gt => ">"
  | ge => ">="
  | lt => "<"
  | le => "<="

/-- Expressions.  Parentheses are kept as groups. -/
inductive Expr where
  | literal (value : Float)
  | var (name : String)
  | group (inner : Expr)
  | unary (op : UnaryOp) (operand : Expr)
  | binary (op : BinaryOp) (left right : Expr)
deriving DecidableEq

/-- An expression with its structure shown by parentheses. -/
def Expr.text : Expr → String
  | literal value => Number.text value
  | var name => name
  | group inner => "(group " ++ inner.text ++ ")"
  | unary op operand => "(" ++ op.symbol ++ operand.text ++ ")"
  | binary op left right => "(" ++ left.text ++ " " ++ op.symbol ++ " " ++ right.text ++ ")"

/-- Statements. -/
inductive Stmt where
  | declare (type : VarType) (name : String)
  | assign (name : String) (value : Expr)
  | print (value : Expr)
  | input (name : String)
  | discard (value : Expr)
  | block (body : List Stmt)
  | ifThen (test : Expr) (body : Stmt)
  | ifElse (test : Expr) (body otherwise : Stmt)
  | loop (test : Expr) (body : Stmt)

/-- A program is a sequence of statements. -/
abbrev Program := List Stmt

end Abacus
