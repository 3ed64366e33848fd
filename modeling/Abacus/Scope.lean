import Abacus.Store
import Abacus.Tree.Basic

/-! Declarations: every variable is declared once, and before it is used.  Blocks open no scope of
their own: what is declared inside stays declared.  A program is checked as a whole: if it does not
fit, nothing of it is declared. -/

namespace Abacus

/-- The declared variables with their types, and the names that the check at work has declared so
far, last first. -/
structure Scope where
  declared : Store VarType := {}
  added : List String := []
deriving DecidableEq, Repr

/-- Why a program does not fit the declarations: a name declared again, or used before its
declaration. -/
inductive ScopeError where
  | redeclared (name : String)
  | undeclared (name : String)
deriving DecidableEq, Repr

/-- The text of a declaration error. -/
def ScopeError.message : ScopeError → String
  | redeclared name => "semantic error: variable '" ++ name ++ "' is already declared"
  | undeclared name => "semantic error: variable '" ++ name ++ "' is not declared"

namespace Scope

/-- A part of a check.  A failure leaves the scope as it is then. -/
abbrev Check := EStateM ScopeError Scope

/-- Declares a name that is not declared yet. -/
def declare (type : VarType) (name : String) : Check Unit := fun scope =>
  if scope.declared.contains name then .error (.redeclared name) scope
  else .ok () { declared := scope.declared.set name type, added := name :: scope.added }

/-- Fails if a name is not declared. -/
def require (name : String) : Check Unit := fun scope =>
  if scope.declared.contains name then .ok () scope else .error (.undeclared name) scope

/-- Fails at the first name in an expression that is not declared. -/
def checkExpr : Expr → Check Unit
  | .literal _ => return
  | .var name => require name
  | .group inner => checkExpr inner
  | .unary _ operand => checkExpr operand
  | .binary _ left right => do
    checkExpr left
    checkExpr right

mutual

/-- Declares what a statement declares, and fails where it does not fit. -/
def checkStmt : Stmt → Check Unit
  | .declare type name => declare type name
  | .assign name value => do
    require name
    checkExpr value
  | .print value => checkExpr value
  | .input name => require name
  | .discard value => checkExpr value
  | .block body => checkAll body
  | .ifThen test body => do
    checkExpr test
    checkStmt body
  | .ifElse test body otherwise => do
    checkExpr test
    checkStmt body
    checkStmt otherwise
  | .loop test body => do
    checkExpr test
    checkStmt body

/-- Checks statements one after the other. -/
def checkAll : List Stmt → Check Unit
  | [] => return
  | first :: rest => do
    checkStmt first
    checkAll rest

end

/-- The scope without what the check at work has declared. -/
def undo (scope : Scope) : Scope := { declared := scope.added.foldl Store.erase scope.declared }

/-- Checks a program and declares what it declares, or nothing if it does not fit. -/
def check (scope : Scope) (program : Program) : Except ScopeError Unit × Scope :=
  match checkAll program { scope with added := [] } with
  | .ok () after => (.ok (), { after with added := [] })
  | .error e after => (.error e, after.undo)

end Scope

end Abacus
