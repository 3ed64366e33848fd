import Abacus.Tree.Basic
import Abacus.Tree.Cursor

/-! Parsing: trees from tokens.

Each part that may hold another level of statements or expressions takes the reader of that level
as an argument.  `operand` and `statement` tie the knot by recursion on the number of levels left.
Sequences and operator chains read at most as many parts as there are tokens ahead: each part
takes a token, so at the end of the tokens they are complete. -/

namespace Abacus.Parse

/-- The operators of equality. -/
def equality? : Token.Kind → Option BinaryOp
  | .equalEqual => some .eq
  | .notEqual => some .ne
  | _ => none

/-- The operators of comparison. -/
def comparison? : Token.Kind → Option BinaryOp
  | .greater => some .gt
  | .greaterEqual => some .ge
  | .less => some .lt
  | .lessEqual => some .le
  | _ => none

/-- The operators of sums. -/
def sum? : Token.Kind → Option BinaryOp
  | .plus => some .add
  | .minus => some .sub
  | _ => none

/-- The operators of products. -/
def product? : Token.Kind → Option BinaryOp
  | .star => some .mul
  | .slash => some .div
  | _ => none

/-- Up to `count` operators, each with an operand on its right, behind the expression `left`. -/
def chainFrom (operator? : Token.Kind → Option BinaryOp) (operand : Parse Expr) :
    (count : Nat) → (left : Expr) → Parse Expr
  | 0, left => return left
  | count + 1, left => do
    match operator? (← current).kind with
    | none => return left
    | some op =>
      let _ ← advance
      let right ← operand
      chainFrom operator? operand count (.binary op left right)

/-- Operands with operators of one level between them, grouped from the left. -/
def chain (operator? : Token.Kind → Option BinaryOp) (operand : Parse Expr) : Parse Expr := do
  let left ← operand
  chainFrom operator? operand (← get).rest.length left

/-- An expression made of the given operands: products bind closest, then sums, comparisons and
equality. -/
def expressionOf (operand : Parse Expr) : Parse Expr :=
  chain equality? (chain comparison? (chain sum? (chain product? operand)))

/-- The number of a number token. -/
def literal (token : Token) : Parse Expr :=
  match Number.read? token.lexeme with
  | some value => return .literal value
  | none => throw (.invalidNumber token.lexeme)

/-- An operand: a number, a name, an expression in parentheses, or a minus before an operand. -/
def operandOf (inner : Parse Expr) (negated : Parse Expr) : Parse Expr := do
  match (← current).kind with
  | .minus =>
    let _ ← advance
    return .unary .neg (← negated)
  | .number => literal (← advance)
  | .identifier => return .var (← advance).lexeme
  | .leftParen =>
    let _ ← advance
    let inner ← inner
    let _ ← expect .rightParen .parenAfterExpression
    return .group inner
  | _ => refuse .expression

/-- An operand with at most the given number of levels inside. -/
def operand : (levels : Nat) → Parse Expr
  | 0 => operandOf tooDeep tooDeep
  | levels + 1 => operandOf (expressionOf (operand levels)) (operand levels)

/-- An expression with at most the given number of levels inside. -/
def expression (levels : Nat) : Parse Expr := expressionOf (operand levels)

/-- The declaration of a variable. -/
def declaration : Parse Stmt := do
  let type := if (← advance).kind = .realWord then VarType.real else VarType.int
  let name ← expectName .nameAfterType
  let _ ← expect .semicolon .semicolonAfterDeclaration
  return .declare type name

/-- A declaration or a statement. -/
def itemOf (statement : Parse Stmt) : Parse Stmt := do
  if (← current).kind.isType then declaration else statement

/-- Up to `count` declarations and statements before a token that closes the sequence. -/
def itemsUpTo (closes : Token.Kind → Bool) (statement : Parse Stmt) :
    (count : Nat) → Parse (List Stmt)
  | 0 => return []
  | count + 1 => do
    if closes (← current).kind then return []
    else
      let first ← itemOf statement
      return first :: (← itemsUpTo closes statement count)

/-- The declarations and statements before a token that closes the sequence. -/
def items (closes : Token.Kind → Bool) (statement : Parse Stmt) : Parse (List Stmt) := do
  itemsUpTo closes statement (← get).rest.length

/-- A condition in parentheses. -/
def condition (expression : Parse Expr) (opening : Expected) : Parse Expr := do
  let _ ← expect .leftParen opening
  let test ← expression
  let _ ← expect .rightParen .parenAfterCondition
  return test

/-- The assignment of a value to a variable. -/
def assignment (expression : Parse Expr) : Parse Stmt := do
  let name ← expectName .nameInAssignment
  let _ ← expect .equal .equalsInAssignment
  let value ← expression
  let _ ← expect .semicolon .semicolonAfterAssignment
  return .assign name value

/-- A print statement, from its keyword on. -/
def printStatement (expression : Parse Expr) : Parse Stmt := do
  let _ ← advance
  let value ← expression
  let _ ← expect .semicolon .semicolonAfterPrint
  return .print value

/-- An input statement, from its keyword on. -/
def inputStatement : Parse Stmt := do
  let _ ← advance
  let name ← expectName .nameAfterInput
  let _ ← expect .semicolon .semicolonAfterInput
  return .input name

/-- A conditional statement, from its keyword on.  It takes an else branch if there is one. -/
def ifStatement (expression : Parse Expr) (statement : Parse Stmt) : Parse Stmt := do
  let _ ← advance
  let test ← condition expression .parenAfterIf
  let body ← statement
  if (← current).kind = .elseWord then
    let _ ← advance
    return .ifElse test body (← statement)
  else return .ifThen test body

/-- A loop, from its keyword on. -/
def whileStatement (expression : Parse Expr) (statement : Parse Stmt) : Parse Stmt := do
  let _ ← advance
  let test ← condition expression .parenAfterWhile
  return .loop test (← statement)

/-- A block, from its opening brace on. -/
def blockStatement (statement : Parse Stmt) : Parse Stmt := do
  let _ ← advance
  let body ← items (fun kind => kind == .rightBrace || kind == .eof) statement
  let _ ← expect .rightBrace .braceAfterBlock
  return .block body

/-- An expression as a statement. -/
def expressionStatement (expression : Parse Expr) : Parse Stmt := do
  let value ← expression
  let _ ← expect .semicolon .semicolonAfterExpression
  return .discard value

/-- A statement made of the given expressions and statements.  A name with an equals sign behind
it begins an assignment. -/
def statementOf (expression : Parse Expr) (statement : Parse Stmt) : Parse Stmt := do
  match (← current).kind with
  | .printWord => printStatement expression
  | .inputWord => inputStatement
  | .ifWord => ifStatement expression statement
  | .whileWord => whileStatement expression statement
  | .leftBrace => blockStatement statement
  | .identifier =>
    if (← get).nextKind = .equal then assignment expression else expressionStatement expression
  | _ => expressionStatement expression

/-- A statement with at most the given number of levels, its own included. -/
def statement : (levels : Nat) → Parse Stmt
  | 0 => tooDeep
  | levels + 1 => statementOf (expression levels) (statement levels)

/-- A declaration, or a statement of at most `nestingLimit` levels. -/
def item : Parse Stmt := itemOf (statement nestingLimit)

/-- The declarations and statements up to the end token. -/
def program : Parse Program := items (· == .eof) (statement nestingLimit)

end Abacus.Parse

namespace Abacus

/-- The program that the tokens spell. -/
def Program.ofTokens (tokens : List Token) : Except SyntaxError Program :=
  match Parse.program (Cursor.ofTokens tokens) with
  | .ok program _ => .ok program
  | .error e _ => .error e

end Abacus
