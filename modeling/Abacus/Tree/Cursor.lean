import Abacus.Token.Basic

/-! The reading of a token sequence: why it can fail, where it stands, and its smallest steps. -/

namespace Abacus

/-- What the grammar requires at a token. -/
inductive Expected where
  | nameAfterType | semicolonAfterDeclaration
  | nameInAssignment | equalsInAssignment | semicolonAfterAssignment
  | semicolonAfterPrint
  | nameAfterInput | semicolonAfterInput
  | parenAfterIf | parenAfterWhile | parenAfterCondition
  | braceAfterBlock
  | semicolonAfterExpression | parenAfterExpression
  | expression
deriving DecidableEq, Repr

/-- The text of a requirement. -/
def Expected.text : Expected → String
  | nameAfterType => "expected variable name after type"
  | semicolonAfterDeclaration => "expected ';' after declaration"
  | nameInAssignment => "expected variable name in assignment"
  | equalsInAssignment => "expected '=' in assignment"
  | semicolonAfterAssignment => "expected ';' after assignment"
  | semicolonAfterPrint => "expected ';' after print statement"
  | nameAfterInput => "expected variable name after 'input'"
  | semicolonAfterInput => "expected ';' after input statement"
  | parenAfterIf => "expected '(' after 'if'"
  | parenAfterWhile => "expected '(' after 'while'"
  | parenAfterCondition => "expected ')' after condition"
  | braceAfterBlock => "expected '\x7d' after block"
  | semicolonAfterExpression => "expected ';' after expression"
  | parenAfterExpression => "expected ')' after expression"
  | expression => "expected expression"

/-- Why tokens are no program: a token other than the required one, a number token that is no
number, or more levels of nesting than allowed. -/
inductive SyntaxError where
  | unexpected (found : Token) (expected : Expected)
  | invalidNumber (lexeme : String)
  | tooDeep (found : Token) (limit : Nat)
deriving DecidableEq, Repr

namespace SyntaxError

/-- The text of a syntax error. -/
def message : SyntaxError → String
  | unexpected found expected => "syntax error at " ++ found.describe ++ ": " ++ expected.text
  | invalidNumber lexeme => "syntax error at '" ++ lexeme ++ "': invalid number literal"
  | tooDeep found limit =>
    "syntax error at " ++ found.describe ++ ": nested more than " ++ toString limit ++
      " levels deep"

end SyntaxError

/-- A place in a token sequence: the tokens ahead, and the end token behind them. -/
structure Cursor where
  rest : List Token
  stop : Token
deriving DecidableEq, Repr

namespace Cursor

/-- The end token of a sequence that has none: it stands where the last token ends. -/
def endOf (tokens : List Token) : Token :=
  let offset := (tokens.getLast?.map (·.span.stop)).getD 0
  ⟨.eof, "", ⟨offset, offset⟩⟩

/-- The start of a token sequence.  What follows its first end token is not read. -/
def ofTokens (tokens : List Token) : Cursor where
  rest := tokens.takeWhile (!·.isEof)
  stop := (tokens.find? (·.isEof)).getD (endOf tokens)

/-- The token at the cursor. -/
def current (c : Cursor) : Token := c.rest.headD c.stop

/-- The kind of the token behind the one at the cursor. -/
def nextKind (c : Cursor) : Token.Kind := (c.rest.tail.headD c.stop).kind

/-- The cursor behind its token.  It does not go past the end token. -/
def advance (c : Cursor) : Cursor := { c with rest := c.rest.tail }

end Cursor

/-- Reading at a cursor, which also a failure leaves where it stands. -/
abbrev Parse (α : Type) := EStateM SyntaxError Cursor α

namespace Parse

/-- The token at the cursor. -/
def current : Parse Token := fun c => .ok c.current c

/-- Goes behind the token at the cursor, and gives that token. -/
def advance : Parse Token := fun c => .ok c.current c.advance

/-- Fails at the token at the cursor. -/
def refuse {α : Type} (expected : Expected) : Parse α :=
  fun c => .error (.unexpected c.current expected) c

/-- Goes behind a token of the required kind. -/
def expect (kind : Token.Kind) (expected : Expected) : Parse Token := fun c =>
  if c.current.kind = kind then advance c else refuse expected c

/-- Goes behind a name, and gives it. -/
def expectName (expected : Expected) : Parse String := do
  return (← expect .identifier expected).lexeme

/-- The most levels that statements and expressions may be nested. -/
def nestingLimit : Nat := 128

/-- Fails at the token that would begin one more level. -/
def tooDeep {α : Type} : Parse α := fun c => .error (.tooDeep c.current nestingLimit) c

end Parse

end Abacus
