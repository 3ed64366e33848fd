/-! Tokens: their kinds, what each kind is called, and the keywords. -/

namespace Abacus

/-- A range of byte offsets in a source, from `start` up to and without `stop`. -/
structure Span where
  start : Nat
  stop : Nat
deriving DecidableEq, Repr

namespace Span

/-- The number of bytes in a span. -/
def length (s : Span) : Nat := s.stop - s.start

/-- Whether a span holds no byte. -/
def isEmpty (s : Span) : Bool := s.start == s.stop

end Span

/-- The kinds of tokens: seven keywords, names and numbers, operators, punctuation, and the end of
the input. -/
inductive Token.Kind where
  | intWord | realWord | ifWord | elseWord | whileWord | printWord | inputWord
  | identifier | number
  | plus | minus | star | slash
  | equal | equalEqual | notEqual | greater | greaterEqual | less | lessEqual
  | semicolon | leftParen | rightParen | leftBrace | rightBrace
  | eof
deriving DecidableEq, Repr

/-- A token with the text it was read from. -/
structure Token where
  kind : Token.Kind
  lexeme : String
  span : Span
deriving DecidableEq, Repr

namespace Token

namespace Kind

/-- What a kind of token is called: its spelling, if it has only one. -/
def name : Kind → String
  | intWord => "int"
  | realWord => "real"
  | ifWord => "if"
  | elseWord => "else"
  | whileWord => "while"
  | printWord => "print"
  | inputWord => "input"
  | identifier => "identifier"
  | number => "number"
  | plus => "+"
  | minus => "-"
  | star => "*"
  | slash => "/"
  | equal => "="
  | equalEqual => "=="
  | notEqual => "!="
  | greater => ">"
  | greaterEqual => ">="
  | less => "<"
  | lessEqual => "<="
  | semicolon => ";"
  | leftParen => "("
  | rightParen => ")"
  | leftBrace => "\x7b"
  | rightBrace => "\x7d"
  | eof => "end of input"

/-- Whether a kind is a keyword. -/
def isKeyword : Kind → Bool
  | intWord | realWord | ifWord | elseWord | whileWord | printWord | inputWord => true
  | _ => false

/-- Whether a kind begins a declaration. -/
def isType : Kind → Bool
  | intWord | realWord => true
  | _ => false

/-- The keyword with exactly this spelling. -/
def keyword? (text : String) : Option Kind :=
  if text = "int" then some intWord
  else if text = "real" then some realWord
  else if text = "if" then some ifWord
  else if text = "else" then some elseWord
  else if text = "while" then some whileWord
  else if text = "print" then some printWord
  else if text = "input" then some inputWord
  else none

theorem keyword?_eq_some_iff {text : String} {kind : Kind} :
    keyword? text = some kind ↔ kind.isKeyword = true ∧ text = kind.name := by
  constructor
  · intro h
    unfold keyword? at h
    repeat' split at h
    all_goals first
      | (cases h; exact ⟨rfl, by assumption⟩)
      | cases h
  · rintro ⟨h, rfl⟩
    cases kind <;> first | rfl | cases h

end Kind

/-- Whether a token marks the end of the input. -/
def isEof (t : Token) : Bool := t.kind == .eof

/-- How a message points at a token: by its text in quotes, or as the end of the input. -/
def describe (t : Token) : String :=
  if t.lexeme.isEmpty then "end of input" else "'" ++ t.lexeme ++ "'"

end Token

end Abacus
