import Abacus.Tree.Parse
import Mathlib.Data.List.Forall2

/-! The grammar of programs, without a parser: how a tree is spelled as tokens, and which trees can
be told from their spelling. -/

namespace Abacus

/-- What a tree requires of one of its tokens: a kind, a name, or the value of a number. -/
inductive Mark where
  | word (kind : Token.Kind)
  | name (text : String)
  | number (value : Float)

namespace Mark

def kind : Mark → Token.Kind
  | word kind => kind
  | name _ => .identifier
  | number _ => .number

def Matches : Mark → Token → Prop
  | word kind, t => t.kind = kind
  | name text, t => t.kind = .identifier ∧ t.lexeme = text
  | number value, t => t.kind = .number ∧ Number.read? t.lexeme = some value

theorem Matches.kind_eq {m : Mark} {t : Token} (h : m.Matches t) : t.kind = m.kind := by
  cases m with
  | word kind => exact h
  | name text => exact h.1
  | number value => exact h.1

end Mark

/-- The tokens are what the marks require, one for one. -/
abbrev Spells (marks : List Mark) (tokens : List Token) : Prop :=
  List.Forall₂ Mark.Matches marks tokens

def VarType.token : VarType → Token.Kind
  | int => .intWord
  | real => .realWord

def UnaryOp.token : UnaryOp → Token.Kind
  | neg => .minus
  | plus => .plus

def BinaryOp.token : BinaryOp → Token.Kind
  | add => .plus
  | sub => .minus
  | mul => .star
  | div => .slash
  | eq => .equalEqual
  | ne => .notEqual
  | gt => .greater
  | ge => .greaterEqual
  | lt => .less
  | le => .lessEqual

theorem BinaryOp.token_ne_eof (op : BinaryOp) : op.token ≠ .eof := by
  cases op <;> nofun

theorem BinaryOp.token_ne_semicolon (op : BinaryOp) : op.token ≠ .semicolon := by
  cases op <;> nofun

theorem BinaryOp.token_ne_rightParen (op : BinaryOp) : op.token ≠ .rightParen := by
  cases op <;> nofun

/-- The operator that a kind of token spells. -/
def BinaryOp.ofToken? : Token.Kind → Option BinaryOp
  | .plus => some add
  | .minus => some sub
  | .star => some mul
  | .slash => some div
  | .equalEqual => some eq
  | .notEqual => some ne
  | .greater => some gt
  | .greaterEqual => some ge
  | .less => some lt
  | .lessEqual => some le
  | _ => none

theorem BinaryOp.ofToken?_eq_some_iff {kind : Token.Kind} {op : BinaryOp} :
    ofToken? kind = some op ↔ op.token = kind := by
  constructor
  · intro h
    unfold ofToken? at h
    split at h <;> cases h <;> rfl
  · rintro rfl
    cases op <;> rfl

theorem BinaryOp.token_injective {op op' : BinaryOp} (h : op.token = op'.token) : op = op' := by
  have hOp := ofToken?_eq_some_iff.mpr h
  rw [ofToken?_eq_some_iff.mpr rfl] at hOp
  exact (Option.some.inj hOp).symm

def parenthesized (marks : List Mark) : List Mark :=
  .word .leftParen :: (marks ++ [.word .rightParen])

/-- The spelling of an expression. -/
def Expr.marks : Expr → List Mark
  | literal value => [.number value]
  | var name => [.name name]
  | group inner => parenthesized inner.marks
  | unary op operand => .word op.token :: operand.marks
  | binary op left right => left.marks ++ .word op.token :: right.marks

mutual

/-- The spelling of a statement. -/
def Stmt.marks : Stmt → List Mark
  | .declare type name => [.word type.token, .name name, .word .semicolon]
  | .assign name value => .name name :: .word .equal :: (value.marks ++ [.word .semicolon])
  | .print value => .word .printWord :: (value.marks ++ [.word .semicolon])
  | .input name => [.word .inputWord, .name name, .word .semicolon]
  | .discard value => value.marks ++ [.word .semicolon]
  | .block body => .word .leftBrace :: (marksOfAll body ++ [.word .rightBrace])
  | .ifThen test body => .word .ifWord :: (parenthesized test.marks ++ body.marks)
  | .ifElse test body otherwise =>
    .word .ifWord ::
      (parenthesized test.marks ++ (body.marks ++ .word .elseWord :: otherwise.marks))
  | .loop test body => .word .whileWord :: (parenthesized test.marks ++ body.marks)

def marksOfAll : List Stmt → List Mark
  | [] => []
  | first :: rest => first.marks ++ marksOfAll rest

end

theorem marksOfAll_append (front back : List Stmt) :
    marksOfAll (front ++ back) = marksOfAll front ++ marksOfAll back := by
  induction front with
  | nil => rfl
  | cons first front ih => rw [List.cons_append, marksOfAll, ih, marksOfAll, List.append_assoc]

/-- The spelling of a program. -/
def Program.marks (p : Program) : List Mark := marksOfAll p

/-- How close an operator binds. -/
def BinaryOp.precedence : BinaryOp → Nat
  | eq | ne => 0
  | gt | ge | lt | le => 1
  | add | sub => 2
  | mul | div => 3

def Expr.precedence : Expr → Nat
  | binary op _ _ => op.precedence
  | unary _ _ => 4
  | literal _ | var _ | group _ => 5

/-- Operators of one precedence group from the left, an operator that binds less close stands under
one that binds closer only in parentheses, and there is no plus with one operand. -/
def Expr.Canonical : Expr → Prop
  | literal _ | var _ => True
  | group inner => inner.Canonical
  | unary op operand => op = .neg ∧ 4 ≤ operand.precedence ∧ operand.Canonical
  | binary op left right =>
    op.precedence ≤ left.precedence ∧ op.precedence < right.precedence ∧
      left.Canonical ∧ right.Canonical

def Stmt.isDeclare : Stmt → Bool
  | declare .. => true
  | _ => false

/-- Whether an `else` behind the statement would belong to a conditional at its end. -/
def Stmt.endsInIfThen : Stmt → Bool
  | ifThen _ _ => true
  | ifElse _ _ otherwise => otherwise.endsInIfThen
  | loop _ body => body.endsInIfThen
  | _ => false

mutual

/-- Expressions are canonical, no branch is a bare declaration, and no branch before an `else` ends
in a conditional that would take that `else`. -/
def Stmt.Canonical : Stmt → Prop
  | .declare _ _ | .input _ => True
  | .assign _ value | .print value | .discard value => value.Canonical
  | .block body => canonicalAll body
  | .ifThen test body => test.Canonical ∧ body.isDeclare = false ∧ body.Canonical
  | .ifElse test body otherwise =>
    test.Canonical ∧ body.isDeclare = false ∧ body.Canonical ∧ body.endsInIfThen = false ∧
      otherwise.isDeclare = false ∧ otherwise.Canonical
  | .loop test body => test.Canonical ∧ body.isDeclare = false ∧ body.Canonical

def canonicalAll : List Stmt → Prop
  | [] => True
  | first :: rest => first.Canonical ∧ canonicalAll rest

end

theorem canonicalAll_append {front back : List Stmt} (h : canonicalAll front)
    (h' : canonicalAll back) : canonicalAll (front ++ back) := by
  induction front with
  | nil => exact h'
  | cons first front ih => exact ⟨h.1, ih h.2⟩

def Program.Canonical (p : Program) : Prop := canonicalAll p

/-! The first token tells what can begin there. -/

def Token.Kind.startsExpr : Token.Kind → Bool
  | minus | number | identifier | leftParen => true
  | _ => false

def Token.Kind.startsStmt : Token.Kind → Bool
  | intWord | realWord | ifWord | whileWord | printWord | inputWord | leftBrace => true
  | kind => kind.startsExpr

theorem Expr.exists_marks {e : Expr} (h : e.Canonical) :
    ∃ m marks, e.marks = m :: marks ∧ m.kind.startsExpr = true := by
  induction e with
  | literal value => exact ⟨_, _, rfl, rfl⟩
  | var name => exact ⟨_, _, rfl, rfl⟩
  | group inner => exact ⟨_, _, rfl, rfl⟩
  | unary op operand => exact ⟨_, _, rfl, h.1 ▸ rfl⟩
  | binary op left right ihLeft =>
    obtain ⟨m, marks, hMarks, hKind⟩ := ihLeft h.2.2.1
    exact ⟨m, _, congrArg (· ++ _) hMarks, hKind⟩

theorem Stmt.exists_marks {s : Stmt} (h : s.Canonical) :
    ∃ m marks, s.marks = m :: marks ∧ m.kind.startsStmt = true ∧ m.kind.isType = s.isDeclare := by
  cases s with
  | declare type name => cases type <;> exact ⟨_, _, rfl, rfl, rfl⟩
  | discard value =>
    obtain ⟨m, marks, hMarks, hKind⟩ := Expr.exists_marks h
    obtain ⟨hStarts, hType⟩ : m.kind.startsStmt = true ∧ m.kind.isType = false := by
      revert hKind
      cases m.kind <;> decide
    exact ⟨m, _, congrArg (· ++ _) hMarks, hStarts, hType⟩
  | _ => exact ⟨_, _, rfl, rfl, rfl⟩

/-! What tokens a spelling has: those of an expression are no equals sign, so that sign behind a
name tells an assignment, and no spelling has an end token. -/

def Token.Kind.inExpr : Token.Kind → Bool
  | identifier | number | leftParen | rightParen | plus | minus | star | slash => true
  | equalEqual | notEqual | greater | greaterEqual | less | lessEqual => true
  | _ => false

theorem Expr.inExpr_marks (e : Expr) : ∀ m ∈ e.marks, m.kind.inExpr = true := by
  induction e with
  | literal value => exact List.forall_mem_singleton.mpr rfl
  | var name => exact List.forall_mem_singleton.mpr rfl
  | group inner ih =>
    exact List.forall_mem_cons.mpr ⟨rfl,
      List.forall_mem_append.mpr ⟨ih, List.forall_mem_singleton.mpr rfl⟩⟩
  | unary op operand ih => exact List.forall_mem_cons.mpr ⟨by cases op <;> rfl, ih⟩
  | binary op left right ihLeft ihRight =>
    exact List.forall_mem_append.mpr ⟨ihLeft,
      List.forall_mem_cons.mpr ⟨by cases op <;> rfl, ihRight⟩⟩

theorem Expr.kind_ne_eof (e : Expr) : ∀ m ∈ e.marks, m.kind ≠ .eof := by
  intro m hMem hKind
  have hExpr := e.inExpr_marks m hMem
  rw [hKind] at hExpr
  cases hExpr

mutual

theorem Stmt.kind_ne_eof (s : Stmt) : ∀ m ∈ s.marks, m.kind ≠ .eof := by
  match s with
  | .declare type name => cases type <;> simp [Stmt.marks, VarType.token, Mark.kind]
  | .input name => simp [Stmt.marks, Mark.kind]
  | .assign _ value | .print value | .discard value =>
    have hValue := value.kind_ne_eof
    simpa [Stmt.marks, Mark.kind, or_imp, forall_and] using hValue
  | .block body =>
    have hBody := kind_ne_eof_of_all body
    simpa [Stmt.marks, Mark.kind, or_imp, forall_and] using hBody
  | .ifThen test body | .loop test body =>
    have hParts := And.intro test.kind_ne_eof body.kind_ne_eof
    simpa [Stmt.marks, parenthesized, Mark.kind, or_imp, forall_and] using hParts
  | .ifElse test body otherwise =>
    have hParts := And.intro test.kind_ne_eof (And.intro body.kind_ne_eof otherwise.kind_ne_eof)
    simpa [Stmt.marks, parenthesized, Mark.kind, or_imp, forall_and] using hParts

theorem kind_ne_eof_of_all (body : List Stmt) : ∀ m ∈ marksOfAll body, m.kind ≠ .eof := by
  match body with
  | [] => nofun
  | first :: rest =>
    exact List.forall_mem_append.mpr ⟨first.kind_ne_eof, kind_ne_eof_of_all rest⟩

end

theorem Spells.isEof_eq_false {marks : List Mark} {tokens : List Token} (h : Spells marks tokens)
    (hKinds : ∀ m ∈ marks, m.kind ≠ .eof) : ∀ t ∈ tokens, t.isEof = false := by
  induction h with
  | nil => nofun
  | cons hMatches _ ih =>
    obtain ⟨hKind, hKinds⟩ := List.forall_mem_cons.mp hKinds
    refine List.forall_mem_cons.mpr ⟨?_, ih hKinds⟩
    exact beq_false_of_ne (hMatches.kind_eq ▸ hKind)

end Abacus
