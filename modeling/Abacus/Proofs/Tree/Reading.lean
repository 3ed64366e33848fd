import Abacus.Proofs.Tree.Grammar
import Mathlib.Data.List.TakeWhile

/-! What a parser does to its cursor.  `c.Takes marks c'` says that the tokens between two cursors
are spelled by the marks: a parser that succeeds takes the spelling of its result, and one that
finds a spelling ahead of it takes it. -/

namespace Abacus

/-- Reading tokens with the given marks leads from one cursor to the other. -/
inductive Cursor.Takes : Cursor → List Mark → Cursor → Prop
  | nil (c : Cursor) : Takes c [] c
  | cons {t : Token} {rest : List Token} {stop : Token} {m : Mark} {marks : List Mark} {c : Cursor}
      (first : m.Matches t) (others : Takes ⟨rest, stop⟩ marks c) :
      Takes ⟨t :: rest, stop⟩ (m :: marks) c

namespace Cursor.Takes

variable {c c' c'' : Cursor} {marks marks' : List Mark}

theorem stop_eq (h : Takes c marks c') : c'.stop = c.stop := by
  induction h with
  | nil => rfl
  | cons _ _ ih => exact ih

theorem ended (h : Takes c marks c') (hStop : c.stop.kind = .eof) : c'.stop.kind = .eof :=
  h.stop_eq ▸ hStop

theorem length_rest (h : Takes c marks c') :
    c.rest.length = marks.length + c'.rest.length := by
  induction h with
  | nil => simp
  | cons _ _ ih =>
    simp only [List.length_cons] at ih ⊢
    omega

theorem rest_eq (h : Takes c marks c') : c'.rest = c.rest.drop marks.length := by
  induction h with
  | nil => rfl
  | cons _ _ ih => exact ih

theorem append (h : Takes c marks c') (h' : Takes c' marks' c'') :
    Takes c (marks ++ marks') c'' := by
  induction h with
  | nil => exact h'
  | cons first _ ih => exact .cons first (ih h')

theorem split (h : Takes c (marks ++ marks') c'') :
    ∃ c', Takes c marks c' ∧ Takes c' marks' c'' := by
  induction marks generalizing c with
  | nil => exact ⟨c, .nil c, h⟩
  | cons m marks ih =>
    cases h with
    | cons first others =>
      obtain ⟨c', hLeft, hRight⟩ := ih others
      exact ⟨c', .cons first hLeft, hRight⟩

theorem uncons {m : Mark} (h : Takes c (m :: marks) c') :
    m.Matches c.current ∧ Takes c.advance marks c' := by
  cases h with
  | cons first others => exact ⟨first, others⟩

/-- What is read in all is spelled as the marks require. -/
theorem spells (h : Takes c marks c') :
    ∃ tokens, c.rest = tokens ++ c'.rest ∧ Spells marks tokens := by
  induction h with
  | nil => exact ⟨[], rfl, .nil⟩
  | @cons t rest stop m marks c first others ih =>
    obtain ⟨tokens, hRest, hSpells⟩ := ih
    exact ⟨t :: tokens, congrArg (t :: ·) hRest, .cons first hSpells⟩

theorem of_spells {tokens : List Token} (h : Spells marks tokens) (rest : List Token)
    (stop : Token) : Takes ⟨tokens ++ rest, stop⟩ marks ⟨rest, stop⟩ := by
  induction h with
  | nil => exact .nil _
  | cons first _ ih => exact .cons first ih

end Cursor.Takes

/-- The end token stands behind all others, so a token with another mark can be taken. -/
theorem Cursor.takes_advance {c : Cursor} {m : Mark} (hStop : c.stop.kind = .eof)
    (hMatches : m.Matches c.current) (hKind : m.kind ≠ .eof) : c.Takes [m] c.advance := by
  obtain ⟨rest, stop⟩ := c
  cases rest with
  | nil => exact absurd (hMatches.kind_eq.symm.trans hStop) hKind
  | cons t rest => exact .cons hMatches (.nil _)

/-- Behind a token other than the end token there are fewer tokens. -/
theorem Cursor.length_advance_lt {c : Cursor} (hStop : c.stop.kind = .eof)
    (hKind : c.current.kind ≠ .eof) : c.advance.rest.length < c.rest.length := by
  obtain ⟨rest, stop⟩ := c
  cases rest with
  | nil => exact absurd hStop hKind
  | cons t rest => exact Nat.lt_succ_self rest.length

theorem Cursor.stop_ofTokens (tokens : List Token) : (ofTokens tokens).stop.kind = .eof := by
  unfold ofTokens
  cases hFind : tokens.find? (·.isEof) with
  | none => rfl
  | some t =>
    have hEof : t.isEof = true := List.find?_some hFind
    exact beq_iff_eq.mp hEof

/-- No end token stands among the tokens ahead, so at an end token they are all read. -/
theorem Cursor.rest_eq_nil {tokens before : List Token} {c : Cursor}
    (hRest : (ofTokens tokens).rest = before ++ c.rest) (hKind : c.current.kind = .eof) :
    c.rest = [] := by
  obtain ⟨rest, stop⟩ := c
  cases rest with
  | nil => rfl
  | cons t rest =>
    have hMem : t ∈ tokens.takeWhile (!·.isEof) := by
      show t ∈ (ofTokens tokens).rest
      rw [hRest]
      exact List.mem_append_right before List.mem_cons_self
    have hNot := List.mem_takeWhile_imp hMem
    have hEof : t.isEof = true := beq_iff_eq.mpr hKind
    rw [hEof] at hNot
    cases hNot

namespace Parse

variable {α β : Type} {c c' : Cursor}

@[simp] theorem pure_apply (a : α) : (pure a : Parse α) c = .ok a c := rfl

@[simp] theorem current_bind (f : Token → Parse β) : (current >>= f) c = f c.current c := rfl

@[simp] theorem advance_bind (f : Token → Parse β) :
    (advance >>= f) c = f c.current c.advance := rfl

@[simp] theorem get_bind (f : Cursor → Parse β) : ((get : Parse Cursor) >>= f) c = f c c := rfl

theorem bind_of_ok {p : Parse α} {a : α} (h : p c = .ok a c') (f : α → Parse β) :
    (p >>= f) c = f a c' := by
  show EStateM.bind p f c = _
  rw [EStateM.bind, h]

theorem bind_of_error {p : Parse α} {e : SyntaxError} (h : p c = .error e c') (f : α → Parse β) :
    (p >>= f) c = .error e c' := by
  show EStateM.bind p f c = _
  rw [EStateM.bind, h]

theorem ok_of_bind {p : Parse α} {f : α → Parse β} {b : β} {c'' : Cursor}
    (h : (p >>= f) c = .ok b c'') : ∃ a c', p c = .ok a c' ∧ f a c' = .ok b c'' := by
  cases hp : p c with
  | ok a c' => exact ⟨a, c', rfl, (bind_of_ok hp f).symm.trans h⟩
  | error e c' => cases (bind_of_error hp f).symm.trans h

/-- The operators of one precedence, by their tokens. -/
def Operators (operator? : Token.Kind → Option BinaryOp) (precedence : Nat) : Prop :=
  ∀ kind op, operator? kind = some op ↔ op.precedence = precedence ∧ op.token = kind

theorem operators_of_eq {operator? : Token.Kind → Option BinaryOp} {precedence : Nat}
    (h : ∀ kind, operator? kind =
      (BinaryOp.ofToken? kind).filter (·.precedence == precedence)) :
    Operators operator? precedence := by
  intro kind op
  rw [h, Option.filter_eq_some_iff, BinaryOp.ofToken?_eq_some_iff, beq_iff_eq]
  exact And.comm

theorem operators_equality : Operators equality? 0 :=
  operators_of_eq fun kind => by cases kind <;> rfl

theorem operators_comparison : Operators comparison? 1 :=
  operators_of_eq fun kind => by cases kind <;> rfl

theorem operators_sum : Operators sum? 2 :=
  operators_of_eq fun kind => by cases kind <;> rfl

theorem operators_product : Operators product? 3 :=
  operators_of_eq fun kind => by cases kind <;> rfl

/-! The token at the cursor decides whether a chain goes on, and how an operand or a statement is
read. -/

section chain

variable {operator? : Token.Kind → Option BinaryOp} {operand : Parse Expr}

theorem chainFrom_of_operator {op : BinaryOp} (h : operator? c.current.kind = some op)
    (count : Nat) (left : Expr) :
    chainFrom operator? operand (count + 1) left c =
      (operand >>= fun right => chainFrom operator? operand count (.binary op left right))
        c.advance := by
  rw [chainFrom, current_bind]
  simp only [h, advance_bind]

theorem chainFrom_of_none (h : operator? c.current.kind = none) (count : Nat) (left : Expr) :
    chainFrom operator? operand count left c = .ok left c := by
  cases count with
  | zero => rfl
  | succ count =>
    rw [chainFrom, current_bind]
    simp only [h, pure_apply]

end chain

section items

variable {closes : Token.Kind → Bool} {statement : Parse Stmt}

theorem itemsUpTo_of_closes (h : closes c.current.kind = true) (count : Nat) :
    itemsUpTo closes statement count c = .ok [] c := by
  cases count with
  | zero => rfl
  | succ count =>
    rw [itemsUpTo, current_bind]
    simp only [h, if_true, pure_apply]

theorem itemsUpTo_of_open (h : closes c.current.kind = false) (count : Nat) :
    itemsUpTo closes statement (count + 1) c =
      (itemOf statement >>= fun first => itemsUpTo closes statement count >>= fun others =>
        pure (first :: others)) c := by
  rw [itemsUpTo, current_bind]
  simp only [h, Bool.false_eq_true, if_false]

end items

theorem operandOf_apply (inner negated : Parse Expr) :
    operandOf inner negated c =
      match c.current.kind with
      | .minus => (negated >>= fun e => pure (.unary .neg e)) c.advance
      | .number => literal c.current c.advance
      | .identifier => .ok (.var c.current.lexeme) c.advance
      | .leftParen =>
        (inner >>= fun e => expect .rightParen .parenAfterExpression >>= fun _ =>
          pure (.group e)) c.advance
      | _ => .error (.unexpected c.current .expression) c := by
  rw [operandOf, current_bind]
  cases c.current.kind <;> rfl

theorem statementOf_apply (expression : Parse Expr) (statement : Parse Stmt) :
    statementOf expression statement c =
      match c.current.kind with
      | .printWord => printStatement expression c
      | .inputWord => inputStatement c
      | .ifWord => ifStatement expression statement c
      | .whileWord => whileStatement expression statement c
      | .leftBrace => blockStatement statement c
      | .identifier =>
        if c.nextKind = .equal then assignment expression c else expressionStatement expression c
      | _ => expressionStatement expression c := by
  rw [statementOf, current_bind]
  cases c.current.kind with
  | identifier =>
    simp only [get_bind]
    split <;> rfl
  | _ => rfl

end Parse

end Abacus
