import Abacus.Proofs.Tree.Nesting
import Abacus.Proofs.Tree.Reading

/-! Parsing is complete: tokens that spell a canonical program are read as that program, unless it
is nested too deep; then they are refused at the first token of the leftmost part beyond the limit.

`Reaches` carries both cases through the parsers at once.  It compares the outcome of a parser with
the outcome that is due if no level begins beyond the limit, so each parser needs one lemma. -/

namespace Abacus

namespace Parse

variable {α β : Type} {tokens : List Token} {openings openings' : List Opening} {c c' : Cursor}
  {offset level : Nat}

/-- The outcome is the one that is due, unless one of the openings is beyond the limit: then the
first such opening is refused. -/
def Reaches (tokens : List Token) (openings : List Opening)
    (outcome due : EStateM.Result SyntaxError Cursor α) : Prop :=
  match openings.find? (·.level == nestingLimit + 1) with
  | none => outcome = due
  | some o => ∃ t c, tokens[o.offset]? = some t ∧ outcome = .error (.tooDeep t nestingLimit) c

namespace Reaches

variable {outcome between due : EStateM.Result SyntaxError Cursor α}

theorem of_eq (h : outcome = due) : Reaches tokens [] outcome due := h

theorem append (h : Reaches tokens openings outcome between)
    (h' : Reaches tokens openings' between due) :
    Reaches tokens (openings ++ openings') outcome due := by
  unfold Reaches at h h' ⊢
  rw [List.find?_append]
  cases hFind : openings.find? (·.level == nestingLimit + 1) with
  | none =>
    rw [hFind] at h
    rw [Option.none_or, h]
    exact h'
  | some o =>
    rw [hFind] at h
    exact h

theorem cons (hLevel : level ≤ nestingLimit) (h : Reaches tokens openings outcome due) :
    Reaches tokens (⟨level, offset⟩ :: openings) outcome due := by
  have hNot : (level == nestingLimit + 1) = false := beq_false_of_ne (by omega)
  unfold Reaches
  rw [List.find?_cons_of_neg (by simp [hNot])]
  exact h

theorem bind {p : Parse α} {a : α} (h : Reaches tokens openings (p c) (.ok a c'))
    (f : α → Parse β) : Reaches tokens openings ((p >>= f) c) (f a c') := by
  unfold Reaches at h ⊢
  cases hFind : openings.find? (·.level == nestingLimit + 1) with
  | none =>
    rw [hFind] at h
    exact bind_of_ok h f
  | some o =>
    rw [hFind] at h
    obtain ⟨t, c₁, hToken, hError⟩ := h
    exact ⟨t, c₁, hToken, bind_of_error hError f⟩

theorem bind_eq {p : Parse α} {f : α → Parse β} {a : α}
    {due : EStateM.Result SyntaxError Cursor β}
    (h : Reaches tokens openings (p c) (.ok a c')) (hDue : f a c' = due) :
    Reaches tokens openings ((p >>= f) c) due :=
  hDue ▸ h.bind f

theorem bind_append {p : Parse α} {f : α → Parse β} {a : α}
    {due : EStateM.Result SyntaxError Cursor β}
    (h : Reaches tokens openings (p c) (.ok a c')) (h' : Reaches tokens openings' (f a c') due) :
    Reaches tokens (openings ++ openings') ((p >>= f) c) due :=
  (h.bind f).append h'

end Reaches

/-! ### Spellings ahead -/

/-- The tokens behind the first `offset` begin with a spelling, and the cursor stands before it. -/
structure Ahead (tokens : List Token) (c : Cursor) (offset : Nat) (marks : List Mark)
    (c' : Cursor) : Prop where
  takes : c.Takes marks c'
  rest_eq : c.rest = tokens.drop offset

namespace Ahead

variable {m : Mark} {marks marks' : List Mark}

theorem uncons (h : Ahead tokens c offset (m :: marks) c') :
    m.Matches c.current ∧ Ahead tokens c.advance (offset + 1) marks c' := by
  obtain ⟨hMatches, hTakes⟩ := h.takes.uncons
  refine ⟨hMatches, hTakes, ?_⟩
  rw [← List.tail_drop, ← h.rest_eq]
  rfl

theorem split (h : Ahead tokens c offset (marks ++ marks') c') :
    ∃ c₁, Ahead tokens c offset marks c₁ ∧ Ahead tokens c₁ (offset + marks.length) marks' c' := by
  obtain ⟨c₁, hLeft, hRight⟩ := h.takes.split
  refine ⟨c₁, ⟨hLeft, h.rest_eq⟩, hRight, ?_⟩
  rw [hLeft.rest_eq, h.rest_eq, List.drop_drop]

theorem split_parenthesized (h : Ahead tokens c offset (parenthesized marks ++ marks') c') :
    ∃ c₁, Ahead tokens c offset (parenthesized marks) c₁ ∧
      Ahead tokens c₁ (offset + 1 + marks.length + 1) marks' c' := by
  obtain ⟨c₁, hLeft, hRight⟩ := h.split
  have hLength : offset + (parenthesized marks).length = offset + 1 + marks.length + 1 := by
    simp only [parenthesized, List.length_cons, List.length_append, List.length_nil]
    omega
  exact ⟨c₁, hLeft, hLength ▸ hRight⟩

theorem getElem?_offset (h : Ahead tokens c offset (m :: marks) c') :
    tokens[offset]? = some c.current := by
  have hHead : c.rest[0]? = some c.current := by
    cases h.takes with
    | cons first others => rfl
  rw [h.rest_eq, List.getElem?_drop] at hHead
  exact hHead

theorem kind_current (h : Ahead tokens c offset marks c') (hMarks : marks = m :: marks') :
    c.current.kind = m.kind := by
  subst hMarks
  exact h.uncons.1.kind_eq

theorem eq_of_nil (h : Ahead tokens c offset [] c') : c' = c := by
  cases h.takes with
  | nil => rfl

end Ahead

theorem reaches_tooDeep {m : Mark} {marks : List Mark}
    {due : EStateM.Result SyntaxError Cursor α}
    (h : Ahead tokens c offset (m :: marks) c') :
    Reaches tokens (⟨nestingLimit + 1, offset⟩ :: openings) (tooDeep c) due := by
  unfold Reaches
  rw [List.find?_cons_of_pos (by simp)]
  exact ⟨c.current, c, h.getElem?_offset, rfl⟩

theorem expect_of_matches {kind : Token.Kind} (h : (Mark.word kind).Matches c.current)
    (expected : Expected) : expect kind expected c = .ok c.current c.advance := if_pos h

theorem expectName_of_matches {name : String} (h : (Mark.name name).Matches c.current)
    (expected : Expected) : expectName expected c = .ok name c.advance := by
  have hExpect : expect .identifier expected c = .ok c.current c.advance := if_pos h.1
  rw [expectName, bind_of_ok hExpect, h.2]
  rfl

/-! ### Expressions -/

/-- The parser reads the spellings of canonical expressions of a precedence, where no operator
behind them would go on with them. -/
def Complete (tokens : List Token) (p : Parse Expr) (precedence : Nat)
    (openings : Expr → Nat → List Opening) : Prop :=
  ∀ ⦃e : Expr⦄ ⦃c c' : Cursor⦄ ⦃offset : Nat⦄, Ahead tokens c offset e.marks c' → e.Canonical →
    precedence ≤ e.precedence →
    (∀ op : BinaryOp, op.token = c'.current.kind → op.precedence < precedence) →
    Reaches tokens (openings e offset) (p c) (.ok e c')

section chain

variable {operator? : Token.Kind → Option BinaryOp} {operand : Parse Expr} {precedence : Nat}

/-- A chain reads an expression along its left spine: having read it, the chain goes on as from that
expression, with a count that is still enough for the tokens ahead. -/
theorem reaches_chainFrom (hOperators : Operators operator? precedence)
    (hOperand : Complete tokens operand (precedence + 1) (·.openings level))
    (hPrecedence : precedence < 4) {e : Expr} {c' : Cursor}
    (hAhead : Ahead tokens c offset e.marks c') (hCanonical : e.Canonical)
    (hBinds : precedence ≤ e.precedence)
    (hNext : ∀ op : BinaryOp, op.token = c'.current.kind → op.precedence < precedence + 1) :
    ∃ count, c'.rest.length ≤ count ∧ Reaches tokens (e.openings level offset)
      (chain operator? operand c) (chainFrom operator? operand count e c') := by
  rcases Nat.lt_or_eq_of_le hBinds with hCloser | hSame
  · -- An expression that binds closer is itself the first operand.
    exact ⟨c'.rest.length, Nat.le_refl _, (hOperand hAhead hCanonical hCloser hNext).bind _⟩
  match e, hAhead, hCanonical, hSame with
  | .binary op left right, hAhead, ⟨hLeft, hRight, hCanonicalLeft, hCanonicalRight⟩, hSame =>
    have hSame : precedence = op.precedence := hSame
    obtain ⟨c₁, hAheadLeft, hAheadOp⟩ := hAhead.split
    obtain ⟨hToken, hAheadRight⟩ := hAheadOp.uncons
    have hToken : c₁.current.kind = op.token := hToken
    have hNextOp : ∀ op' : BinaryOp, op'.token = c₁.current.kind →
        op'.precedence < precedence + 1 := by
      intro op' h
      rw [BinaryOp.token_injective (h.trans hToken), hSame]
      exact Nat.lt_succ_self _
    obtain ⟨count, hCount, hReaches⟩ := reaches_chainFrom hOperators hOperand hPrecedence hAheadLeft
      hCanonicalLeft (hSame ▸ hLeft) hNextOp
    -- The count covers the operator and what is behind it.
    have hLength := hAheadOp.takes.length_rest
    simp only [List.length_cons] at hLength
    obtain ⟨count, rfl⟩ : ∃ n, count = n + 1 := ⟨count - 1, by omega⟩
    have hOp : operator? c₁.current.kind = some op :=
      (hOperators _ _).mpr ⟨hSame.symm, hToken.symm⟩
    refine ⟨count, by omega, hReaches.append ?_⟩
    rw [chainFrom_of_operator hOp]
    exact (hOperand hAheadRight hCanonicalRight (hSame ▸ hRight) hNext).bind _
  | .literal _, _, _, hSame | .var _, _, _, hSame | .group _, _, _, hSame
  | .unary _ _, _, _, hSame =>
    simp only [Expr.precedence] at hSame
    omega

theorem complete_chain (hOperators : Operators operator? precedence)
    (hOperand : Complete tokens operand (precedence + 1) (·.openings level))
    (hPrecedence : precedence < 4) :
    Complete tokens (chain operator? operand) precedence (·.openings level) := by
  intro e c c' offset hAhead hCanonical hBinds hNext
  obtain ⟨count, -, hReaches⟩ := reaches_chainFrom hOperators hOperand hPrecedence hAhead
    hCanonical hBinds fun op h => Nat.lt_succ_of_lt (hNext op h)
  have hNone : operator? c'.current.kind = none := by
    cases hOp : operator? c'.current.kind with
    | none => rfl
    | some op =>
      obtain ⟨hSame, hToken⟩ := (hOperators _ _).mp hOp
      exact absurd (hNext op hToken) (by omega)
  rwa [chainFrom_of_none hNone] at hReaches

end chain

theorem complete_expressionOf {operand : Parse Expr}
    (h : Complete tokens operand 4 (·.openings level)) :
    Complete tokens (expressionOf operand) 0 (·.openings level) :=
  have hProduct := complete_chain operators_product h (by decide)
  have hSum := complete_chain operators_sum hProduct (by decide)
  have hComparison := complete_chain operators_comparison hSum (by decide)
  complete_chain operators_equality hComparison (by decide)

/-- An expression with a token behind it that cannot go on with the expression. -/
theorem reaches_closed {p : Parse Expr} {openings : Expr → Nat → List Opening}
    {closing : Token.Kind} {e : Expr} (hComplete : Complete tokens p 0 openings)
    (hClosing : ∀ op : BinaryOp, op.token ≠ closing)
    (hAhead : Ahead tokens c offset (e.marks ++ [.word closing]) c') (hCanonical : e.Canonical)
    (expected : Expected) (f : Expr → α) :
    Reaches tokens (openings e offset)
      ((do
        let value ← p
        let _ ← expect closing expected
        return f value : Parse α) c) (.ok (f e) c') := by
  obtain ⟨c₁, hAheadExpr, hAheadClose⟩ := hAhead.split
  obtain ⟨hKind, hNil⟩ := hAheadClose.uncons
  refine .bind_eq (hComplete hAheadExpr hCanonical (Nat.zero_le _) fun op h =>
    absurd (h.trans hKind) (hClosing op)) ?_
  rw [bind_of_ok (expect_of_matches hKind expected), hNil.eq_of_nil]
  rfl

/-- The openings of a part that is one level down, its own included. -/
abbrev nestedOpenings (level : Nat) (e : Expr) (offset : Nat) : List Opening :=
  ⟨level + 1, offset⟩ :: e.openings (level + 1) offset

theorem complete_operandOf {inner negated : Parse Expr}
    (hInner : Complete tokens inner 0 (nestedOpenings level))
    (hNegated : Complete tokens negated 4 (nestedOpenings level)) :
    Complete tokens (operandOf inner negated) 4 (·.openings level) := by
  intro e c c' offset hAhead hCanonical hBinds hNext
  rw [operandOf_apply]
  match e with
  | .literal value =>
    obtain ⟨⟨hKind, hValue⟩, hNil⟩ := hAhead.uncons
    rw [hKind, hNil.eq_of_nil]
    simp only [literal, hValue]
    exact .of_eq rfl
  | .var name =>
    obtain ⟨⟨hKind, hName⟩, hNil⟩ := hAhead.uncons
    rw [hKind, hNil.eq_of_nil]
    simp only [hName]
    exact .of_eq rfl
  | .group inner =>
    obtain ⟨hKind, hAheadRest⟩ := hAhead.uncons
    rw [show c.current.kind = .leftParen from hKind]
    exact reaches_closed hInner BinaryOp.token_ne_rightParen hAheadRest hCanonical _ _
  | .unary op operand =>
    obtain ⟨rfl, hBindsOperand, hCanonicalOperand⟩ := hCanonical
    obtain ⟨hKind, hAheadOperand⟩ := hAhead.uncons
    rw [show c.current.kind = .minus from hKind]
    exact (hNegated hAheadOperand hCanonicalOperand hBindsOperand hNext).bind _
  | .binary op left right =>
    cases op <;> simp [Expr.precedence, BinaryOp.precedence] at hBinds

/-- Beyond the limit a part is refused, and within it a part is read. -/
theorem complete_tooDeep {precedence : Nat} :
    Complete tokens tooDeep precedence (nestedOpenings nestingLimit) := by
  intro e c c' offset hAhead hCanonical _ _
  obtain ⟨m, marks, hMarks, -⟩ := Expr.exists_marks hCanonical
  exact reaches_tooDeep (hMarks ▸ hAhead)

theorem Complete.nested {p : Parse Expr} {precedence : Nat}
    (h : Complete tokens p precedence (·.openings (level + 1)))
    (hLevel : level + 1 ≤ nestingLimit) :
    Complete tokens p precedence (nestedOpenings level) := by
  intro e c c' offset hAhead hCanonical hBinds hNext
  exact (h hAhead hCanonical hBinds hNext).cons hLevel

theorem complete_operand (levels level : Nat) (hLevel : level + levels = nestingLimit) :
    Complete tokens (operand levels) 4 (·.openings level) := by
  induction levels generalizing level with
  | zero =>
    obtain rfl : level = nestingLimit := hLevel
    exact complete_operandOf complete_tooDeep complete_tooDeep
  | succ levels ih =>
    have hOperand := ih (level + 1) (by omega)
    exact complete_operandOf ((complete_expressionOf hOperand).nested (by omega))
      (hOperand.nested (by omega))

theorem complete_expression (levels level : Nat) (hLevel : level + levels = nestingLimit) :
    Complete tokens (expression levels) 0 (·.openings level) :=
  complete_expressionOf (complete_operand levels level hLevel)

/-! ### Statements -/

/-- The parser reads the spellings of canonical statements, where no `else` behind them would go on
with them. -/
def CompleteStatement (tokens : List Token) (p : Parse Stmt) (level : Nat) : Prop :=
  ∀ ⦃s : Stmt⦄ ⦃c c' : Cursor⦄ ⦃offset : Nat⦄, Ahead tokens c offset s.marks c' → s.Canonical →
    s.isDeclare = false → (s.endsInIfThen = true → c'.current.kind ≠ .elseWord) →
    Reaches tokens (s.openings level offset) (p c) (.ok s c')

section statement

variable {expression : Parse Expr} {statement : Parse Stmt}

theorem reaches_condition (hExpression : Complete tokens expression 0 (·.openings level))
    {test : Expr} (hAhead : Ahead tokens c offset (parenthesized test.marks) c')
    (hCanonical : test.Canonical) (opening : Expected) :
    Reaches tokens (test.openings level (offset + 1)) (condition expression opening c)
      (.ok test c') := by
  obtain ⟨hOpen, hAheadTest⟩ := hAhead.uncons
  rw [condition, bind_of_ok (expect_of_matches hOpen opening)]
  exact reaches_closed hExpression BinaryOp.token_ne_rightParen hAheadTest hCanonical _ id

theorem declaration_of_ahead {type : VarType} {name : String}
    (hAhead : Ahead tokens c offset (Stmt.declare type name).marks c') :
    declaration c = .ok (.declare type name) c' := by
  obtain ⟨hType, hAheadRest⟩ := hAhead.uncons
  obtain ⟨hName, hAheadClose⟩ := hAheadRest.uncons
  obtain ⟨hClose, hNil⟩ := hAheadClose.uncons
  rw [declaration, advance_bind, show c.current.kind = type.token from hType,
    bind_of_ok (expectName_of_matches hName _), bind_of_ok (expect_of_matches hClose _),
    hNil.eq_of_nil]
  cases type <;> rfl

theorem reaches_itemOf (hStatement : CompleteStatement tokens statement level) {s : Stmt}
    (hAhead : Ahead tokens c offset s.marks c') (hCanonical : s.Canonical)
    (hElse : s.endsInIfThen = true → c'.current.kind ≠ .elseWord) :
    Reaches tokens (s.openings level offset) (itemOf statement c) (.ok s c') := by
  obtain ⟨m, marks, hMarks, -, hType⟩ := Stmt.exists_marks hCanonical
  rw [itemOf, current_bind, hAhead.kind_current hMarks, hType]
  cases hDeclare : s.isDeclare with
  | false => exact hStatement hAhead hCanonical hDeclare hElse
  | true =>
    cases s with
    | declare type name => exact .of_eq (declaration_of_ahead hAhead)
    | _ => cases hDeclare

/-- No `else` stands before the items that are left, nor where they are closed. -/
theorem current_ne_elseWord {closes : Token.Kind → Bool} {body : List Stmt}
    (hElse : closes .elseWord = false) (hAhead : Ahead tokens c offset (marksOfAll body) c')
    (hCanonical : canonicalAll body) (hCloses : closes c'.current.kind = true) :
    c.current.kind ≠ .elseWord := by
  intro hKind
  cases body with
  | nil =>
    rw [hAhead.eq_of_nil, hKind, hElse] at hCloses
    cases hCloses
  | cons first rest =>
    obtain ⟨m, marks, hMarks, hStarts, -⟩ := Stmt.exists_marks hCanonical.1
    obtain ⟨c₁, hAheadFirst, -⟩ := hAhead.split
    rw [← hAheadFirst.kind_current hMarks, hKind] at hStarts
    cases hStarts

theorem reaches_itemsUpTo (hStatement : CompleteStatement tokens statement level)
    {closes : Token.Kind → Bool} (hStarts : ∀ kind, kind.startsStmt = true → closes kind = false)
    (hElse : closes .elseWord = false) {body : List Stmt} {count : Nat}
    (hAhead : Ahead tokens c offset (marksOfAll body) c') (hCanonical : canonicalAll body)
    (hCloses : closes c'.current.kind = true) (hCount : c.rest.length ≤ count) :
    Reaches tokens (openingsOfAll body level offset) (itemsUpTo closes statement count c)
      (.ok body c') := by
  induction body generalizing c offset count with
  | nil =>
    have hSame := hAhead.eq_of_nil
    subst hSame
    cases count with
    | zero => exact .of_eq rfl
    | succ count =>
      rw [itemsUpTo, current_bind, hCloses]
      exact .of_eq rfl
  | cons first rest ih =>
    obtain ⟨hCanonicalFirst, hCanonicalRest⟩ := hCanonical
    obtain ⟨c₁, hAheadFirst, hAheadRest⟩ := hAhead.split
    obtain ⟨m, marks, hMarks, hKind, -⟩ := Stmt.exists_marks hCanonicalFirst
    have hOpen : closes c.current.kind = false :=
      hStarts _ (hAheadFirst.kind_current hMarks ▸ hKind)
    have hLength := hAheadFirst.takes.length_rest
    rw [hMarks, List.length_cons] at hLength
    obtain ⟨count, rfl⟩ : ∃ n, count = n + 1 := ⟨count - 1, by omega⟩
    have hReachesRest := ih hAheadRest hCanonicalRest (show c₁.rest.length ≤ count by omega)
    rw [itemsUpTo, current_bind, hOpen]
    exact .bind_append (reaches_itemOf hStatement hAheadFirst hCanonicalFirst fun _ =>
      current_ne_elseWord hElse hAheadRest hCanonicalRest hCloses) (hReachesRest.bind _)

theorem reaches_items (hStatement : CompleteStatement tokens statement level)
    {closes : Token.Kind → Bool} (hStarts : ∀ kind, kind.startsStmt = true → closes kind = false)
    (hElse : closes .elseWord = false) {body : List Stmt}
    (hAhead : Ahead tokens c offset (marksOfAll body) c') (hCanonical : canonicalAll body)
    (hCloses : closes c'.current.kind = true) :
    Reaches tokens (openingsOfAll body level offset) (items closes statement c) (.ok body c') := by
  rw [items, get_bind]
  exact reaches_itemsUpTo hStatement hStarts hElse hAhead hCanonical hCloses (Nat.le_refl _)

theorem reaches_ifThen (hExpression : Complete tokens expression 0 (·.openings level))
    (hStatement : CompleteStatement tokens statement level) {test : Expr} {body : Stmt}
    (hAhead : Ahead tokens c offset (Stmt.ifThen test body).marks c')
    (hCanonical : (Stmt.ifThen test body).Canonical) (hElse : c'.current.kind ≠ .elseWord) :
    Reaches tokens
      (test.openings level (offset + 2) ++
        body.openings level (offset + 2 + test.marks.length + 1))
      (ifStatement expression statement c) (.ok (.ifThen test body) c') := by
  obtain ⟨hTest, hDeclare, hBody⟩ := hCanonical
  obtain ⟨c₁, hAheadTest, hAheadBody⟩ := hAhead.uncons.2.split_parenthesized
  rw [ifStatement, advance_bind]
  refine .bind_append (reaches_condition hExpression hAheadTest hTest _) ?_
  refine .bind_eq (hStatement hAheadBody hBody hDeclare fun _ => hElse) ?_
  rw [current_bind, if_neg hElse]
  rfl

theorem reaches_ifElse (hExpression : Complete tokens expression 0 (·.openings level))
    (hStatement : CompleteStatement tokens statement level) {test : Expr} {body otherwise : Stmt}
    (hAhead : Ahead tokens c offset (Stmt.ifElse test body otherwise).marks c')
    (hCanonical : (Stmt.ifElse test body otherwise).Canonical)
    (hElse : otherwise.endsInIfThen = true → c'.current.kind ≠ .elseWord) :
    Reaches tokens
      (test.openings level (offset + 2) ++
        (body.openings level (offset + 2 + test.marks.length + 1) ++
          otherwise.openings level
            (offset + 2 + test.marks.length + 1 + body.marks.length + 1)))
      (ifStatement expression statement c) (.ok (.ifElse test body otherwise) c') := by
  obtain ⟨hTest, hDeclare, hBody, hOpen, hDeclareOther, hOtherwise⟩ := hCanonical
  obtain ⟨c₁, hAheadTest, hAheadRest⟩ := hAhead.uncons.2.split_parenthesized
  obtain ⟨c₂, hAheadBody, hAheadElse⟩ := hAheadRest.split
  obtain ⟨hElseKind, hAheadOther⟩ := hAheadElse.uncons
  have hElseKind : c₂.current.kind = .elseWord := hElseKind
  rw [ifStatement, advance_bind]
  refine .bind_append (reaches_condition hExpression hAheadTest hTest _) ?_
  refine .bind_append (hStatement hAheadBody hBody hDeclare fun h => ?_) ?_
  · rw [hOpen] at h
    cases h
  rw [current_bind, if_pos hElseKind, advance_bind]
  exact (hStatement hAheadOther hOtherwise hDeclareOther hElse).bind _

theorem reaches_loop (hExpression : Complete tokens expression 0 (·.openings level))
    (hStatement : CompleteStatement tokens statement level) {test : Expr} {body : Stmt}
    (hAhead : Ahead tokens c offset (Stmt.loop test body).marks c')
    (hCanonical : (Stmt.loop test body).Canonical)
    (hElse : body.endsInIfThen = true → c'.current.kind ≠ .elseWord) :
    Reaches tokens
      (test.openings level (offset + 2) ++
        body.openings level (offset + 2 + test.marks.length + 1))
      (whileStatement expression statement c) (.ok (.loop test body) c') := by
  obtain ⟨hTest, hDeclare, hBody⟩ := hCanonical
  obtain ⟨c₁, hAheadTest, hAheadBody⟩ := hAhead.uncons.2.split_parenthesized
  rw [whileStatement, advance_bind]
  exact .bind_append (reaches_condition hExpression hAheadTest hTest _)
    ((hStatement hAheadBody hBody hDeclare hElse).bind _)

theorem reaches_block (hStatement : CompleteStatement tokens statement level) {body : List Stmt}
    (hAhead : Ahead tokens c offset (Stmt.block body).marks c') (hCanonical : canonicalAll body) :
    Reaches tokens (openingsOfAll body level (offset + 1)) (blockStatement statement c)
      (.ok (.block body) c') := by
  obtain ⟨c₁, hAheadBody, hAheadClose⟩ := hAhead.uncons.2.split
  obtain ⟨hClose, hNil⟩ := hAheadClose.uncons
  have hClose : c₁.current.kind = .rightBrace := hClose
  rw [blockStatement, advance_bind]
  have hStarts : ∀ kind : Token.Kind, kind.startsStmt = true →
      (kind == .rightBrace || kind == .eof) = false := by
    intro kind
    cases kind <;> decide
  refine .bind_eq (reaches_items hStatement hStarts rfl hAheadBody hCanonical ?_) ?_
  · rw [hClose]
    rfl
  · rw [bind_of_ok (expect_of_matches hClose _), hNil.eq_of_nil]
    rfl

theorem nextKind_ne_equal {value : Expr}
    (hAhead : Ahead tokens c offset (Stmt.discard value).marks c') (hCanonical : value.Canonical) :
    c.nextKind ≠ .equal := by
  have hKinds : ∀ m ∈ (Stmt.discard value).marks, m.kind ≠ .equal := by
    refine List.forall_mem_append.mpr ⟨fun m hMem hKind => ?_, List.forall_mem_singleton.mpr nofun⟩
    have hExpr := value.inExpr_marks m hMem
    rw [hKind] at hExpr
    cases hExpr
  obtain ⟨m, marks, hMarks, -⟩ := Expr.exists_marks hCanonical
  have hAll : (Stmt.discard value).marks = m :: (marks ++ [.word .semicolon]) := by
    rw [Stmt.marks, hMarks, List.cons_append]
  rw [hAll] at hAhead hKinds
  obtain ⟨m', marks', hTail⟩ : ∃ m' marks', marks ++ [.word .semicolon] = m' :: marks' :=
    List.exists_cons_of_ne_nil (by simp)
  have hNext : c.nextKind = m'.kind := hAhead.uncons.2.kind_current hTail
  rw [hNext]
  exact hKinds m' (by simp [hTail])

theorem statementOf_of_startsExpr (hKind : c.current.kind.startsExpr = true)
    (hNext : c.nextKind ≠ .equal) :
    statementOf expression statement c = expressionStatement expression c := by
  rw [statementOf_apply, if_neg hNext]
  revert hKind
  cases c.current.kind <;> first | exact fun _ => rfl | nofun

theorem complete_statementOf
    (hExpression : Complete tokens expression 0 (·.openings (level + 1)))
    (hStatement : CompleteStatement tokens statement (level + 1))
    (hLevel : level + 1 ≤ nestingLimit) :
    CompleteStatement tokens (statementOf expression statement) level := by
  intro s c c' offset hAhead hCanonical hDeclare hElse
  match s with
  | .declare type name => cases hDeclare
  | .print value =>
    obtain ⟨hKind, hAheadValue⟩ := hAhead.uncons
    rw [statementOf_apply, show c.current.kind = .printWord from hKind]
    exact .cons hLevel
      (reaches_closed hExpression BinaryOp.token_ne_semicolon hAheadValue hCanonical _ _)
  | .input name =>
    obtain ⟨hKind, hAheadName⟩ := hAhead.uncons
    obtain ⟨hName, hAheadClose⟩ := hAheadName.uncons
    obtain ⟨hClose, hNil⟩ := hAheadClose.uncons
    rw [statementOf_apply, show c.current.kind = .inputWord from hKind]
    refine .cons hLevel (.of_eq ?_)
    dsimp only
    rw [inputStatement, advance_bind, bind_of_ok (expectName_of_matches hName _),
      bind_of_ok (expect_of_matches hClose _), hNil.eq_of_nil]
    rfl
  | .assign name value =>
    obtain ⟨hName, hAheadEqual⟩ := hAhead.uncons
    obtain ⟨hEqual, hAheadValue⟩ := hAheadEqual.uncons
    rw [statementOf_apply, show c.current.kind = .identifier from hName.1]
    dsimp only
    rw [if_pos (show c.nextKind = .equal from hEqual), assignment,
      bind_of_ok (expectName_of_matches hName _), bind_of_ok (expect_of_matches hEqual _)]
    exact .cons hLevel
      (reaches_closed hExpression BinaryOp.token_ne_semicolon hAheadValue hCanonical _ _)
  | .discard value =>
    obtain ⟨c₁, hAheadValue, -⟩ := hAhead.split
    obtain ⟨m, marks, hMarks, hStarts⟩ := Expr.exists_marks hCanonical
    have hKind : c.current.kind.startsExpr = true := hAheadValue.kind_current hMarks ▸ hStarts
    rw [statementOf_of_startsExpr hKind (nextKind_ne_equal hAhead hCanonical)]
    exact .cons hLevel
      (reaches_closed hExpression BinaryOp.token_ne_semicolon hAhead hCanonical _ _)
  | .block body =>
    rw [statementOf_apply, show c.current.kind = .leftBrace from hAhead.uncons.1]
    exact .cons hLevel (reaches_block hStatement hAhead hCanonical)
  | .ifThen test body =>
    rw [statementOf_apply, show c.current.kind = .ifWord from hAhead.uncons.1]
    exact .cons hLevel (reaches_ifThen hExpression hStatement hAhead hCanonical (hElse rfl))
  | .ifElse test body otherwise =>
    rw [statementOf_apply, show c.current.kind = .ifWord from hAhead.uncons.1]
    exact .cons hLevel (reaches_ifElse hExpression hStatement hAhead hCanonical hElse)
  | .loop test body =>
    rw [statementOf_apply, show c.current.kind = .whileWord from hAhead.uncons.1]
    exact .cons hLevel (reaches_loop hExpression hStatement hAhead hCanonical hElse)

theorem complete_statement (levels level : Nat) (hLevel : level + levels = nestingLimit) :
    CompleteStatement tokens (Parse.statement levels) level := by
  induction levels generalizing level with
  | zero =>
    obtain rfl : level = nestingLimit := hLevel
    intro s c c' offset hAhead hCanonical hDeclare _
    obtain ⟨m, marks, hMarks, -⟩ := Stmt.exists_marks hCanonical
    rw [hMarks] at hAhead
    cases s with
    | declare type name => cases hDeclare
    | _ => exact reaches_tooDeep hAhead
  | succ levels ih =>
    exact complete_statementOf (complete_expression levels (level + 1) (by omega))
      (ih (level + 1) (by omega)) (by omega)

end statement

end Parse

theorem Cursor.ofTokens_append {before after : List Token} {e : Token}
    (hBefore : ∀ t ∈ before, t.isEof = false) (hEnd : e.isEof = true) :
    ofTokens (before ++ e :: after) = ⟨before, e⟩ := by
  have hRest : (before ++ e :: after).takeWhile (!·.isEof) = before := by
    rw [List.takeWhile_append_of_pos (by simpa using hBefore)]
    simp [hEnd]
  have hFind : (before ++ e :: after).find? (·.isEof) = some e := by
    rw [List.find?_append, List.find?_eq_none.mpr (by simpa using hBefore)]
    simp [hEnd]
  rw [ofTokens, hRest, hFind, Option.getD_some]

/-- The parser of programs, at the start of tokens that spell one. -/
theorem Parse.reaches_program {p : Program} {tokens : List Token} {e : Token}
    (hCanonical : p.Canonical) (hSpells : Spells p.marks tokens) (hEnd : e.isEof = true) :
    Reaches tokens p.openings (program ⟨tokens, e⟩) (.ok p ⟨[], e⟩) := by
  have hTakes := Cursor.Takes.of_spells hSpells [] e
  rw [List.append_nil] at hTakes
  have hStarts : ∀ kind : Token.Kind, kind.startsStmt = true → (kind == .eof) = false := by
    intro kind
    cases kind <;> decide
  exact reaches_items (complete_statement nestingLimit 0 (Nat.zero_add _)) hStarts rfl
    ⟨hTakes, rfl⟩ hCanonical hEnd

/-- Tokens that spell a canonical program are read as that program, if it is nested at most 128
levels deep.  Otherwise they are refused at the first token of the leftmost part on level 129. -/
theorem ofTokens_of_spells {p : Program} {tokens after : List Token} {e : Token}
    (hCanonical : p.Canonical) (hSpells : Spells p.marks tokens) (hEnd : e.isEof = true) :
    (p.nesting ≤ 128 → Program.ofTokens (tokens ++ e :: after) = .ok p) ∧
    (128 < p.nesting → ∃ offset t, ⟨129, offset⟩ ∈ p.openings ∧
      (∀ offset', ⟨129, offset'⟩ ∈ p.openings → offset ≤ offset') ∧
      tokens[offset]? = some t ∧
      Program.ofTokens (tokens ++ e :: after) = .error (.tooDeep t 128)) := by
  have hReaches := Parse.reaches_program hCanonical hSpells hEnd
  have hCursor : Cursor.ofTokens (tokens ++ e :: after) = ⟨tokens, e⟩ :=
    Cursor.ofTokens_append (hSpells.isEof_eq_false (kind_ne_eof_of_all p)) hEnd
  constructor
  · intro (hShallow : p.nesting ≤ Parse.nestingLimit)
    rw [Parse.Reaches, Program.find?_openings_eq_none_iff.mpr hShallow] at hReaches
    rw [Program.ofTokens, hCursor, hReaches]
  · intro (hDeep : Parse.nestingLimit < p.nesting)
    obtain ⟨o, hFind⟩ := Option.ne_none_iff_exists'.mp
      (mt Program.find?_openings_eq_none_iff.mp (Nat.not_le.mpr hDeep))
    obtain ⟨hMem, hLeftmost⟩ := Program.leftmost_of_find? hFind
    rw [Parse.Reaches, hFind] at hReaches
    obtain ⟨t, c, hToken, hError⟩ := hReaches
    refine ⟨o.offset, t, hMem, hLeftmost, hToken, ?_⟩
    rw [Program.ofTokens, hCursor, hError]
    rfl

/-- `x` behind a number of minus signs. -/
def minuses : Nat → Expr
  | 0 => .var "x"
  | n + 1 => .unary .neg (minuses n)

/-- `if (x) print 2 - --x; else y;`, with the given number of signs before the second `x`. -/
def branching (n : Nat) : Program :=
  [.ifElse (.var "x") (.print (.binary .sub (.literal 2) (minuses n))) (.discard (.var "y"))]

def branchingTokens (n : Nat) : List Token :=
  let token (kind : Token.Kind) (lexeme : String) : Token := ⟨kind, lexeme, ⟨0, 0⟩⟩
  [token .ifWord "if", token .leftParen "(", token .identifier "x", token .rightParen ")",
    token .printWord "print", token .number "2", token .minus "-"] ++
  List.replicate n (token .minus "-") ++
  [token .identifier "x", token .semicolon ";", token .elseWord "else", token .identifier "y",
    token .semicolon ";"]

theorem ofTokens_of_spells_branching :
    Program.ofTokens (branchingTokens 126 ++ [⟨.eof, "", ⟨0, 0⟩⟩]) = .ok (branching 126) ∧
    ∃ offset t, ⟨129, offset⟩ ∈ (branching 127).openings ∧
      (∀ offset', ⟨129, offset'⟩ ∈ (branching 127).openings → offset ≤ offset') ∧
      (branchingTokens 127)[offset]? = some t ∧
      Program.ofTokens (branchingTokens 127 ++ [⟨.eof, "", ⟨0, 0⟩⟩]) = .error (.tooDeep t 128) := by
  have hValue : Number.read? "2" = some 2 := by decide +kernel
  constructor
  · refine (ofTokens_of_spells ?_ ?_ rfl).1 (by decide +kernel)
    · repeat' constructor
    · repeat' first | exact hValue | constructor
  · refine (ofTokens_of_spells ?_ ?_ rfl).2 (by decide +kernel)
    · repeat' constructor
    · repeat' first | exact hValue | constructor

end Abacus
