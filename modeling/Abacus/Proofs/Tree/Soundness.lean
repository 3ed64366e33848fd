import Abacus.Proofs.Tree.Nesting
import Abacus.Proofs.Tree.Reading

/-! Parsing is sound: a program that is read from tokens is spelled by them, is canonical, and is
nested within the limit.

Each parser takes the parsers of its parts as arguments, so each has one lemma that says what is
known of its result when the same is known of the results of the parts.  The depth of nesting is
bounded by recursion on the levels that are left, as in `operand` and `statement`. -/

namespace Abacus

/-- What is known of an expression that was read: its shape, how close it binds, and that it has
less than a bound of levels. -/
structure Expr.Fits (precedence bound : Nat) (e : Expr) : Prop where
  canonical : e.Canonical
  binds : precedence ≤ e.precedence
  shallow : e.nesting < bound

/-- What is known of a statement that was read up to a cursor.  If an `else` stands there, the
statement could not have taken it. -/
structure Stmt.Fits (bound : Nat) (s : Stmt) (c : Cursor) : Prop where
  canonical : s.Canonical
  shallow : s.nesting < bound
  closed : s.endsInIfThen = true → c.current.kind ≠ .elseWord

namespace Parse

variable {α : Type} {c c' : Cursor} {bound : Nat}

/-- A successful parser takes the spelling of its result, which is as it should be. -/
def Sound (p : Parse α) (marks : α → List Mark) (Good : α → Cursor → Prop) : Prop :=
  ∀ ⦃c : Cursor⦄ ⦃a : α⦄ ⦃c' : Cursor⦄, p c = .ok a c' → c.stop.kind = .eof →
    c.Takes (marks a) c' ∧ Good a c'

abbrev SoundExpr (p : Parse Expr) (precedence bound : Nat) : Prop :=
  Sound p Expr.marks fun e _ => e.Fits precedence bound

/-- Declarations have a parser of their own. -/
abbrev SoundStatement (p : Parse Stmt) (bound : Nat) : Prop :=
  Sound p Stmt.marks fun s c => s.Fits bound c ∧ s.isDeclare = false

theorem sound_tooDeep {marks : α → List Mark} {Good : α → Cursor → Prop} :
    Sound tooDeep marks Good := by
  intro c a c' h
  cases h

theorem ok_expect {kind : Token.Kind} {expected : Expected} {t : Token}
    (h : expect kind expected c = .ok t c') :
    c.current.kind = kind ∧ t = c.current ∧ c' = c.advance := by
  unfold expect at h
  split at h
  next hCurrent =>
    cases h
    exact ⟨hCurrent, rfl, rfl⟩
  next => cases h

theorem takes_expect {kind : Token.Kind} {expected : Expected} {t : Token}
    (h : expect kind expected c = .ok t c') (hStop : c.stop.kind = .eof) (hKind : kind ≠ .eof) :
    c.Takes [.word kind] c' := by
  obtain ⟨hCurrent, -, rfl⟩ := ok_expect h
  exact Cursor.takes_advance hStop hCurrent hKind

theorem takes_expectName {expected : Expected} {name : String}
    (h : expectName expected c = .ok name c') (hStop : c.stop.kind = .eof) :
    c.Takes [.name name] c' := by
  obtain ⟨t, c₁, hExpect, hName⟩ := ok_of_bind h
  obtain ⟨hCurrent, rfl, rfl⟩ := ok_expect hExpect
  cases hName
  exact Cursor.takes_advance hStop ⟨hCurrent, rfl⟩ nofun

/-! ### Expressions -/

section chain

variable {operator? : Token.Kind → Option BinaryOp} {operand : Parse Expr} {precedence : Nat}

/-- A chain extends the expression on its left: the operands behind it bind closer than its
operators, and the expression so far binds no less close. -/
theorem takes_chainFrom (hOperators : Operators operator? precedence)
    (hOperand : SoundExpr operand (precedence + 1) bound)
    {count : Nat} {left e : Expr} {start : Cursor} (hStop : start.stop.kind = .eof)
    (hLeft : left.Fits precedence bound) (hTakes : start.Takes left.marks c)
    (h : chainFrom operator? operand count left c = .ok e c') :
    start.Takes e.marks c' ∧ e.Fits precedence bound := by
  induction count generalizing left c with
  | zero =>
    cases h
    exact ⟨hTakes, hLeft⟩
  | succ count ih =>
    rw [chainFrom, current_bind] at h
    cases hOp : operator? c.current.kind with
    | none =>
      rw [hOp] at h
      cases h
      exact ⟨hTakes, hLeft⟩
    | some op =>
      simp only [hOp, advance_bind] at h
      obtain ⟨hPrecedence, hToken⟩ := (hOperators _ _).mp hOp
      have hStop' : c.stop.kind = .eof := by rw [hTakes.stop_eq, hStop]
      obtain ⟨right, c₁, hRight, hRest⟩ := ok_of_bind h
      obtain ⟨hTakesRight, hFits⟩ := hOperand hRight hStop'
      have hTakesOp : c.Takes [.word op.token] c.advance :=
        Cursor.takes_advance hStop' hToken.symm op.token_ne_eof
      have hTakesAll : start.Takes (Expr.binary op left right).marks c₁ :=
        hTakes.append (hTakesOp.append hTakesRight)
      refine ih ⟨?_, ?_, ?_⟩ hTakesAll hRest
      · exact ⟨hPrecedence ▸ hLeft.binds, hPrecedence ▸ hFits.binds, hLeft.canonical,
          hFits.canonical⟩
      · exact Nat.le_of_eq hPrecedence.symm
      · exact Nat.max_lt.mpr ⟨hLeft.shallow, hFits.shallow⟩

theorem sound_chain (hOperators : Operators operator? precedence)
    (hOperand : SoundExpr operand (precedence + 1) bound) :
    SoundExpr (chain operator? operand) precedence bound := by
  intro c e c' h hStop
  obtain ⟨left, c₁, hLeft, hRest⟩ := ok_of_bind h
  obtain ⟨hTakes, hFits⟩ := hOperand hLeft hStop
  exact takes_chainFrom hOperators hOperand hStop
    ⟨hFits.canonical, Nat.le_of_succ_le hFits.binds, hFits.shallow⟩ hTakes hRest

end chain

/-- An expression with a token behind it. -/
theorem takes_closed {p : Parse Expr} {precedence : Nat} {closing : Token.Kind}
    {expected : Expected} {f : Expr → α} {a : α} (hSound : SoundExpr p precedence bound)
    (h : (do
      let value ← p
      let _ ← expect closing expected
      return f value : Parse α) c = .ok a c')
    (hStop : c.stop.kind = .eof) (hClosing : closing ≠ .eof) :
    ∃ e : Expr, a = f e ∧ c.Takes (e.marks ++ [.word closing]) c' ∧ e.Fits precedence bound := by
  obtain ⟨e, c₁, hValue, h⟩ := ok_of_bind h
  obtain ⟨_, c₂, hClose, h⟩ := ok_of_bind h
  cases h
  obtain ⟨hTakes, hFits⟩ := hSound hValue hStop
  have hTakesClose := takes_expect hClose (hTakes.ended hStop) hClosing
  exact ⟨e, rfl, hTakes.append hTakesClose, hFits⟩

theorem sound_expressionOf {operand : Parse Expr}
    (h : SoundExpr operand 4 bound) : SoundExpr (expressionOf operand) 0 bound :=
  sound_chain operators_equality <| sound_chain operators_comparison <|
    sound_chain operators_sum <| sound_chain operators_product h

theorem sound_operandOf {inner negated : Parse Expr}
    (hInner : SoundExpr inner 0 bound) (hNegated : SoundExpr negated 4 bound) :
    SoundExpr (operandOf inner negated) 4 (bound + 1) := by
  intro c e c' h hStop
  rw [operandOf_apply] at h
  split at h
  case h_1 hKind =>
    obtain ⟨operand, c₁, hOperand, hPure⟩ := ok_of_bind h
    obtain ⟨hTakes, hFits⟩ := hNegated hOperand hStop
    cases hPure
    have hMinus : c.Takes [.word .minus] c.advance := Cursor.takes_advance hStop hKind nofun
    exact ⟨hMinus.append hTakes, ⟨rfl, hFits.binds, hFits.canonical⟩, Nat.le_refl 4,
      Nat.succ_lt_succ hFits.shallow⟩
  case h_2 hKind =>
    rw [literal] at h
    cases hValue : Number.read? c.current.lexeme with
    | some value =>
      rw [hValue] at h
      cases h
      exact ⟨Cursor.takes_advance hStop ⟨hKind, hValue⟩ nofun, trivial, Nat.le_succ 4,
        Nat.succ_pos _⟩
    | none =>
      rw [hValue] at h
      cases h
  case h_3 hKind =>
    cases h
    exact ⟨Cursor.takes_advance hStop ⟨hKind, rfl⟩ nofun, trivial, Nat.le_succ 4, Nat.succ_pos _⟩
  case h_4 hKind =>
    have hOpen : c.Takes [.word .leftParen] c.advance := Cursor.takes_advance hStop hKind nofun
    obtain ⟨operand, rfl, hTakes, hFits⟩ := takes_closed hInner h hStop nofun
    exact ⟨hOpen.append hTakes, hFits.canonical, Nat.le_succ 4, Nat.succ_lt_succ hFits.shallow⟩
  case h_5 => cases h

theorem sound_operand (levels : Nat) : SoundExpr (operand levels) 4 (levels + 1) := by
  induction levels with
  | zero => exact sound_operandOf sound_tooDeep sound_tooDeep
  | succ levels ih => exact sound_operandOf (sound_expressionOf ih) ih

theorem sound_expression (levels : Nat) : SoundExpr (expression levels) 0 (levels + 1) :=
  sound_expressionOf (sound_operand levels)

/-! ### Statements -/

theorem sound_condition {expression : Parse Expr} {opening : Expected}
    (hExpression : SoundExpr expression 0 bound) :
    Sound (condition expression opening) (fun e => parenthesized e.marks)
      fun e _ => e.Fits 0 bound := by
  intro c e c' h hStop
  obtain ⟨_, c₁, hOpen, h⟩ := ok_of_bind h
  have hTakesOpen := takes_expect hOpen hStop nofun
  obtain ⟨test, rfl, hTakes, hFits⟩ := takes_closed hExpression h (hTakesOpen.ended hStop) nofun
  exact ⟨hTakesOpen.append hTakes, hFits⟩

theorem token_of_isType {kind : Token.Kind} (h : kind.isType = true) :
    (if kind = .realWord then VarType.real else VarType.int).token = kind := by
  cases kind <;> first | rfl | cases h

theorem takes_declaration {s : Stmt} (h : declaration c = .ok s c') (hStop : c.stop.kind = .eof)
    (hKind : c.current.kind.isType = true) : c.Takes s.marks c' ∧ s.Fits (bound + 1) c' := by
  rw [declaration, advance_bind] at h
  obtain ⟨name, c₁, hName, h⟩ := ok_of_bind h
  obtain ⟨_, c₂, hClose, h⟩ := ok_of_bind h
  cases h
  have hTakesType : c.Takes [.word _] c.advance :=
    Cursor.takes_advance hStop (token_of_isType hKind).symm (by split <;> nofun)
  have hTakesName := takes_expectName hName (hTakesType.ended hStop)
  have hTakesClose := takes_expect hClose (hTakesName.ended hStop) nofun
  exact ⟨hTakesType.append (hTakesName.append hTakesClose), trivial, Nat.succ_pos _, nofun⟩

section statement

variable {expression : Parse Expr} {statement : Parse Stmt}

theorem takes_itemOf (hStatement : SoundStatement statement (bound + 1)) {s : Stmt}
    (h : itemOf statement c = .ok s c') (hStop : c.stop.kind = .eof) :
    c.Takes s.marks c' ∧ s.Fits (bound + 1) c' := by
  rw [itemOf, current_bind] at h
  cases hKind : c.current.kind.isType with
  | true =>
    simp only [hKind, if_true] at h
    exact takes_declaration h hStop hKind
  | false =>
    simp only [hKind, Bool.false_eq_true, if_false] at h
    obtain ⟨hTakes, hFits, -⟩ := hStatement h hStop
    exact ⟨hTakes, hFits⟩

theorem length_itemOf_lt (hStatement : SoundStatement statement (bound + 1)) {s : Stmt}
    (h : itemOf statement c = .ok s c') (hStop : c.stop.kind = .eof) :
    c'.rest.length < c.rest.length := by
  obtain ⟨hTakes, hFits⟩ := takes_itemOf hStatement h hStop
  obtain ⟨m, marks, hMarks, -⟩ := Stmt.exists_marks hFits.canonical
  have hLength := hTakes.length_rest
  rw [hMarks, List.length_cons] at hLength
  omega

/-- Each item takes a token, so with a count for all of them the items end where they are closed
or where no token is left. -/
theorem takes_itemsUpTo (hStatement : SoundStatement statement (bound + 1))
    {closes : Token.Kind → Bool} {count : Nat} {body : List Stmt}
    (h : itemsUpTo closes statement count c = .ok body c') (hStop : c.stop.kind = .eof)
    (hCount : c.rest.length ≤ count) :
    c.Takes (marksOfAll body) c' ∧ canonicalAll body ∧ nestingOfAll body < bound + 1 ∧
      (closes c'.current.kind = true ∨ c'.rest = []) := by
  induction count generalizing c body with
  | zero =>
    cases h
    exact ⟨.nil _, trivial, Nat.succ_pos _, .inr (List.eq_nil_of_length_eq_zero (by omega))⟩
  | succ count ih =>
    rw [itemsUpTo, current_bind] at h
    cases hCloses : closes c.current.kind with
    | true =>
      simp only [hCloses, if_true] at h
      cases h
      exact ⟨.nil _, trivial, Nat.succ_pos _, .inl hCloses⟩
    | false =>
      simp only [hCloses, Bool.false_eq_true, if_false] at h
      obtain ⟨first, c₁, hFirst, h⟩ := ok_of_bind h
      obtain ⟨others, c₂, hOthers, h⟩ := ok_of_bind h
      cases h
      obtain ⟨hTakes, hFits⟩ := takes_itemOf hStatement hFirst hStop
      have hLength := length_itemOf_lt hStatement hFirst hStop
      obtain ⟨hTakesOthers, hCanonical, hNesting, hEnd⟩ :=
        ih hOthers (hTakes.ended hStop) (by omega)
      exact ⟨hTakes.append hTakesOthers, ⟨hFits.canonical, hCanonical⟩,
        Nat.max_lt.mpr ⟨hFits.shallow, hNesting⟩, hEnd⟩

theorem takes_ifStatement (hExpression : SoundExpr expression 0 bound)
    (hStatement : SoundStatement statement bound) {s : Stmt} (hKind : c.current.kind = .ifWord)
    (h : ifStatement expression statement c = .ok s c') (hStop : c.stop.kind = .eof) :
    c.Takes s.marks c' ∧ s.Fits (bound + 1) c' ∧ s.isDeclare = false := by
  have hTakesIf : c.Takes [.word .ifWord] c.advance := Cursor.takes_advance hStop hKind nofun
  rw [ifStatement, advance_bind] at h
  obtain ⟨test, c₁, hTest, h⟩ := ok_of_bind h
  obtain ⟨body, c₂, hBody, h⟩ := ok_of_bind h
  obtain ⟨hTakesTest, hFitsTest⟩ := sound_condition hExpression hTest (hTakesIf.ended hStop)
  obtain ⟨hTakesBody, hFitsBody, hDeclare⟩ := hStatement hBody (hTakesTest.ended hStop)
  have hStop₂ := hTakesBody.ended (hTakesTest.ended hStop)
  rw [current_bind] at h
  split at h
  next hElse =>
    rw [advance_bind] at h
    obtain ⟨otherwise, c₃, hOtherwise, h⟩ := ok_of_bind h
    cases h
    have hTakesElse : c₂.Takes [.word .elseWord] c₂.advance :=
      Cursor.takes_advance hStop₂ hElse nofun
    obtain ⟨hTakesOther, hFitsOther, hDeclareOther⟩ := hStatement hOtherwise hStop₂
    have hOpen : body.endsInIfThen = false := by
      cases hEnds : body.endsInIfThen with
      | true => exact absurd hElse (hFitsBody.closed hEnds)
      | false => rfl
    refine ⟨hTakesIf.append (hTakesTest.append (hTakesBody.append
      (hTakesElse.append hTakesOther))), ⟨?_, ?_, hFitsOther.closed⟩, rfl⟩
    · exact ⟨hFitsTest.canonical, hDeclare, hFitsBody.canonical, hOpen, hDeclareOther,
        hFitsOther.canonical⟩
    · have hBounds := And.intro hFitsTest.shallow (And.intro hFitsBody.shallow hFitsOther.shallow)
      simp only [Stmt.nesting]
      omega
  next hElse =>
    cases h
    refine ⟨hTakesIf.append (hTakesTest.append hTakesBody), ⟨?_, ?_, fun _ => hElse⟩, rfl⟩
    · exact ⟨hFitsTest.canonical, hDeclare, hFitsBody.canonical⟩
    · exact Nat.succ_lt_succ (Nat.max_lt.mpr ⟨hFitsTest.shallow, hFitsBody.shallow⟩)

theorem takes_whileStatement
    (hExpression : SoundExpr expression 0 bound)
    (hStatement : SoundStatement statement bound) {s : Stmt} (hKind : c.current.kind = .whileWord)
    (h : whileStatement expression statement c = .ok s c') (hStop : c.stop.kind = .eof) :
    c.Takes s.marks c' ∧ s.Fits (bound + 1) c' ∧ s.isDeclare = false := by
  have hTakesWhile : c.Takes [.word .whileWord] c.advance :=
    Cursor.takes_advance hStop hKind nofun
  rw [whileStatement, advance_bind] at h
  obtain ⟨test, c₁, hTest, h⟩ := ok_of_bind h
  obtain ⟨body, c₂, hBody, h⟩ := ok_of_bind h
  cases h
  obtain ⟨hTakesTest, hFitsTest⟩ := sound_condition hExpression hTest (hTakesWhile.ended hStop)
  obtain ⟨hTakesBody, hFitsBody, hDeclare⟩ := hStatement hBody (hTakesTest.ended hStop)
  refine ⟨hTakesWhile.append (hTakesTest.append hTakesBody), ⟨?_, ?_, hFitsBody.closed⟩, rfl⟩
  · exact ⟨hFitsTest.canonical, hDeclare, hFitsBody.canonical⟩
  · exact Nat.succ_lt_succ (Nat.max_lt.mpr ⟨hFitsTest.shallow, hFitsBody.shallow⟩)

theorem takes_blockStatement (hStatement : SoundStatement statement (bound + 1)) {s : Stmt}
    (hKind : c.current.kind = .leftBrace) (h : blockStatement statement c = .ok s c')
    (hStop : c.stop.kind = .eof) :
    c.Takes s.marks c' ∧ s.Fits (bound + 2) c' ∧ s.isDeclare = false := by
  have hTakesOpen : c.Takes [.word .leftBrace] c.advance := Cursor.takes_advance hStop hKind nofun
  rw [blockStatement, advance_bind] at h
  obtain ⟨body, c₁, hBody, h⟩ := ok_of_bind h
  obtain ⟨_, c₂, hClose, h⟩ := ok_of_bind h
  cases h
  rw [items, get_bind] at hBody
  obtain ⟨hTakesBody, hCanonical, hNesting, -⟩ :=
    takes_itemsUpTo hStatement hBody (hTakesOpen.ended hStop) (Nat.le_refl _)
  have hTakesClose := takes_expect hClose (hTakesBody.ended hStop) nofun
  exact ⟨hTakesOpen.append (hTakesBody.append hTakesClose),
    ⟨hCanonical, Nat.succ_lt_succ hNesting, nofun⟩, rfl⟩

theorem sound_statementOf
    (hExpression : SoundExpr expression 0 (bound + 1))
    (hStatement : SoundStatement statement (bound + 1)) :
    SoundStatement (statementOf expression statement) (bound + 2) := by
  -- Two branches read an expression as a statement: a name without an equals sign, and the rest.
  have hDiscard : ∀ {c s c'}, expressionStatement expression c = .ok s c' →
      c.stop.kind = .eof → c.Takes s.marks c' ∧ s.Fits (bound + 2) c' ∧ s.isDeclare = false := by
    intro c s c' h hStop
    obtain ⟨value, rfl, hTakes, hFits⟩ := takes_closed hExpression h hStop nofun
    exact ⟨hTakes, ⟨hFits.canonical, Nat.succ_lt_succ hFits.shallow, nofun⟩, rfl⟩
  intro c s c' h hStop
  rw [statementOf_apply] at h
  split at h
  case h_1 hKind =>
    have hTakesPrint : c.Takes [.word .printWord] c.advance :=
      Cursor.takes_advance hStop hKind nofun
    rw [printStatement, advance_bind] at h
    obtain ⟨value, rfl, hTakes, hFits⟩ := takes_closed hExpression h (hTakesPrint.ended hStop) nofun
    exact ⟨hTakesPrint.append hTakes,
      ⟨hFits.canonical, Nat.succ_lt_succ hFits.shallow, nofun⟩, rfl⟩
  case h_2 hKind =>
    have hTakesInput : c.Takes [.word .inputWord] c.advance :=
      Cursor.takes_advance hStop hKind nofun
    rw [inputStatement, advance_bind] at h
    obtain ⟨name, c₁, hName, h⟩ := ok_of_bind h
    obtain ⟨_, c₂, hClose, h⟩ := ok_of_bind h
    cases h
    have hTakesName := takes_expectName hName (hTakesInput.ended hStop)
    have hTakesClose := takes_expect hClose (hTakesName.ended hStop) nofun
    exact ⟨hTakesInput.append (hTakesName.append hTakesClose),
      ⟨trivial, Nat.succ_lt_succ (Nat.succ_pos _), nofun⟩, rfl⟩
  case h_3 hKind => exact takes_ifStatement hExpression hStatement hKind h hStop
  case h_4 hKind => exact takes_whileStatement hExpression hStatement hKind h hStop
  case h_5 hKind => exact takes_blockStatement hStatement hKind h hStop
  case h_6 hKind =>
    split at h
    next =>
      obtain ⟨name, c₁, hName, h⟩ := ok_of_bind h
      obtain ⟨_, c₂, hEqual, h⟩ := ok_of_bind h
      have hTakesName := takes_expectName hName hStop
      have hTakesEqual := takes_expect hEqual (hTakesName.ended hStop) nofun
      obtain ⟨value, rfl, hTakes, hFits⟩ :=
        takes_closed hExpression h (hTakesEqual.ended (hTakesName.ended hStop)) nofun
      exact ⟨hTakesName.append (hTakesEqual.append hTakes),
        ⟨hFits.canonical, Nat.succ_lt_succ hFits.shallow, nofun⟩, rfl⟩
    next => exact hDiscard h hStop
  case h_7 => exact hDiscard h hStop

theorem sound_statement (levels : Nat) : SoundStatement (Parse.statement levels) (levels + 1) := by
  induction levels with
  | zero => exact sound_tooDeep
  | succ levels ih => exact sound_statementOf (sound_expression levels) ih

end statement

end Parse

/-- A program that is read from tokens is spelled by the tokens before the first end token, has the
shape of the grammar, and is nested at most 128 levels deep. -/
theorem spells_of_ofTokens {tokens : List Token} {p : Program}
    (h : Program.ofTokens tokens = .ok p) :
    Spells p.marks (tokens.takeWhile (!·.isEof)) ∧ p.Canonical ∧ p.nesting ≤ 128 := by
  unfold Program.ofTokens at h
  split at h
  next program c hProgram =>
    cases h
    have hStop := Cursor.stop_ofTokens tokens
    obtain ⟨hTakes, hCanonical, hNesting, hEnd⟩ :=
      Parse.takes_itemsUpTo (Parse.sound_statement Parse.nestingLimit) hProgram hStop
        (Nat.le_refl _)
    obtain ⟨taken, hRest, hSpells⟩ := hTakes.spells
    have hNil : c.rest = [] := by
      rcases hEnd with hCloses | hNil
      · exact Cursor.rest_eq_nil hRest (eq_of_beq hCloses)
      · exact hNil
    rw [hNil, List.append_nil] at hRest
    have hTaken : taken = tokens.takeWhile (!·.isEof) := hRest.symm
    exact ⟨hTaken ▸ hSpells, hCanonical, Nat.le_of_lt_succ hNesting⟩
  next => cases h

/-- The tokens of `if (a) if (b) print -a; else print b + a * b;`. -/
def danglingElse : List Token :=
  [⟨.ifWord, "if", ⟨0, 2⟩⟩, ⟨.leftParen, "(", ⟨3, 4⟩⟩, ⟨.identifier, "a", ⟨4, 5⟩⟩,
    ⟨.rightParen, ")", ⟨5, 6⟩⟩, ⟨.ifWord, "if", ⟨7, 9⟩⟩, ⟨.leftParen, "(", ⟨10, 11⟩⟩,
    ⟨.identifier, "b", ⟨11, 12⟩⟩, ⟨.rightParen, ")", ⟨12, 13⟩⟩, ⟨.printWord, "print", ⟨14, 19⟩⟩,
    ⟨.minus, "-", ⟨20, 21⟩⟩, ⟨.identifier, "a", ⟨21, 22⟩⟩, ⟨.semicolon, ";", ⟨22, 23⟩⟩,
    ⟨.elseWord, "else", ⟨24, 28⟩⟩, ⟨.printWord, "print", ⟨29, 34⟩⟩,
    ⟨.identifier, "b", ⟨35, 36⟩⟩, ⟨.plus, "+", ⟨37, 38⟩⟩, ⟨.identifier, "a", ⟨39, 40⟩⟩,
    ⟨.star, "*", ⟨41, 42⟩⟩, ⟨.identifier, "b", ⟨43, 44⟩⟩, ⟨.semicolon, ";", ⟨44, 45⟩⟩]

theorem spells_of_ofTokens_danglingElse :
    ∃ p, Program.ofTokens danglingElse = .ok p ∧
      Spells p.marks (danglingElse.takeWhile (!·.isEof)) ∧ p.Canonical ∧ p.nesting ≤ 128 :=
  have h : Program.ofTokens danglingElse = .ok
      [.ifThen (.var "a") (.ifElse (.var "b") (.print (.unary .neg (.var "a")))
        (.print (.binary .add (.var "b") (.binary .mul (.var "a") (.var "b")))))] := rfl
  ⟨_, h, spells_of_ofTokens h⟩

end Abacus
