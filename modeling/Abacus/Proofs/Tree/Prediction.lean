import Abacus.Proofs.Tree.Language
import Abacus.Proofs.Tree.Locality
import Mathlib.Computability.Language

/-! Syntax errors are at the first impossible token.

What a parser reads before it meets an unexpected token is the start of a phrase of the grammar,
since each parser goes on only with tokens that its phrase may have.  With the unexpected token
nothing of the grammar begins: a program that did would be read differently, but what is read up to
that token does not depend on what comes behind it. -/

namespace Abacus

/-- The phrases of a kind, as a language. -/
def Phrase.language (phrase : Phrase) : Language Token.Kind := {kinds | Derives phrase kinds}

/-- Reading tokens of the given kinds leads from one cursor to the other. -/
def Cursor.Reads (c : Cursor) (kinds : List Token.Kind) (c' : Cursor) : Prop :=
  ∃ taken : List Token, c.rest = taken ++ c'.rest ∧ c'.stop = c.stop ∧ taken.map Token.kind = kinds

namespace Cursor.Reads

variable {c c' c'' : Cursor} {kinds kinds' : List Token.Kind}

theorem refl (c : Cursor) : c.Reads [] c := ⟨[], rfl, rfl, rfl⟩

theorem append (h : c.Reads kinds c') (h' : c'.Reads kinds' c'') :
    c.Reads (kinds ++ kinds') c'' := by
  obtain ⟨taken, hRest, hStop, rfl⟩ := h
  obtain ⟨taken', hRest', hStop', rfl⟩ := h'
  exact ⟨taken ++ taken', by rw [hRest, hRest', List.append_assoc], hStop'.trans hStop, by simp⟩

theorem advance (hStop : c.stop.kind = .eof) (hKind : c.current.kind ≠ .eof) :
    c.Reads [c.current.kind] c.advance := by
  obtain ⟨rest, stop⟩ := c
  cases rest with
  | nil => exact absurd hStop hKind
  | cons t rest => exact ⟨[t], rfl, rfl, rfl⟩

theorem ended (h : c.Reads kinds c') (hStop : c.stop.kind = .eof) : c'.stop.kind = .eof := by
  obtain ⟨taken, -, hStop', -⟩ := h
  rw [hStop', hStop]

end Cursor.Reads

namespace Parse

variable {α β : Type} {c : Cursor} {L M : Language Token.Kind}

/-- What is read is a word of the language, or the start of one if the next token is unexpected. -/
def Fits (L : Language Token.Kind) (c : Cursor) : EStateM.Result SyntaxError Cursor α → Prop
  | .ok _ c' => ∃ kinds ∈ L, c.Reads kinds c'
  | .error (.unexpected _ _) c' => ∃ kinds more, kinds ++ more ∈ L ∧ c.Reads kinds c'
  | .error _ _ => True

namespace Fits

theorem mono {r : EStateM.Result SyntaxError Cursor α} (h : Fits L c r)
    (hLe : ∀ kinds ∈ L, kinds ∈ M) : Fits M c r := by
  match r with
  | .ok _ _ =>
    obtain ⟨kinds, hKinds, hReads⟩ := h
    exact ⟨kinds, hLe _ hKinds, hReads⟩
  | .error (.unexpected _ _) _ =>
    obtain ⟨kinds, more, hKinds, hReads⟩ := h
    exact ⟨kinds, more, hLe _ hKinds, hReads⟩
  | .error (.invalidNumber _) _ | .error (.tooDeep _ _) _ => trivial

/-- What is read behind a word. -/
theorem behind {kinds : List Token.Kind} {c' : Cursor} {r : EStateM.Result SyntaxError Cursor α}
    (hReads : c.Reads kinds c') (hKinds : kinds ∈ L) (h : Fits M c' r) : Fits (L * M) c r := by
  match r with
  | .ok _ _ =>
    obtain ⟨kinds', hKinds', hReads'⟩ := h
    exact ⟨kinds ++ kinds', Language.append_mem_mul hKinds hKinds', hReads.append hReads'⟩
  | .error (.unexpected _ _) _ =>
    obtain ⟨kinds', more, hKinds', hReads'⟩ := h
    refine ⟨kinds ++ kinds', more, ?_, hReads.append hReads'⟩
    rw [List.append_assoc]
    exact Language.append_mem_mul hKinds hKinds'
  | .error (.invalidNumber _) _ | .error (.tooDeep _ _) _ => trivial

theorem bind {p : Parse α} {f : α → Parse β} (h : Fits L c (p c)) (hM : ∃ kinds, kinds ∈ M)
    (hNext : ∀ {a c' kinds}, c.Reads kinds c' → Fits M c' (f a c')) :
    Fits (L * M) c ((p >>= f) c) := by
  match hp : p c with
  | .ok a c' =>
    rw [hp] at h
    rw [bind_of_ok hp]
    obtain ⟨kinds, hKinds, hReads⟩ := h
    exact .behind hReads hKinds (hNext hReads)
  | .error (.unexpected _ _) _ =>
    rw [hp] at h
    rw [bind_of_error hp]
    obtain ⟨kinds, more, hKinds, hReads⟩ := h
    obtain ⟨kinds', hKinds'⟩ := hM
    refine ⟨kinds, more ++ kinds', ?_, hReads⟩
    rw [← List.append_assoc]
    exact Language.append_mem_mul hKinds hKinds'
  | .error (.invalidNumber _) _ | .error (.tooDeep _ _) _ =>
    rw [bind_of_error hp]
    trivial

end Fits

/-- From every cursor the parser reads a word of the language, or the start of one. -/
structure Predicts (L : Language Token.Kind) (p : Parse α) : Prop where
  inhabited : ∃ kinds, kinds ∈ L
  fits {c : Cursor} (hStop : c.stop.kind = .eof) : Fits L c (p c)

/-- The language of one token. -/
def single (kind : Token.Kind) : Language Token.Kind := {[kind]}

namespace Predicts

variable {p : Parse α} {q : Parse β} {kind : Token.Kind}

theorem pure (a : α) : Predicts 1 (pure a) :=
  ⟨⟨[], Language.nil_mem_one⟩, fun _ => ⟨[], Language.nil_mem_one, .refl _⟩⟩

theorem tooDeep (h : ∃ kinds, kinds ∈ L) : Predicts L (tooDeep : Parse α) := ⟨h, fun _ => trivial⟩

theorem mono (h : Predicts L p) (hLe : ∀ kinds ∈ L, kinds ∈ M) : Predicts M p := by
  obtain ⟨kinds, hKinds⟩ := h.inhabited
  exact ⟨⟨kinds, hLe _ hKinds⟩, fun hStop => (h.fits hStop).mono hLe⟩

theorem bind {f : α → Parse β} (h : Predicts L p) (hM : ∃ kinds, kinds ∈ M)
    (hf : ∀ a, Predicts M (f a)) : Predicts (L * M) (p >>= f) := by
  constructor
  · obtain ⟨kinds, hKinds⟩ := h.inhabited
    obtain ⟨kinds', hKinds'⟩ := hM
    exact ⟨kinds ++ kinds', Language.append_mem_mul hKinds hKinds'⟩
  · intro c hStop
    exact (h.fits hStop).bind hM fun hReads => (hf _).fits (hReads.ended hStop)

theorem map (h : Predicts L p) (f : α → β) : Predicts L (p >>= fun a => Pure.pure (f a)) := by
  have hBind := h.bind ⟨[], Language.nil_mem_one⟩ fun a => pure (f a)
  rwa [mul_one] at hBind

theorem expect (kind : Token.Kind) (expected : Expected) (hKind : kind ≠ .eof) :
    Predicts (single kind) (expect kind expected) where
  inhabited := ⟨[kind], rfl⟩
  fits {c} hStop := by
    unfold Parse.expect
    split
    · next hCurrent =>
      have hReads := Cursor.Reads.advance hStop (hCurrent ▸ hKind)
      exact ⟨[kind], rfl, hCurrent ▸ hReads⟩
    · exact ⟨[], [kind], rfl, .refl c⟩

theorem expectName (expected : Expected) :
    Predicts (single .identifier) (expectName expected) :=
  (expect .identifier expected nofun).map Token.lexeme

/-- Behind a token that is not the end token. -/
theorem behind (h : Predicts M q) (hStop : c.stop.kind = .eof) (hCurrent : c.current.kind = kind)
    (hKind : kind ≠ .eof) : Fits (single kind * M) c (q c.advance) := by
  subst hCurrent
  exact .behind (.advance hStop hKind) rfl (h.fits hStop)

end Predicts

/-! ### Expressions -/

/-- What makes every expression of a precedence longer: behind one of them it gives one again. -/
def continuation (precedence : Nat) : Language Token.Kind :=
  {kinds | ∀ front ∈ (Phrase.expression precedence).language,
    front ++ kinds ∈ (Phrase.expression precedence).language}

section chain

variable {operator? : Token.Kind → Option BinaryOp} {operand : Parse Expr} {precedence : Nat}

theorem continuation_nil : [] ∈ continuation precedence := by
  intro front hFront
  rwa [List.append_nil]

theorem continuation_operator (op : BinaryOp) :
    ∀ kinds ∈ single op.token *
        ((Phrase.expression (op.precedence + 1)).language * continuation op.precedence),
      kinds ∈ continuation op.precedence := by
  rintro _ ⟨_, rfl, _, ⟨right, hRight, others, hOthers, rfl⟩, rfl⟩ front hFront
  have hBinary := hOthers _ (Derives.binary op hFront hRight)
  simpa using hBinary

theorem predicts_chainFrom (hOperators : Operators operator? precedence)
    (h : Predicts (Phrase.expression (precedence + 1)).language operand) (count : Nat)
    (left : Expr) :
    Predicts (continuation precedence) (chainFrom operator? operand count left) := by
  induction count generalizing left with
  | zero => exact ⟨⟨[], continuation_nil⟩, fun _ => ⟨[], continuation_nil, .refl _⟩⟩
  | succ count ih =>
    refine ⟨⟨[], continuation_nil⟩, fun {c} hStop => ?_⟩
    cases hOp : operator? c.current.kind with
    | none =>
      rw [chainFrom_of_none hOp]
      exact ⟨[], continuation_nil, .refl c⟩
    | some op =>
      obtain ⟨rfl, hToken⟩ := (hOperators _ _).mp hOp
      rw [chainFrom_of_operator hOp]
      have hRight := h.bind ⟨[], continuation_nil⟩ fun right => ih (.binary op left right)
      exact (hRight.behind hStop hToken.symm op.token_ne_eof).mono (continuation_operator op)

theorem predicts_chain (hOperators : Operators operator? precedence)
    (h : Predicts (Phrase.expression (precedence + 1)).language operand) :
    Predicts (Phrase.expression precedence).language (chain operator? operand) := by
  have hBehind (left : Expr) :
      Predicts (continuation precedence)
        (do chainFrom operator? operand (← get).rest.length left) :=
    ⟨⟨[], continuation_nil⟩, fun hStop => (predicts_chainFrom hOperators h _ left).fits hStop⟩
  refine (h.bind ⟨[], continuation_nil⟩ hBehind).mono ?_
  rintro _ ⟨first, hFirst, others, hOthers, rfl⟩
  exact hOthers first (Derives.closer hFirst)

end chain

theorem predicts_expressionOf {operand : Parse Expr}
    (h : Predicts (Phrase.expression 4).language operand) :
    Predicts (Phrase.expression 0).language (expressionOf operand) :=
  predicts_chain operators_equality <| predicts_chain operators_comparison <|
    predicts_chain operators_sum <| predicts_chain operators_product h

theorem predicts_literal (t : Token) : Predicts 1 (literal t) := by
  unfold literal
  split
  · exact .pure _
  · exact ⟨⟨[], Language.nil_mem_one⟩, fun _ => trivial⟩

/-- A phrase and the token that must be behind it. -/
theorem predicts_closed {p : Parse β} (h : Predicts L p) (kind : Token.Kind) (hKind : kind ≠ .eof)
    (expected : Expected) (f : β → α) :
    Predicts (L * single kind) (do
      let value ← p
      let _ ← expect kind expected
      return f value) :=
  h.bind ⟨[kind], rfl⟩ fun value => (Predicts.expect kind expected hKind).map fun _ => f value

theorem predicts_operandOf {inner negated : Parse Expr}
    (hInner : Predicts (Phrase.expression 0).language inner)
    (hNegated : Predicts (Phrase.expression 4).language negated) :
    Predicts (Phrase.expression 4).language (operandOf inner negated) where
  inhabited := ⟨[.number], .closer .number⟩
  fits {c} hStop := by
    rw [operandOf_apply]
    split
    · next hKind =>
      refine ((hNegated.map (Expr.unary .neg)).behind hStop hKind nofun).mono ?_
      rintro _ ⟨_, rfl, operand, hOperand, rfl⟩
      exact .minus hOperand
    · next hKind =>
      refine ((predicts_literal c.current).behind hStop hKind nofun).mono ?_
      rw [mul_one]
      rintro _ rfl
      exact .closer .number
    · next hKind =>
      refine ((Predicts.pure (Expr.var c.current.lexeme)).behind hStop hKind nofun).mono ?_
      rw [mul_one]
      rintro _ rfl
      exact .closer .name
    · next hKind =>
      have hClosed := predicts_closed hInner .rightParen nofun .parenAfterExpression Expr.group
      refine (hClosed.behind hStop hKind nofun).mono ?_
      rintro _ ⟨_, rfl, _, ⟨inner, hInner, _, rfl, rfl⟩, rfl⟩
      exact .closer (.group hInner)
    · exact ⟨[], [.number], .closer .number, .refl c⟩

theorem predicts_operand (levels : Nat) :
    Predicts (Phrase.expression 4).language (operand levels) := by
  induction levels with
  | zero =>
    have hNumber : Derives (.expression 4) [.number] := .closer .number
    exact predicts_operandOf (.tooDeep ⟨[.number], .closer (.closer (.closer (.closer hNumber)))⟩)
      (.tooDeep ⟨[.number], hNumber⟩)
  | succ levels ih => exact predicts_operandOf (predicts_expressionOf ih) ih

theorem predicts_expression (levels : Nat) :
    Predicts (Phrase.expression 0).language (expression levels) :=
  predicts_expressionOf (predicts_operand levels)

/-! ### Statements -/

section

variable {expression : Parse Expr} {statement : Parse Stmt}

theorem predicts_named (expected expected' : Expected) (f : String → Stmt) :
    Predicts (single .identifier * single .semicolon) (do
      let name ← expectName expected
      let _ ← expect .semicolon expected'
      return f name) :=
  predicts_closed (.expectName expected) .semicolon nofun expected' f

theorem fits_declaration (hStop : c.stop.kind = .eof) (hType : c.current.kind.isType = true) :
    Fits Phrase.item.language c (declaration c) := by
  have hKind : c.current.kind ≠ .eof := by
    intro hEof
    rw [hEof] at hType
    cases hType
  refine ((predicts_named _ _ (Stmt.declare _)).behind hStop rfl hKind).mono ?_
  rintro _ ⟨_, rfl, _, ⟨_, rfl, _, rfl, rfl⟩, rfl⟩
  rw [← token_of_isType hType]
  exact .declaration _

theorem predicts_itemOf (h : Predicts Phrase.statement.language statement) :
    Predicts Phrase.item.language (itemOf statement) where
  inhabited := ⟨_, .declaration .int⟩
  fits {c} hStop := by
    rw [itemOf, current_bind]
    split
    · next hType => exact fits_declaration hStop hType
    · exact (h.fits hStop).mono fun _ => .statement

theorem predicts_itemsUpTo (closes : Token.Kind → Bool)
    (h : Predicts Phrase.statement.language statement) (count : Nat) :
    Predicts Phrase.program.language (itemsUpTo closes statement count) := by
  have hEmpty {c : Cursor} : Fits Phrase.program.language c (.ok ([] : List Stmt) c) :=
    ⟨[], .empty, .refl c⟩
  induction count with
  | zero => exact ⟨⟨[], .empty⟩, fun _ => hEmpty⟩
  | succ count ih =>
    refine ⟨⟨[], .empty⟩, fun {c} hStop => ?_⟩
    cases hOpen : closes c.current.kind with
    | true =>
      rw [itemsUpTo_of_closes hOpen]
      exact hEmpty
    | false =>
      rw [itemsUpTo_of_open hOpen]
      have hItems := (predicts_itemOf h).bind ih.inhabited fun first => ih.map (first :: ·)
      refine (hItems.fits hStop).mono ?_
      rintro _ ⟨first, hFirst, others, hOthers, rfl⟩
      exact .more hFirst hOthers

theorem predicts_items (closes : Token.Kind → Bool)
    (h : Predicts Phrase.statement.language statement) :
    Predicts Phrase.program.language (items closes statement) :=
  ⟨⟨[], .empty⟩, fun hStop => (predicts_itemsUpTo closes h _).fits hStop⟩

theorem predicts_condition (h : Predicts (Phrase.expression 0).language expression)
    (opening : Expected) :
    Predicts (single .leftParen * ((Phrase.expression 0).language * single .rightParen))
      (condition expression opening) := by
  have hClosed := predicts_closed h .rightParen nofun .parenAfterCondition id
  exact (Predicts.expect .leftParen opening nofun).bind hClosed.inhabited fun _ => hClosed

theorem predicts_assignment (h : Predicts (Phrase.expression 0).language expression) :
    Predicts Phrase.statement.language (assignment expression) := by
  have hClosed (name : String) :=
    predicts_closed h .semicolon nofun .semicolonAfterAssignment (Stmt.assign name)
  have hBehind (name : String) :=
    (Predicts.expect .equal .equalsInAssignment nofun).bind (hClosed name).inhabited fun _ =>
      hClosed name
  refine ((Predicts.expectName .nameInAssignment).bind (hBehind "").inhabited hBehind).mono ?_
  rintro _ ⟨_, rfl, _, ⟨_, rfl, _, ⟨value, hValue, _, rfl, rfl⟩, rfl⟩, rfl⟩
  exact .assign hValue

theorem predicts_expressionStatement (h : Predicts (Phrase.expression 0).language expression) :
    Predicts Phrase.statement.language (expressionStatement expression) := by
  refine (predicts_closed h .semicolon nofun _ Stmt.discard).mono ?_
  rintro _ ⟨value, hValue, _, rfl, rfl⟩
  exact .discard hValue

theorem fits_printStatement (h : Predicts (Phrase.expression 0).language expression)
    (hStop : c.stop.kind = .eof) (hKind : c.current.kind = .printWord) :
    Fits Phrase.statement.language c (printStatement expression c) := by
  refine ((predicts_closed h .semicolon nofun _ Stmt.print).behind hStop hKind nofun).mono ?_
  rintro _ ⟨_, rfl, _, ⟨value, hValue, _, rfl, rfl⟩, rfl⟩
  exact .print hValue

theorem fits_inputStatement (hStop : c.stop.kind = .eof) (hKind : c.current.kind = .inputWord) :
    Fits Phrase.statement.language c (inputStatement c) := by
  refine ((predicts_named _ _ Stmt.input).behind hStop hKind nofun).mono ?_
  rintro _ ⟨_, rfl, _, ⟨_, rfl, _, rfl, rfl⟩, rfl⟩
  exact .input

/-- Behind the branch of a conditional there may be another branch. -/
theorem predicts_otherwise (h : Predicts Phrase.statement.language statement) (test : Expr)
    (body : Stmt) :
    Predicts (1 + single .elseWord * Phrase.statement.language) (do
      if (← current).kind = .elseWord then
        let _ ← advance
        return Stmt.ifElse test body (← statement)
      else return Stmt.ifThen test body) where
  inhabited := ⟨[], Or.inl rfl⟩
  fits {c} hStop := by
    rw [current_bind]
    split
    · next hKind =>
      exact ((h.map (Stmt.ifElse test body)).behind hStop hKind nofun).mono fun _ => Or.inr
    · exact ⟨[], Or.inl rfl, .refl c⟩

theorem fits_ifStatement (hExpression : Predicts (Phrase.expression 0).language expression)
    (hStatement : Predicts Phrase.statement.language statement) (hStop : c.stop.kind = .eof)
    (hKind : c.current.kind = .ifWord) :
    Fits Phrase.statement.language c (ifStatement expression statement c) := by
  have hElse (test : Expr) (body : Stmt) := predicts_otherwise hStatement test body
  have hBranches (test : Expr) := hStatement.bind ⟨[], Or.inl rfl⟩ (hElse test)
  have hIf := (predicts_condition hExpression .parenAfterIf).bind (hBranches (.var "")).inhabited
    hBranches
  refine (hIf.behind hStop hKind nofun).mono ?_
  rintro _ ⟨_, rfl, _, ⟨_, ⟨_, rfl, _, ⟨test, hTest, _, rfl, rfl⟩, rfl⟩, _,
    ⟨body, hBody, _, hOtherwise, rfl⟩, rfl⟩, rfl⟩
  show Derives .statement _
  rcases hOtherwise with rfl | ⟨_, rfl, otherwise, hOtherwise, rfl⟩
  · simpa using Derives.ifThen hTest hBody
  · simpa using Derives.ifElse hTest hBody hOtherwise

theorem fits_whileStatement (hExpression : Predicts (Phrase.expression 0).language expression)
    (hStatement : Predicts Phrase.statement.language statement) (hStop : c.stop.kind = .eof)
    (hKind : c.current.kind = .whileWord) :
    Fits Phrase.statement.language c (whileStatement expression statement c) := by
  have hLoop := (predicts_condition hExpression .parenAfterWhile).bind hStatement.inhabited
    fun test => hStatement.map (Stmt.loop test)
  refine (hLoop.behind hStop hKind nofun).mono ?_
  rintro _ ⟨_, rfl, _, ⟨_, ⟨_, rfl, _, ⟨test, hTest, _, rfl, rfl⟩, rfl⟩, body, hBody, rfl⟩, rfl⟩
  show Derives .statement _
  simpa using Derives.loop hTest hBody

theorem fits_blockStatement (h : Predicts Phrase.statement.language statement)
    (hStop : c.stop.kind = .eof) (hKind : c.current.kind = .leftBrace) :
    Fits Phrase.statement.language c (blockStatement statement c) := by
  have hBody := predicts_items (fun kind => kind == .rightBrace || kind == .eof) h
  refine ((predicts_closed hBody .rightBrace nofun _ Stmt.block).behind hStop hKind nofun).mono ?_
  rintro _ ⟨_, rfl, _, ⟨body, hBody, _, rfl, rfl⟩, rfl⟩
  exact .block hBody

theorem predicts_statementOf (hExpression : Predicts (Phrase.expression 0).language expression)
    (hStatement : Predicts Phrase.statement.language statement) :
    Predicts Phrase.statement.language (statementOf expression statement) where
  inhabited := ⟨_, .input⟩
  fits {c} hStop := by
    rw [statementOf_apply]
    split
    · next hKind => exact fits_printStatement hExpression hStop hKind
    · next hKind => exact fits_inputStatement hStop hKind
    · next hKind => exact fits_ifStatement hExpression hStatement hStop hKind
    · next hKind => exact fits_whileStatement hExpression hStatement hStop hKind
    · next hKind => exact fits_blockStatement hStatement hStop hKind
    · split
      · exact (predicts_assignment hExpression).fits hStop
      · exact (predicts_expressionStatement hExpression).fits hStop
    · exact (predicts_expressionStatement hExpression).fits hStop

end

theorem predicts_statement (levels : Nat) :
    Predicts Phrase.statement.language (statement levels) := by
  induction levels with
  | zero => exact .tooDeep ⟨_, .input⟩
  | succ levels ih => exact predicts_statementOf (predicts_expression levels) ih

theorem predicts_program : Predicts Phrase.program.language program :=
  predicts_items _ (predicts_statement nestingLimit)

end Parse

/-! ### Unexpected tokens -/

/-- The frontier at a token, with other tokens behind it. -/
def Frontier.atToken (found : Token) (behind behind' : List Token) (e : Token)
    (hEnd : e.isEof = true) : Frontier where
  Same t t' := t = t'
  left := ⟨found :: behind, e⟩
  right := ⟨found :: behind', e⟩
  kind_eq h := congrArg Token.kind h
  lexeme_eq h _ := congrArg Token.lexeme h
  current := rfl
  nil_iff := by simp
  ended_left := beq_iff_eq.mp hEnd
  ended_right := beq_iff_eq.mp hEnd

theorem Frontier.abreast_append (before : List Token) (found : Token) (behind behind' : List Token)
    {e : Token} (hEnd : e.isEof = true) :
    (atToken found behind behind' e hEnd).Abreast ⟨before ++ found :: behind, e⟩
      ⟨before ++ found :: behind', e⟩ := by
  induction before with
  | nil => exact .edge
  | cons t before ih => exact .before rfl ih

/-- A token of each kind. -/
def Token.sample (kind : Token.Kind) : Token := ⟨kind, "0", ⟨0, 0⟩⟩

theorem Token.readable_sample (kind : Token.Kind) : (sample kind).Readable :=
  fun _ => (by decide +kernel : (Number.read? "0").isSome = true)

theorem Token.map_kind_sample (kinds : List Token.Kind) :
    (kinds.map sample).map kind = kinds := by
  induction kinds with
  | nil => rfl
  | cons kind kinds ih => rw [List.map_cons, List.map_cons, ih]; rfl

namespace Parse

variable {before behind : List Token} {found e : Token} {expected : Expected} {c : Cursor}

/-- What is unexpected stays unexpected, whatever comes behind it. -/
theorem unexpected_whatever_behind (hEnd : e.isEof = true)
    (h : program ⟨before ++ found :: behind, e⟩ =
      .error (.unexpected found expected) ⟨found :: behind, e⟩) (behind' : List Token) :
    ∃ c, program ⟨before ++ found :: behind', e⟩ = .error (.unexpected found expected) c := by
  have hAgree := local_program.agrees (Frontier.abreast_append before found behind behind' hEnd)
  rw [h] at hAgree
  generalize program ⟨before ++ found :: behind', e⟩ = r at hAgree ⊢
  cases hAgree with
  | error same abreast =>
    cases same with
    | unexpected same => exact ⟨_, by rw [same]⟩
  | past hPast => exact absurd hPast (Nat.lt_irrefl _)

/-- A program of the grammar has no unexpected token. -/
theorem program_ne_unexpected {tokens : List Token}
    (h : Derives .program (tokens.map Token.kind)) (hReadable : ∀ t ∈ tokens, t.Readable)
    (hEnd : e.isEof = true) : program ⟨tokens, e⟩ ≠ .error (.unexpected found expected) c := by
  intro hError
  rcases program_of_derives h hReadable hEnd with ⟨p, c', hOk⟩ | ⟨t, c', hDeep⟩
  · cases hError.symm.trans hOk
  · cases hError.symm.trans hDeep

/-- Nothing of the grammar begins with what is read and the unexpected token behind it. -/
theorem not_derives_of_unexpected (hTokens : ∀ t ∈ before ++ c.rest, t.isEof = false)
    (hReadable : ∀ t ∈ before ++ c.rest, t.Readable) (hEnd : c.stop.isEof = true)
    (h : program ⟨before ++ c.rest, c.stop⟩ = .error (.unexpected c.current expected) c)
    {kinds : List Token.Kind} (hKinds : Derives .program kinds) :
    ¬ (before ++ [c.current]).map Token.kind <+: kinds ++ [.eof] := by
  intro hPrefix
  rw [List.map_append, List.prefix_concat_iff] at hPrefix
  obtain ⟨rest, e⟩ := c
  cases rest with
  | nil =>
    have hCurrent : e.kind = .eof := beq_iff_eq.mp hEnd
    rw [List.append_nil] at h hReadable
    rcases hPrefix with hWhole | hFront
    · obtain rfl : before.map Token.kind = kinds := (List.append_inj' hWhole rfl).1
      exact program_ne_unexpected hKinds hReadable hEnd h
    · refine hKinds.eof_not_mem (hFront.subset ?_)
      rw [← hCurrent]
      exact List.mem_append_right _ List.mem_cons_self
  | cons found behind =>
    have hInside : found.kind ≠ .eof :=
      ne_of_beq_false (hTokens found (List.mem_append_right _ List.mem_cons_self))
    rcases hPrefix with hWhole | ⟨more, rfl⟩
    · have hKind := (List.append_inj' hWhole rfl).2
      exact hInside (List.cons.inj hKind).1
    · obtain ⟨c, hError⟩ := unexpected_whatever_behind hEnd h (more.map Token.sample)
      have hDerives :
          Derives .program ((before ++ found :: more.map Token.sample).map Token.kind) := by
        rw [List.map_append, List.map_cons, Token.map_kind_sample]
        simpa [Cursor.current] using hKinds
      have hReadable' : ∀ t ∈ before ++ found :: more.map Token.sample, t.Readable := by
        intro t hMem
        simp only [List.mem_append, List.mem_cons, List.mem_map] at hMem
        rcases hMem with hMem | rfl | ⟨kind, -, rfl⟩
        · exact hReadable t (List.mem_append_left _ hMem)
        · exact hReadable t (List.mem_append_right _ List.mem_cons_self)
        · exact Token.readable_sample kind
      exact program_ne_unexpected hDerives hReadable' hEnd hError

end Parse

/-- A syntax error that names an unexpected token is at the first token that no program has there.
The parser is left at that token, `k` tokens from the start.  The tokens before it begin a program
of the grammar, with it they begin none, and all tokens together are none. -/
theorem unexpected_at_first_impossible_token {tokens : List Token} {e found : Token}
    {expected : Expected} (hTokens : ∀ t ∈ tokens, t.isEof = false)
    (hReadable : ∀ t ∈ tokens, t.Readable) (hEnd : e.isEof = true)
    (h : Program.ofTokens (tokens ++ [e]) = .error (.unexpected found expected)) :
    ∃ k ≤ tokens.length, (tokens ++ [e])[k]? = some found ∧
      Parse.program (Cursor.ofTokens (tokens ++ [e])) =
        .error (.unexpected found expected) ⟨tokens.drop k, e⟩ ∧
      (∃ more, Derives .program ((tokens.take k).map Token.kind ++ more)) ∧
      (∀ kinds, Derives .program kinds →
        ¬ (tokens.take k ++ [found]).map Token.kind <+: kinds ++ [.eof]) ∧
      ¬ Derives .program (tokens.map Token.kind) := by
  have hCursor : Cursor.ofTokens (tokens ++ [e]) = ⟨tokens, e⟩ :=
    Cursor.ofTokens_append hTokens hEnd
  rw [Program.ofTokens, hCursor] at h
  cases hProgram : Parse.program ⟨tokens, e⟩ with
  | ok p c =>
    rw [hProgram] at h
    cases h
  | error cause c =>
    rw [hProgram] at h
    cases h
    have hLeads := Parse.local_program.leads ⟨tokens, e⟩
    have hFits := Parse.predicts_program.fits (c := ⟨tokens, e⟩) (beq_iff_eq.mp hEnd)
    rw [hProgram] at hLeads hFits
    obtain rfl : found = c.current := Parse.local_program.found hProgram found rfl
    obtain rfl : c.stop = e := hLeads.stop_eq
    obtain ⟨_, more, hMore, before, hRest, -, rfl⟩ := hFits
    obtain rfl : tokens = before ++ c.rest := hRest
    have hTake : (before ++ c.rest).take before.length = before := List.take_left
    have hDrop : (before ++ c.rest).drop before.length = c.rest := List.drop_left
    refine ⟨before.length, by simp, ?_, ?_, ?_, ?_, ?_⟩
    · obtain ⟨rest, stop⟩ := c
      cases rest <;> simp [Cursor.current]
    · rw [hCursor, hProgram, hDrop]
    · exact ⟨more, by rwa [hTake]⟩
    · intro kinds hKinds
      rw [hTake]
      exact Parse.not_derives_of_unexpected hTokens hReadable hEnd hProgram hKinds
    · intro hDerives
      exact Parse.program_ne_unexpected hDerives hReadable hEnd hProgram

/-- The tokens of `if (a) print b; else a = ; 2`, up to the second semicolon. -/
def beforeMissing : List Token :=
  [⟨.ifWord, "if", ⟨0, 2⟩⟩, ⟨.leftParen, "(", ⟨3, 4⟩⟩, ⟨.identifier, "a", ⟨4, 5⟩⟩,
    ⟨.rightParen, ")", ⟨5, 6⟩⟩, ⟨.printWord, "print", ⟨7, 12⟩⟩, ⟨.identifier, "b", ⟨13, 14⟩⟩,
    ⟨.semicolon, ";", ⟨14, 15⟩⟩, ⟨.elseWord, "else", ⟨16, 20⟩⟩, ⟨.identifier, "a", ⟨21, 22⟩⟩,
    ⟨.equal, "=", ⟨23, 24⟩⟩]

def insteadOfMissing : Token := ⟨.semicolon, ";", ⟨25, 26⟩⟩

def missingValue : List Token := beforeMissing ++ [insteadOfMissing, ⟨.number, "2", ⟨27, 28⟩⟩]

def behindMissing : Token := ⟨.eof, "", ⟨28, 28⟩⟩

theorem unexpected_at_first_impossible_token_missingValue :
    Program.ofTokens (missingValue ++ [behindMissing]) =
      .error (.unexpected insteadOfMissing .expression) ∧
    ∃ k ≤ missingValue.length, (missingValue ++ [behindMissing])[k]? = some insteadOfMissing ∧
      Parse.program (Cursor.ofTokens (missingValue ++ [behindMissing])) =
        .error (.unexpected insteadOfMissing .expression) ⟨missingValue.drop k, behindMissing⟩ ∧
      (∃ more, Derives .program ((missingValue.take k).map Token.kind ++ more)) ∧
      (∀ kinds, Derives .program kinds →
        ¬ (missingValue.take k ++ [insteadOfMissing]).map Token.kind <+: kinds ++ [.eof]) ∧
      ¬ Derives .program (missingValue.map Token.kind) := by
  have hReadable : ∀ t ∈ missingValue, t.Readable := by
    have hNumber : (Number.read? "2").isSome = true := by decide +kernel
    simp [missingValue, beforeMissing, insteadOfMissing, Token.Readable, hNumber]
  have h : Program.ofTokens (missingValue ++ [behindMissing]) =
      .error (.unexpected insteadOfMissing .expression) := rfl
  exact ⟨h, unexpected_at_first_impossible_token (by decide) hReadable rfl h⟩

end Abacus
