import Abacus.Proofs.Tree.Progress
import Abacus.Proofs.Tree.Soundness

/-! Parsers are local: what they do depends on the tokens up to where they stop.

Two token sequences are read side by side.  They have the same tokens, up to what no parser looks
at, as far as a frontier, where also the next token is the same; behind it they may differ.  Two
runs stay side by side, and come to the same result, unless the first of them goes on past the
frontier. -/

namespace Abacus

/-- Where two token sequences cease to be the same, and which tokens count as the same. -/
structure Frontier where
  Same : Token → Token → Prop
  left : Cursor
  right : Cursor
  kind_eq {t t' : Token} (h : Same t t') : t.kind = t'.kind
  lexeme_eq {t t' : Token} (h : Same t t') (inside : t.kind ≠ .eof) : t.lexeme = t'.lexeme
  current : Same left.current right.current
  nil_iff : left.rest = [] ↔ right.rest = []
  ended_left : left.stop.kind = .eof
  ended_right : right.stop.kind = .eof

namespace Frontier

/-- Two cursors before or at the frontier, with the same tokens in between. -/
inductive Abreast (F : Frontier) : Cursor → Cursor → Prop
  | edge : Abreast F F.left F.right
  | before {t t' : Token} {rest rest' : List Token} {stop stop' : Token} (same : F.Same t t')
      (others : Abreast F ⟨rest, stop⟩ ⟨rest', stop'⟩) :
      Abreast F ⟨t :: rest, stop⟩ ⟨t' :: rest', stop'⟩

/-- Errors that differ in their tokens at most, and there in what no parser looks at. -/
inductive SameError (F : Frontier) : SyntaxError → SyntaxError → Prop
  | unexpected {found found' : Token} (same : F.Same found found') (expected : Expected) :
      SameError F (.unexpected found expected) (.unexpected found' expected)
  | invalidNumber (lexeme : String) :
      SameError F (.invalidNumber lexeme) (.invalidNumber lexeme)
  | tooDeep {found found' : Token} (same : F.Same found found') (limit : Nat) :
      SameError F (.tooDeep found limit) (.tooDeep found' limit)

/-- Results that are the same and leave the cursors side by side, unless the first one leaves it
past the frontier. -/
inductive Agree {α : Type} (F : Frontier) :
    (left right : EStateM.Result SyntaxError Cursor α) → Prop
  | ok {a : α} {c d : Cursor} (abreast : F.Abreast c d) : Agree F (.ok a c) (.ok a d)
  | error {e e' : SyntaxError} {c d : Cursor} (same : F.SameError e e')
      (abreast : F.Abreast c d) : Agree F (.error e c) (.error e' d)
  | past {r r' : EStateM.Result SyntaxError Cursor α}
      (h : (Parse.cursorAfter r).rest.length < F.left.rest.length) : Agree F r r'

variable {F : Frontier} {c d : Cursor} {α β : Type}

namespace Abreast

theorem current (h : F.Abreast c d) : F.Same c.current d.current := by
  cases h with
  | edge => exact F.current
  | before same others => exact same

theorem kind_eq (h : F.Abreast c d) : c.current.kind = d.current.kind := F.kind_eq h.current

theorem ended (h : F.Abreast c d) : c.stop.kind = .eof ∧ d.stop.kind = .eof := by
  induction h with
  | edge => exact ⟨F.ended_left, F.ended_right⟩
  | before _ _ ih => exact ih

/-- One step leads to cursors side by side, or past the frontier. -/
theorem advance (h : F.Abreast c d) :
    F.Abreast c.advance d.advance ∨ c.advance.rest.length < F.left.rest.length := by
  cases h with
  | edge =>
    by_cases hNil : F.left.rest = []
    · have hLeft : F.left.advance = F.left := by rw [Cursor.advance, hNil, List.tail_nil, ← hNil]
      have hRight : F.right.advance = F.right := by
        rw [Cursor.advance, F.nil_iff.mp hNil, List.tail_nil, ← F.nil_iff.mp hNil]
      rw [hLeft, hRight]
      exact .inl .edge
    · have hPos := List.length_pos_iff.mpr hNil
      right
      show F.left.rest.tail.length < _
      rw [List.length_tail]
      omega
  | before same others => exact .inl others

end Abreast

open Parse

theorem Agree.of_leads {start : Cursor} {r r' : EStateM.Result SyntaxError Cursor α}
    (h : start.Leads (cursorAfter r)) (hPast : start.rest.length < F.left.rest.length) :
    F.Agree r r' :=
  .past (Nat.lt_of_le_of_lt h.length_le hPast)

theorem Agree.bind {p q : Parse α} {f g : α → Parse β} (h : F.Agree (p c) (q d))
    (hf : ∀ a, Orderly (f a))
    (hNext : ∀ {a c' d'}, p c = .ok a c' → q d = .ok a d' → F.Abreast c' d' →
      F.Agree (f a c') (g a d')) :
    F.Agree ((p >>= f) c) ((q >>= g) d) := by
  generalize hp : p c = r at h
  generalize hq : q d = r' at h
  cases h with
  | ok abreast =>
    rw [bind_of_ok hp, bind_of_ok hq]
    exact hNext hp hq abreast
  | error same abreast =>
    rw [bind_of_error hp, bind_of_error hq]
    exact .error same abreast
  | past h =>
    refine .past (Nat.lt_of_le_of_lt ?_ h)
    rw [← hp]
    exact (leads_bind (.refl _) hf).length_le

end Frontier

namespace Parse

open Frontier (Agree)

variable {α β : Type} {c d : Cursor} {F : Frontier}

/-- From cursors side by side the parser comes to results that agree. -/
structure Local (p : Parse α) : Prop extends Orderly p where
  agrees {F : Frontier} {c d : Cursor} (h : F.Abreast c d) : F.Agree (p c) (p d)

theorem agree_expect (h : F.Abreast c d) {kind : Token.Kind} {expected : Expected}
    {f : Token → Parse β} (hf : ∀ t, Orderly (f t))
    (hNext : c.current.kind = kind → F.Abreast c.advance d.advance →
      F.Agree (f c.current c.advance) (f d.current d.advance)) :
    F.Agree ((expect kind expected >>= f) c) ((expect kind expected >>= f) d) := by
  by_cases hKind : c.current.kind = kind
  · have hExpect : expect kind expected c = .ok c.current c.advance := if_pos hKind
    have hExpect' : expect kind expected d = .ok d.current d.advance := if_pos (h.kind_eq ▸ hKind)
    rw [bind_of_ok hExpect, bind_of_ok hExpect']
    rcases h.advance with hAdvance | hPast
    · exact hNext hKind hAdvance
    · exact .of_leads ((hf _).leads _) hPast
  · have hExpect : expect kind expected c = .error (.unexpected c.current expected) c :=
      if_neg hKind
    have hExpect' : expect kind expected d = .error (.unexpected d.current expected) d :=
      if_neg (h.kind_eq ▸ hKind)
    rw [bind_of_error hExpect, bind_of_error hExpect']
    exact .error (.unexpected h.current expected) h

namespace Local

variable {p : Parse α} {q : Parse β}

theorem pure (a : α) : Local (pure a) := ⟨.pure a, fun h => .ok h⟩

theorem refuse (expected : Expected) : Local (refuse expected : Parse α) :=
  ⟨.refuse expected, fun h => .error (.unexpected h.current expected) h⟩

theorem tooDeep : Local (tooDeep : Parse α) :=
  ⟨.tooDeep, fun h => .error (.tooDeep h.current nestingLimit) h⟩

theorem bind {f : α → Parse β} (h : Local p) (hf : ∀ a, Local (f a)) : Local (p >>= f) where
  toOrderly := h.toOrderly.bind fun a => (hf a).toOrderly
  agrees abreast :=
    (h.agrees abreast).bind (fun a => (hf a).toOrderly) fun _ _ abreast => (hf _).agrees abreast

/-- Of the token at the cursor only the kind is looked at. -/
theorem current {f : Token → Parse β} (hf : ∀ t, Local (f t))
    (hKind : ∀ {t t'}, t.kind = t'.kind → f t = f t') : Local (current >>= f) where
  toOrderly := Orderly.current.bind fun t => (hf t).toOrderly
  agrees abreast := by
    rw [current_bind, current_bind, hKind abreast.kind_eq]
    exact (hf _).agrees abreast

theorem agrees_advance (h : Local p) (abreast : F.Abreast c d) :
    F.Agree (p c.advance) (p d.advance) := by
  rcases abreast.advance with hAdvance | hPast
  · exact h.agrees hAdvance
  · exact .of_leads (h.leads _) hPast

theorem advance {f : Token → Parse β} (hf : ∀ t, Local (f t))
    (hKind : ∀ {t t'}, t.kind = t'.kind → f t = f t') : Local (advance >>= f) where
  toOrderly := Orderly.advance.bind fun t => (hf t).toOrderly
  agrees abreast := by
    rw [advance_bind, advance_bind, hKind abreast.kind_eq]
    exact (hf _).agrees_advance abreast

theorem skip (h : Local q) : Local (Parse.advance >>= fun _ => q) :=
  advance (fun _ => h) fun _ => rfl

theorem expect (h : Local q) (kind : Token.Kind) (expected : Expected) :
    Local (expect kind expected >>= fun _ => q) where
  toOrderly := (Orderly.expect kind expected).bind fun _ => h.toOrderly
  agrees abreast := agree_expect abreast (fun _ => h.toOrderly) fun _ => h.agrees

theorem expectName (expected : Expected) : Local (expectName expected) where
  toOrderly := .expectName expected
  agrees {F c d} abreast := by
    refine agree_expect abreast (fun t => .pure t.lexeme) fun hKind hAdvance => ?_
    rw [F.lexeme_eq abreast.current (by simp [hKind])]
    exact .ok hAdvance

end Local

/-! ### Expressions -/

section chain

variable {operator? : Token.Kind → Option BinaryOp} {operand : Parse Expr} {precedence : Nat}

theorem orderly_chainFrom (h : Orderly operand) (count : Nat) (left : Expr) :
    Orderly (chainFrom operator? operand count left) := by
  induction count generalizing left with
  | zero => exact .pure left
  | succ count ih =>
    refine Orderly.current.bind fun t => ?_
    cases operator? t.kind with
    | none => exact .pure left
    | some op => exact Orderly.advance.bind fun _ => h.bind fun right => ih _

/-- The counts need not be the same, since both are enough for the tokens ahead. -/
theorem agree_chainFrom (hOperators : Operators operator? precedence) (hOperand : Local operand)
    {count count' : Nat} (left : Expr) (h : F.Abreast c d) (hCount : c.rest.length ≤ count)
    (hCount' : d.rest.length ≤ count') :
    F.Agree (chainFrom operator? operand count left c)
      (chainFrom operator? operand count' left d) := by
  induction count using Nat.strongRecOn generalizing count' left c d with
  | _ count ih =>
    cases hOp : operator? c.current.kind with
    | none =>
      rw [chainFrom_of_none hOp, chainFrom_of_none (h.kind_eq ▸ hOp)]
      exact .ok h
    | some op =>
      have hInside : c.current.kind ≠ .eof := by
        rw [← ((hOperators _ _).mp hOp).2]
        exact op.token_ne_eof
      have hShorter := Cursor.length_advance_lt h.ended.1 hInside
      have hShorter' := Cursor.length_advance_lt h.ended.2 (h.kind_eq ▸ hInside)
      obtain ⟨count, rfl⟩ : ∃ n, count = n + 1 := ⟨count - 1, by omega⟩
      obtain ⟨count', rfl⟩ : ∃ n, count' = n + 1 := ⟨count' - 1, by omega⟩
      rw [chainFrom_of_operator hOp, chainFrom_of_operator (h.kind_eq ▸ hOp)]
      have hChain (right : Expr) :
          Orderly (chainFrom operator? operand count (.binary op left right)) :=
        orderly_chainFrom hOperand.toOrderly count _
      rcases h.advance with hAdvance | hPast
      · refine (hOperand.agrees hAdvance).bind hChain fun hc hd h' => ?_
        have hLength := hOperand.toOrderly.length_le hc
        have hLength' := hOperand.toOrderly.length_le hd
        exact ih count (by omega) _ h' (by omega) (by omega)
      · exact .of_leads ((hOperand.toOrderly.bind hChain).leads c.advance) hPast

theorem orderly_chainBehind (h : Orderly operand) (left : Expr) :
    Orderly (do chainFrom operator? operand (← get).rest.length left) :=
  Orderly.get.bind fun c => orderly_chainFrom h c.rest.length left

/-- A chain begins with what its operand reads. -/
theorem leads_chain {start : Cursor} (h : Orderly operand)
    (hLeads : start.Leads (cursorAfter (operand c))) :
    start.Leads (cursorAfter (chain operator? operand c)) :=
  leads_bind hLeads (orderly_chainBehind h)

theorem local_chain (hOperators : Operators operator? precedence) (h : Local operand) :
    Local (chain operator? operand) :=
  h.bind fun left =>
    ⟨orderly_chainBehind h.toOrderly left,
      fun abreast => agree_chainFrom hOperators h left abreast le_rfl le_rfl⟩

end chain

theorem local_expressionOf {operand : Parse Expr} (h : Local operand) :
    Local (expressionOf operand) :=
  local_chain operators_equality <| local_chain operators_comparison <|
    local_chain operators_sum <| local_chain operators_product h

/-- An expression and the token that must be behind it. -/
theorem local_closed {expression : Parse Expr} (h : Local expression) (kind : Token.Kind)
    (expected : Expected) (f : Expr → α) :
    Local (do
      let value ← expression
      let _ ← expect kind expected
      return f value) :=
  h.bind fun value => (Local.pure (f value)).expect kind expected

theorem literal_of_lexeme_eq {t t' : Token} (h : t.lexeme = t'.lexeme) :
    literal t = literal t' := by
  rw [literal, literal, h]

theorem local_literal (t : Token) : Local (literal t) := by
  unfold literal
  split
  · exact .pure _
  · exact ⟨.invalid _, fun h => .error (.invalidNumber _) h⟩

theorem local_operandOf {inner negated : Parse Expr} (hInner : Local inner)
    (hNegated : Local negated) : Local (operandOf inner negated) where
  toOrderly := by
    refine Orderly.current.bind fun t => ?_
    split
    · exact (Local.skip (hNegated.bind fun e => .pure _)).toOrderly
    · exact Orderly.advance.bind fun t => (local_literal t).toOrderly
    · exact Orderly.advance.bind fun t => .pure _
    · exact (Local.skip (local_closed hInner _ _ Expr.group)).toOrderly
    · exact .refuse _
  agrees {F c d} h := by
    rw [operandOf_apply, operandOf_apply, ← h.kind_eq]
    split
    · exact (hNegated.bind fun e => .pure (Expr.unary .neg e)).agrees_advance h
    · next hNumber =>
      rw [← literal_of_lexeme_eq (F.lexeme_eq h.current (by simp [hNumber]))]
      exact (local_literal _).agrees_advance h
    · next hName =>
      rw [← F.lexeme_eq h.current (by simp [hName])]
      exact (Local.pure (Expr.var _)).agrees_advance h
    · exact (local_closed hInner _ _ Expr.group).agrees_advance h
    · exact (Local.refuse .expression).agrees h

theorem local_operand (levels : Nat) : Local (operand levels) := by
  induction levels with
  | zero => exact local_operandOf .tooDeep .tooDeep
  | succ levels ih => exact local_operandOf (local_expressionOf ih) ih

theorem local_expression (levels : Nat) : Local (expression levels) :=
  local_expressionOf (local_operand levels)

/-- An expression that begins with a name takes the name. -/
theorem leads_expression_of_name (levels : Nat) (h : c.current.kind = .identifier) :
    c.advance.Leads (cursorAfter (expression levels c)) := by
  have hOperand : c.advance.Leads (cursorAfter (operand levels c)) := by
    cases levels <;> rw [operand, operandOf_apply] <;> simp only [h] <;> exact .refl _
  have hLocal := local_operand levels
  have hProduct := local_chain operators_product hLocal
  have hSum := local_chain operators_sum hProduct
  have hComparison := local_chain operators_comparison hSum
  exact leads_chain hComparison.toOrderly <| leads_chain hSum.toOrderly <|
    leads_chain hProduct.toOrderly <| leads_chain hLocal.toOrderly hOperand

/-! ### Statements -/

section

variable {expression : Parse Expr} {statement : Parse Stmt}

theorem local_named (expected : Expected) (kind : Token.Kind) (expected' : Expected)
    (f : String → Stmt) :
    Local (do
      let name ← expectName expected
      let _ ← expect kind expected'
      return f name) :=
  (Local.expectName expected).bind fun name => (Local.pure (f name)).expect kind expected'

theorem local_declaration : Local declaration :=
  Local.advance (fun t => local_named _ _ _ (Stmt.declare _)) fun hKind => by simp only [hKind]

theorem local_itemOf (h : Local statement) : Local (itemOf statement) := by
  refine Local.current (fun t => ?_) fun hKind => by simp only [hKind]
  split
  · exact local_declaration
  · exact h

section items

variable {closes : Token.Kind → Bool} {bound : Nat}

theorem orderly_itemsUpTo (h : Local statement) (count : Nat) :
    Orderly (itemsUpTo closes statement count) := by
  induction count with
  | zero => exact .pure _
  | succ count ih =>
    refine Orderly.current.bind fun t => ?_
    split
    · exact .pure _
    · exact (local_itemOf h).toOrderly.bind fun _ => ih.bind fun _ => .pure _

theorem agree_itemsUpTo (hCloses : closes .eof = true)
    (hSound : SoundStatement statement (bound + 1)) (hStatement : Local statement)
    {count count' : Nat} (h : F.Abreast c d) (hCount : c.rest.length ≤ count)
    (hCount' : d.rest.length ≤ count') :
    F.Agree (itemsUpTo closes statement count c) (itemsUpTo closes statement count' d) := by
  induction count using Nat.strongRecOn generalizing count' c d with
  | _ count ih =>
    obtain ⟨hStop, hStop'⟩ := h.ended
    cases hOpen : closes c.current.kind with
    | true =>
      rw [itemsUpTo_of_closes hOpen, itemsUpTo_of_closes (h.kind_eq ▸ hOpen)]
      exact .ok h
    | false =>
      have hInside : c.current.kind ≠ .eof := by
        intro hEof
        rw [hEof, hCloses] at hOpen
        cases hOpen
      have hShorter := Cursor.length_advance_lt hStop hInside
      have hShorter' := Cursor.length_advance_lt hStop' (h.kind_eq ▸ hInside)
      obtain ⟨count, rfl⟩ : ∃ n, count = n + 1 := ⟨count - 1, by omega⟩
      obtain ⟨count', rfl⟩ : ∃ n, count' = n + 1 := ⟨count' - 1, by omega⟩
      rw [itemsUpTo_of_open hOpen, itemsUpTo_of_open (h.kind_eq ▸ hOpen)]
      have hOthers : Orderly (itemsUpTo closes statement count) :=
        orderly_itemsUpTo hStatement count
      refine ((local_itemOf hStatement).agrees h).bind
        (fun _ => hOthers.bind fun _ => .pure _) fun hc hd h' => ?_
      have hLength := length_itemOf_lt hSound hc hStop
      have hLength' := length_itemOf_lt hSound hd hStop'
      exact (ih count (by omega) h' (by omega) (by omega)).bind (fun _ => .pure _)
        fun _ _ h'' => .ok h''

theorem local_items (hCloses : closes .eof = true) (hSound : SoundStatement statement (bound + 1))
    (h : Local statement) : Local (items closes statement) where
  toOrderly := Orderly.get.bind fun c => orderly_itemsUpTo h c.rest.length
  agrees abreast := agree_itemsUpTo hCloses hSound h abreast le_rfl le_rfl

end items

theorem local_condition (h : Local expression) (opening : Expected) :
    Local (condition expression opening) :=
  (local_closed h _ _ id).expect _ _

theorem local_assignment (h : Local expression) : Local (assignment expression) :=
  (Local.expectName _).bind fun name => (local_closed h _ _ (Stmt.assign name)).expect _ _

theorem local_printStatement (h : Local expression) : Local (printStatement expression) :=
  .skip (local_closed h _ _ Stmt.print)

theorem local_inputStatement : Local inputStatement := .skip (local_named _ _ _ Stmt.input)

theorem local_ifStatement (hExpression : Local expression) (hStatement : Local statement) :
    Local (ifStatement expression statement) := by
  refine .skip ((local_condition hExpression _).bind fun _ => hStatement.bind fun _ =>
    Local.current (fun t => ?_) fun hKind => by simp only [hKind])
  split
  · exact .skip (hStatement.bind fun otherwise => .pure _)
  · exact .pure _

theorem local_whileStatement (hExpression : Local expression) (hStatement : Local statement) :
    Local (whileStatement expression statement) :=
  .skip ((local_condition hExpression _).bind fun _ => hStatement.bind fun _ => .pure _)

theorem local_blockStatement {bound : Nat} (hSound : SoundStatement statement (bound + 1))
    (h : Local statement) : Local (blockStatement statement) :=
  .skip ((local_items rfl hSound h).bind fun body => (Local.pure (Stmt.block body)).expect _ _)

theorem local_expressionStatement (h : Local expression) :
    Local (expressionStatement expression) :=
  local_closed h _ _ Stmt.discard

theorem local_statementOf {bound : Nat} (hExpression : Local expression)
    (hSound : SoundStatement statement (bound + 1)) (hStatement : Local statement)
    (hName : ∀ c : Cursor, c.current.kind = .identifier →
      c.advance.Leads (cursorAfter (expression c))) :
    Local (statementOf expression statement) where
  toOrderly := by
    refine Orderly.current.bind fun t => ?_
    split
    · exact (local_printStatement hExpression).toOrderly
    · exact local_inputStatement.toOrderly
    · exact (local_ifStatement hExpression hStatement).toOrderly
    · exact (local_whileStatement hExpression hStatement).toOrderly
    · exact (local_blockStatement hSound hStatement).toOrderly
    · refine Orderly.get.bind fun c => ?_
      split
      · exact (local_assignment hExpression).toOrderly
      · exact (local_expressionStatement hExpression).toOrderly
    · exact (local_expressionStatement hExpression).toOrderly
  agrees {F c d} h := by
    rw [statementOf_apply, statementOf_apply, ← h.kind_eq]
    split
    · exact (local_printStatement hExpression).agrees h
    · exact local_inputStatement.agrees h
    · exact (local_ifStatement hExpression hStatement).agrees h
    · exact (local_whileStatement hExpression hStatement).agrees h
    · exact (local_blockStatement hSound hStatement).agrees h
    · next hKind =>
      rcases h.advance with hAdvance | hPast
      · rw [show d.nextKind = c.nextKind from hAdvance.kind_eq.symm]
        split
        · exact (local_assignment hExpression).agrees h
        · exact (local_expressionStatement hExpression).agrees h
      · -- The two may go different ways here, but the first one reads the name in any case.
        refine .of_leads ?_ hPast
        split
        · have hExpect : expectName .nameInAssignment c = .ok c.current.lexeme c.advance := by
            rw [expectName, bind_of_ok (if_pos hKind)]
            rfl
          rw [assignment, bind_of_ok hExpect]
          exact ((local_closed hExpression _ _ (Stmt.assign _)).expect _ _).leads _
        · exact leads_bind (hName c hKind) fun value =>
            ((Local.pure (Stmt.discard value)).expect _ _).toOrderly
    · exact (local_expressionStatement hExpression).agrees h

end

theorem local_statement (levels : Nat) : Local (statement levels) := by
  induction levels with
  | zero => exact .tooDeep
  | succ levels ih =>
    exact local_statementOf (local_expression levels) (sound_statement levels) ih fun _ =>
      leads_expression_of_name levels

theorem local_program : Local program :=
  local_items rfl (sound_statement nestingLimit) (local_statement nestingLimit)

end Parse

end Abacus
