import Abacus.Proofs.Tree.Completeness

/-! The grammar as rules over kinds of tokens, without trees.  What the rules derive is the spelling
of a canonical tree.  The rules leave open which conditional an `else` belongs to; in the tree it
belongs to the nearest one. -/

namespace Abacus

/-- What the grammar has rules for.  Expressions are told apart by how close their operators bind
at least: from equality at 0 up to operands that are no unary minus at 5. -/
inductive Phrase where
  | program | item | statement
  | expression (precedence : Nat)

/-- The kinds of tokens that make up a phrase. -/
inductive Derives : Phrase → List Token.Kind → Prop
  | empty : Derives .program []
  | more {first others : List Token.Kind} (hFirst : Derives .item first)
      (hOthers : Derives .program others) : Derives .program (first ++ others)
  | declaration (type : VarType) : Derives .item [type.token, .identifier, .semicolon]
  | statement {kinds : List Token.Kind} (h : Derives .statement kinds) : Derives .item kinds
  | print {value : List Token.Kind} (h : Derives (.expression 0) value) :
      Derives .statement (.printWord :: (value ++ [.semicolon]))
  | input : Derives .statement [.inputWord, .identifier, .semicolon]
  | ifThen {test body : List Token.Kind} (hTest : Derives (.expression 0) test)
      (hBody : Derives .statement body) :
      Derives .statement (.ifWord :: .leftParen :: (test ++ .rightParen :: body))
  | ifElse {test body otherwise : List Token.Kind} (hTest : Derives (.expression 0) test)
      (hBody : Derives .statement body) (hOtherwise : Derives .statement otherwise) :
      Derives .statement (.ifWord :: .leftParen ::
        (test ++ .rightParen :: (body ++ .elseWord :: otherwise)))
  | loop {test body : List Token.Kind} (hTest : Derives (.expression 0) test)
      (hBody : Derives .statement body) :
      Derives .statement (.whileWord :: .leftParen :: (test ++ .rightParen :: body))
  | block {body : List Token.Kind} (h : Derives .program body) :
      Derives .statement (.leftBrace :: (body ++ [.rightBrace]))
  | assign {value : List Token.Kind} (h : Derives (.expression 0) value) :
      Derives .statement (.identifier :: .equal :: (value ++ [.semicolon]))
  | discard {value : List Token.Kind} (h : Derives (.expression 0) value) :
      Derives .statement (value ++ [.semicolon])
  | binary (op : BinaryOp) {left right : List Token.Kind}
      (hLeft : Derives (.expression op.precedence) left)
      (hRight : Derives (.expression (op.precedence + 1)) right) :
      Derives (.expression op.precedence) (left ++ op.token :: right)
  | closer {precedence : Nat} {kinds : List Token.Kind}
      (h : Derives (.expression (precedence + 1)) kinds) : Derives (.expression precedence) kinds
  | minus {operand : List Token.Kind} (h : Derives (.expression 4) operand) :
      Derives (.expression 4) (.minus :: operand)
  | number : Derives (.expression 5) [.number]
  | name : Derives (.expression 5) [.identifier]
  | group {inner : List Token.Kind} (h : Derives (.expression 0) inner) :
      Derives (.expression 5) (.leftParen :: (inner ++ [.rightParen]))

theorem Derives.eof_not_mem {phrase : Phrase} {kinds : List Token.Kind} (h : Derives phrase kinds) :
    .eof ∉ kinds := by
  induction h with
  | declaration type => cases type <;> simp [VarType.token]
  | binary op _ _ ihLeft ihRight =>
    have hToken := op.token_ne_eof.symm
    simp [ihLeft, ihRight, hToken]
  | _ => simp_all

/-! ### Trees of what is derived -/

/-- The marks stand for tokens of these kinds. -/
inductive Marked : List Token.Kind → List Mark → Prop
  | nil : Marked [] []
  | word {kind : Token.Kind} {kinds : List Token.Kind} {marks : List Mark}
      (notName : kind ≠ .identifier) (notNumber : kind ≠ .number) (others : Marked kinds marks) :
      Marked (kind :: kinds) (.word kind :: marks)
  | name {kinds : List Token.Kind} {marks : List Mark} (text : String)
      (others : Marked kinds marks) : Marked (.identifier :: kinds) (.name text :: marks)
  | number {kinds : List Token.Kind} {marks : List Mark} (value : Float)
      (others : Marked kinds marks) : Marked (.number :: kinds) (.number value :: marks)

namespace Marked

variable {kind : Token.Kind} {kinds kinds' : List Token.Kind} {marks : List Mark}

theorem uncons (h : Marked (kind :: kinds) marks) (notName : kind ≠ .identifier)
    (notNumber : kind ≠ .number) :
    ∃ others, marks = .word kind :: others ∧ Marked kinds others := by
  cases h with
  | word _ _ others => exact ⟨_, rfl, others⟩
  | name => exact absurd rfl notName
  | number => exact absurd rfl notNumber

theorem uncons_name (h : Marked (.identifier :: kinds) marks) :
    ∃ text others, marks = .name text :: others ∧ Marked kinds others := by
  cases h with
  | word notName _ _ => exact absurd rfl notName
  | name text others => exact ⟨text, _, rfl, others⟩

theorem uncons_number (h : Marked (.number :: kinds) marks) :
    ∃ value others, marks = .number value :: others ∧ Marked kinds others := by
  cases h with
  | word _ notNumber _ => exact absurd rfl notNumber
  | number value others => exact ⟨value, _, rfl, others⟩

theorem eq_nil (h : Marked [] marks) : marks = [] := by
  cases h
  rfl

theorem split (h : Marked (kinds ++ kinds') marks) :
    ∃ front back, marks = front ++ back ∧ Marked kinds front ∧ Marked kinds' back := by
  induction kinds generalizing marks with
  | nil => exact ⟨[], marks, rfl, .nil, h⟩
  | cons kind kinds ih =>
    cases h with
    | word notName notNumber others =>
      obtain ⟨front, back, rfl, hFront, hBack⟩ := ih others
      exact ⟨_ :: front, back, rfl, .word notName notNumber hFront, hBack⟩
    | name text others =>
      obtain ⟨front, back, rfl, hFront, hBack⟩ := ih others
      exact ⟨_ :: front, back, rfl, .name text hFront, hBack⟩
    | number value others =>
      obtain ⟨front, back, rfl, hFront, hBack⟩ := ih others
      exact ⟨_ :: front, back, rfl, .number value hFront, hBack⟩

theorem split_at {between : Token.Kind} (h : Marked (kinds ++ between :: kinds') marks)
    (notName : between ≠ .identifier) (notNumber : between ≠ .number) :
    ∃ front back, marks = front ++ .word between :: back ∧ Marked kinds front ∧
      Marked kinds' back := by
  obtain ⟨front, behind, rfl, hFront, hBehind⟩ := h.split
  obtain ⟨back, rfl, hBack⟩ := hBehind.uncons notName notNumber
  exact ⟨front, back, rfl, hFront, hBack⟩

theorem split_last {closing : Token.Kind} (h : Marked (kinds ++ [closing]) marks)
    (notName : closing ≠ .identifier) (notNumber : closing ≠ .number) :
    ∃ front, marks = front ++ [.word closing] ∧ Marked kinds front := by
  obtain ⟨front, back, rfl, hFront, hBack⟩ := h.split_at notName notNumber
  obtain rfl := hBack.eq_nil
  exact ⟨front, rfl, hFront⟩

theorem split_parenthesized (h : Marked (.leftParen :: (kinds ++ .rightParen :: kinds')) marks) :
    ∃ inner back, marks = parenthesized inner ++ back ∧ Marked kinds inner ∧
      Marked kinds' back := by
  obtain ⟨behind, rfl, hBehind⟩ := h.uncons nofun nofun
  obtain ⟨inner, back, rfl, hInner, hBack⟩ := hBehind.split_at nofun nofun
  exact ⟨inner, back, by simp [parenthesized], hInner, hBack⟩

theorem eq_named (h : Marked [.identifier, .semicolon] marks) :
    ∃ text, marks = [.name text, .word .semicolon] := by
  obtain ⟨text, behind, rfl, hBehind⟩ := h.uncons_name
  obtain ⟨back, rfl, hBack⟩ := hBehind.uncons nofun nofun
  obtain rfl := hBack.eq_nil
  exact ⟨text, rfl⟩

end Marked

namespace Token

/-- Whether the lexeme of a number token is a number. -/
def Readable (t : Token) : Prop := t.kind = .number → (Number.read? t.lexeme).isSome = true

/-- Tokens whose numbers can be read have marks that they match. -/
theorem exists_marks {tokens : List Token} (h : ∀ t ∈ tokens, t.Readable) :
    ∃ marks, Marked (tokens.map kind) marks ∧ Spells marks tokens := by
  induction tokens with
  | nil => exact ⟨[], .nil, .nil⟩
  | cons t tokens ih =>
    obtain ⟨hFirst, hOthers⟩ := List.forall_mem_cons.mp h
    obtain ⟨marks, hMarked, hSpells⟩ := ih hOthers
    by_cases hName : t.kind = .identifier
    · refine ⟨.name t.lexeme :: marks, ?_, .cons ⟨hName, rfl⟩ hSpells⟩
      rw [List.map_cons, hName]
      exact .name t.lexeme hMarked
    · by_cases hNumber : t.kind = .number
      · obtain ⟨value, hValue⟩ := Option.isSome_iff_exists.mp (hFirst hNumber)
        refine ⟨.number value :: marks, ?_, .cons ⟨hNumber, hValue⟩ hSpells⟩
        rw [List.map_cons, hNumber]
        exact .number value hMarked
      · exact ⟨.word t.kind :: marks, .word hName hNumber hMarked, .cons rfl hSpells⟩

end Token

/-- A statement that ends in a conditional without `else` takes an `else` behind it. -/
theorem Stmt.exists_attached {otherwise : Stmt} (hOther : otherwise.Canonical)
    (hNot : otherwise.isDeclare = false) (s : Stmt) (h : s.Canonical)
    (hEnds : s.endsInIfThen = true) :
    ∃ s' : Stmt, s'.Canonical ∧ s'.isDeclare = false ∧
      s'.marks = s.marks ++ .word .elseWord :: otherwise.marks := by
  match s with
  | .ifThen test body =>
    obtain ⟨hTest, hBodyNot, hBody⟩ := h
    cases hInner : body.endsInIfThen with
    | true =>
      obtain ⟨body', hBody', hNot', hMarks⟩ := exists_attached hOther hNot body hBody hInner
      exact ⟨.ifThen test body', ⟨hTest, hNot', hBody'⟩, rfl, by simp [Stmt.marks, hMarks]⟩
    | false =>
      exact ⟨.ifElse test body otherwise, ⟨hTest, hBodyNot, hBody, hInner, hNot, hOther⟩, rfl,
        by simp [Stmt.marks]⟩
  | .ifElse test body last =>
    obtain ⟨hTest, hBodyNot, hBody, hInner, hLastNot, hLast⟩ := h
    obtain ⟨last', hLast', hNot', hMarks⟩ := exists_attached hOther hNot last hLast hEnds
    exact ⟨.ifElse test body last', ⟨hTest, hBodyNot, hBody, hInner, hNot', hLast'⟩, rfl,
      by simp [Stmt.marks, hMarks]⟩
  | .loop test body =>
    obtain ⟨hTest, hBodyNot, hBody⟩ := h
    obtain ⟨body', hBody', hNot', hMarks⟩ := exists_attached hOther hNot body hBody hEnds
    exact ⟨.loop test body', ⟨hTest, hNot', hBody'⟩, rfl, by simp [Stmt.marks, hMarks]⟩
  | .declare .. | .assign .. | .print .. | .input .. | .discard .. | .block .. => cases hEnds

/-- There is a canonical tree of the phrase with this spelling. -/
def Phrase.HasTree : Phrase → List Mark → Prop
  | program, marks => ∃ p : Program, p.Canonical ∧ p.marks = marks
  | item, marks => ∃ s : Stmt, s.Canonical ∧ s.marks = marks
  | statement, marks => ∃ s : Stmt, s.Canonical ∧ s.isDeclare = false ∧ s.marks = marks
  | expression precedence, marks =>
    ∃ e : Expr, e.Canonical ∧ precedence ≤ e.precedence ∧ e.marks = marks

/-- What the grammar derives has a tree, whatever the names and numbers are. -/
theorem Derives.hasTree {phrase : Phrase} {kinds : List Token.Kind} (h : Derives phrase kinds)
    {marks : List Mark} (hMarked : Marked kinds marks) : phrase.HasTree marks := by
  induction h generalizing marks with
  | empty =>
    obtain rfl := hMarked.eq_nil
    exact ⟨[], trivial, rfl⟩
  | more _ _ ihFirst ihOthers =>
    obtain ⟨first, others, rfl, hFirst, hOthers⟩ := hMarked.split
    obtain ⟨s, hs, rfl⟩ := ihFirst hFirst
    obtain ⟨p, hp, rfl⟩ := ihOthers hOthers
    exact ⟨s :: p, ⟨hs, hp⟩, rfl⟩
  | declaration type =>
    obtain ⟨behind, rfl, hBehind⟩ :=
      hMarked.uncons (by cases type <;> nofun) (by cases type <;> nofun)
    obtain ⟨name, rfl⟩ := hBehind.eq_named
    exact ⟨.declare type name, trivial, rfl⟩
  | statement _ ih =>
    obtain ⟨s, hs, -, rfl⟩ := ih hMarked
    exact ⟨s, hs, rfl⟩
  | print _ ih =>
    obtain ⟨behind, rfl, hBehind⟩ := hMarked.uncons nofun nofun
    obtain ⟨value, rfl, hValue⟩ := hBehind.split_last nofun nofun
    obtain ⟨e, he, -, rfl⟩ := ih hValue
    exact ⟨.print e, he, rfl, rfl⟩
  | input =>
    obtain ⟨behind, rfl, hBehind⟩ := hMarked.uncons nofun nofun
    obtain ⟨name, rfl⟩ := hBehind.eq_named
    exact ⟨.input name, trivial, rfl, rfl⟩
  | ifThen _ _ ihTest ihBody =>
    obtain ⟨behind, rfl, hBehind⟩ := hMarked.uncons nofun nofun
    obtain ⟨inner, back, rfl, hInner, hBack⟩ := hBehind.split_parenthesized
    obtain ⟨test, hTest, -, rfl⟩ := ihTest hInner
    obtain ⟨body, hBody, hNot, rfl⟩ := ihBody hBack
    exact ⟨.ifThen test body, ⟨hTest, hNot, hBody⟩, rfl, rfl⟩
  | ifElse _ _ _ ihTest ihBody ihOtherwise =>
    obtain ⟨behind, rfl, hBehind⟩ := hMarked.uncons nofun nofun
    obtain ⟨inner, branches, rfl, hInner, hBranches⟩ := hBehind.split_parenthesized
    obtain ⟨front, back, rfl, hFront, hBack⟩ := hBranches.split_at nofun nofun
    obtain ⟨test, hTest, -, rfl⟩ := ihTest hInner
    obtain ⟨body, hBody, hNot, rfl⟩ := ihBody hFront
    obtain ⟨otherwise, hOtherwise, hNot', rfl⟩ := ihOtherwise hBack
    cases hEnds : body.endsInIfThen with
    | true =>
      obtain ⟨body', hBody', hNot'', hMarks⟩ :=
        Stmt.exists_attached hOtherwise hNot' body hBody hEnds
      exact ⟨.ifThen test body', ⟨hTest, hNot'', hBody'⟩, rfl, by rw [Stmt.marks, hMarks]⟩
    | false =>
      exact ⟨.ifElse test body otherwise, ⟨hTest, hNot, hBody, hEnds, hNot', hOtherwise⟩, rfl, rfl⟩
  | loop _ _ ihTest ihBody =>
    obtain ⟨behind, rfl, hBehind⟩ := hMarked.uncons nofun nofun
    obtain ⟨inner, back, rfl, hInner, hBack⟩ := hBehind.split_parenthesized
    obtain ⟨test, hTest, -, rfl⟩ := ihTest hInner
    obtain ⟨body, hBody, hNot, rfl⟩ := ihBody hBack
    exact ⟨.loop test body, ⟨hTest, hNot, hBody⟩, rfl, rfl⟩
  | block _ ih =>
    obtain ⟨behind, rfl, hBehind⟩ := hMarked.uncons nofun nofun
    obtain ⟨front, rfl, hFront⟩ := hBehind.split_last nofun nofun
    obtain ⟨p, hp, rfl⟩ := ih hFront
    exact ⟨.block p, hp, rfl, rfl⟩
  | assign _ ih =>
    obtain ⟨name, behind, rfl, hBehind⟩ := hMarked.uncons_name
    obtain ⟨closed, rfl, hClosed⟩ := hBehind.uncons nofun nofun
    obtain ⟨value, rfl, hValue⟩ := hClosed.split_last nofun nofun
    obtain ⟨e, he, -, rfl⟩ := ih hValue
    exact ⟨.assign name e, he, rfl, rfl⟩
  | discard _ ih =>
    obtain ⟨value, rfl, hValue⟩ := hMarked.split_last nofun nofun
    obtain ⟨e, he, -, rfl⟩ := ih hValue
    exact ⟨.discard e, he, rfl, rfl⟩
  | binary op _ _ ihLeft ihRight =>
    obtain ⟨front, back, rfl, hFront, hBack⟩ :=
      hMarked.split_at (by cases op <;> nofun) (by cases op <;> nofun)
    obtain ⟨left, hLeft, hBinds, rfl⟩ := ihLeft hFront
    obtain ⟨right, hRight, hBinds', rfl⟩ := ihRight hBack
    exact ⟨.binary op left right, ⟨hBinds, hBinds', hLeft, hRight⟩, le_rfl, rfl⟩
  | closer _ ih =>
    obtain ⟨e, he, hBinds, rfl⟩ := ih hMarked
    exact ⟨e, he, Nat.le_of_succ_le hBinds, rfl⟩
  | minus _ ih =>
    obtain ⟨behind, rfl, hBehind⟩ := hMarked.uncons nofun nofun
    obtain ⟨e, he, hBinds, rfl⟩ := ih hBehind
    exact ⟨.unary .neg e, ⟨rfl, hBinds, he⟩, le_rfl, rfl⟩
  | number =>
    obtain ⟨value, behind, rfl, hBehind⟩ := hMarked.uncons_number
    obtain rfl := hBehind.eq_nil
    exact ⟨.literal value, trivial, le_rfl, rfl⟩
  | name =>
    obtain ⟨text, behind, rfl, hBehind⟩ := hMarked.uncons_name
    obtain rfl := hBehind.eq_nil
    exact ⟨.var text, trivial, le_rfl, rfl⟩
  | group _ ih =>
    obtain ⟨inner, back, rfl, hInner, hBack⟩ := hMarked.split_parenthesized
    obtain rfl := hBack.eq_nil
    obtain ⟨e, he, -, rfl⟩ := ih hInner
    exact ⟨.group e, he, le_rfl, by simp [Expr.marks]⟩

/-- Tokens of a program of the grammar are read as a program, or it is nested too deep. -/
theorem Parse.program_of_derives {tokens : List Token} {e : Token}
    (h : Derives .program (tokens.map Token.kind)) (hReadable : ∀ t ∈ tokens, t.Readable)
    (hEnd : e.isEof = true) :
    (∃ p c, program ⟨tokens, e⟩ = .ok p c) ∨
      ∃ t c, program ⟨tokens, e⟩ = .error (.tooDeep t nestingLimit) c := by
  obtain ⟨marks, hMarked, hSpells⟩ := Token.exists_marks hReadable
  obtain ⟨p, hCanonical, rfl⟩ := h.hasTree hMarked
  have hReaches := reaches_program hCanonical hSpells hEnd
  unfold Reaches at hReaches
  split at hReaches
  · exact .inl ⟨_, _, hReaches⟩
  · obtain ⟨t, c, -, hError⟩ := hReaches
    exact .inr ⟨t, c, hError⟩

end Abacus
