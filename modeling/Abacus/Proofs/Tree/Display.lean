import Abacus.Proofs.Number.ReadBack
import Abacus.Proofs.Token.Longest

/-! The text of an expression shows its tree.  Where the text of an operand ends, there is a blank,
a closing parenthesis or nothing.  In front of such an end the first characters of a text tell how
the expression is made, and the texts of its parts end where they do in the other text. -/

namespace Abacus

open Text (isNameStart isNameChar isNameStart_of_ascii isNameChar_of_ascii
  isNameChar_of_isNameStart isNameStart_of_isDigit)

/-- The scanner reads the text whole, as a name. -/
def Token.IsName (name : String) : Prop :=
  Lexeme.read? name.toList = some ⟨.identifier, name.toList, []⟩

instance (name : String) : Decidable (Token.IsName name) :=
  inferInstanceAs (Decidable (_ = _))

namespace Expr

/-- Every literal is finite and has no sign, and every name is one of the scanner's. -/
def IsShowable : Expr → Prop
  | literal value => value.isFinite = true ∧ Number.isNegative value = false
  | var name => Token.IsName name
  | group inner => inner.IsShowable
  | unary _ operand => operand.IsShowable
  | binary _ left right => left.IsShowable ∧ right.IsShowable

instance decidableIsShowable : (e : Expr) → Decidable e.IsShowable
  | literal value =>
    inferInstanceAs (Decidable (value.isFinite = true ∧ Number.isNegative value = false))
  | var name => inferInstanceAs (Decidable (Token.IsName name))
  | group inner => decidableIsShowable inner
  | unary _ operand => decidableIsShowable operand
  | binary _ left right =>
    have := decidableIsShowable left
    have := decidableIsShowable right
    inferInstanceAs (Decidable (left.IsShowable ∧ right.IsShowable))

end Expr

/-! ### Words -/

/-- Whether a character can stand in a literal or in a name: it does not end an operand. -/
def inOperand (c : Char) : Bool := c != ' ' && c != ')'

/-- Where the text of an operand ends. -/
def EndsOperand (rest : List Char) : Prop := ∀ c ∈ rest.head?, inOperand c = false

theorem endsOperand_cons {c : Char} (h : inOperand c = false) (rest : List Char) :
    EndsOperand (c :: rest) := by
  intro first hFirst
  cases hFirst
  exact h

/-- Words in front of such ends are told apart by where they end. -/
theorem append_inj_of_endsOperand {word word' rest rest' : List Char}
    (hWord : ∀ c ∈ word, inOperand c = true) (hWord' : ∀ c ∈ word', inOperand c = true)
    (hRest : EndsOperand rest) (hRest' : EndsOperand rest') (h : word ++ rest = word' ++ rest') :
    word = word' ∧ rest = rest' := by
  have hTake := congrArg (List.takeWhile inOperand) h
  rw [List.takeWhile_append_of_pos hWord, List.takeWhile_append_of_pos hWord',
    (Number.takeWhile_eq_nil_of_head hRest).1, (Number.takeWhile_eq_nil_of_head hRest').1,
    List.append_nil, List.append_nil] at hTake
  subst hTake
  exact ⟨rfl, List.append_cancel_left h⟩

/-- Whether the text of an expression can begin with a character. -/
def beginsOperand (c : Char) : Bool := c == '(' || c.isDigit || isNameStart c

/-- What the text of a literal or of a name is: it begins with a character of a class, and no
character of it ends an operand. -/
structure IsWord (first : Char → Bool) (word : List Char) : Prop where
  start : ∃ c rest, word = c :: rest ∧ first c = true
  solid : ∀ c ∈ word, inOperand c = true

/-- Nothing of a class without the two characters ends an operand. -/
theorem inOperand_of_class {p : Char → Bool} (hBlank : p ' ' = false) (hParen : p ')' = false)
    {c : Char} (h : p c = true) : inOperand c = true := by
  have hNotBlank : c ≠ ' ' := by
    rintro rfl
    rw [hBlank] at h
    cases h
  have hNotParen : c ≠ ')' := by
    rintro rfl
    rw [hParen] at h
    cases h
  simp [inOperand, hNotBlank, hNotParen]

theorem isWord_literal {value : Float} (finite : value.isFinite = true)
    (unsigned : Number.isNegative value = false) :
    IsWord Char.isDigit (Number.text value).toList := by
  have hFinite := Number.isFinite_iff.mp finite
  have hNumeral := Number.isNumeral_magnitudeText hFinite
  rw [Number.toList_text hFinite, unsigned]
  exact ⟨hNumeral.start, fun c hc => inOperand_of_class rfl rfl (hNumeral.all c hc)⟩

theorem isWord_name {name : String} (h : Token.IsName name) : IsWord isNameStart name.toList := by
  have hLexeme : Token.IsLexeme .identifier name.toList := Token.Lexeme.isLexeme_of_read? h
  have hSolid {c : Char} (hc : isNameChar c = true) : inOperand c = true :=
    inOperand_of_class (isNameChar_of_ascii (by decide)) (isNameChar_of_ascii (by decide)) hc
  generalize name.toList = chars at hLexeme
  cases hLexeme with
  | fixed one => cases one
  | @name first rest start others _ =>
    refine ⟨⟨first, rest, rfl, start⟩, List.forall_mem_cons.mpr ⟨?_, ?_⟩⟩
    · exact hSolid (isNameChar_of_isNameStart start)
    · exact fun c hc => hSolid (others c hc)

/-! ### How an expression is made -/

theorem beginsOperand_of_ascii {c : Char} (h : c.toNat < 128) :
    beginsOperand c = (c == '(' || c.isDigit || (c == '_' || c.isAlpha)) := by
  rw [beginsOperand, isNameStart_of_ascii h]

/-- An operator is no start of an operand. -/
theorem BinaryOp.exists_symbol (op : BinaryOp) :
    ∃ c behind, op.symbol.toList = c :: behind ∧ beginsOperand c = false := by
  cases op <;> exact ⟨_, _, rfl, beginsOperand_of_ascii (by decide)⟩

/-- Operators have symbols of their own, which end at a blank. -/
theorem BinaryOp.symbol_append_inj {op op' : BinaryOp} {rest rest' : List Char}
    (h : op.symbol.toList ++ ' ' :: rest = op'.symbol.toList ++ ' ' :: rest') :
    op = op' ∧ rest = rest' := by
  have hSolid (op : BinaryOp) : ∀ c ∈ op.symbol.toList, inOperand c = true := by
    apply List.all_eq_true.mp
    cases op <;> rfl
  obtain ⟨hSymbol, hRest⟩ := append_inj_of_endsOperand (hSolid op) (hSolid op')
    (endsOperand_cons rfl rest) (endsOperand_cons rfl rest') h
  refine ⟨?_, (List.cons.inj hRest).2⟩
  have hSymbol := String.toList_inj.mp hSymbol
  revert hSymbol
  cases op <;> cases op' <;> decide

theorem UnaryOp.exists_symbol (op : UnaryOp) :
    ∃ c, op.symbol.toList = [c] ∧ beginsOperand c = false := by
  cases op <;> exact ⟨_, rfl, beginsOperand_of_ascii (by decide)⟩

/-- The signs differ in their one character. -/
theorem UnaryOp.symbol_append_inj {op op' : UnaryOp} {rest rest' : List Char}
    (h : op.symbol.toList ++ rest = op'.symbol.toList ++ rest') : op = op' ∧ rest = rest' := by
  cases op <;> cases op' <;> obtain ⟨hSign, hRest⟩ := List.cons.inj h <;>
    first | exact ⟨rfl, hRest⟩ | cases hSign

namespace Expr

/-- How an expression is made. -/
inductive Shape where
  | literal | var | group | unary | binary

def shape : Expr → Shape
  | literal _ => .literal
  | var _ => .var
  | group _ => .group
  | unary .. => .unary
  | binary .. => .binary

/-- How an expression in parentheses is made.  Behind the parenthesis there is a sign, the word for
a group and then an operand, or an operand and then an operator.  That operand may be a variable
called like the word for a group. -/
def shapeInside (inside : List Char) : Shape :=
  if inside.head?.any beginsOperand then
    match "group ".toList.isPrefixOf? inside with
    | some (c :: _) => if beginsOperand c then .group else .binary
    | _ => .binary
  else .unary

/-- How the expression is made whose text begins like this. -/
def shapeOf : List Char → Shape
  | [] => .var
  | c :: behind =>
    if c = '(' then shapeInside behind
    else if c.isDigit then .literal
    else .var

variable {e e' : Expr} {rest rest' : List Char}

theorem text_group_append (inner : Expr) (rest : List Char) :
    (group inner).text.toList ++ rest =
      '(' :: ("group".toList ++ ' ' :: (inner.text.toList ++ ')' :: rest)) := by
  simp [text]

theorem text_unary_append (op : UnaryOp) (operand : Expr) (rest : List Char) :
    (unary op operand).text.toList ++ rest =
      '(' :: (op.symbol.toList ++ (operand.text.toList ++ ')' :: rest)) := by
  simp [text]

theorem text_binary_append (op : BinaryOp) (left right : Expr) (rest : List Char) :
    (binary op left right).text.toList ++ rest =
      '(' :: (left.text.toList ++ ' ' ::
        (op.symbol.toList ++ ' ' :: (right.text.toList ++ ')' :: rest))) := by
  simp [text]

/-- The text of a literal or of a name is a word, and any other one begins with a parenthesis. -/
theorem text_cases (h : e.IsShowable) :
    (∃ first, IsWord first e.text.toList ∧ ∀ c, first c = true → beginsOperand c = true ∧ c ≠ '(') ∨
      ∀ rest, ∃ inside, e.text.toList ++ rest = '(' :: inside := by
  cases e with
  | literal value =>
    refine .inl ⟨Char.isDigit, isWord_literal h.1 h.2, fun c hc => ⟨?_, ?_⟩⟩
    · simp [beginsOperand, hc]
    · rintro rfl
      cases hc
  | var name =>
    refine .inl ⟨isNameStart, isWord_name h, fun c hc => ⟨?_, ?_⟩⟩
    · simp [beginsOperand, hc]
    · rintro rfl
      rw [isNameStart_of_ascii (by decide)] at hc
      cases hc
  | group inner => exact .inr fun rest => ⟨_, text_group_append inner rest⟩
  | unary op operand => exact .inr fun rest => ⟨_, text_unary_append op operand rest⟩
  | binary op left right => exact .inr fun rest => ⟨_, text_binary_append op left right rest⟩

/-- Every text begins like an operand. -/
theorem exists_text_append (h : e.IsShowable) (rest : List Char) :
    ∃ c behind, e.text.toList ++ rest = c :: behind ∧ beginsOperand c = true := by
  rcases text_cases h with ⟨first, hWord, hFirst⟩ | hParen
  · obtain ⟨c, behind, hText, hc⟩ := hWord.start
    exact ⟨c, behind ++ rest, by rw [hText, List.cons_append], (hFirst c hc).1⟩
  · obtain ⟨inside, hText⟩ := hParen rest
    exact ⟨'(', inside, hText, rfl⟩

theorem shapeInside_group {inner : Expr} (h : inner.IsShowable) (rest : List Char) :
    shapeInside ("group".toList ++ ' ' :: (inner.text.toList ++ rest)) = .group := by
  obtain ⟨c, behind, hText, hc⟩ := exists_text_append h rest
  have hHead : beginsOperand 'g' = true := rfl
  have hBehind : "group ".toList.isPrefixOf? ("group".toList ++ ' ' :: c :: behind) =
      some (c :: behind) := List.isPrefixOf?_eq_some_iff_append_eq.mpr rfl
  rw [shapeInside, hText, hBehind]
  simp [hHead, hc]

theorem shapeInside_binary {left : Expr} (h : left.IsShowable) (op : BinaryOp) (rest : List Char) :
    shapeInside (left.text.toList ++ ' ' :: (op.symbol.toList ++ rest)) = .binary := by
  obtain ⟨c, behind, hText, hc⟩ := exists_text_append h (' ' :: (op.symbol.toList ++ rest))
  obtain ⟨mark, others, hSymbol, hMark⟩ := op.exists_symbol
  rw [shapeInside, hText, if_pos (by simp [hc])]
  split
  · next next after hBehind =>
    -- Only a variable is spelled like the word for a group, and what is next is the operator.
    have hInside := hText.trans (List.append_eq_of_isPrefixOf?_eq_some hBehind).symm
    rcases text_cases h with ⟨first, hWord, -⟩ | hParen
    · have hGroup : ∀ c ∈ "group".toList, inOperand c = true :=
        List.all_eq_true.mp rfl
      have hEnds : EndsOperand (' ' :: next :: after) := endsOperand_cons rfl _
      obtain ⟨-, hNext⟩ := append_inj_of_endsOperand hWord.solid hGroup (endsOperand_cons rfl _)
        hEnds hInside
      rw [hSymbol] at hNext
      obtain ⟨rfl, -⟩ := List.cons.inj (List.cons.inj hNext).2
      rw [hMark]
      rfl
    · obtain ⟨inside, hParen⟩ := hParen (' ' :: (op.symbol.toList ++ rest))
      rw [hInside] at hParen
      cases hParen
  · rfl

/-- The shape of an expression is told by the start of its text. -/
theorem shapeOf_text (h : e.IsShowable) (rest : List Char) :
    shapeOf (e.text.toList ++ rest) = e.shape := by
  cases e with
  | literal value =>
    obtain ⟨c, behind, hText, hDigit⟩ := (isWord_literal h.1 h.2).start
    have hParen : c ≠ '(' := by
      rintro rfl
      cases hDigit
    rw [text, hText, List.cons_append, shapeOf, if_neg hParen, if_pos hDigit]
    rfl
  | var name =>
    obtain ⟨c, behind, hText, hStart⟩ := (isWord_name h).start
    have hParen : c ≠ '(' := by
      rintro rfl
      rw [isNameStart_of_ascii (by decide)] at hStart
      cases hStart
    have hDigit : ¬ c.isDigit = true := by
      intro hDigit
      rw [isNameStart_of_isDigit hDigit] at hStart
      cases hStart
    rw [text, hText, List.cons_append, shapeOf, if_neg hParen, if_neg hDigit]
    rfl
  | group inner =>
    have hInner : inner.IsShowable := h
    rw [text_group_append, shapeOf, if_pos rfl]
    exact shapeInside_group hInner _
  | unary op operand =>
    obtain ⟨c, hSymbol, hc⟩ := op.exists_symbol
    rw [text_unary_append, shapeOf, if_pos rfl, hSymbol, shapeInside, if_neg (by simp [hc])]
    rfl
  | binary op left right =>
    rw [text_binary_append, shapeOf, if_pos rfl]
    exact shapeInside_binary h.1 op _

theorem shape_eq (h : e.IsShowable) (h' : e'.IsShowable)
    (same : e.text.toList ++ rest = e'.text.toList ++ rest') : e.shape = e'.shape := by
  rw [← shapeOf_text h rest, same, shapeOf_text h' rest']

/-- In front of ends of operands, equal texts are texts of the same expression. -/
theorem text_append_inj (h : e.IsShowable) (h' : e'.IsShowable) (ends : EndsOperand rest)
    (ends' : EndsOperand rest') (same : e.text.toList ++ rest = e'.text.toList ++ rest') :
    e = e' ∧ rest = rest' := by
  have hClosed (rest : List Char) : EndsOperand (')' :: rest) := endsOperand_cons rfl rest
  have hBlank (rest : List Char) : EndsOperand (' ' :: rest) := endsOperand_cons rfl rest
  induction e generalizing e' rest rest' with
  | literal value =>
    cases e' with
    | literal value' =>
      obtain ⟨hText, hRest⟩ := append_inj_of_endsOperand (isWord_literal h.1 h.2).solid
        (isWord_literal h'.1 h'.2).solid ends ends' same
      have hValue := Number.text_inj (Nat.le_of_lt (Number.isFinite_iff.mp h.1))
        (Nat.le_of_lt (Number.isFinite_iff.mp h'.1)) (String.toList_inj.mp hText)
      exact ⟨congrArg literal hValue, hRest⟩
    | _ => cases shape_eq h h' same
  | var name =>
    cases e' with
    | var name' =>
      obtain ⟨hText, hRest⟩ := append_inj_of_endsOperand (isWord_name h).solid
        (isWord_name h').solid ends ends' same
      exact ⟨congrArg var (String.toList_inj.mp hText), hRest⟩
    | _ => cases shape_eq h h' same
  | group inner ih =>
    cases e' with
    | group inner' =>
      rw [text_group_append, text_group_append] at same
      have hInner' : inner'.IsShowable := h'
      have hInside := (List.cons.inj (List.append_cancel_left (List.cons.inj same).2)).2
      obtain ⟨rfl, hRest⟩ := ih h hInner' (hClosed rest) (hClosed rest') hInside
      exact ⟨rfl, (List.cons.inj hRest).2⟩
    | _ => cases shape_eq h h' same
  | unary op operand ih =>
    cases e' with
    | unary op' operand' =>
      rw [text_unary_append, text_unary_append] at same
      have hOperand' : operand'.IsShowable := h'
      obtain ⟨rfl, hInside⟩ := UnaryOp.symbol_append_inj (List.cons.inj same).2
      obtain ⟨rfl, hRest⟩ := ih h hOperand' (hClosed rest) (hClosed rest') hInside
      exact ⟨rfl, (List.cons.inj hRest).2⟩
    | _ => cases shape_eq h h' same
  | binary op left right ihLeft ihRight =>
    cases e' with
    | binary op' left' right' =>
      rw [text_binary_append, text_binary_append] at same
      obtain ⟨rfl, hBehind⟩ := ihLeft h.1 h'.1 (hBlank _) (hBlank _) (List.cons.inj same).2
      obtain ⟨rfl, hRight⟩ := BinaryOp.symbol_append_inj (List.cons.inj hBehind).2
      obtain ⟨rfl, hRest⟩ := ihRight h.2 h'.2 (hClosed rest) (hClosed rest') hRight
      exact ⟨rfl, (List.cons.inj hRest).2⟩
    | _ => cases shape_eq h h' same

/-- Expressions that can be shown have texts of their own. -/
theorem text_eq_iff_eq (h : e.IsShowable) (h' : e'.IsShowable) : e.text = e'.text ↔ e = e' := by
  constructor
  · intro same
    have hEnds : EndsOperand [] := by simp [EndsOperand]
    exact (text_append_inj h h' hEnds hEnds (by rw [same])).1
  · rintro rfl
    rfl

/-- What is subtracted from a variable called `group`, and the group of what is negated. -/
theorem text_eq_iff_eq_group :
    let difference := binary .sub (var "group") (literal 1e-7)
    let grouped := group (unary .neg (literal 1e-7))
    difference.IsShowable ∧ grouped.IsShowable ∧ difference.text = "(group - 1.0E-7)" ∧
      grouped.text = "(group (-1.0E-7))" ∧
      (difference.text = grouped.text ↔ difference = grouped) := by
  intro difference grouped
  have hDifference : difference.IsShowable := by decide +kernel
  have hGrouped : grouped.IsShowable := by decide +kernel
  exact ⟨hDifference, hGrouped, by decide +kernel, by decide +kernel,
    text_eq_iff_eq hDifference hGrouped⟩

end Expr

end Abacus
