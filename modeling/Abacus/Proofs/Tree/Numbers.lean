import Abacus.Proofs.Code.Operands
import Abacus.Proofs.Number.ReadBack
import Abacus.Proofs.Token.Longest
import Abacus.Proofs.Tree.Progress
import Abacus.Proofs.Tree.Source

/-! Numbers from the source to the code.  Every lexeme of the lexical grammar that is a number reads
as a double without a sign, infinite at most.  An error about a number names a token that does not
read as one, so no source that is scanned has such an error, and its literals and the constants in
its code are doubles of that kind. -/

namespace Abacus

namespace Number

/-- A number whose sign bit is clear.  It may be infinite. -/
def IsUnsigned (v : Float) : Prop := v.isNaN = false ∧ isNegative v = false

theorem isUnsigned_ofMagnitude {word : Nat} (number : word ≤ infinity) :
    IsUnsigned (ofMagnitude false word) := by
  refine ⟨Bool.eq_false_iff.mpr fun isNaN => ?_, isNegative_ofMagnitude number⟩
  have := isNaN_iff.mp isNaN
  rw [magnitude_ofMagnitude number] at this
  omega

theorem Decimal.magnitude_le (d : Decimal) : d.magnitude ≤ infinity := by
  rw [magnitude_eq_nearest]
  exact Nat.min_le_right _ _

theorem readDecimal?_digits {digits : List Char} (h : IsDigits digits) :
    readDecimal? digits = some ⟨Nat.ofDigitChars 10 digits 0, 0⟩ := by
  unfold readDecimal?
  rw [List.takeWhile_eq_self_iff.mpr h.all, List.dropWhile_eq_nil_iff.mpr h.all]
  simp [h.filled, readExponent?]

theorem readMagnitude?_digits {digits : List Char} (h : IsDigits digits) :
    readMagnitude? digits = some (Decimal.magnitude ⟨Nat.ofDigitChars 10 digits 0, 0⟩) := by
  have read := readDecimal?_digits h
  obtain ⟨first, rest, rfl, isDigit⟩ := h.exists_cons
  rw [readMagnitude?_of_isDigit isDigit, read]
  rfl

theorem exists_decimal_of_isLexeme {chars : List Char} (h : Token.IsLexeme .number chars) :
    ∃ d, readMagnitude? chars = some (Decimal.magnitude d) := by
  cases h with
  | fixed one => cases one
  | whole filled all => exact ⟨_, readMagnitude?_digits ⟨filled, all⟩⟩
  | @decimal digits places filled all behind =>
    have nothing : ∀ c ∈ ([] : List Char).head?, c.isDigit = false := by simp
    have read := readDecimal?_point ⟨filled, all⟩ behind nothing
    rw [List.append_nil] at read
    obtain ⟨first, rest, rfl, isDigit⟩ := IsDigits.exists_cons ⟨filled, all⟩
    have magnitude := readMagnitude?_of_isDigit isDigit (rest ++ '.' :: places)
    rw [← List.cons_append, read] at magnitude
    exact ⟨_, magnitude⟩

/-- The lexeme of a number token is a number. -/
theorem exists_read?_of_isLexeme {lexeme : String} (h : Token.IsLexeme .number lexeme.toList) :
    ∃ v, read? lexeme = some v ∧ IsUnsigned v := by
  obtain ⟨d, read⟩ := exists_decimal_of_isLexeme h
  have signed := read?_signed read false
  rw [if_neg Bool.false_ne_true, String.ofList_toList] at signed
  exact ⟨_, signed, isUnsigned_ofMagnitude d.magnitude_le⟩

end Number

/-! ### Errors about numbers -/

namespace Cursor

def tokens (c : Cursor) : List Token := c.rest ++ [c.stop]

theorem current_mem (c : Cursor) : c.current ∈ c.tokens := by
  obtain ⟨rest, stop⟩ := c
  cases rest with
  | nil => exact List.mem_singleton_self stop
  | cons t rest => exact List.mem_cons_self

theorem Leads.subset {c c' : Cursor} (h : c.Leads c') : c'.tokens ⊆ c.tokens := by
  rw [tokens, tokens, h.stop_eq]
  exact List.append_subset.mpr ⟨List.Subset.trans h.suffix.subset (List.subset_append_left _ _),
    List.subset_append_right _ _⟩

end Cursor

namespace Parse

/-- A number token that is no number. -/
def Unreadable (lexeme : String) (t : Token) : Prop :=
  t.kind = .number ∧ t.lexeme = lexeme ∧ Number.read? lexeme = none

/-- An error about a number names a token ahead that does not read as one. -/
structure Blames {α : Type} (p : Parse α) : Prop extends Orderly p where
  blamed {c : Cursor} {lexeme : String} {c' : Cursor}
    (h : p c = .error (.invalidNumber lexeme) c') : ∃ t ∈ c.tokens, Unreadable lexeme t

namespace Blames

variable {α β : Type}

theorem pure (a : α) : Blames (pure a) := ⟨.pure a, nofun⟩

theorem refuse (expected : Expected) : Blames (refuse expected : Parse α) :=
  ⟨.refuse expected, nofun⟩

theorem tooDeep : Blames (tooDeep : Parse α) := ⟨.tooDeep, nofun⟩

theorem current : Blames current := ⟨.current, nofun⟩

theorem advance : Blames advance := ⟨.advance, nofun⟩

theorem get : Blames (get : Parse Cursor) := ⟨.get, nofun⟩

theorem expect (kind : Token.Kind) (expected : Expected) : Blames (expect kind expected) := by
  refine ⟨.expect kind expected, ?_⟩
  intro c lexeme c' h
  unfold Parse.expect at h
  split at h <;> cases h

theorem bind {p : Parse α} {f : α → Parse β} (h : Blames p) (hf : ∀ a, Blames (f a)) :
    Blames (p >>= f) := by
  refine ⟨h.toOrderly.bind fun a => (hf a).toOrderly, ?_⟩
  intro c lexeme c'' hError
  have hLeads := h.leads c
  cases hp : p c with
  | error e c' =>
    cases (bind_of_error hp f).symm.trans hError
    exact h.blamed hp
  | ok a c' =>
    rw [hp] at hLeads
    obtain ⟨t, hMem, hBlamed⟩ := (hf a).blamed ((bind_of_ok hp f).symm.trans hError)
    exact ⟨t, hLeads.subset hMem, hBlamed⟩

theorem expectName (expected : Expected) : Blames (expectName expected) :=
  (expect _ _).bind fun t => pure t.lexeme

end Blames

section chain

variable {operator? : Token.Kind → Option BinaryOp} {operand : Parse Expr}

theorem blames_chainFrom (h : Blames operand) (count : Nat) (left : Expr) :
    Blames (chainFrom operator? operand count left) := by
  induction count generalizing left with
  | zero => exact .pure left
  | succ count ih =>
    refine Blames.current.bind fun t => ?_
    cases operator? t.kind with
    | none => exact .pure left
    | some op => exact Blames.advance.bind fun _ => h.bind fun right => ih _

theorem blames_chain (h : Blames operand) : Blames (chain operator? operand) :=
  h.bind fun left => Blames.get.bind fun c => blames_chainFrom h c.rest.length left

end chain

theorem blames_expressionOf {operand : Parse Expr} (h : Blames operand) :
    Blames (expressionOf operand) :=
  blames_chain (blames_chain (blames_chain (blames_chain h)))

/-- Only here a number is read, and only from a number token. -/
theorem blames_operandOf {inner negated : Parse Expr} (hInner : Blames inner)
    (hNegated : Blames negated) : Blames (operandOf inner negated) := by
  constructor
  · refine Orderly.current.bind fun t => ?_
    split
    · exact Orderly.advance.bind fun _ => hNegated.toOrderly.bind fun _ => .pure _
    · refine Orderly.advance.bind fun t => ?_
      unfold literal
      split
      · exact .pure _
      · exact .invalid _
    · exact Orderly.advance.bind fun _ => .pure _
    · exact Orderly.advance.bind fun _ => hInner.toOrderly.bind fun _ =>
        (Orderly.expect _ _).bind fun _ => .pure _
    · exact .refuse _
  · intro c lexeme c' h
    have hLater {α : Type} {p : Parse α} (hp : Blames p)
        (h : p c.advance = .error (.invalidNumber lexeme) c') :
        ∃ t ∈ c.tokens, Unreadable lexeme t := by
      obtain ⟨t, hMem, hBlamed⟩ := hp.blamed h
      exact ⟨t, (Cursor.Leads.advance c).subset hMem, hBlamed⟩
    rw [operandOf_apply] at h
    split at h
    · exact hLater (hNegated.bind fun _ => .pure _) h
    · next hNumber =>
      refine ⟨c.current, c.current_mem, hNumber, ?_⟩
      cases hRead : Number.read? c.current.lexeme with
      | some v =>
        rw [literal, hRead] at h
        cases h
      | none =>
        rw [literal, hRead] at h
        cases h
        exact ⟨rfl, hRead⟩
    · cases h
    · exact hLater (hInner.bind fun _ => (Blames.expect _ _).bind fun _ => .pure _) h
    · cases h

theorem blames_operand (levels : Nat) : Blames (operand levels) := by
  induction levels with
  | zero => exact blames_operandOf .tooDeep .tooDeep
  | succ levels ih => exact blames_operandOf (blames_expressionOf ih) ih

section statement

variable {expression : Parse Expr} {statement : Parse Stmt}

theorem blames_closed {α : Type} (h : Blames expression) (kind : Token.Kind) (expected : Expected)
    (f : Expr → α) :
    Blames (do
      let value ← expression
      let _ ← expect kind expected
      return f value) :=
  h.bind fun _ => (Blames.expect kind expected).bind fun _ => .pure _

theorem blames_itemOf (h : Blames statement) : Blames (itemOf statement) := by
  refine Blames.current.bind fun t => ?_
  split
  · exact Blames.advance.bind fun _ => (Blames.expectName _).bind fun _ =>
      (Blames.expect _ _).bind fun _ => .pure _
  · exact h

theorem blames_items (h : Blames statement) (closes : Token.Kind → Bool) :
    Blames (items closes statement) := by
  refine Blames.get.bind fun c => ?_
  induction c.rest.length with
  | zero => exact .pure _
  | succ count ih =>
    refine Blames.current.bind fun t => ?_
    split
    · exact .pure _
    · exact (blames_itemOf h).bind fun _ => ih.bind fun _ => .pure _

theorem blames_condition (h : Blames expression) (opening : Expected) :
    Blames (condition expression opening) :=
  (Blames.expect _ _).bind fun _ => blames_closed h _ _ id

theorem blames_ifStatement (hExpression : Blames expression) (hStatement : Blames statement) :
    Blames (ifStatement expression statement) := by
  refine Blames.advance.bind fun _ => (blames_condition hExpression _).bind fun _ =>
    hStatement.bind fun _ => Blames.current.bind fun t => ?_
  split
  · exact Blames.advance.bind fun _ => hStatement.bind fun _ => .pure _
  · exact .pure _

theorem blames_statementOf (hExpression : Blames expression) (hStatement : Blames statement) :
    Blames (statementOf expression statement) := by
  refine Blames.current.bind fun t => ?_
  split
  · exact Blames.advance.bind fun _ => blames_closed hExpression _ _ Stmt.print
  · exact Blames.advance.bind fun _ => (Blames.expectName _).bind fun _ =>
      (Blames.expect _ _).bind fun _ => .pure _
  · exact blames_ifStatement hExpression hStatement
  · exact Blames.advance.bind fun _ => (blames_condition hExpression _).bind fun _ =>
      hStatement.bind fun _ => .pure _
  · exact Blames.advance.bind fun _ => (blames_items hStatement _).bind fun _ =>
      (Blames.expect _ _).bind fun _ => .pure _
  · refine Blames.get.bind fun c => ?_
    split
    · exact (Blames.expectName _).bind fun name => (Blames.expect _ _).bind fun _ =>
        blames_closed hExpression _ _ (Stmt.assign name)
    · exact blames_closed hExpression _ _ Stmt.discard
  · exact blames_closed hExpression _ _ Stmt.discard

end statement

theorem blames_statement (levels : Nat) : Blames (statement levels) := by
  induction levels with
  | zero => exact .tooDeep
  | succ levels ih => exact blames_statementOf (blames_expressionOf (blames_operand levels)) ih

theorem blames_program : Blames program := blames_items (blames_statement nestingLimit) _

end Parse

/-! ### Literals -/

def Expr.literals : Expr → List Float
  | literal value => [value]
  | var _ => []
  | group inner => inner.literals
  | unary _ operand => operand.literals
  | binary _ left right => left.literals ++ right.literals

mutual

def Stmt.literals : Stmt → List Float
  | .declare _ _ | .input _ => []
  | .assign _ value | .print value | .discard value => value.literals
  | .block body => literalsOfAll body
  | .ifThen test body | .loop test body => test.literals ++ body.literals
  | .ifElse test body otherwise => test.literals ++ (body.literals ++ otherwise.literals)

def literalsOfAll : List Stmt → List Float
  | [] => []
  | first :: rest => first.literals ++ literalsOfAll rest

end

/-- The numbers in a program, from left to right. -/
def Program.literals (p : Program) : List Float := literalsOfAll p

section marks

variable {v : Float}

theorem mem_parenthesized {marks : List Mark} :
    .number v ∈ parenthesized marks ↔ .number v ∈ marks := by
  simp [parenthesized]

theorem Expr.mem_literals (e : Expr) : v ∈ e.literals ↔ .number v ∈ e.marks := by
  induction e with
  | literal value => simp [literals, marks]
  | var name => simp [literals, marks]
  | group inner ih => rw [literals, marks, mem_parenthesized, ih]
  | unary op operand ih => simp [literals, marks, ih]
  | binary op left right ihLeft ihRight => simp [literals, marks, ihLeft, ihRight]

mutual

theorem Stmt.mem_literals : (s : Stmt) → (v ∈ s.literals ↔ .number v ∈ s.marks)
  | .declare _ _ | .input _ => by simp [Stmt.literals, Stmt.marks]
  | .assign _ value | .print value | .discard value => by
    simp [Stmt.literals, Stmt.marks, value.mem_literals]
  | .block body => by simp [Stmt.literals, Stmt.marks, mem_literalsOfAll body]
  | .ifThen test body | .loop test body => by
    simp [Stmt.literals, Stmt.marks, mem_parenthesized, test.mem_literals, body.mem_literals]
  | .ifElse test body otherwise => by
    simp [Stmt.literals, Stmt.marks, mem_parenthesized, test.mem_literals, body.mem_literals,
      otherwise.mem_literals]

/-- The literals of a tree are the numbers that it is spelled with. -/
theorem mem_literalsOfAll : (stmts : List Stmt) →
    (v ∈ literalsOfAll stmts ↔ .number v ∈ marksOfAll stmts)
  | [] => by simp [literalsOfAll, marksOfAll]
  | first :: rest => by
    simp [literalsOfAll, marksOfAll, first.mem_literals, mem_literalsOfAll rest]

end

end marks

/-! ### Scanned programs -/

/-- What scanning grants of the token that a mark stands for. -/
def Mark.IsScanned : Mark → Prop
  | word _ => True
  | name text => Token.IsLexeme .identifier text.toList
  | number value => Number.IsUnsigned value

theorem Spells.isScanned {marks : List Mark} {tokens : List Token} (h : Spells marks tokens)
    (lexemes : ∀ t ∈ tokens, Token.IsLexeme t.kind t.lexeme.toList) : ∀ m ∈ marks, m.IsScanned := by
  induction h with
  | nil => nofun
  | @cons m t marks tokens first _ ih =>
    obtain ⟨lexeme, others⟩ := List.forall_mem_cons.mp lexemes
    refine List.forall_mem_cons.mpr ⟨?_, ih others⟩
    cases m with
    | word kind => trivial
    | name text =>
      obtain ⟨kind_eq, rfl⟩ := first
      rwa [kind_eq] at lexeme
    | number value =>
      obtain ⟨kind_eq, read⟩ := first
      obtain ⟨v, read', unsigned⟩ := Number.exists_read?_of_isLexeme (kind_eq ▸ lexeme)
      rw [read] at read'
      cases read'
      exact unsigned

/-- The numbers of a source that is scanned are read.  They have no sign and may be infinite, and so
do the constants in the code. -/
theorem scanned_numbers_read {source : String} {tokens : List Token}
    (h : Token.scan source = .ok tokens) :
    (∀ lexeme, Program.ofTokens tokens ≠ .error (.invalidNumber lexeme)) ∧
    ∀ program, Program.ofTokens tokens = .ok program →
      (∀ v ∈ program.literals, Number.IsUnsigned v) ∧
      ∃ code, program.code = .ok code ∧
        ∀ i ∈ code.instrs, i.op = .pushConst → ∃ v, i.value = some v ∧ Number.IsUnsigned v := by
  obtain ⟨front, eof, rfl, isEof, inside, scans⟩ := Token.scans_of_scan h
  have lexemes : ∀ t ∈ front, Token.IsLexeme t.kind t.lexeme.toList := scans.isLexeme_of_mem
  constructor
  · intro lexeme hError
    have hProgram : ∃ c', Parse.program ⟨front, eof⟩ = .error (.invalidNumber lexeme) c' := by
      rw [Program.ofTokens, Cursor.ofTokens_append inside isEof] at hError
      split at hError
      · cases hError
      · next hProgram =>
        cases hError
        exact ⟨_, hProgram⟩
    obtain ⟨c', hProgram⟩ := hProgram
    obtain ⟨t, member, isNumber, rfl, unread⟩ := Parse.blames_program.blamed hProgram
    rcases List.mem_append.mp member with member | member
    · obtain ⟨v, read, -⟩ := Number.exists_read?_of_isLexeme (isNumber ▸ lexemes t member)
      rw [unread] at read
      cases read
    · obtain rfl := List.mem_singleton.mp member
      rw [Token.isEof, isNumber] at isEof
      cases isEof
  · intro program hOk
    obtain ⟨spells, -, -⟩ := (Program.ofTokens_eq_ok_iff inside isEof).mp hOk
    have scanned : ∀ m ∈ program.marks, m.IsScanned := spells.isScanned lexemes
    refine ⟨fun v member => scanned _ ((mem_literalsOfAll program).mp member),
      program.assembled, program.code_eq_assembled, ?_⟩
    intro i member isPush
    cases program.madeOf_assembled i member with
    | zero => exact ⟨_, rfl, Number.isUnsigned_ofMagnitude (Nat.zero_le _)⟩
    | constant literal => exact ⟨_, rfl, scanned _ literal⟩
    | named takes _ | jump takes _ | bare takes =>
      obtain rfl := isPush
      cases takes

/-- A one with zeros behind it. -/
def powerOfTen (zeros : Nat) : List Char := '1' :: List.replicate zeros '0'

theorem isDigits_powerOfTen (zeros : Nat) : Number.IsDigits (powerOfTen zeros) :=
  ⟨List.cons_ne_nil _ _, List.forall_mem_cons.mpr ⟨rfl, Number.isDigit_zeros zeros⟩⟩

/-- Long enough, it is above all finite doubles. -/
theorem read?_powerOfTen {zeros : Nat} (far : 310 < zeros) :
    Number.read? (String.ofList (powerOfTen zeros)) =
      some (Number.ofMagnitude false Number.infinity) := by
  have digits : Nat.ofDigitChars 10 (powerOfTen zeros) 0 = 1 * 10 ^ zeros := by
    rw [powerOfTen, Nat.ofDigitChars_cons, Nat.ofDigitChars_replicate_zero, Nat.mul_comm]
    rfl
  have shifted := Number.Decimal.magnitude_shift 1 zeros zeros
  have above : Number.Decimal.magnitude ⟨1, zeros⟩ = Number.infinity := by
    have high : (310 : Int) < zeros := by omega
    simp only [Number.Decimal.magnitude, Nat.one_ne_zero, if_false, high, if_true]
  have read := Number.readMagnitude?_digits (isDigits_powerOfTen zeros)
  rw [above, Int.sub_self, ← digits] at shifted
  rw [shifted] at read
  exact Number.read?_signed read false

theorem exists_printing_powerOfTen (zeros : Nat) :
    ∃ p : Token.Printing, p.text = "print " ++ String.ofList (powerOfTen zeros) ++ " ;" ∧
      p.words = [(.printWord, "print"), (.number, String.ofList (powerOfTen zeros)),
        (.semicolon, ";")] := by
  have isDigits := isDigits_powerOfTen zeros
  refine ⟨⟨[⟨[], .printWord, _, .fixed rfl, .nil⟩,
    ⟨[' '], .number, _, .whole isDigits.filled isDigits.all, .blank (by decide) .nil⟩,
    ⟨[' '], .semicolon, _, .fixed rfl, .blank (by decide) .nil⟩], [], .nil, ?_, ?_⟩, ?_, ?_⟩
  · simp [Token.Parted, show Text.isBlank ' ' = true by decide]
  · simp [Token.Parted]
  · apply String.toList_inj.mp
    simp [Token.Printing.text, Token.Printing.textOf, Token.Kind.name]
  · simp [Token.Printing.words, Token.Kind.name]

theorem scanned_numbers_read_infinite :
    ∃ tokens v, Token.scan ("print " ++ String.ofList (powerOfTen 311) ++ " ;") = .ok tokens ∧
      Program.ofTokens tokens = .ok [.print (.literal v)] ∧ v.isInf = true ∧
      Number.IsUnsigned v := by
  obtain ⟨p, text_eq, words_eq⟩ := exists_printing_powerOfTen 311
  obtain ⟨front, eof, scanned, isEof, words⟩ := Token.scan_of_scans p.scans
  rw [text_eq] at scanned
  rw [words_eq] at words
  let v := Number.ofMagnitude false Number.infinity
  have spells : Spells (Program.marks [.print (.literal v)]) front := by
    let unplaced (word : Token.Kind × String) : Token := ⟨word.1, word.2, ⟨0, 0⟩⟩
    have spelled : Spells (Program.marks [.print (.literal v)])
        (List.map unplaced [(.printWord, "print"), (.number, String.ofList (powerOfTen 311)),
          (.semicolon, ";")]) :=
      .cons rfl (.cons ⟨rfl, read?_powerOfTen (by decide)⟩ (.cons rfl .nil))
    exact spelled.of_words_eq words.symm
  have parsed : Program.ofTokens (front ++ [eof]) = .ok [.print (.literal v)] :=
    (Program.ofTokens_eq_ok_iff (spells.isEof_eq_false (kind_ne_eof_of_all _)) isEof).mpr
      ⟨spells, ⟨trivial, trivial⟩, by decide⟩
  obtain ⟨unsigned, -⟩ := (scanned_numbers_read scanned).2 _ parsed
  exact ⟨_, v, scanned, parsed, by decide +kernel, unsigned v List.mem_cons_self⟩

end Abacus
