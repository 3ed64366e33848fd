import Abacus.Proofs.Number.Digits
import Abacus.Proofs.Number.Order
import Abacus.Proofs.Token.Printing
import Abacus.Proofs.Tree.Reading

/-! Printed numbers read back.  The text of a double is plain or has an exponent, as its magnitude
says, and reading it gives the double again.  A plain text without a sign is one token, and the
literal that is parsed from it is the double. -/

namespace Abacus

/-! ### A token alone -/

namespace Token

open Text

/-- A lexeme alone is scanned as one token. -/
theorem scan_of_isLexeme {kind : Kind} {chars : List Char} (h : IsLexeme kind chars) :
    scan (String.ofList chars) =
      .ok [⟨kind, String.ofList chars, ⟨0, byteLength chars⟩⟩,
        ⟨.eof, "", ⟨byteLength chars, byteLength chars⟩⟩] := by
  have noMore : Parted [] := nofun
  have bare := cutLayout_of_isLexeme h noMore
  have found := Lexeme.read?_of_isLexeme h
  have filled : chars ≠ [] := Lexeme.read?_chars_ne_nil found
  have inside : (kind == .eof) = false := by simpa using Lexeme.read?_kind_ne_eof found
  obtain ⟨c, tail, rfl⟩ := List.exists_cons_of_ne_nil filled
  rw [List.append_nil] at bare
  have first : (Stream.ofSource (String.ofList (c :: tail))).next =
      (.ok ⟨kind, String.ofList (c :: tail), ⟨0, byteLength (c :: tail)⟩⟩,
        ⟨[], byteLength (c :: tail), false⟩) := by
    have nothing : byteLength [] = 0 := rfl
    unfold Stream.next Stream.ofSource
    simp only [String.toList_ofList, bare, found, nothing, Nat.zero_add]
  have last : (Stream.mk [] (byteLength (c :: tail)) false).next =
      (.ok ⟨.eof, "", ⟨byteLength (c :: tail), byteLength (c :: tail)⟩⟩,
        ⟨[], byteLength (c :: tail), true⟩) := rfl
  have calls : Stream.Calls _ _ _ := .more first inside (.done last rfl)
  rw [scan, calls.tokens_eq]
  rfl

end Token

namespace Parse

theorem chain_of_none {operator? : Token.Kind → Option BinaryOp} {operand : Parse Expr}
    {c c' : Cursor} {e : Expr} (h : operand c = .ok e c')
    (last : operator? c'.current.kind = none) : chain operator? operand c = .ok e c' := by
  rw [chain, bind_of_ok h, get_bind, chainFrom_of_none last]

/-- A number token alone is parsed as its number. -/
theorem expression_of_number {token stop : Token} {v : Float} (isNumber : token.kind = .number)
    (isStop : stop.kind = .eof) (value : Number.read? token.lexeme = some v) (levels : Nat) :
    expression levels ⟨[token], stop⟩ = .ok (.literal v) ⟨[], stop⟩ := by
  have number : operand levels ⟨[token], stop⟩ = .ok (.literal v) ⟨[], stop⟩ := by
    have current : (Cursor.mk [token] stop).current = token := rfl
    cases levels <;>
      simp only [operand, operandOf_apply, current, isNumber, literal, value] <;> rfl
  have noOperator {operator? : Token.Kind → Option BinaryOp} (h : operator? .eof = none) :
      operator? (Cursor.mk [] stop).current.kind = none := isStop.symm ▸ h
  exact chain_of_none (chain_of_none (chain_of_none (chain_of_none number
    (noOperator rfl)) (noOperator rfl)) (noOperator rfl)) (noOperator rfl)

end Parse

namespace Number

/-! ### Magnitudes -/

/-- The text of a finite magnitude reads as it, and is plain from one thousandth up to ten
million. -/
theorem magnitudeText_reads {word : Nat} (finite : word < infinity) :
    readMagnitude? (magnitudeText word) = some word ∧
      (word = 0 ∨ (thousandth ≤ word ∧ word < tenMillion) → IsPlain (magnitudeText word)) ∧
      (¬ (word = 0 ∨ (thousandth ≤ word ∧ word < tenMillion)) →
        IsScientific (magnitudeText word)) := by
  unfold magnitudeText
  split
  · next zero =>
    subst zero
    exact ⟨by decide +kernel, fun _ => .point .zero .zero, fun other => absurd (.inl rfl) other⟩
  next filled =>
  obtain ⟨⟨plain, readsPlain⟩, scientific, readsScientific⟩ :=
    decimal_reads (Decimal.digits_shortest_ne_zero finite filled)
  rw [Decimal.magnitude_shortest finite] at readsPlain readsScientific
  dsimp only
  split
  · next inRange => exact ⟨readsPlain, fun _ => plain, fun other => absurd (.inr inRange) other⟩
  · next outside =>
    refine ⟨readsScientific, ?_, fun _ => scientific⟩
    rintro (zero | inRange)
    · exact absurd zero filled
    · exact absurd inRange outside

theorem isNumeral_magnitudeText {word : Nat} (finite : word < infinity) :
    IsNumeral (magnitudeText word) := by
  obtain ⟨-, plain, scientific⟩ := magnitudeText_reads finite
  by_cases range : word = 0 ∨ (thousandth ≤ word ∧ word < tenMillion)
  · exact (plain range).isNumeral
  · exact (scientific range).isNumeral

/-! ### Doubles -/

theorem read?_signed {body : List Char} {word : Nat} (h : readMagnitude? body = some word)
    (negative : Bool) :
    read? (String.ofList (if negative then '-' :: body else body)) =
      some (ofMagnitude negative word) := by
  rw [read?, String.toList_ofList]
  cases negative with
  | true => simp only [if_true, h, Option.map_some]
  | false =>
    simp only [Bool.false_eq_true, if_false]
    split
    · rw [readMagnitude?_sign (.inl rfl)] at h
      cases h
    · rw [readMagnitude?_sign (.inr rfl)] at h
      cases h
    · rw [h, Option.map_some]

/-- Zero, and the doubles from one thousandth up to ten million on either side of it. -/
def InPlainRange (v : Float) : Prop := (v == 0) = true ∨ (1e-3 ≤ v.abs ∧ v.abs < 1e7)

section Ranges

variable {v : Float}

/-- The bounds of the range as words. -/
theorem range_bounds :
    (isNegative 1e-3 = false ∧ magnitude 1e-3 = thousandth) ∧
      isNegative 1e7 = false ∧ magnitude 1e7 = tenMillion := by
  decide +kernel

theorem thousandth_le_abs_iff (number : magnitude v ≤ infinity) :
    1e-3 ≤ v.abs ↔ thousandth ≤ magnitude v := by
  obtain ⟨⟨unsigned, word⟩, -⟩ := range_bounds
  have same := magnitude_ofMagnitude number
  rw [abs_eq, le_iff unsigned (isNegative_ofMagnitude number) (word ▸ by decide)
    (same.symm ▸ number), word, same]

theorem abs_lt_tenMillion_iff (number : magnitude v ≤ infinity) :
    v.abs < 1e7 ↔ magnitude v < tenMillion := by
  obtain ⟨-, unsigned, word⟩ := range_bounds
  have same := magnitude_ofMagnitude number
  rw [abs_eq, lt_iff (isNegative_ofMagnitude number) unsigned (same.symm ▸ number)
    (word ▸ by decide), word, same]

theorem inPlainRange_iff (number : magnitude v ≤ infinity) :
    InPlainRange v ↔
      magnitude v = 0 ∨ (thousandth ≤ magnitude v ∧ magnitude v < tenMillion) := by
  rw [InPlainRange, beq_zero_iff, thousandth_le_abs_iff number, abs_lt_tenMillion_iff number]

/-- In the range, but without a sign. -/
theorem plain_of_range (h : v = 0 ∨ (1e-3 ≤ v ∧ v < 1e7)) :
    isNegative v = false ∧ InPlainRange v := by
  rcases h with rfl | ⟨above, below⟩
  · exact ⟨by decide +kernel, .inl (by decide +kernel)⟩
  · obtain ⟨⟨unsigned, word⟩, -⟩ := range_bounds
    have plain : isNegative v = false := isNegative_of_le unsigned (word ▸ by decide) above
    have unsigned : v.abs = v := by rw [abs_eq, ← plain, ofMagnitude_magnitude]
    refine ⟨plain, .inr ?_⟩
    rw [unsigned]
    exact ⟨above, below⟩

end Ranges

theorem toList_text {v : Float} (finite : magnitude v < infinity) :
    (text v).toList =
      if isNegative v then '-' :: magnitudeText (magnitude v) else magnitudeText (magnitude v) := by
  simp only [text, Nat.lt_asymm finite, Nat.ne_of_lt finite, if_false, String.toList_ofList]

theorem read?_text {v : Float} (number : magnitude v ≤ infinity) : read? (text v) = some v := by
  have unsigned : readMagnitude? (if magnitude v = infinity then "Infinity".toList
      else magnitudeText (magnitude v)) = some (magnitude v) := by
    split
    · next infinite =>
      rw [infinite]
      decide +kernel
    · next finite => exact (magnitudeText_reads (Nat.lt_of_le_of_ne number finite)).1
  simp only [text, Nat.not_lt.mpr number, if_false]
  rw [read?_signed unsigned, ofMagnitude_magnitude]

/-- Doubles that are numbers have texts of their own. -/
theorem text_inj {v v' : Float} (number : magnitude v ≤ infinity) (number' : magnitude v' ≤ infinity)
    (h : text v = text v') : v = v' := by
  have reads := read?_text number
  rw [h, read?_text number'] at reads
  exact (Option.some.inj reads).symm

theorem IsPlain.isLexeme {cs : List Char} (h : IsPlain cs) : Token.IsLexeme .number cs := by
  obtain ⟨left, right⟩ := h
  exact .decimal left.filled left.all right.all

/-- A plain text is one number token, and its literal is the number it reads as. -/
theorem scan_of_isPlain {s : String} {v : Float} (plain : IsPlain s.toList)
    (reads : read? s = some v) :
    ∃ token eof : Token, Token.scan s = .ok [token, eof] ∧
      token = ⟨.number, s, ⟨0, s.utf8ByteSize⟩⟩ ∧ eof.kind = .eof ∧
      Parse.expression Parse.nestingLimit (.ofTokens [token, eof]) =
        .ok (.literal v) ⟨[], eof⟩ := by
  have scanned := Token.scan_of_isLexeme plain.isLexeme
  rw [String.ofList_toList, Text.byteLength_toList] at scanned
  exact ⟨_, _, scanned, rfl, rfl, Parse.expression_of_number rfl rfl reads _⟩

/-- A double that is a number reads back from its text, to the bit. -/
theorem text_reads_back (v : Float) (number : v.isNaN = false) :
    read? (text v) = some v ∧
    (v.isFinite = true → ∃ body : List Char,
      (text v).toList = (if isNegative v then '-' :: body else body) ∧
      (InPlainRange v → IsPlain body) ∧ (¬ InPlainRange v → IsScientific body)) ∧
    (v = 0 ∨ (1e-3 ≤ v ∧ v < 1e7) → ∃ token eof : Token,
      Token.scan (text v) = .ok [token, eof] ∧
      token = ⟨.number, text v, ⟨0, (text v).utf8ByteSize⟩⟩ ∧ eof.kind = .eof ∧
      Parse.expression Parse.nestingLimit (.ofTokens [token, eof]) =
        .ok (.literal v) ⟨[], eof⟩) := by
  have isNumber : magnitude v ≤ infinity := magnitude_le_of_isNaN number
  refine ⟨read?_text isNumber, fun isFinite => ?_, fun range => ?_⟩
  · have finite := isFinite_iff.mp isFinite
    rw [inPlainRange_iff isNumber]
    exact ⟨_, toList_text finite, (magnitudeText_reads finite).2⟩
  · obtain ⟨unsigned, inRange⟩ := plain_of_range range
    rw [inPlainRange_iff isNumber] at inRange
    have finite : magnitude v < infinity := by
      rcases inRange with zero | ⟨-, below⟩
      · rw [zero]
        decide
      · exact Nat.lt_trans below (by decide)
    have plain : IsPlain (text v).toList := by
      rw [toList_text finite, unsigned]
      exact (magnitudeText_reads finite).2.1 inRange
    exact scan_of_isPlain plain (read?_text isNumber)

theorem text_reads_back_thousandth :
    (1e-3 : Float).isNaN = false ∧ text 1e-3 = "0.001" ∧ read? (text 1e-3) = some 1e-3 ∧
      ∃ token eof : Token, Token.scan (text 1e-3) = .ok [token, eof] ∧
        token = ⟨.number, text 1e-3, ⟨0, (text 1e-3).utf8ByteSize⟩⟩ ∧ eof.kind = .eof ∧
        Parse.expression Parse.nestingLimit (.ofTokens [token, eof]) =
          .ok (.literal 1e-3) ⟨[], eof⟩ := by
  have number : (1e-3 : Float).isNaN = false := by decide +kernel
  have range : (1e-3 : Float) ≤ 1e-3 ∧ (1e-3 : Float) < 1e7 := by decide +kernel
  obtain ⟨reads, -, token⟩ := text_reads_back 1e-3 number
  exact ⟨number, by decide +kernel, reads, token (.inr range)⟩

end Number

end Abacus
