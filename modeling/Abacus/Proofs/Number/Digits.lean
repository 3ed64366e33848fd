import Abacus.Number.Text
import Abacus.Proofs.Number.Rounding
import Mathlib.Data.List.TakeWhile

/-! Digits as text.  The written forms of a number are digits with a point and zeros around them.
Reading them gives a decimal with the same digits and the same exponent of the first one, up to the
zeros on either side. -/

namespace Abacus.Number

/-- A run of digits. -/
structure IsDigits (cs : List Char) : Prop where
  filled : cs ≠ []
  all : ∀ c ∈ cs, c.isDigit = true

namespace IsDigits

variable {cs cs' : List Char}

theorem append (h : IsDigits cs) (h' : ∀ c ∈ cs', c.isDigit = true) : IsDigits (cs ++ cs') :=
  ⟨List.append_ne_nil_of_left_ne_nil h.filled _, List.forall_mem_append.mpr ⟨h.all, h'⟩⟩

theorem zero : IsDigits ['0'] := ⟨List.cons_ne_nil _ _, List.forall_mem_singleton.mpr rfl⟩

theorem toDigits (n : Nat) : IsDigits (Nat.toDigits 10 n) :=
  ⟨Nat.toDigits_ne_nil, fun _ => Nat.isDigit_of_mem_toDigits (by decide) (by decide)⟩

theorem exists_cons (h : IsDigits cs) :
    ∃ first rest, cs = first :: rest ∧ first.isDigit = true := by
  obtain ⟨first, rest, rfl⟩ := List.exists_cons_of_ne_nil h.filled
  exact ⟨first, rest, rfl, h.all first List.mem_cons_self⟩

end IsDigits

theorem isDigit_zeros (count : Nat) : ∀ c ∈ List.replicate count '0', c.isDigit = true := by
  intro c member
  rw [List.eq_of_mem_replicate member]
  rfl

/-! ### The digits of a decimal -/

/-- The decimal with the given digits, the first of which has the given exponent. -/
def Decimal.ofDigits (digits : List Char) (first : Int) : Decimal :=
  ⟨Nat.ofDigitChars 10 digits 0, first + 1 - digits.length⟩

theorem ofDigits_zeros_append (count : Nat) (digits : List Char) (first : Int) :
    Decimal.ofDigits (List.replicate count '0' ++ digits) first =
      Decimal.ofDigits digits (first - count) := by
  simp only [Decimal.ofDigits, Nat.ofDigitChars_append, Nat.ofDigitChars_replicate_zero,
    Nat.mul_zero, List.length_append, List.length_replicate, Decimal.mk.injEq, true_and]
  omega

theorem magnitude_ofDigits_append_zeros (digits : List Char) (count : Nat) (first : Int) :
    (Decimal.ofDigits (digits ++ List.replicate count '0') first).magnitude =
      (Decimal.ofDigits digits first).magnitude := by
  refine Eq.trans ?_ (Decimal.magnitude_shift _ count _)
  congr 1
  simp only [Decimal.ofDigits, Nat.ofDigitChars_append, Nat.ofDigitChars_replicate_zero,
    List.length_append, List.length_replicate, Decimal.mk.injEq, Nat.mul_comm, true_and]
  omega

/-- Only zeros are cut off the end of the digits. -/
theorem exists_toDigits_eq (d : Decimal) :
    ∃ count, Nat.toDigits 10 d.digits = significantDigits d ++ List.replicate count '0' := by
  let zeros := (Nat.toDigits 10 d.digits).reverse.takeWhile (· == '0')
  have allZero : ∀ c ∈ zeros.reverse, c = '0' := by
    intro c member
    have isZero : (c == '0') = true :=
      List.mem_takeWhile_imp (p := (· == '0')) (List.mem_reverse.mp member)
    exact beq_iff_eq.mp isZero
  refine ⟨zeros.reverse.length, ?_⟩
  rw [← List.eq_replicate_of_mem allZero, significantDigits, ← List.reverse_append,
    List.takeWhile_append_dropWhile, List.reverse_reverse]

theorem magnitude_significantDigits (d : Decimal) :
    (Decimal.ofDigits (significantDigits d) (firstExponent d)).magnitude = d.magnitude := by
  obtain ⟨count, digits_eq⟩ := exists_toDigits_eq d
  rw [← magnitude_ofDigits_append_zeros _ count, ← digits_eq]
  congr 1
  simp only [Decimal.ofDigits, firstExponent, Nat.ofDigitChars_ten_toDigits]
  cases d
  simp only [Decimal.mk.injEq, true_and]
  omega

theorem exists_toDigits_cons {n : Nat} (filled : n ≠ 0) :
    ∃ first rest, Nat.toDigits 10 n = first :: rest ∧ first ≠ '0' := by
  induction n using Nat.strongRecOn with
  | ind n ih =>
    rcases Nat.lt_or_ge n 10 with small | large
    · refine ⟨n.digitChar, [], Nat.toDigits_of_lt_base small, ?_⟩
      rwa [ne_eq, Nat.digitChar_eq_zero]
    · obtain ⟨first, rest, digits_eq, nonzero⟩ := ih (n / 10) (by omega) (by omega)
      refine ⟨first, rest ++ [(n % 10).digitChar], ?_, nonzero⟩
      rw [Nat.toDigits_of_base_le (by decide) large, digits_eq, List.cons_append]

/-- The digits of a decimal other than zero begin with a digit other than zero. -/
theorem exists_significantDigits_cons {d : Decimal} (filled : d.digits ≠ 0) :
    ∃ first rest, significantDigits d = first :: rest ∧ first ≠ '0' := by
  obtain ⟨first, rest, digits_eq, nonzero⟩ := exists_toDigits_cons filled
  obtain ⟨count, cut⟩ := exists_toDigits_eq d
  rw [digits_eq] at cut
  cases written : significantDigits d with
  | nil =>
    rw [written, List.nil_append] at cut
    exact absurd (List.eq_of_mem_replicate (cut ▸ List.mem_cons_self)) nonzero
  | cons first' rest' =>
    rw [written, List.cons_append] at cut
    exact ⟨first', rest', rfl, (List.cons.inj cut).1 ▸ nonzero⟩

theorem isDigits_significantDigits {d : Decimal} (filled : d.digits ≠ 0) :
    IsDigits (significantDigits d) := by
  obtain ⟨first, rest, digits_eq, -⟩ := exists_significantDigits_cons filled
  obtain ⟨count, cut⟩ := exists_toDigits_eq d
  refine ⟨digits_eq ▸ List.cons_ne_nil _ _, fun c member => ?_⟩
  apply (IsDigits.toDigits d.digits).all
  rw [cut]
  exact List.mem_append_left _ member

/-! ### Reading -/

theorem takeWhile_eq_nil_of_head {p : Char → Bool} {text : List Char}
    (stop : ∀ c ∈ text.head?, p c = false) : text.takeWhile p = [] ∧ text.dropWhile p = text := by
  cases text with
  | nil => exact ⟨rfl, rfl⟩
  | cons c text =>
    have stops : p c = false := stop c rfl
    simp [stops]

/-- Digits with a point in them, before text that begins with no digit. -/
theorem readDecimal?_point {whole fraction ending : List Char} (left : IsDigits whole)
    (right : ∀ c ∈ fraction, c.isDigit = true) (stop : ∀ c ∈ ending.head?, c.isDigit = false) :
    readDecimal? (whole ++ '.' :: (fraction ++ ending)) =
      (readExponent? ending).map fun e =>
        Decimal.ofDigits (whole ++ fraction) (whole.length - 1 + e) := by
  have point : '.'.isDigit = false := by decide
  obtain ⟨none, all⟩ := takeWhile_eq_nil_of_head stop
  have unfilled : ¬ (whole = [] ∧ fraction = []) := fun empty => left.filled empty.1
  have exponent (e : Int) : e - fraction.length =
      whole.length - 1 + e + 1 - (whole ++ fraction).length := by
    rw [List.length_append]
    omega
  unfold readDecimal?
  rw [List.takeWhile_append_of_pos left.all, List.dropWhile_append_of_pos left.all]
  simp only [List.takeWhile_cons, List.dropWhile_cons, point, Bool.false_eq_true, if_false,
    List.append_nil, List.takeWhile_append_of_pos right, List.dropWhile_append_of_pos right, none,
    all, unfilled, exponent, Decimal.ofDigits]

theorem readExponent?_minus {digits : List Char} (h : IsDigits digits) :
    readExponent? ('E' :: '-' :: digits) = some (-(Nat.ofDigitChars 10 digits 0 : Int)) := by
  have written : digits ≠ [] ∧ digits.all Char.isDigit = true :=
    ⟨h.filled, List.all_eq_true.mpr h.all⟩
  simp only [readExponent?, or_true, if_true, written, ne_eq, not_false_eq_true, and_self]

theorem readExponent?_digits {digits : List Char} (h : IsDigits digits) :
    readExponent? ('E' :: digits) = some (Nat.ofDigitChars 10 digits 0 : Int) := by
  have written : digits ≠ [] ∧ digits.all Char.isDigit = true :=
    ⟨h.filled, List.all_eq_true.mpr h.all⟩
  obtain ⟨first, rest, rfl, isDigit⟩ := h.exists_cons
  have noMinus : first ≠ '-' := by rintro rfl; cases isDigit
  have noPlus : first ≠ '+' := by rintro rfl; cases isDigit
  rw [readExponent?, if_pos (.inr rfl), if_pos written]
  · rfl
  · exact fun _ same => noMinus (List.cons.inj same).1
  · exact fun _ same => noPlus (List.cons.inj same).1

theorem readExponent?_intDigits (n : Int) : readExponent? ('E' :: intDigits n) = some n := by
  have digits := IsDigits.toDigits n.natAbs
  rw [intDigits]
  split
  · next negative =>
    rw [readExponent?_minus digits, Nat.ofDigitChars_ten_toDigits]
    congr 1
    omega
  · next positive =>
    rw [readExponent?_digits digits, Nat.ofDigitChars_ten_toDigits]
    congr 1
    omega

theorem toLower_of_isDigit {c : Char} (h : c.isDigit = true) : c.toLower = c := by
  simp only [Char.isDigit, Bool.and_eq_true, decide_eq_true_eq] at h
  unfold Char.toLower
  split
  · next upper => exact absurd (UInt32.le_trans upper.1 h.2) (by decide)
  · rfl

/-- What does not begin like a word is read as a decimal. -/
theorem readMagnitude?_cons {first : Char} (notI : first.toLower ≠ 'i') (notN : first.toLower ≠ 'n')
    (rest : List Char) :
    readMagnitude? (first :: rest) = (readDecimal? (first :: rest)).map Decimal.magnitude := by
  have differs {word : String} {letter : Char} (start : word.toList.head? = some letter)
      (other : first.toLower ≠ letter) :
      String.ofList ((first :: rest).map Char.toLower) ≠ word := by
    rintro rfl
    rw [String.toList_ofList] at start
    exact other (Option.some.inj start)
  have notInf : String.ofList ((first :: rest).map Char.toLower) ≠ "inf" := differs rfl notI
  have notInfinity : String.ofList ((first :: rest).map Char.toLower) ≠ "infinity" :=
    differs rfl notI
  have notNan : String.ofList ((first :: rest).map Char.toLower) ≠ "nan" := differs rfl notN
  simp only [readMagnitude?, notInf, notInfinity, notNan, or_self, if_false]

theorem readMagnitude?_of_isDigit {first : Char} (isDigit : first.isDigit = true)
    (rest : List Char) :
    readMagnitude? (first :: rest) = (readDecimal? (first :: rest)).map Decimal.magnitude := by
  apply readMagnitude?_cons <;> rw [toLower_of_isDigit isDigit] <;> rintro rfl <;> cases isDigit

/-- No magnitude begins with a sign. -/
theorem readMagnitude?_sign {sign : Char} (h : sign = '-' ∨ sign = '+') (rest : List Char) :
    readMagnitude? (sign :: rest) = none := by
  rcases h with rfl | rfl
  · rw [readMagnitude?_cons (by decide) (by decide)]
    rfl
  · rw [readMagnitude?_cons (by decide) (by decide)]
    rfl

theorem readMagnitude?_point {whole fraction ending : List Char} {exponent : Int}
    (left : IsDigits whole) (right : IsDigits fraction)
    (stop : ∀ c ∈ ending.head?, c.isDigit = false) (h : readExponent? ending = some exponent) :
    readMagnitude? (whole ++ '.' :: (fraction ++ ending)) =
      some (Decimal.ofDigits (whole ++ fraction) (whole.length - 1 + exponent)).magnitude := by
  have decimal := readDecimal?_point left right.all stop
  obtain ⟨first, rest, rfl, isDigit⟩ := left.exists_cons
  rw [h] at decimal
  rw [List.cons_append, readMagnitude?_of_isDigit isDigit, ← List.cons_append, decimal]
  rfl

/-! ### The two written forms -/

/-- Plain decimals: digits, a point and digits. -/
inductive IsPlain : List Char → Prop
  | point {whole fraction : List Char} (left : IsDigits whole) (right : IsDigits fraction) :
      IsPlain (whole ++ '.' :: fraction)

/-- Whole numbers: digits, with a minus before them or nothing. -/
inductive IsWhole : List Char → Prop
  | plain {digits : List Char} (h : IsDigits digits) : IsWhole digits
  | minus {digits : List Char} (h : IsDigits digits) : IsWhole ('-' :: digits)

/-- Decimals with an exponent: a digit other than zero, a point, digits, a capital E and a whole
number. -/
inductive IsScientific : List Char → Prop
  | exponent {first : Char} {fraction exponent : List Char} (isDigit : first.isDigit = true)
      (nonzero : first ≠ '0') (right : IsDigits fraction) (whole : IsWhole exponent) :
      IsScientific (first :: '.' :: (fraction ++ 'E' :: exponent))

theorem isWhole_intDigits (n : Int) : IsWhole (intDigits n) := by
  unfold intDigits
  split
  · exact .minus (.toDigits _)
  · exact .plain (.toDigits _)

/-- Whether a character occurs in printed numbers. -/
def inNumeral (c : Char) : Bool := c.isDigit || c ∈ ['.', 'E', '-']

theorem IsDigits.inNumeral {cs : List Char} (h : IsDigits cs) : ∀ c ∈ cs, inNumeral c = true := by
  intro c member
  simp [Number.inNumeral, h.all c member]

theorem IsWhole.inNumeral {cs : List Char} (h : IsWhole cs) : ∀ c ∈ cs, inNumeral c = true := by
  cases h with
  | plain digits => exact digits.inNumeral
  | minus digits => exact List.forall_mem_cons.mpr ⟨rfl, digits.inNumeral⟩

/-- What both written forms are: a digit, and behind it the characters of printed numbers. -/
structure IsNumeral (cs : List Char) : Prop where
  start : ∃ first rest, cs = first :: rest ∧ first.isDigit = true
  all : ∀ c ∈ cs, inNumeral c = true

theorem IsPlain.isNumeral {cs : List Char} (h : IsPlain cs) : IsNumeral cs := by
  obtain ⟨left, right⟩ := h
  obtain ⟨first, rest, rfl, isDigit⟩ := left.exists_cons
  exact ⟨⟨first, _, rfl, isDigit⟩, List.forall_mem_append.mpr
    ⟨left.inNumeral, List.forall_mem_cons.mpr ⟨rfl, right.inNumeral⟩⟩⟩

theorem IsScientific.isNumeral {cs : List Char} (h : IsScientific cs) : IsNumeral cs := by
  obtain ⟨isDigit, -, right, whole⟩ := h
  refine ⟨⟨_, _, rfl, isDigit⟩, List.forall_mem_cons.mpr ⟨?_, List.forall_mem_cons.mpr ⟨rfl, ?_⟩⟩⟩
  · simp [inNumeral, isDigit]
  · exact List.forall_mem_append.mpr
      ⟨right.inNumeral, List.forall_mem_cons.mpr ⟨rfl, whole.inNumeral⟩⟩

/-- Behind the point stands what is left of the digits, or a zero. -/
theorem exists_fraction (rest : List Char) (all : ∀ c ∈ rest, c.isDigit = true) :
    IsDigits (if rest.isEmpty then ['0'] else rest) ∧
      ∃ count, (if rest.isEmpty then ['0'] else rest) = rest ++ List.replicate count '0' := by
  cases rest with
  | nil => exact ⟨.zero, 1, rfl⟩
  | cons c rest => exact ⟨⟨List.cons_ne_nil c rest, all⟩, 0, (List.append_nil _).symm⟩

/-- Digits cut at a place, and filled up with zeros to it, are the digits before zeros. -/
theorem exists_cut_eq (digits : List Char) (places count : Nat) :
    ∃ count', digits.take places ++ List.replicate (places - digits.length) '0' ++
      (digits.drop places ++ List.replicate count '0') = digits ++ List.replicate count' '0' := by
  rcases Nat.le_total places digits.length with inside | behind
  · refine ⟨count, ?_⟩
    rw [Nat.sub_eq_zero_of_le inside, List.replicate_zero, List.append_nil, ← List.append_assoc,
      List.take_append_drop]
  · refine ⟨places - digits.length + count, ?_⟩
    rw [List.take_of_length_le behind, List.drop_of_length_le behind, List.nil_append,
      List.append_assoc, List.replicate_append_replicate]

/-- A positional text holds the digits with zeros around them, and the point stands behind the
exponent zero. -/
theorem exists_positional_eq {digits : List Char} (h : IsDigits digits) (first : Int) :
    ∃ whole fraction, IsDigits whole ∧ IsDigits fraction ∧
      positional digits first = whole ++ '.' :: fraction ∧
      (Decimal.ofDigits (whole ++ fraction) (whole.length - 1)).magnitude =
        (Decimal.ofDigits digits first).magnitude := by
  unfold positional
  split
  · next small =>
    let zeros := List.replicate (-first - 1).toNat '0'
    refine ⟨['0'], zeros ++ digits, .zero, ?_, rfl, ?_⟩
    · exact ⟨List.append_ne_nil_of_right_ne_nil _ h.filled,
        List.forall_mem_append.mpr ⟨isDigit_zeros _, h.all⟩⟩
    · have leading : ['0'] ++ (zeros ++ digits) =
          List.replicate ((-first - 1).toNat + 1) '0' ++ digits := rfl
      rw [leading, ofDigits_zeros_append]
      congr 2
      simp only [List.length_singleton]
      omega
  · next large =>
    let places := first.toNat + 1
    let zeros := List.replicate (places - digits.length) '0'
    obtain ⟨right, count, fraction_eq⟩ := exists_fraction (digits.drop places)
      fun c member => h.all c (List.mem_of_mem_drop member)
    have left : IsDigits (digits.take places) :=
      ⟨by simp [places, h.filled], fun c member => h.all c (List.mem_of_mem_take member)⟩
    refine ⟨digits.take places ++ zeros, _, left.append (isDigit_zeros _), right, ?_, ?_⟩
    · simp only [List.append_assoc, List.singleton_append]
      rfl
    · obtain ⟨count', digits_eq⟩ := exists_cut_eq digits places count
      rw [fraction_eq, digits_eq, magnitude_ofDigits_append_zeros]
      congr 2
      simp only [zeros, List.length_append, List.length_take, List.length_replicate]
      omega

/-- A scientific text holds the digits, perhaps with a zero behind them, and the exponent of the
first one. -/
theorem exists_scientific_eq {first : Char} {rest : List Char} (h : IsDigits (first :: rest))
    (exponent : Int) :
    ∃ fraction, IsDigits fraction ∧
      scientific (first :: rest) exponent =
        first :: '.' :: (fraction ++ 'E' :: intDigits exponent) ∧
      (Decimal.ofDigits (first :: fraction) exponent).magnitude =
        (Decimal.ofDigits (first :: rest) exponent).magnitude := by
  obtain ⟨right, count, fraction_eq⟩ := exists_fraction rest
    fun c member => h.all c (List.mem_cons_of_mem _ member)
  refine ⟨_, right, ?_, ?_⟩
  · simp [scientific]
  · rw [fraction_eq, ← List.cons_append, magnitude_ofDigits_append_zeros]

theorem positional_reads {digits : List Char} (h : IsDigits digits) (first : Int) :
    IsPlain (positional digits first) ∧
      readMagnitude? (positional digits first) =
        some (Decimal.ofDigits digits first).magnitude := by
  obtain ⟨whole, fraction, left, right, text_eq, value_eq⟩ := exists_positional_eq h first
  have stop : ∀ c ∈ ([] : List Char).head?, c.isDigit = false := nofun
  have value := readMagnitude?_point left right stop rfl
  rw [List.append_nil, Int.add_zero, value_eq] at value
  rw [text_eq]
  exact ⟨.point left right, value⟩

theorem scientific_reads {digits : List Char} (h : IsDigits digits)
    (nonzero : digits.head? ≠ some '0') (exponent : Int) :
    IsScientific (scientific digits exponent) ∧
      readMagnitude? (scientific digits exponent) =
        some (Decimal.ofDigits digits exponent).magnitude := by
  obtain ⟨first, rest, rfl, isDigit⟩ := h.exists_cons
  obtain ⟨fraction, right, text_eq, value_eq⟩ := exists_scientific_eq h exponent
  have left : IsDigits [first] := ⟨List.cons_ne_nil _ _, List.forall_mem_singleton.mpr isDigit⟩
  have stop : ∀ c ∈ ('E' :: intDigits exponent).head?, c.isDigit = false := by
    rintro c ⟨⟩
    rfl
  have value := readMagnitude?_point left right stop (readExponent?_intDigits exponent)
  have leading : (([first].length : Int) - 1 + exponent) = exponent := by
    rw [List.length_singleton]
    omega
  rw [leading, List.singleton_append, List.singleton_append, value_eq] at value
  rw [text_eq]
  refine ⟨.exponent isDigit ?_ right (isWhole_intDigits exponent), value⟩
  simpa using nonzero

/-- Both written forms of a decimal other than zero read as it. -/
theorem decimal_reads {d : Decimal} (filled : d.digits ≠ 0) :
    (IsPlain (positional (significantDigits d) (firstExponent d)) ∧
      readMagnitude? (positional (significantDigits d) (firstExponent d)) = some d.magnitude) ∧
    (IsScientific (scientific (significantDigits d) (firstExponent d)) ∧
      readMagnitude? (scientific (significantDigits d) (firstExponent d)) = some d.magnitude) := by
  have digits := isDigits_significantDigits filled
  obtain ⟨first, rest, digits_eq, nonzero⟩ := exists_significantDigits_cons filled
  have start : (significantDigits d).head? ≠ some '0' := by
    simpa [digits_eq] using nonzero
  rw [← magnitude_significantDigits d]
  exact ⟨positional_reads digits _, scientific_reads digits start _⟩

end Abacus.Number
