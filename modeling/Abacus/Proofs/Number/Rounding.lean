import Abacus.Number.Decimal
import Mathlib.Algebra.Order.Ring.Nat

/-! Rounding depends on the value of a fraction and not on how it is written, and a magnitude is
nearest to itself.  So decimals of one value stand for one magnitude, the settled ends of the range
included, and the shortest decimal of a magnitude stands for it. -/

namespace Abacus.Number

/-! ### Rounding to a whole number -/

theorem roundHalfEven_mul_left {factor : Nat} (positive : 0 < factor) (num den : Nat) :
    roundHalfEven (factor * num) (factor * den) = roundHalfEven num den := by
  have twice : 2 * (factor * num % (factor * den)) = factor * (2 * (num % den)) := by
    rw [Nat.mul_mod_mul_left, Nat.mul_left_comm]
  simp only [roundHalfEven, twice, Nat.mul_div_mul_left _ _ positive, Nat.mul_lt_mul_left positive]

theorem roundHalfEven_mul_self (whole : Nat) {den : Nat} (positive : 0 < den) :
    roundHalfEven (whole * den) den = whole := by
  simp [roundHalfEven, Nat.mul_div_cancel whole positive, positive]

theorem div_le_roundHalfEven (num den : Nat) : num / den ≤ roundHalfEven num den := by
  unfold roundHalfEven
  simp only
  split
  · exact Nat.le_refl _
  · split
    · exact Nat.le_succ _
    · exact Nat.le_add_right _ _

/-! ### Rounding to a magnitude -/

theorem nearest_mul_left {factor : Nat} (positive : 0 < factor) (num den : Nat) :
    nearest (factor * num) (factor * den) = nearest num den := by
  simp only [nearest, Nat.mul_assoc factor, Nat.mul_div_mul_left _ _ positive,
    roundHalfEven_mul_left positive]

/-- Fractions of one value have one nearest magnitude. -/
theorem nearest_congr {num den num' den' : Nat} (positive : 0 < den) (positive' : 0 < den')
    (same : num * den' = num' * den) : nearest num den = nearest num' den' := by
  rw [← nearest_mul_left positive' num den, ← nearest_mul_left positive num' den',
    Nat.mul_comm den' num, same, Nat.mul_comm num' den, Nat.mul_comm den' den]

-- the exponent is a variable, so that no step evaluates the power
theorem unitsInOne_eq {power : Nat} (h : 1074 = power) : unitsInOne = 2 ^ power := by
  unfold unitsInOne
  rw [h, Nat.pow_eq]

theorem unitsInOne_pos : 0 < unitsInOne := by
  rw [unitsInOne_eq rfl]
  apply Nat.two_pow_pos

theorem two_pow_mul_unitsInOne (power : Nat) : 2 ^ power * unitsInOne = 2 ^ (power + 1074) := by
  generalize h : 1074 = units
  rw [unitsInOne_eq h, ← Nat.pow_add]

/-- What reaches the power of two above all doubles is infinite. -/
theorem nearest_eq_infinity {num den power : Nat} (positive : 0 < den) (high : 1024 ≤ power)
    (large : 2 ^ power * den ≤ num) : nearest num den = infinity := by
  let units := num * unitsInOne
  let exponent := (units / den).log2 - 52
  have units_ge : 2 ^ (power + 1074) ≤ units / den := by
    rw [← two_pow_mul_unitsInOne, Nat.le_div_iff_mul_le positive, Nat.mul_right_comm]
    exact Nat.mul_le_mul_right _ large
  have units_ne : units / den ≠ 0 := Nat.ne_of_gt (Nat.lt_of_lt_of_le (Nat.two_pow_pos _) units_ge)
  have log_ge : power + 1074 ≤ (units / den).log2 := (Nat.le_log2 units_ne).mpr units_ge
  -- the significand has all of its 53 bits, so that the exponent alone reaches infinity
  have significand_ge : fractions ≤ roundHalfEven units (den * 2 ^ exponent) := by
    refine Nat.le_trans ?_ (div_le_roundHalfEven _ _)
    rw [← Nat.div_div_eq_div_mul, Nat.le_div_iff_mul_le (Nat.two_pow_pos _)]
    calc fractions * 2 ^ exponent = 2 ^ (52 + exponent) := by rw [Nat.pow_add]; rfl
      _ = 2 ^ (units / den).log2 := by congr 1; omega
      _ ≤ units / den := Nat.log2_self_le units_ne
  have exponent_ge : 2046 ≤ exponent := by omega
  have reached := Nat.mul_le_mul_right fractions exponent_ge
  refine Nat.min_eq_right ?_
  calc infinity = 2046 * fractions + fractions := by decide
    _ ≤ exponent * fractions + roundHalfEven units (den * 2 ^ exponent) :=
      Nat.add_le_add reached significand_ge

/-- What is less than half of the smallest double is zero. -/
theorem nearest_eq_zero {num den : Nat} (small : 2 * (num * unitsInOne) < den) :
    nearest num den = 0 := by
  have below : num * unitsInOne < den := by omega
  have quotient : num * unitsInOne / den = 0 := Nat.div_eq_of_lt below
  have rest : num * unitsInOne % den = num * unitsInOne := Nat.mod_eq_of_lt below
  simp [nearest, roundHalfEven, quotient, rest, small]

/-! ### Magnitudes as units -/

theorem binaryExponent_of_lt {word : Nat} (small : word < fractions) : binaryExponent word = 0 := by
  rw [binaryExponent, Nat.div_eq_of_lt small]

theorem significand_of_lt {word : Nat} (small : word < fractions) : significand word = word :=
  if_pos small

theorem significand_of_le {word : Nat} (large : fractions ≤ word) :
    significand word = fractions + word % fractions := if_neg (Nat.not_lt.mpr large)

theorem scaled_of_lt {word : Nat} (small : word < fractions) : scaled word = word := by
  rw [scaled, significand_of_lt small, binaryExponent_of_lt small, Nat.pow_eq, Nat.pow_zero,
    Nat.mul_one]

/-- A word is its exponent and its significand in one number, the leading bit carried. -/
theorem word_eq (word : Nat) : binaryExponent word * fractions + significand word = word := by
  rcases Nat.lt_or_ge word fractions with small | large
  · rw [binaryExponent_of_lt small, significand_of_lt small, Nat.zero_mul, Nat.zero_add]
  · have one_le : 1 ≤ word / fractions := (Nat.one_le_div_iff (by decide)).mpr large
    have cut := Nat.div_add_mod' word fractions
    have carried : word / fractions * fractions =
        (word / fractions - 1) * fractions + fractions := by
      rw [← Nat.succ_mul, Nat.succ_eq_add_one, Nat.sub_add_cancel one_le]
    rw [binaryExponent, significand_of_le large]
    omega

theorem log2_scaled_of_lt {word : Nat} (small : word < fractions) :
    (scaled word).log2 - 52 = 0 := by
  rw [scaled_of_lt small]
  by_cases zero : word = 0
  · subst zero; rfl
  · have : word.log2 < 52 := (Nat.log2_lt zero).mpr small
    omega

theorem log2_scaled {word : Nat} (large : fractions ≤ word) :
    (scaled word).log2 = 52 + binaryExponent word := by
  have bounds : 2 ^ 52 ≤ significand word ∧ significand word < 2 ^ 53 := by
    have : word % fractions < 2 ^ 52 := Nat.mod_lt _ (by decide)
    have : fractions = 2 ^ 52 := by decide
    rw [significand_of_le large]
    omega
  have power := Nat.two_pow_pos (binaryExponent word)
  have filled : scaled word ≠ 0 := Nat.ne_of_gt (Nat.mul_pos (by omega) power)
  apply (Nat.log2_eq_iff filled).mpr
  rw [Nat.add_right_comm, Nat.pow_add, Nat.pow_add]
  exact ⟨Nat.mul_le_mul_right _ bounds.1, Nat.mul_lt_mul_of_pos_right bounds.2 power⟩

/-- A finite magnitude is the nearest one to its own value. -/
theorem nearest_scaled {word : Nat} (finite : word < infinity) :
    nearest (scaled word) unitsInOne = word := by
  let exponent := (scaled word).log2 - 52
  have quotient : scaled word * unitsInOne / unitsInOne = scaled word :=
    Nat.mul_div_cancel _ unitsInOne_pos
  have rounded : exponent * fractions +
      roundHalfEven (scaled word * unitsInOne) (unitsInOne * 2 ^ exponent) = word := by
    rcases Nat.lt_or_ge word fractions with small | large
    · have exponent_eq : exponent = 0 := log2_scaled_of_lt small
      rw [exponent_eq, Nat.pow_zero, Nat.mul_one, roundHalfEven_mul_self _ unitsInOne_pos,
        scaled_of_lt small, Nat.zero_mul, Nat.zero_add]
    · have exponent_eq : exponent = binaryExponent word := by
        rw [← Nat.add_sub_cancel_left (n := 52) (m := binaryExponent word), ← log2_scaled large]
      have product : scaled word * unitsInOne =
          significand word * (unitsInOne * 2 ^ binaryExponent word) := by
        rw [scaled, Nat.pow_eq, Nat.mul_assoc, Nat.mul_comm unitsInOne]
      rw [exponent_eq, product,
        roundHalfEven_mul_self _ (Nat.mul_pos unitsInOne_pos (Nat.two_pow_pos _)), word_eq]
  simp only [nearest, quotient, Nat.pow_eq]
  rw [rounded]
  exact Nat.min_eq_left (Nat.le_of_lt finite)

/-! ### The magnitude of a decimal -/

namespace Decimal

theorem two_pow_le_ten_pow (n : Nat) : 2 ^ (33 * n + 3) ≤ 10 ^ (10 * n + 1) := by
  rw [Nat.pow_add, Nat.pow_add, Nat.pow_mul, Nat.pow_mul]
  exact Nat.mul_le_mul (Nat.pow_le_pow_left (by decide) n) (by decide)

theorem nearest_of_far {digits power : Nat} (filled : digits ≠ 0) (far : 310 < power) :
    nearest (digits * 10 ^ power) 1 = infinity := by
  let tens := (power - 1) / 10
  have large : 2 ^ (33 * tens + 3) * 1 ≤ digits * 10 ^ power :=
    calc 2 ^ (33 * tens + 3) * 1 = 2 ^ (33 * tens + 3) := Nat.mul_one _
      _ ≤ 10 ^ (10 * tens + 1) := two_pow_le_ten_pow tens
      _ ≤ 10 ^ power := Nat.pow_le_pow_right (by decide) (by omega)
      _ ≤ digits * 10 ^ power := Nat.le_mul_of_pos_left _ (Nat.pos_of_ne_zero filled)
  exact nearest_eq_infinity Nat.one_pos (by omega) large

theorem nearest_of_near {digits places : Nat} (near : digits.log2 + 1100 < 3 * places) :
    nearest digits (10 ^ places) = 0 := by
  apply nearest_eq_zero
  calc 2 * (digits * unitsInOne) = digits * (2 * unitsInOne) := Nat.mul_left_comm ..
    _ < 2 ^ (digits.log2 + 1) * (2 * unitsInOne) :=
      Nat.mul_lt_mul_of_pos_right Nat.lt_log2_self (Nat.mul_pos (by decide) unitsInOne_pos)
    _ = 2 ^ (digits.log2 + 2 + 1074) := by
      rw [← Nat.mul_assoc, ← Nat.pow_succ, two_pow_mul_unitsInOne]
    _ ≤ 2 ^ (3 * places) := Nat.pow_le_pow_right (by decide) (by omega)
    _ = 8 ^ places := Nat.pow_mul 2 3 places
    _ ≤ 10 ^ places := Nat.pow_le_pow_left (by decide) places

/-- The magnitude of a decimal is the one nearest to its value, at the settled ends of the range
too. -/
theorem magnitude_eq_nearest (d : Decimal) :
    d.magnitude = nearest (d.digits * 10 ^ d.exponent.toNat) (10 ^ (-d.exponent).toNat) := by
  rw [magnitude]
  split
  · next none =>
    rw [none, Nat.zero_mul]
    refine (nearest_eq_zero ?_).symm
    rw [Nat.zero_mul, Nat.mul_zero]
    exact Nat.pow_pos (by decide)
  next filled =>
  split
  · next far =>
    have noPlaces : (-d.exponent).toNat = 0 := by omega
    rw [noPlaces, Nat.pow_zero, nearest_of_far filled (by omega)]
  split
  · next near =>
    have noPower : d.exponent.toNat = 0 := by omega
    rw [noPower, Nat.pow_zero, Nat.mul_one, nearest_of_near (by omega)]
  split
  · next whole =>
    have noPlaces : (-d.exponent).toNat = 0 := by omega
    rw [noPlaces, Nat.pow_zero, Nat.pow_eq]
  · next broken =>
    have noPower : d.exponent.toNat = 0 := by omega
    rw [noPower, Nat.pow_zero, Nat.mul_one, Nat.pow_eq]

/-- Zeros behind the digits of a decimal do not change what it stands for. -/
theorem magnitude_shift (digits zeros : Nat) (exponent : Int) :
    magnitude ⟨digits * 10 ^ zeros, exponent - zeros⟩ = magnitude ⟨digits, exponent⟩ := by
  rw [magnitude_eq_nearest, magnitude_eq_nearest]
  refine nearest_congr (Nat.pow_pos (by decide)) (Nat.pow_pos (by decide)) ?_
  simp only [Nat.mul_assoc, ← Nat.pow_add]
  congr 2
  omega

theorem exact_eq {power : Nat} (h : 1074 = power) (word : Nat) :
    exact word = ⟨scaled word * 5 ^ power, -power⟩ := by
  unfold exact
  rw [h, Nat.pow_eq]
  congr 1
  omega

theorem magnitude_exact {word : Nat} (finite : word < infinity) :
    (exact word).magnitude = word := by
  refine Eq.trans ?_ (nearest_scaled finite)
  generalize h : 1074 = power
  have noPower : (-(power : Int)).toNat = 0 := by omega
  have places : (- -(power : Int)).toNat = power := by omega
  rw [magnitude_eq_nearest, exact_eq rfl, h]
  refine nearest_congr (Nat.pow_pos (by decide)) unitsInOne_pos ?_
  rw [noPower, places, unitsInOne_eq h, Nat.pow_zero, Nat.mul_one, Nat.mul_assoc, ← Nat.mul_pow]

theorem magnitude_of_withDigits? {word count : Nat} {d : Decimal}
    (found : withDigits? word count = some d) : d.magnitude = word := by
  unfold withDigits? at found
  extract_lets exponent num den below above at found
  split at found
  · next isBelow =>
    split at found
    · next isAbove => rw [← Option.some.inj found]; exact isAbove.1
    · rw [← Option.some.inj found]; exact isBelow
  · split at found
    · next isAbove => rw [← Option.some.inj found]; exact isAbove
    · cases found

/-- The shortest decimal of a finite magnitude stands for it. -/
theorem magnitude_shortest {word : Nat} (finite : word < infinity) :
    (shortest word).magnitude = word := by
  unfold shortest
  cases search : (List.range 17).findSome? fun n => withDigits? word (n + 1) with
  | none => exact magnitude_exact finite
  | some d =>
    obtain ⟨n, -, found⟩ := List.exists_of_findSome?_eq_some search
    exact magnitude_of_withDigits? found

theorem digits_shortest_ne_zero {word : Nat} (finite : word < infinity) (filled : word ≠ 0) :
    (shortest word).digits ≠ 0 := by
  intro none
  apply filled
  rw [← magnitude_shortest finite, magnitude, if_pos none]

end Decimal

end Abacus.Number
