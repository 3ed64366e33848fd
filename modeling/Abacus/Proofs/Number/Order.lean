import Abacus.Number.Text
import Abacus.Proofs.Number.Rounding
import Mathlib

/-! Doubles by their words.  The sign, the exponent and the significand of a double are read off its
word, so that what is infinite or no number shows in the magnitude, and the order of doubles without
a sign is the order of their magnitudes.  The lemmas on `Float.Model` that this rests on come with
`Mathlib` as a whole and with none of its files alone. -/

namespace Abacus.Number

open Float.Model (UnpackedFloat)
open Float.Model.UnpackedFloat (Sign unpackExponent unpackMantissa unpackSign)

/-! ### The parts of a word -/

/-- The sign of a word. -/
def signOf (word : Nat) : Sign := if signBit ≤ word then .negative else .positive

theorem significand_pos {word : Nat} (filled : 0 < word) : 0 < significand word := by
  unfold significand
  split
  · exact filled
  · exact Nat.add_pos_left (by decide) _

/-- The number with the given sign and magnitude. -/
def unpacked (sign : Sign) (word : Nat) : UnpackedFloat :=
  if filled : 0 < word then
    if word < infinity then
      .finite sign (significand word) (binaryExponent word - 1074) (significand_pos filled)
    else if word = infinity then .infinity sign
    else .notANumber
  else .zero sign

section Parts

variable (word : UInt64)

theorem toNat_unpackMantissa :
    (@unpackMantissa .binary64 word.toBitVec).toNat = word.toNat % signBit % fractions := by
  have cut : (@unpackMantissa .binary64 word.toBitVec).toNat = word.toNat % 2 ^ 52 := by
    rw [UnpackedFloat.unpackMantissa_def, BitVec.extractLsb'_toNat]
    rfl
  rw [cut, signBit, fractions]
  omega

theorem toNat_unpackExponent :
    (@unpackExponent .binary64 word.toBitVec).toNat = word.toNat % signBit / fractions := by
  have cut : (@unpackExponent .binary64 word.toBitVec).toNat =
      word.toNat >>> 52 % 2 ^ 11 := by
    rw [UnpackedFloat.unpackExponent_def, BitVec.extractLsb'_toNat]
    rfl
  rw [cut, Nat.shiftRight_eq_div_pow, signBit, fractions]
  omega

theorem ofBitVec_unpackSign :
    Sign.ofBitVec (@unpackSign .binary64 word.toBitVec) = signOf word.toNat := by
  have cut : (@unpackSign .binary64 word.toBitVec).toNat = word.toNat >>> 63 % 2 ^ 1 := by
    rw [UnpackedFloat.unpackSign_def, BitVec.extractLsb'_toNat]
    rfl
  have clear : @unpackSign .binary64 word.toBitVec = 0#1 ↔ ¬ signBit ≤ word.toNat := by
    have bound := word.toNat_lt
    rw [← BitVec.toNat_inj, cut, Nat.shiftRight_eq_div_pow, signBit]
    simp only [BitVec.toNat_ofNat]
    omega
  unfold Sign.ofBitVec signOf
  simp only [clear, ite_not]

theorem unpackExponent_eq_ones :
    @unpackExponent .binary64 word.toBitVec = -1#_ ↔ infinity ≤ word.toNat % signBit := by
  have ones : (-1#11).toNat = 2047 := by decide
  have bound : word.toNat % signBit < signBit := Nat.mod_lt _ (by decide)
  rw [← BitVec.toNat_inj, toNat_unpackExponent]
  refine Iff.trans (Eq.congr_right ones) ?_
  simp only [infinity, fractions, signBit] at bound ⊢
  omega

theorem unpackExponent_eq_zero :
    @unpackExponent .binary64 word.toBitVec = 0#_ ↔ word.toNat % signBit < fractions := by
  rw [← BitVec.toNat_inj, toNat_unpackExponent]
  exact Nat.div_eq_zero_iff_lt (by decide)

theorem unpackMantissa_eq_zero :
    @unpackMantissa .binary64 word.toBitVec = 0#_ ↔ word.toNat % signBit % fractions = 0 := by
  rw [← BitVec.toNat_inj, toNat_unpackMantissa]
  rfl

theorem toNat_leading_append (large : fractions ≤ word.toNat % signBit) :
    (1#1 ++ @unpackMantissa .binary64 word.toBitVec).toNat =
      significand (word.toNat % signBit) := by
  have shifted := Nat.shiftLeft_add_eq_or_of_lt (@unpackMantissa .binary64 word.toBitVec).isLt 1
  rw [BitVec.toNat_append, significand_of_le large, ← toNat_unpackMantissa]
  exact shifted.symm

theorem unpackExponent_sub (large : fractions ≤ word.toNat % signBit) :
    ((@unpackExponent .binary64 word.toBitVec).toNat : Int) - (1023 + 52) =
      binaryExponent (word.toNat % signBit) - 1074 := by
  have one_le : 1 ≤ word.toNat % signBit / fractions :=
    (Nat.one_le_div_iff (by decide)).mpr large
  rw [toNat_unpackExponent, binaryExponent]
  omega

/-- The parts of a word give the number that its sign and magnitude give. -/
theorem unpack_eq :
    UnpackedFloat.unpack .binary64 word.toBitVec =
      unpacked (signOf word.toNat) (word.toNat % signBit) := by
  have bound : word.toNat % signBit < signBit := Nat.mod_lt _ (by decide)
  have exponent := toNat_unpackExponent word
  have mantissa := toNat_unpackMantissa word
  have allOnes := unpackExponent_eq_ones word
  have noExponent := unpackExponent_eq_zero word
  have noFraction := unpackMantissa_eq_zero word
  have leading := toNat_leading_append word
  have scale := unpackExponent_sub word
  rw [UnpackedFloat.unpack, unpacked]
  generalize word.toNat % signBit = magnitude at *
  simp only [ofBitVec_unpackSign, allOnes, noFraction, noExponent]
  rcases Nat.lt_or_ge magnitude fractions with small | large
  · have finite : magnitude < infinity := Nat.lt_trans small (by decide)
    rw [if_neg (Nat.not_le.mpr finite), if_pos small]
    simp only [if_pos finite, significand_of_lt small, binaryExponent_of_lt small, mantissa,
      exponent, Nat.mod_eq_of_lt small, Nat.div_eq_of_lt small]
    rcases Nat.eq_zero_or_pos magnitude with zero | filled
    · rw [dif_pos zero, dif_neg (by omega)]
    · rw [dif_neg (by omega), dif_pos filled]
      rfl
  have filled : 0 < magnitude := Nat.lt_of_lt_of_le (by decide) large
  rw [dif_pos filled, if_neg (Nat.not_lt.mpr large)]
  rcases Nat.lt_trichotomy magnitude infinity with finite | same | above
  · rw [if_neg (Nat.not_le.mpr finite), if_pos finite]
    simp only [leading large]
    exact congrArg (UnpackedFloat.finite _ _ · _) (scale large)
  · subst same
    rfl
  · have broken : magnitude % fractions ≠ 0 := by
      simp only [infinity, fractions, signBit] at above bound ⊢
      omega
    rw [if_pos (Nat.le_of_lt above), if_neg broken, if_neg (Nat.lt_asymm above),
      if_neg (Nat.ne_of_gt above)]

end Parts

/-! ### Numbers by sign and magnitude -/

theorem isNaN_unpacked {sign : Sign} {word : Nat} :
    (unpacked sign word).isNaN = true ↔ infinity < word := by
  have positive : 0 < infinity := by decide
  unfold unpacked
  split_ifs <;> simp only [UnpackedFloat.isNaN, reduceCtorEq, false_iff, true_iff] <;> omega

theorem isFinite_unpacked {sign : Sign} {word : Nat} :
    (unpacked sign word).isFinite = true ↔ word < infinity := by
  have positive : 0 < infinity := by decide
  unfold unpacked
  split_ifs <;> simp only [UnpackedFloat.isFinite, reduceCtorEq, false_iff, true_iff] <;> omega

theorem abs_unpacked (sign : Sign) (word : Nat) :
    (unpacked sign word).abs = unpacked .positive word := by
  unfold unpacked
  split_ifs <;> rfl

theorem lt_of_binaryExponent_lt {a b : Nat} (h : binaryExponent a < binaryExponent b) : a < b := by
  have below : significand a < 2 * fractions := by
    have := Nat.mod_lt a (show 0 < fractions by decide)
    unfold significand
    split <;> omega
  have carried : fractions ≤ significand b := by
    have large : fractions ≤ b := by
      apply Nat.not_lt.mp
      intro small
      rw [binaryExponent_of_lt small] at h
      exact absurd h (Nat.not_lt_zero _)
    rw [significand_of_le large]
    exact Nat.le_add_right _ _
  calc a = binaryExponent a * fractions + significand a := (word_eq a).symm
    _ < binaryExponent a * fractions + 2 * fractions := Nat.add_lt_add_left below _
    _ = (binaryExponent a + 1) * fractions + fractions := by ring
    _ ≤ binaryExponent b * fractions + significand b :=
      Nat.add_le_add (Nat.mul_le_mul_right _ h) carried
    _ = b := word_eq b

/-- Words are in the order of their exponents and then of their significands. -/
theorem compare_parts (a b : Nat) :
    (compare (binaryExponent a - 1074 : Int) (binaryExponent b - 1074)).then
      (compare (significand a) (significand b)) = compare a b := by
  rcases Nat.lt_trichotomy (binaryExponent a) (binaryExponent b) with less | same | greater
  · rw [compare_lt_iff_lt.mpr (lt_of_binaryExponent_lt less), compare_lt_iff_lt.mpr (by omega)]
    rfl
  · have left := word_eq a
    have right := word_eq b
    rw [same] at left
    have less : significand a < significand b ↔ a < b := by omega
    have greater : significand b < significand a ↔ b < a := by omega
    rw [compare_eq_iff_eq.mpr (by omega), Ordering.then]
    simp only [Nat.compare_eq_ite_lt, less, greater]
  · rw [compare_gt_iff_gt.mpr (lt_of_binaryExponent_lt greater), compare_gt_iff_gt.mpr (by omega)]
    rfl

/-- Numbers without a sign are in the order of their magnitudes. -/
theorem compare_unpacked {a b : Nat} (number : a ≤ infinity) (number' : b ≤ infinity) :
    (unpacked .positive a).compare (unpacked .positive b) = some (compare a b) := by
  have sign : compare Sign.positive Sign.positive = .eq := rfl
  have order := compare_parts a b
  unfold unpacked
  split_ifs <;> simp only [UnpackedFloat.compare]
  all_goals grind [Nat.compare_eq_ite_lt]

theorem not_le_unpacked {a b : Nat} (filled : 0 < a) :
    (unpacked .positive a).le (unpacked .negative b) = false := by
  unfold unpacked
  rw [dif_pos filled]
  split_ifs <;> rfl

theorem beq_zero_unpacked {sign : Sign} {word : Nat} :
    (unpacked sign word).beq (.zero .positive) = true ↔ word = 0 := by
  unfold unpacked
  cases sign <;> split_ifs <;>
    simp only [UnpackedFloat.beq, UnpackedFloat.compare] <;> grind

/-! ### Doubles by sign and magnitude -/

theorem unpack_toModel (v : Float) :
    v.toModel.unpack = unpacked (signOf v.toBits.toNat) (magnitude v) := unpack_eq v.toBits

theorem isNaN_iff {v : Float} : v.isNaN = true ↔ infinity < magnitude v := by
  rw [← isNaN_unpacked, ← unpack_toModel]
  exact Iff.rfl

theorem isFinite_iff {v : Float} : v.isFinite = true ↔ magnitude v < infinity := by
  rw [← isFinite_unpacked, ← unpack_toModel]
  exact Iff.rfl

theorem magnitude_le_of_isNaN {v : Float} (number : v.isNaN = false) : magnitude v ≤ infinity := by
  apply Nat.not_lt.mp
  rw [← isNaN_iff, number]
  exact Bool.false_ne_true

theorem magnitude_lt (v : Float) : magnitude v < signBit := Nat.mod_lt _ (by decide)

/-- A double is given by its sign and its magnitude. -/
theorem ofMagnitude_magnitude (v : Float) : ofMagnitude (isNegative v) (magnitude v) = v := by
  have bound : v.toBits.toNat < 2 * signBit := v.toBits.toNat_lt
  have bits : (if isNegative v = true then signBit + magnitude v else magnitude v) =
      v.toBits.toNat := by
    rw [isNegative, magnitude]
    rcases Nat.lt_or_ge v.toBits.toNat signBit with plain | signed
    · rw [if_neg (by simpa using plain), Nat.mod_eq_of_lt plain]
    · rw [if_pos (by simpa using signed), Nat.mod_eq_sub_mod signed, Nat.mod_eq_of_lt (by omega)]
      omega
  rw [ofMagnitude, bits, UInt64.ofNat_toNat, Float.ofBits_toBits]

theorem abs_eq (v : Float) : v.abs = ofMagnitude false (magnitude v) := by
  have bits : (UInt64.ofNat (magnitude v)).toNat = magnitude v :=
    UInt64.toNat_ofNat_of_lt (Nat.lt_trans (magnitude_lt v) (by decide))
  have sign : signOf (magnitude v) = .positive := if_neg (Nat.not_le.mpr (magnitude_lt v))
  have same : v.toModel.unpack.abs =
      UnpackedFloat.unpack .binary64 (UInt64.ofNat (magnitude v)).toBitVec := by
    rw [unpack_toModel, abs_unpacked, unpack_eq, bits, Nat.mod_eq_of_lt (magnitude_lt v), sign]
  exact congrArg (fun parts => (⟨Float.Model.pack parts⟩ : Float)) same

theorem toNat_toBits_ofMagnitude {word : Nat} (number : word ≤ infinity) :
    (ofMagnitude false word).toBits.toNat = word := by
  have small : word < signBit := Nat.lt_of_le_of_lt number (by decide)
  have bits : (UInt64.ofNat word).toNat = word :=
    UInt64.toNat_ofNat_of_lt (Nat.lt_trans small (by decide))
  have isNumber : @UnpackedFloat.isNaNBits .binary64 (UInt64.ofNat word).toBitVec = false := by
    rw [UnpackedFloat.isNaNBits, decide_eq_false_iff_not, ne_eq, unpackExponent_eq_ones,
      unpackMantissa_eq_zero, bits, Nat.mod_eq_of_lt small]
    rintro ⟨infinite, broken⟩
    apply broken
    rw [Nat.le_antisymm number infinite]
    decide
  have packed := @UnpackedFloat.pack_unpack .binary64 (UInt64.ofNat word).toBitVec (by decide)
  rw [isNumber] at packed
  exact (congrArg BitVec.toNat packed).trans bits

theorem isNegative_ofMagnitude {word : Nat} (number : word ≤ infinity) :
    isNegative (ofMagnitude false word) = false := by
  have small : word < signBit := Nat.lt_of_le_of_lt number (by decide)
  simpa [isNegative, toNat_toBits_ofMagnitude number] using small

theorem magnitude_ofMagnitude {word : Nat} (number : word ≤ infinity) :
    magnitude (ofMagnitude false word) = word := by
  have small : word < signBit := Nat.lt_of_le_of_lt number (by decide)
  rw [magnitude, toNat_toBits_ofMagnitude number, Nat.mod_eq_of_lt small]

/-! ### The order of doubles -/

variable {u v : Float}

theorem unpack_of_plain (plain : isNegative v = false) :
    v.toModel.unpack = unpacked .positive (magnitude v) := by
  have sign : signOf v.toBits.toNat = .positive := if_neg (by simpa [isNegative] using plain)
  rw [unpack_toModel, sign]

theorem unpack_of_isNegative (negative : isNegative v = true) :
    v.toModel.unpack = unpacked .negative (magnitude v) := by
  have sign : signOf v.toBits.toNat = .negative := if_pos (by simpa [isNegative] using negative)
  rw [unpack_toModel, sign]

theorem le_iff_unpack : u ≤ v ↔ u.toModel.unpack.le v.toModel.unpack = true := decide_eq_true_iff

theorem lt_iff_unpack : u < v ↔ u.toModel.unpack.lt v.toModel.unpack = true := decide_eq_true_iff

theorem le_iff (plain : isNegative u = false) (plain' : isNegative v = false)
    (number : magnitude u ≤ infinity) (number' : magnitude v ≤ infinity) :
    u ≤ v ↔ magnitude u ≤ magnitude v := by
  rw [le_iff_unpack, unpack_of_plain plain, unpack_of_plain plain', UnpackedFloat.le,
    compare_unpacked number number', Option.any_some, Nat.isLE_compare]

theorem lt_iff (plain : isNegative u = false) (plain' : isNegative v = false)
    (number : magnitude u ≤ infinity) (number' : magnitude v ≤ infinity) :
    u < v ↔ magnitude u < magnitude v := by
  rw [lt_iff_unpack, unpack_of_plain plain, unpack_of_plain plain', UnpackedFloat.lt,
    compare_unpacked number number', beq_iff_eq, Option.some_inj, Nat.compare_eq_lt]

theorem isNegative_of_le (plain : isNegative u = false) (filled : 0 < magnitude u) (h : u ≤ v) :
    isNegative v = false := by
  by_contra signed
  have negative : isNegative v = true := Bool.not_eq_false _ ▸ signed
  rw [le_iff_unpack, unpack_of_plain plain, unpack_of_isNegative negative,
    not_le_unpacked filled] at h
  cases h

theorem beq_zero_iff : (v == 0) = true ↔ magnitude v = 0 := by
  have reading : (v == 0) = v.toModel.unpack.beq (.zero .positive) := by
    have zero : magnitude 0 = 0 := by decide +kernel
    have parts : unpacked .positive (magnitude 0) = .zero .positive := by rw [zero]; rfl
    rw [← parts, ← unpack_of_plain (by decide +kernel)]
    rfl
  rw [reading, unpack_toModel, beq_zero_unpacked]

end Abacus.Number
