import Abacus.Number.Nearest

/-! Decimals, the magnitude that a decimal stands for, and the shortest decimal that stands for a
magnitude. -/

namespace Abacus.Number

/-- The decimal `digits * 10 ^ exponent`. -/
structure Decimal where
  digits : Nat
  exponent : Int
deriving DecidableEq, Repr

namespace Decimal

/-- The magnitude nearest to a decimal.  A decimal that lies far above the largest double or far
below half of the smallest one is settled without its power of ten. -/
def magnitude (d : Decimal) : Nat :=
  if d.digits = 0 then 0
  else if 310 < d.exponent then infinity
  else if (d.digits.log2 : Int) + 1100 < -3 * d.exponent then 0
  else if 0 ≤ d.exponent then nearest (d.digits * Nat.pow 10 d.exponent.toNat) 1
  else nearest d.digits (Nat.pow 10 (-d.exponent).toNat)

/-- The exponent of the first decimal digit of a positive magnitude. -/
def leadingExponent (word : Nat) : Int :=
  let binary : Int := (scaled word).log2 - 1074
  let guess := (binary * 30103).fdiv 100000
  let units := scaled word
  let reached :=
    if 0 ≤ guess + 1 then unitsInOne * Nat.pow 10 (guess + 1).toNat ≤ units
    else unitsInOne ≤ units * Nat.pow 10 (-(guess + 1)).toNat
  if reached then guess + 1 else guess

/-- The decimal of at most `count` digits, or the next power of ten, that is nearest to the
magnitude among those that stand for it.  Of two that are equally near, the larger one. -/
def withDigits? (word count : Nat) : Option Decimal :=
  let exponent := leadingExponent word + 1 - count
  let num := if 0 ≤ exponent then scaled word else scaled word * Nat.pow 10 (-exponent).toNat
  let den := if 0 ≤ exponent then unitsInOne * Nat.pow 10 exponent.toNat else unitsInOne
  let below : Decimal := ⟨num / den, exponent⟩
  let above : Decimal := ⟨num / den + 1, exponent⟩
  if below.magnitude = word then
    if above.magnitude = word ∧ den ≤ 2 * (num % den) then some above else some below
  else if above.magnitude = word then some above
  else none

/-- A magnitude written out in full: its units are tenths to the power 1074 after a product with
the same power of five. -/
def exact (word : Nat) : Decimal := ⟨scaled word * Nat.pow 5 1074, -1074⟩

/-- The shortest decimal that stands for the magnitude.  Seventeen digits are always enough. -/
def shortest (word : Nat) : Decimal :=
  ((List.range 17).findSome? fun n => withDigits? word (n + 1)).getD (exact word)

end Decimal

end Abacus.Number
