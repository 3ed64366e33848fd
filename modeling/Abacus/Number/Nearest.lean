/-! Doubles as words, and the double nearest to a fraction.

A magnitude is a word below `2^63`: a double without its sign bit.  The finite magnitudes are the
words below `infinity`, and `scaled` gives such a word as a whole number of units of `2^-1074`, the
smallest positive double.  `nearest` rounds a fraction to a magnitude, a tie to the even word. -/

namespace Abacus.Number

/-- The number of fractions between two powers of two: `2^52`. -/
def fractions : Nat := 0x10000000000000

/-- The number of smallest doubles in one: `2^1074`. -/
def unitsInOne : Nat := Nat.pow 2 1074

/-- The word of the infinite magnitude; larger words are no numbers. -/
def infinity : Nat := 2047 * fractions

/-- The whole number that is scaled by a power of two in a finite magnitude. -/
def significand (word : Nat) : Nat :=
  if word < fractions then word else fractions + word % fractions

/-- The power of two by which the significand is scaled, over the unit of `2^-1074`. -/
def binaryExponent (word : Nat) : Nat := word / fractions - 1

/-- A finite magnitude in units of `2^-1074`. -/
def scaled (word : Nat) : Nat := significand word * Nat.pow 2 (binaryExponent word)

/-- The whole number nearest to `num / den`, a tie to the even one. -/
def roundHalfEven (num den : Nat) : Nat :=
  let quotient := num / den
  let twice := 2 * (num % den)
  if twice < den then quotient
  else if den < twice then quotient + 1
  else quotient + quotient % 2

/-- The magnitude nearest to `num / den`.  The significand is cut to 53 bits or to whole units,
whichever is coarser; one that rounds up to 54 bits carries into the exponent. -/
def nearest (num den : Nat) : Nat :=
  let units := num * unitsInOne
  let exponent := (units / den).log2 - 52
  min (exponent * fractions + roundHalfEven units (den * Nat.pow 2 exponent)) infinity

end Abacus.Number
