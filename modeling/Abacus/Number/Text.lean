import Abacus.Number.Decimal

/-! The written form of numbers: `text` prints a double, `read?` reads one. -/

namespace Abacus.Number

/-- The bit of the sign, `2^63`. -/
def signBit : Nat := 0x8000000000000000

/-- The double with the given sign and magnitude. -/
def ofMagnitude (negative : Bool) (word : Nat) : Float :=
  Float.ofBits (UInt64.ofNat (if negative then signBit + word else word))

/-- Whether the sign bit is set. -/
def isNegative (v : Float) : Bool := signBit ≤ v.toBits.toNat

/-- A double without its sign. -/
def magnitude (v : Float) : Nat := v.toBits.toNat % signBit

/-- A whole number in decimal digits, with a sign only if it is negative. -/
def intDigits (n : Int) : List Char :=
  if n < 0 then '-' :: Nat.toDigits 10 n.natAbs else Nat.toDigits 10 n.natAbs

/-- The digits of a decimal without zeros at the end. -/
def significantDigits (d : Decimal) : List Char :=
  ((Nat.toDigits 10 d.digits).reverse.dropWhile (· == '0')).reverse

/-- The exponent of the first digit of a decimal. -/
def firstExponent (d : Decimal) : Int := d.exponent + (Nat.toDigits 10 d.digits).length - 1

/-- Digits with a point behind the digit of exponent zero and at least one digit on each side. -/
def positional (digits : List Char) (first : Int) : List Char :=
  if first < 0 then ['0', '.'] ++ List.replicate (-first - 1).toNat '0' ++ digits
  else
    let whole := first.toNat + 1
    let fraction := digits.drop whole
    digits.take whole ++ List.replicate (whole - digits.length) '0' ++ ['.'] ++
      (if fraction.isEmpty then ['0'] else fraction)

/-- One digit, a point, the other digits or a zero, and the exponent behind a capital E. -/
def scientific (digits : List Char) (first : Int) : List Char :=
  let fraction := digits.drop 1
  digits.take 1 ++ ['.'] ++ (if fraction.isEmpty then ['0'] else fraction) ++ ['E'] ++
    intDigits first

/-- The magnitude of one thousandth, from which on numbers are written positionally. -/
def thousandth : Nat := 0x3F50624DD2F1A9FC

/-- The magnitude of ten million, from which on numbers are written with an exponent. -/
def tenMillion : Nat := 0x416312D000000000

/-- A finite magnitude in the fewest digits that read back as it. -/
def magnitudeText (word : Nat) : List Char :=
  if word = 0 then ['0', '.', '0']
  else
    let decimal := Decimal.shortest word
    let digits := significantDigits decimal
    let first := firstExponent decimal
    if thousandth ≤ word ∧ word < tenMillion then positional digits first
    else scientific digits first

/-- A double as text. -/
def text (v : Float) : String :=
  let word := magnitude v
  if infinity < word then "NaN"
  else
    let unsigned := if word = infinity then "Infinity".toList else magnitudeText word
    String.ofList (if isNegative v then '-' :: unsigned else unsigned)

/-- The exponent that ends a number: nothing, or the letter e, a sign or none, and digits. -/
def readExponent? : List Char → Option Int
  | [] => some 0
  | mark :: rest =>
    if mark = 'e' ∨ mark = 'E' then
      let (negative, digits) :=
        match rest with
        | '-' :: digits => (true, digits)
        | '+' :: digits => (false, digits)
        | digits => (false, digits)
      if digits ≠ [] ∧ digits.all Char.isDigit then
        let n : Int := Nat.ofDigitChars 10 digits 0
        some (if negative then -n else n)
      else none
    else none

/-- A decimal without a sign: digits with at most one point among them, at least one digit, and
an exponent or none. -/
def readDecimal? (cs : List Char) : Option Decimal :=
  let whole := cs.takeWhile Char.isDigit
  let rest := cs.dropWhile Char.isDigit
  let (fraction, ending) :=
    match rest with
    | '.' :: after => (after.takeWhile Char.isDigit, after.dropWhile Char.isDigit)
    | _ => ([], rest)
  if whole = [] ∧ fraction = [] then none
  else
    (readExponent? ending).map fun e =>
      ⟨Nat.ofDigitChars 10 (whole ++ fraction) 0, e - fraction.length⟩

/-- A magnitude: a word for infinity or for no number, whatever the case of its letters, or a
decimal. -/
def readMagnitude? (cs : List Char) : Option Nat :=
  let word := String.ofList (cs.map Char.toLower)
  if word = "inf" ∨ word = "infinity" then some infinity
  else if word = "nan" then some (infinity + fractions / 2)
  else (readDecimal? cs).map Decimal.magnitude

/-- The double that a text stands for: a sign or none, then a magnitude. -/
def read? (s : String) : Option Float :=
  match s.toList with
  | '-' :: rest => (readMagnitude? rest).map (ofMagnitude true)
  | '+' :: rest => (readMagnitude? rest).map (ofMagnitude false)
  | rest => (readMagnitude? rest).map (ofMagnitude false)

end Abacus.Number
