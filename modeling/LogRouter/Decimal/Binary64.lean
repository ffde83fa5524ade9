/-!
# Finite binary floating-point numbers

* `Binary64`: a finite number `± mantissa · 2 ^ exponent` of the 64-bit format.
* `Binary64.ofDecimal?`: the number nearest to a decimal, a half going to the even mantissa; a
  decimal past the largest number has none.
* `Binary64.ofBits?`: the number with the given 64-bit pattern, unless it is infinite or not a
  number.
* `Decimal`: a number `digits · 10 ^ exponent`.

All arithmetic is exact arithmetic of natural numbers.
-/

namespace LogRouter

/-- The number `digits · 10 ^ exponent`. -/
structure Decimal where
  digits : Nat
  exponent : Int
  deriving DecidableEq, Repr

/-- A finite number `± mantissa · 2 ^ exponent` with a mantissa below `2 ^ 53`. In the normal form
that the functions here build, the mantissa is at least `2 ^ 52` or the exponent is `-1074`. -/
structure Binary64 where
  negative : Bool
  mantissa : Nat
  exponent : Int
  deriving DecidableEq, Repr

/-- The number of decimal digits of `n`; zero has one. -/
def decimalLength (n : Nat) : Nat := (Nat.toDigits 10 n).length

/-- The quotient rounded to the nearest number, a half going to the even one. -/
def divNearestEven (num den : Nat) : Nat :=
  let quotient := num / den
  let twice := 2 * (num % den)
  if twice < den then quotient
  else if den < twice then quotient + 1
  else quotient + quotient % 2

namespace Binary64

/-- Zero with the given sign. -/
def zero (negative : Bool) : Binary64 := ⟨negative, 0, -1074⟩

/-- The smallest exponent. -/
def minExponent : Int := -1074

/-- The largest exponent of a number in normal form. -/
def maxExponent : Int := 971

/-- The quotient of `num / den` by `2 ^ exponent`, rounded. -/
def scaledNearest (num den : Nat) (exponent : Int) : Nat :=
  if 0 ≤ exponent then divNearestEven num (den * Nat.pow 2 exponent.toNat)
  else divNearestEven (num * Nat.pow 2 (-exponent).toNat) den

/-- The quotient of `num / den` by `2 ^ exponent`, rounded down. -/
def scaledFloor (num den : Nat) (exponent : Int) : Nat :=
  if 0 ≤ exponent then num / (den * Nat.pow 2 exponent.toNat)
  else num * Nat.pow 2 (-exponent).toNat / den

/-- The exponent at which the quotient has 53 bits, or the smallest one. -/
def exponentOf (num den : Nat) : Int :=
  let low := max minExponent ((num.log2 : Int) - den.log2 - 53)
  if scaledFloor num den low < Nat.pow 2 53 then low else low + 1

/-- The number nearest to the positive quotient `num / den`. -/
def ofQuotient? (negative : Bool) (num den : Nat) : Option Binary64 :=
  let exponent := exponentOf num den
  let mantissa := scaledNearest num den exponent
  let (mantissa, exponent) :=
    if mantissa < Nat.pow 2 53 then (mantissa, exponent) else (Nat.pow 2 52, exponent + 1)
  if maxExponent < exponent then none else some ⟨negative, mantissa, exponent⟩

/-- The number nearest to a decimal. The two guards cover the decimals far outside the range, where
the powers of ten would be huge. -/
def ofDecimal? (negative : Bool) (d : Decimal) : Option Binary64 :=
  let magnitude := (decimalLength d.digits : Int) + d.exponent
  if d.digits = 0 then some (zero negative)
  else if 310 < magnitude then none
  else if magnitude < -330 then some (zero negative)
  else if 0 ≤ d.exponent then ofQuotient? negative (d.digits * Nat.pow 10 d.exponent.toNat) 1
  else ofQuotient? negative d.digits (Nat.pow 10 (-d.exponent).toNat)

/-- The number with the given bit pattern: sign, eleven bits of exponent, fraction. -/
def ofBits? (bits : UInt64) : Option Binary64 :=
  let n := bits.toNat
  let negative := Nat.pow 2 63 ≤ n
  let biased := n / Nat.pow 2 52 % 2048
  let fraction := n % Nat.pow 2 52
  if biased = 2047 then none
  else if biased = 0 then some ⟨negative, fraction, minExponent⟩
  else some ⟨negative, Nat.pow 2 52 + fraction, (biased : Int) - 1075⟩

/-- The magnitude as an exact decimal. -/
def exactDecimal (x : Binary64) : Decimal :=
  if 0 ≤ x.exponent then ⟨x.mantissa * Nat.pow 2 x.exponent.toNat, 0⟩
  else ⟨x.mantissa * Nat.pow 5 (-x.exponent).toNat, x.exponent⟩

end Binary64

end LogRouter
