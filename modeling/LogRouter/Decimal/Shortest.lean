import LogRouter.Decimal.Binary64

/-!
# Shortest decimals

`Binary64.shortest` is the decimal with the fewest digits that reads back as the number; among
those of that length it is the nearest to it, and of two equally near ones the even one.

For each length only the two neighbours of the number on the grid of that many digits can be
nearest, so the search tries these for one digit, two digits and so on. The exact decimal ends the
search, so the result reads back in any case.
-/

namespace LogRouter

/-- Removes up to `fuel` trailing zeros. -/
def Decimal.stripZeros : (fuel : Nat) → Decimal → Decimal
  | 0, d => d
  | fuel + 1, d =>
    if d.digits ≠ 0 ∧ d.digits % 10 = 0 then stripZeros fuel ⟨d.digits / 10, d.exponent + 1⟩ else d

/-- The same number without trailing zeros among its digits. -/
def Decimal.normalize (d : Decimal) : Decimal := d.stripZeros (decimalLength d.digits)

namespace Binary64

/-- The decimal reads back as `x`. -/
def readsBack (x : Binary64) (d : Decimal) : Bool := ofDecimal? x.negative d == some x

/-- The best of the two neighbours of `exact` among the decimals whose last digit counts
`10 ^ cut` units of `exact`'s last digit, if one of them reads back as `x`. -/
def neighbour? (x : Binary64) (exact : Decimal) (cut : Nat) : Option Decimal :=
  let unit := Nat.pow 10 cut
  let below : Decimal := ⟨exact.digits / unit, exact.exponent + cut⟩
  let above : Decimal := ⟨exact.digits / unit + 1, exact.exponent + cut⟩
  match readsBack x below, readsBack x above with
  | true, true =>
    some (if divNearestEven exact.digits unit = below.digits then below else above)
  | true, false => some below
  | false, true => some above
  | false, false => none

/-- Tries the grids from `length` digits on, at most `fuel` of them. -/
def searchFrom (x : Binary64) (exact : Decimal) (total : Nat) : (fuel length : Nat) → Decimal
  | 0, _ => exact
  | fuel + 1, length =>
    if total ≤ length then exact
    else (neighbour? x exact (total - length)).getD (searchFrom x exact total fuel (length + 1))

/-- The shortest decimal that reads back as the magnitude of `x`. -/
def shortest (x : Binary64) : Decimal :=
  let exact := x.exactDecimal
  (searchFrom x exact (decimalLength exact.digits) 17 1).normalize

end Binary64

end LogRouter
