/-!
# Hexadecimal digits

* `hexDigit`: the lower-case digit of a number below sixteen.
* `hexValue?`: the number of a digit, in either case.
* `hexNumber?`, `hexChar?`: the number of some digits, and the character with that number.
-/

namespace LogRouter.Text

/-- The lower-case hexadecimal digit of `n`, for `n` below sixteen. -/
def hexDigit (n : Nat) : Char := if n < 10 then Char.ofNat (48 + n) else Char.ofNat (87 + n)

/-- The value of a hexadecimal digit. -/
def hexValue? (c : Char) : Option Nat :=
  if '0' ≤ c && c ≤ '9' then some (c.toNat - 48)
  else if 'a' ≤ c && c ≤ 'f' then some (c.toNat - 87)
  else if 'A' ≤ c && c ≤ 'F' then some (c.toNat - 55)
  else none

/-- The number of the given hexadecimal digits. -/
def hexNumber? (digits : List Char) : Option Nat :=
  (digits.mapM hexValue?).map fun values => values.foldl (fun n v => n * 16 + v) 0

/-- The character with the number of the given hexadecimal digits. -/
def hexChar? (digits : List Char) : Option Char :=
  (hexNumber? digits).bind fun n => if n.isValidChar then some (Char.ofNat n) else none

end LogRouter.Text
