import LogRouter.Decimal.Shortest
import LogRouter.Json.Value
import LogRouter.Text.Quoted

/-!
# Printing JSON

`Json.render` prints a value on one line without blanks. A real number has its shortest decimal:
positional from `1e-5` up to below `1e16`, always with a fraction, and outside of that range with
one digit before the point and an exponent with its sign.
-/

namespace LogRouter

namespace Json

/-- The decimal digits of a natural number. -/
def digitsOf (n : Nat) : List Char := Nat.toDigits 10 n

/-- The decimal text of an integer. -/
def integerText (n : Int) : List Char :=
  if n < 0 then '-' :: digitsOf n.natAbs else digitsOf n.natAbs

/-- The smallest and the largest exponent of ten of the leading digit that are written
positionally. -/
def positionalRange : Int × Int := (-5, 15)

/-- Digits with a point behind the first one, unless it stands alone. -/
def pointed : List Char → List Char
  | c :: next :: rest => c :: '.' :: next :: rest
  | digits => digits

/-- The text of a positive decimal. -/
def decimalText (d : Decimal) : List Char :=
  let digits := digitsOf d.digits
  let lead : Int := d.exponent + digits.length - 1
  if lead < positionalRange.1 ∨ positionalRange.2 < lead then
    let mark := if lead < 0 then ['e', '-'] else ['e', '+']
    pointed digits ++ mark ++ digitsOf lead.natAbs
  else if lead < 0 then
    '0' :: '.' :: (List.replicate (lead.natAbs - 1) '0' ++ digits)
  else
    let whole := lead.toNat + 1
    if digits.length ≤ whole then
      digits ++ List.replicate (whole - digits.length) '0' ++ ['.', '0']
    else digits.take whole ++ '.' :: digits.drop whole

/-- The text of a finite real. -/
def realText (x : Binary64) : List Char :=
  let magnitude := if x.mantissa = 0 then ['0', '.', '0'] else decimalText x.shortest
  if x.negative then '-' :: magnitude else magnitude

/-- The text of a number. -/
def Number.render : Number → List Char
  | .integer n => integerText n
  | .real x => realText x

/-- The text of a key or a string. -/
def quote (s : String) : List Char := Text.Quoted.encode s.toList

mutual

/-- The text of a value. -/
def render : Json → List Char
  | .null => ['n', 'u', 'l', 'l']
  | .bool true => ['t', 'r', 'u', 'e']
  | .bool false => ['f', 'a', 'l', 's', 'e']
  | .number n => n.render
  | .string s => quote s
  | .array items => '[' :: (renderItems items ++ [']'])
  | .object members => '\x7b' :: (renderMembers members ++ ['\x7d'])

/-- The texts of the items, with commas between them. -/
def renderItems : List Json → List Char
  | [] => []
  | [v] => render v
  | v :: w :: rest => render v ++ ',' :: renderItems (w :: rest)

/-- The members, with commas between them. -/
def renderMembers : Members → List Char
  | [] => []
  | [(k, v)] => quote k ++ ':' :: render v
  | (k, v) :: m :: rest => quote k ++ ':' :: (render v ++ ',' :: renderMembers (m :: rest))

end

/-- The text of a value, as a string. -/
def text (v : Json) : String := String.ofList (render v)

end Json

end LogRouter
