import LogRouter.Decimal.Binary64
import LogRouter.Json.Value
import LogRouter.Text.Hexadecimal

/-!
# Reading JSON

`Json.read?` reads one JSON value with blanks around it. Members are kept in the order of the
text, with repeated keys. A number without fraction and exponent between `-2 ^ 63` and
`2 ^ 64 - 1` is an integer and every other number the nearest finite real; `-0` is a real, since
no integer has that sign. `Json.readWith?` takes another rule for the reals.

A nested value is shorter than the text it stands in, so the length of the text bounds the
recursion.
-/

namespace LogRouter

namespace Json

/-- The four blanks of JSON. -/
def isSpace (c : Char) : Bool := c == ' ' || c == '\n' || c == '\r' || c == '\t'

/-- Drops leading blanks. -/
def skipSpace (s : List Char) : List Char := s.dropWhile isSpace

/-- The character of an escape with one letter. -/
def shortEscape? (c : Char) : Option Char :=
  match c with
  | '"' => some '"'
  | '\\' => some '\\'
  | '/' => some '/'
  | 'b' => some '\x08'
  | 'f' => some '\x0c'
  | 'n' => some '\n'
  | 'r' => some '\r'
  | 't' => some '\t'
  | _ => none

/-- The character of a number that is no surrogate half. -/
def scalar? (n : Nat) : Option Char := if n.isValidChar then some (Char.ofNat n) else none

/-- Reads the inside of a string up to the closing quote; `acc` holds what was read, reversed. -/
def readString? (acc : List Char) : List Char → Option (List Char × List Char)
  | [] => none
  | '"' :: rest => some (acc.reverse, rest)
  | '\\' :: 'u' :: a :: b :: c :: d :: rest =>
    match Text.hexNumber? [a, b, c, d] with
    | none => none
    | some high =>
      if 0xD800 ≤ high ∧ high < 0xDC00 then
        match rest with
        | '\\' :: 'u' :: e :: f :: g :: h :: rest' =>
          match Text.hexNumber? [e, f, g, h] with
          | some low =>
            if 0xDC00 ≤ low ∧ low < 0xE000 then
              readString?
                (Char.ofNat (0x10000 + (high - 0xD800) * 0x400 + (low - 0xDC00)) :: acc) rest'
            else none
          | none => none
        | _ => none
      else
        match scalar? high with
        | some ch => readString? (ch :: acc) rest
        | none => none
  | '\\' :: c :: rest =>
    match shortEscape? c with
    | some ch => readString? (ch :: acc) rest
    | none => none
  | c :: rest => if c.toNat < 32 || c == '\\' then none else readString? (c :: acc) rest

/-- The value of a string of digits, behind the value `acc`. -/
def digitsValue (acc : Nat) (digits : List Char) : Nat :=
  digits.foldl (fun n c => n * 10 + (c.toNat - 48)) acc

/-- Reads the sign and the digits of an exponent. -/
def readExponent? (s : List Char) : Option (Int × List Char) :=
  let (negative, s) := match s with
    | '-' :: rest => (true, rest)
    | '+' :: rest => (false, rest)
    | _ => (false, s)
  let digits := s.takeWhile Char.isDigit
  if digits.isEmpty then none
  else
    let n := digitsValue 0 digits
    some (if negative then -n else n, s.dropWhile Char.isDigit)

/-- Reads the sign of a number. -/
def readSign : List Char → Bool × List Char
  | '-' :: rest => (true, rest)
  | s => (false, s)

/-- Reads the digits in front of the point. A zero stands in front of no other digit. -/
def readWhole? (s : List Char) : Option (List Char × List Char) :=
  let digits := s.takeWhile Char.isDigit
  if digits.isEmpty || (digits.head? == some '0' && 1 < digits.length) then none
  else some (digits, s.dropWhile Char.isDigit)

/-- Reads a point and the digits behind it; without a point there are none. -/
def readFraction? : List Char → Option (List Char × List Char)
  | '.' :: rest =>
    let digits := rest.takeWhile Char.isDigit
    if digits.isEmpty then none else some (digits, rest.dropWhile Char.isDigit)
  | s => some ([], s)

/-- Reads an exponent, if there is one. -/
def readScale? : List Char → Option (Option Int × List Char)
  | 'e' :: rest | 'E' :: rest => (readExponent? rest).map fun (n, rest) => (some n, rest)
  | s => some (none, s)

/-- The number with the given parts, where `real?` is the rule for those that are no integers. -/
def numberOf? (real? : Bool → Decimal → Option Binary64) (negative : Bool)
    (whole fraction : List Char) (exponent? : Option Int) : Option Number :=
  let digits := digitsValue (digitsValue 0 whole) fraction
  let value : Int := if negative then -digits else digits
  if fraction.isEmpty && exponent?.isNone && !(negative && digits == 0) &&
      decide (-9223372036854775808 ≤ value ∧ value ≤ 18446744073709551615) then
    some (.integer value)
  else (real? negative ⟨digits, exponent?.getD 0 - fraction.length⟩).map .real

/-- Reads a number with the rule `real?` for those that are no integers. -/
def readNumber? (real? : Bool → Decimal → Option Binary64) (s : List Char) :
    Option (Number × List Char) :=
  let (negative, s) := readSign s
  match readWhole? s with
  | none => none
  | some (whole, s) =>
    match readFraction? s with
    | none => none
    | some (fraction, s) =>
      match readScale? s with
      | none => none
      | some (exponent?, s) =>
        (numberOf? real? negative whole fraction exponent?).map fun n => (n, s)

mutual

/-- Reads one value. -/
def readValue? (real? : Bool → Decimal → Option Binary64) :
    (fuel : Nat) → List Char → Option (Json × List Char)
  | 0, _ => none
  | fuel + 1, s =>
    match skipSpace s with
    | 'n' :: 'u' :: 'l' :: 'l' :: rest => some (.null, rest)
    | 't' :: 'r' :: 'u' :: 'e' :: rest => some (.bool true, rest)
    | 'f' :: 'a' :: 'l' :: 's' :: 'e' :: rest => some (.bool false, rest)
    | '"' :: rest => (readString? [] rest).map fun (cs, rest) => (.string (String.ofList cs), rest)
    | '[' :: rest =>
      match skipSpace rest with
      | ']' :: rest => some (.array [], rest)
      | rest => (readItems? real? fuel [] rest).map fun (items, rest) => (.array items, rest)
    | '\x7b' :: rest =>
      match skipSpace rest with
      | '\x7d' :: rest => some (.object [], rest)
      | rest => (readMembers? real? fuel [] rest).map fun (members, rest) => (.object members, rest)
    | rest => (readNumber? real? rest).map fun (n, rest) => (.number n, rest)

/-- Reads the items of an array up to its closing bracket, behind the reversed `acc`. -/
def readItems? (real? : Bool → Decimal → Option Binary64) :
    (fuel : Nat) → List Json → List Char → Option (List Json × List Char)
  | 0, _, _ => none
  | fuel + 1, acc, s =>
    match readValue? real? fuel s with
    | none => none
    | some (v, rest) =>
      match skipSpace rest with
      | ',' :: rest => readItems? real? fuel (v :: acc) rest
      | ']' :: rest => some ((v :: acc).reverse, rest)
      | _ => none

/-- Reads the members of an object up to its closing brace, behind the reversed `acc`. -/
def readMembers? (real? : Bool → Decimal → Option Binary64) :
    (fuel : Nat) → Members → List Char → Option (Members × List Char)
  | 0, _, _ => none
  | fuel + 1, acc, s =>
    match skipSpace s with
    | '"' :: rest =>
      match readString? [] rest with
      | none => none
      | some (key, rest) =>
        match skipSpace rest with
        | ':' :: rest =>
          match readValue? real? fuel rest with
          | none => none
          | some (v, rest) =>
            let acc := (String.ofList key, v) :: acc
            match skipSpace rest with
            | ',' :: rest => readMembers? real? fuel acc rest
            | '\x7d' :: rest => some (acc.reverse, rest)
            | _ => none
        | _ => none
    | _ => none

end

/-- Reads a text that is one value with blanks around it, with the rule `real?` for the reals. -/
def readWith? (real? : Bool → Decimal → Option Binary64) (s : List Char) : Option Json :=
  match readValue? real? (s.length + 1) s with
  | some (v, rest) => if (skipSpace rest).isEmpty then some v else none
  | none => none

/-- Reads a text that is one value with blanks around it. -/
def read? (s : List Char) : Option Json := readWith? Binary64.ofDecimal? s

end Json

end LogRouter
