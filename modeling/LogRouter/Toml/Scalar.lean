import LogRouter.Text.Blank
import LogRouter.Text.Hexadecimal
import LogRouter.Toml.Value

/-!
# TOML scalars

Readers for keys, strings, numbers, dates and times. Each takes a text whose lines end in `\n` and
returns what it read with the rest of the text, or nothing if the text starts with no such thing.

Nothing of what a reader leaves unread can follow a value, so a value that breaks off, such as `1_`
or `07:32`, is refused by what comes after it.
-/

namespace LogRouter.Toml

/-- What a reader returns: a value and the rest of the text. -/
abbrev Read (α : Type) : Type := Option (α × List Char)

/-- The blanks within a line. -/
def isSpace (c : Char) : Bool := c == ' ' || c == '\t'

/-- Drops the blanks at the start of a line. -/
def skipSpace (s : List Char) : List Char := s.dropWhile isSpace

/-- The character may stand in a comment. -/
def isCommentChar (c : Char) : Bool := c == '\t' || (32 ≤ c.toNat && c.toNat != 127)

/-! ## Strings -/

/-- The character of an escape with one letter. -/
def shortEscape? (c : Char) : Option Char :=
  match c with
  | 'b' => some '\x08'
  | 't' => some '\t'
  | 'n' => some '\n'
  | 'f' => some '\x0c'
  | 'r' => some '\r'
  | '"' => some '"'
  | '\\' => some '\\'
  | _ => none

/-- Reads the escape behind a backslash. -/
def readEscape? : List Char → Read Char
  | 'u' :: a :: b :: c :: d :: rest => (Text.hexChar? [a, b, c, d]).map fun ch => (ch, rest)
  | 'U' :: a :: b :: c :: d :: e :: f :: g :: h :: rest =>
    (Text.hexChar? [a, b, c, d, e, f, g, h]).map fun ch => (ch, rest)
  | c :: rest => (shortEscape? c).map fun ch => (ch, rest)
  | [] => none

/-- Reads the inside of a string on one line up to its quote, behind the reversed `acc`; `fuel`
bounds the number of characters. -/
def readBasic? (acc : List Char) : (fuel : Nat) → List Char → Read (List Char)
  | 0, _ => none
  | _, [] => none
  | fuel + 1, c :: rest =>
    if c = '"' then some (acc.reverse, rest)
    else if c = '\\' then
      match readEscape? rest with
      | some (ch, rest) => readBasic? (ch :: acc) fuel rest
      | none => none
    else if isCommentChar c then readBasic? (c :: acc) fuel rest
    else none

/-- The blanks and line ends that a backslash at the end of a line takes away. -/
def isLineBlank (c : Char) : Bool := isSpace c || c == '\n'

/-- Reads the inside of a string over several lines up to its three quotes, in front of which two
more belong to the string. -/
def readMultiBasic? (acc : List Char) : (fuel : Nat) → List Char → Read (List Char)
  | 0, _ => none
  | fuel + 1, s =>
    match s with
    | '"' :: '"' :: '"' :: '"' :: '"' :: rest => some (('"' :: '"' :: acc).reverse, rest)
    | '"' :: '"' :: '"' :: '"' :: rest => some (('"' :: acc).reverse, rest)
    | '"' :: '"' :: '"' :: rest => some (acc.reverse, rest)
    | '\\' :: rest =>
      match skipSpace rest with
      | '\n' :: more => readMultiBasic? acc fuel (more.dropWhile isLineBlank)
      | _ =>
        match readEscape? rest with
        | some (ch, rest) => readMultiBasic? (ch :: acc) fuel rest
        | none => none
    | c :: rest =>
      if c = '\n' ∨ isCommentChar c then readMultiBasic? (c :: acc) fuel rest else none
    | [] => none

/-- Reads the inside of a literal string over several lines up to its three quotes, in front of
which two more belong to the string. -/
def readMultiLiteral? (acc : List Char) : List Char → Read (List Char)
  | '\'' :: '\'' :: '\'' :: '\'' :: '\'' :: rest => some (('\'' :: '\'' :: acc).reverse, rest)
  | '\'' :: '\'' :: '\'' :: '\'' :: rest => some (('\'' :: acc).reverse, rest)
  | '\'' :: '\'' :: '\'' :: rest => some (acc.reverse, rest)
  | c :: rest => if c = '\n' ∨ isCommentChar c then readMultiLiteral? (c :: acc) rest else none
  | [] => none

/-- Drops the line end at the start of a string over several lines. -/
def skipFirstLineEnd : List Char → List Char
  | '\n' :: rest => rest
  | s => s

/-- Reads a literal string on one line, behind its quote. -/
def readLiteral? (s : List Char) : Read (List Char) :=
  match s.dropWhile fun c => isCommentChar c && c != '\'' with
  | '\'' :: rest => some (s.takeWhile fun c => isCommentChar c && c != '\'', rest)
  | _ => none

/-- Reads a string of any of the four kinds. -/
def readString? (s : List Char) : Read (List Char) :=
  match s with
  | '"' :: '"' :: '"' :: rest => readMultiBasic? [] (rest.length + 1) (skipFirstLineEnd rest)
  | '"' :: rest => readBasic? [] (rest.length + 1) rest
  | '\'' :: '\'' :: '\'' :: rest => readMultiLiteral? [] (skipFirstLineEnd rest)
  | '\'' :: rest => readLiteral? rest
  | _ => none

/-! ## Keys -/

/-- The character may stand in a bare key. -/
def isBareKeyChar (c : Char) : Bool := c.isAlphanum || c == '_' || c == '-'

/-- Reads a key without dots. -/
def readSimpleKey? (s : List Char) : Read String :=
  match s with
  | '"' :: rest => (readBasic? [] (rest.length + 1) rest).map fun (k, rest) => (String.ofList k, rest)
  | '\'' :: rest => (readLiteral? rest).map fun (k, rest) => (String.ofList k, rest)
  | _ =>
    let key := s.takeWhile isBareKeyChar
    if key.isEmpty then none else some (String.ofList key, s.dropWhile isBareKeyChar)

/-- Reads the parts of a key with dots, with blanks around them; `fuel` bounds their number. -/
def readKeyParts? : (fuel : Nat) → List Char → Read (List String)
  | 0, _ => none
  | fuel + 1, s =>
    match readSimpleKey? (skipSpace s) with
    | none => none
    | some (part, rest) =>
      match skipSpace rest with
      | '.' :: rest => (readKeyParts? fuel rest).map fun (parts, rest) => (part :: parts, rest)
      | rest => some ([part], rest)

/-- The number of parts of a key and of nested values that is too large. -/
def depthLimit : Nat := 80

/-- Reads a key. -/
def readKey? (s : List Char) : Read (List String) :=
  match readKeyParts? (s.length + 1) s with
  | some (parts, rest) => if parts.length < depthLimit then some (parts, rest) else none
  | none => none

/-! ## Numbers -/

/-- Reads digits, between which single underscores may stand. -/
def readDigits (isDigit : Char → Bool) : List Char → List Char × List Char
  | '_' :: d :: rest =>
    if isDigit d then
      let (digits, rest) := readDigits isDigit rest
      (d :: digits, rest)
    else ([], '_' :: d :: rest)
  | c :: rest =>
    if isDigit c then
      let (digits, rest) := readDigits isDigit rest
      (c :: digits, rest)
    else ([], c :: rest)
  | [] => ([], [])

/-- Reads digits of which the first is no underscore. -/
def readRun? (isDigit : Char → Bool) (s : List Char) : Read (List Char) :=
  match s with
  | c :: _ => if isDigit c then some (readDigits isDigit s) else none
  | [] => none

/-- Reads the digits of a whole number; a zero stands alone. -/
def readWhole? (s : List Char) : Read (List Char) :=
  match s with
  | '0' :: rest => some (['0'], rest)
  | _ => readRun? Char.isDigit s

/-- Reads a sign, which tells whether the number is negative. -/
def readSign (s : List Char) : Bool × List Char :=
  match s with
  | '-' :: rest => (true, rest)
  | '+' :: rest => (false, rest)
  | _ => (false, s)

/-- The number of digits to a base. -/
def digitsValue (base : Nat) (digits : List Char) : Nat :=
  digits.foldl (fun n c => n * base + (Text.hexValue? c).getD 0) 0

/-- The integer if it has at most 64 bits with its sign. -/
def integer? (negative : Bool) (magnitude : Nat) : Option Value :=
  if negative then
    if magnitude ≤ 9223372036854775808 then some (.integer (-magnitude)) else none
  else if magnitude ≤ 9223372036854775807 then some (.integer magnitude) else none

/-- Reads an integer to the given base behind its mark. -/
def readBased? (base : Nat) (s : List Char) : Option (Value × List Char) := do
  let (digits, rest) ← readRun? (fun c => match Text.hexValue? c with
    | some v => v < base
    | none => false) s
  let value ← integer? false (digitsValue base digits)
  return (value, rest)

/-- Reads an integer. -/
def readInteger? (s : List Char) : Option (Value × List Char) :=
  match s with
  | '0' :: 'x' :: rest => readBased? 16 rest
  | '0' :: 'o' :: rest => readBased? 8 rest
  | '0' :: 'b' :: rest => readBased? 2 rest
  | _ => do
    let (negative, rest) := readSign s
    let (digits, rest) ← readWhole? rest
    let value ← integer? negative (digitsValue 10 digits)
    return (value, rest)

/-- Reads an exponent behind its mark. -/
def readExponent? (s : List Char) : Option (Int × List Char) := do
  let (negative, rest) := readSign s
  let (digits, rest) ← readRun? Char.isDigit rest
  let n := digitsValue 10 digits
  return (if negative then -n else n, rest)

/-- Reads the fraction of a number, which may be missing. -/
def readFraction? (s : List Char) : Read (List Char) :=
  match s with
  | '.' :: rest => readRun? Char.isDigit rest
  | _ => some ([], s)

/-- The real number of a decimal. One that is too large is refused if it is positive. -/
def real? (negative : Bool) (d : Decimal) : Option Value :=
  match Binary64.ofDecimal? negative d with
  | some x => some (.real (some x))
  | none => if negative then some (.real none) else none

/-- Reads a number with a fraction or an exponent, an infinity, or what is no number. -/
def readReal? (s : List Char) : Option (Value × List Char) := do
  let (negative, rest) := readSign s
  match rest with
  | 'i' :: 'n' :: 'f' :: rest => some (.real none, rest)
  | 'n' :: 'a' :: 'n' :: rest => some (.real none, rest)
  | _ =>
    let (whole, rest) ← readWhole? rest
    let (fraction, rest) ← readFraction? rest
    let (exponent, rest, scaled) ← match rest with
      | 'e' :: rest | 'E' :: rest => (readExponent? rest).map fun (n, rest) => (n, rest, true)
      | _ => some (0, rest, false)
    if fraction.isEmpty && !scaled then none
    let value ← real? negative ⟨digitsValue 10 (whole ++ fraction), exponent - fraction.length⟩
    return (value, rest)

/-! ## Dates and times -/

/-- Reads a number of exactly so many digits. -/
def readFixed? (count : Nat) (s : List Char) : Read Nat :=
  let digits := s.take count
  if digits.length = count ∧ digits.all Char.isDigit then
    some (digitsValue 10 digits, s.drop count)
  else none

/-- Reads a given character. -/
def readMark? (mark : Char) : List Char → Option (List Char)
  | c :: rest => if c = mark then some rest else none
  | [] => none

/-- The number of days of a month. -/
def monthLength (year month : Nat) : Nat :=
  if month = 2 then
    if year % 4 = 0 ∧ (year % 100 ≠ 0 ∨ year % 400 = 0) then 29 else 28
  else if month ∈ [4, 6, 9, 11] then 30
  else 31

/-- Reads a date that exists. -/
def readDate? (s : List Char) : Option (List Char) := do
  let (year, s) ← readFixed? 4 s
  let s ← readMark? '-' s
  let (month, s) ← readFixed? 2 s
  let s ← readMark? '-' s
  let (day, s) ← readFixed? 2 s
  if 1 ≤ month ∧ month ≤ 12 ∧ 1 ≤ day ∧ day ≤ monthLength year month then some s else none

/-- Reads the places behind the point of a second, which may be missing. -/
def skipPlaces (s : List Char) : List Char :=
  match s with
  | '.' :: d :: rest => if d.isDigit then rest.dropWhile Char.isDigit else s
  | _ => s

/-- Reads a time of day. -/
def readTime? (s : List Char) : Option (List Char) := do
  let (hour, s) ← readFixed? 2 s
  let s ← readMark? ':' s
  let (minute, s) ← readFixed? 2 s
  let s ← readMark? ':' s
  let (second, s) ← readFixed? 2 s
  if hour ≤ 23 ∧ minute ≤ 59 ∧ second ≤ 60 then some (skipPlaces s) else none

/-- Reads the offset of a time. -/
def readOffset? (s : List Char) : Option (List Char) :=
  match s with
  | 'Z' :: rest | 'z' :: rest => some rest
  | c :: rest =>
    if c = '+' ∨ c = '-' then do
      let (hour, s) ← readFixed? 2 rest
      let s ← readMark? ':' s
      let (minute, s) ← readFixed? 2 s
      if hour ≤ 23 ∧ minute ≤ 59 then some s else none
    else none
  | [] => none

/-- What follows a date: a time with or without an offset, or nothing. -/
def skipTimeOfDate (s : List Char) : List Char :=
  match s with
  | c :: rest =>
    if c = 'T' ∨ c = 't' ∨ c = ' ' then
      match readTime? rest with
      | some rest => (readOffset? rest).getD rest
      | none => s
    else s
  | [] => []

/-- Reads a date, a time or both. -/
def readDateTime? (s : List Char) : Read Value :=
  let rest? := match readDate? s with
    | some rest => some (skipTimeOfDate rest)
    | none => readTime? s
  rest?.map fun rest => (.dateTime (String.ofList (s.take (s.length - rest.length))), rest)

/-- Reads a scalar. -/
def readScalar? (s : List Char) : Read Value :=
  match s with
  | '"' :: _ | '\'' :: _ => (readString? s).map fun (cs, rest) => (.string (String.ofList cs), rest)
  | 't' :: 'r' :: 'u' :: 'e' :: rest => some (.boolean true, rest)
  | 'f' :: 'a' :: 'l' :: 's' :: 'e' :: rest => some (.boolean false, rest)
  | _ =>
    match readDateTime? s with
    | some read => some read
    | none =>
      match readReal? s with
      | some read => some read
      | none => readInteger? s

end LogRouter.Toml
