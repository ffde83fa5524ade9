import LogRouter.Label.Render

/-!
# Reading labels

`readItems?` reads a text by the items of a pattern and `readsAs` says whether the whole text can
be read. What is read has to be in range for each field, and two fields that say something about
the same thing have to agree; whether the date exists is not asked.

* `Reading`: what the fields read so far have said.
* Numbers may have blanks in front of them and any padding up to the width of the field; only a
  year with a sign has no limit.
* Blanks in the pattern match any number of blanks, none included.
* Names of months and days are read in any case.
-/

namespace LogRouter

/-- What a text has said about a moment. The hour is kept as its half of the day and its hour
in it, so that all spellings of an hour say something about the same things. -/
structure Reading where
  year : Option Int
  century : Option Int
  yearOfCentury : Option Int
  isoYear : Option Int
  isoYearOfCentury : Option Int
  quarter : Option Int
  month : Option Int
  weekFromSunday : Option Int
  weekFromMonday : Option Int
  isoWeek : Option Int
  weekday : Option Int
  ordinal : Option Int
  day : Option Int
  half : Option Int
  hourOfHalf : Option Int
  minute : Option Int
  second : Option Int
  nanosecond : Option Int
  timestamp : Option Int
  offset : Option Int
  deriving DecidableEq, Repr

namespace Reading

/-- Nothing was said. -/
def empty : Reading :=
  ⟨none, none, none, none, none, none, none, none, none, none, none, none, none, none, none, none,
    none, none, none, none⟩

/-- Adds a value from `lo` to `hi` to what was said, unless something else was said. -/
def agree? (old : Option Int) (lo hi value : Int) : Option (Option Int) :=
  if lo ≤ value ∧ value ≤ hi then
    match old with
    | none => some (some value)
    | some said => if said = value then some (some value) else none
  else none

/-- The years that a reading can hold. -/
def yearRange : Int × Int := (-2147483648, 2147483647)

/-- The largest number that a field can hold. -/
def maxNumber : Nat := 9223372036854775807

/-- Adds the half of the day. -/
def sayHalf? (r : Reading) (value : Int) : Option Reading :=
  (agree? r.half 0 1 value).map fun x => { r with half := x }

/-- Adds the hour within the half of the day. -/
def sayHourOfHalf? (r : Reading) (value : Int) : Option Reading :=
  (agree? r.hourOfHalf 0 11 value).map fun x => { r with hourOfHalf := x }

/-- Adds the month. -/
def sayMonth? (r : Reading) (value : Int) : Option Reading :=
  (agree? r.month 1 12 value).map fun x => { r with month := x }

/-- Adds the day of the week, Monday being zero. -/
def sayWeekday? (r : Reading) (value : Int) : Option Reading :=
  (agree? r.weekday 0 6 value).map fun x => { r with weekday := x }

/-- Adds the nanoseconds. -/
def sayNanosecond? (r : Reading) (value : Int) : Option Reading :=
  (agree? r.nanosecond 0 999999999 value).map fun x => { r with nanosecond := x }

/-- Adds the offset. -/
def sayOffset? (r : Reading) (value : Int) : Option Reading :=
  (agree? r.offset yearRange.1 yearRange.2 value).map fun x => { r with offset := x }

/-- Adds the value of a numeric field. -/
def say? (r : Reading) (value : Int) : NumericField → Option Reading
  | .year => (agree? r.year yearRange.1 yearRange.2 value).map fun x => { r with year := x }
  | .century => (agree? r.century 0 yearRange.2 value).map fun x => { r with century := x }
  | .yearOfCentury =>
    (agree? r.yearOfCentury 0 99 value).map fun x => { r with yearOfCentury := x }
  | .isoYear =>
    (agree? r.isoYear yearRange.1 yearRange.2 value).map fun x => { r with isoYear := x }
  | .isoYearOfCentury =>
    (agree? r.isoYearOfCentury 0 99 value).map fun x => { r with isoYearOfCentury := x }
  | .quarter => (agree? r.quarter 1 4 value).map fun x => { r with quarter := x }
  | .month => r.sayMonth? value
  | .day => (agree? r.day 1 31 value).map fun x => { r with day := x }
  | .weekFromSunday =>
    (agree? r.weekFromSunday 0 53 value).map fun x => { r with weekFromSunday := x }
  | .weekFromMonday =>
    (agree? r.weekFromMonday 0 53 value).map fun x => { r with weekFromMonday := x }
  | .isoWeek => (agree? r.isoWeek 1 53 value).map fun x => { r with isoWeek := x }
  | .weekdayFromSunday =>
    if 0 ≤ value ∧ value ≤ 6 then r.sayWeekday? ((value + 6) % 7) else none
  | .weekdayFromMonday => r.sayWeekday? (value - 1)
  | .ordinal => (agree? r.ordinal 1 366 value).map fun x => { r with ordinal := x }
  | .hour =>
    if 0 ≤ value ∧ value ≤ 23 then
      (r.sayHalf? (value / 12)).bind fun r => r.sayHourOfHalf? (value % 12)
    else none
  | .hour12 => if 1 ≤ value ∧ value ≤ 12 then r.sayHourOfHalf? (value % 12) else none
  | .minute => (agree? r.minute 0 59 value).map fun x => { r with minute := x }
  | .second => (agree? r.second 0 60 value).map fun x => { r with second := x }
  | .nanosecond => r.sayNanosecond? value
  | .timestamp =>
    (agree? r.timestamp (-9223372036854775808) maxNumber value).map fun x =>
      { r with timestamp := x }

end Reading

/-- The largest number of digits of a numeric field, if there is one. -/
def NumericField.width? : NumericField → Option Nat
  | year | isoYear => some 4
  | quarter | weekdayFromSunday | weekdayFromMonday => some 1
  | ordinal => some 3
  | nanosecond => some 9
  | timestamp => none
  | century | yearOfCentury | isoYearOfCentury | month | day | weekFromSunday | weekFromMonday
  | isoWeek | hour | hour12 | minute | second => some 2

/-- The field may have a sign, which also lifts the limit on its digits. -/
def NumericField.signed : NumericField → Bool
  | year | isoYear => true
  | _ => false

/-- Reads at least one and at most `width?` digits. -/
def readDigits? (width? : Option Nat) (s : List Char) : Option (Nat × List Char) :=
  let digits : List Char := match width? with
    | none => s.takeWhile Char.isDigit
    | some width => (s.take width).takeWhile Char.isDigit
  let value := digits.foldl (fun n c => n * 10 + (c.toNat - 48)) 0
  if digits.isEmpty ∨ Reading.maxNumber < value then none else some (value, s.drop digits.length)

/-- Reads the number of a numeric field. -/
def NumericField.read? (field : NumericField) (s : List Char) : Option (Int × List Char) :=
  match field.signed, Text.trimStart s with
  | true, '-' :: rest => (readDigits? none rest).map fun (n, rest) => (-n, rest)
  | true, '+' :: rest => (readDigits? none rest).map fun (n, rest) => (n, rest)
  | _, rest => (readDigits? field.width? rest).map fun (n, rest) => (n, rest)

/-- What follows a word at the start of a text, read in any case. -/
def afterWord? : (word : List Char) → List Char → Option (List Char)
  | [], s => some s
  | _ :: _, [] => none
  | w :: word, c :: s => if w.toLower = c.toLower then afterWord? word s else none

/-- Reads the short name of one of `names`, and the rest of its long name if `long` allows it and
it is there; `n` is the number of the first of them. -/
def readName? (long : Bool) (s : List Char) (n : Nat) : (names : List String) →
    Option (Nat × List Char)
  | [] => none
  | name :: names =>
    match afterWord? (name.toList.take 3) s with
    | none => readName? long s (n + 1) names
    | some rest =>
      if long then some (n, (afterWord? (name.toList.drop 3) rest).getD rest) else some (n, rest)

/-- Reads `places` digits as nanoseconds. -/
def readPlaces? (places : Nat) (s : List Char) : Option (Nat × List Char) :=
  match readDigits? (some places) s with
  | some (n, rest) =>
    if s.length - rest.length = places then some (n * Nat.pow 10 (9 - places), rest) else none
  | none => none

/-- Reads any number of digits as the places behind the point, of which nine count. -/
def readFraction? (s : List Char) : Option (Nat × List Char) :=
  match readDigits? (some 9) s with
  | some (n, rest) =>
    some (n * Nat.pow 10 (9 - (s.length - rest.length)), rest.dropWhile Char.isDigit)
  | none => none

/-- Reads the places behind the point. -/
def Precision.read? (s : List Char) : Precision → Option (Nat × List Char)
  | asNeeded => readFraction? s
  | milli => readPlaces? 3 s
  | micro => readPlaces? 6 s
  | nano => readPlaces? 9 s

/-- The value of two digits, if these are digits. -/
def twoDigits? (a b : Char) : Option Nat :=
  if a.isDigit ∧ b.isDigit then some ((a.toNat - 48) * 10 + (b.toNat - 48)) else none

/-- Reads the minutes of an offset: two digits, or nothing at the end of the text if `optional`
allows it. -/
def readMinutes? (optional : Bool) (s : List Char) : Option (Nat × List Char) :=
  match s with
  | [] => if optional then some (0, []) else none
  | [_] => none
  | a :: b :: rest => (twoDigits? a b).bind fun n => if n < 60 then some (n, rest) else none

/-- Reads an offset; with `zulu` also a `Z`. Blanks and colons may follow the hours. -/
def readOffset? (zulu optionalMinutes : Bool) (s : List Char) : Option (Int × List Char) :=
  match s with
  | [] => none
  | c :: rest =>
    if zulu ∧ (c = 'Z' ∨ c = 'z') then some (0, rest)
    else
      let sign? : Option Int :=
        if c = '+' then some 1 else if c = '-' ∨ c = '\u2212' then some (-1) else none
      match sign?, rest with
      | some sign, a :: b :: rest =>
        match twoDigits? a b with
        | none => none
        | some hours =>
          (readMinutes? optionalMinutes (rest.dropWhile fun c => c == ':' || Text.isBlank c)).map
            fun (minutes, rest) => (sign * (hours * 3600 + minutes * 60), rest)
      | _, _ => none

/-- Reads a numeric field. -/
def readNumeric? (r : Reading) (s : List Char) (field : NumericField) :
    Option (Reading × List Char) := do
  let (value, rest) ← field.read? s
  let r ← r.say? value field
  return (r, rest)

/-- Reads a literal character behind blanks. -/
def readMark? (mark : Char) (s : List Char) : Option (List Char) :=
  match Text.trimStart s with
  | c :: rest => if c = mark then some rest else none
  | [] => none

/-- Reads a point and the places behind it, if there is a point. -/
def readPointed? (r : Reading) (s : List Char) (precision : Precision) :
    Option (Reading × List Char) :=
  match s with
  | '.' :: rest => do
    let (nanos, rest) ← precision.read? rest
    let r ← r.sayNanosecond? nanos
    return (r, rest)
  | _ => some (r, s)

/-- Reads date, time and offset in one, with `UTC` for no offset. Blanks may stand in front of
the marks, and a space may stand for the `T`. -/
def readFull? (r : Reading) (s : List Char) : Option (Reading × List Char) := do
  let (r, s) ← readNumeric? r s .year
  let s ← readMark? '-' s
  let (r, s) ← readNumeric? r s .month
  let s ← readMark? '-' s
  let (r, s) ← readNumeric? r s .day
  let s ← match s with
    | c :: rest => if c = 'T' ∨ c = 't' ∨ c = ' ' then some rest else none
    | [] => none
  let (r, s) ← readNumeric? r s .hour
  let s ← readMark? ':' s
  let (r, s) ← readNumeric? r s .minute
  let s ← readMark? ':' s
  let (r, s) ← readNumeric? r s .second
  let (r, s) ← readPointed? r s .asNeeded
  let s := Text.trimStart s
  let (offset, s) ← match afterWord? ['u', 't', 'c'] s with
    | some rest => some (0, rest)
    | none => readOffset? true false s
  let r ← r.sayOffset? offset
  return (r, s)

/-- Reads a text field. -/
def TextField.read? (r : Reading) (s : List Char) : TextField → Option (Reading × List Char)
  | shortMonth => do
    let (n, rest) ← readName? false s 0 monthNames
    let r ← r.sayMonth? (n + 1)
    return (r, rest)
  | longMonth => do
    let (n, rest) ← readName? true s 0 monthNames
    let r ← r.sayMonth? (n + 1)
    return (r, rest)
  | shortWeekday => do
    let (n, rest) ← readName? false s 0 weekdayNames
    let r ← r.sayWeekday? n
    return (r, rest)
  | longWeekday => do
    let (n, rest) ← readName? true s 0 weekdayNames
    let r ← r.sayWeekday? n
    return (r, rest)
  | lowerHalf | upperHalf =>
    match afterWord? ['a', 'm'] s, afterWord? ['p', 'm'] s with
    | some rest, _ => (r.sayHalf? 0).map fun r => (r, rest)
    | none, some rest => (r.sayHalf? 1).map fun r => (r, rest)
    | none, none => none
  | fraction precision => readPointed? r s precision
  | bareFraction precision => do
    let (nanos, rest) ← precision.read? s
    let r ← r.sayNanosecond? nanos
    return (r, rest)
  | zoneName => some (r, s.dropWhile fun c => !Text.isBlank c)
  | offset style => do
    let permissive := style == .permissive
    let (seconds, rest) ← readOffset? permissive permissive (Text.trimStart s)
    let r ← r.sayOffset? seconds
    return (r, rest)
  | full => readFull? r s

/-- Reads one item. -/
def Item.read? (r : Reading) (s : List Char) : Item → Option (Reading × List Char)
  | literal text => if text.isPrefixOf s then some (r, s.drop text.length) else none
  | blanks _ => some (r, Text.trimStart s)
  | numeric field _ => readNumeric? r s field
  | word field => field.read? r s

/-- Reads a text by the items of a pattern. -/
def readItems? (r : Reading) (s : List Char) : List Item → Option (Reading × List Char)
  | [] => some (r, s)
  | item :: rest => (item.read? r s).bind fun (r, s) => readItems? r s rest

/-- The whole text can be read by the items of a pattern. -/
def readsAs (items : List Item) (s : List Char) : Bool :=
  match readItems? Reading.empty s items with
  | some (_, rest) => rest.isEmpty
  | none => false

end LogRouter
