import LogRouter.Calendar.Moment
import LogRouter.Label.Item

/-!
# Rendering labels

`Item.render?` writes one item for a moment and `renderItems?` writes a sequence of them. Every
item but the permissive offset, which is for reading only, can be written.

A year has four digits; outside of the years 0 to 9999 it has a sign as well. The fields of two
digits go through a byte, which shows for centuries past 99: from 100 on the first digit is the
character that many places after `0`.
-/

namespace LogRouter

/-- The decimal digits of a number. -/
def decimalDigits (n : Nat) : List Char := Nat.toDigits 10 n

/-- The digits behind a sign, filled up to a width that counts the sign. -/
def padded (pad : Pad) (width : Nat) (sign : List Char) (n : Nat) : List Char :=
  let digits := decimalDigits n
  let missing := width - (sign.length + digits.length)
  match pad with
  | .bare => sign ++ digits
  | .zero => sign ++ (List.replicate missing '0' ++ digits)
  | .space => List.replicate missing ' ' ++ (sign ++ digits)

/-- The number with leading zeros up to a width. -/
def zeroPadded (width n : Nat) : List Char := padded .zero width [] n

/-- The sign of a number that is written only in front of negative ones. -/
def minus (n : Int) : List Char := if n < 0 then ['-'] else []

/-- A field of two digits that holds a byte. -/
def renderByte (pad : Pad) (n : Nat) : List Char :=
  let byte := n % 256
  let last := Char.ofNat (48 + byte % 10)
  match pad with
  | .bare => if byte < 10 then [last] else [Char.ofNat (48 + byte / 10), last]
  | .space => [if byte < 10 then ' ' else Char.ofNat (48 + byte / 10), last]
  | .zero => [Char.ofNat (48 + byte / 10), last]

/-- A year: four digits, with a sign outside of the years 0 to 9999. -/
def renderYear (pad : Pad) (year : Int) : List Char :=
  if 0 ≤ year ∧ year ≤ 9999 then padded pad 4 [] year.natAbs
  else padded pad 5 [if year < 0 then '-' else '+'] year.natAbs

/-- The century of a year, as the byte that its field holds. -/
def centuryByte (year : Int) : Nat := (year / 100 % 256).toNat

/-- The year within its century. -/
def yearOfCentury (year : Int) : Nat := (year % 100).toNat

/-- A numeric field of a moment. -/
def NumericField.render (m : Moment) (pad : Pad) : NumericField → List Char
  | year => renderYear pad m.date.year
  | century => renderByte pad (centuryByte m.date.year)
  | yearOfCentury => renderByte pad (LogRouter.yearOfCentury m.date.year)
  | isoYear => renderYear pad m.date.isoWeek.1
  | isoYearOfCentury => renderByte pad (LogRouter.yearOfCentury m.date.isoWeek.1)
  | quarter => decimalDigits m.date.quarter
  | month => renderByte pad m.date.month
  | day => renderByte pad m.date.day
  | weekFromSunday => renderByte pad m.date.weekFromSunday
  | weekFromMonday => renderByte pad m.date.weekFromMonday
  | isoWeek => renderByte pad m.date.isoWeek.2
  | weekdayFromSunday => decimalDigits m.date.weekdayFromSunday
  | weekdayFromMonday => decimalDigits (m.date.weekday + 1)
  | ordinal => padded pad 3 [] m.date.ordinal
  | hour => renderByte pad m.hour
  | hour12 => renderByte pad m.hour12
  | minute => renderByte pad m.minute
  | second => renderByte pad m.second
  | nanosecond => padded pad 9 [] m.fraction
  | timestamp => padded pad 9 (minus m.timestamp) m.timestamp.natAbs

/-- The months by their long names. -/
def monthNames : List String :=
  ["January", "February", "March", "April", "May", "June", "July", "August", "September",
   "October", "November", "December"]

/-- The days of the week by their long names, from Monday on. -/
def weekdayNames : List String :=
  ["Monday", "Tuesday", "Wednesday", "Thursday", "Friday", "Saturday", "Sunday"]

/-- The long name with the given number. -/
def longName (names : List String) (n : Nat) : List Char := (names.getD n "").toList

/-- The short name with the given number, three letters long. -/
def shortName (names : List String) (n : Nat) : List Char := (longName names n).take 3

/-- The places behind the point, without it. -/
def renderPlaces (nanos : Nat) : Precision → List Char
  | .milli => zeroPadded 3 (nanos / 1000000)
  | .micro => zeroPadded 6 (nanos / 1000)
  | .nano => zeroPadded 9 nanos
  | .asNeeded =>
    if nanos % 1000000 = 0 then zeroPadded 3 (nanos / 1000000)
    else if nanos % 1000 = 0 then zeroPadded 6 (nanos / 1000)
    else zeroPadded 9 nanos

/-- The point and the places behind it; no places are needed for a full second. -/
def renderFraction (nanos : Nat) (precision : Precision) : List Char :=
  if precision = .asNeeded ∧ nanos = 0 then [] else '.' :: renderPlaces nanos precision

/-- The sign and the hours of an offset. -/
def renderOffsetHours (offset : Int) (hours : Nat) : List Char :=
  (if offset < 0 then '-' else '+') :: zeroPadded 2 hours

/-- The offset of a zone. Where minutes come last, the seconds are rounded to them. -/
def renderOffset? (offset : Int) : OffsetStyle → Option (List Char)
  | .joined =>
    let minutes := (offset.natAbs + 30) / 60
    some (renderOffsetHours offset (minutes / 60) ++ zeroPadded 2 (minutes % 60))
  | .minutes =>
    let minutes := (offset.natAbs + 30) / 60
    some (renderOffsetHours offset (minutes / 60) ++ ':' :: zeroPadded 2 (minutes % 60))
  | .seconds =>
    some (renderOffsetHours offset (offset.natAbs / 3600) ++
      ':' :: (zeroPadded 2 (offset.natAbs / 60 % 60) ++ ':' :: zeroPadded 2 (offset.natAbs % 60)))
  | .hours => some (renderOffsetHours offset (offset.natAbs / 3600))
  | .permissive => none

/-- The name of a zone: a fixed one is named by its offset, with seconds if there are some. -/
def Zone.name : Zone → List Char
  | utc => ['U', 'T', 'C']
  | fixed offset =>
    (renderOffset? offset (if offset.natAbs % 60 = 0 then .minutes else .seconds)).getD []

/-- Date, time and offset in one. -/
def renderFull (m : Moment) : List Char :=
  renderYear .zero m.date.year ++
    '-' :: (zeroPadded 2 m.date.month ++ '-' :: (zeroPadded 2 m.date.day ++
    'T' :: (zeroPadded 2 m.hour ++ ':' :: (zeroPadded 2 m.minute ++ ':' :: (zeroPadded 2 m.second ++
    (renderFraction m.fraction .asNeeded ++ (renderOffset? m.zone.offset .minutes).getD []))))))

/-- A text field of a moment. -/
def TextField.render? (m : Moment) : TextField → Option (List Char)
  | shortMonth => some (shortName monthNames (m.date.month - 1))
  | longMonth => some (longName monthNames (m.date.month - 1))
  | shortWeekday => some (shortName weekdayNames m.date.weekday)
  | longWeekday => some (longName weekdayNames m.date.weekday)
  | lowerHalf => some (if m.isAfternoon then ['p', 'm'] else ['a', 'm'])
  | upperHalf => some (if m.isAfternoon then ['P', 'M'] else ['A', 'M'])
  | fraction precision => some (renderFraction m.fraction precision)
  | bareFraction precision => some (renderPlaces m.fraction precision)
  | zoneName => some m.zone.name
  | offset style => renderOffset? m.zone.offset style
  | full => some (renderFull m)

/-- An item for a moment. -/
def Item.render? (m : Moment) : Item → Option (List Char)
  | literal text => some text
  | blanks text => some text
  | numeric field pad => some (field.render m pad)
  | word field => field.render? m

/-- A sequence of items for a moment. -/
def renderItems? (m : Moment) : List Item → Option (List Char)
  | [] => some []
  | item :: rest =>
    match item.render? m, renderItems? m rest with
    | some text, some tail => some (text ++ tail)
    | _, _ => none

end LogRouter
