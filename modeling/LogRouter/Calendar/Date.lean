/-!
# Dates

Dates of the proleptic Gregorian calendar, as a year and a day of that year from zero.

* `Date.ofEpochDay`: the date of a day counted from the first of January 1970.
* `Date.epochDay`: the number of that day.
* `Date.month`, `Date.day`: the place of the date in its year.
* `Date.weekday`, `Date.isoWeek`: the place of the date in its week, Monday being zero, and the
  number of that week with the year it is counted in.
-/

namespace LogRouter

/-- A year and a day of it, from zero. -/
structure Date where
  year : Int
  dayOfYear : Nat
  deriving DecidableEq, Repr

/-- Every fourth year is a leap year, of the full centuries only every fourth. -/
def isLeapYear (year : Int) : Bool := year % 4 == 0 && (year % 100 != 0 || year % 400 == 0)

/-- The number of days of a year. -/
def yearLength (year : Int) : Nat := if isLeapYear year then 366 else 365

/-- The days from the first of January of the year 1 to that of the given year. -/
def daysBeforeYear (year : Int) : Int :=
  365 * (year - 1) + (year - 1) / 4 - (year - 1) / 100 + (year - 1) / 400

/-- The first of January 1970, counted from that of the year 1. -/
def epochOffset : Int := 719162

/-- The lengths of the months. -/
def monthLengths (leap : Bool) : List Nat :=
  [31, if leap then 29 else 28, 31, 30, 31, 30, 31, 31, 30, 31, 30, 31]

/-- The month and the day of the `n`-th day from the start of month `month`, both from one, where
the months have the given lengths. -/
def monthDayFrom (month : Nat) (n : Nat) : List Nat → Nat × Nat
  | [] => (month, n + 1)
  | length :: rest =>
    if n < length then (month, n + 1) else monthDayFrom (month + 1) (n - length) rest

namespace Date

/-- The date of the day `n` counted from the first of January 1970. The average length of a year
gives the year up to one. -/
def ofEpochDay (n : Int) : Date :=
  let days := n + epochOffset
  let guess := days * 400 / 146097 + 1
  let year :=
    if days < daysBeforeYear guess then guess - 1
    else if daysBeforeYear (guess + 1) ≤ days then guess + 1
    else guess
  ⟨year, (days - daysBeforeYear year).toNat⟩

/-- The day counted from the first of January 1970. -/
def epochDay (date : Date) : Int := daysBeforeYear date.year + date.dayOfYear - epochOffset

/-- The month and the day of the month, both from one. -/
def monthDay (date : Date) : Nat × Nat :=
  monthDayFrom 1 date.dayOfYear (monthLengths (isLeapYear date.year))

/-- The month, from one. -/
def month (date : Date) : Nat := date.monthDay.1

/-- The day of the month, from one. -/
def day (date : Date) : Nat := date.monthDay.2

/-- The day of the year, from one. -/
def ordinal (date : Date) : Nat := date.dayOfYear + 1

/-- The quarter of the year, from one. -/
def quarter (date : Date) : Nat := (date.month - 1) / 3 + 1

/-- The day of the week, Monday being zero. -/
def weekday (date : Date) : Nat := ((date.epochDay + 3) % 7).toNat

/-- The day of the week, Sunday being zero. -/
def weekdayFromSunday (date : Date) : Nat := (date.weekday + 1) % 7

/-- The week of the year, where the first Monday starts week one. -/
def weekFromMonday (date : Date) : Nat := (date.ordinal + 6 - date.weekday) / 7

/-- The week of the year, where the first Sunday starts week one. -/
def weekFromSunday (date : Date) : Nat := (date.ordinal + 6 - date.weekdayFromSunday) / 7

/-- The number of weeks of a year, where a week belongs to the year of its Thursday. -/
def isoWeeks (year : Int) : Int :=
  let january := (Date.mk year 0).weekday
  if january = 3 ∨ (january = 2 ∧ isLeapYear year) then 53 else 52

/-- The year and the number of the date's week, where a week belongs to the year of its
Thursday. -/
def isoWeek (date : Date) : Int × Nat :=
  let week : Int := ((date.ordinal : Int) - date.weekday + 9) / 7
  if week < 1 then (date.year - 1, (isoWeeks (date.year - 1)).toNat)
  else if isoWeeks date.year < week then (date.year + 1, 1)
  else (date.year, week.toNat)

end Date

end LogRouter
