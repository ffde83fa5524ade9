/-!
# Bucket units

* `BucketUnit`: how long a label stays the same, from a second to a year.
* `BucketUnit.seconds`: the nominal length of a unit.
* `BucketUnit.ofPattern`: the finest unit that a field of the pattern changes at, a day if no field
  tells.

The scan of a pattern goes by letters alone: behind `%` it skips the characters that modify a field
and takes the next one for the letter of the field.
-/

namespace LogRouter

/-- How long a label stays the same. -/
inductive BucketUnit where
  | second
  | minute
  | hour
  | day
  | week
  | month
  | year
  deriving DecidableEq, Repr

namespace BucketUnit

/-- The place of a unit in the order of lengths, from zero. -/
def rank : BucketUnit → Nat
  | second => 0
  | minute => 1
  | hour => 2
  | day => 3
  | week => 4
  | month => 5
  | year => 6

/-- The nominal length: a month counts thirty days and a year 365. -/
def seconds : BucketUnit → Int
  | second => 1
  | minute => 60
  | hour => 3600
  | day => 86400
  | week => 604800
  | month => 2592000
  | year => 31536000

/-- The name of a unit. -/
def name : BucketUnit → String
  | second => "second"
  | minute => "minute"
  | hour => "hour"
  | day => "day"
  | week => "week"
  | month => "month"
  | year => "year"

/-- The shorter of two units. -/
def finer (a b : BucketUnit) : BucketUnit := if b.rank < a.rank then b else a

/-- The unit at which the field with the given letter changes. -/
def ofLetter? (letter : Char) : Option BucketUnit :=
  if letter ∈ ['S', 's', 'T', 'X', 'r', 'c', 'f', '+'] then some second
  else if letter ∈ ['M', 'R'] then some minute
  else if letter ∈ ['H', 'I', 'k', 'l', 'p', 'P'] then some hour
  else if letter ∈ ['d', 'e', 'j', 'F', 'D', 'x', 'a', 'A', 'u', 'w'] then some day
  else if letter ∈ ['U', 'W', 'V'] then some week
  else if letter ∈ ['m', 'b', 'B', 'h'] then some month
  else if letter ∈ ['Y', 'y', 'C', 'G', 'g'] then some year
  else none

/-- The character modifies a field and is not its letter. -/
def isModifier (c : Char) : Bool :=
  c.isDigit || c == '-' || c == '_' || c == '.' || c == ':' || c == '#'

/-- The letters of the fields of a pattern; `inField` is set behind a `%` whose letter is still to
come. -/
def letters (inField : Bool) : List Char → List Char
  | [] => []
  | c :: rest =>
    if inField then
      if isModifier c then letters true rest else c :: letters false rest
    else letters (c == '%') rest

/-- The finest unit that a field of the pattern changes at. -/
def ofPattern (pattern : List Char) : BucketUnit :=
  match (letters false pattern).filterMap ofLetter? with
  | [] => day
  | unit :: rest => rest.foldl finer unit

end BucketUnit

end LogRouter
