import LogRouter.Calendar.Span

/-!
# Instants

* `Instant`: seconds since the epoch and nanoseconds. Nanoseconds from one to two thousand million
  stand for the leap second that follows the second they are attached to.
* `Instant.plus`: the instant a number of nanoseconds later. A leap second is a second of its own
  as long as the sum stays inside it, and is left by its near end otherwise.
* `Instant.minus?`: the instant a span earlier, if it is representable.
* `Instant.total`: nanoseconds since the epoch, as a file's modification time counts them.
-/

namespace LogRouter

/-- A point in time. -/
structure Instant where
  seconds : Int
  nanos : Nat
  deriving DecidableEq, Repr, Inhabited

namespace Instant

/-- Nanoseconds in a second. -/
def nanosPerSecond : Nat := 1000000000

/-- The first second of the calendar, at the start of the year -262143. -/
def firstSecond : Int := -8334601228800

/-- The last second of the calendar, at the end of the year 262142. -/
def lastSecond : Int := 8210266876799

/-- The instant lies inside the calendar. -/
def Representable (t : Instant) : Prop := firstSecond ≤ t.seconds ∧ t.seconds ≤ lastSecond

instance (t : Instant) : Decidable t.Representable := inferInstanceAs (Decidable (_ ∧ _))

/-- The instant lies in a leap second. -/
def isLeap (t : Instant) : Bool := nanosPerSecond ≤ t.nanos

/-- The instant with the given seconds and nanoseconds, both counted from the epoch's second. -/
def carry (seconds nanos : Int) : Instant :=
  ⟨seconds + nanos.fdiv nanosPerSecond, (nanos.fmod nanosPerSecond).toNat⟩

/-- The instant `span` nanoseconds later. -/
def plus (t : Instant) (span : Int) : Instant :=
  let whole := span.tdiv nanosPerSecond
  let part := span.tmod nanosPerSecond
  if t.isLeap then
    let nanos := (t.nanos : Int) - nanosPerSecond
    if 0 < whole ∨ (0 < part ∧ nanosPerSecond ≤ nanos + part) then carry (t.seconds + whole) (nanos + part)
    else if whole < 0 then carry (t.seconds + 1 + whole) (nanos + part)
    else ⟨t.seconds, (t.nanos + part).toNat⟩
  else carry (t.seconds + whole) (t.nanos + part)

/-- The instant a span earlier, if it lies inside the calendar. -/
def minus? (t : Instant) (span : Span) : Option Instant :=
  let earlier := t.plus (-span.nanos)
  if earlier.Representable then some earlier else none

/-- Nanoseconds since the epoch; a leap second runs into the second after it. -/
def total (t : Instant) : Int := t.seconds * nanosPerSecond + t.nanos

/-- The instant that many nanoseconds after the epoch. -/
def ofTotal (n : Int) : Instant := carry 0 n

end Instant

end LogRouter
