import LogRouter.Calendar.Date
import LogRouter.Calendar.Instant

/-!
# Moments

A moment is an instant as a clock on a wall shows it.

* `Zone`: universal time, or a fixed distance from it.
* `Moment.ofInstant`: the date and the time of day of an instant in a zone.
-/

namespace LogRouter

/-- Where a wall clock stands. -/
inductive Zone where
  /-- Universal time. -/
  | utc
  /-- The given number of seconds ahead of universal time. -/
  | fixed (offset : Int)
  deriving DecidableEq, Repr

/-- The seconds by which the clocks of a zone are ahead of universal time. -/
def Zone.offset : Zone → Int
  | utc => 0
  | fixed offset => offset

/-- A date, the second of the day, and the nanoseconds of the instant. -/
structure Moment where
  date : Date
  secondOfDay : Nat
  nanos : Nat
  zone : Zone
  deriving DecidableEq, Repr

namespace Moment

/-- What a clock of the zone shows at an instant. -/
def ofInstant (zone : Zone) (t : Instant) : Moment :=
  let seconds := t.seconds + zone.offset
  ⟨Date.ofEpochDay (seconds / 86400), (seconds % 86400).toNat, t.nanos, zone⟩

/-- The hour, from zero. -/
def hour (m : Moment) : Nat := m.secondOfDay / 3600

/-- The minute of the hour. -/
def minute (m : Moment) : Nat := m.secondOfDay / 60 % 60

/-- The second of the minute, sixty in a leap second. -/
def second (m : Moment) : Nat := m.secondOfDay % 60 + m.nanos / Instant.nanosPerSecond

/-- The nanoseconds of the second. -/
def fraction (m : Moment) : Nat := m.nanos % Instant.nanosPerSecond

/-- The hour on a dial of twelve. -/
def hour12 (m : Moment) : Nat := if m.hour % 12 = 0 then 12 else m.hour % 12

/-- The hour lies after noon. -/
def isAfternoon (m : Moment) : Bool := 12 ≤ m.hour

/-- Seconds since the epoch. -/
def timestamp (m : Moment) : Int := m.date.epochDay * 86400 + m.secondOfDay - m.zone.offset

end Moment

end LogRouter
