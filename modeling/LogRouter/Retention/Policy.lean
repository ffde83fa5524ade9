import LogRouter.Calendar.Instant

/-!
# Retention policies

* `RetentionPolicy`: how long superseded files are kept, and whether they are compressed.
* `RetentionPolicy.cutoff?`: the instant before which files are too old. There is none without an
  age limit, or if the limit is out of range or reaches out of the calendar.
-/

namespace LogRouter

/-- How long superseded files are kept, and whether they are compressed. An age of zero is no limit. -/
structure RetentionPolicy where
  maxAge : UInt32
  /-- The length of one unit of the age. -/
  unit : Span
  compress : Bool
  deriving DecidableEq, Repr

namespace RetentionPolicy

/-- The policy that keeps everything as it is. -/
def disabled : RetentionPolicy := ⟨0, 86400, false⟩

/-- The largest age that is counted; a larger one is no limit. -/
def largestAge : Nat := 2147483647

/-- The instant before which files are too old. -/
def cutoff? (policy : RetentionPolicy) (now : Instant) : Option Instant :=
  let age := policy.maxAge.toNat
  if age = 0 ∨ largestAge < age then none
  else (policy.unit.times? age).bind now.minus?

/-- The policy can remove or compress a file. -/
def isActive (policy : RetentionPolicy) : Bool := policy.maxAge != 0 || policy.compress

end RetentionPolicy

end LogRouter
