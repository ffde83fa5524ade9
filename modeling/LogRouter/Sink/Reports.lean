/-!
# Reports of failures

A destination that keeps failing is reported once per interval, with the number of failures that
went unreported since the last report.

* `FailureReports`: when the last report was made and what has been counted.
* `FailureReports.note`: counts a failure, and reports it if the interval has passed.

Times are nanoseconds on a clock that never goes back.
-/

namespace LogRouter

/-- One report of a failure. -/
structure Report where
  destination : String
  error : String
  /-- The failures since the last report that had none of their own. -/
  suppressed : UInt64
  /-- All failures so far. -/
  total : UInt64
  deriving DecidableEq, Repr

namespace Report

/-- The wording of a report. -/
def message (r : Report) : String :=
  if r.suppressed = 0 then "log write failed" else "log write failed (rate-limited)"

/-- What a report names beside the message. -/
def fields (r : Report) : List (String × String) :=
  [("destination", r.destination), ("error", r.error)] ++
    (if r.suppressed = 0 then [] else [("suppressed_count", toString r.suppressed)]) ++
    [("total_errors", toString r.total)]

end Report

/-- When the last report was made and what has been counted. -/
structure FailureReports where
  /-- The least time between two reports. -/
  interval : Nat
  last : Option Nat
  /-- The failures since the last report. -/
  pending : UInt64
  /-- All failures. -/
  total : UInt64
  deriving DecidableEq, Repr

namespace FailureReports

/-- The interval unless another one is asked for: ten seconds. -/
def usualInterval : Nat := 10000000000

/-- Nothing has been counted. -/
def fresh (interval : Nat) : FailureReports := ⟨interval, none, 0, 0⟩

/-- A report is due at the given time. -/
def isDue (r : FailureReports) (now : Nat) : Bool :=
  match r.last with
  | none => true
  | some last => r.interval ≤ now - last

/-- Counts a failure, and reports it if a report is due. -/
def note (r : FailureReports) (now : Nat) (destination error : String) :
    Option Report × FailureReports :=
  let pending := r.pending + 1
  let total := r.total + 1
  if r.isDue now then
    let suppressed := if 1 < pending then pending - 1 else 0
    (some ⟨destination, error, suppressed, total⟩, ⟨r.interval, some now, 0, total⟩)
  else (none, ⟨r.interval, r.last, pending, total⟩)

end FailureReports

end LogRouter
