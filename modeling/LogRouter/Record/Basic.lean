import LogRouter.Calendar.Instant
import LogRouter.Json.Value
import LogRouter.Level.Severity

/-!
# Records

`Record` is one event to be logged: its time, severity, source and message, and further fields in
ascending order of their keys.
-/

namespace LogRouter

/-- One event to be logged. -/
structure Record where
  time : Instant
  severity : Severity
  /-- The component that the record comes from. -/
  target : String
  message : String
  /-- Further values, in strictly ascending order of their keys. -/
  fields : Json.Members
  deriving Repr

end LogRouter
