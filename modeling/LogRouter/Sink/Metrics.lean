/-!
# Counters of a sink

`Metrics` counts what a sink has done since the counters were last reset. The counters have 64 bits
and wrap around.
-/

namespace LogRouter

/-- The counters of a sink. -/
structure Metrics where
  /-- Records given to the sink for delivery. -/
  recordsEmitted : UInt64
  /-- Writes that succeeded. -/
  deliveries : UInt64
  /-- Bytes of the writes that succeeded. -/
  bytesWritten : UInt64
  /-- Writes that failed. -/
  writeErrors : UInt64
  /-- Flushes of the sink. -/
  flushes : UInt64
  deriving DecidableEq, Repr

namespace Metrics

/-- The counters after a reset. -/
def zero : Metrics := ⟨0, 0, 0, 0, 0⟩

/-- Counts a record. -/
def countRecord (m : Metrics) : Metrics := { m with recordsEmitted := m.recordsEmitted + 1 }

/-- Counts a write of so many bytes that succeeded. -/
def countDelivery (m : Metrics) (bytes : Nat) : Metrics :=
  { m with deliveries := m.deliveries + 1, bytesWritten := m.bytesWritten + bytes.toUInt64 }

/-- Counts a write that failed. -/
def countFailure (m : Metrics) : Metrics := { m with writeErrors := m.writeErrors + 1 }

/-- Counts a flush. -/
def countFlush (m : Metrics) : Metrics := { m with flushes := m.flushes + 1 }

end Metrics

end LogRouter
