import LogRouter.Record.Encoder
import LogRouter.Route.Table
import LogRouter.Sink.Error
import LogRouter.Sink.Metrics
import LogRouter.Sink.Reports

/-!
# Composite sinks

A sink delivers every record to the writers of all routes that take its severity.

* `Outlet`: the operations on writers, which are known by numbers and live in some world.
* `Sink.ofParts`: the sink of a route table with a writer for each destination. A writer may serve
  several destinations; it then has one slot.
* `Sink.emit`, `Sink.log`: deliver bytes or a record. A write that fails stops no other.
* `Sink.flush`, `Sink.close`: sync or close every writer and return the first failure. A writer
  that owns files is closed once only; a stream is synced instead.
-/

namespace LogRouter

/-- The operations on writers, which are known by numbers and live in the world `σ`. -/
structure Outlet (σ : Type) where
  write : Nat → Bytes → σ → Except IoError Nat × σ
  sync : Nat → σ → Except IoError Unit × σ
  close : Nat → σ → Except IoError Unit × σ
  /-- The writer owns files. -/
  isFileBacked : Nat → σ → Bool
  /-- Makes a report about a write that failed. Where nobody reads reports, nothing happens. -/
  report : Report → σ → σ := fun _ world => world

/-- A writer with the first destination that it serves. -/
structure Slot where
  destination : String
  writer : Nat
  /-- The writer was closed. -/
  closed : Bool
  deriving DecidableEq, Repr

/-- A level filter and the slots behind it. -/
structure Pipeline where
  filter : LevelFilter
  slots : List Nat
  deriving DecidableEq, Repr

/-- A sink over a route table. -/
structure Sink where
  table : RouteTable
  pipelines : List Pipeline
  slots : List Slot
  encoder : Encoder
  zone : Zone
  metrics : Metrics
  reports : FailureReports

/-- A write that failed. -/
structure WriteFailure where
  destination : String
  cause : IoError
  deriving DecidableEq, Repr

/-- The wording of a failed write. -/
def WriteFailure.message (f : WriteFailure) : String :=
  "write to '" ++ f.destination ++ "' failed: " ++ f.cause.message

/-- The failed writes of one record, out of all that were attempted. -/
structure EmitError where
  failures : List WriteFailure
  attempted : Nat
  deriving DecidableEq, Repr

namespace EmitError

/-- The wording of the error. -/
def message (e : EmitError) : String :=
  "log write failed for " ++ toString e.failures.length ++ " of " ++ toString e.attempted ++
    " destinations"

/-- No write of the record succeeded. -/
def isTotal (e : EmitError) : Bool := e.attempted ≤ e.failures.length

end EmitError

namespace Sink

/-! ## Building -/

/-- The places of the writers among the slots, and the slots, behind those that exist. -/
def allot (slots : List Slot) : List (String × Nat) → List Nat × List Slot
  | [] => ([], slots)
  | (destination, writer) :: rest =>
    match slots.findIdx? (·.writer = writer) with
    | some i =>
      let (places, slots) := allot slots rest
      (i :: places, slots)
    | none =>
      let (places, slots') := allot (slots ++ [⟨destination, writer, false⟩]) rest
      (slots.length :: places, slots')

/-- The slots of a route, where `places` gives the slot of each destination. -/
def pipelineOf (places : Array Nat) (route : Route) : Pipeline :=
  ⟨route.filter, (route.writers.filterMap fun id => places[id.place]?).eraseDups⟩

/-- The sink of a route table, where `writers` gives the writer of each destination. -/
def ofParts (zone : Zone) (table : RouteTable) (writers : List Nat) (encoder : Encoder) :
    Except SinkError Sink :=
  if writers.length ≠ table.destinations.size then
    .error (.config ("route table has " ++ toString table.destinations.size ++
      " destinations but " ++ toString writers.length ++ " writers were supplied"))
  else
    let (places, slots) := allot [] (table.destinations.toList.zip writers)
    .ok ⟨table, table.routes.map (pipelineOf places.toArray), slots, encoder, zone, .zero,
      .fresh FailureReports.usualInterval⟩

/-! ## Delivery -/

/-- The slots that records of a severity go to, in the order of the writes. -/
def targets (sink : Sink) (severity : Severity) : List Slot :=
  (sink.pipelines.filter (·.filter.accepts severity)).flatMap fun pipeline =>
    pipeline.slots.filterMap fun i => sink.slots[i]?

/-- How far the delivery of a record has come. -/
structure Delivery (σ : Type) where
  world : σ
  metrics : Metrics
  reports : FailureReports
  attempted : Nat
  /-- The failed writes, in their order. -/
  failures : List WriteFailure
  /-- The reports that were made, in their order. -/
  made : List Report

/-- Writes the bytes to one slot. If that fails and a report is due, it is made at once. -/
def deliver {σ : Type} (outlet : Outlet σ) (now : Nat) (bytes : Bytes) (d : Delivery σ)
    (slot : Slot) : Delivery σ :=
  match outlet.write slot.writer bytes d.world with
  | (.ok n, world) =>
    { d with world := world, metrics := d.metrics.countDelivery n, attempted := d.attempted + 1 }
  | (.error e, world) =>
    let (report?, reports) := d.reports.note now slot.destination e.message
    { world := report?.elim world (outlet.report · world)
      metrics := d.metrics.countFailure
      reports := reports
      attempted := d.attempted + 1
      failures := d.failures ++ [⟨slot.destination, e⟩]
      made := d.made ++ report?.toList }

/-- What the delivery of a record leads to. -/
structure Outcome (σ : Type) where
  result : Except EmitError Unit
  made : List Report
  sink : Sink
  world : σ

/-- Delivers bytes at a severity; `now` is the time for reports. -/
def emit {σ : Type} (outlet : Outlet σ) (now : Nat) (sink : Sink) (world : σ)
    (severity : Severity) (bytes : Bytes) : Outcome σ :=
  let start : Delivery σ := ⟨world, sink.metrics.countRecord, sink.reports, 0, [], []⟩
  let finish := (sink.targets severity).foldl (deliver outlet now bytes) start
  { result := if finish.failures.isEmpty then .ok ()
      else .error ⟨finish.failures, finish.attempted⟩
    made := finish.made
    sink := { sink with metrics := finish.metrics, reports := finish.reports }
    world := finish.world }

/-- Records of the severity reach some destination. -/
def enabled (sink : Sink) (severity : Severity) : Bool := sink.table.accepts severity

/-- Delivers a record, unless its severity reaches no destination. -/
def log {σ : Type} (outlet : Outlet σ) (now : Nat) (sink : Sink) (world : σ) (r : Record) :
    Outcome σ :=
  if sink.enabled r.severity then
    sink.emit outlet now world r.severity (sink.encoder.encode sink.zone r)
  else ⟨.ok (), [], sink, world⟩

/-! ## Flushing and closing -/

/-- The first error of a list of results. -/
def firstError (errors : List (Option SinkError)) : Except SinkError Unit :=
  match errors.filterMap id with
  | [] => .ok ()
  | e :: _ => .error e

/-- Syncs the slots in their order. -/
def syncSlots {σ : Type} (outlet : Outlet σ) (world : σ) :
    List Slot → List (Option SinkError) × σ
  | [] => ([], world)
  | slot :: rest =>
    let (result, world) := outlet.sync slot.writer world
    let error? := match result with
      | .ok _ => none
      | .error e => some (.flush slot.destination e)
    let (errors, world) := syncSlots outlet world rest
    (error? :: errors, world)

/-- Syncs every writer, and returns the first failure. -/
def flush {σ : Type} (outlet : Outlet σ) (sink : Sink) (world : σ) :
    Except SinkError Unit × Sink × σ :=
  let (errors, world) := syncSlots outlet world sink.slots
  (firstError errors, { sink with metrics := sink.metrics.countFlush }, world)

/-- Closes one slot, if it owns files and is not closed yet; syncs it, if it owns none. -/
def closeSlot {σ : Type} (outlet : Outlet σ) (world : σ) (slot : Slot) :
    Except IoError Unit × Slot × σ :=
  if outlet.isFileBacked slot.writer world then
    if slot.closed then (.ok (), slot, world)
    else
      let (result, world) := outlet.close slot.writer world
      (result, { slot with closed := true }, world)
  else
    let (result, world) := outlet.sync slot.writer world
    (result, slot, world)

/-- Closes the slots in their order. -/
def closeSlots {σ : Type} (outlet : Outlet σ) (world : σ) :
    List Slot → List (Option SinkError) × List Slot × σ
  | [] => ([], [], world)
  | slot :: rest =>
    let (result, slot', world) := closeSlot outlet world slot
    let error? := match result with
      | .ok _ => none
      | .error e => some (.close slot.destination e)
    let (errors, slots, world) := closeSlots outlet world rest
    (error? :: errors, slot' :: slots, world)

/-- Closes every writer that owns files, unless it was closed before, and syncs the others. Returns
the first failure. -/
def close {σ : Type} (outlet : Outlet σ) (sink : Sink) (world : σ) :
    Except SinkError Unit × Sink × σ :=
  let (errors, slots, world) := closeSlots outlet world sink.slots
  (firstError errors, { sink with slots := slots }, world)

/-- The least severity that reaches some destination. -/
def minLevel? (sink : Sink) : Option Severity := sink.table.minLevel?

/-- Resets the counters. -/
def resetMetrics (sink : Sink) : Sink := { sink with metrics := .zero }

end Sink

end LogRouter
