import LogRouter.Sink.Composite
import Mathlib.Data.List.Basic
import Mathlib.Tactic.Common

/-!
# What a sink does to its writers

* `Outlet.recorded`: the same writers, with a record of the calls that reach them.
* **`emit_recorded`**: whatever the single writes come to, a delivery makes one write to each
  target, in their order, and nothing else.
* `SinkCall`, `Sink.performAll`: the calls of a sink over its life.
* **`performAll_sameRouting`**: no run of calls changes which writers a severity reaches.
-/

namespace LogRouter

/-! ## Recorded calls -/

/-- A call of a writer. -/
inductive WriterCall where
  | write (writer : Nat) (bytes : Bytes)
  | sync (writer : Nat)
  | close (writer : Nat)
  deriving DecidableEq, Repr

/-- The same writers, with a record of the calls that reach them. -/
def Outlet.recorded {σ : Type} (outlet : Outlet σ) : Outlet (σ × List WriterCall) where
  write writer bytes world :=
    let (result, after) := outlet.write writer bytes world.1
    (result, after, world.2 ++ [.write writer bytes])
  sync writer world :=
    let (result, after) := outlet.sync writer world.1
    (result, after, world.2 ++ [.sync writer])
  close writer world :=
    let (result, after) := outlet.close writer world.1
    (result, after, world.2 ++ [.close writer])
  isFileBacked writer world := outlet.isFileBacked writer world.1
  report report world := (outlet.report report world.1, world.2)

namespace Sink

section Recorded

variable {σ : Type} (outlet : Outlet σ) (now : Nat) (bytes : Bytes)

/-- The delivery with a record of calls beside its world. -/
def Delivery.withCalls (d : Delivery σ) (calls : List WriterCall) :
    Delivery (σ × List WriterCall) :=
  ⟨(d.world, calls), d.metrics, d.reports, d.attempted, d.failures, d.made⟩

theorem deliver_recorded (d : Delivery σ) (calls : List WriterCall) (slot : Slot) :
    deliver outlet.recorded now bytes (d.withCalls calls) slot =
      (deliver outlet now bytes d slot).withCalls (calls ++ [.write slot.writer bytes]) := by
  rcases hw : outlet.write slot.writer bytes d.world with ⟨e | n, after⟩
  · simp only [deliver, Outlet.recorded, Delivery.withCalls, hw]
    cases (d.reports.note now slot.destination e.message).1 <;> rfl
  · simp only [deliver, Outlet.recorded, Delivery.withCalls, hw]

theorem foldl_deliver_recorded : ∀ (slots : List Slot) (d : Delivery σ) (calls : List WriterCall),
    slots.foldl (deliver outlet.recorded now bytes) (d.withCalls calls) =
      (slots.foldl (deliver outlet now bytes) d).withCalls
        (calls ++ slots.map fun slot => .write slot.writer bytes)
  | [], d, calls => by simp
  | slot :: slots, d, calls => by
    rw [List.foldl_cons, List.foldl_cons, deliver_recorded, foldl_deliver_recorded slots,
      List.map_cons, List.append_assoc, List.singleton_append]

/-- **A delivery makes one write to each target**, in their order, whatever the single writes come
to; it makes no other call, and the record changes nothing of what it does. -/
theorem emit_recorded (sink : Sink) (world : σ) (calls : List WriterCall) (severity : Severity) :
    sink.emit outlet.recorded now (world, calls) severity bytes =
      { result := (sink.emit outlet now world severity bytes).result
        made := (sink.emit outlet now world severity bytes).made
        sink := (sink.emit outlet now world severity bytes).sink
        world := ((sink.emit outlet now world severity bytes).world,
          calls ++ ((sink.targets severity).map Slot.writer).map (.write · bytes)) } := by
  have h := foldl_deliver_recorded outlet now bytes (sink.targets severity)
    ⟨world, sink.metrics.countRecord, sink.reports, 0, [], []⟩ calls
  unfold emit
  rw [List.map_map]
  simp only [Delivery.withCalls] at h
  simp only [h, Function.comp_def]

end Recorded

/-! ## The life of a sink -/

/-- A call of a sink. -/
inductive SinkCall where
  | emit (severity : Severity) (bytes : Bytes)
  | log (record : Record)
  | flush
  | close
  | reset

section Life

variable {σ : Type} (outlet : Outlet σ)

/-- The sink and its world after a call. -/
def perform (now : Nat) (sink : Sink) (world : σ) : SinkCall → Sink × σ
  | .emit severity bytes =>
    let outcome := sink.emit outlet now world severity bytes
    (outcome.sink, outcome.world)
  | .log record =>
    let outcome := sink.log outlet now world record
    (outcome.sink, outcome.world)
  | .flush => (sink.flush outlet world).2
  | .close => (sink.close outlet world).2
  | .reset => (sink.resetMetrics, world)

/-- The sink and its world after a run of calls, each with its time. -/
def performAll (sink : Sink) (world : σ) : List (Nat × SinkCall) → Sink × σ
  | [] => (sink, world)
  | (now, call) :: rest =>
    let (sink, world) := sink.perform outlet now world call
    sink.performAll world rest

/-- Two sinks send the records of every severity to the same writers. -/
structure SameRouting (a b : Sink) : Prop where
  table : a.table = b.table
  pipelines : a.pipelines = b.pipelines
  writers : a.slots.map Slot.writer = b.slots.map Slot.writer

theorem SameRouting.trans {a b c : Sink} (h : a.SameRouting b) (h' : b.SameRouting c) :
    a.SameRouting c :=
  ⟨h.table.trans h'.table, h.pipelines.trans h'.pipelines, h.writers.trans h'.writers⟩

theorem SameRouting.targets {a b : Sink} (h : a.SameRouting b) (severity : Severity) :
    (a.targets severity).map Slot.writer = (b.targets severity).map Slot.writer := by
  unfold Sink.targets
  rw [h.pipelines, List.map_flatMap, List.map_flatMap]
  refine List.flatMap_congr fun pipeline _ => ?_
  rw [List.map_filterMap, List.map_filterMap]
  refine List.filterMap_congr fun i _ => ?_
  rw [← List.getElem?_map, ← List.getElem?_map, h.writers]

theorem emit_sameRouting (now : Nat) (sink : Sink) (world : σ) (severity : Severity)
    (bytes : Bytes) : (sink.emit outlet now world severity bytes).sink.SameRouting sink :=
  ⟨rfl, rfl, rfl⟩

theorem closeSlots_writers : ∀ (slots : List Slot) (world : σ),
    (closeSlots outlet world slots).2.1.map Slot.writer = slots.map Slot.writer
  | [], _ => rfl
  | slot :: slots, world => by
    have hslot : (closeSlot outlet world slot).2.1.writer = slot.writer := by
      unfold closeSlot
      split_ifs <;> rfl
    unfold closeSlots
    simp only [List.map_cons, hslot, closeSlots_writers slots]

theorem perform_sameRouting (now : Nat) (sink : Sink) (world : σ) (call : SinkCall) :
    (sink.perform outlet now world call).1.SameRouting sink := by
  cases call with
  | emit severity bytes => exact emit_sameRouting outlet now sink world severity bytes
  | log record =>
    change (sink.log outlet now world record).sink.SameRouting sink
    unfold log
    split_ifs
    · exact emit_sameRouting outlet now sink world _ _
    · exact ⟨rfl, rfl, rfl⟩
  | flush => exact ⟨rfl, rfl, rfl⟩
  | close => exact ⟨rfl, rfl, closeSlots_writers outlet sink.slots world⟩
  | reset => exact ⟨rfl, rfl, rfl⟩

/-- **No run of calls changes which writers a severity reaches.** -/
theorem performAll_sameRouting : ∀ (calls : List (Nat × SinkCall)) (sink : Sink) (world : σ),
    (sink.performAll outlet world calls).1.SameRouting sink
  | [], _, _ => ⟨rfl, rfl, rfl⟩
  | (now, call) :: calls, sink, world =>
    (performAll_sameRouting calls _ _).trans (perform_sameRouting outlet now sink world call)

end Life

end Sink

end LogRouter
