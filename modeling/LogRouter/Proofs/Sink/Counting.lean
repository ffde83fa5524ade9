import LogRouter.Proofs.Sink.Closing
import Mathlib.Algebra.Ring.Nat
import Mathlib.Data.List.DropRight

/-!
# Counters, errors and writes

What a sink did is told three times: by the writes that reached its writers, by the errors that its
deliveries returned and by its counters.

* `Outlet.audited`: the same writers, with an audit of the writes and of what each of them came to.
* `Entry`, `Sink.history`: the calls of a run, each with its own writes and what it returned.
* `Entry.Answered`: what a delivery returned names the writes that failed, in their order.
  `emit_audited` proves it of one delivery.
* `Metrics.Counts`: what the counters say of a history. `countWrites` gathers a delivery,
  `Accounted.deliver` and `Accounted.perform` carry the accounts over one call.
* **`counters_match_history`**: over every run the three accounts agree.
-/

namespace LogRouter

/-! ## Audits -/

/-- A write that reached a writer, and what it came to. -/
structure Written where
  writer : Nat
  bytes : Bytes
  /-- The number of bytes that the writer reports, or why the write failed. -/
  result : Except IoError Nat

namespace Written

/-- The write failed. -/
def failed (w : Written) : Bool := (errorOf? w.result).isSome

/-- The number of bytes that the writer reports. -/
def size (w : Written) : Nat := w.result.toOption.getD 0

/-- The failure that a write gives rise to, where `destination` is the first destination of each
writer. -/
def failure? (destination : Nat → String) (w : Written) : Option WriteFailure :=
  (errorOf? w.result).map (⟨destination w.writer, ·⟩)

theorem isSome_failure? (destination : Nat → String) (w : Written) :
    (w.failure? destination).isSome = w.failed := by
  unfold failure? failed
  rw [Option.isSome_map]

theorem length_failures (destination : Nat → String) : ∀ ws : List Written,
    (ws.filterMap (failure? destination)).length = ws.countP failed
  | [] => rfl
  | w :: ws => by
    have hsome := isSome_failure? destination w
    rw [List.filterMap_cons, List.countP_cons, ← length_failures destination ws, ← hsome]
    cases w.failure? destination <;> rfl

end Written

/-- The same writers, with an audit of the writes that reach them. -/
def Outlet.audited {σ : Type} (outlet : Outlet σ) : Outlet (σ × List Written) where
  write writer bytes world :=
    let (result, after) := outlet.write writer bytes world.1
    (result, after, world.2 ++ [⟨writer, bytes, result⟩])
  sync writer world :=
    let (result, after) := outlet.sync writer world.1
    (result, after, world.2)
  close writer world :=
    let (result, after) := outlet.close writer world.1
    (result, after, world.2)
  isFileBacked writer world := outlet.isFileBacked writer world.1
  report report world := (outlet.report report world.1, world.2)

/-! ## Histories -/

namespace Sink

namespace SinkCall

/-- The call resets the counters. -/
def isReset : SinkCall → Bool
  | .reset => true
  | _ => false

/-- The call delivers a record. A record whose severity reaches no route is delivered to nobody by
`emit`, and not delivered by `log`. -/
def delivers (table : RouteTable) : SinkCall → Bool
  | .emit _ _ => true
  | .log record => table.accepts record.severity
  | _ => false

end SinkCall

/-- A call of a sink, the writes that it led to and what it returned to its caller. -/
structure Entry where
  call : SinkCall
  writes : List Written
  result : Except EmitError Unit

namespace Entry

/-- The failures that were reported to the caller. -/
def failures (entry : Entry) : List WriteFailure :=
  match entry.result with
  | .ok _ => []
  | .error e => e.failures

/-- What was returned tells of the writes: it is no error exactly if all of them succeeded, and an
error names those that failed, in their order. -/
structure Answered (destination : Nat → String) (entry : Entry) : Prop where
  ok_iff : entry.result = .ok () ↔ ∀ w ∈ entry.writes, w.failed = false
  failures_eq : ∀ e, entry.result = .error e →
    e.failures = entry.writes.filterMap (Written.failure? destination)
  attempted_eq : ∀ e, entry.result = .error e → e.attempted = entry.writes.length
  isTotal_iff : ∀ e, entry.result = .error e →
    (e.isTotal = true ↔ ∀ w ∈ entry.writes, w.failed = true)

end Entry

section Histories

variable {σ : Type} (outlet : Outlet σ)

/-- What a call returns to its caller of the writes that failed. -/
def answer (now : Nat) (sink : Sink) (world : σ) : SinkCall → Except EmitError Unit
  | .emit severity bytes => (sink.emit outlet now world severity bytes).result
  | .log record => (sink.log outlet now world record).result
  | _ => .ok ()

/-- A call of the sink as the history has it. -/
def entry (now : Nat) (sink : Sink) (world : σ) (call : SinkCall) : Entry :=
  ⟨call, (sink.perform outlet.audited now (world, []) call).2.2, sink.answer outlet now world call⟩

/-- The history of a run of calls. -/
def history (sink : Sink) (world : σ) : List (Nat × SinkCall) → List Entry
  | [] => []
  | (now, call) :: rest =>
    let (sink', world') := sink.perform outlet now world call
    sink.entry outlet now world call :: sink'.history world' rest

theorem history_calls : ∀ (calls : List (Nat × SinkCall)) (sink : Sink) (world : σ),
    (sink.history outlet world calls).map Entry.call = calls.map Prod.snd
  | [], _, _ => rfl
  | (_, call) :: calls, _, _ => congrArg (call :: ·) (history_calls calls _ _)

end Histories

/-- The part of a history behind the last reset. -/
def sinceReset (entries : List Entry) : List Entry := entries.rtakeWhile fun e => !e.call.isReset

theorem sinceReset_concat (entries : List Entry) (e : Entry) :
    sinceReset (entries ++ [e]) = if e.call.isReset then [] else sinceReset entries ++ [e] := by
  unfold sinceReset
  rw [List.rtakeWhile_concat]
  cases e.call.isReset <;> rfl

end Sink

/-! ## Counters -/

namespace Metrics

/-- Counts a write by what it came to. -/
def countWrite (m : Metrics) (w : Written) : Metrics :=
  match w.result with
  | .ok n => m.countDelivery n
  | .error _ => m.countFailure

/-- **Counting some writes**: those that succeeded, their bytes and those that failed. -/
theorem countWrites : ∀ (ws : List Written) (m : Metrics),
    ws.foldl countWrite m =
      { m with
        deliveries := m.deliveries + .ofNat (ws.countP fun w => !w.failed)
        bytesWritten := m.bytesWritten + .ofNat (ws.map Written.size).sum
        writeErrors := m.writeErrors + .ofNat (ws.countP Written.failed) }
  | [], m => by simp
  | w :: ws, m => by
    rw [List.foldl_cons, countWrites ws]
    rcases w with ⟨writer, bytes, e | n⟩ <;>
      simp [countWrite, countFailure, countDelivery, Written.failed, Written.size, errorOf?,
        Except.toOption, List.countP_cons, UInt64.ofNat_add, UInt64.add_assoc, UInt64.add_comm 1]

/-- What the counters say of a history that begins with a reset. They count modulo `2 ^ 64`. -/
structure Counts (table : RouteTable) (entries : List Sink.Entry) (m : Metrics) : Prop where
  /-- Every `emit` counts, also one that no route takes; a `log` counts where a route takes it. -/
  records : m.recordsEmitted.toNat = entries.countP (·.call.delivers table) % 2 ^ 64
  attempts : (m.deliveries + m.writeErrors).toNat =
    (entries.flatMap Sink.Entry.writes).length % 2 ^ 64
  deliveries : m.deliveries.toNat =
    (entries.flatMap Sink.Entry.writes).countP (fun w => !w.failed) % 2 ^ 64
  errors : m.writeErrors.toNat = (entries.map (·.failures.length)).sum % 2 ^ 64
  bytes : m.bytesWritten.toNat =
    ((entries.flatMap Sink.Entry.writes).map Written.size).sum % 2 ^ 64
  flushes : m.flushes.toNat = entries.countP (·.call.isFlush) % 2 ^ 64

/-- The counters of a history. -/
def ofEntries (table : RouteTable) (entries : List Sink.Entry) : Metrics where
  recordsEmitted := .ofNat (entries.countP (·.call.delivers table))
  deliveries := .ofNat ((entries.flatMap Sink.Entry.writes).countP fun w => !w.failed)
  bytesWritten := .ofNat ((entries.flatMap Sink.Entry.writes).map Written.size).sum
  writeErrors := .ofNat ((entries.flatMap Sink.Entry.writes).countP Written.failed)
  flushes := .ofNat (entries.countP (·.call.isFlush))

theorem ofEntries_concat (table : RouteTable) (entries : List Sink.Entry) (e : Sink.Entry) :
    ofEntries table (entries ++ [e]) =
      e.writes.foldl countWrite
        { ofEntries table entries with
          recordsEmitted := (ofEntries table entries).recordsEmitted +
            .ofNat (if e.call.delivers table then 1 else 0)
          flushes := (ofEntries table entries).flushes + .ofNat (if e.call.isFlush then 1 else 0) } := by
  rw [countWrites]
  simp [ofEntries, UInt64.ofNat_add, List.countP_cons]

end Metrics

namespace Sink

/-! ## Deliveries -/

section Deliveries

variable {σ : Type} (outlet : Outlet σ) (now : Nat) (bytes : Bytes) {destination : Nat → String}

/-- The delivery with an audit beside its world. -/
def Delivery.withAudit (d : Delivery σ) (seen : List Written) : Delivery (σ × List Written) :=
  ⟨(d.world, seen), d.metrics, d.reports, d.attempted, d.failures, d.made⟩

theorem deliver_audited (d : Delivery σ) (slot : Slot)
    (hd : slot.destination = destination slot.writer) :
    ∃ w : Written,
      (∀ seen, deliver outlet.audited now bytes (d.withAudit seen) slot =
        (deliver outlet now bytes d slot).withAudit (seen ++ [w])) ∧
      (deliver outlet now bytes d slot).attempted = d.attempted + 1 ∧
      (deliver outlet now bytes d slot).failures = d.failures ++ (w.failure? destination).toList ∧
      (deliver outlet now bytes d slot).metrics = d.metrics.countWrite w := by
  rcases hw : outlet.write slot.writer bytes d.world with ⟨e | n, after⟩
  · refine ⟨⟨slot.writer, bytes, .error e⟩, fun seen => ?_, ?_, ?_, ?_⟩
    · simp only [deliver, Outlet.audited, Delivery.withAudit, hw]
      cases (d.reports.note now slot.destination e.message).1 <;> rfl
    · simp only [deliver, hw]
    · simp only [deliver, hw, hd]
      rfl
    · simp only [deliver, hw]
      rfl
  · refine ⟨⟨slot.writer, bytes, .ok n⟩, fun seen => ?_, ?_, ?_, ?_⟩
    · simp only [deliver, Outlet.audited, Delivery.withAudit, hw]
    · simp only [deliver, hw]
    · simp only [deliver, hw]
      exact (List.append_nil _).symm
    · simp only [deliver, hw]
      rfl

theorem foldl_deliver_audited : ∀ (slots : List Slot)
    (_ : ∀ slot ∈ slots, slot.destination = destination slot.writer) (d : Delivery σ),
    ∃ ws : List Written,
      (∀ seen, slots.foldl (deliver outlet.audited now bytes) (d.withAudit seen) =
        (slots.foldl (deliver outlet now bytes) d).withAudit (seen ++ ws)) ∧
      (slots.foldl (deliver outlet now bytes) d).attempted = d.attempted + ws.length ∧
      (slots.foldl (deliver outlet now bytes) d).failures =
        d.failures ++ ws.filterMap (Written.failure? destination) ∧
      (slots.foldl (deliver outlet now bytes) d).metrics = ws.foldl Metrics.countWrite d.metrics
  | [], _, d => ⟨[], by simp, rfl, by simp, rfl⟩
  | slot :: slots, hd, d => by
    obtain ⟨w, hstep, hattempted, hfailures, hmetrics⟩ :=
      deliver_audited outlet now bytes d slot (hd slot List.mem_cons_self)
    obtain ⟨ws, hrest, hattempted', hfailures', hmetrics'⟩ :=
      foldl_deliver_audited slots (fun s hs => hd s (List.mem_cons_of_mem _ hs))
        (deliver outlet now bytes d slot)
    refine ⟨w :: ws, fun seen => ?_, ?_, ?_, ?_⟩
    · rw [List.foldl_cons, List.foldl_cons, hstep, hrest, List.append_assoc, List.singleton_append]
    · rw [List.foldl_cons, hattempted', hattempted, List.length_cons]
      omega
    · rw [List.foldl_cons, hfailures', hfailures, List.append_assoc, List.filterMap_cons]
      cases w.failure? destination <;> rfl
    · rw [List.foldl_cons, hmetrics', hmetrics, List.foldl_cons]

theorem answered_of_failures (call : SinkCall) (ws : List Written) :
    Entry.Answered destination ⟨call, ws,
      if (ws.filterMap (Written.failure? destination)).isEmpty then .ok ()
      else .error ⟨ws.filterMap (Written.failure? destination), ws.length⟩⟩ := by
  have hlength := Written.length_failures destination ws
  have hempty : (ws.filterMap (Written.failure? destination)).isEmpty = true ↔
      ∀ w ∈ ws, w.failed = false := by
    rw [List.isEmpty_iff_length_eq_zero, hlength, List.countP_eq_zero]
    simp
  have hall : ws.length ≤ ws.countP Written.failed ↔ ∀ w ∈ ws, w.failed = true := by
    rw [← List.countP_eq_length]
    have := @List.countP_le_length _ Written.failed ws
    omega
  split_ifs with h
  · exact ⟨iff_of_true rfl (hempty.mp h), nofun, nofun, nofun⟩
  · refine ⟨iff_of_false nofun fun hok => h (hempty.mpr hok), ?_, ?_, ?_⟩ <;> rintro _ ⟨⟩
    · rfl
    · rfl
    · rw [← hall, ← hlength]
      exact decide_eq_true_iff

/-- **A delivery tells of its writes**: what it returns names those that failed, and its counters
count the record and the writes. -/
theorem emit_audited (sink : Sink)
    (hd : ∀ slot ∈ sink.slots, slot.destination = destination slot.writer) (world : σ)
    (severity : Severity) (call : SinkCall) :
    ∃ ws : List Written,
      (∀ seen, sink.emit outlet.audited now (world, seen) severity bytes =
        { result := (sink.emit outlet now world severity bytes).result
          made := (sink.emit outlet now world severity bytes).made
          sink := (sink.emit outlet now world severity bytes).sink
          world := ((sink.emit outlet now world severity bytes).world, seen ++ ws) }) ∧
      Entry.Answered destination ⟨call, ws, (sink.emit outlet now world severity bytes).result⟩ ∧
      (sink.emit outlet now world severity bytes).sink.metrics =
        ws.foldl Metrics.countWrite sink.metrics.countRecord := by
  have htargets : ∀ slot ∈ sink.targets severity, slot.destination = destination slot.writer := by
    intro slot hslot
    obtain ⟨pipeline, _, hslot⟩ := List.mem_flatMap.mp hslot
    obtain ⟨i, _, hi⟩ := List.mem_filterMap.mp hslot
    exact hd slot (List.mem_of_getElem? hi)
  obtain ⟨ws, hfold, hattempted, hfailures, hmetrics⟩ := foldl_deliver_audited outlet now bytes
    (sink.targets severity) htargets ⟨world, sink.metrics.countRecord, sink.reports, 0, [], []⟩
  rw [Nat.zero_add] at hattempted
  rw [List.nil_append] at hfailures
  refine ⟨ws, fun seen => ?_, ?_, hmetrics⟩
  · have h := hfold seen
    simp only [Delivery.withAudit] at h
    unfold emit
    simp only [h]
  · unfold emit
    simp only [hattempted, hfailures]
    exact answered_of_failures call ws

theorem log_of_enabled {sink : Sink} {record : Record} (h : sink.enabled record.severity = true)
    (world : σ) : sink.log outlet now world record =
      sink.emit outlet now world record.severity (sink.encoder.encode sink.zone record) :=
  if_pos h

theorem log_of_not_enabled {sink : Sink} {record : Record} (h : sink.enabled record.severity = false)
    (world : σ) : sink.log outlet now world record = ⟨.ok (), [], sink, world⟩ :=
  if_neg (by simp [h])

end Deliveries

/-! ## Flushing and closing -/

section Upkeep

variable {σ : Type} (outlet : Outlet σ) (seen : List Written)

theorem syncSlots_audited : ∀ (slots : List Slot) (world : σ),
    syncSlots outlet.audited (world, seen) slots =
      ((syncSlots outlet world slots).1, (syncSlots outlet world slots).2, seen)
  | [], _ => rfl
  | slot :: slots, world => by
    have hsync : outlet.audited.sync slot.writer (world, seen) =
        ((outlet.sync slot.writer world).1, (outlet.sync slot.writer world).2, seen) := rfl
    simp only [syncSlots, hsync, syncSlots_audited slots]

theorem closeSlot_audited (slot : Slot) (world : σ) :
    closeSlot outlet.audited (world, seen) slot =
      ((closeSlot outlet world slot).1, (closeSlot outlet world slot).2.1,
        (closeSlot outlet world slot).2.2, seen) := by
  have hkind : outlet.audited.isFileBacked slot.writer (world, seen) =
      outlet.isFileBacked slot.writer world := rfl
  unfold closeSlot
  rw [hkind]
  split_ifs <;> rfl

theorem closeSlots_audited : ∀ (slots : List Slot) (world : σ),
    closeSlots outlet.audited (world, seen) slots =
      ((closeSlots outlet world slots).1, (closeSlots outlet world slots).2.1,
        (closeSlots outlet world slots).2.2, seen)
  | [], _ => rfl
  | slot :: slots, world => by
    simp only [closeSlots, closeSlot_audited, closeSlots_audited slots]

theorem closeSlots_destination {destination : Nat → String} : ∀ (slots : List Slot) (world : σ),
    (∀ slot ∈ slots, slot.destination = destination slot.writer) →
      ∀ slot ∈ (closeSlots outlet world slots).2.1, slot.destination = destination slot.writer
  | [], _, h => h
  | slot :: slots, world, h => by
    have hslot : (closeSlot outlet world slot).2.1.destination =
        destination (closeSlot outlet world slot).2.1.writer := by
      have hd := h slot List.mem_cons_self
      unfold closeSlot
      split_ifs <;> exact hd
    unfold closeSlots
    exact List.forall_mem_cons.mpr ⟨hslot, closeSlots_destination slots _
      fun s hs => h s (List.mem_cons_of_mem _ hs)⟩

end Upkeep

/-! ## The accounts over a run -/

section Accounts

variable {σ : Type} {table : RouteTable} {destination : Nat → String} {entries : List Entry}
  {sink : Sink}

/-- The counters of the sink agree with its history, and its slots have the first destinations of
their writers. -/
structure Accounted (table : RouteTable) (destination : Nat → String) (entries : List Entry)
    (sink : Sink) : Prop where
  table_eq : sink.table = table
  destination : ∀ slot ∈ sink.slots, slot.destination = destination slot.writer
  metrics : sink.metrics = .ofEntries table (sinceReset entries)

theorem Entry.answered_nil (call : SinkCall) : Entry.Answered destination ⟨call, [], .ok ()⟩ :=
  answered_of_failures call []

namespace Accounted

theorem metrics_concat (h : Accounted table destination entries sink) {e : Entry}
    (he : e.call.isReset = false) :
    Metrics.ofEntries table (sinceReset (entries ++ [e])) =
      e.writes.foldl Metrics.countWrite
        { sink.metrics with
          recordsEmitted := sink.metrics.recordsEmitted +
            .ofNat (if e.call.delivers table then 1 else 0)
          flushes := sink.metrics.flushes + .ofNat (if e.call.isFlush then 1 else 0) } := by
  rw [sinceReset_concat, he, if_neg Bool.false_ne_true, Metrics.ofEntries_concat, h.metrics]

theorem deliver (h : Accounted table destination entries sink) (outlet : Outlet σ) (now : Nat)
    (world : σ) (severity : Severity) (bytes : Bytes) (call : SinkCall)
    (hdelivers : call.delivers table = true) (hreset : call.isReset = false)
    (hflush : call.isFlush = false) :
    ∃ ws : List Written,
      (∀ seen, sink.emit outlet.audited now (world, seen) severity bytes =
        { result := (sink.emit outlet now world severity bytes).result
          made := (sink.emit outlet now world severity bytes).made
          sink := (sink.emit outlet now world severity bytes).sink
          world := ((sink.emit outlet now world severity bytes).world, seen ++ ws) }) ∧
      Entry.Answered destination ⟨call, ws, (sink.emit outlet now world severity bytes).result⟩ ∧
      Accounted table destination
        (entries ++ [⟨call, ws, (sink.emit outlet now world severity bytes).result⟩])
        (sink.emit outlet now world severity bytes).sink := by
  obtain ⟨ws, haudit, hanswered, hmetrics⟩ :=
    emit_audited outlet now bytes sink h.destination world severity call
  refine ⟨ws, haudit, hanswered, h.table_eq, h.destination, ?_⟩
  rw [h.metrics_concat hreset, hmetrics]
  simp [Metrics.countRecord, hdelivers, hflush]

theorem idle (h : Accounted table destination entries sink) {call : SinkCall}
    (hdelivers : call.delivers table = false) (hreset : call.isReset = false) {sink' : Sink}
    (htable : sink'.table = sink.table)
    (hslots : ∀ slot ∈ sink'.slots, slot.destination = destination slot.writer)
    (hmetrics : sink'.metrics = { sink.metrics with
      flushes := sink.metrics.flushes + .ofNat (if call.isFlush then 1 else 0) }) :
    Accounted table destination (entries ++ [⟨call, [], .ok ()⟩]) sink' := by
  refine ⟨htable.trans h.table_eq, hslots, ?_⟩
  rw [h.metrics_concat hreset, hmetrics]
  simp [hdelivers]

/-- **One call of the sink** makes its own writes, tells of them, and is accounted for. -/
theorem perform (h : Accounted table destination entries sink) (outlet : Outlet σ) (now : Nat)
    (world : σ) (call : SinkCall) :
    (∀ seen, sink.perform outlet.audited now (world, seen) call =
      ((sink.perform outlet now world call).1, (sink.perform outlet now world call).2,
        seen ++ (sink.entry outlet now world call).writes)) ∧
    (sink.entry outlet now world call).Answered destination ∧
    Accounted table destination (entries ++ [sink.entry outlet now world call])
      (sink.perform outlet now world call).1 := by
  -- the writes of the entry are those of the call, whatever was seen before
  suffices hws : ∃ ws : List Written,
      (∀ seen, sink.perform outlet.audited now (world, seen) call =
        ((sink.perform outlet now world call).1, (sink.perform outlet now world call).2,
          seen ++ ws)) ∧
      Entry.Answered destination ⟨call, ws, sink.answer outlet now world call⟩ ∧
      Accounted table destination (entries ++ [⟨call, ws, sink.answer outlet now world call⟩])
        (sink.perform outlet now world call).1 by
    obtain ⟨ws, haudit, hrest⟩ := hws
    have hentry : sink.entry outlet now world call =
        ⟨call, ws, sink.answer outlet now world call⟩ := by
      unfold entry
      rw [haudit, List.nil_append]
    rw [hentry]
    exact ⟨haudit, hrest⟩
  cases call with
  | emit severity bytes =>
    obtain ⟨ws, haudit, hrest⟩ := h.deliver outlet now world severity bytes (.emit severity bytes)
      rfl rfl rfl
    exact ⟨ws, fun seen => by simp only [Sink.perform, haudit], hrest⟩
  | log record =>
    cases henabled : sink.enabled record.severity with
    | true =>
      have hdelivers : (SinkCall.log record).delivers table = true := h.table_eq ▸ henabled
      obtain ⟨ws, haudit, hrest⟩ := h.deliver outlet now world record.severity
        (sink.encoder.encode sink.zone record) (.log record) hdelivers rfl rfl
      simp only [Sink.perform, answer, log_of_enabled _ now henabled]
      exact ⟨ws, fun seen => by rw [haudit], hrest⟩
    | false =>
      have hdelivers : (SinkCall.log record).delivers table = false := h.table_eq ▸ henabled
      simp only [Sink.perform, answer, log_of_not_enabled _ now henabled]
      exact ⟨[], by simp, Entry.answered_nil _,
        h.idle hdelivers rfl rfl h.destination (by simp [SinkCall.isFlush])⟩
  | flush =>
    refine ⟨[], fun seen => ?_, Entry.answered_nil _, h.idle rfl rfl rfl h.destination ?_⟩
    · simp only [Sink.perform, Sink.flush, syncSlots_audited, List.append_nil]
    · simp [Sink.perform, Sink.flush, Metrics.countFlush, SinkCall.isFlush]
  | close =>
    refine ⟨[], fun seen => ?_, Entry.answered_nil _,
      h.idle rfl rfl rfl (closeSlots_destination outlet sink.slots world h.destination) ?_⟩
    · simp only [Sink.perform, Sink.close, closeSlots_audited, List.append_nil]
    · simp [Sink.perform, Sink.close, SinkCall.isFlush]
  | reset =>
    refine ⟨[], fun seen => ?_, Entry.answered_nil _, h.table_eq, h.destination, ?_⟩
    · simp only [Sink.perform, List.append_nil]
    · rw [sinceReset_concat]
      rfl

/-- **Over a run** the audit has the writes of the history, every call tells of its writes, and the
counters agree with the history. -/
theorem performAll (outlet : Outlet σ) : ∀ (calls : List (Nat × SinkCall)) {entries : List Entry}
    {sink : Sink}, Accounted table destination entries sink →
    ∀ (world : σ) (seen : List Written),
      sink.performAll outlet.audited (world, seen) calls =
        ((sink.performAll outlet world calls).1, (sink.performAll outlet world calls).2,
          seen ++ (sink.history outlet world calls).flatMap Entry.writes) ∧
      (∀ entry ∈ sink.history outlet world calls, entry.Answered destination) ∧
      Accounted table destination (entries ++ sink.history outlet world calls)
        (sink.performAll outlet world calls).1
  | [], _, _, h, world, seen => by simpa [Sink.performAll, Sink.history] using h
  | (now, call) :: calls, entries, sink, h, world, seen => by
    obtain ⟨haudit, hanswered, hstep⟩ := h.perform outlet now world call
    obtain ⟨hrun, hall, hend⟩ := performAll outlet calls hstep
      (sink.perform outlet now world call).2
      (seen ++ (sink.entry outlet now world call).writes)
    refine ⟨?_, List.forall_mem_cons.mpr ⟨hanswered, hall⟩, ?_⟩
    · unfold Sink.performAll
      rw [haudit]
      simp only [hrun, List.append_assoc]
      rfl
    · rw [List.append_assoc] at hend
      exact hend

end Accounted

theorem counts_ofEntries (table : RouteTable) {entries : List Entry}
    (h : ∀ entry ∈ entries, entry.Answered destination) :
    (Metrics.ofEntries table entries).Counts table entries := by
  have hfailures : ∀ entry ∈ entries, entry.failures.length = entry.writes.countP Written.failed := by
    intro entry hentry
    have hanswered := h entry hentry
    unfold Entry.failures
    cases hresult : entry.result with
    | ok _ =>
      have hnone : entry.writes.countP Written.failed = 0 :=
        List.countP_eq_zero.mpr fun w hw => by simp [hanswered.ok_iff.mp hresult w hw]
      exact hnone.symm
    | error e =>
      change e.failures.length = _
      rw [hanswered.failures_eq e hresult, Written.length_failures]
  have herrors : (entries.map (·.failures.length)).sum =
      (entries.flatMap Entry.writes).countP Written.failed := by
    rw [List.countP_flatMap]
    exact congrArg List.sum (List.map_congr_left hfailures)
  have hall : ∀ ws : List Written,
      ws.countP (fun w => !w.failed) + ws.countP Written.failed = ws.length := fun ws => by
    simp [List.length_eq_countP_add_countP Written.failed, Nat.add_comm]
  constructor <;> simp only [Metrics.ofEntries, UInt64.toNat_ofNat']
  · rw [← UInt64.ofNat_add, UInt64.toNat_ofNat', hall]
  · rw [herrors]

/-- **Counters, errors and writes agree.** Over every run of calls of a new sink, the counters say of
the part behind the last reset, modulo `2 ^ 64`, how many records were delivered, how many writes
were made and how many of them failed, as the errors reported it, how many bytes the others wrote,
and how many flushes there were. Every call returned an error exactly if one of its writes failed,
and this error names the writes of the call that failed, in their order. -/
theorem counters_match_history {zone : Zone} {writers : List Nat} {encoder : Encoder}
    (h : ofParts zone table writers encoder = .ok sink) (outlet : Outlet σ) (world : σ)
    (calls : List (Nat × SinkCall)) :
    ∃ sink' world',
      sink.performAll outlet world calls = (sink', world') ∧
      sink.performAll outlet.audited (world, []) calls =
        (sink', world', (sink.history outlet world calls).flatMap Entry.writes) ∧
      (sink.history outlet world calls).map Entry.call = calls.map Prod.snd ∧
      sink'.metrics.Counts table (sinceReset (sink.history outlet world calls)) ∧
      ∀ entry ∈ sink.history outlet world calls,
        entry.Answered (table.firstDestination writers) := by
  have hnew : Accounted table (table.firstDestination writers) [] sink := by
    refine ⟨?_, fun slot hslot => ((ofParts_slots h).2 slot hslot).2, ?_⟩ <;>
      · unfold ofParts at h
        split_ifs at h
        obtain rfl := Except.ok.inj h
        rfl
  obtain ⟨haudit, hanswered, hend⟩ := hnew.performAll outlet calls world []
  rw [List.nil_append] at haudit hend
  refine ⟨_, _, rfl, haudit, history_calls outlet calls sink world, ?_, hanswered⟩
  rw [hend.metrics]
  refine counts_ofEntries table fun entry hentry => hanswered entry ?_
  exact List.IsSuffix.mem hentry (List.rtakeWhile_suffix _ _)

/-- A writer that is full beside one that is not. -/
def halfFullOutlet : Outlet Unit where
  write writer bytes _ := (if writer = 7 then .error .storageFull else .ok bytes.length, ())
  sync _ _ := (.ok (), ())
  close _ _ := (.ok (), ())
  isFileBacked _ _ := false

/-- Writer 7 is full. Behind the reset there are an error for both writers, an `info` that no route
takes and a flush. -/
theorem counters_match_history_half_full :
    ∃ sink sink',
      ofParts .utc ⟨[⟨.all, .atLeast .warn, [⟨0⟩, ⟨1⟩]⟩], #["a", "b"], []⟩ [7, 4] .json = .ok sink ∧
      (sink.performAll halfFullOutlet ()
        [(0, .emit .error [104]), (0, .reset), (0, .emit .error [104, 105]), (0, .emit .info [104]),
          (0, .flush)]).1 = sink' ∧
      sink'.metrics.recordsEmitted.toNat = 2 ∧
      (sink'.metrics.deliveries + sink'.metrics.writeErrors).toNat = 2 ∧
      sink'.metrics.writeErrors.toNat = 1 ∧ sink'.metrics.bytesWritten.toNat = 2 ∧
      sink'.metrics.flushes.toNat = 1 := by
  obtain ⟨sink, hsink⟩ : ∃ sink, ofParts .utc
      ⟨[⟨.all, .atLeast .warn, [⟨0⟩, ⟨1⟩]⟩], #["a", "b"], []⟩ [7, 4] .json = .ok sink := ⟨_, rfl⟩
  obtain ⟨sink', world', hrun, _, _, hcounts, _⟩ := counters_match_history hsink halfFullOutlet ()
    [(0, .emit .error [104]), (0, .reset), (0, .emit .error [104, 105]), (0, .emit .info [104]),
      (0, .flush)]
  refine ⟨sink, sink', hsink, congrArg Prod.fst hrun, ?_, ?_, ?_, ?_, ?_⟩
  · exact hcounts.records.trans (by obtain rfl := Except.ok.inj hsink; rfl)
  · exact hcounts.attempts.trans (by obtain rfl := Except.ok.inj hsink; rfl)
  · exact hcounts.errors.trans (by obtain rfl := Except.ok.inj hsink; rfl)
  · exact hcounts.bytes.trans (by obtain rfl := Except.ok.inj hsink; rfl)
  · exact hcounts.flushes.trans (by obtain rfl := Except.ok.inj hsink; rfl)

end Accounts

end Sink

end LogRouter
