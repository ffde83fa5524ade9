import LogRouter.Proofs.Route.Registration
import LogRouter.Proofs.Sink.Counting

/-!
# Which severities are enabled

A sink asks its table whether a severity is enabled, and delivers by its pipelines and slots.

* `RouteTable.minLevel?_spec`: the least level of a table with routes is the least severity that it
  takes.
* `RouteTable.recipients_eq_nil_iff`: a sound table leads to some writer where it takes a severity.
* `Sink.Outcome.withRecords`: an outcome with another count of records.
* **`log_agrees_with_emit`**: a severity is enabled exactly if a delivery makes a write, and logging
  a record is delivering it, apart from the count of records that nobody gets.
-/

namespace LogRouter

/-! ## The least level -/

namespace Severity

theorem rank_getElem_all : ∀ i (h : i < all.length), all[i].rank = i := by decide

theorem le_of_find?_all {p : Severity → Bool} {s t : Severity} (h : all.find? p = some s)
    (ht : p t = true) : s ≤ t := by
  obtain ⟨-, i, hi, rfl, hbefore⟩ := List.find?_eq_some_iff_getElem.mp h
  obtain ⟨j, hj, rfl⟩ := List.getElem_of_mem (mem_all t)
  rw [le_iff_rank_le, rank_getElem_all, rank_getElem_all]
  by_contra hlt
  have hfirst := hbefore j (Nat.lt_of_not_le hlt)
  rw [ht] at hfirst
  cases hfirst

end Severity

namespace RouteTable

variable {table : RouteTable} {writers : List Nat} {severity : Severity}

/-- **The least level** of a table with routes is the least severity that it takes. -/
theorem minLevel?_spec (h : table.routes ≠ []) :
    ∃ least, table.minLevel? = some least ∧ table.accepts least = true ∧
      ∀ severity, table.accepts severity = true → least ≤ severity := by
  have hfloor : ∀ route ∈ table.routes,
      table.routes.any (fun r => decide (r.filter.floor = route.filter.floor)) = true :=
    fun route hroute => List.any_eq_true.mpr ⟨route, hroute, decide_eq_true rfl⟩
  cases hleast : table.minLevel? with
  | none =>
    obtain ⟨route, hroute⟩ := List.exists_mem_of_ne_nil _ h
    have hnone := List.find?_eq_none.mp hleast route.filter.floor (Severity.mem_all _)
    exact absurd (hfloor route hroute) hnone
  | some least =>
    refine ⟨least, rfl, ?_, fun severity hsome => ?_⟩
    · have hfound := List.find?_some hleast
      obtain ⟨route, hroute, heq⟩ := List.any_eq_true.mp hfound
      have hown := route.filter.accepts_floor
      rw [of_decide_eq_true heq] at hown
      exact List.any_eq_true.mpr ⟨route, hroute, hown⟩
    · -- a route that takes the severity has its floor at most there
      obtain ⟨route, hroute, haccepts⟩ := List.any_eq_true.mp hsome
      have hle : least ≤ route.filter.floor :=
        Severity.le_of_find?_all hleast (hfloor route hroute)
      exact Nat.le_trans hle (LevelFilter.floor_le_of_accepts haccepts)

/-! ## Writes of an enabled severity -/

/-- **A sound table leads to a writer** exactly where it takes the severity. -/
theorem recipients_eq_nil_iff (hsound : table.Sound)
    (hsize : writers.length = table.destinations.size) :
    table.recipients writers severity = [] ↔ table.accepts severity = false := by
  refine ⟨fun hnil => ?_, fun h => recipients_of_not_accepts h writers⟩
  by_contra haccepts
  rw [Bool.not_eq_false] at haccepts
  obtain ⟨route, hroute, htakes⟩ := List.any_eq_true.mp haccepts
  obtain ⟨id, hid⟩ := List.exists_mem_of_ne_nil _ (hsound.nonempty route hroute)
  have hlt : id.place < writers.length := hsize ▸ hsound.place_lt route hroute id hid
  have howner : writers[id.place] ∈ route.owners writers :=
    List.mem_filterMap.mpr ⟨id, hid, List.getElem?_eq_getElem hlt⟩
  have hmem : writers[id.place] ∈ table.recipients writers severity :=
    List.mem_flatMap.mpr
      ⟨route, List.mem_filter.mpr ⟨hroute, htakes⟩, List.mem_eraseDups.mpr howner⟩
  rw [hnil] at hmem
  cases hmem

end RouteTable

namespace Sink

section Enabled

variable {σ : Type} {zone : Zone} {table : RouteTable} {writers : List Nat} {encoder : Encoder}
  {sink : Sink}

theorem ofParts_table (h : ofParts zone table writers encoder = .ok sink) :
    sink.table = table ∧ writers.length = table.destinations.size := by
  unfold ofParts at h
  split_ifs at h with hsize
  obtain rfl := Except.ok.inj h
  exact ⟨rfl, not_not.mp hsize⟩

/-- The outcome with another count of records. -/
def Outcome.withRecords (o : Outcome σ) (count : UInt64) : Outcome σ :=
  { o with sink := { o.sink with metrics := { o.sink.metrics with recordsEmitted := count } } }

theorem foldl_deliver_records (outlet : Outlet σ) (now : Nat) (bytes : Bytes) :
    ∀ (slots : List Slot) (d : Delivery σ),
      (slots.foldl (deliver outlet now bytes) d).metrics.recordsEmitted = d.metrics.recordsEmitted
  | [], _ => rfl
  | slot :: slots, d => by
    have hstep : (deliver outlet now bytes d slot).metrics.recordsEmitted =
        d.metrics.recordsEmitted := by
      rcases hw : outlet.write slot.writer bytes d.world with ⟨e | n, after⟩ <;>
        simp [deliver, hw, Metrics.countFailure, Metrics.countDelivery]
    rw [List.foldl_cons, foldl_deliver_records outlet now bytes slots, hstep]

theorem emit_records (outlet : Outlet σ) (now : Nat) (sink : Sink) (world : σ) (severity : Severity)
    (bytes : Bytes) : (sink.emit outlet now world severity bytes).sink.metrics.recordsEmitted =
      sink.metrics.recordsEmitted + 1 :=
  foldl_deliver_records outlet now bytes _ _

theorem emit_of_no_targets (outlet : Outlet σ) (now : Nat) {sink : Sink} (world : σ)
    {severity : Severity} (bytes : Bytes) (h : sink.targets severity = []) :
    sink.emit outlet now world severity bytes =
      ⟨.ok (), [], { sink with metrics := sink.metrics.countRecord }, world⟩ := by
  unfold emit
  rw [h]
  rfl

/-- Where the sink has a writer for every severity that it takes, **logging is delivering**, apart from
the count of records that nobody gets. -/
theorem log_eq_emit (outlet : Outlet σ) (now : Nat) (world : σ) (r : Record)
    (h : sink.enabled r.severity = false → sink.targets r.severity = []) :
    sink.log outlet now world r =
      (sink.emit outlet now world r.severity (sink.encoder.encode sink.zone r)).withRecords
        (sink.metrics.recordsEmitted + if sink.enabled r.severity then 1 else 0) := by
  cases henabled : sink.enabled r.severity with
  | true =>
    rw [log_of_enabled outlet now henabled, if_pos rfl, ← emit_records outlet now]
    rfl
  | false =>
    rw [log_of_not_enabled outlet now henabled, emit_of_no_targets _ _ _ _ (h henabled),
      if_neg Bool.false_ne_true, UInt64.add_zero]
    rfl

/-- **Logging agrees with delivering.** For every table that is compiled, every sink over it and every
run of calls of the sink: a severity is enabled exactly if a delivery of any bytes makes a write.
Logging a record makes the same writes in the same order, the same reports and the same result as
delivering its encoding, and leaves the same sink and world; only the record is not counted if its
severity is not enabled. And the least level is the least severity that is enabled. -/
theorem log_agrees_with_emit {ds : List String} {mode : RoutingMode} {minLevel : Severity}
    {rules : List Rule}
    (h : RouteTable.compile (Registry.empty.callEach ds).2 mode minLevel rules = .ok table)
    (hsink : ofParts zone table writers encoder = .ok sink) (outlet : Outlet σ) (world : σ)
    (calls : List (Nat × SinkCall)) :
    ∃ sink' world', sink.performAll outlet world calls = (sink', world') ∧
      (∀ now severity bytes, sink'.enabled severity = true ↔
        (sink'.emit outlet.recorded now (world', []) severity bytes).world.2 ≠ []) ∧
      (∀ now r,
        let emitted := sink'.emit outlet.recorded now (world', []) r.severity
          (sink'.encoder.encode sink'.zone r)
        emitted.sink.metrics.recordsEmitted = sink'.metrics.recordsEmitted + 1 ∧
        sink'.log outlet.recorded now (world', []) r = emitted.withRecords
          (sink'.metrics.recordsEmitted + if sink'.enabled r.severity then 1 else 0)) ∧
      ∃ least, sink'.minLevel? = some least ∧ sink'.enabled least = true ∧
        ∀ severity, sink'.enabled severity = true → least ≤ severity := by
  have hdense := (Registry.holds_empty.callEach ds).1.dense
  have hsound := RouteTable.sound_of_compile hdense h
  obtain ⟨htable, hsize⟩ := ofParts_table hsink
  have hsame := performAll_sameRouting outlet calls sink world
  set sink' := (sink.performAll outlet world calls).1
  have htable' : sink'.table = table := hsame.table.trans htable
  have htargets : ∀ severity, (sink'.targets severity).map Slot.writer = [] ↔
      sink'.enabled severity = false := by
    intro severity
    rw [hsame.targets, ofParts_targets hsink, RouteTable.recipients_eq_nil_iff hsound hsize, enabled,
      htable']
  refine ⟨sink', _, rfl, fun now severity bytes => ?_, fun now r => ⟨?_, ?_⟩, ?_⟩
  · rw [emit_recorded, List.nil_append, ne_eq, List.map_eq_nil_iff, htargets, Bool.not_eq_false]
  · exact emit_records _ _ _ _ _ _
  · exact log_eq_emit _ _ _ _ fun hdisabled =>
      List.map_eq_nil_iff.mp ((htargets r.severity).mpr hdisabled)
  · obtain ⟨-, -, -, -, hne, -⟩ := RouteTable.compile_eq_ok_of_dense hdense h
    rw [minLevel?, htable']
    simp only [enabled, htable']
    exact RouteTable.minLevel?_spec hne

/-- One route takes what is at or above `warn`; one of its two destinations was registered before it,
and both have one writer. -/
theorem log_agrees_with_emit_above_warn :
    ∃ table sink, RouteTable.compile (Registry.empty.callEach ["b"]).2 .above .info
        [⟨"warn", ["a", "b"]⟩] = .ok table ∧
      ofParts .utc table [4, 4] .json = .ok sink ∧ sink.minLevel? = some .warn ∧
      sink.enabled .error = true ∧
      (sink.emit (Outlet.recorded halfFullOutlet) 0 ((), []) .error []).world.2 ≠ [] ∧
      sink.enabled .info = false ∧
      ¬ (sink.emit (Outlet.recorded halfFullOutlet) 0 ((), []) .info []).world.2 ≠ [] := by
  have harranged : RouteTable.arranged (RouteTable.kept .above .info [⟨"warn", ["a", "b"]⟩]) =
      [⟨.level .warn, .atLeast .warn, ["a", "b"]⟩] := by
    rw [RouteTable.arranged_eq_buckets]
    decide
  obtain ⟨table, h, hdest, hroutes⟩ : ∃ table, RouteTable.compile (Registry.empty.callEach ["b"]).2
      .above .info [⟨"warn", ["a", "b"]⟩] = .ok table ∧ table.destinations = #["b", "a"] ∧
      table.routes = [⟨.level .warn, .atLeast .warn, [⟨1⟩, ⟨0⟩]⟩] := by
    simp [RouteTable.compile, harranged, RouteTable.routesOf, Registry.registerAll, Registry.register,
      Registry.id?, Registry.empty, Registry.callEach, Registry.call, WriterId.maxIndex,
      Std.HashMap.getElem_insert, List.eraseDups_cons]
  obtain ⟨sink, hsink⟩ : ∃ sink, ofParts .utc table [4, 4] .json = .ok sink := by
    unfold ofParts
    rw [hdest]
    exact ⟨_, rfl⟩
  obtain ⟨sink', world', hrun, hwrites, -, least, hleast, henabled, hmin⟩ :=
    log_agrees_with_emit h hsink halfFullOutlet () []
  obtain ⟨rfl, rfl⟩ : sink = sink' ∧ () = world' := ⟨congrArg Prod.fst hrun, rfl⟩
  have htakes : ∀ severity, sink.enabled severity = decide (.warn ≤ severity) := fun severity => by
    rw [enabled, (ofParts_table hsink).1, RouteTable.accepts, hroutes]
    exact Bool.or_false _
  have hwarn : least = .warn := by
    rw [htakes, decide_eq_true_eq] at henabled
    have hle := hmin .warn (by rw [htakes]; rfl)
    exact Severity.rank_inj (Nat.le_antisymm hle henabled)
  have herror : sink.enabled .error = true := by rw [htakes]; rfl
  have hinfo : sink.enabled .info = false := by rw [htakes]; rfl
  refine ⟨table, sink, h, hsink, hwarn ▸ hleast, herror, (hwrites 0 .error []).mp herror, hinfo,
    fun hsome => ?_⟩
  rw [← hwrites, hinfo] at hsome
  cases hsome

end Enabled

end Sink

end LogRouter
