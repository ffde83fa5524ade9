import LogRouter.Proofs.Route.Table
import LogRouter.Proofs.Sink.Run
import LogRouter.Proofs.Sink.Slots

/-!
# Which writers a record reaches

* `RouteTable.ownerOf`: the writer of a destination, where each number of a table has its writer.
* `Rule.deliveries`: the writers that the rules ask for, in the order of the writes, said of the
  rules as they are configured.
* `ofParts_targets`: the targets of a sink are the deliveries of its rules.
* `count_deliveries`: a writer is asked for once by each rule that names one of its destinations.
* **`emit_follows_schedule`**: whatever was called before and however the single writes end, a
  delivery makes exactly these writes.
-/

namespace LogRouter

/-! ## The deliveries that rules ask for -/

/-- The writer of a destination, where `writers` gives the writer of each number of the table. -/
def RouteTable.ownerOf (table : RouteTable) (writers : List Nat) (destination : String) : Nat :=
  writers.getD (table.destinations.toList.idxOf destination) 0

namespace Rule

/-- The writers behind a rule, each once, in the order of their first occurrence. -/
def writers (owner : String → Nat) (rule : Rule) : List Nat :=
  (rule.destinations.map owner).eraseDups

/-- The writers that the rules ask for at a severity, in the order of the writes. -/
def deliveries (mode : RoutingMode) (minLevel : Severity) (owner : String → Nat)
    (rules : List Rule) (severity : Severity) : List Nat :=
  ((schedule mode rules).filter (·.takes mode minLevel severity)).flatMap (·.writers owner)

/-- The rule gives a route that takes the severity, and one of its destinations has the writer. -/
def reaches (mode : RoutingMode) (minLevel : Severity) (owner : String → Nat) (severity : Severity)
    (writer : Nat) (rule : Rule) : Bool :=
  rule.survives mode && rule.takes mode minLevel severity &&
    rule.destinations.any (owner · = writer)

/-- **A writer is asked for once by each rule that reaches it.** -/
theorem count_deliveries (mode : RoutingMode) (minLevel : Severity) (owner : String → Nat)
    (rules : List Rule) (severity : Severity) (writer : Nat) :
    (deliveries mode minLevel owner rules severity).count writer =
      (rules.filter (reaches mode minLevel owner severity writer)).length := by
  calc (deliveries mode minLevel owner rules severity).count writer
      = ((schedule mode rules).filter (·.takes mode minLevel severity)).countP fun rule =>
          decide (writer ∈ rule.destinations.map owner) :=
        count_flatMap_eraseDups (fun rule : Rule => rule.destinations.map owner) writer _
    _ = ((schedule mode rules).filter fun rule =>
          rule.destinations.any (owner · = writer) && rule.takes mode minLevel severity).length := by
        rw [List.countP_filter, List.countP_eq_length_filter]
        refine congrArg List.length (List.filter_congr fun rule _ => ?_)
        congr 1
        rw [Bool.eq_iff_iff, decide_eq_true_eq, List.mem_map, List.any_eq_true]
        simp
    _ = ((rules.filter (survives mode)).filter fun rule =>
          rule.destinations.any (owner · = writer) && rule.takes mode minLevel severity).length :=
        ((schedule_perm mode rules).filter _).length_eq
    _ = (rules.filter (reaches mode minLevel owner severity writer)).length := by
        rw [List.filter_filter]
        refine congrArg List.length (List.filter_congr fun rule _ => ?_)
        unfold reaches
        rw [Bool.and_comm, Bool.and_comm (rule.destinations.any _), Bool.and_assoc]

end Rule

/-! ## The targets of a sink -/

theorem flatMap_filter_filterMap {α β γ : Type} {f : α → Option β} {p : β → Bool} {q : α → Bool}
    {g : β → List γ} {h : α → List γ} : ∀ {l : List α},
    (∀ a ∈ l, ∃ b, f a = some b ∧ p b = q a ∧ g b = h a) →
      ((l.filterMap f).filter p).flatMap g = (l.filter q).flatMap h
  | [], _ => rfl
  | a :: l, hl => by
    obtain ⟨b, hf, hp, hg⟩ := hl a List.mem_cons_self
    have ih := flatMap_filter_filterMap fun a ha => hl a (List.mem_cons_of_mem _ ha)
    rw [List.filterMap_cons_some hf, List.filter_cons, List.filter_cons, hp]
    split_ifs
    · rw [List.flatMap_cons, List.flatMap_cons, ih, hg]
    · exact ih

namespace Sink

section Targets

variable {r : Registry} {ds : List String} {writers : List Nat}

theorem place_lt_of_mem (hr : r.Dense) (hsize : writers.length = r.destinations.size) :
    ∀ id ∈ ds.filterMap r.id?, id.place < writers.length := by
  intro id hid
  obtain ⟨d, _, hd⟩ := List.mem_filterMap.mp hid
  have hat := (hr.id?_eq_some_iff d id).mp hd
  rw [hsize]
  exact (Array.getElem?_eq_some_iff.mp hat).1

theorem writers_of_ids (hr : r.Dense) (hds : ∀ d ∈ ds, d ∈ r.destinations.toList) :
    ((ds.filterMap r.id?).map fun id => writers.getD id.place 0) =
      ds.map fun d => writers.getD (r.destinations.toList.idxOf d) 0 := by
  rw [List.map_filterMap]
  refine filterMap_eq_map_of_some fun d hd => ?_
  obtain ⟨id, hid, hplace⟩ := hr.id?_of_mem (hds d hd)
  rw [hid, Option.map_some, hplace]

end Targets

/-- What a sink of a compiled table is: every index of it is in range, and its targets are the
deliveries that the rules ask for. -/
structure Follows (sink : Sink) (mode : RoutingMode) (minLevel : Severity) (rules : List Rule)
    (owner : String → Nat) : Prop where
  slots_lt : ∀ pipeline ∈ sink.pipelines, ∀ i ∈ pipeline.slots, i < sink.slots.length
  targets : ∀ severity, (sink.targets severity).map Slot.writer =
    Rule.deliveries mode minLevel owner rules severity

/-- **The targets of a sink are the deliveries of its rules.** -/
theorem ofParts_follows {mode : RoutingMode} {minLevel : Severity} {rules : List Rule}
    {table : RouteTable} (h : RouteTable.compile .empty mode minLevel rules = .ok table)
    {writers : List Nat} (hsize : writers.length = table.destinations.size) (zone : Zone)
    (encoder : Encoder) :
    ∃ sink, ofParts zone table writers encoder = .ok sink ∧
      sink.Follows mode minLevel rules (table.ownerOf writers) := by
  obtain ⟨r, hdense, hdest, hroutes, hmem⟩ := RouteTable.compile_eq_ok h
  obtain ⟨hnodup, hplaces⟩ := allot_owners (hsize.trans (Array.length_toList ..).symm)
  unfold ofParts
  rw [if_neg (not_not_intro hsize)]
  rcases hallot : allot [] (table.destinations.toList.zip writers) with ⟨places, slots⟩
  rw [hallot] at hnodup hplaces
  have hlen : places.length = writers.length := by
    have := congrArg List.length hplaces
    rwa [List.length_map, List.length_map] at this
  have hids : ∀ keyed : KeyedRule, ∀ id ∈ keyed.destinations.filterMap r.id?,
      id.place < places.length := by
    rw [hlen]
    exact fun keyed => place_lt_of_mem hdense (by rw [hdest]; exact hsize)
  refine ⟨_, rfl, ?_, ?_⟩
  · intro pipeline hpipeline
    rw [hroutes, List.map_map, List.mem_map] at hpipeline
    obtain ⟨keyed, _, rfl⟩ := hpipeline
    exact pipeline_slots_lt hplaces rfl (hids keyed)
  · intro severity
    unfold Sink.targets Rule.deliveries
    simp only
    rw [hroutes, List.map_map, List.filter_map, List.flatMap_map, List.map_flatMap]
    refine flatMap_filter_filterMap fun rule hrule => ?_
    obtain ⟨keyed, hkept⟩ := RouteTable.exists_kept?_of_mem_schedule minLevel hrule
    obtain ⟨_, hds, haccepts, _⟩ := RouteTable.kept?_eq_some hkept
    refine ⟨keyed, hkept, haccepts severity, ?_⟩
    have hown : ((keyed.destinations.filterMap r.id?).map fun id => writers.getD id.place 0) =
        keyed.destinations.map fun d => writers.getD (r.destinations.toList.idxOf d) 0 := by
      refine writers_of_ids hdense fun d hd => ?_
      rw [hdest]
      exact hmem rule hrule d (hds ▸ hd)
    change List.map Slot.writer ((pipelineOf places.toArray
      (RouteTable.routeIn r keyed)).slots.filterMap fun i => slots[i]?) = _
    rw [pipeline_writers_of_ids hnodup hplaces rfl (hids keyed), hown, hds, hdest]
    rfl

/-- **A delivery makes exactly the writes that the rules ask for**, in their order, and no other
call, whatever was called before and however the single writes end. No index is out of range, and a
writer is written to once for each rule that reaches it. -/
theorem emit_follows_schedule {mode : RoutingMode} {minLevel : Severity} {rules : List Rule}
    {table : RouteTable} (h : RouteTable.compile .empty mode minLevel rules = .ok table)
    {writers : List Nat} (hsize : writers.length = table.destinations.size) (zone : Zone)
    (encoder : Encoder) :
    (∀ rule ∈ Rule.schedule mode rules, ∀ d ∈ rule.destinations,
      d ∈ table.destinations.toList) ∧
    (∀ route ∈ table.routes, ∀ id ∈ route.writers, id.place < writers.length) ∧
    ∃ sink, ofParts zone table writers encoder = .ok sink ∧
      (∀ pipeline ∈ sink.pipelines, ∀ i ∈ pipeline.slots, i < sink.slots.length) ∧
      ∀ severity,
        (∀ (σ : Type) (outlet : Outlet σ) (world : σ) (earlier : List (Nat × SinkCall))
            (sink' : Sink) (world' : σ), sink.performAll outlet world earlier = (sink', world') →
          ∀ now bytes, sink'.emit outlet.recorded now (world', []) severity bytes =
            { result := (sink'.emit outlet now world' severity bytes).result
              made := (sink'.emit outlet now world' severity bytes).made
              sink := (sink'.emit outlet now world' severity bytes).sink
              world := ((sink'.emit outlet now world' severity bytes).world,
                (Rule.deliveries mode minLevel (table.ownerOf writers) rules severity).map
                  (.write · bytes)) }) ∧
        ∀ writer, (Rule.deliveries mode minLevel (table.ownerOf writers) rules severity).count
            writer =
          (rules.filter
            (Rule.reaches mode minLevel (table.ownerOf writers) severity writer)).length := by
  obtain ⟨sink, hsink, hfollows⟩ := ofParts_follows h hsize zone encoder
  obtain ⟨r, hdense, hdest, hroutes, hmem⟩ := RouteTable.compile_eq_ok h
  refine ⟨hmem, ?_, sink, hsink, hfollows.slots_lt, fun severity => ⟨?_, ?_⟩⟩
  · intro route hroute id hid
    rw [hroutes, List.mem_map] at hroute
    obtain ⟨keyed, _, rfl⟩ := hroute
    exact place_lt_of_mem hdense (by rw [hdest]; exact hsize) id (List.mem_eraseDups.mp hid)
  · intro σ outlet world earlier sink' world' hrun now bytes
    have hsame := performAll_sameRouting outlet earlier sink world
    rw [hrun] at hsame
    rw [emit_recorded, List.nil_append, hsame.targets, hfollows.targets]
  · exact Rule.count_deliveries mode minLevel _ rules severity

/-- An error goes to the rule for `all` first. The two destinations of its own rule share writer 4,
which is written to once more, although writer 7 fails before. -/
theorem emit_follows_schedule_shared_writer :
    ∃ table sink,
      RouteTable.compile .empty .duplicate .info
        [⟨"Error ", ["a", "b"]⟩, ⟨"all", ["c", "a"]⟩, ⟨"bogus", ["z"]⟩] = .ok table ∧
      [7, 4, 4].length = table.destinations.size ∧
      ofParts .utc table [7, 4, 4] .json = .ok sink ∧
      (sink.emit (@Outlet.recorded Unit
        { write := fun writer bytes _ =>
            (if writer = 7 then .error .storageFull else .ok bytes.length, ())
          sync := fun _ _ => (.ok (), ())
          close := fun _ _ => (.ok (), ())
          isFileBacked := fun _ _ => false })
        0 ((), []) .error [104, 105]).world.2 =
          [.write 7 [104, 105], .write 4 [104, 105], .write 4 [104, 105]] := by
  have harranged : RouteTable.arranged (RouteTable.kept .duplicate .info
      [⟨"Error ", ["a", "b"]⟩, ⟨"all", ["c", "a"]⟩, ⟨"bogus", ["z"]⟩]) =
      [⟨.all, .atLeast .info, ["c", "a"]⟩, ⟨.level .error, .exactly .error, ["a", "b"]⟩] := by
    rw [RouteTable.arranged_eq_buckets]
    decide
  obtain ⟨table, hcompile, hdest⟩ : ∃ table, RouteTable.compile .empty .duplicate .info
      [⟨"Error ", ["a", "b"]⟩, ⟨"all", ["c", "a"]⟩, ⟨"bogus", ["z"]⟩] = .ok table ∧
      table.destinations = #["c", "a", "b"] := by
    simp [RouteTable.compile, harranged, RouteTable.routesOf, Registry.registerAll,
      Registry.register, Registry.id?, Registry.empty, WriterId.maxIndex]
  have hsize : [7, 4, 4].length = table.destinations.size := by rw [hdest]; rfl
  obtain ⟨_, _, sink, hsink, _, hemit⟩ := emit_follows_schedule hcompile hsize .utc .json
  refine ⟨table, sink, hcompile, hsize, hsink, ?_⟩
  have howner : table.ownerOf [7, 4, 4] =
      fun d => [7, 4, 4].getD (["c", "a", "b"].idxOf d) 0 := by
    funext d
    rw [RouteTable.ownerOf, hdest]
  rw [(hemit .error).1 Unit _ () [] sink () rfl, howner]
  change List.map _ _ = _
  decide

end Sink

end LogRouter
