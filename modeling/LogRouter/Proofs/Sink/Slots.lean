import LogRouter.Proofs.Route.FirstOccurrences
import LogRouter.Proofs.Route.Registry
import LogRouter.Sink.Composite

/-!
# Slots and pipelines

* `allot_spec`: every writer has one slot, and the place of a destination is the slot of its writer.
* `allot_writers`, `allot_destination`: the slots have the writers in the order of their first
  occurrence, each with the first destination that it serves.
* **`pipeline_writers`**: the slots of a pipeline are those of the writers behind its route, each
  once, in the order of their first occurrence.
* `ofParts_slots`, **`ofParts_targets`**: the slots of a new sink are its distinct writers, and a
  record goes to the writers that the table leads to, once for each route (`count_recipients`).
-/

namespace LogRouter

namespace Sink

/-! ## Allotting slots -/

/-- The writer of a slot. -/
def writerAt (slots : List Slot) (i : Nat) : Option Nat := (slots[i]?).map Slot.writer

theorem writerAt_of_prefix {slots slots' : List Slot} (h : slots <+: slots') {i w : Nat}
    (hi : writerAt slots i = some w) : writerAt slots' i = some w := by
  obtain ⟨tail, rfl⟩ := h
  unfold writerAt at hi ⊢
  cases hs : slots[i]? with
  | none => simp [hs] at hi
  | some slot =>
    rw [List.getElem?_append_left (List.getElem?_eq_some_iff.mp hs).1, hs]
    rwa [hs] at hi

theorem not_mem_of_findIdx?_none {slots : List Slot} {w : Nat}
    (h : slots.findIdx? (·.writer = w) = none) : w ∉ slots.map Slot.writer := by
  rw [List.mem_map]
  rintro ⟨slot, hslot, rfl⟩
  simpa using List.findIdx?_eq_none_iff.mp h slot hslot

theorem nodup_concat {slots : List Slot} (destination : String) {w : Nat}
    (hn : (slots.map Slot.writer).Nodup) (hfresh : w ∉ slots.map Slot.writer) :
    ((slots ++ [Slot.mk destination w false]).map Slot.writer).Nodup := by
  rw [List.map_append, List.nodup_append]
  refine ⟨hn, List.nodup_singleton _, fun a ha b hb hab => hfresh ?_⟩
  rw [List.map_singleton, List.mem_singleton] at hb
  rwa [hab, hb] at ha

theorem allot_spec : ∀ {pairs : List (String × Nat)} {slots : List Slot},
    (slots.map Slot.writer).Nodup →
      slots <+: (allot slots pairs).2 ∧ ((allot slots pairs).2.map Slot.writer).Nodup ∧
      (allot slots pairs).1.map (writerAt (allot slots pairs).2) = pairs.map fun p => some p.2
  | [], slots, hn => ⟨List.prefix_rfl, hn, rfl⟩
  | (d, w) :: pairs, slots, hn => by
    unfold allot
    split
    case h_1 i hi =>
      obtain ⟨hpre, hn', hplaces⟩ := @allot_spec pairs _ hn
      obtain ⟨hlt, hw, _⟩ := List.findIdx?_eq_some_iff_getElem.mp hi
      have hwi : writerAt slots i = some w := by
        unfold writerAt
        rw [List.getElem?_eq_getElem hlt, Option.map_some, of_decide_eq_true hw]
      refine ⟨hpre, hn', ?_⟩
      rw [List.map_cons, List.map_cons, hplaces, writerAt_of_prefix hpre hwi]
    case h_2 hnone =>
      obtain ⟨hpre, hn', hplaces⟩ :=
        @allot_spec pairs _ (nodup_concat d hn (not_mem_of_findIdx?_none hnone))
      have hwi : writerAt (slots ++ [Slot.mk d w false]) slots.length = some w := by
        simp [writerAt]
      refine ⟨(List.prefix_append _ _).trans hpre, hn', ?_⟩
      rw [List.map_cons, List.map_cons, hplaces, writerAt_of_prefix hpre hwi]

theorem allot_writers : ∀ {pairs : List (String × Nat)} {slots : List Slot},
    (slots.map Slot.writer).Nodup →
      (allot slots pairs).2.map Slot.writer =
        (slots.map Slot.writer ++ pairs.map Prod.snd).eraseDups
  | [], slots, hn => by rw [List.map_nil, List.append_nil, eraseDups_of_nodup hn]; rfl
  | (d, w) :: pairs, slots, hn => by
    unfold allot
    split
    case h_1 i hi =>
      obtain ⟨hlt, hw, _⟩ := List.findIdx?_eq_some_iff_getElem.mp hi
      have hmem : w ∈ slots.map Slot.writer :=
        List.mem_map.mpr ⟨slots[i], List.getElem_mem hlt, of_decide_eq_true hw⟩
      rw [List.map_cons, List.eraseDups_append, List.cons_removeAll, if_neg (by simpa using hmem),
        ← List.eraseDups_append]
      exact allot_writers hn
    case h_2 hnone =>
      have h := @allot_writers pairs _ (nodup_concat d hn (not_mem_of_findIdx?_none hnone))
      rw [List.map_append, List.append_assoc] at h
      exact h

theorem allot_destination : ∀ {pairs : List (String × Nat)} {slots : List Slot},
    ∀ slot ∈ (allot slots pairs).2, slot ∈ slots ∨
      slot.closed = false ∧ slot.writer ∉ slots.map Slot.writer ∧
        pairs.find? (·.2 = slot.writer) = some (slot.destination, slot.writer)
  | [], slots, slot, h => Or.inl h
  | (d, w) :: pairs, slots, slot, h => by
    unfold allot at h
    split at h
    case h_1 i hi =>
      rcases allot_destination slot h with h' | ⟨hopen, hfresh, hfind⟩
      · exact Or.inl h'
      · refine Or.inr ⟨hopen, hfresh, ?_⟩
        obtain ⟨hlt, hw, _⟩ := List.findIdx?_eq_some_iff_getElem.mp hi
        have hne : w ≠ slot.writer := by
          rintro rfl
          exact hfresh (List.mem_map.mpr ⟨slots[i], List.getElem_mem hlt, of_decide_eq_true hw⟩)
        rw [List.find?_cons_of_neg (by simpa using hne), hfind]
    case h_2 hnone =>
      rcases allot_destination slot h with h' | ⟨hopen, hfresh, hfind⟩
      · rcases List.mem_append.mp h' with h' | h'
        · exact Or.inl h'
        · obtain rfl := List.mem_singleton.mp h'
          refine Or.inr ⟨rfl, not_mem_of_findIdx?_none hnone, ?_⟩
          rw [List.find?_cons_of_pos (by simp)]
      · rw [List.map_append, List.mem_append, not_or] at hfresh
        refine Or.inr ⟨hopen, hfresh.1, ?_⟩
        have hne : w ≠ slot.writer := fun hw => hfresh.2 (by simp [hw])
        rw [List.find?_cons_of_neg (by simpa using hne), hfind]

theorem writerAt_injective {slots : List Slot} (hn : (slots.map Slot.writer).Nodup) {i j w : Nat}
    (hi : writerAt slots i = some w) (hj : writerAt slots j = some w) : i = j := by
  unfold writerAt at hi hj
  rw [← List.getElem?_map] at hi hj
  have hlt := (List.getElem?_eq_some_iff.mp hi).1
  exact (List.getElem?_inj hlt hn).mp (hi.trans hj.symm)

/-! ## Pipelines -/

section Pipelines

variable {slots : List Slot} {places owners : List Nat} {ids : List WriterId} {route : Route}

theorem place_spec (hplaces : places.map (writerAt slots) = owners.map some) {id : WriterId}
    (hid : id.place < places.length) :
    places.toArray[id.place]? = some (places.getD id.place 0) ∧
      writerAt slots (places.getD id.place 0) = some (owners.getD id.place 0) := by
  have hget : places[id.place]? = some (places.getD id.place 0) := by
    rw [List.getD_eq_getElem?_getD, List.getElem?_eq_getElem hid, Option.getD_some]
  refine ⟨by rw [List.getElem?_toArray]; exact hget, ?_⟩
  have hboth := congrArg (·[id.place]?) hplaces
  simp only [List.getElem?_map, hget, Option.map_some] at hboth
  rw [List.getD_eq_getElem?_getD (l := owners)]
  cases ho : owners[id.place]? with
  | none => simp [ho] at hboth
  | some w =>
    rw [ho, Option.map_some, Option.some.injEq] at hboth
    rw [hboth, Option.getD_some]

theorem pipeline_slots (hplaces : places.map (writerAt slots) = owners.map some)
    (hroute : route.writers = ids.eraseDups) (hids : ∀ id ∈ ids, id.place < places.length) :
    (pipelineOf places.toArray route).slots =
      (ids.map fun id => places.getD id.place 0).eraseDups := by
  have h : (ids.eraseDups.filterMap fun id => places.toArray[id.place]?) =
      ids.eraseDups.map fun id => places.getD id.place 0 :=
    filterMap_eq_map_of_some fun id hid =>
      (place_spec hplaces (hids id (List.mem_eraseDups.mp hid))).1
  rw [pipelineOf, hroute, h, eraseDups_map_eraseDups]

theorem pipeline_slots_lt (hplaces : places.map (writerAt slots) = owners.map some)
    (hroute : route.writers = ids.eraseDups) (hids : ∀ id ∈ ids, id.place < places.length) :
    ∀ i ∈ (pipelineOf places.toArray route).slots, i < slots.length := by
  intro i hi
  rw [pipeline_slots hplaces hroute hids, List.mem_eraseDups, List.mem_map] at hi
  obtain ⟨id, hid, rfl⟩ := hi
  have hw := (place_spec hplaces (hids id hid)).2
  unfold writerAt at hw
  by_contra hge
  rw [List.getElem?_eq_none (Nat.le_of_not_lt hge)] at hw
  cases hw

/-- **The writers of a pipeline** are those that the numbers of its route have, each once, in the
order of their first occurrence. -/
theorem pipeline_writers (hn : (slots.map Slot.writer).Nodup)
    (hplaces : places.map (writerAt slots) = owners.map some) (route : Route) :
    ((pipelineOf places.toArray route).slots.filterMap fun i => slots[i]?).map Slot.writer =
      (route.writers.filterMap fun id => owners[id.place]?).eraseDups := by
  set writer : Nat → Nat := fun i => (writerAt slots i).getD 0
  set named := route.writers.filterMap fun id => places.toArray[id.place]?
  have hplace : ∀ k : Nat, (∀ i, places[k]? = some i → writerAt slots i = some (writer i)) ∧
      (places[k]?).map writer = owners[k]? := by
    intro k
    have hboth := congrArg (·[k]?) hplaces
    simp only [List.getElem?_map] at hboth
    rcases hp : places[k]? with _ | i <;> rcases ho : owners[k]? with _ | w <;>
      simp_all [writer]
  have hsome : ∀ i ∈ named, writerAt slots i = some (writer i) := by
    intro i hi
    obtain ⟨id, _, hid⟩ := List.mem_filterMap.mp hi
    exact (hplace id.place).1 i (by rwa [List.getElem?_toArray] at hid)
  -- different slots have different writers, so the writers repeat only where the slots do
  have hinj : ∀ i ∈ named, ∀ j ∈ named, writer i = writer j → i = j := fun i hi j hj hij =>
    writerAt_injective hn (hsome i hi) (by rw [hsome j hj, hij])
  calc ((pipelineOf places.toArray route).slots.filterMap fun i => slots[i]?).map Slot.writer
      = named.eraseDups.filterMap (writerAt slots) := List.map_filterMap ..
    _ = named.eraseDups.map writer :=
        filterMap_eq_map_of_some fun i hi => hsome i (List.mem_eraseDups.mp hi)
    _ = (named.map writer).eraseDups := map_eraseDups_of_injOn hinj
    _ = (route.writers.filterMap fun id => owners[id.place]?).eraseDups := by
        rw [List.map_filterMap]
        refine congrArg _ (List.filterMap_congr fun id _ => ?_)
        rw [List.getElem?_toArray]
        exact (hplace id.place).2

theorem pipeline_writers_of_ids (hn : (slots.map Slot.writer).Nodup)
    (hplaces : places.map (writerAt slots) = owners.map some)
    (hroute : route.writers = ids.eraseDups) (hids : ∀ id ∈ ids, id.place < places.length) :
    ((pipelineOf places.toArray route).slots.filterMap fun i => slots[i]?).map Slot.writer =
      (ids.map fun id => owners.getD id.place 0).eraseDups := by
  have hlength : places.length = owners.length := by
    simpa using congrArg List.length hplaces
  have hgiven : (ids.eraseDups.filterMap fun id => owners[id.place]?) =
      ids.eraseDups.map fun id => owners.getD id.place 0 := by
    refine filterMap_eq_map_of_some fun id hid => ?_
    have hlt : id.place < owners.length := hlength ▸ hids id (List.mem_eraseDups.mp hid)
    rw [List.getD_eq_getElem?_getD, List.getElem?_eq_getElem hlt, Option.getD_some]
  rw [pipeline_writers hn hplaces, hroute, hgiven, eraseDups_map_eraseDups]

end Pipelines

end Sink

/-! ## New sinks -/

/-- The writers behind a route, where `writers` gives the writer of each number. -/
def Route.owners (writers : List Nat) (route : Route) : List Nat :=
  route.writers.filterMap fun id => writers[id.place]?

namespace RouteTable

/-- The writers that get the records of a severity, in the order of the writes. -/
def recipients (table : RouteTable) (writers : List Nat) (severity : Severity) : List Nat :=
  (table.routesFor severity).flatMap fun route => (route.owners writers).eraseDups

/-- The first destination that a writer serves. -/
def firstDestination (table : RouteTable) (writers : List Nat) (writer : Nat) : String :=
  ((table.destinations.toList.zip writers).find? (·.2 = writer)).elim "" Prod.fst

theorem count_recipients (table : RouteTable) (writers : List Nat) (severity : Severity)
    (writer : Nat) : (table.recipients writers severity).count writer =
      (table.routesFor severity).countP fun route => decide (writer ∈ route.owners writers) :=
  count_flatMap_eraseDups (Route.owners writers) writer _

theorem recipients_of_not_accepts {table : RouteTable} {severity : Severity}
    (h : table.accepts severity = false) (writers : List Nat) :
    table.recipients writers severity = [] := by
  have hnone : table.routesFor severity = [] := by
    rw [routesFor, List.filter_eq_nil_iff]
    exact fun route hroute => by simp [List.any_eq_false.mp h route hroute]
  rw [recipients, hnone, List.flatMap_nil]

end RouteTable

namespace Sink

variable {zone : Zone} {table : RouteTable} {writers : List Nat} {encoder : Encoder} {sink : Sink}

/-- **The slots of a new sink** are its distinct writers in the order of their first occurrence, with
the first destination of each, and all are open. -/
theorem ofParts_slots (h : ofParts zone table writers encoder = .ok sink) :
    sink.slots.map Slot.writer = writers.eraseDups ∧
      ∀ slot ∈ sink.slots, slot.closed = false ∧
        slot.destination = table.firstDestination writers slot.writer := by
  unfold ofParts at h
  split_ifs at h with hsize
  rw [not_not] at hsize
  obtain rfl := Except.ok.inj h
  have hsnd : (table.destinations.toList.zip writers).map Prod.snd = writers :=
    List.map_snd_zip (Nat.le_of_eq hsize)
  constructor
  · have hwriters := @allot_writers (table.destinations.toList.zip writers) [] List.nodup_nil
    rwa [List.map_nil, List.nil_append, hsnd] at hwriters
  · intro slot hslot
    rcases allot_destination slot hslot with hold | ⟨hopen, _, hfind⟩
    · cases hold
    · exact ⟨hopen, by rw [RouteTable.firstDestination, hfind]; rfl⟩

theorem allot_owners {ds : List String} (hsize : writers.length = ds.length) :
    ((allot [] (ds.zip writers)).2.map Slot.writer).Nodup ∧
      (allot [] (ds.zip writers)).1.map (writerAt (allot [] (ds.zip writers)).2) =
        writers.map some := by
  obtain ⟨_, hnodup, hplaces⟩ := @allot_spec (ds.zip writers) [] List.nodup_nil
  refine ⟨hnodup, hplaces.trans ?_⟩
  calc (ds.zip writers).map (fun p => some p.2)
      = ((ds.zip writers).map Prod.snd).map some := by rw [List.map_map]; rfl
    _ = writers.map some := by rw [List.map_snd_zip (Nat.le_of_eq hsize)]

/-- **The targets of a new sink** are the writers that its table leads to. -/
theorem ofParts_targets (h : ofParts zone table writers encoder = .ok sink) (severity : Severity) :
    (sink.targets severity).map Slot.writer = table.recipients writers severity := by
  unfold ofParts at h
  split_ifs at h with hsize
  rw [not_not, ← Array.length_toList] at hsize
  obtain ⟨hnodup, hplaces⟩ := allot_owners hsize
  obtain rfl := Except.ok.inj h
  unfold targets RouteTable.recipients RouteTable.routesFor
  rw [List.map_flatMap, List.filter_map, List.flatMap_map]
  exact List.flatMap_congr fun route _ => pipeline_writers hnodup hplaces route

end Sink

end LogRouter
