import LogRouter.Proofs.Route.Capacity
import LogRouter.Proofs.Sink.Delivery

/-!
# The order of the rules does not matter

* `RouteTable.reached`: the destinations that the records of a severity reach.
* `reached_eq`: these are the destinations that the rules of the schedule name, each rule's once.
* `RouteTable.Alike`: two compilations that differ in order only.
* **`compile_alike`**: rules in another order give the same table up to order, or fail for the same
  reason.
-/

namespace LogRouter

open List

namespace RouteTable

/-- The destinations that the records of a severity reach, once for each route that takes them. -/
def reached (table : RouteTable) (severity : Severity) : List String :=
  (table.routesFor severity).flatMap fun route => route.writers.filterMap table.destination?

variable {mode : RoutingMode} {minLevel : Severity} {rules rules' : List Rule} {table : RouteTable}

/-! ## Destinations by their numbers -/

theorem filterMap_destination? {r : Registry} (hr : r.Dense) (hdest : r.destinations = table.destinations)
    {ds : List String} (hds : ∀ d ∈ ds, d ∈ r.destinations.toList) :
    (ds.filterMap r.id?).eraseDups.filterMap table.destination? = ds.eraseDups := by
  -- the destination of a number, which every number here has
  set name : WriterId → String := fun id => (table.destination? id).getD ""
  have hname : ∀ {d id}, r.id? d = some id → table.destination? id = some d := fun {d id} hid => by
    rw [destination?, ← hdest]
    exact (hr.id?_eq_some_iff d id).mp hid
  have hnamed : ∀ {id}, id ∈ ds.filterMap r.id? → r.id? (name id) = some id := fun {id} hid => by
    obtain ⟨d, -, hd⟩ := List.mem_filterMap.mp hid
    change r.id? ((table.destination? id).getD "") = _
    rw [hname hd, Option.getD_some, hd]
  have hback : (ds.filterMap r.id?).map name = ds := by
    rw [List.map_filterMap, filterMap_eq_map_of_some (g := id) fun d hd => ?_, List.map_id]
    obtain ⟨id, hid, -⟩ := hr.id?_of_mem (hds d hd)
    change (r.id? d).map name = some d
    rw [hid, Option.map_some]
    change some ((table.destination? id).getD "") = _
    rw [hname hid, Option.getD_some]
  calc (ds.filterMap r.id?).eraseDups.filterMap table.destination?
      = (ds.filterMap r.id?).eraseDups.map name := by
        refine filterMap_eq_map_of_some fun id hid => ?_
        obtain ⟨d, -, hd⟩ := List.mem_filterMap.mp (List.mem_eraseDups.mp hid)
        change _ = some ((table.destination? id).getD "")
        rw [hname hd, Option.getD_some]
    _ = ((ds.filterMap r.id?).map name).eraseDups := map_eraseDups_of_injOn fun a ha b hb hab =>
        Option.some.inj ((hnamed ha).symm.trans (hab ▸ hnamed hb))
    _ = ds.eraseDups := by rw [hback]

/-- **What records reach**, told by the rules: the destinations of the rules that take them, each
rule's once, in the order of delivery. -/
theorem reached_eq (h : compile .empty mode minLevel rules = .ok table) (severity : Severity) :
    table.reached severity = ((Rule.schedule mode rules).filter (·.takes mode minLevel severity)).flatMap
      (·.destinations.eraseDups) := by
  obtain ⟨r, hdense, hdest, hroutes, hmem⟩ := compile_eq_ok h
  unfold reached routesFor
  rw [hroutes, List.filter_map, List.flatMap_map]
  refine flatMap_filter_filterMap fun rule hrule => ?_
  obtain ⟨keyed, hkept⟩ := exists_kept?_of_mem_schedule minLevel hrule
  obtain ⟨-, hds, haccepts, -⟩ := kept?_eq_some hkept
  refine ⟨keyed, hkept, haccepts severity, ?_⟩
  change (keyed.destinations.filterMap r.id?).eraseDups.filterMap table.destination? = _
  rw [filterMap_destination? hdense hdest fun d hd => hdest ▸ hmem rule hrule d (hds ▸ hd), hds]

/-! ## Rules in another order -/

theorem skipped_eq (h : compile .empty mode minLevel rules = .ok table) :
    table.skipped = (discards mode minLevel rules).map Discard.levelKey := by
  unfold compile at h
  split at h
  case h_1 => cases h
  case h_2 => cases h
  case h_3 =>
    rw [Except.ok.injEq] at h
    rw [← h]

theorem schedule_perm_of_perm (h : rules ~ rules') : Rule.schedule mode rules ~ Rule.schedule mode rules' :=
  ((Rule.schedule_perm mode rules).trans (h.filter _)).trans (Rule.schedule_perm mode rules').symm

theorem named_toFinset_of_perm (h : rules ~ rules') :
    (Rule.named mode rules).toFinset = (Rule.named mode rules').toFinset :=
  List.toFinset_eq_of_perm _ _ ((h.filter _).flatMap_right _)

end RouteTable

/-- Two errors are of one kind, whatever they name. -/
inductive RoutingError.SameKind : RoutingError → RoutingError → Prop where
  | unknownLevel (name name' : String) : SameKind (.unknownLevel name) (.unknownLevel name')
  | unknownMode (name name' : String) : SameKind (.unknownMode name) (.unknownMode name')
  | tooManyDestinations (d d' : String) : SameKind (.tooManyDestinations d) (.tooManyDestinations d')
  | noRoutes : SameKind .noRoutes .noRoutes

namespace RouteTable

/-- Two tables differ in order only: the records of every severity reach the same destinations equally
often, the same destinations are listed, and the same keys were skipped. -/
structure SameUpToOrder (table table' : RouteTable) : Prop where
  reached : ∀ severity, table.reached severity ~ table'.reached severity
  destinations : table.destinations.toList ~ table'.destinations.toList
  skipped : table.skipped ~ table'.skipped

/-- Two compilations both give tables that differ in order only, or fail with errors of one kind. -/
def Alike : Except RoutingError RouteTable → Except RoutingError RouteTable → Prop
  | .ok table, .ok table' => table.SameUpToOrder table'
  | .error e, .error e' => e.SameKind e'
  | _, _ => False

variable {mode : RoutingMode} {minLevel : Severity} {rules rules' : List Rule} {table table' : RouteTable}

theorem destinations_nodup (h : compile .empty mode minLevel rules = .ok table) :
    table.destinations.toList.Nodup := by
  obtain ⟨r, hdense, hdest, -⟩ := compile_eq_ok h
  exact hdest ▸ hdense.nodup

theorem sameUpToOrder_of_perm (hperm : rules ~ rules')
    (h : compile .empty mode minLevel rules = .ok table)
    (h' : compile .empty mode minLevel rules' = .ok table')
    (hnames : table.destinations.toList.toFinset = table'.destinations.toList.toFinset) :
    table.SameUpToOrder table' where
  reached severity := by
    rw [reached_eq h, reached_eq h']
    exact ((schedule_perm_of_perm hperm).filter _).flatMap_right _
  destinations := List.perm_of_nodup_nodup_toFinset_eq (destinations_nodup h) (destinations_nodup h') hnames
  skipped := by
    rw [skipped_eq h, skipped_eq h']
    exact (hperm.filterMap _).map _

/-- **Rules in another order** give the same table up to order, or fail with an error of the same kind. -/
theorem compile_alike (mode : RoutingMode) (minLevel : Severity) (hperm : rules ~ rules') :
    Alike (compile .empty mode minLevel rules) (compile .empty mode minLevel rules') := by
  have hnamed : (Rule.named mode rules).toFinset = (Rule.named mode rules').toFinset :=
    named_toFinset_of_perm hperm
  rcases compile_cases mode minLevel rules with
    ⟨table, h, hnames, hcard, rule, hrule, hsurvives⟩ | ⟨h, hnone⟩ | ⟨⟨d, h⟩, hcard⟩
  · -- a surviving rule is still there, and the destinations still fit
    rcases compile_cases mode minLevel rules' with
      ⟨table', h', hnames', -, -⟩ | ⟨-, hnone'⟩ | ⟨-, hcard'⟩
    · rw [h, h']
      exact sameUpToOrder_of_perm hperm h h' (by rw [hnames, hnames', hnamed])
    · rw [hnone' rule (hperm.mem_iff.mp hrule)] at hsurvives
      cases hsurvives
    · rw [← hnamed] at hcard'
      omega
  · have h' : compile .empty mode minLevel rules' = .error .noRoutes :=
      compile_eq_noRoutes_iff.mpr fun rule hrule => hnone rule (hperm.mem_iff.mpr hrule)
    rw [h, h']
    exact .noRoutes
  · obtain ⟨d', h'⟩ := compile_eq_tooMany_iff.mpr (hnamed ▸ hcard)
    rw [h, h']
    exact .tooManyDestinations d d'

/-- Two rules for errors change places. The destinations get other numbers, and an error reaches the same
ones. -/
theorem compile_alike_swapped :
    let rules : List Rule := [⟨"error", ["a", "b", "a"]⟩, ⟨"bogus", ["z"]⟩, ⟨"Error ", ["c", "b"]⟩]
    let rules' : List Rule := [⟨"Error ", ["c", "b"]⟩, ⟨"error", ["a", "b", "a"]⟩, ⟨"bogus", ["z"]⟩]
    ∃ table table', rules ~ rules' ∧ compile .empty .exact .info rules = .ok table ∧
      compile .empty .exact .info rules' = .ok table' ∧
      table.destinations = #["a", "b", "c"] ∧ table'.destinations = #["c", "b", "a"] ∧
      table.reached .error ~ table'.reached .error := by
  intro rules rules'
  have hperm : rules ~ rules' := by decide
  have harranged : arranged (kept .exact .info rules) =
      [⟨.level .error, .exactly .error, ["a", "b", "a"]⟩, ⟨.level .error, .exactly .error, ["c", "b"]⟩] := by
    rw [arranged_eq_buckets]
    decide
  have harranged' : arranged (kept .exact .info rules') =
      [⟨.level .error, .exactly .error, ["c", "b"]⟩, ⟨.level .error, .exactly .error, ["a", "b", "a"]⟩] := by
    rw [arranged_eq_buckets]
    decide
  obtain ⟨table, h, hdest⟩ : ∃ table, compile .empty .exact .info rules = .ok table ∧
      table.destinations = #["a", "b", "c"] := by
    simp [compile, harranged, routesOf, Registry.registerAll, Registry.register, Registry.id?,
      Registry.empty, WriterId.maxIndex]
  obtain ⟨table', h', hdest'⟩ : ∃ table', compile .empty .exact .info rules' = .ok table' ∧
      table'.destinations = #["c", "b", "a"] := by
    simp [compile, harranged', routesOf, Registry.registerAll, Registry.register, Registry.id?,
      Registry.empty, WriterId.maxIndex]
  have halike := compile_alike .exact .info hperm
  rw [h, h'] at halike
  exact ⟨table, table', hperm, h, h', hdest, hdest', halike.reached .error⟩

end RouteTable

end LogRouter
