import LogRouter.Proofs.Route.Arrangement
import LogRouter.Proofs.Route.FirstOccurrences
import LogRouter.Proofs.Route.Registry

/-!
# What a compiled table holds

* `Rule.survives`, `Rule.takes`: which rules give a route, and which severities their routes take,
  said of the rules as they are configured.
* `Rule.schedule`: the surviving rules in the order of delivery.
* `routesOf_eq`: the routes of rules, told by the numbers that the final registry gives.
* **`compile_eq_ok`**: a compiled table has one route for each rule of the schedule, in its order,
  and knows every destination of these rules.
* `RouteTable.Sound`: every route has writers, each once, which are numbers of destinations.
  **`sound_of_compile`**: compiled tables are sound.
-/

namespace LogRouter

/-! ## The rules by themselves -/

namespace Rule

/-- The key of a rule, if it names one. -/
def key? (rule : Rule) : Option LevelKey := LevelKey.ofName? rule.levelKey

/-- The rule gives a route: its key means something in the mode, and it names a destination. -/
def survives (mode : RoutingMode) (rule : Rule) : Bool :=
  !rule.destinations.isEmpty &&
    match rule.key? with
    | none => false
    | some .all => mode = .duplicate
    | some (.level _) => true

/-- The rule takes records of the given severity. -/
def takes (mode : RoutingMode) (minLevel : Severity) (rule : Rule) (severity : Severity) : Bool :=
  match mode, rule.key? with
  | .duplicate, some .all => minLevel ≤ severity
  | .duplicate, some (.level level) => severity = level
  | .above, some (.level level) => level ≤ severity
  | .exact, some (.level level) => severity = level
  | _, _ => false

/-- The surviving rules in the order of delivery: those for `all` first, then by ascending
severity, the rules of one key in the order of their declaration. -/
def schedule (mode : RoutingMode) (rules : List Rule) : List Rule :=
  LevelKey.sequence.flatMap fun key =>
    rules.filter fun rule => rule.survives mode && rule.key? = some key

theorem exists_key?_of_survives {mode : RoutingMode} {rule : Rule} (h : rule.survives mode = true) :
    ∃ key, rule.key? = some key := by
  unfold survives at h
  cases hk : rule.key? with
  | none => simp [hk] at h
  | some key => exact ⟨key, rfl⟩

theorem schedule_perm (mode : RoutingMode) (rules : List Rule) :
    List.Perm (schedule mode rules) (rules.filter (survives mode)) := by
  have h := @buckets_perm _ _ _ Rule.key? (LevelKey.sequence.map some)
    (rules.filter (survives mode)) (by decide) fun rule hrule => by
      obtain ⟨key, hkey⟩ := exists_key?_of_survives (List.mem_filter.mp hrule).2
      rw [hkey]
      exact List.mem_map_of_mem (LevelKey.mem_sequence key)
  refine List.Perm.trans (List.Perm.of_eq ?_) h
  unfold schedule buckets
  rw [List.flatMap_map]
  refine List.flatMap_congr fun key _ => ?_
  rw [List.filter_filter]
  exact List.filter_congr fun rule _ => Bool.and_comm _ _

end Rule

namespace RouteTable

/-- The kept form of a rule, if the rule is kept. -/
def kept? (mode : RoutingMode) (minLevel : Severity) (rule : Rule) : Option KeyedRule :=
  match rule.keyed mode minLevel with
  | .error _ => none
  | .ok keyed => some keyed

theorem kept?_eq_some {mode : RoutingMode} {minLevel : Severity} {rule : Rule} {keyed : KeyedRule}
    (h : kept? mode minLevel rule = some keyed) :
    rule.key? = some keyed.key ∧ keyed.destinations = rule.destinations ∧
      (∀ severity, keyed.filter.accepts severity = rule.takes mode minLevel severity) ∧
      rule.survives mode = !rule.destinations.isEmpty := by
  unfold kept? Rule.keyed at h
  unfold Rule.survives Rule.takes
  cases hk : rule.key? with
  | none =>
    unfold Rule.key? at hk
    simp [hk] at h
  | some key =>
    have hk' := hk
    unfold Rule.key? at hk'
    rw [hk'] at h
    cases key <;> cases mode <;> simp [RoutingMode.filter?] at h <;> subst h <;>
      simp [LevelFilter.accepts]

theorem kept?_eq_none {mode : RoutingMode} {minLevel : Severity} {rule : Rule}
    (h : kept? mode minLevel rule = none) : rule.survives mode = false := by
  unfold kept? Rule.keyed at h
  unfold Rule.survives
  cases hk : rule.key? with
  | none => simp
  | some key =>
    have hk' := hk
    unfold Rule.key? at hk'
    rw [hk'] at h
    cases key <;> cases mode <;> simp [RoutingMode.filter?] at h <;> simp

theorem exists_kept?_of_mem_schedule {mode : RoutingMode} (minLevel : Severity) {rules : List Rule}
    {rule : Rule} (h : rule ∈ Rule.schedule mode rules) :
    ∃ keyed, kept? mode minLevel rule = some keyed := by
  have hs := (Rule.schedule_perm mode rules).mem_iff.mp h
  cases hkept : kept? mode minLevel rule with
  | none =>
    rw [List.mem_filter, kept?_eq_none hkept] at hs
    exact absurd hs.2 Bool.false_ne_true
  | some keyed => exact ⟨keyed, rfl⟩

theorem arranged_kept (mode : RoutingMode) (minLevel : Severity) (rules : List Rule) :
    (arranged (kept mode minLevel rules)).filter (!·.destinations.isEmpty) =
      (Rule.schedule mode rules).filterMap (kept? mode minLevel) := by
  rw [arranged_eq_buckets]
  unfold buckets Rule.schedule
  rw [List.filter_flatMap, List.filterMap_flatMap]
  refine List.flatMap_congr fun key _ => ?_
  change List.filter _ (List.filter _ (rules.filterMap (kept? mode minLevel))) = _
  rw [List.filter_filterMap, List.filter_filterMap, List.filterMap_filter]
  refine List.filterMap_congr fun rule _ => ?_
  cases hkept : kept? mode minLevel rule with
  | none => simp [kept?_eq_none hkept]
  | some keyed =>
    obtain ⟨hkey, hdest, _, hsurvives⟩ := kept?_eq_some hkept
    rw [← hdest] at hsurvives
    by_cases hd : keyed.destinations.isEmpty = true <;> by_cases hk : keyed.key = key <;>
      simp [Option.filter, hkey, hsurvives, hd, hk]

/-! ## Routes by their destinations -/

/-- The route of a rule, whose destinations are looked up in a registry. -/
def routeIn (registry : Registry) (rule : KeyedRule) : Route :=
  ⟨rule.key, rule.filter, (rule.destinations.filterMap registry.id?).eraseDups⟩

/-- **The routes of rules**, told by the numbers of the final registry. -/
theorem routesOf_eq : ∀ {rules : List KeyedRule} {r r' : Registry} {routes : List Route},
    r.Dense → routesOf r rules = .ok (routes, r') →
      r'.Dense ∧ r'.Extends r ∧
      (∀ rule ∈ rules, ∀ d ∈ rule.destinations, d ∈ r'.destinations.toList) ∧
      routes = (rules.filter (!·.destinations.isEmpty)).map (routeIn r')
  | [], r, r', routes, hr, h => by
    simp only [routesOf, Except.ok.injEq, Prod.mk.injEq] at h
    obtain ⟨rfl, rfl⟩ := h
    exact ⟨hr, Registry.Extends.refl _, by simp, rfl⟩
  | rule :: rules, r, r', routes, hr, h => by
    unfold routesOf at h
    split at h
    case h_1 => cases h
    case h_2 ids r₁ h₁ =>
      split at h
      case h_1 => cases h
      case h_2 rest r₂ h₂ =>
        obtain ⟨hd₁, he₁, hids⟩ := Registry.dense_registerAll hr h₁
        obtain ⟨hd₂, he₂, hmem, hrest⟩ := routesOf_eq hd₁ h₂
        -- the numbers of this rule's destinations are the same in the final registry
        have hids' : rule.destinations.map r₂.id? = ids.map some := by
          rw [← hids]
          refine List.map_congr_left fun d hd => ?_
          have hsome : r₁.id? d ∈ ids.map some := hids ▸ List.mem_map_of_mem hd
          obtain ⟨id, _, hid⟩ := List.mem_map.mp hsome
          rw [← hid]
          exact hd₁.id?_mono hd₂ he₂ hid.symm
        have hlook : rule.destinations.filterMap r₂.id? = ids := by
          calc rule.destinations.filterMap r₂.id?
              = (rule.destinations.map r₂.id?).filterMap id := by rw [List.filterMap_map]; rfl
            _ = (ids.map some).filterMap id := by rw [hids']
            _ = ids := by rw [List.filterMap_map]; exact List.filterMap_some
        have hempty : rule.destinations.isEmpty = ids.isEmpty := by
          have := congrArg List.isEmpty hids'
          rwa [List.isEmpty_map, List.isEmpty_map] at this
        have hmem' : ∀ rule' ∈ rule :: rules, ∀ d ∈ rule'.destinations,
            d ∈ r₂.destinations.toList := by
          intro rule' hrule' d hd
          rcases List.mem_cons.mp hrule' with rfl | hrule'
          · have hsome : r₂.id? d ∈ ids.map some := hids' ▸ List.mem_map_of_mem hd
            obtain ⟨id, _, hid⟩ := List.mem_map.mp hsome
            exact hd₂.mem_of_id? hid.symm
          · exact hmem rule' hrule' d hd
        cases hids₀ : ids.isEmpty with
        | true =>
          rw [hids₀, if_pos rfl, Except.ok.injEq, Prod.mk.injEq] at h
          obtain ⟨rfl, rfl⟩ := h
          exact ⟨hd₂, he₂.trans he₁, hmem', by simp [hempty, hids₀, hrest]⟩
        | false =>
          rw [hids₀, if_neg Bool.false_ne_true, Except.ok.injEq, Prod.mk.injEq] at h
          obtain ⟨rfl, rfl⟩ := h
          exact ⟨hd₂, he₂.trans he₁, hmem', by simp [hempty, hids₀, hrest, routeIn, hlook]⟩

theorem compile_eq_ok_of_dense {mode : RoutingMode} {minLevel : Severity} {rules : List Rule}
    {table : RouteTable} {registry : Registry} (hregistry : registry.Dense)
    (h : compile registry mode minLevel rules = .ok table) :
    ∃ r : Registry, r.Dense ∧ r.destinations = table.destinations ∧ r.Extends registry ∧
      table.routes ≠ [] ∧
      table.routes =
        ((Rule.schedule mode rules).filterMap (kept? mode minLevel)).map (routeIn r) ∧
      ∀ rule ∈ Rule.schedule mode rules, ∀ d ∈ rule.destinations,
        d ∈ table.destinations.toList := by
  unfold compile at h
  split at h
  case h_1 => cases h
  case h_2 => cases h
  case h_3 routes r hne hroutes =>
    rw [Except.ok.injEq] at h
    subst h
    obtain ⟨hdense, hextends, hmem, heq⟩ := routesOf_eq hregistry hroutes
    rw [arranged_kept] at heq
    refine ⟨r, hdense, rfl, hextends, hne, heq,
      fun rule hrule d hd => ?_⟩
    -- a rule of the schedule is kept, so its destinations were registered
    obtain ⟨keyed, hkept⟩ := exists_kept?_of_mem_schedule minLevel hrule
    have hin : keyed ∈ (Rule.schedule mode rules).filterMap (kept? mode minLevel) :=
      List.mem_filterMap.mpr ⟨rule, hrule, hkept⟩
    rw [← arranged_kept, List.mem_filter] at hin
    exact hmem keyed hin.1 d ((kept?_eq_some hkept).2.1 ▸ hd)

/-- **A compiled table has one route for each rule of the schedule**, in its order, and knows every
destination of these rules. -/
theorem compile_eq_ok {mode : RoutingMode} {minLevel : Severity} {rules : List Rule}
    {table : RouteTable} (h : compile .empty mode minLevel rules = .ok table) :
    ∃ r : Registry, r.Dense ∧ r.destinations = table.destinations ∧
      table.routes =
        ((Rule.schedule mode rules).filterMap (kept? mode minLevel)).map (routeIn r) ∧
      ∀ rule ∈ Rule.schedule mode rules, ∀ d ∈ rule.destinations,
        d ∈ table.destinations.toList := by
  obtain ⟨r, hdense, hdest, _, _, hroutes, hmem⟩ :=
    compile_eq_ok_of_dense Registry.dense_empty h
  exact ⟨r, hdense, hdest, hroutes, hmem⟩

/-! ## Sound tables -/

/-- Every route of the table has writers, each of them once, and all of them are numbers of
destinations of the table. -/
structure Sound (table : RouteTable) : Prop where
  nonempty : ∀ route ∈ table.routes, route.writers ≠ []
  nodup : ∀ route ∈ table.routes, route.writers.Nodup
  place_lt : ∀ route ∈ table.routes, ∀ id ∈ route.writers, id.place < table.destinations.size

/-- **Compiled tables are sound**, whatever was registered before. -/
theorem sound_of_compile {mode : RoutingMode} {minLevel : Severity} {rules : List Rule}
    {table : RouteTable} {registry : Registry} (hregistry : registry.Dense)
    (h : compile registry mode minLevel rules = .ok table) : table.Sound := by
  obtain ⟨r, hdense, hdest, _, _, hroutes, hmem⟩ := compile_eq_ok_of_dense hregistry h
  have hroute : ∀ route ∈ table.routes, ∃ rule ∈ Rule.schedule mode rules,
      route.writers = (rule.destinations.filterMap r.id?).eraseDups := by
    intro route hin
    rw [hroutes] at hin
    obtain ⟨keyed, hkeyed, rfl⟩ := List.mem_map.mp hin
    obtain ⟨rule, hrule, hkept⟩ := List.mem_filterMap.mp hkeyed
    exact ⟨rule, hrule, by rw [← (kept?_eq_some hkept).2.1]; rfl⟩
  constructor <;> intro route hin <;> obtain ⟨rule, hrule, hwriters⟩ := hroute route hin
  · -- a rule of the schedule names a destination, which has a number
    have hsurvives := (List.mem_filter.mp ((Rule.schedule_perm mode rules).mem_iff.mp hrule)).2
    obtain ⟨d, hd⟩ : ∃ d, d ∈ rule.destinations := by
      refine List.exists_mem_of_ne_nil _ fun hnil => ?_
      rw [Rule.survives, hnil] at hsurvives
      cases hsurvives
    obtain ⟨i, hi⟩ := List.mem_iff_getElem?.mp (hmem rule hrule d hd)
    rw [← hdest, Array.getElem?_toList] at hi
    obtain ⟨id, hid, _⟩ := hdense.exists_id? hi
    refine List.ne_nil_of_mem (a := id) ?_
    rw [hwriters, List.mem_eraseDups]
    exact List.mem_filterMap.mpr ⟨d, hd, hid⟩
  · rw [hwriters]
    exact nodup_eraseDups _
  · intro id hid
    rw [hwriters, List.mem_eraseDups] at hid
    obtain ⟨d, _, hd⟩ := List.mem_filterMap.mp hid
    rw [← hdest]
    exact (Array.getElem?_eq_some_iff.mp ((hdense.id?_eq_some_iff d id).mp hd)).1

end RouteTable

end LogRouter
