import LogRouter.Proofs.Route.Table
import Mathlib.Data.Finset.Card

/-!
# How many destinations fit

* `Registry.names`: the destinations of a registry, as a set.
* `registerAll_ok`, `registerAll_error`: registering adds exactly the new destinations, and fails
  only if these are too many together with the old ones.
* `Rule.named`: the destinations that the surviving rules name.
* `compile_cases_of_dense`: what a compilation behind registered destinations comes to.
* **`compile_eq_noRoutes_iff`**: a compilation gives no routes exactly if no rule survives.
* **`compile_eq_tooMany_iff`**: it runs out of numbers exactly if the surviving rules name more than
  65536 destinations.
-/

namespace LogRouter

namespace Registry

/-- The destinations of a registry. -/
def names (r : Registry) : Finset String := r.destinations.toList.toFinset

/-- The number of destinations that have a number of their own. -/
def capacity : Nat := WriterId.maxIndex + 1

variable {r r' : Registry} {d : String} {ds : List String}

theorem card_names (hr : r.Dense) : r.names.card = r.destinations.size := by
  rw [names, List.toFinset_card_of_nodup hr.nodup, Array.length_toList]

theorem card_names_le (hr : r.Dense) : r.names.card ≤ capacity := by
  rw [card_names hr]
  exact hr.size_le

theorem id?_isSome_iff (hr : r.Dense) : (r.id? d).isSome = true ↔ d ∈ r.names := by
  rw [names, List.mem_toFinset, Option.isSome_iff_exists]
  constructor
  · rintro ⟨id, hid⟩
    exact hr.mem_of_id? hid
  · intro hd
    obtain ⟨i, hi⟩ := List.mem_iff_getElem?.mp hd
    rw [Array.getElem?_toList] at hi
    obtain ⟨id, hid, _⟩ := hr.exists_id? hi
    exact ⟨id, hid⟩

theorem register_ok {id : WriterId} (hr : r.Dense) (h : r.register d = .ok (id, r')) :
    r'.names = insert d r.names := by
  unfold register at h
  split at h
  case h_1 known hknown =>
    simp only [Except.ok.injEq, Prod.mk.injEq] at h
    rw [← h.2, Finset.insert_eq_of_mem ((id?_isSome_iff hr).mp (by rw [hknown]; rfl))]
  case h_2 hnew =>
    split at h
    case isFalse => cases h
    case isTrue hsize =>
      simp only [Except.ok.injEq, Prod.mk.injEq] at h
      rw [← h.2, names, Array.toList_push, List.toFinset_append, Finset.union_comm]
      rfl

theorem register_error {e : RoutingError} (hr : r.Dense) (h : r.register d = .error e) :
    e = .tooManyDestinations d ∧ capacity < (insert d r.names).card := by
  unfold register at h
  split at h
  case h_1 => cases h
  case h_2 hnew =>
    split at h
    case isTrue => cases h
    case isFalse hsize =>
      have hd : d ∉ r.names := fun hd => by
        have := (id?_isSome_iff hr).mpr hd
        rw [hnew] at this
        cases this
      rw [Finset.card_insert_of_notMem hd, card_names hr]
      unfold capacity
      exact ⟨(Except.error.inj h).symm, by omega⟩

theorem registerAll_ok {ids : List WriterId} (hr : r.Dense) (h : r.registerAll ds = .ok (ids, r')) :
    r'.names = r.names ∪ ds.toFinset := by
  induction ds generalizing r ids with
  | nil =>
    simp only [registerAll, Except.ok.injEq, Prod.mk.injEq] at h
    rw [← h.2, List.toFinset_nil, Finset.union_empty]
  | cons d ds ih =>
    unfold registerAll at h
    split at h
    case h_1 => cases h
    case h_2 id r₁ h₁ =>
      split at h
      case h_1 => cases h
      case h_2 ids' r₂ h₂ =>
        simp only [Except.ok.injEq, Prod.mk.injEq] at h
        obtain ⟨-, rfl⟩ := h
        rw [ih (dense_register hr h₁).1 h₂, register_ok hr h₁, List.toFinset_cons,
          Finset.insert_union, Finset.union_insert]

theorem registerAll_error {e : RoutingError} (hr : r.Dense) (h : r.registerAll ds = .error e) :
    (∃ d, e = .tooManyDestinations d) ∧ capacity < (r.names ∪ ds.toFinset).card := by
  induction ds generalizing r with
  | nil => cases h
  | cons d ds ih =>
    have hgrow : insert d r.names ∪ ds.toFinset = r.names ∪ (d :: ds).toFinset := by
      rw [List.toFinset_cons, Finset.insert_union, Finset.union_insert]
    rw [← hgrow]
    unfold registerAll at h
    split at h
    case h_1 e' h₁ =>
      obtain rfl := Except.error.inj h
      obtain ⟨he, hcard⟩ := register_error hr h₁
      exact ⟨⟨d, he⟩, hcard.trans_le (Finset.card_le_card Finset.subset_union_left)⟩
    case h_2 id r₁ h₁ =>
      split at h
      case h_1 e' h₂ =>
        obtain rfl := Except.error.inj h
        rw [← register_ok hr h₁]
        exact ih (dense_register hr h₁).1 h₂
      case h_2 => cases h

end Registry

/-! ## Rules -/

namespace Rule

/-- The destinations that the surviving rules name, with repetitions. -/
def named (mode : RoutingMode) (rules : List Rule) : List String :=
  (rules.filter (survives mode)).flatMap destinations

end Rule

namespace RouteTable

open Registry (capacity)

variable {r r' : Registry} {mode : RoutingMode} {minLevel : Severity}

theorem mem_named_iff {rules : List Rule} {d : String} :
    d ∈ (arranged (kept mode minLevel rules)).flatMap KeyedRule.destinations ↔
      d ∈ Rule.named mode rules := by
  have hkept : ∀ keyed, keyed ∈ arranged (kept mode minLevel rules) ↔
      ∃ rule ∈ rules, kept? mode minLevel rule = some keyed := fun keyed => by
    rw [arranged, List.mem_mergeSort]
    exact List.mem_filterMap
  unfold Rule.named
  rw [List.mem_flatMap, List.mem_flatMap]
  constructor
  · rintro ⟨keyed, hkeyed, hd⟩
    obtain ⟨rule, hrule, hsome⟩ := (hkept keyed).mp hkeyed
    obtain ⟨_, hds, _, hsurvives⟩ := kept?_eq_some hsome
    rw [hds] at hd
    refine ⟨rule, List.mem_filter.mpr ⟨hrule, ?_⟩, hd⟩
    rw [hsurvives, Bool.not_eq_true', List.isEmpty_eq_false_iff]
    exact List.ne_nil_of_mem hd
  · rintro ⟨rule, hrule, hd⟩
    obtain ⟨hrule, hsurvives⟩ := List.mem_filter.mp hrule
    cases hsome : kept? mode minLevel rule with
    | none =>
      rw [kept?_eq_none hsome] at hsurvives
      cases hsurvives
    | some keyed =>
      exact ⟨keyed, (hkept keyed).mpr ⟨rule, hrule, hsome⟩, (kept?_eq_some hsome).2.1 ▸ hd⟩

theorem routesOf_ok {rules : List KeyedRule} {routes : List Route} (hr : r.Dense)
    (h : routesOf r rules = .ok (routes, r')) :
    r'.names = r.names ∪ (rules.flatMap KeyedRule.destinations).toFinset := by
  induction rules generalizing r routes with
  | nil =>
    simp only [routesOf, Except.ok.injEq, Prod.mk.injEq] at h
    rw [← h.2, List.flatMap_nil, List.toFinset_nil, Finset.union_empty]
  | cons rule rules ih =>
    unfold routesOf at h
    split at h
    case h_1 => cases h
    case h_2 ids r₁ h₁ =>
      split at h
      case h_1 => cases h
      case h_2 rest r₂ h₂ =>
        obtain rfl : r₂ = r' := by
          split_ifs at h <;> simp only [Except.ok.injEq, Prod.mk.injEq] at h <;> exact h.2
        rw [ih (Registry.dense_registerAll hr h₁).1 h₂, Registry.registerAll_ok hr h₁,
          List.flatMap_cons, List.toFinset_append, Finset.union_assoc]

theorem routesOf_error {rules : List KeyedRule} {e : RoutingError} (hr : r.Dense)
    (h : routesOf r rules = .error e) :
    (∃ d, e = .tooManyDestinations d) ∧
      capacity < (r.names ∪ (rules.flatMap KeyedRule.destinations).toFinset).card := by
  induction rules generalizing r with
  | nil => cases h
  | cons rule rules ih =>
    rw [List.flatMap_cons, List.toFinset_append, ← Finset.union_assoc]
    unfold routesOf at h
    split at h
    case h_1 e' h₁ =>
      obtain rfl := Except.error.inj h
      obtain ⟨he, hcard⟩ := Registry.registerAll_error hr h₁
      exact ⟨he, hcard.trans_le (Finset.card_le_card Finset.subset_union_left)⟩
    case h_2 ids r₁ h₁ =>
      split at h
      case h_1 e' h₂ =>
        obtain rfl := Except.error.inj h
        rw [← Registry.registerAll_ok hr h₁]
        exact ih (Registry.dense_registerAll hr h₁).1 h₂
      case h_2 => split_ifs at h

theorem names_empty : Registry.empty.names = ∅ := rfl

theorem toFinset_kept (rules : List Rule) :
    ((arranged (kept mode minLevel rules)).flatMap KeyedRule.destinations).toFinset =
      (Rule.named mode rules).toFinset := by
  ext d
  rw [List.mem_toFinset, List.mem_toFinset, mem_named_iff]

theorem filterMap_kept?_eq_nil_iff (mode : RoutingMode) (minLevel : Severity) {rules : List Rule} :
    (Rule.schedule mode rules).filterMap (kept? mode minLevel) = [] ↔
      ∀ rule ∈ rules, rule.survives mode = false := by
  have hschedule : ∀ rule, rule ∈ Rule.schedule mode rules ↔ rule ∈ rules ∧ rule.survives mode :=
    fun rule => (Rule.schedule_perm mode rules).mem_iff.trans List.mem_filter
  rw [List.filterMap_eq_nil_iff]
  constructor
  · intro hnone rule hrule
    by_contra hsurvives
    have hmem := (hschedule rule).mpr ⟨hrule, Bool.eq_true_of_not_eq_false hsurvives⟩
    obtain ⟨keyed, hkept⟩ := exists_kept?_of_mem_schedule minLevel hmem
    cases (hnone rule hmem).symm.trans hkept
  · intro hnone rule hrule
    obtain ⟨hmem, hsurvives⟩ := (hschedule rule).mp hrule
    cases (hnone rule hmem).symm.trans hsurvives

theorem named_eq_nil {rules : List Rule} (h : ∀ rule ∈ rules, rule.survives mode = false) :
    Rule.named mode rules = [] := by
  unfold Rule.named
  rw [List.filter_eq_nil_iff.mpr fun rule hrule => by simp [h rule hrule], List.flatMap_nil]

/-- **What a compilation comes to** behind registered destinations: a table that has these and those
that the surviving rules name, no routes if no rule survives, or too many destinations. -/
theorem compile_cases_of_dense (hr : r.Dense) (mode : RoutingMode) (minLevel : Severity)
    (rules : List Rule) :
    (∃ table, compile r mode minLevel rules = .ok table ∧
        table.destinations.toList.toFinset = r.names ∪ (Rule.named mode rules).toFinset ∧
        (r.names ∪ (Rule.named mode rules).toFinset).card ≤ capacity ∧
        ∃ rule ∈ rules, rule.survives mode = true) ∨
      (compile r mode minLevel rules = .error .noRoutes ∧
        (r.names ∪ (Rule.named mode rules).toFinset).card ≤ capacity ∧
        ∀ rule ∈ rules, rule.survives mode = false) ∨
      ((∃ d, compile r mode minLevel rules = .error (.tooManyDestinations d)) ∧
        capacity < (r.names ∪ (Rule.named mode rules).toFinset).card) := by
  unfold compile
  cases h : routesOf r (arranged (kept mode minLevel rules)) with
  | error e =>
    obtain ⟨⟨d, rfl⟩, hcard⟩ := routesOf_error hr h
    rw [toFinset_kept] at hcard
    exact Or.inr (Or.inr ⟨⟨d, rfl⟩, hcard⟩)
  | ok outcome =>
    obtain ⟨routes, r'⟩ := outcome
    obtain ⟨hdense, _, _, hroutes⟩ := routesOf_eq hr h
    have hnames := routesOf_ok hr h
    rw [toFinset_kept] at hnames
    rw [arranged_kept] at hroutes
    have hcard := hnames ▸ Registry.card_names_le hdense
    cases routes with
    | nil =>
      exact Or.inr (Or.inl ⟨rfl, hcard,
        (filterMap_kept?_eq_nil_iff mode minLevel).mp (List.map_eq_nil_iff.mp hroutes.symm)⟩)
    | cons route routes =>
      refine Or.inl ⟨_, rfl, hnames, hcard, ?_⟩
      by_contra hnone
      push Not at hnone
      simp only [Bool.not_eq_true] at hnone
      rw [(filterMap_kept?_eq_nil_iff mode minLevel).mpr hnone] at hroutes
      cases hroutes

/-- **What a compilation comes to**: a table with the destinations that the surviving rules name, no
routes if no rule survives, or too many destinations. -/
theorem compile_cases (mode : RoutingMode) (minLevel : Severity) (rules : List Rule) :
    (∃ table, compile .empty mode minLevel rules = .ok table ∧
        table.destinations.toList.toFinset = (Rule.named mode rules).toFinset ∧
        (Rule.named mode rules).toFinset.card ≤ capacity ∧
        ∃ rule ∈ rules, rule.survives mode = true) ∨
      (compile .empty mode minLevel rules = .error .noRoutes ∧
        ∀ rule ∈ rules, rule.survives mode = false) ∨
      ((∃ d, compile .empty mode minLevel rules = .error (.tooManyDestinations d)) ∧
        capacity < (Rule.named mode rules).toFinset.card) := by
  have h := compile_cases_of_dense Registry.dense_empty mode minLevel rules
  rw [names_empty, Finset.empty_union] at h
  exact h.imp_right (Or.imp_left fun ⟨hnone, _, hrules⟩ => ⟨hnone, hrules⟩)

/-- **A compilation gives no routes exactly if no rule survives.** -/
theorem compile_eq_noRoutes_iff {rules : List Rule} :
    compile .empty mode minLevel rules = .error .noRoutes ↔
      ∀ rule ∈ rules, rule.survives mode = false := by
  rcases compile_cases mode minLevel rules with
    ⟨table, h, _, _, rule, hrule, hsurvives⟩ | ⟨h, hnone⟩ | ⟨⟨d, h⟩, hcard⟩
  · refine ⟨fun h' => ?_, fun h' => ?_⟩
    · rw [h] at h'
      cases h'
    · rw [h' rule hrule] at hsurvives
      cases hsurvives
  · exact ⟨fun _ => hnone, fun _ => h⟩
  · refine ⟨fun h' => ?_, fun h' => ?_⟩
    · rw [h] at h'
      cases h'
    · rw [named_eq_nil h'] at hcard
      simp at hcard

/-- **A compilation runs out of numbers exactly if the surviving rules name too many
destinations.** -/
theorem compile_eq_tooMany_iff {rules : List Rule} :
    (∃ d, compile .empty mode minLevel rules = .error (.tooManyDestinations d)) ↔
      capacity < (Rule.named mode rules).toFinset.card := by
  rcases compile_cases mode minLevel rules with ⟨table, h, _, hcard, _⟩ | ⟨h, hnone⟩ | ⟨h, hcard⟩
  · refine ⟨fun ⟨d, h'⟩ => ?_, fun h' => absurd h' (Nat.not_lt.mpr hcard)⟩
    rw [h] at h'
    cases h'
  · refine ⟨fun ⟨d, h'⟩ => ?_, fun h' => ?_⟩
    · rw [h] at h'
      cases h'
    · rw [named_eq_nil hnone] at h'
      simp at h'
  · exact ⟨fun _ => hcard, fun _ => h⟩

end RouteTable

end LogRouter
