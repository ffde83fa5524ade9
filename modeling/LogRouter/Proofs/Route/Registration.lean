import LogRouter.Proofs.Route.Capacity

/-!
# Calls for numbers

A builder of tables is asked for the numbers of destinations, one after the other, before it compiles
rules. It holds the first destinations that differ, as many as there are numbers.

* `Registry.call`, `Registry.callEach`: calls, where one that fails leaves the registry as it is.
* `Registry.held`: the destinations that have numbers after some calls; `held_concat` adds one call.
* `Registry.answerAmong`: the answer to a call. Later calls do not change it (`answerAmong_append`).
* `Registry.Holds`: what is kept from call to call. `Holds.call` is one call, `Holds.callEach` a run.
* **`calls_then_compile`**: what the registry holds, what every call answers, and what compiling
  comes to, behind any run of calls.
-/

namespace LogRouter

namespace Registry

/-! ## Calls -/

/-- The answer to a call for the number of a destination, and the registry behind it. -/
def call (r : Registry) (d : String) : Except RoutingError WriterId × Registry :=
  match r.register d with
  | .error e => (.error e, r)
  | .ok (id, r') => (.ok id, r')

/-- The answers to calls, one after the other, and the registry behind them. -/
def callEach (r : Registry) : List String → List (Except RoutingError WriterId) × Registry
  | [] => ([], r)
  | d :: ds =>
    let (answer, r) := r.call d
    let (answers, r) := r.callEach ds
    (answer :: answers, r)

/-- The destinations that have numbers after calls for `ds`: those that differ, in the order of their
first calls, up to the last number. -/
def held (ds : List String) : List String := ds.eraseDups.take capacity

/-- The answer to a call for a destination, where those of `held` have numbers. -/
def answerAmong (held : List String) (d : String) : Except RoutingError WriterId :=
  if d ∈ held then .ok ⟨(held.idxOf d).toUInt16⟩ else .error (.tooManyDestinations d)

/-! ## What is held -/

variable {r : Registry} {ds : List String} {d : String}

theorem nodup_held (ds : List String) : (held ds).Nodup :=
  (nodup_eraseDups ds).sublist (List.take_sublist _ _)

theorem length_held_le (ds : List String) : (held ds).length ≤ capacity :=
  List.length_take_le _ _

theorem length_held_of_notMem (hd : d ∈ ds) (hnew : d ∉ held ds) : (held ds).length = capacity := by
  unfold held at hnew ⊢
  rw [List.length_take, Nat.min_eq_left]
  by_contra hlt
  rw [List.take_of_length_le (Nat.le_of_not_le hlt), List.mem_eraseDups] at hnew
  exact hnew hd

theorem held_extends (ds more : List String) : held ds <+: held (ds ++ more) := by
  unfold held
  rw [List.eraseDups_append]
  exact (List.prefix_append _ _).take _

theorem held_append_of_full (h : (held ds).length = capacity) (more : List String) :
    held (ds ++ more) = held ds := by
  refine ((held_extends ds more).eq_of_length_le ?_).symm
  rw [h]
  exact length_held_le _

theorem held_concat (ds : List String) (d : String) :
    held (ds ++ [d]) =
      if d ∈ held ds ∨ (held ds).length = capacity then held ds else held ds ++ [d] := by
  by_cases hfull : (held ds).length = capacity
  · rw [if_pos (Or.inr hfull), held_append_of_full hfull]
  by_cases hd : d ∈ ds
  · -- it was asked for before, and there was a number for it
    have hmem : d ∈ held ds := by
      by_contra hnew
      exact hfull (length_held_of_notMem hd hnew)
    rw [if_pos (Or.inl hmem)]
    unfold held
    rw [eraseDups_concat, if_pos hd]
  · have hnew : d ∉ held ds := fun hmem =>
      hd (List.mem_eraseDups.mp (List.mem_of_mem_take hmem))
    rw [if_neg (not_or_intro hnew hfull)]
    have hall : ds.eraseDups.length < capacity := by
      unfold held at hfull
      rw [List.length_take] at hfull
      omega
    unfold held
    rw [eraseDups_concat, if_neg hd, List.take_of_length_le (Nat.le_of_lt hall),
      List.take_of_length_le (by rw [List.length_append]; exact hall)]

theorem answerAmong_of_mem {held : List String} {id : WriterId} (hd : d ∈ held)
    (hlength : held.length ≤ capacity) (hid : id.place = held.idxOf d) :
    answerAmong held d = .ok id := by
  have hlt := List.idxOf_lt_length_of_mem hd
  unfold capacity at hlength
  rw [answerAmong, if_pos hd]
  refine congrArg Except.ok (WriterId.place_injective ?_)
  rw [WriterId.place_mk (by omega), hid]

/-- **An answer stays the answer**, whatever is asked for later. -/
theorem answerAmong_append (hd : d ∈ ds) (more : List String) :
    answerAmong (held (ds ++ more)) d = answerAmong (held ds) d := by
  obtain ⟨rest, hrest⟩ := held_extends ds more
  by_cases hmem : d ∈ held ds
  · rw [answerAmong, answerAmong, if_pos hmem, ← hrest, if_pos (List.mem_append_left _ hmem),
      List.idxOf_append_of_mem hmem]
  · rw [held_append_of_full (length_held_of_notMem hd hmem)]

/-! ## What is kept from call to call -/

/-- The registry behind calls for `ds`. -/
structure Holds (r : Registry) (ds : List String) : Prop where
  dense : r.Dense
  destinations : r.destinations.toList = held ds

theorem holds_empty : empty.Holds [] := ⟨dense_empty, rfl⟩

namespace Holds

theorem mem_iff (h : r.Holds ds) : (r.id? d).isSome = true ↔ d ∈ held ds := by
  rw [id?_isSome_iff h.dense, names, List.mem_toFinset, h.destinations]

theorem id?_eq_none (h : r.Holds ds) (hd : d ∉ held ds) : r.id? d = none := by
  rw [← Option.not_isSome_iff_eq_none, h.mem_iff]
  exact hd

theorem size (h : r.Holds ds) : r.destinations.size = (held ds).length := by
  rw [← h.destinations, Array.length_toList]

theorem call_known (h : r.Holds ds) (hd : d ∈ held ds) :
    r.call d = (answerAmong (held ds) d, r) := by
  obtain ⟨id, hid, hplace⟩ := h.dense.id?_of_mem (h.destinations ▸ hd)
  rw [h.destinations] at hplace
  rw [answerAmong_of_mem hd (length_held_le ds) hplace]
  unfold Registry.call register
  rw [hid]

theorem call_full (h : r.Holds ds) (hd : d ∉ held ds) (hfull : (held ds).length = capacity) :
    r.call d = (.error (.tooManyDestinations d), r) := by
  have hsize : ¬ r.destinations.size ≤ WriterId.maxIndex := by
    rw [h.size, hfull]
    exact Nat.not_succ_le_self _
  unfold Registry.call register
  rw [h.id?_eq_none hd]
  simp only [if_neg hsize]

theorem call_new (h : r.Holds ds) (hd : d ∉ held ds) (hroom : (held ds).length ≠ capacity) :
    (r.call d).1 = answerAmong (held ds ++ [d]) d ∧
      (r.call d).2.destinations.toList = held ds ++ [d] ∧ (r.call d).2.Dense := by
  have hsize : r.destinations.size ≤ WriterId.maxIndex := by
    have := length_held_le ds
    rw [h.size]
    unfold capacity at this hroom
    omega
  have hregister : r.register d = .ok (⟨r.destinations.size.toUInt16⟩,
      ⟨r.destinations.push d, r.ids.insert d ⟨r.destinations.size.toUInt16⟩⟩) := by
    unfold register
    rw [h.id?_eq_none hd]
    simp only [if_pos hsize]
  have hdense := (dense_register h.dense hregister).1
  unfold Registry.call
  rw [hregister]
  refine ⟨(answerAmong_of_mem (List.mem_concat_self) ?_ ?_).symm, ?_, hdense⟩
  · rw [List.length_append, ← h.size]
    exact Nat.succ_le_succ hsize
  · rw [WriterId.place_mk hsize, List.idxOf_append_of_notMem hd, List.idxOf_cons_self, h.size]
    rfl
  · rw [Array.toList_push, h.destinations]

/-- **One call** answers by what is held behind it. -/
theorem call (h : r.Holds ds) (d : String) :
    (r.call d).2.Holds (ds ++ [d]) ∧ (r.call d).1 = answerAmong (held (ds ++ [d])) d := by
  by_cases hd : d ∈ held ds
  · have hheld : held (ds ++ [d]) = held ds := by rw [held_concat, if_pos (Or.inl hd)]
    rw [h.call_known hd, hheld]
    exact ⟨⟨h.dense, h.destinations.trans hheld.symm⟩, rfl⟩
  by_cases hfull : (held ds).length = capacity
  · have hheld : held (ds ++ [d]) = held ds := by rw [held_concat, if_pos (Or.inr hfull)]
    rw [h.call_full hd hfull, hheld, answerAmong, if_neg hd]
    exact ⟨⟨h.dense, h.destinations.trans hheld.symm⟩, rfl⟩
  · have hheld : held (ds ++ [d]) = held ds ++ [d] := by
      rw [held_concat, if_neg (not_or_intro hd hfull)]
    obtain ⟨hanswer, hdest, hdense⟩ := h.call_new hd hfull
    exact ⟨⟨hdense, hdest.trans hheld.symm⟩, hheld ▸ hanswer⟩

/-- **A run of calls**: every answer is told by what is held in the end. -/
theorem callEach (h : r.Holds ds) (more : List String) :
    (r.callEach more).2.Holds (ds ++ more) ∧
      (r.callEach more).1 = more.map (answerAmong (held (ds ++ more))) := by
  induction more generalizing r ds with
  | nil => exact ⟨(List.append_nil ds).symm ▸ h, rfl⟩
  | cons d more ih =>
    obtain ⟨hstep, hanswer⟩ := h.call d
    obtain ⟨hend, hanswers⟩ := ih hstep
    rw [← List.append_cons] at hend hanswers
    refine ⟨hend, ?_⟩
    have hstays : answerAmong (held (ds ++ d :: more)) d = answerAmong (held (ds ++ [d])) d := by
      rw [List.append_cons]
      exact answerAmong_append (List.mem_append_right _ (List.mem_singleton_self d)) more
    unfold Registry.callEach
    rw [List.map_cons, hstays, ← hanswer, ← hanswers]

end Holds

/-! ## Calls, and a compilation behind them -/

/-- The registry lists `held`, and the number of each destination is its place in this list. -/
structure Numbers (r : Registry) (held : List String) : Prop where
  destinations : r.destinations.toList = held
  nodup : held.Nodup
  length_le : held.length ≤ capacity
  /-- The look-up and the list are inverse to each other. -/
  id?_eq_some_iff : ∀ d id, r.id? d = some id ↔ held[id.place]? = some d
  /-- Every place of the list is a number. -/
  exists_id? : ∀ i d, held[i]? = some d → ∃ id, r.id? d = some id ∧ id.place = i

theorem Holds.numbers (h : r.Holds ds) : r.Numbers (held ds) where
  destinations := h.destinations
  nodup := nodup_held ds
  length_le := length_held_le ds
  id?_eq_some_iff d id := by
    rw [h.dense.id?_eq_some_iff, ← Array.getElem?_toList, h.destinations]
  exists_id? i d hi := by
    rw [← h.destinations, Array.getElem?_toList] at hi
    exact h.dense.exists_id? hi

theorem Holds.call_error (h : r.Holds ds) (d : String) :
    ((∃ e, (r.call d).1 = .error e) ↔ d ∉ held ds ∧ (held ds).length = capacity) ∧
      ∀ e, (r.call d).1 = .error e → e = .tooManyDestinations d ∧ (r.call d).2 = r := by
  by_cases hd : d ∈ held ds
  · rw [h.call_known hd, answerAmong, if_pos hd]
    exact ⟨iff_of_false nofun fun hnew => hnew.1 hd, nofun⟩
  by_cases hfull : (held ds).length = capacity
  · rw [h.call_full hd hfull]
    refine ⟨iff_of_true ⟨_, rfl⟩ ⟨hd, hfull⟩, ?_⟩
    rintro e ⟨⟩
    exact ⟨rfl, rfl⟩
  · rw [(h.call_new hd hfull).1, answerAmong, if_pos List.mem_concat_self]
    exact ⟨iff_of_false nofun fun hnew => hfull hnew.2, nofun⟩

/-- **Calls for numbers, and a compilation behind them.** After any calls for `ds` the registry lists
the first destinations of `ds` that differ, each under its place, and never more than there are
numbers. Every call has the answer of this list, so equal destinations have equal answers. One more
call keeps a number that is known, and fails exactly for a new destination when all numbers are taken.
A compilation fails for lack of numbers exactly if the listed destinations and those that the surviving
rules name are too many together, otherwise with no routes exactly if no rule survives, and otherwise
gives a table whose routes have their writers once and in range. -/
theorem calls_then_compile (ds : List String) (mode : RoutingMode) (minLevel : Severity)
    (rules : List Rule) :
    ∃ r, empty.callEach ds = (ds.map (answerAmong (held ds)), r) ∧
      r.Numbers (held ds) ∧
      (∀ d,
        (∀ id, r.id? d = some id → r.call d = (.ok id, r)) ∧
        ((∃ e, (r.call d).1 = .error e) ↔ d ∉ held ds ∧ (held ds).length = capacity) ∧
        ∀ e, (r.call d).1 = .error e → e = .tooManyDestinations d ∧ (r.call d).2 = r) ∧
      ((∃ d, RouteTable.compile r mode minLevel rules = .error (.tooManyDestinations d)) ↔
        capacity < ((held ds).toFinset ∪ (Rule.named mode rules).toFinset).card) ∧
      (RouteTable.compile r mode minLevel rules = .error .noRoutes ↔
        ((held ds).toFinset ∪ (Rule.named mode rules).toFinset).card ≤ capacity ∧
          ∀ rule ∈ rules, rule.survives mode = false) ∧
      (((held ds).toFinset ∪ (Rule.named mode rules).toFinset).card ≤ capacity →
        (∃ rule ∈ rules, rule.survives mode = true) →
          ∃ table, RouteTable.compile r mode minLevel rules = .ok table ∧ table.Sound) := by
  obtain ⟨hholds, hanswers⟩ := holds_empty.callEach ds
  rw [List.nil_append] at hholds hanswers
  set r := (empty.callEach ds).2
  have hnames : r.names = (held ds).toFinset := by rw [names, hholds.destinations]
  refine ⟨r, Prod.ext hanswers rfl, hholds.numbers,
    fun d => ⟨fun id hid => ?_, hholds.call_error d⟩, ?_⟩
  · unfold Registry.call register
    rw [hid]
  rw [← hnames]
  rcases RouteTable.compile_cases_of_dense hholds.dense mode minLevel rules with
    ⟨table, htable, _, hcard, rule, hrule, hsurvives⟩ | ⟨hnone, hcard, hrules⟩ | ⟨⟨d, hmany⟩, hcard⟩
  · rw [htable]
    refine ⟨iff_of_false (by simp) (Nat.not_lt.mpr hcard), iff_of_false (by simp) fun hnone => ?_,
      fun _ _ => ⟨table, rfl, RouteTable.sound_of_compile hholds.dense htable⟩⟩
    rw [hnone.2 rule hrule] at hsurvives
    cases hsurvives
  · rw [hnone]
    refine ⟨iff_of_false (by simp) (Nat.not_lt.mpr hcard), iff_of_true rfl ⟨hcard, hrules⟩, ?_⟩
    rintro - ⟨rule, hrule, hsurvives⟩
    rw [hrules rule hrule] at hsurvives
    cases hsurvives
  · rw [hmany]
    exact ⟨iff_of_true ⟨d, rfl⟩ hcard, iff_of_false (by simp) fun hle => Nat.not_lt.mpr hle.1 hcard,
      fun hle => absurd hcard (Nat.not_lt.mpr hle)⟩

/-- As many destinations as there are numbers, and a call for one more. -/
theorem calls_then_compile_when_full :
    let ds := (List.range capacity).map fun i => String.ofList (List.replicate i 'a')
    ∃ r, empty.callEach ds = (ds.map (answerAmong (held ds)), r) ∧
      r.destinations.toList = ds ∧ (r.call "b").1 = .error (.tooManyDestinations "b") ∧
      (∃ d, RouteTable.compile r .exact .info [⟨"error", ["b"]⟩] =
        .error (.tooManyDestinations d)) ∧
      ∃ table, RouteTable.compile r .exact .info [⟨"error", ["a", "", "a"]⟩] = .ok table ∧
        table.Sound := by
  intro ds
  have hnodup : ds.Nodup := by
    refine List.Nodup.map (fun i j hij => ?_) List.nodup_range
    simpa using congrArg String.length hij
  have hlength : ds.length = capacity := by rw [List.length_map, List.length_range]
  have hheld : held ds = ds := by
    unfold held
    rw [eraseDups_of_nodup hnodup, List.take_of_length_le (Nat.le_of_eq hlength)]
  have hcard : ds.toFinset.card = capacity := by rw [List.toFinset_card_of_nodup hnodup, hlength]
  have hb : "b" ∉ ds := by
    intro hmem
    obtain ⟨i, -, hi⟩ := List.mem_map.mp hmem
    have hb' : 'b' ∈ List.replicate i 'a' := by
      rw [← String.toList_ofList (l := List.replicate i 'a'), hi]
      decide
    exact absurd (List.eq_of_mem_replicate hb') (by decide)
  have hmem : ∀ i < capacity, String.ofList (List.replicate i 'a') ∈ ds := fun i hi =>
    List.mem_map.mpr ⟨i, List.mem_range.mpr hi, rfl⟩
  obtain ⟨r, hr, hnumbers, hcall, hmany, -, -⟩ :=
    calls_then_compile ds .exact .info [⟨"error", ["b"]⟩]
  obtain ⟨r', hr', -, -, -, -, hok⟩ :=
    calls_then_compile ds .exact .info [⟨"error", ["a", "", "a"]⟩]
  obtain rfl : r = r' := congrArg Prod.snd (hr.symm.trans hr')
  rw [hheld] at hnumbers hcall hmany hok
  refine ⟨r, hr, hnumbers.destinations, ?_, hmany.mpr ?_, hok ?_ ?_⟩
  · obtain ⟨e, he⟩ := (hcall "b").2.1.mpr ⟨hb, hlength⟩
    rw [he, ((hcall "b").2.2 e he).1]
  · have hnamed : Rule.named .exact [⟨"error", ["b"]⟩] = ["b"] := by decide
    rw [hnamed, Finset.union_comm, List.toFinset_cons, List.toFinset_nil, Finset.insert_union,
      Finset.empty_union, Finset.card_insert_of_notMem (by rwa [List.mem_toFinset]), hcard]
    exact Nat.lt_succ_self _
  · have hnamed : Rule.named .exact [⟨"error", ["a", "", "a"]⟩] = ["a", "", "a"] := by decide
    rw [hnamed, Finset.union_eq_left.mpr, hcard]
    intro d hd
    rw [List.mem_toFinset] at hd ⊢
    rcases List.mem_cons.mp hd with rfl | hd
    · exact hmem 1 (by decide)
    rcases List.mem_cons.mp hd with rfl | hd
    · exact hmem 0 (by decide)
    · obtain rfl := List.mem_singleton.mp hd
      exact hmem 1 (by decide)
  · exact ⟨_, List.mem_singleton_self _, by decide⟩

end Registry

end LogRouter
