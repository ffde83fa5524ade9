import LogRouter.Proofs.Route.Capacity
import LogRouter.Proofs.Sink.Resolving
import LogRouter.Settings.Load
import LogRouter.Sink.Build

/-!
# Which sinks cannot be built

Settings are checked when they are loaded, and checked once more, piece by piece, when a sink is
built.

* `Settings.Checked`: what the check of settings finds.
* `Settings.IsIdle`: the entry of a level key gives no route; `Settings.written`: the destinations
  of the other entries.
* `fileWriter_of_checked`: every writer that checked settings ask for can be made.
* `resolveAll_error`: only the surroundings keep a destination from being resolved.
* **`build_fails_by_surroundings`**: the sink of loaded settings cannot be built only if no route is
  left, if there are too many destinations, or if the system refuses a directory or a worker.
-/

namespace LogRouter

namespace Settings

/-! ## Checked settings -/

/-- What the check of settings finds. -/
structure Checked (s : Settings) : Prop where
  stated : s.levelRouting = false → s.destinations ≠ []
  not_blank : ∀ d ∈ s.referenced, Text.allBlank d.toList = false
  size_ne_zero : s.rotation.maxSizeMb ≠ 0
  pattern : s.rotation.byTime = true →
    ∃ pattern, TimePattern.ofString s.rotation.timePattern = .ok pattern

theorem not_blank_of_checkDestinations {s : Settings} (h : s.checkDestinations = .ok ()) :
    (s.levelRouting = false → s.destinations ≠ []) ∧
      ∀ d ∈ s.referenced, Text.allBlank d.toList = false := by
  unfold checkDestinations at h
  split_ifs at h with _ hstated hblank
  refine ⟨fun hrouting hnil => hstated ⟨by simp [hrouting], hnil⟩, fun d hd => ?_⟩
  rw [List.any_eq_true, not_exists] at hblank
  exact Bool.eq_false_iff.mpr fun hd' => hblank d ⟨hd, hd'⟩

theorem pattern_of_checkRotation {r : Rotation} (h : checkRotation r = .ok ()) :
    r.maxSizeMb ≠ 0 ∧
      (r.byTime = true → ∃ pattern, TimePattern.ofString r.timePattern = .ok pattern) := by
  unfold checkRotation at h
  split_ifs at h with hsize hbyTime
  · refine ⟨hsize, fun _ => ?_⟩
    split at h
    · exact ⟨_, ‹_›⟩
    · cases h
  · exact ⟨hsize, fun h' => absurd h' hbyTime⟩

theorem checked_of_check {s s' : Settings} (h : s.check = .ok s') : s' = s ∧ s.Checked := by
  unfold check at h
  cases hdest : s.checkDestinations with
  | error e =>
    rw [hdest] at h
    cases h
  | ok u =>
    cases hrot : checkRotation s.rotation with
    | error e =>
      rw [hdest, hrot] at h
      cases h
    | ok u' =>
      rw [hdest, hrot] at h
      obtain ⟨hstated, hblank⟩ := not_blank_of_checkDestinations hdest
      obtain ⟨hsize, hpattern⟩ := pattern_of_checkRotation hrot
      exact ⟨(Except.ok.inj h).symm, hstated, hblank, hsize, hpattern⟩

/-- **Loaded settings are checked.** -/
theorem checked_of_ofText {text : List Char} {s : Settings} (h : ofText text = .ok s) :
    s.Checked := by
  unfold ofText at h
  split at h
  · cases h
  · split at h
    · cases h
    · obtain ⟨rfl, hchecked⟩ := checked_of_check h
      exact hchecked

/-! ## The entries that give routes -/

/-- The entry of a level key gives no route: its key is not known, or it is `all` and the mode is not
`duplicate`, or it names no destination. -/
def IsIdle (mode : RoutingMode) (entry : String × List String) : Prop :=
  LevelKey.ofName? entry.1 = none ∨
    (LevelKey.ofName? entry.1 = some .all ∧ mode ≠ .duplicate) ∨ entry.2 = []

instance (mode : RoutingMode) (entry : String × List String) : Decidable (IsIdle mode entry) := by
  unfold IsIdle
  infer_instance

/-- The destinations that settings ask for: those of the entries that give routes, or all of them
without level routing. -/
def written (s : Settings) : List String :=
  if s.levelRouting then
    (s.levelDestinations.filter fun entry => ¬ IsIdle s.mode entry).flatMap Prod.snd
  else s.destinations

theorem survives_iff {mode : RoutingMode} {entry : String × List String} :
    (Rule.mk entry.1 entry.2).survives mode = true ↔ ¬ IsIdle mode entry := by
  unfold Rule.survives Rule.key? IsIdle
  rw [Bool.and_eq_true, Bool.not_eq_true', List.isEmpty_eq_false_iff]
  simp only
  cases LevelKey.ofName? entry.1 with
  | none => simp
  | some key => cases key <;> simp [and_comm]

theorem named_rules (s : Settings) : Rule.named s.effectiveMode s.rules = s.written := by
  unfold Rule.named rules effectiveMode written
  cases s.levelRouting with
  | true =>
    simp only [if_true]
    rw [List.filter_map, List.flatMap_map]
    congr 1
    refine List.filter_congr fun entry _ => ?_
    rw [Function.comp_apply, Bool.eq_iff_iff, decide_eq_true_eq]
    exact survives_iff
  | false =>
    have hall : LevelKey.ofName? "all" = some .all := by decide
    simp only [Bool.false_eq_true, if_false]
    cases h : s.destinations <;> simp [Rule.survives, Rule.key?, hall]

theorem no_rule_survives_iff {s : Settings} (hs : s.Checked) :
    (∀ rule ∈ s.rules, rule.survives s.effectiveMode = false) ↔
      s.levelRouting = true ∧ ∀ entry ∈ s.levelDestinations, IsIdle s.mode entry := by
  unfold rules effectiveMode
  cases hrouting : s.levelRouting with
  | true =>
    simp only [if_true, List.forall_mem_map, true_and]
    refine forall₂_congr fun entry _ => ?_
    rw [← Bool.not_eq_true, survives_iff, not_not]
  | false =>
    have hall : LevelKey.ofName? "all" = some .all := by decide
    have hne := hs.stated hrouting
    simp [Rule.survives, Rule.key?, hall, hne]

end Settings

/-! ## Resolving destinations -/

theorem Destination.exists_ofString? {d : String} (hd : Text.allBlank d.toList = false) :
    ∃ parsed, ofString? d = some parsed := by
  unfold ofString?
  rw [hd, if_neg Bool.false_ne_true]
  cases Stream.ofName? d <;> exact ⟨_, rfl⟩

theorem Destination.key_ne_empty {fs : FileSystem} {parsed : Destination} {key : String}
    (hkey : parsed.key fs.cwdPath = .ok key) : key ≠ "" := by
  cases parsed with
  | console stream =>
    obtain rfl := Except.ok.inj hkey
    cases stream <;> decide
  | file p =>
    have hcwd : ∀ q, fs.cwdPath = .ok q → q.chars ≠ [] := by
      intro q hq
      unfold FileSystem.cwdPath at hq
      split_ifs at hq
      obtain rfl := Except.ok.inj hq
      exact List.cons_ne_nil _ _
    simp only [Destination.key] at hkey
    cases hwhole : p.absolute fs.cwdPath with
    | error e =>
      rw [hwhole] at hkey
      cases hkey
    | ok whole =>
      rw [hwhole] at hkey
      obtain rfl := Except.ok.inj hkey
      simpa [Path.text] using Path.absolute_ne_nil hcwd hwhole

namespace Resolver

variable {s : Settings} {resolver : Resolver}

/-- **Every writer that checked settings ask for can be made.** -/
theorem fileWriter_of_checked (hs : s.Checked) (hrot : resolver.rotation = s.rotation) {path : Path}
    (hp : path.chars ≠ []) : ∃ w, resolver.fileWriter path = .ok w := by
  unfold fileWriter
  rw [hrot]
  simp only
  split_ifs with hbyTime
  · obtain ⟨pattern, hpattern⟩ := hs.pattern hbyTime
    unfold TimeWriter.create
    rw [if_neg hp, hpattern]
    exact ⟨_, rfl⟩
  · have hsize : s.rotation.maxSizeBytes ≠ 0 := by
      have hmb : s.rotation.maxSizeMb.toNat ≠ 0 := fun h =>
        hs.size_ne_zero (UInt64.toNat_inj.mp h)
      unfold Rotation.maxSizeBytes Rotation.largestSize
      omega
    unfold SizeWriter.create
    rw [if_neg hp, if_neg hsize]
    exact ⟨_, rfl⟩

theorem launch_error {w : LogWriter} {fleet fleet' : Fleet} {e : SinkError}
    (h : launch w fleet = (.error e, fleet')) :
    ∃ cause, e = .io cause ∧ .error cause ∈ fleet.host.workerStarts := by
  unfold launch Host.startWorker at h
  split_ifs at h
  · cases hstarts : fleet.host.workerStarts with
    | nil => simp [hstarts] at h
    | cons result later =>
      rw [hstarts] at h
      cases result with
      | error cause =>
        simp only [Prod.mk.injEq, Except.error.injEq] at h
        exact ⟨cause, h.1.symm, List.mem_cons_self⟩
      | ok u => simp at h
  · simp at h

theorem launch_starts (w : LogWriter) (fleet : Fleet) :
    (launch w fleet).2.host.workerStarts <:+ fleet.host.workerStarts := by
  unfold launch Host.startWorker
  split_ifs
  · cases hstarts : fleet.host.workerStarts with
    | nil => simp [hstarts]
    | cons result later => cases result <;> exact List.suffix_cons _ _
  · exact List.suffix_rfl

theorem make_error (hs : s.Checked) (hrot : resolver.rotation = s.rotation) {fleet fleet' : Fleet}
    {d key : String} (hkey : key ≠ "") {parsed : Destination} {e : SinkError}
    (h : resolver.make fleet d key parsed = (.error e, fleet')) :
    (∃ cause, e = .resolve d cause) ∨ ∃ cause, e = .io cause ∧ .error cause ∈ fleet.host.workerStarts := by
  cases parsed with
  | console stream => simp [make] at h
  | file path =>
    unfold make at h
    rcases hprepare : prepare fleet.host.fs (Path.ofString key) with ⟨result, fs⟩
    simp only [hprepare] at h
    cases result with
    | error cause =>
      simp only [Prod.mk.injEq, Except.error.injEq] at h
      exact Or.inl ⟨cause, h.1.symm⟩
    | ok u =>
      have hchars : (Path.ofString key).chars ≠ [] := by simpa [Path.ofString] using hkey
      obtain ⟨w, hw⟩ := fileWriter_of_checked hs hrot hchars
      simp only [hw] at h
      obtain ⟨cause, he, hstart⟩ := launch_error h
      exact Or.inr ⟨cause, he, hstart⟩

theorem make_starts (resolver : Resolver) (fleet : Fleet) (d key : String) (parsed : Destination) :
    (resolver.make fleet d key parsed).2.host.workerStarts <:+ fleet.host.workerStarts := by
  cases parsed with
  | console stream => exact List.suffix_rfl
  | file path =>
    unfold make
    rcases prepare fleet.host.fs (Path.ofString key) with ⟨result, fs⟩
    cases result with
    | error cause => exact List.suffix_rfl
    | ok u =>
      cases hw : resolver.fileWriter (Path.ofString key) with
      | error e => simpa only [hw] using List.suffix_rfl
      | ok w => simpa only [hw] using launch_starts w _

theorem Resolves.frame {resolver' : Resolver} {fleet fleet' : Fleet} {d : String}
    {result : Except SinkError Nat} (h : Resolves resolver fleet d result resolver' fleet') :
    resolver'.rotation = resolver.rotation ∧
      fleet'.host.workerStarts <:+ fleet.host.workerStarts := by
  cases h with
  | blank | keyless | found => exact ⟨rfl, List.suffix_rfl⟩
  | @refused parsed key _ _ _ _ hmake =>
    have hstarts := make_starts resolver fleet d key parsed
    rw [hmake] at hstarts
    exact ⟨rfl, hstarts⟩
  | @added parsed key _ _ _ _ _ hmake =>
    have hstarts := make_starts resolver fleet d key parsed
    rw [hmake] at hstarts
    exact ⟨rfl, hstarts⟩

/-- **Only the system keeps a destination from being resolved** that is not blank. -/
theorem Resolves.error {resolver' : Resolver} {fleet fleet' : Fleet} {d : String} {e : SinkError}
    (h : Resolves resolver fleet d (.error e) resolver' fleet') (hs : s.Checked)
    (hrot : resolver.rotation = s.rotation) (hd : Text.allBlank d.toList = false) :
    (∃ cause, e = .resolve d cause) ∨
      ∃ cause, e = .io cause ∧ .error cause ∈ fleet.host.workerStarts := by
  cases h with
  | blank hnone =>
    obtain ⟨parsed, hparsed⟩ := Destination.exists_ofString? hd
    cases hnone.symm.trans hparsed
  | keyless => exact Or.inl ⟨_, rfl⟩
  | refused _ hkey hmake => exact make_error hs hrot (Destination.key_ne_empty hkey) hmake

theorem resolveAll_error (hs : s.Checked) {ds : List String}
    (hds : ∀ d ∈ ds, Text.allBlank d.toList = false) (hrot : resolver.rotation = s.rotation)
    {fleet : Fleet} {e : SinkError} (h : (resolver.resolveAll fleet ds).1 = .error e) :
    (∃ d ∈ ds, ∃ cause, e = .resolve d cause) ∨
      ∃ cause, e = .io cause ∧ .error cause ∈ fleet.host.workerStarts := by
  induction ds generalizing resolver fleet with
  | nil => cases h
  | cons d ds ih =>
    have hresolves := resolves resolver fleet d
    unfold resolveAll at h
    rcases hresolve : resolver.resolve fleet d with ⟨result, resolver', fleet'⟩
    rw [hresolve] at h hresolves
    cases result with
    | error e' =>
      obtain rfl := Except.error.inj h
      rcases hresolves.error hs hrot (hds d List.mem_cons_self) with h' | h'
      · exact Or.inl ⟨d, List.mem_cons_self, h'⟩
      · exact Or.inr h'
    | ok i =>
      simp only at h
      rcases hrest : resolver'.resolveAll fleet' ds with ⟨result, resolver'', fleet''⟩
      rw [hrest] at h
      cases result with
      | ok is => cases h
      | error e' =>
        obtain rfl := Except.error.inj h
        rcases ih (fun d' hd' => hds d' (List.mem_cons_of_mem _ hd')) (hresolves.frame.1.trans hrot)
          (by rw [hrest]) with ⟨d', hd', h'⟩ | ⟨cause, he, hstart⟩
        · exact Or.inl ⟨d', List.mem_cons_of_mem _ hd', h'⟩
        · exact Or.inr ⟨cause, he, hresolves.frame.2.subset hstart⟩

theorem length_of_resolveAll {ds : List String} {fleet : Fleet} {is : List Nat}
    (h : (resolver.resolveAll fleet ds).1 = .ok is) : is.length = ds.length := by
  induction ds generalizing resolver fleet is with
  | nil =>
    obtain rfl := Except.ok.inj h
    rfl
  | cons d ds ih =>
    unfold resolveAll at h
    split at h
    · cases h
    · rename_i i resolver' fleet' _
      rcases hrest : resolver'.resolveAll fleet' ds with ⟨result, resolver'', fleet''⟩
      rw [hrest] at h
      cases result with
      | error e => cases h
      | ok is' =>
        obtain rfl := Except.ok.inj h
        simp [ih (by rw [hrest] : (resolver'.resolveAll fleet' ds).1 = .ok is')]

end Resolver

/-! ## Building the sink -/

namespace Sink

open Registry (capacity)

variable {s : Settings}

theorem build_error_of_table (hs : s.Checked) {table : RouteTable} (htable : s.table = .ok table)
    (hsub : ∀ d ∈ table.destinations.toList, d ∈ s.referenced) {zone : Zone} {fleet : Fleet}
    {e : SinkError} (h : (build s (.empty zone s.rotation) fleet).1 = .error e) :
    (∃ d ∈ s.referenced, ∃ cause, e = .resolve d cause) ∨
      ∃ cause, e = .io cause ∧ .error cause ∈ fleet.host.workerStarts := by
  unfold build at h
  simp only [htable] at h
  rcases hall : (Resolver.empty zone s.rotation).resolveAll fleet table.destinations.toList with
    ⟨result, resolver, fleet'⟩
  rw [hall] at h
  cases result with
  | error e' =>
    obtain rfl := Except.error.inj h
    rcases Resolver.resolveAll_error hs (fun d hd => hs.not_blank d (hsub d hd)) rfl (by rw [hall])
      with ⟨d, hd, h'⟩ | h'
    · exact Or.inl ⟨d, hsub d hd, h'⟩
    · exact Or.inr h'
  | ok writers =>
    have hlength : writers.length = table.destinations.size := by
      rw [Resolver.length_of_resolveAll (by rw [hall]), Array.length_toList]
    change (ofParts resolver.zone table writers s.encoder) = _ at h
    unfold ofParts at h
    rw [if_neg (not_not_intro hlength)] at h
    cases h

theorem build_error_routing_iff (hs : s.Checked) (zone : Zone) (fleet : Fleet)
    (hsub : ∀ table, s.table = .ok table → ∀ d ∈ table.destinations.toList, d ∈ s.referenced)
    {e : RoutingError} :
    (build s (.empty zone s.rotation) fleet).1 = .error (.routing e) ↔ s.table = .error e := by
  cases htable : s.table with
  | error e' =>
    have hbuild : (build s (.empty zone s.rotation) fleet).1 = .error (.routing e') := by
      unfold build
      rw [htable]
    rw [hbuild, Except.error.injEq, SinkError.routing.injEq, Except.error.injEq]
  | ok table =>
    refine iff_of_false (fun h => ?_) (by simp)
    rcases build_error_of_table hs htable (hsub table htable) h with
      ⟨_, _, _, h'⟩ | ⟨_, h', _⟩ <;> cases h'

theorem mem_referenced_of_table {table : RouteTable} (h : s.table = .ok table) :
    ∀ d ∈ table.destinations.toList, d ∈ s.referenced := by
  intro d hd
  unfold Settings.table at h
  rcases RouteTable.compile_cases s.effectiveMode s.level s.rules with
    ⟨table', htable, hnames, _⟩ | ⟨htable, _⟩ | ⟨⟨_, htable⟩, _⟩
  · obtain rfl := Except.ok.inj (h.symm.trans htable)
    have hnamed : d ∈ Rule.named s.effectiveMode s.rules := by
      rw [← List.mem_toFinset, ← hnames, List.mem_toFinset]
      exact hd
    obtain ⟨rule, hrule, hdrule⟩ := List.mem_flatMap.mp hnamed
    rw [Settings.referenced, List.mem_eraseDups, List.mem_flatMap]
    exact ⟨rule, (List.mem_filter.mp hrule).1, hdrule⟩
  · cases h.symm.trans htable
  · cases h.symm.trans htable

/-- **The sink of loaded settings cannot be built only by its surroundings**: the rules leave no
route, they name too many destinations, or the system refuses a directory or a worker. There is no
route exactly if level routing is on and the entries of all keys are idle, and there are too many
destinations exactly if the other entries name more than 65536. -/
theorem build_fails_by_surroundings {text : List Char} (h : Settings.ofText text = .ok s)
    (zone : Zone) (fleet : Fleet) :
    (∀ e, (build s (.empty zone s.rotation) fleet).1 = .error e →
      e = .routing .noRoutes ∨ (∃ d, e = .routing (.tooManyDestinations d)) ∨
        (∃ d ∈ s.referenced, ∃ cause, e = .resolve d cause) ∨
        ∃ cause, e = .io cause ∧ .error cause ∈ fleet.host.workerStarts) ∧
    ((build s (.empty zone s.rotation) fleet).1 = .error (.routing .noRoutes) ↔
      s.levelRouting = true ∧ ∀ entry ∈ s.levelDestinations, Settings.IsIdle s.mode entry) ∧
    ((∃ d, (build s (.empty zone s.rotation) fleet).1 =
        .error (.routing (.tooManyDestinations d))) ↔
      65536 < s.written.toFinset.card) := by
  have hs := Settings.checked_of_ofText h
  have hiff : ∀ {e}, (build s (.empty zone s.rotation) fleet).1 = .error (.routing e) ↔
      s.table = .error e :=
    build_error_routing_iff hs zone fleet fun _ => mem_referenced_of_table
  refine ⟨fun e he => ?_, ?_, ?_⟩
  · cases htable : s.table with
    | ok table =>
      exact Or.inr (Or.inr (build_error_of_table hs htable (mem_referenced_of_table htable) he))
    | error e' =>
      obtain rfl : SinkError.routing e' = e := Except.error.inj ((hiff.mpr htable).symm.trans he)
      unfold Settings.table at htable
      rcases RouteTable.compile_cases s.effectiveMode s.level s.rules with
        ⟨_, h', _⟩ | ⟨h', _⟩ | ⟨⟨d, h'⟩, _⟩
      · cases h'.symm.trans htable
      · obtain rfl := Except.error.inj (h'.symm.trans htable)
        exact Or.inl rfl
      · obtain rfl := Except.error.inj (h'.symm.trans htable)
        exact Or.inr (Or.inl ⟨d, rfl⟩)
  · rw [hiff, Settings.table, RouteTable.compile_eq_noRoutes_iff, Settings.no_rule_survives_iff hs]
  · simp only [hiff]
    rw [Settings.table, RouteTable.compile_eq_tooMany_iff, Settings.named_rules]
    rfl

/-- Settings whose only level key is not known load, and leave no route. -/
theorem unknown_key_leaves_no_route :
    ∃ s : Settings, Settings.ofText ("[output]\nenable_level_routing = true\n" ++
        "level_destinations.loud = [\"app.log\"]\n").toList = .ok s ∧
      (build s (.empty .utc s.rotation) ⟨.ofFileSystem .empty, ⟨0, 0⟩, []⟩).1 =
        .error (.routing .noRoutes) := by
  have hloads : Settings.ofText ("[output]\nenable_level_routing = true\n" ++
      "level_destinations.loud = [\"app.log\"]\n").toList = .ok { Settings.initial with
        levelRouting := true, levelDestinations := [("loud", ["app.log"])] } := by
    decide +kernel
  exact ⟨_, hloads, (build_fails_by_surroundings hloads .utc _).2.1.mpr ⟨rfl, by decide⟩⟩

end Sink

end LogRouter
