import LogRouter.Proofs.Retention.AllOrNothing
import LogRouter.Proofs.Retention.Limit
import Mathlib.Data.Set.List

/-!
# What a sweep leaves

* `SweepRequest.Queue`: the files that a sweep may touch, the last changed first.
* `SweepRequest.survivors`: how many of them stay, which is what both limits leave.
* `keeps_first`: the first ones are not too old, and the others are or are beyond the limit.
* `SweepRequest.Permitted`: nothing hinders the sweep.
* `foldl_stay`, `foldl_go`: the files that stay, one after the other, and those that go.
* **`run_keeps_first`**: a sweep that nothing hinders keeps the first files, packed if that is asked
  for, and removes the others. It counts what it does and changes nothing else.
-/

namespace LogRouter

open FileSystem

namespace SweepRequest

variable {request : SweepRequest} {fs fs₀ : FileSystem} {dir : Location} {files ms : List NamedFile}
  {m : NamedFile} {progress : Progress}

/-! ## The files that a sweep may touch -/

/-- The candidate that a file of the directory is. -/
def asCandidate (request : SweepRequest) (m : NamedFile) : Candidate :=
  ⟨request.pathOf m.name, m.stored.modified⟩

/-- The file is one that the sweep may touch. -/
def MayTouch (request : SweepRequest) (fs : FileSystem) (dir : Location) (m : NamedFile) : Prop :=
  fs.storedAt? (m.name :: dir) = some m.stored ∧ request.Covers m.name

/-- The files that the sweep may touch are the given ones, each of them once, the last changed
first. -/
structure Queue (request : SweepRequest) (fs : FileSystem) (dir : Location)
    (files : List NamedFile) : Prop where
  mem_iff : ∀ m, m ∈ files ↔ request.MayTouch fs dir m
  distinct : files.Pairwise fun m m' => m.name ≠ m'.name
  ordered : files.Pairwise fun m m' => m'.stored.modified ≤ m.stored.modified

theorem isEntry_of_mayTouch (hs : fs.Sound) (hm : request.MayTouch fs dir m) : m.name.IsEntry := by
  obtain ⟨id, hid, -⟩ := storedAt?_eq_some_iff.mp hm.1
  exact (hs.parent m.name dir (by rw [hid]; exact Option.some_ne_none _)).1

/-- **The candidates of a sweep**, arranged, are files in such an order. -/
theorem exists_queue (hs : fs.Sound) (hdir : fs.lookup request.directory = .ok (dir, .directory)) :
    ∃ files cs, request.Queue fs dir files ∧ request.candidates fs = .ok cs ∧
      arranged cs = files.map request.asCandidate := by
  obtain ⟨cs, hcs, hfiles, hpaths, hmem⟩ := candidates_spec hs hdir
  have hperm := List.mergeSort_perm cs fun a b => decide (b.modified ≤ a.modified)
  have hnamed : arranged cs ∈ Set.range
      (List.map fun m : {m // request.MayTouch fs dir m} => request.asCandidate m.1) := by
    rw [Set.range_list_map]
    intro c hc
    obtain ⟨name, hfile⟩ := hfiles c (hperm.mem_iff.mp hc)
    obtain ⟨id, hid, hmodified⟩ := hfile.file
    obtain ⟨stored, hstored⟩ : ∃ stored, fs.stored? id = some stored :=
      ⟨_, List.getElem?_eq_getElem (hs.stored _ id hid)⟩
    refine ⟨⟨⟨name, stored⟩, storedAt?_eq_some_iff.mpr ⟨id, hid, hstored⟩, hfile.covers⟩, ?_⟩
    simp only [asCandidate]
    rw [← hfile.path_eq, ← (content_modified hstored).2, ← hmodified]
  obtain ⟨touched, htouched⟩ := hnamed
  have harranged : arranged cs = (touched.map Subtype.val).map request.asCandidate := by
    rw [← htouched, List.map_map]
    rfl
  refine ⟨touched.map Subtype.val, cs, ⟨fun m => ⟨fun hm => ?_, fun hm => ?_⟩, ?_, ?_⟩, hcs, harranged⟩
  · obtain ⟨m, -, rfl⟩ := List.mem_map.mp hm
    exact m.2
  · obtain ⟨id, hid, hstored⟩ := storedAt?_eq_some_iff.mp hm.1
    have hc := hperm.mem_iff.mpr (hmem m.name id hid hm.2)
    change _ ∈ arranged cs at hc
    rw [harranged] at hc
    obtain ⟨m', hm', heq⟩ := List.mem_map.mp hc
    have htouch' : request.MayTouch fs dir m' := by
      obtain ⟨m', -, rfl⟩ := List.mem_map.mp hm'
      exact m'.2
    -- a path names one file
    have hname : m'.name = m.name := Path.join_injective (isEntry_of_mayTouch hs htouch')
      (isEntry_of_mayTouch hs hm) (congrArg Candidate.path heq)
    have hsame := htouch'.1
    rw [hname, hm.1, Option.some.injEq] at hsame
    obtain ⟨name, stored⟩ := m
    obtain ⟨name', stored'⟩ := m'
    simp only at hname hsame
    rwa [hname, ← hsame] at hm'
  · have hne : (arranged cs).Pairwise fun c c' => c.path ≠ c'.path :=
      (hperm.pairwise_iff fun hne => Ne.symm hne).mpr hpaths
    rw [harranged, List.pairwise_map] at hne
    exact hne.imp fun hne hname => hne (congrArg request.pathOf hname)
  · have hsorted := arranged_pairwise cs
    rwa [harranged, List.pairwise_map] at hsorted

/-! ## The files that stay -/

/-- The number of files that are not too old. -/
def young (request : SweepRequest) (files : List NamedFile) : Nat :=
  files.countP fun m => !request.expires (request.asCandidate m)

/-- The number of files that stay: those that are not too old, as many as the limit says. -/
def survivors (request : SweepRequest) (files : List NamedFile) : Nat :=
  match request.maxFiles with
  | some limit => min limit (request.young files)
  | none => request.young files

theorem survivors_le_young (files : List NamedFile) :
    request.survivors files ≤ request.young files := by
  unfold survivors
  split
  · exact Nat.min_le_right _ _
  · exact Nat.le_refl _

theorem survivors_le_length (files : List NamedFile) : request.survivors files ≤ files.length :=
  (survivors_le_young files).trans List.countP_le_length

theorem expires_iff_drop (request : SweepRequest) : ∀ {files : List NamedFile},
    files.Pairwise (fun m m' => m'.stored.modified ≤ m.stored.modified) →
      (∀ m ∈ files.take (request.young files), request.expires (request.asCandidate m) = false) ∧
        ∀ m ∈ files.drop (request.young files), request.expires (request.asCandidate m) = true
  | [], _ => ⟨fun _ hm => absurd hm List.not_mem_nil, fun _ hm => absurd hm List.not_mem_nil⟩
  | m :: files, hordered => by
    obtain ⟨hfirst, hrest⟩ := List.pairwise_cons.mp hordered
    obtain ⟨hyoung, hold⟩ := expires_iff_drop request hrest
    cases hm : request.expires (request.asCandidate m) with
    | true =>
      have hall : ∀ m' ∈ m :: files, request.expires (request.asCandidate m') = true := by
        intro m' hm'
        rcases List.mem_cons.mp hm' with rfl | hm'
        · exact hm
        · by_contra hnot
          rw [Bool.not_eq_true] at hnot
          rw [expires_mono (hfirst m' hm') hnot] at hm
          cases hm
      have hnone : request.young (m :: files) = 0 :=
        List.countP_eq_zero.mpr fun m' hm' => by simp [hall m' hm']
      rw [hnone]
      exact ⟨fun _ hm' => absurd hm' List.not_mem_nil, hall⟩
    | false =>
      have hone : request.young (m :: files) = request.young files + 1 :=
        List.countP_cons_of_pos (by simp [hm])
      rw [hone]
      refine ⟨fun m' hm' => ?_, hold⟩
      rcases List.mem_cons.mp hm' with rfl | hm'
      · exact hm
      · exact hyoung m' hm'

/-- **The first files** are kept, as many as both limits leave, and the others are not. -/
theorem keeps_first (request : SweepRequest)
    (hordered : files.Pairwise fun m m' => m'.stored.modified ≤ m.stored.modified) :
    (∀ m ∈ files.take (request.survivors files), request.expires (request.asCandidate m) = false) ∧
      (∀ limit, request.maxFiles = some limit → request.survivors files ≤ limit) ∧
      ∀ m ∈ files.drop (request.survivors files),
        request.condemns (request.survivors files) (request.asCandidate m) = true := by
  obtain ⟨hyoung, hold⟩ := expires_iff_drop request hordered
  refine ⟨fun m hm => hyoung m ?_, fun limit hlimit => ?_, fun m hm => ?_⟩
  · exact (List.take_sublist_take_left (survivors_le_young files)).subset hm
  · unfold survivors
    rw [hlimit]
    exact Nat.min_le_left _ _
  · have hexpired : request.survivors files = request.young files →
        request.condemns (request.survivors files) (request.asCandidate m) = true := fun heq =>
      Bool.or_eq_true_iff.mpr (Or.inr (hold m (heq ▸ hm)))
    cases hlimit : request.maxFiles with
    | none => exact hexpired (by rw [survivors, hlimit])
    | some limit =>
      have hsurvivors : request.survivors files = min limit (request.young files) := by
        rw [survivors, hlimit]
      by_cases hle : limit ≤ request.survivors files
      · refine Bool.or_eq_true_iff.mpr (Or.inl ?_)
        rw [hlimit]
        exact decide_eq_true hle
      · exact hexpired (by omega)

/-! ## Sweeps that nothing hinders -/

/-- The file is replaced by its packed form if it stays. -/
def replaces (request : SweepRequest) (m : NamedFile) : Bool :=
  request.policy.compress && !(request.pathOf m.name).isCompressed

/-- Nothing hinders the sweep: its directory can be listed, the files that it may touch can be
removed, and those that it would replace can be compressed, which includes that nothing stands in
the place of the packed form. -/
structure Permitted (request : SweepRequest) (fs : FileSystem) (dir : Location) : Prop where
  sound : fs.Sound
  listed : fs.lookup request.directory = .ok (dir, .directory)
  removable : ∀ m, request.MayTouch fs dir m → ∃ fs', fs.remove (request.pathOf m.name) = .ok fs'
  compressible : ∀ m, request.MayTouch fs dir m → request.replaces m = true →
    fs.CanCompress (request.pathOf m.name)

/-- How a file that stays is kept: replaced by its packed form if that is asked for, and as it is if
not. -/
structure Stays (request : SweepRequest) (fs : FileSystem) (dir : Location) (m : NamedFile) :
    Prop where
  replaced : request.replaces m = true → fs.PackedAt dir m.name m.stored
  left : request.replaces m = false → fs.storedAt? (m.name :: dir) = some m.stored

/-- The places that a file has if it stays. -/
def Place (request : SweepRequest) (dir : Location) (m : NamedFile) (loc : Location) : Prop :=
  loc = m.name :: dir ∨ request.replaces m = true ∧ loc = Path.packedName m.name :: dir

theorem Stays.of_view {fs' : FileSystem} (h : request.Stays fs dir m)
    (hsame : ∀ loc, request.Place dir m loc → fs'.view loc = fs.view loc) :
    request.Stays fs' dir m where
  replaced hreplaced :=
    (h.replaced hreplaced).of_view (hsame _ (Or.inl rfl)) (hsame _ (Or.inr ⟨hreplaced, rfl⟩))
  left hleft := (storedAt?_of_view (hsame _ (Or.inl rfl))).trans (h.left hleft)

namespace Permitted

variable (h : request.Permitted fs₀ dir)

include h

theorem isEntry (hm : request.MayTouch fs₀ dir m) : m.name.IsEntry :=
  isEntry_of_mayTouch h.sound hm

theorem leadsTo (hm : request.MayTouch fs₀ dir m) :
    ∃ id, fs₀.LeadsTo (request.pathOf m.name) (m.name :: dir) (.file id) ∧
      fs₀.stored? id = some m.stored := by
  obtain ⟨fs', hremove⟩ := h.removable m hm
  obtain ⟨loc, node, hleads, -⟩ := remove_eq_ok_iff.mp hremove
  have hloc := eq_of_locate_join (reach_of_lookup h.listed) (h.isEntry hm) hleads.locate
  subst hloc
  obtain ⟨id, hid, hstored⟩ := storedAt?_eq_some_iff.mp hm.1
  obtain rfl := Option.some.inj (hleads.standing.symm.trans hid)
  exact ⟨id, hleads, hstored⟩

theorem packed_free (hm : request.MayTouch fs₀ dir m) (hreplaced : request.replaces m = true) :
    Fits (request.pathOf (Path.packedName m.name)) ∧
      byteLength (Path.packedName m.name) ≤ maxNameLength ∧
      fs₀.node? (Path.packedName m.name :: dir) = none ∧
      fs₀.refusal? .create (Path.packedName m.name :: dir) = none := by
  obtain ⟨-, hcreate⟩ := h.compressible m hm hreplaced
  rw [pathOf, Path.compressed_join (h.isEntry hm)] at hcreate
  exact (createNew_join_iff (reach_of_lookup h.listed) (Path.isEntry_packedName (h.isEntry hm))).mp
    hcreate

theorem apart {m' : NamedFile} (hm : request.MayTouch fs₀ dir m) (hm' : request.MayTouch fs₀ dir m')
    (hne : m.name ≠ m'.name) {loc : Location} (hloc : request.Place dir m loc) :
    ¬ request.Place dir m' loc := by
  -- a file stands in no place that is free
  have hfree : ∀ {m m' : NamedFile}, request.MayTouch fs₀ dir m → request.MayTouch fs₀ dir m' →
      request.replaces m = true → m'.name :: dir ≠ Path.packedName m.name :: dir := by
    intro m m' hm hm' hreplaced heq
    obtain ⟨id, hid, -⟩ := storedAt?_eq_some_iff.mp hm'.1
    rw [heq, (h.packed_free hm hreplaced).2.2.1] at hid
    cases hid
  rintro hloc'
  rcases hloc with rfl | ⟨hreplaced, rfl⟩ <;> rcases hloc' with heq | ⟨hreplaced', heq⟩
  · exact hne (List.cons.inj heq).1
  · exact hfree hm' hm hreplaced' heq
  · exact hfree hm hm' hreplaced heq.symm
  · exact hne (Path.packedName_injective (List.cons.inj heq).1)

section Treat

variable (hm : request.MayTouch fs₀ dir m) (hs : progress.fs.Sound) (hdirs : DirsKept fs₀ progress.fs)

include hm hs hdirs

/-- **A file that goes** is removed, and that is counted. -/
theorem treat_go (hsame : progress.fs.view (m.name :: dir) = fs₀.view (m.name :: dir))
    (hgoes : request.condemns progress.kept (request.asCandidate m) = true) :
    ∃ fs, request.treat progress (request.asCandidate m) =
        ⟨fs, progress.kept, { progress.stats with removed := progress.stats.removed + 1 }⟩ ∧
      AgreeOff (· = m.name :: dir) progress.fs fs ∧ fs.node? (m.name :: dir) = none := by
  obtain ⟨id, hleads, -⟩ := h.leadsTo hm
  have hnow := hleads.of_dirsKept hdirs ((node?_of_view hsame).trans hleads.standing)
  refine ⟨progress.fs.dropEntry (m.name :: dir), ?_, hnow.dropEntry hs⟩
  unfold treat
  rw [if_pos hgoes, asCandidate]
  simp only [remove_eq_ok_iff.mpr ⟨_, _, hnow, rfl⟩]

/-- **A file that stays** is packed if that is asked for, and that is counted. -/
theorem treat_stay (hsame : ∀ loc, request.Place dir m loc → progress.fs.view loc = fs₀.view loc)
    (hstays : request.condemns progress.kept (request.asCandidate m) = false) :
    ∃ fs, request.treat progress (request.asCandidate m) =
        ⟨fs, progress.kept + 1, { progress.stats with
          compressed := progress.stats.compressed + (if request.replaces m then 1 else 0) }⟩ ∧
      AgreeOff (request.Place dir m) progress.fs fs ∧ request.Stays fs dir m := by
  have hname := hsame _ (Or.inl rfl)
  unfold treat
  rw [if_neg (by rw [hstays]; exact Bool.false_ne_true), asCandidate]
  simp only
  change ∃ fs, (if request.replaces m = true then _ else _) = _ ∧ _
  cases hreplaced : request.replaces m with
  | false =>
    refine ⟨progress.fs, rfl, AgreeOff.refl hs, fun hno => ?_, fun _ => ?_⟩
    · rw [hreplaced] at hno
      cases hno
    · exact (storedAt?_of_view hname).trans hm.1
  | true =>
    obtain ⟨id, hleads, hstored⟩ := h.leadsTo hm
    have hentry := h.isEntry hm
    have hnow := hleads.of_dirsKept hdirs ((node?_of_view hname).trans hleads.standing)
    have hreach := hdirs.reach (reach_of_lookup h.listed)
    -- the place of the packed form is still free
    have hcreate : ∃ r, progress.fs.createNew (request.pathOf m.name).compressed = .ok r := by
      rw [pathOf, Path.compressed_join hentry,
        createNew_join_iff hreach (Path.isEntry_packedName hentry),
        node?_of_view (hsame _ (Or.inr ⟨hreplaced, rfl⟩)), hdirs.refusal]
      exact h.packed_free hm hreplaced
    have hagree := (compress_agreeOff hs hreach hentry).mono fun loc (hl : loc = m.name :: dir ∨ _) =>
      hl.imp_right fun hl => (⟨hreplaced, hl⟩ : request.replaces m = true ∧ _)
    obtain ⟨hgone, hframe⟩ := compress_done hs hreach hentry hnow.lookup hcreate
    obtain ⟨hcontent, hmodified⟩ :=
      content_modified ((stored?_of_view hname hleads.standing).trans hstored)
    rw [hcontent, hmodified] at hframe
    have hok : (progress.fs.compress (request.pathOf m.name)).1 =
        .ok (request.pathOf m.name).compressed := by
      rcases compress_cases hs (request.pathOf m.name) with ⟨-, -, hok, -⟩ | ⟨hcannot, -⟩
      · exact hok
      · exact absurd ⟨⟨_, _, hnow.lookup⟩, hcreate⟩ hcannot
    refine ⟨(progress.fs.compress (request.pathOf m.name)).2, ?_, hagree, ?_, ?_⟩
    · generalize progress.fs.compress (request.pathOf m.name) = result at hok
      obtain ⟨outcome, fs⟩ := result
      subst hok
      rfl
    · exact fun _ => ⟨hgone, _, hframe, Lz4.decode?_encode _⟩
    · intro hno
      rw [hreplaced] at hno
      cases hno

end Treat

variable (progress) in
/-- **Files that go**, one after the other. -/
theorem foldl_go (htouch : ∀ m ∈ ms, request.MayTouch fs₀ dir m)
    (hdistinct : ms.Pairwise fun m m' => m.name ≠ m'.name) (hs : progress.fs.Sound)
    (hdirs : DirsKept fs₀ progress.fs)
    (hsame : ∀ m ∈ ms, progress.fs.view (m.name :: dir) = fs₀.view (m.name :: dir))
    (hgo : ∀ m ∈ ms, request.condemns progress.kept (request.asCandidate m) = true) :
    ∃ fs, (ms.map request.asCandidate).foldl request.treat progress = ⟨fs, progress.kept,
        { progress.stats with removed := progress.stats.removed + ms.length }⟩ ∧
      AgreeOff (fun loc => ∃ m ∈ ms, loc = m.name :: dir) progress.fs fs ∧
      ∀ m ∈ ms, fs.node? (m.name :: dir) = none := by
  induction ms generalizing progress with
  | nil => exact ⟨progress.fs, rfl, AgreeOff.refl hs, fun _ hm => absurd hm List.not_mem_nil⟩
  | cons m ms ih =>
    obtain ⟨hfirst, hrest⟩ := List.pairwise_cons.mp hdistinct
    obtain ⟨fs₁, htreat, hagree, hgone⟩ := h.treat_go (htouch m List.mem_cons_self) hs hdirs
      (hsame m List.mem_cons_self) (hgo m List.mem_cons_self)
    have hsame₁ : ∀ m' ∈ ms, fs₁.view (m'.name :: dir) = fs₀.view (m'.name :: dir) := by
      intro m' hm'
      refine (hagree.view _ fun heq => ?_).trans (hsame m' (List.mem_cons_of_mem _ hm'))
      exact hfirst m' hm' (List.cons.inj heq).1.symm
    obtain ⟨fs₂, hfold, hagree', hgone'⟩ := @ih
      ⟨fs₁, progress.kept, { progress.stats with removed := progress.stats.removed + 1 }⟩
      (fun m' hm' => htouch m' (List.mem_cons_of_mem _ hm')) hrest hagree.sound
      (hdirs.trans hagree.dirs) hsame₁ fun m' hm' => hgo m' (List.mem_cons_of_mem _ hm')
    refine ⟨fs₂, ?_, ?_, fun m' hm' => ?_⟩
    · rw [List.map_cons, List.foldl_cons, htreat, hfold, List.length_cons, Nat.add_assoc,
        Nat.add_comm 1]
    · refine (hagree.mono fun loc hl => ⟨m, List.mem_cons_self, hl⟩).trans (hagree'.mono ?_)
      rintro loc ⟨m', hm', hl⟩
      exact ⟨m', List.mem_cons_of_mem _ hm', hl⟩
    · rcases List.mem_cons.mp hm' with rfl | hm'
      · refine (node?_of_view (hagree'.view _ ?_)).trans hgone
        rintro ⟨m'', hm'', heq⟩
        exact hfirst m'' hm'' (List.cons.inj heq).1
      · exact hgone' m' hm'

variable (progress) in
/-- **Files that stay**, one after the other. -/
theorem foldl_stay (htouch : ∀ m ∈ ms, request.MayTouch fs₀ dir m)
    (hdistinct : ms.Pairwise fun m m' => m.name ≠ m'.name) (hs : progress.fs.Sound)
    (hdirs : DirsKept fs₀ progress.fs)
    (hsame : ∀ m ∈ ms, ∀ loc, request.Place dir m loc → progress.fs.view loc = fs₀.view loc)
    (hyoung : ∀ m ∈ ms, request.expires (request.asCandidate m) = false)
    (hroom : ∀ limit, request.maxFiles = some limit → progress.kept + ms.length ≤ limit) :
    ∃ fs, (ms.map request.asCandidate).foldl request.treat progress = ⟨fs, progress.kept + ms.length,
        { progress.stats with
          compressed := progress.stats.compressed + ms.countP request.replaces }⟩ ∧
      AgreeOff (fun loc => ∃ m ∈ ms, request.Place dir m loc) progress.fs fs ∧
      ∀ m ∈ ms, request.Stays fs dir m := by
  induction ms generalizing progress with
  | nil => exact ⟨progress.fs, rfl, AgreeOff.refl hs, fun _ hm => absurd hm List.not_mem_nil⟩
  | cons m ms ih =>
    obtain ⟨hfirst, hrest⟩ := List.pairwise_cons.mp hdistinct
    have hm := htouch m List.mem_cons_self
    have hstays : request.condemns progress.kept (request.asCandidate m) = false := by
      refine Bool.or_eq_false_iff.mpr ⟨?_, hyoung m List.mem_cons_self⟩
      cases hlimit : request.maxFiles with
      | none => rfl
      | some limit =>
        have := hroom limit hlimit
        rw [List.length_cons] at this
        exact decide_eq_false (by omega)
    obtain ⟨fs₁, htreat, hagree, hkept⟩ :=
      h.treat_stay hm hs hdirs (hsame m List.mem_cons_self) hstays
    have hapart : ∀ m' ∈ ms, ∀ loc, request.Place dir m' loc → ¬ request.Place dir m loc :=
      fun m' hm' loc hl' hl => h.apart hm (htouch m' (List.mem_cons_of_mem _ hm')) (hfirst m' hm') hl hl'
    have hsame₁ : ∀ m' ∈ ms, ∀ loc, request.Place dir m' loc → fs₁.view loc = fs₀.view loc :=
      fun m' hm' loc hl => (hagree.view loc (hapart m' hm' loc hl)).trans
        (hsame m' (List.mem_cons_of_mem _ hm') loc hl)
    have hroom₁ : ∀ limit, request.maxFiles = some limit → progress.kept + 1 + ms.length ≤ limit := by
      intro limit hlimit
      have := hroom limit hlimit
      rw [List.length_cons] at this
      omega
    obtain ⟨fs₂, hfold, hagree', hkept'⟩ := @ih
      ⟨fs₁, progress.kept + 1, { progress.stats with
        compressed := progress.stats.compressed + (if request.replaces m then 1 else 0) }⟩
      (fun m' hm' => htouch m' (List.mem_cons_of_mem _ hm')) hrest hagree.sound
      (hdirs.trans hagree.dirs) hsame₁ (fun m' hm' => hyoung m' (List.mem_cons_of_mem _ hm')) hroom₁
    refine ⟨fs₂, ?_, ?_, fun m' hm' => ?_⟩
    · rw [List.map_cons, List.foldl_cons, htreat, hfold, List.length_cons, List.countP_cons]
      simp only [Progress.mk.injEq, SweepStats.mk.injEq, true_and, and_true]
      omega
    · refine (hagree.mono fun loc hl => ⟨m, List.mem_cons_self, hl⟩).trans (hagree'.mono ?_)
      rintro loc ⟨m', hm', hl⟩
      exact ⟨m', List.mem_cons_of_mem _ hm', hl⟩
    · rcases List.mem_cons.mp hm' with rfl | hm'
      · refine hkept.of_view fun loc hl => hagree'.view loc ?_
        rintro ⟨m'', hm'', hl''⟩
        exact hapart m'' hm'' loc hl'' hl
      · exact hkept' m' hm'

end Permitted

/-! ## Whole sweeps -/

/-- What a sweep leaves of the files that it may touch: the first ones stay, the others are gone, and
everything else is as it was. -/
structure Outcome (request : SweepRequest) (fs fs' : FileSystem) (dir : Location)
    (files : List NamedFile) : Prop where
  stays : ∀ m ∈ files.take (request.survivors files), request.Stays fs' dir m
  gone : ∀ m ∈ files.drop (request.survivors files), fs'.node? (m.name :: dir) = none
  others : AgreeOff (fun loc => (∃ m ∈ files, loc = m.name :: dir) ∨
    ∃ m ∈ files.take (request.survivors files), request.replaces m = true ∧
      loc = Path.packedName m.name :: dir) fs fs'

theorem Permitted.run_of_queue (h : request.Permitted fs dir) (hqueue : request.Queue fs dir files)
    {cs : List Candidate} (hcs : request.candidates fs = .ok cs)
    (harranged : arranged cs = files.map request.asCandidate) :
    request.Outcome fs (request.run fs).2 dir files ∧
      (request.run fs).1 = ⟨files.length, files.length - request.survivors files,
        (files.take (request.survivors files)).countP request.replaces, 0⟩ := by
  obtain ⟨hyoung, hroom, hgo⟩ := keeps_first request hqueue.ordered
  have hle : request.survivors files ≤ files.length := survivors_le_length files
  set k := request.survivors files
  have hkeep : (files.take k).length = k := List.length_take_of_le hle
  have htouch := fun m (hm : m ∈ files) => (hqueue.mem_iff m).mp hm
  have hsplit := hqueue.distinct
  rw [← List.take_append_drop k files] at hsplit
  obtain ⟨hfront, hback, hcross⟩ := List.pairwise_append.mp hsplit
  obtain ⟨fs₁, hfold, hagree, hstays⟩ := h.foldl_stay ⟨fs, 0, ⟨cs.length, 0, 0, 0⟩⟩
    (fun m (hm : m ∈ files.take k) => htouch m (List.mem_of_mem_take hm)) hfront h.sound
    (DirsKept.refl fs) (fun _ _ _ _ => rfl) hyoung
    (fun limit hlimit => by rw [hkeep, Nat.zero_add]; exact hroom limit hlimit)
  have hapart : ∀ m ∈ files.take k, ∀ m' ∈ files.drop k, ¬ request.Place dir m (m'.name :: dir) :=
    fun m hm m' hm' hl => h.apart (htouch m (List.mem_of_mem_take hm))
      (htouch m' (List.mem_of_mem_drop hm')) (hcross m hm m' hm') hl (Or.inl rfl)
  obtain ⟨fs₂, hfold', hagree', hgone⟩ := h.foldl_go
    ⟨fs₁, k, ⟨cs.length, 0, (files.take k).countP request.replaces, 0⟩⟩
    (fun m (hm : m ∈ files.drop k) => htouch m (List.mem_of_mem_drop hm)) hback hagree.sound hagree.dirs
    (fun m' hm' => hagree.view _ fun ⟨m, hm, hl⟩ => hapart m hm m' hm' hl) hgo
  have hrun : request.run fs = (⟨files.length, files.length - k,
      (files.take k).countP request.replaces, 0⟩, fs₂) := by
    have hlength : cs.length = files.length := by
      rw [← List.length_map request.asCandidate, ← harranged]
      exact (List.mergeSort_perm cs _).length_eq.symm
    unfold run
    rw [hcs]
    simp only
    rw [harranged, ← List.take_append_drop k files, List.map_append, List.foldl_append, hfold]
    simp only [hkeep, Nat.zero_add]
    rw [hfold', List.length_drop, hlength, List.take_append_drop]
    simp
  rw [hrun]
  refine ⟨⟨fun m hm => (hstays m hm).of_view fun loc hl => hagree'.view loc ?_, hgone, ?_⟩, rfl⟩
  · rintro ⟨m', hm', rfl⟩
    exact hapart m hm m' hm' hl
  · refine (hagree.mono ?_).trans (hagree'.mono ?_)
    · rintro loc ⟨m, hm, hl | hl⟩
      · exact Or.inl ⟨m, List.mem_of_mem_take hm, hl⟩
      · exact Or.inr ⟨m, hm, hl⟩
    · rintro loc ⟨m, hm, hl⟩
      exact Or.inl ⟨m, List.mem_of_mem_drop hm, hl⟩

/-- **A sweep that nothing hinders keeps the first files**, the last changed first, as many as both
limits leave. It packs those that it is to pack, removes the others, counts what it does and changes
nothing else. -/
theorem run_keeps_first (h : request.Permitted fs dir) :
    ∃ files, request.Queue fs dir files ∧ request.Outcome fs (request.run fs).2 dir files ∧
      (request.run fs).1 = ⟨files.length, files.length - request.survivors files,
        (files.take (request.survivors files)).countP request.replaces, 0⟩ := by
  obtain ⟨files, cs, hqueue, hcs, harranged⟩ := exists_queue h.sound h.listed
  exact ⟨files, hqueue, h.run_of_queue hqueue hcs harranged⟩

/-- Two logs of one byte each, the second a day after the first. -/
def twoLogs : FileSystem := ofFiles [
  ("app.2025-01-01.log".toList, ⟨[97], 1735743845000000000⟩),
  ("app.2025-01-02.log".toList, ⟨[98], 1735830245000000000⟩)]

/-- The sweep that keeps one log and packs it. -/
def keepOne : SweepRequest where
  directory := .ofString "."
  names := .around (.ofString "app.log") '.' "%Y-%m-%d".toList
  active := .ofString "app.log"
  now := ⟨1735830245, 0⟩
  policy := ⟨0, 86400, true⟩
  maxFiles := some 1

theorem sound_twoLogs : twoLogs.Sound := by
  have hfirst := (@Sound.addFile _ Sound.empty "app.2025-01-01.log".toList [] rfl
    ⟨by decide, by decide, by decide, by decide, by decide⟩ rfl)
  have hsecond := @Sound.addFile _ hfirst "app.2025-01-02.log".toList [] (by decide +kernel)
    ⟨by decide, by decide, by decide, by decide, by decide⟩ rfl
  exact hsecond.setStored rfl rfl (by decide)

theorem permitted_keepOne : keepOne.Permitted twoLogs [] := by
  have hnames : ∀ m, keepOne.MayTouch twoLogs [] m →
      m.name = "app.2025-01-01.log".toList ∨ m.name = "app.2025-01-02.log".toList := by
    rintro m ⟨hstored, -⟩
    obtain ⟨id, hid, -⟩ := storedAt?_eq_some_iff.mp hstored
    have hmem := (mem_entries_iff sound_twoLogs.nodup (List.cons_ne_nil _ _)).mpr hid
    rcases List.mem_cons.mp hmem with heq | hmem
    · exact Or.inl (List.cons.inj (Prod.mk.inj heq).1).1
    · exact Or.inr (List.cons.inj (Prod.mk.inj (List.mem_singleton.mp hmem)).1).1
  have hok : ∀ {α : Type} {r : Except IoError α}, r.toBool = true → ∃ a, r = .ok a := by
    intro α r hr
    cases r with
    | error e => cases hr
    | ok a => exact ⟨a, rfl⟩
  refine ⟨sound_twoLogs, by decide +kernel, fun m hm => hok ?_, fun m hm _ => ⟨?_, hok ?_⟩⟩
  · rcases hnames m hm with hname | hname <;> rw [hname] <;> decide +kernel
  · rcases hnames m hm with hname | hname <;> rw [hname]
    · exact ⟨["app.2025-01-01.log".toList], 0, by decide +kernel⟩
    · exact ⟨["app.2025-01-02.log".toList], 1, by decide +kernel⟩
  · rcases hnames m hm with hname | hname <;> rw [hname] <;> decide +kernel

/-- Of two logs that are candidates, the sweep keeps one. -/
theorem run_keeps_one_of_two_logs :
    (keepOne.candidates twoLogs).toOption.map List.length = some 2 ∧ keepOne.Permitted twoLogs [] ∧
      ∃ files, keepOne.Queue twoLogs [] files ∧
        keepOne.Outcome twoLogs (keepOne.run twoLogs).2 [] files ∧
        (keepOne.run twoLogs).1 = ⟨files.length, files.length - keepOne.survivors files,
          (files.take (keepOne.survivors files)).countP keepOne.replaces, 0⟩ :=
  ⟨by decide +kernel, permitted_keepOne, run_keeps_first permitted_keepOne⟩

end SweepRequest

end LogRouter
