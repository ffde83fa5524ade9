import LogRouter.Proofs.Retention.Cutoff
import LogRouter.Proofs.Retention.Outcome
import LogRouter.Proofs.Retention.Reached

/-!
# Sweeps with different age limits

Two sweeps differ in their age limits alone. The one with the larger limit removes fewer files for
their age, but compresses more of them.

* `foldl_kept`, `foldl_expired`: files that are not too old, and files that are, one after the other.
* `expires_antitone`: what is not too old for an age limit is not too old for a larger one.
* `Parted`: both sweeps do the same up to the first file that is too old for the smaller limit.
* `Spares`: the sweep with the larger limit leaves all that the other one leaves.
* `Loses`: a file that only the larger limit keeps is to be compressed, and the name of its
  compressed form is taken by an entry that the smaller limit leaves.
* `Parted.spares`, `Loses.not_spares`: the sweep spares everything where nothing is lost, and only
  there.
* **`larger_age_spares_iff`**: cutoffs are exact, and the sweep with the larger limit leaves all that
  the other one leaves, unless it loses such an entry.
-/

namespace LogRouter

open FileSystem

namespace SweepRequest

variable {request : SweepRequest} {fs : FileSystem} {dir : Location} {ms young old : List NamedFile}
  {m : NamedFile} {progress : Progress} {age age' : UInt32}

/-! ## Files that stay and files that go -/

theorem place_apart {m' : NamedFile} {loc : Location} (h : m.name.IsEntry) (h' : m'.name.IsEntry)
    (hreplaced : request.replaces m = true) (hreplaced' : request.replaces m' = true)
    (hne : m.name ≠ m'.name) (hl : request.Place dir m loc) : ¬ request.Place dir m' loc := by
  have hplain : ∀ {m : NamedFile}, request.replaces m = true →
      (request.pathOf m.name).isCompressed = false := fun h => by
    rw [replaces, Bool.and_eq_true, Bool.not_eq_true'] at h
    exact h.2
  have hpacked : ∀ {m m' : NamedFile}, m.name.IsEntry → request.replaces m' = true →
      m'.name ≠ Path.packedName m.name := by
    intro m m' h hreplaced heq
    have hcompressed := hplain hreplaced
    rw [heq, pathOf, Path.isCompressed_packedName h] at hcompressed
    cases hcompressed
  rcases hl with rfl | ⟨-, rfl⟩ <;> rintro (heq | ⟨-, heq⟩)
  · exact hne (List.cons.inj heq).1
  · exact hpacked h' hreplaced (List.cons.inj heq).1
  · exact hpacked h hreplaced' (List.cons.inj heq).1.symm
  · exact hne (Path.packedName_injective (List.cons.inj heq).1)

/-- **Files that are not too old**, one after the other, change the places of those that are
compressed at most. -/
theorem foldl_kept (hmax : request.maxFiles = none) (hs : progress.fs.Sound)
    (hreach : progress.fs.reach request.directory = .ok dir)
    (hms : ∀ m ∈ ms, m.name.IsEntry ∧ request.expires (request.asCandidate m) = false) :
    AgreeOff (fun loc => ∃ m ∈ ms, request.replaces m = true ∧ request.Place dir m loc) progress.fs
      ((ms.map request.asCandidate).foldl request.treat progress).fs := by
  refine foldl_agreeOff _ _ progress hs hreach fun c hc progress hs hreach => ?_
  obtain ⟨m, hm, rfl⟩ := List.mem_map.mp hc
  obtain ⟨h, hkept⟩ := hms m hm
  rw [treat_fs hmax, if_neg (by rw [hkept]; exact Bool.false_ne_true)]
  split_ifs with hreplaced
  · refine (compress_agreeOff hs hreach h).mono fun loc hl => ⟨m, hm, hreplaced, ?_⟩
    exact hl.imp_right fun hl => ⟨hreplaced, hl⟩
  · exact AgreeOff.refl hs

/-- **Files that are too old**, one after the other: those that their paths reach are removed, and
nothing else changes. -/
theorem foldl_expired (hmax : request.maxFiles = none) (hs : progress.fs.Sound)
    (hreach : progress.fs.reach request.directory = .ok dir)
    (hms : ∀ m ∈ ms, m.name.IsEntry ∧ request.expires (request.asCandidate m) = true ∧
      progress.fs.node? (m.name :: dir) ≠ some .directory) :
    AgreeOff (fun loc => ∃ m ∈ ms, Reaches request.directory m.name ∧ loc = m.name :: dir) progress.fs
        ((ms.map request.asCandidate).foldl request.treat progress).fs ∧
      ∀ m ∈ ms, Reaches request.directory m.name →
        ((ms.map request.asCandidate).foldl request.treat progress).fs.node? (m.name :: dir) =
          none := by
  induction ms generalizing progress with
  | nil => exact ⟨AgreeOff.refl hs, fun _ hm => absurd hm List.not_mem_nil⟩
  | cons m ms ih =>
    obtain ⟨h, hexpired, hfile⟩ := hms m List.mem_cons_self
    have hstep : (request.treat progress (request.asCandidate m)).fs =
        progress.fs.removeIfPossible (request.directory.join ⟨m.name⟩) := by
      rw [treat_fs hmax, if_pos hexpired]
      rfl
    have hagree := removeIfPossible_reaches hs hreach h
    rw [← hstep] at hagree
    obtain ⟨hrest, hgone⟩ := @ih (request.treat progress (request.asCandidate m)) hagree.sound
      (hagree.dirs.reach hreach) fun m' hm' => by
        obtain ⟨h', hexpired', hfile'⟩ := hms m' (List.mem_cons_of_mem _ hm')
        exact ⟨h', hexpired', fun hdir => hfile' (hagree.made _ hdir)⟩
    refine ⟨(hagree.mono fun loc hl => ⟨m, List.mem_cons_self, hl⟩).trans (hrest.mono ?_), ?_⟩
    · rintro loc ⟨m', hm', hl⟩
      exact ⟨m', List.mem_cons_of_mem _ hm', hl⟩
    · intro m' hm' hreaches
      rcases List.mem_cons.mp hm' with rfl | hm'
      · -- it is gone, unless a file of the same name goes later
        by_cases hlater : ∃ m'' ∈ ms, Reaches request.directory m''.name ∧
            m'.name :: dir = m''.name :: dir
        · obtain ⟨m'', hm'', hreaches'', heq⟩ := hlater
          rw [heq]
          exact hgone m'' hm'' hreaches''
        · rw [List.map_cons, List.foldl_cons, node?_of_view (hrest.view _ hlater), hstep]
          exact removeIfPossible_gone hs hreach h hreaches hfile
      · exact hgone m' hm' hreaches

/-! ## Another age limit -/

/-- The same sweep with another age limit. -/
def withAge (request : SweepRequest) (age : UInt32) : SweepRequest :=
  { request with policy := request.policy.withAge age }

theorem expires_eq_true_iff {c : Candidate} : request.expires c = true ↔
    ∃ cutoff, request.policy.cutoff? request.now = some cutoff ∧ c.modified < cutoff.total := by
  unfold expires
  cases request.policy.cutoff? request.now <;> simp

/-- **What is not too old** for an age limit is not too old for a larger one. -/
theorem expires_antitone (hunit : 0 < request.policy.unit.nanos) (hnow : request.now.Representable)
    (hleap : request.now.isLeap = false) (hpos : 0 < age) (hle : age ≤ age') {c : Candidate}
    (h : (request.withAge age).expires c = false) : (request.withAge age').expires c = false := by
  rw [← Bool.not_eq_true, expires_eq_true_iff] at h ⊢
  rintro ⟨cutoff', hcutoff', hold⟩
  obtain ⟨cutoff, hcutoff, hearlier⟩ :=
    RetentionPolicy.cutoff?_antitone hunit hle hpos hnow hleap hcutoff'
  exact h ⟨cutoff, hcutoff, hold.trans_le hearlier⟩

/-- What both sweeps do up to the first file that is too old for the smaller limit, and which files are
left then. -/
structure Parted (request : SweepRequest) (age age' : UInt32) (fs : FileSystem) (dir : Location)
    (young old : List NamedFile) (progress : Progress) : Prop where
  mem_iff : ∀ m, m ∈ young ∨ m ∈ old ↔ request.MayTouch fs dir m
  young_kept : ∀ m ∈ young, (request.withAge age).expires (request.asCandidate m) = false
  old_expires : ∀ m ∈ old, (request.withAge age).expires (request.asCandidate m) = true
  apart : ∀ m ∈ young, ∀ m' ∈ old, m.name ≠ m'.name
  distinct : old.Pairwise fun m m' => m.name ≠ m'.name
  ordered : old.Pairwise fun m m' => m'.stored.modified ≤ m.stored.modified
  agree : AgreeOff (fun loc => ∃ m ∈ young, request.replaces m = true ∧ request.Place dir m loc) fs
    progress.fs
  small : ((request.withAge age).run fs).2 =
    ((old.map request.asCandidate).foldl (request.withAge age).treat progress).fs
  large : ((request.withAge age').run fs).2 =
    ((old.map request.asCandidate).foldl (request.withAge age').treat progress).fs

section Ages

variable (hmax : request.maxFiles = none) (hs : fs.Sound)
  (hdir : fs.lookup request.directory = .ok (dir, .directory))

include hmax hs hdir

/-- **Up to the first file that is too old for the smaller limit**, the sweeps do the same. -/
theorem exists_parted (hage : ∀ c, (request.withAge age).expires c = false →
      (request.withAge age').expires c = false) :
    ∃ young old progress, request.Parted age age' fs dir young old progress := by
  obtain ⟨files, cs, hqueue, hcs, harranged⟩ := @exists_queue (request.withAge age) fs dir hs hdir
  obtain ⟨hyoung, hold⟩ := expires_iff_drop (request.withAge age) hqueue.ordered
  set k := (request.withAge age).young files
  set start : Progress := ⟨fs, 0, ⟨cs.length, 0, 0, 0⟩⟩
  have hsplit := List.take_append_drop k files
  have hordered := hqueue.ordered
  have hdistinct := hqueue.distinct
  rw [← hsplit] at hordered hdistinct
  have hmem : ∀ m, m ∈ files.take k ∨ m ∈ files.drop k ↔ request.MayTouch fs dir m := fun m => by
    rw [← List.mem_append, hsplit]
    exact hqueue.mem_iff m
  have hrun : ∀ age'' : UInt32, ((request.withAge age'').run fs).2 =
      (((files.drop k).map request.asCandidate).foldl (request.withAge age'').treat
        (((files.take k).map request.asCandidate).foldl (request.withAge age'').treat start)).fs := by
    intro age''
    have hcs' : (request.withAge age'').candidates fs = .ok cs := hcs
    have harranged' : arranged cs = files.map request.asCandidate := harranged
    unfold run
    rw [hcs']
    simp only
    rw [harranged', ← List.foldl_append, ← List.map_append, hsplit]
  have hsame : ((files.take k).map request.asCandidate).foldl (request.withAge age').treat start =
      ((files.take k).map request.asCandidate).foldl (request.withAge age).treat start := by
    refine List.foldl_ext _ _ start fun progress c hc => ?_
    obtain ⟨m, hm, rfl⟩ := List.mem_map.mp hc
    have hkept := hyoung m hm
    have hkept' := hage _ hkept
    have hcondemns : (request.withAge age').condemns progress.kept (request.asCandidate m) =
        (request.withAge age).condemns progress.kept (request.asCandidate m) := by
      rw [@condemns_of_unlimited (request.withAge age') hmax,
        @condemns_of_unlimited (request.withAge age) hmax]
      exact hkept'.trans hkept.symm
    unfold treat
    rw [hcondemns]
    rfl
  refine ⟨files.take k, files.drop k,
    ((files.take k).map request.asCandidate).foldl (request.withAge age).treat start, hmem, hyoung,
    hold, (List.pairwise_append.mp hdistinct).2.2, (List.pairwise_append.mp hdistinct).2.1,
    (List.pairwise_append.mp hordered).2.1, ?_, hrun age, ?_⟩
  · exact @foldl_kept (request.withAge age) dir _ start hmax hs (reach_of_lookup hdir) fun m hm =>
      ⟨isEntry_of_mayTouch hs ((hmem m).mp (Or.inl hm)), hyoung m hm⟩
  · rw [hrun age', hsame]

end Ages

/-! ## Entries that are lost -/

/-- A file that only the larger limit keeps is to be compressed, and the name of its compressed form is
taken by an entry that the smaller limit leaves. -/
structure Loses (request : SweepRequest) (age age' : UInt32) (fs : FileSystem) (dir : Location)
    (m : NamedFile) : Prop where
  listed : fs.lookup request.directory = .ok (dir, .directory)
  mayTouch : request.MayTouch fs dir m
  expires : (request.withAge age).expires (request.asCandidate m) = true
  kept : (request.withAge age').expires (request.asCandidate m) = false
  replaced : request.replaces m = true
  taken : fs.IsTaken (request.pathOf m.name)
  left : ∀ m', request.MayTouch fs dir m' → m'.name = Path.packedName m.name →
    (request.withAge age).expires (request.asCandidate m') = false

/-- The sweep with the larger limit leaves all that the other one leaves, and leaves it the same. -/
def Spares (request : SweepRequest) (age age' : UInt32) (fs : FileSystem) : Prop :=
  ∀ loc node, ((request.withAge age).run fs).2.node? loc = some node →
    ((request.withAge age').run fs).2.view loc = ((request.withAge age).run fs).2.view loc

namespace Parted

variable (h : request.Parted age age' fs dir young old progress) (hmax : request.maxFiles = none)
  (hs : fs.Sound) (hdir : fs.lookup request.directory = .ok (dir, .directory))

include h

theorem isEntry (hs : fs.Sound) (hm : m ∈ young ∨ m ∈ old) : m.name.IsEntry :=
  isEntry_of_mayTouch hs ((h.mem_iff m).mp hm)

theorem view_place (hs : fs.Sound) (hm : m ∈ old) (hreplaced : request.replaces m = true)
    {loc : Location} (hl : request.Place dir m loc) : progress.fs.view loc = fs.view loc := by
  refine h.agree.view loc ?_
  rintro ⟨m', hm', hreplaced', hl'⟩
  exact place_apart (h.isEntry hs (Or.inl hm')) (h.isEntry hs (Or.inr hm)) hreplaced' hreplaced
    (h.apart m' hm' m hm) hl' hl

include hmax hs hdir

/-- **What the sweep with the smaller limit does to the old files**: it removes those that their paths
reach. -/
theorem small_spec :
    AgreeOff (fun loc => ∃ m ∈ old, Reaches request.directory m.name ∧ loc = m.name :: dir) progress.fs
        ((request.withAge age).run fs).2 ∧
      ∀ m ∈ old, Reaches request.directory m.name →
        ((request.withAge age).run fs).2.node? (m.name :: dir) = none := by
  rw [h.small]
  refine @foldl_expired (request.withAge age) dir old progress hmax h.agree.sound
    (h.agree.dirs.reach (reach_of_lookup hdir)) fun m hm =>
      ⟨h.isEntry hs (Or.inr hm), h.old_expires m hm, fun hdirectory => ?_⟩
  obtain ⟨id, hid, -⟩ := storedAt?_eq_some_iff.mp ((h.mem_iff m).mp (Or.inr hm)).1
  cases (h.agree.made _ hdirectory).symm.trans hid

theorem treat_old (hloses : ¬ ∃ dir m, request.Loses age age' fs dir m) (hm : m ∈ old)
    {now : Progress}
    (hnow : AgreeOff (fun loc => ((request.withAge age).run fs).2.node? loc = none) progress.fs
      now.fs) :
    AgreeOff (fun loc => ((request.withAge age).run fs).2.node? loc = none) now.fs
      ((request.withAge age').treat now (request.asCandidate m)).fs := by
  obtain ⟨hsmall, hgone⟩ := h.small_spec hmax hs hdir
  have hentry := h.isEntry hs (Or.inr hm)
  have hreach := reach_of_lookup hdir
  have hreach' := hnow.dirs.reach (h.agree.dirs.reach hreach)
  have hkeeps : (request.withAge age').maxFiles = none := hmax
  rw [treat_fs hkeeps]
  split_ifs with hexpires hreplaced
  · refine (removeIfPossible_reaches hnow.sound hreach' hentry).mono ?_
    rintro loc ⟨hreaches, rfl⟩
    exact hgone m hm hreaches
  · refine (compress_reaches hnow.sound hreach' hentry).mono ?_
    rintro loc ⟨hreaches, rfl | ⟨rfl, hcause⟩⟩
    · exact hgone m hm hreaches
    by_contra hleft
    -- what the other sweep leaves there has always stood there
    have hbefore : now.fs.view (Path.packedName m.name :: dir) =
        fs.view (Path.packedName m.name :: dir) :=
      (hnow.view _ hleft).trans (h.view_place hs hm hreplaced (Or.inr ⟨hreplaced, rfl⟩))
    have hafter : ((request.withAge age).run fs).2.view (Path.packedName m.name :: dir) =
        progress.fs.view (Path.packedName m.name :: dir) :=
      hsmall.view _ fun ⟨m', hm', hreaches', heq⟩ => hleft (heq ▸ hgone m' hm' hreaches')
    rcases hcause with hnone | htaken
    · rw [node?_of_view (hnow.view _ hleft), ← node?_of_view hafter] at hnone
      exact hleft hnone
    · obtain ⟨-, hreachesPacked, hstands⟩ := (isTaken_join_iff hreach' hentry).mp htaken
      rw [node?_of_view hbefore] at hstands
      have hmay := (h.mem_iff m).mp (Or.inr hm)
      obtain ⟨id, hid, -⟩ := storedAt?_eq_some_iff.mp hmay.1
      have hfound := ((leadsTo_join_iff hreach hentry).mpr ⟨hreaches, rfl, hid, nofun⟩).lookup
      refine hloses ⟨dir, m, hdir, hmay, h.old_expires m hm, Bool.eq_false_iff.mpr hexpires, hreplaced,
        (isTaken_join_iff hreach hentry).mpr ⟨⟨_, hfound⟩, hreachesPacked, hstands⟩,
        fun m' hm' hname => ?_⟩
      rcases (h.mem_iff m').mpr hm' with hyoung | hold
      · exact h.young_kept m' hyoung
      · exact absurd (hname ▸ hgone m' hold (hname ▸ hreachesPacked)) hleft
  · exact AgreeOff.refl hnow.sound

/-- **Where nothing is lost**, the sweep with the larger limit spares what the other one leaves. -/
theorem spares (hloses : ¬ ∃ dir m, request.Loses age age' fs dir m) :
    request.Spares age age' fs := by
  obtain ⟨hsmall, hgone⟩ := h.small_spec hmax hs hdir
  have hlarge : AgreeOff (fun loc => ((request.withAge age).run fs).2.node? loc = none) progress.fs
      ((request.withAge age').run fs).2 := by
    rw [h.large]
    suffices hall : ∀ (ms : List NamedFile) (now : Progress), (∀ m ∈ ms, m ∈ old) →
        AgreeOff (fun loc => ((request.withAge age).run fs).2.node? loc = none) progress.fs now.fs →
        AgreeOff (fun loc => ((request.withAge age).run fs).2.node? loc = none) progress.fs
          ((ms.map request.asCandidate).foldl (request.withAge age').treat now).fs from
      hall old progress (fun _ hm => hm) (AgreeOff.refl h.agree.sound)
    intro ms
    induction ms with
    | nil => exact fun now _ hnow => hnow
    | cons m ms ih =>
      exact fun now hms hnow => ih _ (fun m' hm' => hms m' (List.mem_cons_of_mem _ hm'))
        (hnow.trans (h.treat_old hmax hs hdir hloses (hms m List.mem_cons_self) hnow))
  intro loc node hnode
  have hleft : ((request.withAge age).run fs).2.node? loc ≠ none := by rw [hnode]; exact nofun
  rw [hlarge.view loc hleft, hsmall.view loc]
  rintro ⟨m, hm, hreaches, rfl⟩
  exact hleft (hgone m hm hreaches)

end Parted

/-! ## What is lost -/

namespace Loses

variable {before after : List NamedFile} (hl : request.Loses age age' fs dir m)
  (h : request.Parted age age' fs dir young old progress) (hs : fs.Sound)

include hl h

theorem mem_old : m ∈ old := by
  refine ((h.mem_iff m).mpr hl.mayTouch).resolve_left fun hm => ?_
  have hkept := h.young_kept m hm
  rw [hl.expires] at hkept
  cases hkept

theorem ne_packed {m' : NamedFile} (hm' : m' ∈ old) : m'.name ≠ Path.packedName m.name := by
  intro heq
  have hkept := hl.left m' ((h.mem_iff m').mp (Or.inr hm')) heq
  rw [h.old_expires m' hm'] at hkept
  cases hkept

theorem reach_progress : progress.fs.reach request.directory = .ok dir :=
  h.agree.dirs.reach (reach_of_lookup hl.listed)

include hs

theorem view_small (hmax : request.maxFiles = none) :
    ((request.withAge age).run fs).2.view (Path.packedName m.name :: dir) =
      fs.view (Path.packedName m.name :: dir) := by
  rw [(h.small_spec hmax hs hl.listed).1.view _ fun ⟨m', hm', _, heq⟩ =>
    hl.ne_packed h hm' (List.cons.inj heq).1.symm]
  exact h.view_place hs (hl.mem_old h) hl.replaced (Or.inr ⟨hl.replaced, rfl⟩)

theorem foldl_before (hmax : request.maxFiles = none) (hsplit : old = before ++ m :: after) :
    AgreeOff (fun loc => ¬ request.Place dir m loc) progress.fs
      ((before.map request.asCandidate).foldl (request.withAge age').treat progress).fs := by
  have hordered := h.ordered
  have hdistinct := h.distinct
  rw [hsplit] at hordered hdistinct
  have hearlier := (List.pairwise_append.mp hordered).2.2
  have hapart := (List.pairwise_append.mp hdistinct).2.2
  have hentry : ∀ m' ∈ before, m'.name.IsEntry := fun m' hm' =>
    h.isEntry hs (Or.inr (hsplit ▸ List.mem_append_left _ hm'))
  refine (@foldl_kept (request.withAge age') dir before progress hmax h.agree.sound
    (hl.reach_progress h) fun m' hm' => ⟨hentry m' hm',
      expires_mono (hearlier m' hm' m List.mem_cons_self) hl.kept⟩).mono ?_
  rintro loc ⟨m', hm', hreplaced', hloc'⟩
  exact place_apart (hentry m' hm') (h.isEntry hs (Or.inr (hl.mem_old h))) hreplaced' hl.replaced
    (hapart m' hm' m List.mem_cons_self) hloc'

theorem foldl_after (hsplit : old = before ++ m :: after) {now : Progress} (hsNow : now.fs.Sound)
    (hreach : now.fs.reach request.directory = .ok dir) :
    AgreeOff (· ≠ Path.packedName m.name :: dir) now.fs
      ((after.map request.asCandidate).foldl (request.withAge age').treat now).fs := by
  have hdistinct := h.distinct
  rw [hsplit] at hdistinct
  have hapart := (List.pairwise_cons.mp (List.pairwise_append.mp hdistinct).2.1).1
  refine @foldl_agreeOff (request.withAge age') dir _ _ now hsNow hreach fun c hc now hs' hreach' => ?_
  obtain ⟨m', hm', rfl⟩ := List.mem_map.mp hc
  have hold : m' ∈ old := hsplit ▸ List.mem_append_right _ (List.mem_cons_of_mem _ hm')
  refine (treat_agreeOff_places hs' hreach' (h.isEntry hs (Or.inr hold)) rfl).mono ?_
  rintro loc (rfl | ⟨rfl, -⟩) heq
  · exact hl.ne_packed h hold (List.cons.inj heq).1
  · exact hapart m' hm' (Path.packedName_injective (List.cons.inj heq).1).symm

/-- **The sweep with the larger limit removes it**: the compression fails because the name is taken, and
the cleanup hits what has taken it. -/
theorem node?_large (hmax : request.maxFiles = none) :
    ((request.withAge age').run fs).2.node? (Path.packedName m.name :: dir) = none := by
  have hentry := h.isEntry hs (Or.inr (hl.mem_old h))
  obtain ⟨before, after, hsplit⟩ := List.append_of_mem (hl.mem_old h)
  have hbefore := hl.foldl_before h hs hmax hsplit
  set now := (before.map request.asCandidate).foldl (request.withAge age').treat progress
  have hreach := hbefore.dirs.reach (hl.reach_progress h)
  have hsame : ∀ loc, request.Place dir m loc → now.fs.view loc = fs.view loc := fun loc hloc =>
    (hbefore.view loc (not_not_intro hloc)).trans (h.view_place hs (hl.mem_old h) hl.replaced hloc)
  have htaken : now.fs.IsTaken (request.pathOf m.name) := by
    obtain ⟨⟨found, hfound⟩, hreaches, hstands⟩ :=
      (isTaken_join_iff (reach_of_lookup hl.listed) hentry).mp hl.taken
    obtain ⟨_, _, _, hfits, hshort, _⟩ := of_lookup_join hentry hfound
    obtain ⟨id, hid, -⟩ := storedAt?_eq_some_iff.mp hl.mayTouch.1
    have hnode := (node?_of_view (hsame _ (Or.inl rfl))).trans hid
    rw [← node?_of_view (hsame _ (Or.inr ⟨hl.replaced, rfl⟩))] at hstands
    exact (isTaken_join_iff hreach hentry).mpr
      ⟨⟨_, (lookup_join_iff hreach hentry).mpr ⟨hfits, hshort, hnode⟩⟩, hreaches, hstands⟩
  have hgone : ((request.withAge age').treat now (request.asCandidate m)).fs.node?
      (Path.packedName m.name :: dir) = none := by
    have hkept := hl.kept
    have hreplaced : ((request.withAge age').policy.compress &&
      !(request.asCandidate m).path.isCompressed) = true := hl.replaced
    rw [@treat_fs (request.withAge age') hmax, hkept, if_neg Bool.false_ne_true, if_pos hreplaced]
    exact compress_gone hbefore.sound hreach hentry htaken
  have hturn := @treat_agreeOff_places (request.withAge age') dir now (request.asCandidate m) m.name
    hbefore.sound hreach hentry rfl
  have hafter := hl.foldl_after h hs hsplit hturn.sound (hturn.dirs.reach hreach)
  rw [h.large, hsplit, List.map_append, List.foldl_append, List.map_cons, List.foldl_cons]
  exact (node?_of_view (hafter.view _ (not_not_intro rfl))).trans hgone

/-- **What is lost is not spared.** -/
theorem not_spares (hmax : request.maxFiles = none) : ¬ request.Spares age age' fs := by
  intro hspares
  have hsmall := node?_of_view (hl.view_small h hs hmax)
  obtain ⟨-, -, node, hnode, -⟩ :=
    (isTaken_join_iff (reach_of_lookup hl.listed) (h.isEntry hs (Or.inr (hl.mem_old h)))).mp hl.taken
  have hlarge := node?_of_view (hspares _ node (hsmall.trans hnode))
  rw [hl.node?_large h hs hmax, hsmall, hnode] at hlarge
  cases hlarge

end Loses

/-! ## Whole sweeps with different age limits -/

/-- **Cutoffs are exact, and a larger age limit spares more**: the cutoff lies as many units back as the
age says, and there is none if the age is zero or something is out of range. Without a limit on the
number of files, the sweep with the larger limit leaves all that the other one leaves exactly if it
loses no entry whose name it takes for a compressed form. -/
theorem larger_age_spares_iff (request : SweepRequest) (hunit : 0 < request.policy.unit.nanos)
    (hnow : request.now.Representable) (hleap : request.now.isLeap = false) :
    (request.policy.cutoff? request.now =
        if request.policy.InRange request.now then some (request.policy.exactCutoff request.now)
        else none) ∧
      (request.policy.exactCutoff request.now).total =
        request.now.total - request.policy.unit.nanos * request.policy.maxAge.toNat ∧
      ∀ (fs : FileSystem) (age age' : UInt32), fs.Sound → request.maxFiles = none → 0 < age →
        age ≤ age' → (request.Spares age age' fs ↔ ¬ ∃ dir m, request.Loses age age' fs dir m) := by
  refine ⟨RetentionPolicy.cutoff?_eq hleap, RetentionPolicy.total_exactCutoff _ _, ?_⟩
  intro fs age age' hs hmax hpos hle
  have hage : ∀ c, (request.withAge age).expires c = false →
      (request.withAge age').expires c = false := fun _ =>
    expires_antitone hunit hnow hleap hpos hle
  constructor
  · rintro hspares ⟨dir, m, hl⟩
    obtain ⟨young, old, progress, h⟩ := exists_parted hmax hs hl.listed hage
    exact hl.not_spares h hs hmax hspares
  · intro hloses
    by_cases hdirs : ∃ dir, fs.lookup request.directory = .ok (dir, .directory)
    · obtain ⟨dir, hdir⟩ := hdirs
      obtain ⟨young, old, progress, h⟩ := exists_parted hmax hs hdir hage
      exact h.spares hmax hs hdir hloses
    · -- neither sweep can list the directory
      have hrun : ∀ age, ((request.withAge age).run fs).2 = fs := fun age =>
        run_of_not_directory fun dir hdir => hdirs ⟨dir, hdir⟩
      intro loc node _
      rw [hrun, hrun]

/-- A log of one and a half days ago. -/
def oldLog : Name × Stored := ("app.2025-01-01.log".toList, ⟨[110, 101, 119], 1735700645000000000⟩)

/-- An archive of half a day ago with the name of its compressed form. -/
def newerArchive : Name × Stored :=
  ("app.2025-01-01.log.lz4".toList, ⟨[111, 108, 100], 1735787045000000000⟩)

/-- The sweep that compresses what is not too old. -/
def packAll : SweepRequest where
  directory := .ofString "."
  names := .around (.ofString "app.log") '.' "%Y-%m-%d".toList
  active := .ofString "app.2025-01-02.log"
  now := ⟨1735830245, 0⟩
  policy := ⟨1, 86400, true⟩
  maxFiles := none

theorem sound_oldLog : (ofFiles [oldLog]).Sound := by
  have hadded := @Sound.addFile _ Sound.empty "app.2025-01-01.log".toList [] rfl
    ⟨by decide, by decide, by decide, by decide, by decide⟩ rfl
  exact hadded.setStored rfl rfl (by decide)

theorem sound_newerArchive : (ofFiles [oldLog, newerArchive]).Sound := by
  have hadded := @Sound.addFile _ sound_oldLog "app.2025-01-01.log.lz4".toList [] (by decide +kernel)
    ⟨by decide, by decide, by decide, by decide, by decide⟩ rfl
  exact hadded.setStored rfl rfl (by decide)

/-- A log is too old for a limit of one day, and compressed with a limit of two. -/
theorem larger_age_spares_old_log :
    packAll.policy.cutoff? packAll.now = some ⟨1735743845, 0⟩ ∧
      packAll.Spares 1 2 (ofFiles [oldLog]) := by
  obtain ⟨hcutoff, -, hspares⟩ := larger_age_spares_iff packAll (by decide) (by decide) (by decide)
  refine ⟨hcutoff.trans (by decide), (hspares _ 1 2 sound_oldLog rfl (by decide) (by decide)).mpr ?_⟩
  rintro ⟨dir, m, hl⟩
  obtain ⟨id, hid, -⟩ := storedAt?_eq_some_iff.mp hl.mayTouch.1
  have hmem := (mem_entries_iff sound_oldLog.nodup (List.cons_ne_nil _ _)).mpr hid
  have hname := (List.cons.inj (Prod.mk.inj (List.mem_singleton.mp hmem)).1).1
  -- nothing has the name of its compressed form
  have hfree : (ofFiles [oldLog]).lookup (packAll.pathOf oldLog.1).compressed =
      .error .notFound := by decide +kernel
  obtain ⟨_, _, _, _, htaken, _⟩ := hl.taken
  rw [hname] at htaken
  cases hfree.symm.trans htaken

theorem loses_newerArchive :
    packAll.Loses 1 2 (ofFiles [oldLog, newerArchive]) [] ⟨oldLog.1, oldLog.2⟩ where
  listed := by decide +kernel
  mayTouch := ⟨by decide +kernel, by decide +kernel, by decide +kernel⟩
  expires := by decide +kernel
  kept := by decide +kernel
  replaced := by decide +kernel
  taken := ⟨([oldLog.1], .file 0), [newerArchive.1], .file 1, by decide +kernel, by decide +kernel,
    nofun⟩
  left m' hm' hname := by
    have hstored : (ofFiles [oldLog, newerArchive]).storedAt? [Path.packedName oldLog.1] =
        some newerArchive.2 := by decide +kernel
    have hsame := hm'.1
    rw [hname, hstored, Option.some.injEq] at hsame
    obtain ⟨name, stored⟩ := m'
    subst hname hsame
    decide +kernel

/-- With a limit of two days, an archive is lost that a limit of one day leaves. -/
theorem larger_age_loses_archive :
    (ofFiles [oldLog, newerArchive]).Sound ∧
      ((packAll.withAge 1).run (ofFiles [oldLog, newerArchive])).2.contentAt?
        ["app.2025-01-01.log.lz4".toList] = some [111, 108, 100] ∧
      ((packAll.withAge 2).run (ofFiles [oldLog, newerArchive])).2.node?
        ["app.2025-01-01.log.lz4".toList] = none ∧
      ¬ packAll.Spares 1 2 (ofFiles [oldLog, newerArchive]) := by
  have hage : ∀ c, (packAll.withAge 1).expires c = false → (packAll.withAge 2).expires c = false :=
    fun _ => expires_antitone (by decide) (by decide) (by decide) (by decide) (by decide)
  have hl := loses_newerArchive
  obtain ⟨young, old, progress, h⟩ := exists_parted rfl sound_newerArchive hl.listed hage
  refine ⟨sound_newerArchive, ?_, hl.node?_large h sound_newerArchive rfl,
    hl.not_spares h sound_newerArchive rfl⟩
  exact (contentAt?_of_view (hl.view_small h sound_newerArchive rfl)).trans (by decide +kernel)

end SweepRequest

end LogRouter
