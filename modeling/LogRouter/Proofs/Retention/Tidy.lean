import LogRouter.Proofs.Files.Lz4
import LogRouter.Proofs.Retention.Sweep

/-!
# Sweeps without an age limit

* `FileSystem.PlainAt`, `FileSystem.PackedAt`: the two ways in which a file is kept in a directory.
* `SweepRequest.settle`: what a sweep does to a candidate that stays. It packs the file of a name or
  leaves it (`settle_own`), and leaves the files of other names (`settle_other`).
* **`run_keptAt`**: a sweep without limits keeps every file in one of the two ways.
-/

namespace LogRouter

open FileSystem

namespace FileSystem

variable {fs fs' : FileSystem} {q : Path} {dir : Location} {name : Name} {stored : Stored}

/-! ## Files that are kept -/

/-- The file stands in the directory as it is, and no file stands in the place of its packed form. -/
structure PlainAt (fs : FileSystem) (dir : Location) (name : Name) (stored : Stored) : Prop where
  stored : fs.storedAt? (name :: dir) = some stored
  noFrame : ∀ node, fs.node? (Path.packedName name :: dir) = some node → node = .directory

/-- The packed form of the file stands in the directory in its place. -/
structure PackedAt (fs : FileSystem) (dir : Location) (name : Name) (stored : Stored) : Prop where
  gone : fs.node? (name :: dir) = none
  frame : ∃ frame, fs.storedAt? (Path.packedName name :: dir) = some ⟨frame, stored.modified⟩ ∧
    Lz4.decode? frame = some stored.content

/-- The file is kept, as it is or packed. -/
def KeptAt (fs : FileSystem) (dir : Location) (name : Name) (stored : Stored) : Prop :=
  fs.PlainAt dir name stored ∨ fs.PackedAt dir name stored

theorem PlainAt.of_view (h : fs.PlainAt dir name stored)
    (hname : fs'.view (name :: dir) = fs.view (name :: dir))
    (hpacked : fs'.view (Path.packedName name :: dir) = fs.view (Path.packedName name :: dir)) :
    fs'.PlainAt dir name stored :=
  ⟨(storedAt?_of_view hname).trans h.stored, node?_of_view hpacked ▸ h.noFrame⟩

theorem PackedAt.of_view (h : fs.PackedAt dir name stored)
    (hname : fs'.view (name :: dir) = fs.view (name :: dir))
    (hpacked : fs'.view (Path.packedName name :: dir) = fs.view (Path.packedName name :: dir)) :
    fs'.PackedAt dir name stored :=
  ⟨(node?_of_view hname).trans h.gone, storedAt?_of_view hpacked ▸ h.frame⟩

theorem content_modified {id : Nat} (h : fs.stored? id = some stored) :
    fs.content id = stored.content ∧ fs.modified id = stored.modified := by
  simp [content, modified, h]

theorem compress_missing (hreach : fs.reach q = .ok dir) (h : name.IsEntry)
    (hnone : fs.node? (name :: dir) = none) : (fs.compress (q.join ⟨name⟩)).2 = fs := by
  have hlook : ∀ r, fs.lookup (q.join ⟨name⟩) ≠ .ok r := by
    rintro ⟨loc, node⟩ hl
    obtain ⟨dir', rfl, hreach', _, _, hnode⟩ := of_lookup_join h hl
    rw [hreach, Except.ok.injEq] at hreach'
    rw [← hreach', hnone] at hnode
    cases hnode
  unfold compress
  split
  · rfl
  · rename_i hl
    exact absurd hl (hlook _)

end FileSystem

namespace SweepRequest

variable {request : SweepRequest} {fs : FileSystem} {dir : Location} {c : Candidate}
  {name other : Name} {stored : Stored}

/-! ## Candidates that stay -/

/-- What happens to a candidate that stays: it is compressed if the policy asks for that. -/
def settle (request : SweepRequest) (fs : FileSystem) (c : Candidate) : FileSystem :=
  if request.policy.compress && !c.path.isCompressed then (fs.compress c.path).2 else fs

/-- The file is to be packed, and its packed form can be created unless it is there. -/
structure Packs (request : SweepRequest) (fs : FileSystem) (dir : Location) (name : Name) : Prop where
  asked : request.policy.compress = true
  plain : (request.pathOf name).isCompressed = false
  fits : Fits (request.pathOf (Path.packedName name))
  short : byteLength (Path.packedName name) ≤ maxNameLength
  room : fs.node? (Path.packedName name :: dir) ≠ some .directory
  allowed : fs.refusal? .create (Path.packedName name :: dir) = none

/-- **The file of a candidate that stays** is packed if it can be, and left as it is if not. -/
theorem settle_own (hs : fs.Sound) (hreach : fs.reach request.directory = .ok dir) (h : name.IsEntry)
    (hpath : c.path = request.pathOf name) (hplain : fs.PlainAt dir name stored) :
    (request.Packs fs dir name → (request.settle fs c).PackedAt dir name stored) ∧
      (¬ request.Packs fs dir name → request.settle fs c = fs) := by
  have hcreate : (∃ r, fs.createNew (request.pathOf name).compressed = .ok r) ↔
      Fits (request.pathOf (Path.packedName name)) ∧
        byteLength (Path.packedName name) ≤ maxNameLength ∧
        fs.node? (Path.packedName name :: dir) = none ∧
        fs.refusal? .create (Path.packedName name :: dir) = none := by
    rw [pathOf, Path.compressed_join h, createNew_join_iff hreach (Path.isEntry_packedName h)]
    rfl
  have hfree : fs.node? (Path.packedName name :: dir) ≠ some .directory →
      fs.node? (Path.packedName name :: dir) = none := by
    intro hroom
    by_contra hsome
    obtain ⟨node, hnode⟩ := Option.ne_none_iff_exists'.mp hsome
    rw [hplain.noFrame node hnode] at hnode
    exact hroom hnode
  unfold settle
  rw [hpath]
  constructor
  · intro hpacks
    rw [if_pos (by rw [hpacks.asked, hpacks.plain]; rfl)]
    obtain ⟨id, hid, hstored⟩ := storedAt?_eq_some_iff.mp hplain.stored
    have hfront : (request.pathOf name).chars <+: (request.pathOf (Path.packedName name)).chars := by
      unfold pathOf
      rw [← Path.compressed_join h]
      exact List.prefix_append _ _
    have hlook : fs.lookup (request.pathOf name) = .ok (name :: dir, .file id) :=
      (lookup_join_iff hreach h).mpr ⟨hpacks.fits.front hfront,
        (byteLength_mono (List.prefix_append _ _)).trans hpacks.short, hid⟩
    obtain ⟨hgone, hframe⟩ :=
      compress_done hs hreach h hlook
        (hcreate.mpr ⟨hpacks.fits, hpacks.short, hfree hpacks.room, hpacks.allowed⟩)
    obtain ⟨hcontent, hmodified⟩ := content_modified hstored
    rw [hcontent, hmodified] at hframe
    exact ⟨hgone, _, hframe, Lz4.decode?_encode _⟩
  · intro hpacks
    split_ifs with hasked
    · rw [Bool.and_eq_true, Bool.not_eq_true'] at hasked
      refine compress_blocked hreach h (fun hc => hpacks ?_) hplain.noFrame
      obtain ⟨hfits, hshort, hnone, hallowed⟩ := hcreate.mp hc
      exact ⟨hasked.1, hasked.2, hfits, hshort, by simp [hnone], hallowed⟩
    · rfl

/-- **The files of other names** are left as they are. -/
theorem settle_other (hs : fs.Sound) (hreach : fs.reach request.directory = .ok dir)
    (h : other.IsEntry) (hpath : c.path = request.pathOf other) :
    AgreeOff (fun loc => (loc = other :: dir ∨ loc = Path.packedName other :: dir) ∧
      (request.pathOf other).isCompressed = false) fs (request.settle fs c) := by
  unfold settle
  rw [hpath]
  split_ifs with hasked
  · rw [Bool.and_eq_true, Bool.not_eq_true'] at hasked
    exact (compress_agreeOff hs hreach h).mono fun loc hl => ⟨hl, hasked.2⟩
  · exact AgreeOff.refl hs

/-- The candidate has a name that the sweep recognizes. -/
def Lists (request : SweepRequest) (c : Candidate) : Prop :=
  ∃ name : Name, name.IsEntry ∧ c.path = request.pathOf name ∧ request.names.recognizes name = true

theorem settle_beside (hs : fs.Sound) (hreach : fs.reach request.directory = .ok dir)
    (h : name.IsEntry) (htarget : request.NoTarget name) (hlists : request.Lists c)
    (hne : c.path ≠ request.pathOf name) :
    (request.settle fs c).view (name :: dir) = fs.view (name :: dir) ∧
      (request.settle fs c).view (Path.packedName name :: dir) =
        fs.view (Path.packedName name :: dir) := by
  obtain ⟨other, hother, hpath, hrecognized⟩ := hlists
  have hagree := settle_other hs hreach hother hpath
  refine ⟨hagree.view _ ?_, hagree.view _ ?_⟩
  · rintro ⟨hl | hl, hplain⟩
    · exact hne (hpath.trans (congrArg _ (List.cons.inj hl).1.symm))
    · exact htarget other hother hrecognized hplain (List.cons.inj hl).1.symm
  · rintro ⟨hl | hl, hplain⟩
    · rw [← (List.cons.inj hl).1, pathOf, Path.isCompressed_packedName h] at hplain
      cases hplain
    · exact hne (hpath.trans (congrArg _ (Path.packedName_injective (List.cons.inj hl).1).symm))

theorem foldl_settle_induction {P : FileSystem → Prop}
    (hstep : ∀ {fs c}, fs.Sound → fs.reach request.directory = .ok dir → request.Lists c → P fs →
      P (request.settle fs c)) :
    ∀ {cs : List Candidate} {fs : FileSystem}, fs.Sound → fs.reach request.directory = .ok dir →
      (∀ c ∈ cs, request.Lists c) → P fs → P (cs.foldl request.settle fs)
  | [], _, _, _, _, h => h
  | c :: cs, fs, hs, hreach, hcs, h => by
    have hlists := hcs c List.mem_cons_self
    obtain ⟨other, hother, hpath, _⟩ := id hlists
    have hagree := settle_other hs hreach hother hpath
    rw [List.foldl_cons]
    exact foldl_settle_induction hstep hagree.sound (hagree.dirs.reach hreach)
      (fun c' hc' => hcs c' (List.mem_cons_of_mem _ hc')) (hstep hs hreach hlists h)

section Kept

variable (h : name.IsEntry) (htarget : request.NoTarget name)

include h htarget

theorem settle_packedAt (hs : fs.Sound) (hreach : fs.reach request.directory = .ok dir)
    (hlists : request.Lists c) (hpacked : fs.PackedAt dir name stored) :
    (request.settle fs c).PackedAt dir name stored := by
  by_cases hpath : c.path = request.pathOf name
  · have hsame : request.settle fs c = fs := by
      unfold settle
      rw [hpath, pathOf, compress_missing hreach h hpacked.gone, ite_self]
    rwa [hsame]
  · obtain ⟨hname, hframe⟩ := settle_beside hs hreach h htarget hlists hpath
    exact hpacked.of_view hname hframe

/-- **A file stays kept**, in one way or the other. -/
theorem settle_keptAt (hs : fs.Sound) (hreach : fs.reach request.directory = .ok dir)
    (hlists : request.Lists c) (hkept : fs.KeptAt dir name stored) :
    (request.settle fs c).KeptAt dir name stored := by
  rcases hkept with hplain | hpacked
  · by_cases hpath : c.path = request.pathOf name
    · obtain ⟨hpack, hleave⟩ := settle_own hs hreach h hpath hplain
      by_cases hpacks : request.Packs fs dir name
      · exact Or.inr (hpack hpacks)
      · rw [hleave hpacks]
        exact Or.inl hplain
    · obtain ⟨hname, hframe⟩ := settle_beside hs hreach h htarget hlists hpath
      exact Or.inl (hplain.of_view hname hframe)
  · exact Or.inr (settle_packedAt h htarget hs hreach hlists hpacked)

end Kept

/-! ## Whole sweeps -/

theorem cutoff?_of_no_age (hage : request.policy.maxAge = 0) (now : Instant) :
    request.policy.cutoff? now = none := by
  simp [RetentionPolicy.cutoff?, hage]

theorem run_of_unlimited (hage : request.policy.maxAge = 0) (hmax : request.maxFiles = none)
    {cs : List Candidate} (hcs : request.candidates fs = .ok cs) :
    (request.run fs).2 = (arranged cs).foldl request.settle fs := by
  have hfold : ∀ (cs : List Candidate) (progress : Progress),
      (cs.foldl request.treat progress).fs = cs.foldl request.settle progress.fs := by
    intro cs
    induction cs with
    | nil => exact fun _ => rfl
    | cons c cs ih =>
      intro progress
      have hexpires : request.expires c = false := by
        unfold expires
        rw [cutoff?_of_no_age hage]
      rw [List.foldl_cons, ih, treat_fs hmax, hexpires]
      rfl
  unfold run
  rw [hcs]
  exact hfold _ _

theorem run_dirsKept (hs : fs.Sound) (hmax : request.maxFiles = none) :
    DirsKept fs (request.run fs).2 := by
  by_cases h : ∃ dir, fs.lookup request.directory = .ok (dir, .directory)
  · obtain ⟨dir, hdir⟩ := h
    exact (run_agreeOff hs hmax hdir).dirs
  · rw [run_of_not_directory fun dir hdir => h ⟨dir, hdir⟩]
    exact DirsKept.refl fs

theorem runAll_dirsKept : ∀ {requests : List SweepRequest} {fs : FileSystem}, fs.Sound →
    (∀ request ∈ requests, request.maxFiles = none) →
      (runAll requests fs).Sound ∧ DirsKept fs (runAll requests fs)
  | [], fs, hs, _ => ⟨hs, DirsKept.refl fs⟩
  | request :: requests, fs, hs, hmax => by
    have hfirst := hmax request List.mem_cons_self
    obtain ⟨hsound, hdirs⟩ := runAll_dirsKept (run_sound hs hfirst) fun r hr =>
      hmax r (List.mem_cons_of_mem _ hr)
    exact ⟨hsound, (run_dirsKept hs hfirst).trans hdirs⟩

theorem lists_of_candidates (hs : fs.Sound)
    (hdir : fs.lookup request.directory = .ok (dir, .directory)) {cs : List Candidate}
    (hcs : request.candidates fs = .ok cs) : ∀ c ∈ arranged cs, request.Lists c := by
  intro c hc
  obtain ⟨cs', hcs', hfiles, _, _⟩ := candidates_spec hs hdir
  rw [hcs, Except.ok.injEq] at hcs'
  subst hcs'
  obtain ⟨other, hfile⟩ := hfiles c ((List.mergeSort_perm cs _).mem_iff.mp hc)
  exact ⟨other, hfile.isEntry, hfile.path_eq, hfile.covers.1⟩

/-- **A sweep without limits** keeps every file, as it is or packed. -/
theorem run_keptAt (hs : fs.Sound) (hage : request.policy.maxAge = 0) (hmax : request.maxFiles = none)
    (hdir : fs.lookup request.directory = .ok (dir, .directory)) (h : name.IsEntry)
    (htarget : request.NoTarget name) (hkept : fs.KeptAt dir name stored) :
    (request.run fs).2.KeptAt dir name stored := by
  obtain ⟨cs, hcs, _⟩ := candidates_spec hs hdir
  -- without an age limit the order of the candidates does not matter
  rw [run_of_unlimited hage hmax hcs]
  exact foldl_settle_induction (P := fun fs => fs.KeptAt dir name stored)
    (fun hs hreach hlists => settle_keptAt h htarget hs hreach hlists) hs (reach_of_lookup hdir)
    (lists_of_candidates hs hdir hcs) hkept

theorem run_touches (hs : fs.Sound) (hage : request.policy.maxAge = 0) (hmax : request.maxFiles = none)
    (hdir : fs.lookup request.directory = .ok (dir, .directory)) :
    AgreeOff (fun loc => ∃ (other : Name) (id : Nat), fs.node? (other :: dir) = some (.file id) ∧
      (request.pathOf other).isCompressed = false ∧
      (loc = other :: dir ∨ loc = Path.packedName other :: dir)) fs (request.run fs).2 := by
  obtain ⟨cs, hcs, hfiles, _, _⟩ := candidates_spec hs hdir
  unfold run
  rw [hcs]
  refine foldl_treat_agreeOff hmax _ (arranged cs) ⟨fs, 0, ⟨cs.length, 0, 0, 0⟩⟩ hs
    (reach_of_lookup hdir) fun c hc => ?_
  obtain ⟨other, hfile⟩ := hfiles c ((List.mergeSort_perm cs _).mem_iff.mp hc)
  obtain ⟨id, hid, _⟩ := hfile.file
  have hexpires : request.expires c = false := by
    unfold expires
    rw [cutoff?_of_no_age hage]
  refine ⟨other, hfile.isEntry, hfile.path_eq, fun loc hl => ⟨other, id, hid, ?_⟩⟩
  rw [← hfile.path_eq]
  rcases hl with ⟨hl, hcause⟩ | ⟨hl, hplain⟩
  · rw [hexpires] at hcause
    exact ⟨hcause.resolve_left Bool.false_ne_true, Or.inl hl⟩
  · exact ⟨hplain, Or.inr hl⟩

end SweepRequest

end LogRouter
