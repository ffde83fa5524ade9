import LogRouter.Proofs.Retention.Tidy
import Mathlib.Data.List.Sort

/-!
# Sweeps with a limit on the number of files

* `foldl_own`: operations on different files, each of which keeps to the places of its own file.
* `SweepRequest.Shelf`: the files that a sweep may touch, in the order of their last changes.
* `Shelf.arranged_eq`: a sweep goes over them from the last to the first.
* **`Shelf.run`**: the last ones settle, as many as the limit says, and the others are gone.
-/

namespace LogRouter

open FileSystem

/-- A file of a directory, with the name that it has unless it is packed. -/
structure NamedFile where
  name : Name
  stored : Stored

namespace FileSystem

variable {fs fs' fs₀ : FileSystem} {dir : Location} {name : Name} {stored stored' : Stored}

/-! ## The places of a file -/

/-- The places of a file and of its packed form. -/
def Own (dir : Location) (name : Name) (loc : Location) : Prop :=
  loc = name :: dir ∨ loc = Path.packedName name :: dir

/-- Neither the file nor its packed form is there. -/
structure GoneAt (fs : FileSystem) (dir : Location) (name : Name) : Prop where
  gone : fs.node? (name :: dir) = none
  noFrame : ∀ node, fs.node? (Path.packedName name :: dir) = some node → node = .directory

theorem GoneAt.of_view (h : fs.GoneAt dir name) (hsame : ∀ loc, Own dir name loc → fs'.view loc = fs.view loc) :
    fs'.GoneAt dir name :=
  ⟨(node?_of_view (hsame _ (Or.inl rfl))).trans h.gone,
    node?_of_view (hsame _ (Or.inr rfl)) ▸ h.noFrame⟩

theorem KeptAt.modified_eq (h : fs.KeptAt dir name stored) (h' : fs.KeptAt dir name stored') :
    stored.modified = stored'.modified := by
  have hno : ∀ {stored stored'}, fs.PlainAt dir name stored → ¬ fs.PackedAt dir name stored' := by
    intro stored stored' hplain hpacked
    obtain ⟨id, hid, _⟩ := storedAt?_eq_some_iff.mp hplain.stored
    rw [hpacked.gone] at hid
    cases hid
  rcases h with hplain | hpacked <;> rcases h' with hplain' | hpacked'
  · rw [Option.some.inj (hplain.stored.symm.trans hplain'.stored)]
  · exact absurd hpacked' (hno hplain)
  · exact absurd hpacked (hno hplain')
  · obtain ⟨_, hframe, _⟩ := hpacked.frame
    obtain ⟨_, hframe', _⟩ := hpacked'.frame
    have := Option.some.inj (hframe.symm.trans hframe')
    simp_all

/-- **Operations on different files**, each of which keeps to places of its own, do for each file what they do
alone. -/
theorem foldl_own {α : Type} (op : FileSystem → α → FileSystem) (own : α → Location → Prop)
    (Q : FileSystem → α → Prop)
    (hQ : ∀ fs fs' m, (∀ loc, own m loc → fs'.view loc = fs.view loc) → Q fs m → Q fs' m) :
    ∀ {ms : List α} {fs : FileSystem},
      (∀ m ∈ ms, ∀ fs, fs.Sound → DirsKept fs₀ fs → (∀ loc, own m loc → fs.view loc = fs₀.view loc) →
        AgreeOff (own m) fs (op fs m) ∧ Q (op fs m) m) →
      ms.Pairwise (fun m m' => ∀ loc, own m loc → ¬ own m' loc) → fs.Sound → DirsKept fs₀ fs →
      (∀ m ∈ ms, ∀ loc, own m loc → fs.view loc = fs₀.view loc) →
        AgreeOff (fun loc => ∃ m ∈ ms, own m loc) fs (ms.foldl op fs) ∧
          ∀ m ∈ ms, Q (ms.foldl op fs) m
  | [], fs, _, _, hs, _, _ => ⟨AgreeOff.refl hs, fun m hm => nomatch hm⟩
  | m :: ms, fs, hop, hapart, hs, hdirs, hsame => by
    obtain ⟨hfirst, hrest⟩ := List.pairwise_cons.mp hapart
    obtain ⟨hagree, hm⟩ := hop m List.mem_cons_self fs hs hdirs (hsame m List.mem_cons_self)
    obtain ⟨hagree', hms⟩ := foldl_own op own Q hQ (fun m' hm' => hop m' (List.mem_cons_of_mem _ hm')) hrest
      hagree.sound (hdirs.trans hagree.dirs) fun m' hm' loc hloc =>
        (hagree.view loc fun hown => hfirst m' hm' loc hown hloc).trans
          (hsame m' (List.mem_cons_of_mem _ hm') loc hloc)
    refine ⟨?_, fun m' hm' => ?_⟩
    · refine (hagree.mono fun loc hloc => ⟨m, List.mem_cons_self, hloc⟩).trans (hagree'.mono ?_)
      rintro loc ⟨m', hm', hloc⟩
      exact ⟨m', List.mem_cons_of_mem _ hm', hloc⟩
    · rcases List.mem_cons.mp hm' with rfl | hm'
      · refine hQ _ _ _ (fun loc hloc => hagree'.view loc ?_) hm
        rintro ⟨m'', hm'', hown⟩
        exact hfirst m'' hm'' loc hloc hown
      · exact hms m' hm'

end FileSystem

namespace SweepRequest

variable {request : SweepRequest} {fs fs₀ : FileSystem} {dir : Location} {files : List NamedFile}
  {m m' : NamedFile} {k : Nat}

/-! ## Keeping so many candidates -/

theorem treat_of_limit (hage : request.policy.maxAge = 0) (hmax : request.maxFiles = some k)
    (progress : Progress) (c : Candidate) :
    ((request.treat progress c).fs, (request.treat progress c).kept) =
      if k ≤ progress.kept then (progress.fs.removeIfPossible c.path, progress.kept)
      else (request.settle progress.fs c, progress.kept + 1) := by
  have hcondemns : request.condemns progress.kept c = decide (k ≤ progress.kept) := by
    unfold condemns
    rw [hmax, cutoff?_of_no_age hage, Bool.or_false]
  unfold treat settle removeIfPossible
  rw [hcondemns]
  by_cases hfull : k ≤ progress.kept
  · simp only [hfull, decide_true, if_true]
    rcases progress.fs.remove c.path with _ | _ <;> rfl
  · simp only [hfull, decide_false, if_false, Bool.false_eq_true]
    split_ifs
    · rcases progress.fs.compress c.path with ⟨_ | _, _⟩ <;> rfl
    · rfl

theorem foldl_treat_of_limit (hage : request.policy.maxAge = 0) (hmax : request.maxFiles = some k) :
    ∀ (cs : List Candidate) (progress : Progress), (cs.foldl request.treat progress).fs =
      (cs.drop (k - progress.kept)).foldl (fun fs c => fs.removeIfPossible c.path)
        ((cs.take (k - progress.kept)).foldl request.settle progress.fs)
  | [], progress => by simp
  | c :: cs, progress => by
    have htreat := treat_of_limit hage hmax progress c
    rw [List.foldl_cons, foldl_treat_of_limit hage hmax cs]
    by_cases hfull : k ≤ progress.kept
    · rw [if_pos hfull] at htreat
      obtain ⟨hfs, hkept⟩ := Prod.mk.inj htreat
      rw [hfs, hkept, Nat.sub_eq_zero_of_le hfull]
      rfl
    · rw [if_neg hfull] at htreat
      obtain ⟨hfs, hkept⟩ := Prod.mk.inj htreat
      obtain ⟨room, hroom⟩ : ∃ room, k - progress.kept = room + 1 :=
        ⟨k - progress.kept - 1, by omega⟩
      rw [hfs, hkept, hroom, show k - (progress.kept + 1) = room by omega]
      rfl

/-! ## The files of a directory that a sweep may touch -/

/-- The files that a sweep may touch are the given ones, in the order of their last changes. They are
packed only where they would be packed again. -/
structure Shelf (request : SweepRequest) (fs : FileSystem) (dir : Location) (files : List NamedFile) :
    Prop where
  entry : ∀ m ∈ files, m.name.IsEntry
  covered : ∀ m ∈ files, request.Covers m.name ∧ request.Covers (Path.packedName m.name)
  plain : ∀ m ∈ files, (request.pathOf m.name).isCompressed = false
  fits : ∀ m ∈ files, Fits (request.pathOf m.name) ∧ byteLength m.name ≤ maxNameLength
  kept : ∀ m ∈ files, fs.PlainAt dir m.name m.stored ∨
    fs.PackedAt dir m.name m.stored ∧ request.Packs fs dir m.name
  ordered : files.Pairwise fun m m' => m.stored.modified < m'.stored.modified
  others : ∀ name id, fs.node? (name :: dir) = some (.file id) → request.Covers name →
    ∃ m ∈ files, Own dir m.name (name :: dir)

/-- The name under which a file stands. -/
def standing (fs : FileSystem) (dir : Location) (m : NamedFile) : Name :=
  if fs.node? (m.name :: dir) = none then Path.packedName m.name else m.name

/-- The candidate that a file is. -/
def candidateOf (request : SweepRequest) (fs : FileSystem) (dir : Location) (m : NamedFile) : Candidate :=
  ⟨request.pathOf (standing fs dir m), m.stored.modified⟩

theorem standing_of_plain (h : fs.PlainAt dir m.name m.stored) : standing fs dir m = m.name := by
  obtain ⟨id, hid, _⟩ := storedAt?_eq_some_iff.mp h.stored
  exact if_neg (by simp [hid])

theorem standing_of_packed (h : fs.PackedAt dir m.name m.stored) :
    standing fs dir m = Path.packedName m.name := if_pos h.gone

theorem packs_iff {name : Name} (hdirs : fs.node? (Path.packedName name :: dir) = some .directory ↔
      fs₀.node? (Path.packedName name :: dir) = some .directory) (hrefusal : fs.refusal? = fs₀.refusal?) :
    request.Packs fs dir name ↔ request.Packs fs₀ dir name := by
  constructor
  · rintro ⟨hasked, hplain, hfits, hshort, hroom, hallowed⟩
    exact ⟨hasked, hplain, hfits, hshort, mt hdirs.mpr hroom, hrefusal ▸ hallowed⟩
  · rintro ⟨hasked, hplain, hfits, hshort, hroom, hallowed⟩
    exact ⟨hasked, hplain, hfits, hshort, mt hdirs.mp hroom, hrefusal ▸ hallowed⟩

/-- A file is packed if it could be at the start, and as it is if not. -/
structure Settled (request : SweepRequest) (fs₀ : FileSystem) (dir : Location) (fs : FileSystem)
    (m : NamedFile) : Prop where
  packed : request.Packs fs₀ dir m.name → fs.PackedAt dir m.name m.stored
  plain : ¬ request.Packs fs₀ dir m.name → fs.PlainAt dir m.name m.stored

theorem Settled.of_view {fs' : FileSystem} (h : request.Settled fs₀ dir fs m)
    (hsame : ∀ loc, Own dir m.name loc → fs'.view loc = fs.view loc) : request.Settled fs₀ dir fs' m where
  packed hpacks := (h.packed hpacks).of_view (hsame _ (Or.inl rfl)) (hsame _ (Or.inr rfl))
  plain hpacks := (h.plain hpacks).of_view (hsame _ (Or.inl rfl)) (hsame _ (Or.inr rfl))

namespace Shelf

variable (h : Shelf request fs₀ dir files)

include h

theorem keptAt (hm : m ∈ files) : fs₀.KeptAt dir m.name m.stored := (h.kept m hm).imp_right And.left

theorem standing_spec (hm : m ∈ files) : request.Covers (standing fs₀ dir m) ∧
    Own dir m.name (standing fs₀ dir m :: dir) ∧
    ∃ id, fs₀.node? (standing fs₀ dir m :: dir) = some (.file id) ∧ fs₀.modified id = m.stored.modified := by
  rcases h.kept m hm with hplain | ⟨hpacked, _⟩
  · rw [standing_of_plain hplain]
    obtain ⟨id, hid, hstored⟩ := storedAt?_eq_some_iff.mp hplain.stored
    exact ⟨(h.covered m hm).1, Or.inl rfl, id, hid, (content_modified hstored).2⟩
  · rw [standing_of_packed hpacked]
    obtain ⟨_, hframe, _⟩ := hpacked.frame
    obtain ⟨id, hid, hstored⟩ := storedAt?_eq_some_iff.mp hframe
    exact ⟨(h.covered m hm).2, Or.inr rfl, id, hid, (content_modified hstored).2⟩

theorem eq_standing {name : Name} (hm : m ∈ files) (hown : Own dir m.name (name :: dir)) {id : Nat}
    (hid : fs₀.node? (name :: dir) = some (.file id)) : name = standing fs₀ dir m := by
  rcases h.kept m hm with hplain | ⟨hpacked, _⟩
  · rw [standing_of_plain hplain]
    rcases hown with hown | hown
    · exact (List.cons.inj hown).1
    · rw [(List.cons.inj hown).1] at hid
      exact absurd (hplain.noFrame _ hid) (by simp)
  · rw [standing_of_packed hpacked]
    rcases hown with hown | hown
    · rw [(List.cons.inj hown).1, hpacked.gone] at hid
      cases hid
    · exact (List.cons.inj hown).1

theorem apart : files.Pairwise fun m m' => ∀ loc, Own dir m.name loc → ¬ Own dir m'.name loc := by
  refine h.ordered.imp_of_mem fun {m m'} hm hm' hlt loc hown hown' => ?_
  have hne : m.name ≠ m'.name := by
    intro hname
    have hkept := h.keptAt hm
    rw [hname] at hkept
    have := hkept.modified_eq (h.keptAt hm')
    omega
  have hpacked : ∀ {m m' : NamedFile}, m ∈ files → m' ∈ files → Path.packedName m.name ≠ m'.name := by
    intro m m' hm hm' hname
    have := h.plain m' hm'
    rw [← hname, pathOf, Path.isCompressed_packedName (h.entry m hm)] at this
    cases this
  rcases hown with rfl | rfl <;> rcases hown' with heq | heq
  · exact hne (List.cons.inj heq).1
  · exact hpacked hm' hm (List.cons.inj heq).1.symm
  · exact hpacked hm hm' (List.cons.inj heq).1
  · exact hne (Path.packedName_injective (List.cons.inj heq).1)

theorem apart_reverse :
    files.reverse.Pairwise fun m m' => ∀ loc, Own dir m.name loc → ¬ Own dir m'.name loc :=
  List.pairwise_reverse.mpr (h.apart.imp fun hne loc hown hown' => hne loc hown' hown)

/-- **A sweep goes over the files** from the last to the first. -/
theorem arranged_eq (hs : fs₀.Sound) (hdir : fs₀.lookup request.directory = .ok (dir, .directory))
    {cs : List Candidate} (hcs : request.candidates fs₀ = .ok cs) :
    arranged cs = (files.map (request.candidateOf fs₀ dir)).reverse := by
  obtain ⟨cs', hcs', hfiles, hpaths, hmem⟩ := candidates_spec hs hdir
  rw [hcs, Except.ok.injEq] at hcs'
  subst hcs'
  have hsorted : (files.map (request.candidateOf fs₀ dir)).Pairwise
      fun c c' => c.modified < c'.modified := List.pairwise_map.mpr h.ordered
  have hnodup : (files.map (request.candidateOf fs₀ dir)).Nodup :=
    hsorted.imp fun hlt heq => by
      rw [heq] at hlt
      omega
  have hperm : cs.Perm (files.map (request.candidateOf fs₀ dir)) := by
    refine (List.perm_ext_iff_of_nodup (hpaths.imp fun hne heq => hne (congrArg _ heq)) hnodup).mpr
      fun c => ?_
    rw [List.mem_map]
    constructor
    · intro hc
      obtain ⟨name, hfile⟩ := hfiles c hc
      obtain ⟨id, hid, hmodified⟩ := hfile.file
      obtain ⟨m, hm, hown⟩ := h.others name id hid hfile.covers
      obtain ⟨_, _, id', hid', hmodified'⟩ := h.standing_spec hm
      have hname := h.eq_standing hm hown hid
      rw [← hname, hid, Option.some.injEq, Node.file.injEq] at hid'
      refine ⟨m, hm, ?_⟩
      rw [candidateOf, ← hname, ← hfile.path_eq, ← hmodified', ← hid', ← hmodified]
    · rintro ⟨m, hm, rfl⟩
      obtain ⟨hcovers, _, id, hid, hmodified⟩ := h.standing_spec hm
      rw [candidateOf, ← hmodified]
      exact hmem _ id hid hcovers
  refine List.Perm.eq_of_pairwise ?_ (arranged_pairwise cs)
    (List.pairwise_reverse.mpr (hsorted.imp Int.le_of_lt))
    ((List.mergeSort_perm cs _).trans (hperm.trans (List.reverse_perm _).symm))
  intro c c' hc hc' hle hle'
  -- no two files were changed at the same time
  have hmem : ∀ c, c ∈ (files.map (request.candidateOf fs₀ dir)).reverse ↔
      c ∈ files.map (request.candidateOf fs₀ dir) := fun c => List.mem_reverse
  have hc := hperm.mem_iff.mp ((List.mergeSort_perm cs _).mem_iff.mp hc)
  have hinj := List.inj_on_of_nodup_map (f := Candidate.modified)
    (l := files.map (request.candidateOf fs₀ dir)) ?_
  · exact hinj hc ((hmem c').mp hc') (by omega)
  · exact List.pairwise_map.mpr (hsorted.imp Int.ne_of_lt)

/-! ## The two ends of a sweep -/

section Treat

variable (hs : fs.Sound) (hreach : fs.reach request.directory = .ok dir) (hm : m ∈ files)
  (hsame : ∀ loc, Own dir m.name loc → fs.view loc = fs₀.view loc)

include hs hreach hm hsame

theorem settled (hrefusal : fs.refusal? = fs₀.refusal?) :
    AgreeOff (Own dir m.name) fs (request.settle fs (request.candidateOf fs₀ dir m)) ∧
      request.Settled fs₀ dir (request.settle fs (request.candidateOf fs₀ dir m)) m := by
  have hname := hsame _ (Or.inl rfl)
  have hframe := hsame _ (Or.inr rfl)
  rcases h.kept m hm with hplain | ⟨hpacked, hpacks⟩
  · have hpath : (request.candidateOf fs₀ dir m).path = request.pathOf m.name :=
      congrArg request.pathOf (standing_of_plain hplain)
    replace hplain := hplain.of_view hname hframe
    obtain ⟨hpack, hleave⟩ := settle_own hs hreach (h.entry m hm) hpath hplain
    have hiff : request.Packs fs dir m.name ↔ request.Packs fs₀ dir m.name :=
      packs_iff (by rw [node?_of_view hframe]) hrefusal
    rw [hiff] at hpack hleave
    refine ⟨(settle_other hs hreach (h.entry m hm) hpath).mono fun loc hloc => hloc.1, hpack,
      fun hpacks => ?_⟩
    rw [hleave hpacks]
    exact hplain
  · have hsettle : request.settle fs (request.candidateOf fs₀ dir m) = fs := by
      unfold settle candidateOf
      rw [standing_of_packed hpacked]
      simp [pathOf, Path.isCompressed_packedName (h.entry m hm)]
    rw [hsettle]
    exact ⟨AgreeOff.refl hs, fun _ => hpacked.of_view hname hframe, fun hno => absurd hpacks hno⟩

theorem removed : AgreeOff (Own dir m.name) fs
      (fs.removeIfPossible (request.candidateOf fs₀ dir m).path) ∧
    (fs.removeIfPossible (request.candidateOf fs₀ dir m).path).GoneAt dir m.name := by
  have hname := node?_of_view (hsame _ (Or.inl rfl))
  have hframe := node?_of_view (hsame _ (Or.inr rfl))
  obtain ⟨_, _, id, hid, _⟩ := h.standing_spec hm
  rcases h.kept m hm with hplain | ⟨hpacked, hpacks⟩
  · have hpath : (request.candidateOf fs₀ dir m).path = request.pathOf m.name :=
      congrArg request.pathOf (standing_of_plain hplain)
    rw [standing_of_plain hplain, ← hname] at hid
    obtain ⟨hfits, hshort⟩ := h.fits m hm
    have hremove := remove_file hreach (h.entry m hm) hfits hshort hid
    have hagree := removeIfPossible_agreeOff hs hreach (h.entry m hm)
    rw [hpath, pathOf]
    refine ⟨hagree.mono fun loc hloc => Or.inl hloc, ?_, ?_⟩
    · rw [removeIfPossible, hremove, node?_dropEntry _ (List.cons_ne_nil _ _), if_pos rfl]
    · rw [node?_of_view (hagree.view _ fun heq => Path.packedName_ne _ (List.cons.inj heq).1), hframe]
      exact hplain.noFrame
  · have hpath : (request.candidateOf fs₀ dir m).path = request.pathOf (Path.packedName m.name) :=
      congrArg request.pathOf (standing_of_packed hpacked)
    rw [standing_of_packed hpacked, ← hframe] at hid
    have hentry := Path.isEntry_packedName (h.entry m hm)
    have hremove := remove_file hreach hentry hpacks.fits hpacks.short hid
    have hagree := removeIfPossible_agreeOff hs hreach hentry
    rw [hpath, pathOf]
    refine ⟨hagree.mono fun loc hloc => Or.inr hloc, ?_, fun node hnode => ?_⟩
    · rw [node?_of_view (hagree.view _ fun heq => Path.packedName_ne _ (List.cons.inj heq).1.symm), hname,
        hpacked.gone]
    · rw [removeIfPossible, hremove, node?_dropEntry _ (List.cons_ne_nil _ _), if_pos rfl] at hnode
      cases hnode

end Treat

theorem foldl_settle (hs : fs₀.Sound) (hreach : fs₀.reach request.directory = .ok dir) {ms : List NamedFile}
    (hms : ms.Sublist files.reverse) :
    AgreeOff (fun loc => ∃ m ∈ ms, Own dir m.name loc) fs₀
        ((ms.map (request.candidateOf fs₀ dir)).foldl request.settle fs₀) ∧
      ∀ m ∈ ms, request.Settled fs₀ dir
        ((ms.map (request.candidateOf fs₀ dir)).foldl request.settle fs₀) m := by
  rw [List.foldl_map]
  exact foldl_own _ (fun m : NamedFile => Own dir m.name) (request.Settled fs₀ dir)
    (fun _ _ _ hsame hsettled => hsettled.of_view hsame)
    (fun m hm fs hs hdirs hsame =>
      h.settled hs (hdirs.reach hreach) (List.mem_reverse.mp (hms.subset hm)) hsame hdirs.refusal)
    (h.apart_reverse.sublist hms) hs (DirsKept.refl fs₀) fun _ _ _ _ => rfl

theorem foldl_remove (hs : fs.Sound) (hdirs : DirsKept fs₀ fs)
    (hreach : fs₀.reach request.directory = .ok dir) {ms : List NamedFile}
    (hms : ms.Sublist files.reverse)
    (hsame : ∀ m ∈ ms, ∀ loc, Own dir m.name loc → fs.view loc = fs₀.view loc) :
    AgreeOff (fun loc => ∃ m ∈ ms, Own dir m.name loc) fs ((ms.map (request.candidateOf fs₀ dir)).foldl
        (fun fs c => fs.removeIfPossible c.path) fs) ∧
      ∀ m ∈ ms, ((ms.map (request.candidateOf fs₀ dir)).foldl
        (fun fs c => fs.removeIfPossible c.path) fs).GoneAt dir m.name := by
  rw [List.foldl_map]
  exact foldl_own _ (fun m : NamedFile => Own dir m.name) (fun fs m => fs.GoneAt dir m.name)
    (fun _ _ _ hsame hgone => hgone.of_view hsame)
    (fun m hm fs hs hdirs hsame =>
      h.removed hs (hdirs.reach hreach) (List.mem_reverse.mp (hms.subset hm)) hsame)
    (h.apart_reverse.sublist hms) hs hdirs hsame

/-- **A sweep with a limit** on the number of files: the last ones settle, as many as the limit says, and the
others are gone. Nothing else changes. -/
theorem run (hs : fs₀.Sound) (hage : request.policy.maxAge = 0) (hmax : request.maxFiles = some k)
    (hdir : fs₀.lookup request.directory = .ok (dir, .directory)) :
    AgreeOff (fun loc => ∃ m ∈ files, Own dir m.name loc) fs₀ (request.run fs₀).2 ∧
      (∀ m ∈ files.drop (files.length - k), request.Settled fs₀ dir (request.run fs₀).2 m) ∧
      ∀ m ∈ files.take (files.length - k), (request.run fs₀).2.GoneAt dir m.name := by
  obtain ⟨cs, hcs, _⟩ := candidates_spec hs hdir
  have hreach := reach_of_lookup hdir
  have hkept : (files.reverse.take k).Sublist files.reverse := List.take_sublist _ _
  have hold : (files.reverse.drop k).Sublist files.reverse := List.drop_sublist _ _
  obtain ⟨hagree, hsettled⟩ := h.foldl_settle hs hreach hkept
  -- settling leaves alone what is to be removed
  have hcross : ∀ m ∈ files.reverse.take k, ∀ m' ∈ files.reverse.drop k,
      ∀ loc, Own dir m.name loc → ¬ Own dir m'.name loc := by
    have hsplit := h.apart_reverse
    rw [← List.take_append_drop k files.reverse] at hsplit
    exact (List.pairwise_append.mp hsplit).2.2
  obtain ⟨hagree', hgone⟩ := h.foldl_remove hagree.sound hagree.dirs hreach hold fun m hm loc hown =>
    hagree.view loc fun ⟨m', hm', hown'⟩ => hcross m' hm' m hm loc hown' hown
  have hrun := foldl_treat_of_limit hage hmax (arranged cs) ⟨fs₀, 0, ⟨cs.length, 0, 0, 0⟩⟩
  rw [h.arranged_eq hs hdir hcs, ← List.map_reverse, ← List.map_take, ← List.map_drop] at hrun
  change _ = ((files.reverse.drop k).map (request.candidateOf fs₀ dir)).foldl _
    (((files.reverse.take k).map (request.candidateOf fs₀ dir)).foldl request.settle fs₀) at hrun
  rw [← hrun] at hagree' hgone
  unfold SweepRequest.run
  rw [hcs]
  simp only
  rw [h.arranged_eq hs hdir hcs, ← List.map_reverse]
  refine ⟨?_, fun m hm => ?_, fun m hm => hgone m ?_⟩
  · refine (hagree.mono ?_).trans (hagree'.mono ?_)
    · rintro loc ⟨m, hm, hown⟩
      exact ⟨m, List.mem_reverse.mp (hkept.subset hm), hown⟩
    · rintro loc ⟨m, hm, hown⟩
      exact ⟨m, List.mem_reverse.mp (hold.subset hm), hown⟩
  · have hlast : m ∈ files.reverse.take k := by
      rw [List.take_reverse]
      exact List.mem_reverse.mpr hm
    exact (hsettled m hlast).of_view fun loc hown =>
      hagree'.view loc fun ⟨m', hm', hown'⟩ => hcross m hlast m' hm' loc hown hown'
  · rw [List.drop_reverse]
    exact List.mem_reverse.mpr hm

end Shelf

end SweepRequest

end LogRouter
