import LogRouter.Proofs.Path.Labelled
import LogRouter.Proofs.Retention.Outcome
import LogRouter.Proofs.Retention.RotatedName

/-!
# Sweeping twice

* `run_idle`: a sweep that has nothing to remove and nothing to pack counts its files and changes
  nothing.
* `SweepRequest.keptAs`: a file as it stands after a sweep that keeps it.
* `mem_keptAs_iff`: the files that the next sweep may touch are those that were kept.
* **`run_twice`**: a second sweep right after the first changes nothing.
-/

namespace LogRouter

open FileSystem

namespace SweepRequest

variable {request : SweepRequest} {fs fs' : FileSystem} {dir : Location} {files : List NamedFile}
  {m : NamedFile}

/-! ## Sweeps with nothing to do -/

/-- The sweep leaves the candidate as it is while there is room for it. -/
def Rests (request : SweepRequest) (c : Candidate) : Prop :=
  request.expires c = false ∧ (request.policy.compress = true → c.path.isCompressed = true)

theorem treat_rests {progress : Progress} {c : Candidate} (hc : request.Rests c)
    (hroom : ∀ limit, request.maxFiles = some limit → progress.kept < limit) :
    request.treat progress c = { progress with kept := progress.kept + 1 } := by
  obtain ⟨hyoung, hpacked⟩ := hc
  have hstays : request.condemns progress.kept c = false := by
    refine Bool.or_eq_false_iff.mpr ⟨?_, hyoung⟩
    cases hlimit : request.maxFiles with
    | none => rfl
    | some limit => exact decide_eq_false (Nat.not_le.mpr (hroom limit hlimit))
  have hplain : (request.policy.compress && !c.path.isCompressed) = false := by
    cases hcompress : request.policy.compress with
    | false => rfl
    | true => rw [hpacked hcompress]; rfl
  unfold treat
  rw [if_neg (by rw [hstays]; exact Bool.false_ne_true)]
  simp only
  rw [if_neg (by rw [hplain]; exact Bool.false_ne_true)]

theorem foldl_rests {cs : List Candidate} {progress : Progress} (hcs : ∀ c ∈ cs, request.Rests c)
    (hroom : ∀ limit, request.maxFiles = some limit → progress.kept + cs.length ≤ limit) :
    cs.foldl request.treat progress = { progress with kept := progress.kept + cs.length } := by
  induction cs generalizing progress with
  | nil => rfl
  | cons c cs ih =>
    have hfirst : request.treat progress c = { progress with kept := progress.kept + 1 } := by
      refine treat_rests (hcs c List.mem_cons_self) fun limit hlimit => ?_
      have := hroom limit hlimit
      rw [List.length_cons] at this
      omega
    rw [List.foldl_cons, hfirst, ih (fun c' hc' => hcs c' (List.mem_cons_of_mem _ hc'))]
    · rw [List.length_cons, Nat.add_assoc, Nat.add_comm 1]
    · intro limit hlimit
      have := hroom limit hlimit
      rw [List.length_cons] at this
      simp only
      omega

/-- **A sweep that leaves all its candidates as they are** counts them. -/
theorem run_idle {cs : List Candidate} (hcs : request.candidates fs = .ok cs)
    (hrest : ∀ c ∈ cs, request.Rests c)
    (hroom : ∀ limit, request.maxFiles = some limit → cs.length ≤ limit) :
    request.run fs = (⟨cs.length, 0, 0, 0⟩, fs) := by
  have hperm : (arranged cs).Perm cs := List.mergeSort_perm cs _
  unfold run
  rw [hcs]
  simp only
  rw [foldl_rests (fun c hc => hrest c (hperm.mem_iff.mp hc)) fun limit hlimit => ?_]
  rw [Nat.zero_add, hperm.length_eq]
  exact hroom limit hlimit

/-! ## Files that were kept -/

/-- The name that a file has after a sweep that keeps it. -/
def keptName (request : SweepRequest) (m : NamedFile) : Name :=
  if request.replaces m then Path.packedName m.name else m.name

/-- A file that was kept, as it stands after the sweep. -/
def keptAs (request : SweepRequest) (fs : FileSystem) (dir : Location) (m : NamedFile) : NamedFile :=
  ⟨request.keptName m, (fs.storedAt? (request.keptName m :: dir)).getD m.stored⟩

theorem keptName_of_replaces (h : request.replaces m = true) :
    request.keptName m = Path.packedName m.name := if_pos h

theorem keptName_of_not_replaces (h : request.replaces m = false) : request.keptName m = m.name :=
  if_neg (by rw [h]; exact Bool.false_ne_true)

theorem place_keptName (m : NamedFile) : request.Place dir m (request.keptName m :: dir) := by
  cases h : request.replaces m with
  | true => exact Or.inr ⟨h, by rw [keptName_of_replaces h]⟩
  | false => exact Or.inl (by rw [keptName_of_not_replaces h])

theorem Stays.storedAt? (h : request.Stays fs dir m) :
    fs.storedAt? (request.keptName m :: dir) = some (request.keptAs fs dir m).stored ∧
      (request.keptAs fs dir m).stored.modified = m.stored.modified := by
  obtain ⟨stored, hstored, hmodified⟩ : ∃ stored,
      fs.storedAt? (request.keptName m :: dir) = some stored ∧
        stored.modified = m.stored.modified := by
    cases hreplaced : request.replaces m with
    | true =>
      obtain ⟨frame, hframe, -⟩ := (h.replaced hreplaced).frame
      rw [keptName_of_replaces hreplaced]
      exact ⟨_, hframe, rfl⟩
    | false =>
      rw [keptName_of_not_replaces hreplaced]
      exact ⟨_, h.left hreplaced, rfl⟩
  rw [keptAs, hstored]
  exact ⟨rfl, hmodified⟩

theorem keptAs_eq {m' : NamedFile} (hname : m.name = request.keptName m')
    (hstored : fs.storedAt? (m.name :: dir) = some m.stored) : request.keptAs fs dir m' = m := by
  rw [keptAs, ← hname, hstored]
  rfl

/-- **A file that was kept is left as it is** by the same sweep. -/
theorem rests_keptAs (hentry : m.name.IsEntry) (hstays : request.Stays fs dir m)
    (hyoung : request.expires (request.asCandidate m) = false) :
    request.Rests (request.asCandidate (request.keptAs fs dir m)) := by
  constructor
  · have hsame : request.expires (request.asCandidate (request.keptAs fs dir m)) =
        request.expires (request.asCandidate m) := by
      unfold expires asCandidate
      rw [hstays.storedAt?.2]
    rw [hsame, hyoung]
  · intro hcompress
    change (request.pathOf (request.keptName m)).isCompressed = true
    cases h : request.replaces m with
    | true =>
      rw [keptName_of_replaces h]
      exact Path.isCompressed_packedName hentry
    | false =>
      rw [keptName_of_not_replaces h]
      unfold replaces at h
      rw [hcompress, Bool.true_and, Bool.not_eq_false'] at h
      exact h

section Kept

variable (h : request.Permitted fs dir) (hqueue : request.Queue fs dir files)
  (hout : request.Outcome fs fs' dir files)
  (hopen : ∀ m, request.MayTouch fs dir m → request.replaces m = true →
    (request.pathOf (Path.packedName m.name)).sameAs request.active = false)

include h hqueue

theorem keptAs_distinct :
    ((files.take (request.survivors files)).map (request.keptAs fs' dir)).Pairwise
      fun m m' => m.name ≠ m'.name := by
  rw [List.pairwise_map]
  refine (hqueue.distinct.sublist (List.take_sublist _ _)).imp_of_mem fun {m m'} hm hm' hne heq => ?_
  have htouch := fun m (hm : m ∈ files.take (request.survivors files)) =>
    (hqueue.mem_iff m).mp (List.mem_of_mem_take hm)
  have hplace : request.Place dir m' (request.keptName m' :: dir) := place_keptName m'
  rw [show request.keptName m' = request.keptName m from heq.symm] at hplace
  exact h.apart (htouch m hm) (htouch m' hm') hne (place_keptName m) hplace

include hout

omit h in
theorem keptAs_of_mayTouch (hm : request.MayTouch fs' dir m) :
    m ∈ (files.take (request.survivors files)).map (request.keptAs fs' dir) := by
  obtain ⟨hstored, hcovers⟩ := hm
  rw [List.mem_map]
  by_cases hplace : (∃ m' ∈ files, m.name :: dir = m'.name :: dir) ∨
      ∃ m' ∈ files.take (request.survivors files), request.replaces m' = true ∧
        m.name :: dir = Path.packedName m'.name :: dir
  swap
  · -- a file that was not changed was there before, and the sweep went over it
    have hbefore : m ∈ files := (hqueue.mem_iff m).mpr
      ⟨(storedAt?_of_view (hout.others.view _ hplace)).symm.trans hstored, hcovers⟩
    exact absurd (Or.inl ⟨m, hbefore, rfl⟩) hplace
  obtain ⟨id, hid, -⟩ := storedAt?_eq_some_iff.mp hstored
  rcases hplace with ⟨m', hm', heq⟩ | ⟨m', hm', hreplaced, heq⟩
  · have hname : m.name = m'.name := (List.cons.inj heq).1
    rw [heq] at hid
    rw [← List.take_append_drop (request.survivors files) files] at hm'
    rcases List.mem_append.mp hm' with hm' | hm'
    · cases hreplaced : request.replaces m' with
      | true =>
        have hgone := ((hout.stays m' hm').replaced hreplaced).gone
        rw [hid] at hgone
        cases hgone
      | false =>
        exact ⟨m', hm', keptAs_eq (hname.trans (keptName_of_not_replaces hreplaced).symm) hstored⟩
    · have hgone := hout.gone m' hm'
      rw [hid] at hgone
      cases hgone
  · exact ⟨m', hm', keptAs_eq ((List.cons.inj heq).1.trans (keptName_of_replaces hreplaced).symm) hstored⟩

include hopen

theorem mayTouch_keptAs (hm : m ∈ files.take (request.survivors files)) :
    request.MayTouch fs' dir (request.keptAs fs' dir m) := by
  have htouch := (hqueue.mem_iff m).mp (List.mem_of_mem_take hm)
  refine ⟨(hout.stays m hm).storedAt?.1, ?_⟩
  change request.Covers (request.keptName m)
  cases hreplaced : request.replaces m with
  | true =>
    rw [keptName_of_replaces hreplaced]
    refine ⟨?_, hopen m htouch hreplaced⟩
    have hplain := hreplaced
    unfold replaces at hplain
    rw [Bool.and_eq_true, Bool.not_eq_true'] at hplain
    exact RotatedName.recognizes_packedName (h.isEntry htouch) htouch.2.1 hplain.2
  | false =>
    rw [keptName_of_not_replaces hreplaced]
    exact htouch.2

/-- **The files that the next sweep may touch** are those that were kept. -/
theorem mem_keptAs_iff : m ∈ (files.take (request.survivors files)).map (request.keptAs fs' dir) ↔
    request.MayTouch fs' dir m := by
  refine ⟨fun hm => ?_, keptAs_of_mayTouch hqueue hout⟩
  obtain ⟨m', hm', rfl⟩ := List.mem_map.mp hm
  exact mayTouch_keptAs h hqueue hout hopen hm'

end Kept

/-! ## The second sweep -/

/-- **A second sweep changes nothing** right after a first one that nothing hindered, if no packed
form would have the path of the open file. It counts the files that the first one kept. -/
theorem run_twice (h : request.Permitted fs dir)
    (hopen : ∀ m, request.MayTouch fs dir m → request.replaces m = true →
      (request.pathOf (Path.packedName m.name)).sameAs request.active = false) :
    ∃ files, request.Queue fs dir files ∧ request.Outcome fs (request.run fs).2 dir files ∧
      request.run (request.run fs).2 =
        (⟨request.survivors files, 0, 0, 0⟩, (request.run fs).2) := by
  obtain ⟨files, cs, hqueue, hcs, harranged⟩ := exists_queue h.sound h.listed
  obtain ⟨hout, -⟩ := h.run_of_queue hqueue hcs harranged
  obtain ⟨hyoung, hroom, -⟩ := keeps_first request hqueue.ordered
  refine ⟨files, hqueue, hout, ?_⟩
  obtain ⟨files', cs', hqueue', hcs', harranged'⟩ :=
    exists_queue hout.others.sound (hout.others.dirs.lookup h.listed)
  have hmem := fun m => (hqueue'.mem_iff m).trans (mem_keptAs_iff h hqueue hout hopen).symm
  have hnodup : ∀ {ms : List NamedFile}, ms.Pairwise (fun m m' => m.name ≠ m'.name) → ms.Nodup :=
    fun hdistinct => hdistinct.imp fun hne heq => hne (congrArg _ heq)
  have hperm : files'.Perm
      ((files.take (request.survivors files)).map (request.keptAs (request.run fs).2 dir)) :=
    (List.perm_ext_iff_of_nodup (hnodup hqueue'.distinct) (hnodup (keptAs_distinct h hqueue))).mpr hmem
  have hsorted : (arranged cs').Perm cs' := List.mergeSort_perm cs' _
  have hlength : cs'.length = request.survivors files := by
    rw [← hsorted.length_eq, harranged', List.length_map, hperm.length_eq, List.length_map,
      List.length_take_of_le (survivors_le_length files)]
  rw [← hlength]
  refine run_idle hcs' (fun c hc => ?_) fun limit hlimit => hlength ▸ hroom limit hlimit
  have hc' := hsorted.mem_iff.mpr hc
  rw [harranged'] at hc'
  obtain ⟨m', hm', rfl⟩ := List.mem_map.mp hc'
  obtain ⟨m, hm, rfl⟩ := List.mem_map.mp ((hmem m').mp hm')
  exact rests_keptAs (h.isEntry ((hqueue.mem_iff m).mp (List.mem_of_mem_take hm))) (hout.stays m hm)
    (hyoung m hm)

/-- The one log that was kept stays as it is. -/
theorem run_twice_keeps_one_log :
    keepOne.Permitted twoLogs [] ∧
      (∀ m, keepOne.MayTouch twoLogs [] m → keepOne.replaces m = true →
        (keepOne.pathOf (Path.packedName m.name)).sameAs keepOne.active = false) ∧
      ∃ files, keepOne.Queue twoLogs [] files ∧
        keepOne.Outcome twoLogs (keepOne.run twoLogs).2 [] files ∧
        keepOne.run (keepOne.run twoLogs).2 =
          (⟨keepOne.survivors files, 0, 0, 0⟩, (keepOne.run twoLogs).2) := by
  have hopen : ∀ m, keepOne.MayTouch twoLogs [] m → keepOne.replaces m = true →
      (keepOne.pathOf (Path.packedName m.name)).sameAs keepOne.active = false := by
    intro m hm _
    exact Path.sameAs_current_join (Path.isEntry_packedName (permitted_keepOne.isEntry hm))
      (b := "app.log".toList) ⟨by decide, by decide, by decide, by decide, by decide⟩
  exact ⟨permitted_keepOne, hopen, run_twice permitted_keepOne hopen⟩

end SweepRequest

end LogRouter
