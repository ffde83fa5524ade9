import LogRouter.Proofs.Retention.Compress
import LogRouter.Proofs.Retention.RotatedName
import LogRouter.Retention.Sweep

/-!
# What a sweep changes

* `candidates_spec`: the candidates of a sweep are the recognized files of its directory, the open
  one left out, each of them once.
* `SweepRequest.Exposes`: a sweep gets hold of a file.
* `foldl_treat_agreeOff`: a sweep changes its candidates and their compressed forms at most.
* **`run_view_of_not_recognized`**: a name that is not recognized is left alone, whatever the limits are.
* **`run_spares_iff`**: an entry that is no candidate's compressed form stays as it is exactly if the
  sweep does not get hold of it.
-/

namespace LogRouter

open FileSystem

namespace SweepRequest

variable {request : SweepRequest} {fs : FileSystem} {dir : Location}

/-! ## Candidates -/

/-- The path of an entry of the directory. -/
def pathOf (request : SweepRequest) (name : Name) : Path := request.directory.join ⟨name⟩

/-- The sweep may touch files of the given name. -/
def Covers (request : SweepRequest) (name : Name) : Prop :=
  request.names.recognizes name = true ∧ (request.pathOf name).sameAs request.active = false

/-- The candidate is the file with the given name. -/
structure IsFile (request : SweepRequest) (fs : FileSystem) (dir : Location) (c : Candidate)
    (name : Name) : Prop where
  isEntry : name.IsEntry
  path_eq : c.path = request.pathOf name
  covers : request.Covers name
  file : ∃ id, fs.node? (name :: dir) = some (.file id) ∧ c.modified = fs.modified id

theorem candidate?_eq_some_iff {entry : Name × Node} {c : Candidate} :
    request.candidate? fs entry = some c ↔ ∃ id, entry.2 = .file id ∧ request.Covers entry.1 ∧
      c = ⟨request.pathOf entry.1, fs.modified id⟩ := by
  obtain ⟨name, node⟩ := entry
  unfold candidate? Covers pathOf
  cases node with
  | directory => simp
  | fullDevice => simp
  | file id =>
    simp only [Bool.or_eq_true, Bool.not_eq_true', Node.file.injEq, exists_eq_left']
    cases hs : (request.directory.join ⟨name⟩).sameAs request.active <;>
      cases hr : request.names.recognizes name <;> simp [eq_comm]

/-- **The candidates** are the recognized files of the directory, the open one left out, each of them
once. -/
theorem candidates_spec (hs : fs.Sound) (hdir : fs.lookup request.directory = .ok (dir, .directory)) :
    ∃ cs, request.candidates fs = .ok cs ∧
      (∀ c ∈ cs, ∃ name, request.IsFile fs dir c name) ∧
      cs.Pairwise (fun c c' => c.path ≠ c'.path) ∧
      ∀ name id, fs.node? (name :: dir) = some (.file id) → request.Covers name →
        ⟨request.pathOf name, fs.modified id⟩ ∈ cs := by
  refine ⟨(fs.children dir).filterMap (request.candidate? fs), ?_, ?_, ?_, ?_⟩
  · unfold candidates
    rw [hdir]
  · intro c hc
    obtain ⟨⟨name, node⟩, hmem, heq⟩ := List.mem_filterMap.mp hc
    obtain ⟨id, hnode, hcovers, rfl⟩ := candidate?_eq_some_iff.mp heq
    have hfound := (mem_children_iff hs).mp hmem
    simp only at hnode hcovers
    rw [hnode] at hfound
    have hname := (hs.parent name dir (by rw [hfound]; exact Option.some_ne_none _)).1
    exact ⟨name, hname, rfl, hcovers, id, hfound, rfl⟩
  · rw [List.pairwise_filterMap]
    refine (children_nodup hs dir).imp_of_mem ?_
    rintro ⟨name, node⟩ ⟨name', node'⟩ hmem hmem' hne c hc c' hc'
    obtain ⟨_, _, _, rfl⟩ := candidate?_eq_some_iff.mp hc
    obtain ⟨_, _, _, rfl⟩ := candidate?_eq_some_iff.mp hc'
    have hentry := fun {n : Name} {x : Node} (hm : (n, x) ∈ fs.children dir) =>
      (hs.parent n dir (by rw [(mem_children_iff hs).mp hm]; exact Option.some_ne_none _)).1
    exact fun heq => hne (Path.join_injective (hentry hmem) (hentry hmem') heq)
  · intro name id hnode hcovers
    exact List.mem_filterMap.mpr ⟨(name, .file id), (mem_children_iff hs).mpr hnode,
      candidate?_eq_some_iff.mpr ⟨id, rfl, hcovers, rfl⟩⟩

/-! ## Treating a candidate -/

/-- The candidate is too old. -/
def expires (request : SweepRequest) (c : Candidate) : Bool :=
  match request.policy.cutoff? request.now with
  | some cutoff => c.modified < cutoff.total
  | none => false

theorem condemns_of_unlimited (hmax : request.maxFiles = none) (kept : Nat) (c : Candidate) :
    request.condemns kept c = request.expires c := by
  unfold condemns expires
  cases request.policy.cutoff? request.now <;> rw [hmax, Bool.false_or]

theorem expires_mono {c c' : Candidate} (h : c.modified ≤ c'.modified)
    (hc : request.expires c = false) : request.expires c' = false := by
  unfold expires at *
  split at hc
  · rw [decide_eq_false_iff_not] at hc ⊢
    omega
  · rfl

theorem treat_fs_of_condemns (progress : Progress) (c : Candidate) :
    (request.treat progress c).fs =
      if request.condemns progress.kept c then progress.fs.removeIfPossible c.path
      else if request.policy.compress && !c.path.isCompressed then (progress.fs.compress c.path).2
      else progress.fs := by
  unfold treat removeIfPossible
  simp only
  by_cases hcondemned : request.condemns progress.kept c = true
  · rw [if_pos hcondemned, if_pos hcondemned]
    rcases progress.fs.remove c.path with _ | _ <;> rfl
  · rw [if_neg hcondemned, if_neg hcondemned]
    split_ifs
    · rcases progress.fs.compress c.path with ⟨_ | _, _⟩ <;> rfl
    · rfl

theorem treat_fs (hmax : request.maxFiles = none) (progress : Progress) (c : Candidate) :
    (request.treat progress c).fs =
      if request.expires c then progress.fs.removeIfPossible c.path
      else if request.policy.compress && !c.path.isCompressed then (progress.fs.compress c.path).2
      else progress.fs := by
  rw [treat_fs_of_condemns, condemns_of_unlimited hmax]

theorem treat_agreeOff_places {progress : Progress} {c : Candidate} {name : Name}
    (hs : progress.fs.Sound) (hreach : progress.fs.reach request.directory = .ok dir)
    (h : name.IsEntry) (hpath : c.path = request.pathOf name) :
    AgreeOff (fun loc => loc = name :: dir ∨
      loc = Path.packedName name :: dir ∧ c.path.isCompressed = false)
      progress.fs (request.treat progress c).fs := by
  rw [treat_fs_of_condemns]
  split_ifs with hcondemned hcompress
  · rw [hpath]
    exact (removeIfPossible_agreeOff hs hreach h).mono fun loc hl => Or.inl hl
  · rw [Bool.and_eq_true, Bool.not_eq_true'] at hcompress
    rw [hpath] at hcompress ⊢
    exact (compress_agreeOff hs hreach h).mono fun loc hl => hl.imp_right fun hl => ⟨hl, hcompress.2⟩
  · exact AgreeOff.refl hs

/-- The locations that the treatment of a candidate with the given name may change. -/
def Touches (request : SweepRequest) (dir : Location) (c : Candidate) (name : Name)
    (loc : Location) : Prop :=
  (loc = name :: dir ∧ (request.expires c = true ∨ c.path.isCompressed = false)) ∨
    (loc = Path.packedName name :: dir ∧ c.path.isCompressed = false)

theorem treat_agreeOff (hmax : request.maxFiles = none) {progress : Progress} {c : Candidate}
    {name : Name} (hs : progress.fs.Sound) (hreach : progress.fs.reach request.directory = .ok dir)
    (h : name.IsEntry) (hpath : c.path = request.pathOf name) :
    AgreeOff (request.Touches dir c name) progress.fs (request.treat progress c).fs := by
  rw [treat_fs hmax]
  split_ifs with hexpires hcompress
  · rw [hpath]
    exact (removeIfPossible_agreeOff hs hreach h).mono fun loc hl => Or.inl ⟨hl, Or.inl hexpires⟩
  · rw [Bool.and_eq_true, Bool.not_eq_true'] at hcompress
    rw [hpath]
    refine (compress_agreeOff hs hreach h).mono fun loc hl => ?_
    rcases hl with hl | hl
    · exact Or.inl ⟨hl, Or.inr hcompress.2⟩
    · exact Or.inr ⟨hl, hcompress.2⟩
  · exact AgreeOff.refl hs

theorem foldl_agreeOff (P : Location → Prop) : ∀ (cs : List Candidate) (progress : Progress),
    progress.fs.Sound → progress.fs.reach request.directory = .ok dir →
    (∀ c ∈ cs, ∀ progress : Progress, progress.fs.Sound →
      progress.fs.reach request.directory = .ok dir →
      AgreeOff P progress.fs (request.treat progress c).fs) →
    AgreeOff P progress.fs (cs.foldl request.treat progress).fs
  | [], _, hs, _, _ => AgreeOff.refl hs
  | c :: cs, progress, hs, hreach, hcs => by
    have hstep := hcs c List.mem_cons_self progress hs hreach
    exact hstep.trans (foldl_agreeOff P cs (request.treat progress c) hstep.sound
      (hstep.dirs.reach hreach) fun c' hc' => hcs c' (List.mem_cons_of_mem _ hc'))

/-- **Treating candidates** changes what each of them may change. -/
theorem foldl_treat_agreeOff (hmax : request.maxFiles = none) (P : Location → Prop)
    (cs : List Candidate) (progress : Progress) (hs : progress.fs.Sound)
    (hreach : progress.fs.reach request.directory = .ok dir)
    (hcs : ∀ c ∈ cs, ∃ name, Name.IsEntry name ∧ c.path = request.pathOf name ∧
      ∀ loc, request.Touches dir c name loc → P loc) :
    AgreeOff P progress.fs (cs.foldl request.treat progress).fs := by
  refine foldl_agreeOff P cs progress hs hreach fun c hc progress hs hreach => ?_
  obtain ⟨name, h, hpath, hP⟩ := hcs c hc
  exact (treat_agreeOff hmax hs hreach h hpath).mono hP

/-! ## The whole sweep -/

/-- The sweep gets hold of the file at a location: it is a candidate that its path leads to, and is
too old or to be compressed. -/
def Exposes (request : SweepRequest) (fs : FileSystem) (name : Name) (dir : Location) (id : Nat) :
    Prop :=
  request.Covers name ∧ fs.lookup (request.pathOf name) = .ok (name :: dir, .file id) ∧
    (request.expires ⟨request.pathOf name, fs.modified id⟩ = true ∨
      request.policy.compress = true ∧ (request.pathOf name).isCompressed = false ∧
        ∃ r, fs.createNew (request.pathOf name).compressed = .ok r)

/-- The name is not that of the compressed form of another file that the sweep covers. -/
def NoTarget (request : SweepRequest) (name : Name) : Prop :=
  ∀ other : Name, other.IsEntry → request.names.recognizes other = true →
    (request.pathOf other).isCompressed = false → Path.packedName other ≠ name

theorem arranged_pairwise (cs : List Candidate) :
    (arranged cs).Pairwise (fun a b => b.modified ≤ a.modified) := by
  have htrans : ∀ a b c : Candidate, decide (b.modified ≤ a.modified) = true →
      decide (c.modified ≤ b.modified) = true → decide (c.modified ≤ a.modified) = true := by
    intro a b c hab hbc
    rw [decide_eq_true_eq] at hab hbc ⊢
    omega
  have htotal : ∀ a b : Candidate,
      (decide (b.modified ≤ a.modified) || decide (a.modified ≤ b.modified)) = true := by
    intro a b
    rw [Bool.or_eq_true, decide_eq_true_eq, decide_eq_true_eq]
    omega
  exact (List.pairwise_mergeSort htrans htotal cs).imp fun h => of_decide_eq_true h

section Run

variable {name : Name}

theorem ne_of_touches (htarget : request.NoTarget name) {c : Candidate} {other : Name}
    (hc : request.IsFile fs dir c other) (hne : c.path ≠ request.pathOf name) {loc : Location}
    (hl : request.Touches dir c other loc) : loc ≠ name :: dir := by
  rintro rfl
  rcases hl with ⟨hl, _⟩ | ⟨hl, hplain⟩
  · exact hne (by rw [hc.path_eq, (List.cons.inj hl).1])
  · rw [hc.path_eq] at hplain
    exact htarget other hc.isEntry hc.covers.1 hplain (List.cons.inj hl).1.symm

theorem ne_packed_of_touches {c : Candidate} {other : Name} (h : name.IsEntry)
    (hc : request.IsFile fs dir c other) (hne : c.path ≠ request.pathOf name)
    (hkept : request.expires c = false) {loc : Location} (hl : request.Touches dir c other loc) :
    loc ≠ Path.packedName name :: dir := by
  rintro rfl
  rcases hl with ⟨hl, hcause⟩ | ⟨hl, _⟩
  · rcases hcause with hcause | hcause
    · rw [hkept] at hcause
      cases hcause
    · rw [hc.path_eq, ← (List.cons.inj hl).1, pathOf, Path.isCompressed_packedName h] at hcause
      cases hcause
  · exact hne (by rw [hc.path_eq, Path.packedName_injective (List.cons.inj hl).1])

/-- **A file that is no candidate stays as it is.** -/
theorem run_view_of_not_covers (hs : fs.Sound) (hmax : request.maxFiles = none)
    (hdir : fs.lookup request.directory = .ok (dir, .directory)) (h : name.IsEntry)
    (htarget : request.NoTarget name)
    (hout : ¬ (request.Covers name ∧ ∃ id, fs.node? (name :: dir) = some (.file id))) :
    (request.run fs).2.view (name :: dir) = fs.view (name :: dir) := by
  obtain ⟨cs, hcs, hfiles, _, _⟩ := candidates_spec hs hdir
  unfold run
  rw [hcs]
  refine (foldl_treat_agreeOff hmax (· ≠ name :: dir) (arranged cs) _ hs (reach_of_lookup hdir)
    fun c hc => ?_).view _ (not_not_intro rfl)
  obtain ⟨other, hfile⟩ := hfiles c ((List.mergeSort_perm cs _).mem_iff.mp hc)
  refine ⟨other, hfile.isEntry, hfile.path_eq, fun loc hl => ne_of_touches htarget hfile ?_ hl⟩
  intro heq
  have hname := Path.join_injective hfile.isEntry h (hfile.path_eq.symm.trans heq)
  subst hname
  obtain ⟨id, hid, _⟩ := hfile.file
  exact hout ⟨hfile.covers, id, hid⟩

theorem treat_view_iff (hmax : request.maxFiles = none) {progress : Progress} {c : Candidate} {id : Nat}
    (hs : progress.fs.Sound) (hreach : progress.fs.reach request.directory = .ok dir)
    (h : name.IsEntry) (hpath : c.path = request.pathOf name)
    (hnode : progress.fs.node? (name :: dir) = some (.file id)) :
    (request.treat progress c).fs.view (name :: dir) = progress.fs.view (name :: dir) ↔
      ¬ (progress.fs.lookup (request.pathOf name) = .ok (name :: dir, .file id) ∧
        (request.expires c = true ∨
          request.policy.compress = true ∧ (request.pathOf name).isCompressed = false ∧
            ∃ r, progress.fs.createNew (request.pathOf name).compressed = .ok r)) := by
  rw [treat_fs hmax, hpath]
  by_cases hlook : progress.fs.lookup (request.pathOf name) = .ok (name :: dir, .file id)
  swap
  · obtain ⟨hremove, hcompress⟩ := unreachable_file hreach h hnode hlook
    refine iff_of_true ?_ fun hin => hlook hin.1
    unfold pathOf
    rw [hremove, hcompress]
    split_ifs <;> rfl
  rw [and_iff_right hlook]
  obtain ⟨hfits, hshort, _⟩ := (lookup_join_iff hreach h).mp hlook
  have hgone : ∀ fs' : FileSystem, fs'.node? (name :: dir) = none →
      fs'.view (name :: dir) ≠ progress.fs.view (name :: dir) := by
    intro fs' hnone heq
    rw [← node?_of_view heq, hnone] at hnode
    cases hnode
  by_cases hexpires : request.expires c = true
  · rw [if_pos hexpires, removeIfPossible, pathOf, remove_file hreach h hfits hshort hnode]
    refine iff_of_false (hgone _ ?_) (not_not_intro (Or.inl hexpires))
    rw [node?_dropEntry _ (List.cons_ne_nil _ _), if_pos rfl]
  · rw [if_neg hexpires, or_iff_right hexpires]
    by_cases hcompress : request.policy.compress && !(request.pathOf name).isCompressed
    · rw [if_pos hcompress]
      rw [Bool.and_eq_true, Bool.not_eq_true'] at hcompress
      by_cases hcreate : ∃ r, progress.fs.createNew (request.pathOf name).compressed = .ok r
      · exact iff_of_false (hgone _ (compress_done hs hreach h hlook hcreate).1)
          (not_not_intro ⟨hcompress.1, hcompress.2, hcreate⟩)
      · exact iff_of_true ((compress_failed hs hreach h hcreate).view _ fun heq =>
          Path.packedName_ne name (List.cons.inj heq).1.symm) fun hin => hcreate hin.2.2
    · rw [if_neg hcompress]
      rw [Bool.and_eq_true, Bool.not_eq_true'] at hcompress
      exact iff_of_true rfl fun hin => hcompress ⟨hin.1, hin.2.1⟩

theorem exists_turn (hs : fs.Sound) (hdir : fs.lookup request.directory = .ok (dir, .directory))
    {id : Nat} (hnode : fs.node? (name :: dir) = some (.file id)) (hcovers : request.Covers name) :
    ∃ cs before after, request.candidates fs = .ok cs ∧
      arranged cs = before ++ ⟨request.pathOf name, fs.modified id⟩ :: after ∧
      (∀ c ∈ before ++ after,
        c.path ≠ request.pathOf name ∧ ∃ other, request.IsFile fs dir c other) ∧
      ∀ c ∈ before, fs.modified id ≤ c.modified := by
  obtain ⟨cs, hcs, hfiles, hpaths, hmem⟩ := candidates_spec hs hdir
  have hperm := List.mergeSort_perm cs fun a b => decide (b.modified ≤ a.modified)
  obtain ⟨before, after, hsplit⟩ :=
    List.append_of_mem (hperm.mem_iff.mpr (hmem name id hnode hcovers))
  have hsorted := arranged_pairwise cs
  have hdistinct : (arranged cs).Pairwise (fun c c' => c.path ≠ c'.path) :=
    (hperm.pairwise_iff fun hne => Ne.symm hne).mpr hpaths
  change arranged cs = _ at hsplit
  rw [hsplit] at hsorted hdistinct
  obtain ⟨_, htail, hcross⟩ := List.pairwise_append.mp hdistinct
  refine ⟨cs, before, after, hcs, hsplit, fun c hc => ⟨?_, ?_⟩, fun c hc => ?_⟩
  · rcases List.mem_append.mp hc with hc | hc
    · exact hcross c hc _ List.mem_cons_self
    · exact Ne.symm ((List.pairwise_cons.mp htail).1 c hc)
  · refine hfiles c (hperm.mem_iff.mp ?_)
    change c ∈ arranged cs
    rw [hsplit]
    rcases List.mem_append.mp hc with hc | hc
    · exact List.mem_append_left _ hc
    · exact List.mem_append_right _ (List.mem_cons_of_mem _ hc)
  · exact (List.pairwise_append.mp hsorted).2.2 c hc _ List.mem_cons_self

theorem others_agreeOff (hmax : request.maxFiles = none) (htarget : request.NoTarget name)
    (cs : List Candidate) (progress : Progress)
    (hcs : ∀ c ∈ cs, c.path ≠ request.pathOf name ∧ ∃ other, request.IsFile fs dir c other)
    (hs : progress.fs.Sound) (hreach : progress.fs.reach request.directory = .ok dir) :
    AgreeOff (· ≠ name :: dir) progress.fs (cs.foldl request.treat progress).fs := by
  refine foldl_treat_agreeOff hmax _ cs progress hs hreach fun c hc => ?_
  obtain ⟨hne, other, hfile⟩ := hcs c hc
  exact ⟨other, hfile.isEntry, hfile.path_eq, fun loc hl => ne_of_touches htarget hfile hne hl⟩

theorem newer_agreeOff (hmax : request.maxFiles = none) (h : name.IsEntry) (before : List Candidate)
    (progress : Progress)
    (hbefore : ∀ c ∈ before,
      c.path ≠ request.pathOf name ∧ ∃ other, request.IsFile fs dir c other)
    (hkept : ∀ c ∈ before, request.expires c = false)
    (hs : progress.fs.Sound) (hreach : progress.fs.reach request.directory = .ok dir) :
    AgreeOff (· ≠ Path.packedName name :: dir) progress.fs
      (before.foldl request.treat progress).fs := by
  refine foldl_treat_agreeOff hmax _ before progress hs hreach fun c hc => ?_
  obtain ⟨hne, other, hfile⟩ := hbefore c hc
  exact ⟨other, hfile.isEntry, hfile.path_eq, fun loc hl =>
    ne_packed_of_touches h hfile hne (hkept c hc) hl⟩

/-- **A file that is no candidate's compressed form stays as it is** exactly if the sweep does not get
hold of it. -/
theorem run_view_iff (hs : fs.Sound) (hmax : request.maxFiles = none)
    (hdir : fs.lookup request.directory = .ok (dir, .directory)) (h : name.IsEntry)
    (htarget : request.NoTarget name) {id : Nat} (hnode : fs.node? (name :: dir) = some (.file id)) :
    (request.run fs).2.view (name :: dir) = fs.view (name :: dir) ↔
      ¬ request.Exposes fs name dir id := by
  have hreach := reach_of_lookup hdir
  by_cases hcovers : request.Covers name
  swap
  · exact iff_of_true
      (run_view_of_not_covers hs hmax hdir h htarget fun hin => hcovers hin.1)
      fun hexposes => hcovers hexposes.1
  obtain ⟨cs, before, after, hcs, hsplit, hothers, hnewer⟩ := exists_turn hs hdir hnode hcovers
  have hbefore := fun c hc => hothers c (List.mem_append_left after hc)
  have hafter := fun c hc => hothers c (List.mem_append_right before hc)
  set c : Candidate := ⟨request.pathOf name, fs.modified id⟩
  set start : Progress := ⟨fs, 0, ⟨cs.length, 0, 0, 0⟩⟩
  set progress := before.foldl request.treat start
  -- the file is as it was when its turn comes
  have hfirst : AgreeOff (· ≠ name :: dir) fs progress.fs :=
    others_agreeOff hmax htarget before start hbefore hs hreach
  have hreach' := hfirst.dirs.reach hreach
  have hview := hfirst.view (name :: dir) (not_not_intro rfl)
  have hnode' := (node?_of_view hview).trans hnode
  -- and stays as its turn leaves it
  have hturn := treat_agreeOff (c := c) hmax hfirst.sound hreach' h rfl
  have hlast : (request.run fs).2.view (name :: dir) =
      (request.treat progress c).fs.view (name :: dir) := by
    unfold run
    rw [hcs]
    simp only
    rw [hsplit, List.foldl_append, List.foldl_cons]
    exact (others_agreeOff hmax htarget after _ hafter hturn.sound (hturn.dirs.reach hreach')).view _
      (not_not_intro rfl)
  have hcreate : request.expires c = false →
      ((∃ r, progress.fs.createNew (request.pathOf name).compressed = .ok r) ↔
        ∃ r, fs.createNew (request.pathOf name).compressed = .ok r) := by
    intro hkept
    have hpacked := Path.isEntry_packedName h
    have hagree : AgreeOff (· ≠ Path.packedName name :: dir) fs progress.fs :=
      newer_agreeOff hmax h before start hbefore
        (fun c' hc' => expires_mono (hnewer c' hc') hkept) hs hreach
    rw [pathOf, Path.compressed_join h, createNew_join_iff hreach' hpacked,
      createNew_join_iff hreach hpacked, node?_of_view (hagree.view _ (not_not_intro rfl)),
      hagree.dirs.refusal]
  have hlook : progress.fs.lookup (request.pathOf name) = .ok (name :: dir, .file id) ↔
      fs.lookup (request.pathOf name) = .ok (name :: dir, .file id) := by
    rw [pathOf, lookup_join_iff hreach' h, lookup_join_iff hreach h, node?_of_view hview]
  rw [hlast, ← hview, treat_view_iff hmax hfirst.sound hreach' h rfl hnode', not_iff_not, hlook]
  unfold Exposes
  rw [and_iff_right hcovers]
  cases hold : request.expires c with
  | true => rw [eq_self_iff_true, true_or, true_or]
  | false => rw [hcreate hold]

theorem run_agreeOff (hs : fs.Sound) (hmax : request.maxFiles = none)
    (hdir : fs.lookup request.directory = .ok (dir, .directory)) :
    AgreeOff (fun loc => ∃ name, loc = name :: dir) fs (request.run fs).2 := by
  obtain ⟨cs, hcs, hfiles, _, _⟩ := candidates_spec hs hdir
  have hreach := reach_of_lookup hdir
  unfold run
  rw [hcs]
  refine foldl_treat_agreeOff hmax (fun loc => ∃ name, loc = name :: dir) (arranged cs)
    ⟨fs, 0, ⟨cs.length, 0, 0, 0⟩⟩ hs hreach fun c hc => ?_
  obtain ⟨name, hfile⟩ := hfiles c ((List.mergeSort_perm cs _).mem_iff.mp hc)
  refine ⟨name, hfile.isEntry, hfile.path_eq, fun loc hl => ?_⟩
  rcases hl with ⟨hl, _⟩ | ⟨hl, _⟩
  · exact ⟨_, hl⟩
  · exact ⟨_, hl⟩

theorem run_of_not_directory
    (hdir : ∀ dir, fs.lookup request.directory ≠ .ok (dir, .directory)) :
    (request.run fs).2 = fs := by
  unfold run candidates
  rcases hl : fs.lookup request.directory with e | ⟨loc, node⟩
  · rfl
  · cases node with
    | directory => exact absurd hl (hdir loc)
    | file id => rfl
    | fullDevice => rfl

/-- **A name that is not recognized is left alone**, in every directory and whatever the limits are: a
sweep that would pack a file into the place of the name would recognize the name. -/
theorem run_view_of_not_recognized (hs : fs.Sound) (h : request.names.recognizes name = false)
    (dir : Location) : (request.run fs).2.view (name :: dir) = fs.view (name :: dir) := by
  by_cases hdirs : ∃ loc, fs.lookup request.directory = .ok (loc, .directory)
  swap
  · rw [run_of_not_directory fun loc hloc => hdirs ⟨loc, hloc⟩]
  obtain ⟨loc, hloc⟩ := hdirs
  obtain ⟨cs, hcs, hfiles, _, _⟩ := candidates_spec hs hloc
  unfold run
  rw [hcs]
  refine (foldl_agreeOff (· ≠ name :: dir) (arranged cs) _ hs (reach_of_lookup hloc)
    fun c hc progress hs hreach => ?_).view _ (not_not_intro rfl)
  obtain ⟨other, hfile⟩ := hfiles c ((List.mergeSort_perm cs _).mem_iff.mp hc)
  refine (treat_agreeOff_places hs hreach hfile.isEntry hfile.path_eq).mono ?_
  rintro _ (rfl | ⟨rfl, hplain⟩) heq
  · obtain ⟨rfl, -⟩ := List.cons.inj heq
    exact absurd hfile.covers.1 (Bool.eq_false_iff.mp h)
  · obtain ⟨rfl, -⟩ := List.cons.inj heq
    rw [hfile.path_eq] at hplain
    exact absurd (RotatedName.recognizes_packedName hfile.isEntry hfile.covers.1 hplain)
      (Bool.eq_false_iff.mp h)

theorem run_sound (hs : fs.Sound) (hmax : request.maxFiles = none) : (request.run fs).2.Sound := by
  by_cases h : ∃ dir, fs.lookup request.directory = .ok (dir, .directory)
  · obtain ⟨dir, hdir⟩ := h
    exact (run_agreeOff hs hmax hdir).sound
  · rw [run_of_not_directory fun dir hdir => h ⟨dir, hdir⟩]
    exact hs

/-- **What a sweep spares**, wherever it stands: an entry that is no candidate's compressed form stays
as it is, unless it is a file of the directory and the sweep gets hold of it. -/
theorem run_spares_iff (hs : fs.Sound) (hmax : request.maxFiles = none) (h : name.IsEntry)
    (htarget : request.NoTarget name) {node : Node} (hnode : fs.node? (name :: dir) = some node) :
    (request.run fs).2.view (name :: dir) = fs.view (name :: dir) ↔
      ¬ ∃ id, node = .file id ∧ fs.lookup request.directory = .ok (dir, .directory) ∧
        request.Exposes fs name dir id := by
  by_cases hdirs : ∃ loc, fs.lookup request.directory = .ok (loc, .directory)
  swap
  · rw [run_of_not_directory fun loc hloc => hdirs ⟨loc, hloc⟩]
    exact iff_of_true rfl fun ⟨_, _, hdir, _⟩ => hdirs ⟨dir, hdir⟩
  obtain ⟨loc, hloc⟩ := hdirs
  by_cases heq : loc = dir
  swap
  · refine iff_of_true ((run_agreeOff hs hmax hloc).view _ ?_) ?_
    · rintro ⟨other, hother⟩
      exact heq (List.cons.inj hother).2.symm
    · rintro ⟨_, _, hdir, _⟩
      rw [hloc, Except.ok.injEq, Prod.mk.injEq] at hdir
      exact heq hdir.1
  subst heq
  cases node with
  | file id =>
    rw [run_view_iff hs hmax hloc h htarget hnode]
    simp [hloc]
  | directory =>
    refine iff_of_true (run_view_of_not_covers hs hmax hloc h htarget ?_) (by simp)
    simp [hnode]
  | fullDevice =>
    refine iff_of_true (run_view_of_not_covers hs hmax hloc h htarget ?_) (by simp)
    simp [hnode]

end Run

end SweepRequest

end LogRouter
