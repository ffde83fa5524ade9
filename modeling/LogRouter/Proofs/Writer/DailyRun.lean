import LogRouter.Proofs.Writer.Days

/-!
# Runs with a file for each day

Every sweep that a step asks for runs before the next step, and the clock is never set back.

* `DayFiles`: what is kept of what was written on each day. It outlives the creation of a directory
  (`DayFiles.createParent`), a write (`DayFiles.write`) and a sweep (`DayFiles.sweep`).
* `TimeRun.tend`, `TimeRun.tended`: the sweeps that were asked for, and runs with them.
* `TimeRun.Daily`: what every run keeps (`Daily.write`, `Daily.quiet`, `Daily.tend`, `Daily.tended`).
* **`days_are_kept`**: exactly one of the file of a day and its packed form is there, and holds what was
  written on that day.
-/

namespace LogRouter

open FileSystem TimeWriter

variable {w : TimeWriter} {fs fs' fs₀ fs₁ : FileSystem} {dir : Location} {deeds : List Deed}
  {t t' : Instant} {bytes : Bytes}

/-! ## The files of the days -/

/-- What was written on each day is kept in the directory, as it is or packed, and on the last day as it
is. There are no other files, and no directories but those on the way to the files. -/
structure DayFiles (w : TimeWriter) (fs₀ : FileSystem) (dir : Location) (fs : FileSystem)
    (deeds : List Deed) : Prop where
  sound : fs.Sound
  cwd : fs.cwd = fs₀.cwd
  place : ∀ t, WroteAt deeds t → byteLength (w.nameAt t) ≤ maxNameLength ∧
    fs.locate (w.pathOf (w.labelAt t)) = .ok (.entry (w.nameAt t :: dir) false)
  newest : ∀ t, Newest w deeds t → ∃ id, fs.node? (w.nameAt t :: dir) = some (.file id)
  kept : ∀ t, WroteAt deeds t → ∃ modified,
    fs.KeptAt dir (w.nameAt t) ⟨bytesUnder w (w.labelAt t) deeds, modified⟩
  others : ∀ name node, fs.node? (name :: dir) = some node → node ≠ .directory →
    ∃ t, WroteAt deeds t ∧ (name = w.nameAt t ∨ name = Path.packedName (w.nameAt t))
  made : ∀ loc, fs.node? loc = some .directory → fs₀.node? loc = some .directory ∨
    loc.length ≤ (fs₀.originOf w.base.directory).length + w.base.directory.steps.length

namespace DayFiles

theorem active (h : DayFiles w fs₀ dir fs deeds) (hnewest : Newest w deeds t) :
    ∃ id, ActiveFile (w.pathOf (w.labelAt t)) fs (w.nameAt t) dir id := by
  obtain ⟨hshort, hlocate⟩ := h.place t hnewest.wrote
  obtain ⟨id, hid⟩ := h.newest t hnewest
  exact ⟨id, h.sound, hlocate, hshort, hid⟩

theorem plain (h : DayFiles w fs₀ dir fs deeds) (hnewest : Newest w deeds t) : ∃ modified,
    fs.PlainAt dir (w.nameAt t) ⟨bytesUnder w (w.labelAt t) deeds, modified⟩ := by
  obtain ⟨id, hid⟩ := h.newest t hnewest
  obtain ⟨modified, hplain | hpacked⟩ := h.kept t hnewest.wrote
  · exact ⟨modified, hplain⟩
  · rw [hpacked.gone] at hid
    cases hid

theorem node_ne_fullDevice (h : DayFiles w fs₀ dir fs deeds) {name : Name} :
    fs.node? (name :: dir) ≠ some .fullDevice := by
  intro hfull
  have hno : ∀ {loc stored}, fs.storedAt? loc = some stored → fs.node? loc ≠ some .fullDevice := by
    intro loc stored hstored
    obtain ⟨id, hid, _⟩ := storedAt?_eq_some_iff.mp hstored
    simp [hid]
  obtain ⟨t, hwrote, hname | hname⟩ := h.others name _ hfull (by simp) <;> subst hname <;>
    obtain ⟨modified, hplain | hpacked⟩ := h.kept t hwrote
  · exact hno hplain.stored hfull
  · rw [hpacked.gone] at hfull
    cases hfull
  · have := hplain.noFrame _ hfull
    cases this
  · obtain ⟨_, hframe, _⟩ := hpacked.frame
    exact hno hframe hfull

theorem of_stamp (h : DayFiles w fs₀ dir fs deeds) (stamp : Int) :
    DayFiles w fs₀ dir { fs with now := stamp } deeds where
  sound := h.sound.setStored rfl rfl (Nat.le_refl _)
  cwd := h.cwd
  place t hwrote := by
    rw [locate_stamp]
    exact h.place t hwrote
  newest := h.newest
  kept t hwrote := by
    obtain ⟨modified, hplain | hpacked⟩ := h.kept t hwrote
    · exact ⟨modified, Or.inl (hplain.of_view rfl rfl)⟩
    · exact ⟨modified, Or.inr (hpacked.of_view rfl rfl)⟩
  others := h.others
  made := h.made

theorem of_closed (h : DayFiles w fs₀ dir fs deeds) : DayFiles w fs₀ dir fs (deeds ++ [.closed]) := by
  have hwrote : ∀ t, WroteAt (deeds ++ [.closed]) t ↔ WroteAt deeds t := fun t => wroteAt_concat_closed
  refine ⟨h.sound, h.cwd, fun t ht => h.place t ((hwrote t).mp ht), fun t ht => ?_, fun t ht => ?_,
    fun name node hnode hfile => ?_, h.made⟩
  · exact h.newest t ⟨(hwrote t).mp ht.wrote, fun t' ht' => ht.last t' ((hwrote t').mpr ht')⟩
  · rw [bytesUnder_concat_closed]
    exact h.kept t ((hwrote t).mp ht)
  · obtain ⟨t, ht, hname⟩ := h.others name node hnode hfile
    exact ⟨t, (hwrote t).mpr ht, hname⟩

section Daily

variable (hw : w.pattern = dailyPattern)

include hw

/-! ### Opening a file -/

theorem createParent_of_wrote (h : DayFiles w fs₀ dir fs deeds) (hwrote : WroteAt deeds t) (t' : Instant) :
    fs.createParent (w.pathOf (w.labelAt t')) = (.ok (), fs) := by
  rw [createParent_congr fs ((parent?_daily hw t').trans (parent?_daily hw t).symm)]
  exact createParent_existing (h.place t hwrote).2

theorem createParent (h : DayFiles w fs₀ dir fs deeds) (hbase : w.base.HasDirectory) (t : Instant) :
    DayFiles w fs₀ dir (fs.createParent (w.pathOf (w.labelAt t))).2 deeds := by
  by_cases hwritten : ∃ t', WroteAt deeds t'
  · obtain ⟨t', hwrote⟩ := hwritten
    rw [createParent_of_wrote hw h hwrote]
    exact h
  · have hnone : ∀ t', ¬ WroteAt deeds t' := fun t' hwrote => hwritten ⟨t', hwrote⟩
    obtain ⟨hs₁, hgrows⟩ := createParent_grows h.sound (w.pathOf (w.labelAt t))
    refine ⟨hs₁, hgrows.cwd.trans h.cwd, fun t' hwrote => absurd hwrote (hnone t'),
      fun t' hnewest => absurd hnewest.wrote (hnone t'), fun t' hwrote => absurd hwrote (hnone t'),
      fun name node hnode hfile => h.others name node (hgrows.added _ _ hnode hfile) hfile,
      fun loc hloc => ?_⟩
    rcases createParent_depth h.sound (parent?_daily hw t) hloc with hold | ⟨_, hdepth⟩
    · exact h.made loc hold
    · right
      obtain ⟨habsolute, hsteps⟩ := Path.trimmed_spec w.base.labelledParent
      rwa [originOf, hsteps, habsolute, h.cwd, ← hbase.directory_eq] at hdepth

/-! ### Writing to a file -/

theorem content_of_last (h : DayFiles w fs₀ dir fs deeds)
    (hlast : ∀ t', WroteAt deeds t' → w.dayOf t' ≤ w.dayOf t) :
    (fs.contentAt? (w.nameAt t :: dir)).getD [] = bytesUnder w (w.labelAt t) deeds ∧
      ∀ node, fs.node? (Path.packedName (w.nameAt t) :: dir) = some node → node = .directory := by
  by_cases hwritten : ∃ t', WroteAt deeds t' ∧ w.labelAt t' = w.labelAt t
  · obtain ⟨t', hwrote, hlabel⟩ := hwritten
    have hday := (labelAt_eq_iff hw).mp hlabel
    obtain ⟨modified, hplain⟩ := h.plain ⟨hwrote, fun t'' hwrote'' => hday ▸ hlast t'' hwrote''⟩
    rw [nameAt_inj.mpr hlabel, hlabel] at hplain
    rw [contentAt?_of_storedAt? hplain.stored]
    exact ⟨rfl, hplain.noFrame⟩
  · have hother : ∀ t', WroteAt deeds t' → w.nameAt t ≠ w.nameAt t' := fun t' hwrote hname =>
      hwritten ⟨t', hwrote, nameAt_inj.mp hname.symm⟩
    constructor
    · have hnone : fs.contentAt? (w.nameAt t :: dir) = none := by
        by_contra hcontent
        obtain ⟨content, hcontent⟩ := Option.ne_none_iff_exists'.mp hcontent
        obtain ⟨id, hid⟩ : ∃ id, fs.node? (w.nameAt t :: dir) = some (.file id) := by
          unfold contentAt? fileAt? at hcontent
          rcases hnode : fs.node? (w.nameAt t :: dir) with _ | (_ | id | _) <;> simp_all
        obtain ⟨t', hwrote, hname | hname⟩ := h.others _ _ hid (by simp)
        · exact hother t' hwrote hname
        · exact packedName_nameAt_ne hw hname.symm
      rw [hnone, bytesUnder_eq_nil fun t' bytes hmem hlabel =>
        hother t' ⟨bytes, hmem⟩ (nameAt_inj.mpr hlabel.symm)]
      rfl
    · intro node hnode
      by_contra hfile
      obtain ⟨t', hwrote, hname | hname⟩ := h.others _ _ hnode hfile
      · exact packedName_nameAt_ne hw hname
      · exact hother t' hwrote (Path.packedName_injective hname)

/-- **Bytes are written** to the file of the day that has come. -/
theorem write {id : Nat} (h : DayFiles w fs₀ dir fs deeds)
    (hlast : ∀ t', WroteAt deeds t' → w.dayOf t' ≤ w.dayOf t)
    (hactive : ActiveFile (w.pathOf (w.labelAt t)) fs' (w.nameAt t) dir id)
    (hagree : AgreeOff (· = w.nameAt t :: dir) fs fs')
    (hcontent : fs'.content id = (fs.contentAt? (w.nameAt t :: dir)).getD [] ++ bytes) :
    DayFiles w fs₀ dir fs' (deeds ++ [.wrote t bytes]) := by
  obtain ⟨hold, hframe⟩ := content_of_last hw h hlast
  rw [hold] at hcontent
  have hpacked : ∀ t', fs'.view (Path.packedName (w.nameAt t') :: dir) =
      fs.view (Path.packedName (w.nameAt t') :: dir) := fun t' =>
    hagree.view _ fun heq => packedName_nameAt_ne hw (List.cons.inj heq).1
  refine ⟨hactive.sound, hagree.dirs.cwd.trans h.cwd, ?_, ?_, ?_, ?_,
    fun loc hloc => h.made loc (hagree.made loc hloc)⟩
  · intro t' hwrote
    rcases wroteAt_concat_wrote.mp hwrote with hwrote | rfl
    · obtain ⟨hshort, hlocate⟩ := h.place t' hwrote
      exact ⟨hshort, hagree.dirs.locate hlocate⟩
    · exact ⟨hactive.short, hactive.locate⟩
  · intro t' hnewest
    have hday : w.dayOf t' ≤ w.dayOf t := by
      rcases wroteAt_concat_wrote.mp hnewest.wrote with hwrote | rfl
      · exact hlast t' hwrote
      · exact Int.le_refl _
    have hlabel := (labelAt_eq_iff hw).mpr
      (Int.le_antisymm hday (hnewest.last t (wroteAt_concat_wrote.mpr (Or.inr rfl))))
    exact ⟨id, by rw [nameAt_inj.mpr hlabel, hactive.node]⟩
  · intro t' hwrote
    rw [bytesUnder_concat_wrote]
    by_cases hlabel : w.labelAt t' = w.labelAt t
    · -- the file of the day that has come stands there as it is
      obtain ⟨stored, hstored⟩ : ∃ stored, fs'.stored? id = some stored :=
        ⟨_, List.getElem?_eq_getElem (hactive.sound.stored _ id hactive.node)⟩
      obtain ⟨hsame, _⟩ := content_modified hstored
      refine ⟨stored.modified, Or.inl ⟨?_, ?_⟩⟩
      · rw [nameAt_inj.mpr hlabel, hlabel, if_pos rfl, ← hcontent, hsame]
        exact storedAt?_eq_some_iff.mpr ⟨id, hactive.node, hstored⟩
      · rw [node?_of_view (hpacked t'), nameAt_inj.mpr hlabel]
        exact hframe
    · have hwrote : WroteAt deeds t' := by
        rcases wroteAt_concat_wrote.mp hwrote with hwrote | rfl
        · exact hwrote
        · exact absurd rfl hlabel
      have hname : fs'.view (w.nameAt t' :: dir) = fs.view (w.nameAt t' :: dir) :=
        hagree.view _ fun heq => hlabel (nameAt_inj.mp (List.cons.inj heq).1)
      obtain ⟨modified, hkept⟩ := h.kept t' hwrote
      rw [if_neg (Ne.symm hlabel), List.append_nil]
      exact ⟨modified, hkept.imp (·.of_view hname (hpacked t')) (·.of_view hname (hpacked t'))⟩
  · intro name node hnode hfile
    by_cases hname : name = w.nameAt t
    · exact ⟨t, wroteAt_concat_wrote.mpr (Or.inr rfl), Or.inl hname⟩
    · have hview := hagree.view (name :: dir) fun heq => hname (List.cons.inj heq).1
      obtain ⟨t', hwrote, hcases⟩ := h.others name node (by rw [← node?_of_view hview, hnode]) hfile
      exact ⟨t', wroteAt_concat_wrote.mpr (Or.inl hwrote), hcases⟩

/-! ### Sweeping the directory -/

/-- **A sweep** that was asked for with the file of the last day open leaves this file as it is, and packs
others at most. -/
theorem sweep (h : DayFiles w fs₀ dir fs deeds) (hbase : w.base.HasDirectory)
    (hage : w.policy.maxAge = 0) (hnewest : Newest w deeds t) (asked : Instant) :
    DayFiles w fs₀ dir ((w.sweepFor (w.pathOf (w.labelAt t)) asked).run fs).2 deeds ∧
      ((w.sweepFor (w.pathOf (w.labelAt t)) asked).run fs).2.view (w.nameAt t :: dir) =
        fs.view (w.nameAt t :: dir) := by
  obtain ⟨request, hrequest⟩ : ∃ request, w.sweepFor (w.pathOf (w.labelAt t)) asked = request := ⟨_, rfl⟩
  obtain ⟨id, hactive⟩ := h.active hnewest
  have hlabels := labels_of_locate (ofString_pattern hw) hactive.locate
  have hentry : ∀ t', (w.nameAt t').IsEntry := fun t' => isEntry_nameAt hw hlabels.2
  obtain ⟨hpath, hdir⟩ :=
    sweepFor_of_hasDirectory hbase hlabels hactive.lookup (w.pathOf (w.labelAt t)) asked
  have htarget : ∀ t', request.NoTarget (w.nameAt t') := fun t' =>
    noTarget_labelledName (ofString_pattern hw) (by rw [← hrequest]; rfl) _
  have hmax : request.maxFiles = none := by rw [← hrequest]; rfl
  replace hage : request.policy.maxAge = 0 := by rw [← hrequest]; exact hage
  replace hdir : fs.lookup request.directory = .ok (dir, .directory) := by rw [← hrequest]; exact hdir
  have hspared : request.active = request.pathOf (w.nameAt t) := by rw [← hrequest, hpath]; rfl
  rw [hrequest]
  have hview : (request.run fs).2.view (w.nameAt t :: dir) = fs.view (w.nameAt t :: dir) := by
    refine SweepRequest.run_view_of_not_covers h.sound hmax hdir (hentry t) (htarget t) ?_
    rintro ⟨⟨_, hother⟩, _⟩
    rw [hspared, Path.sameAs_self] at hother
    cases hother
  have hagree := SweepRequest.run_touches h.sound hage hmax hdir
  refine ⟨⟨hagree.sound, hagree.dirs.cwd.trans h.cwd, ?_, ?_, ?_, ?_,
    fun loc hloc => h.made loc (hagree.made loc hloc)⟩, hview⟩
  · intro t' hwrote
    obtain ⟨hshort, hlocate⟩ := h.place t' hwrote
    exact ⟨hshort, hagree.dirs.locate hlocate⟩
  · intro t' hnewest'
    rw [nameAt_inj.mpr (hnewest'.label_eq hw hnewest), node?_of_view hview]
    exact ⟨id, hactive.node⟩
  · intro t' hwrote
    obtain ⟨modified, hkept⟩ := h.kept t' hwrote
    exact ⟨modified,
      SweepRequest.run_keptAt h.sound hage hmax hdir (hentry t') (htarget t') hkept⟩
  · intro name node hnode hfile
    by_cases htouched : ∃ (other : Name) (id : Nat), fs.node? (other :: dir) = some (.file id) ∧
        (request.pathOf other).isCompressed = false ∧
        (name :: dir = other :: dir ∨ name :: dir = Path.packedName other :: dir)
    · -- the files that may be packed are those of the days
      obtain ⟨other, id', hid', hplain, hname⟩ := htouched
      obtain ⟨t', hwrote, rfl | rfl⟩ := h.others other _ hid' (by simp)
      · exact ⟨t', hwrote, hname.imp (fun heq => (List.cons.inj heq).1) fun heq => (List.cons.inj heq).1⟩
      · rw [SweepRequest.pathOf, Path.isCompressed_packedName (hentry t')] at hplain
        cases hplain
    · exact h.others name node (by rw [← node?_of_view (hagree.view _ htouched), hnode]) hfile

end Daily

end DayFiles

/-! ## Runs whose sweeps keep up -/

namespace TimeRun

/-- The state after all sweeps that were asked for, in their order. -/
def tend (s : TimeRun) : TimeRun :=
  { s with
    writer := { s.writer with pending := [] }
    fs := SweepRequest.runAll s.writer.pending s.fs }

/-- The state after some steps, where the sweeps that a step asks for run before the next one. -/
def tended (s : TimeRun) (actions : List Action) : TimeRun :=
  actions.foldl (fun s action => (s.step action).tend) s

/-- The clock is never set back. -/
def Forward (now : Instant) : List Action → Prop
  | [] => True
  | .tick next _ :: rest => now.seconds ≤ next.seconds ∧ Forward next rest
  | _ :: rest => Forward now rest

variable {s : TimeRun} {action : Action}

theorem step_dirsKept {text : String} (htext : TimePattern.ofString text = .ok s.writer.pattern)
    (hs : s.fs.Sound) (hpending : s.writer.pending = []) (action : Action) :
    (s.step action).tend.writer.pattern = s.writer.pattern ∧ (s.step action).tend.fs.Sound ∧
      DirsKept s.fs (s.step action).fs ∧ DirsKept (s.step action).fs (s.step action).tend.fs := by
  have hstep : (s.step action).writer.pattern = s.writer.pattern ∧ (s.step action).fs.Sound ∧
      DirsKept s.fs (s.step action).fs ∧
      ∀ request ∈ (s.step action).writer.pending, request.maxFiles = none := by
    cases action with
    | tick now stamp =>
      have hagree : AgreeOff (fun _ => False) s.fs { s.fs with now := stamp } := .stamp hs stamp
      exact ⟨rfl, hagree.sound, hagree.dirs, by simp [step, hpending]⟩
    | sync => exact ⟨rfl, hs, DirsKept.refl _, by simp [step, hpending]⟩
    | close => exact ⟨rfl, hs, DirsKept.refl _, by simp [step, close, hpending]⟩
    | write bytes =>
      obtain ⟨hsound, hsame, hmoves⟩ := write_spec htext hs s.now bytes rfl
      refine ⟨hsame.pattern, hsound, write_dirsKept hs, fun request hrequest => ?_⟩
      have hasked : ∀ {p}, request ∉ s.writer.pending → request ∈ s.writer.pending ++ s.writer.sweepsFor p s.now →
          request.maxFiles = none := by
        intro p hold hnew
        have hnew := (List.mem_append.mp hnew).resolve_left hold
        unfold sweepsFor at hnew
        split_ifs at hnew
        · rw [List.mem_singleton.mp hnew]
          rfl
        · cases hnew
      have hnone : request ∉ s.writer.pending := by simp [hpending]
      change request ∈ (s.writer.write s.fs s.now bytes).2.1.pending at hrequest
      cases hmoves with
      | closed _ pending => exact absurd (pending ▸ hrequest) hnone
      | kept _ _ _ pending => exact absurd (pending ▸ hrequest) hnone
      | opened _ _ pending => exact hasked hnone (pending ▸ hrequest)
  obtain ⟨hpattern, hsound, hdirs, hmax⟩ := hstep
  obtain ⟨hsound', hdirs'⟩ := SweepRequest.runAll_dirsKept hsound hmax
  exact ⟨hpattern, hsound', hdirs, hdirs'⟩

theorem tended_dirsKept {text : String} : ∀ (actions : List Action) {s : TimeRun},
    TimePattern.ofString text = .ok s.writer.pattern → s.fs.Sound → s.writer.pending = [] →
      DirsKept s.fs (s.tended actions).fs
  | [], s, _, _, _ => DirsKept.refl s.fs
  | action :: actions, s, htext, hs, hpending => by
    obtain ⟨hpattern, hsound, hdirs, hdirs'⟩ := step_dirsKept htext hs hpending action
    exact (hdirs.trans hdirs').trans
      (tended_dirsKept actions (by rw [hpattern, htext]) hsound rfl)

/-- What every run keeps: what was written on each day is kept, and what is open or asked for belongs to
the last day. -/
structure Daily (w : TimeWriter) (fs₀ : FileSystem) (dir : Location) (s : TimeRun) : Prop where
  settings : SameSettings w s.writer
  coupled : s.writer.Coupled s.fs
  files : DayFiles w fs₀ dir s.fs s.deeds
  past : ∀ t, WroteAt s.deeds t → t.seconds ≤ s.now.seconds
  opened : ∀ bucket, s.writer.current = some bucket →
    ∃ t, Newest w s.deeds t ∧ bucket.label = w.labelAt t
  asked : ∀ request ∈ s.writer.pending, ∃ t asked, Newest w s.deeds t ∧
    request = w.sweepFor (w.pathOf (w.labelAt t)) asked

namespace Daily

theorem start (hs : fs₀.Sound) (hempty : ∀ name, fs₀.node? (name :: dir) = none)
    (hcurrent : w.current = none) (hpending : w.pending = []) (now : Instant) :
    Daily w fs₀ dir (start w fs₀ now) := by
  have hnone : ∀ t, ¬ WroteAt [] t := fun t ⟨_, hmem⟩ => nomatch hmem
  refine ⟨SameSettings.refl w, ?_, ⟨hs, rfl, fun t ht => absurd ht (hnone t),
    fun t ht => absurd ht.wrote (hnone t), fun t ht => absurd ht (hnone t), ?_, fun _ => Or.inl⟩,
    fun t ht => absurd ht (hnone t), ?_, ?_⟩
  · intro bucket hbucket
    cases hcurrent.symm.trans hbucket
  · intro name node hnode
    cases (hempty name).symm.trans hnode
  · intro bucket hbucket
    cases hcurrent.symm.trans hbucket
  · intro request hrequest
    change request ∈ w.pending at hrequest
    rw [hpending] at hrequest
    cases hrequest

theorem quiet (h : Daily w fs₀ dir s) (hpending : s.writer.pending = [])
    (hquiet : ∀ bytes, action ≠ .write bytes)
    (hforward : ∀ next stamp, action = .tick next stamp → s.now.seconds ≤ next.seconds) :
    Daily w fs₀ dir (s.step action) := by
  cases action with
  | tick next stamp =>
    have hagree : AgreeOff (fun _ => False) s.fs { s.fs with now := stamp } :=
      .stamp h.files.sound stamp
    refine ⟨h.settings, ?_, h.files.of_stamp stamp, fun t hwrote => ?_, h.opened, h.asked⟩
    · exact h.coupled.of_view hagree.sound hagree.dirs fun _ loc _ _ => hagree.view loc not_false
    · exact Int.le_trans (h.past t hwrote) (hforward next stamp rfl)
  | write bytes => exact absurd rfl (hquiet bytes)
  | sync => exact h
  | close =>
    have hwrote : ∀ t, WroteAt (s.deeds ++ [.closed]) t ↔ WroteAt s.deeds t := fun t =>
      wroteAt_concat_closed
    refine ⟨h.settings.trans ⟨rfl, rfl, rfl, rfl⟩, (fun _ hb => nomatch hb), ?_,
      fun t ht => h.past t ((hwrote t).mp ht), (fun _ hb => nomatch hb), fun request hr => ?_⟩
    · exact h.files.of_closed
    · change request ∈ s.writer.pending at hr
      rw [hpending] at hr
      cases hr

variable (hw : w.pattern = dailyPattern) (hbase : w.base.HasDirectory)

include hw

theorem label_eq_of_open (h : Daily w fs₀ dir s) {bucket : OpenBucket}
    (hbucket : s.writer.current = some bucket) (hnewest : Newest w s.deeds t) :
    bucket.path = w.pathOf (w.labelAt t) := by
  obtain ⟨t', hnewest', hlabel⟩ := h.opened bucket hbucket
  obtain ⟨hpath, _⟩ := h.coupled bucket hbucket
  rw [hpath, hlabel, h.settings.pathOf, hnewest'.label_eq hw hnewest]

include hbase

theorem sweep (h : Daily w fs₀ dir s) (hage : w.policy.maxAge = 0) (hnewest : Newest w s.deeds t)
    (asked : Instant) : Daily w fs₀ dir
      { s with fs := ((w.sweepFor (w.pathOf (w.labelAt t)) asked).run s.fs).2 } := by
  obtain ⟨hfiles, hview⟩ := h.files.sweep hw hbase hage hnewest asked
  refine ⟨h.settings, ?_, hfiles, h.past, h.opened, h.asked⟩
  refine h.coupled.of_view hfiles.sound (SweepRequest.run_dirsKept h.files.sound rfl) ?_
  intro bucket loc hbucket hlocate
  rw [h.label_eq_of_open hw hbucket hnewest, (h.files.place t hnewest.wrote).2] at hlocate
  obtain rfl : w.nameAt t :: dir = loc := by simpa using hlocate
  exact hview

/-- **The sweeps that were asked for** run. -/
theorem tend (hage : w.policy.maxAge = 0) (h : Daily w fs₀ dir s) : Daily w fs₀ dir s.tend := by
  have hrun : ∀ (requests : List SweepRequest) {s : TimeRun}, Daily w fs₀ dir s →
      (∀ request ∈ requests, ∃ t asked, Newest w s.deeds t ∧
        request = w.sweepFor (w.pathOf (w.labelAt t)) asked) →
      Daily w fs₀ dir { s with fs := SweepRequest.runAll requests s.fs } := by
    intro requests
    induction requests with
    | nil => exact fun h _ => h
    | cons request requests ih =>
      intro s h hasked
      obtain ⟨t, asked, hnewest, rfl⟩ := hasked request List.mem_cons_self
      exact ih (h.sweep hw hbase hage hnewest asked) fun request hr =>
        hasked request (List.mem_cons_of_mem _ hr)
  obtain ⟨hsettings, hcoupled, hfiles, hpast, hopened, _⟩ := hrun s.writer.pending h h.asked
  exact ⟨hsettings.trans ⟨rfl, rfl, rfl, rfl⟩, hcoupled, hfiles, hpast, hopened,
    fun _ hr => nomatch hr⟩

theorem eq_of_locate {loc : Location} (hdirs : DirsKept fs fs')
    (hdir : ∀ loc, fs'.reach w.base.directory = .ok loc → loc = dir)
    (hlocate : fs.locate (w.pathOf (w.labelAt t)) = .ok (.entry loc false)) :
    loc = w.nameAt t :: dir := by
  have hpart : (w.nameAt t).IsPart :=
    Path.isPart_labelledName (by decide) (TimePattern.label_no_slash (ofString_pattern hw) _)
  rw [pathOf_eq] at hlocate
  obtain ⟨_, dir', hloc, hreach⟩ := isEntry_of_locate_join hpart hlocate
  rw [← hbase.directory_eq] at hreach
  rw [hloc, ← hdir dir' (hdirs.reach hreach)]

theorem write_of_not_writable (h : Daily w fs₀ dir s) (bytes : Bytes)
    (hdir : ∀ loc, (s.step (.write bytes)).fs.reach w.base.directory = .ok loc → loc = dir)
    (hclosed : ∀ fs₁ name dir, ¬ s.writer.Writable s.fs s.now fs₁ name dir) :
    Daily w fs₀ dir (s.step (.write bytes)) := by
  have hpath : s.writer.pathOf (s.writer.labelAt s.now) = w.pathOf (w.labelAt s.now) := by
    rw [h.settings.labelAt, h.settings.pathOf]
  have hcreated := h.files.createParent hw hbase s.now
  rw [← hpath] at hcreated
  have hkept : DirsKept (s.fs.createParent (s.writer.pathOf (s.writer.labelAt s.now))).2
      (s.step (.write bytes)).fs := by
    refine write_dirsKept_of ?_
    rw [handleFor_of_not_writable h.coupled hclosed]
    exact rotate_dirsKept h.files.sound _
  obtain ⟨e, hwrite⟩ := write_refused h.files.sound h.coupled hclosed (fun loc hlocate => by
    rw [hpath] at hlocate
    rw [eq_of_locate hw hbase (hpath ▸ hkept) hdir hlocate]
    exact hcreated.node_ne_fullDevice) bytes
  have hstep : s.step (.write bytes) =
      { s with
        writer := { s.writer with current := none }
        fs := (s.fs.createParent (s.writer.pathOf (s.writer.labelAt s.now))).2 } := by
    simp only [step, hwrite]
  have hclosed : ∀ bucket : OpenBucket, none ≠ some bucket := fun _ => (Option.some_ne_none _).symm
  rw [hstep]
  exact ⟨h.settings.trans ⟨rfl, rfl, rfl, rfl⟩, fun bucket hb => absurd hb (hclosed bucket), hcreated,
    h.past, fun bucket hb => absurd hb (hclosed bucket), h.asked⟩

theorem write_of_writable {fs₁ : FileSystem} {name : Name} {dir' : Location} (h : Daily w fs₀ dir s)
    (bytes : Bytes) (hdir : ∀ loc, (s.step (.write bytes)).fs.reach w.base.directory = .ok loc → loc = dir)
    (hpending : s.writer.pending = [])
    (hwritable : s.writer.Writable s.fs s.now fs₁ name dir') :
    Daily w fs₀ dir (s.step (.write bytes)) := by
  have hlast : ∀ t, WroteAt s.deeds t → w.dayOf t ≤ w.dayOf s.now := fun t hwrote =>
    w.dayOf_mono (h.past t hwrote)
  have hparent := hwritable.parent
  rw [h.settings.labelAt, h.settings.pathOf] at hparent
  have hcreated := h.files.createParent hw hbase s.now
  rw [hparent] at hcreated
  obtain ⟨w', fs', id, _, hstep, hplaced, hactive, hagree⟩ :=
    step_write h.settings h.files.sound h.coupled hwritable bytes
  rw [hstep] at hdir ⊢
  obtain ⟨rfl, rfl⟩ := List.cons.inj (eq_of_locate hw hbase (DirsKept.refl fs') hdir hactive.locate)
  have hcontent : fs'.content id = (fs₁.contentAt? (w.nameAt s.now :: dir')).getD [] ++ bytes := by
    have hgrows := (createParent_grows h.files.sound (w.pathOf (w.labelAt s.now))).2
    rw [hparent] at hgrows
    rw [hplaced.content, (hgrows.growsOff (P := fun _ => False) hcreated.sound).contentAt? not_false]
  have hnewest : Newest w (s.deeds ++ [.wrote s.now bytes]) s.now := by
    refine ⟨wroteAt_concat_wrote.mpr (Or.inr rfl), fun t hwrote => ?_⟩
    rcases wroteAt_concat_wrote.mp hwrote with hwrote | rfl
    · exact hlast t hwrote
    · exact Int.le_refl _
  refine ⟨h.settings.trans hplaced.settings, hplaced.coupled,
    hcreated.write hw hlast hactive hagree hcontent, ?_, ?_, ?_⟩
  · intro t hwrote
    rcases wroteAt_concat_wrote.mp hwrote with hwrote | rfl
    · exact h.past t hwrote
    · exact Int.le_refl _
  · intro bucket hbucket
    have hlabel := hplaced.current
    rw [hbucket, h.settings.labelAt] at hlabel
    exact ⟨s.now, hnewest, by simpa using hlabel⟩
  · intro request hrequest
    change request ∈ w'.pending at hrequest
    rw [hplaced.pending, hpending, h.settings.labelAt, h.settings.pathOf] at hrequest
    split_ifs at hrequest
    · cases hrequest
    · refine ⟨s.now, s.now, hnewest, ?_⟩
      rw [List.nil_append, sweepsFor] at hrequest
      split_ifs at hrequest
      · rw [List.mem_singleton.mp hrequest, h.settings.sweepFor]
      · cases hrequest

/-- **A write**, where its directory is the one that was empty. -/
theorem write (h : Daily w fs₀ dir s) (bytes : Bytes)
    (hdir : ∀ loc, (s.step (.write bytes)).fs.reach w.base.directory = .ok loc → loc = dir)
    (hpending : s.writer.pending = []) : Daily w fs₀ dir (s.step (.write bytes)) := by
  by_cases hwritable : ∃ fs₁ name dir', s.writer.Writable s.fs s.now fs₁ name dir'
  · obtain ⟨fs₁, name, dir', hwritable⟩ := hwritable
    exact h.write_of_writable hw hbase bytes hdir hpending hwritable
  · exact h.write_of_not_writable hw hbase bytes hdir fun fs₁ name dir' hno =>
      hwritable ⟨fs₁, name, dir', hno⟩

/-- **Every run** whose clock is never set back. -/
theorem tended (hage : w.policy.maxAge = 0) : ∀ {actions : List Action} {s : TimeRun},
    Daily w fs₀ dir s → s.writer.pending = [] → Forward s.now actions →
      (∀ loc, (s.tended actions).fs.reach w.base.directory = .ok loc → loc = dir) →
        Daily w fs₀ dir (s.tended actions)
  | [], _, h, _, _, _ => h
  | action :: actions, s, h, hpending, hforward, hdir => by
    have htext : TimePattern.ofString "%Y-%m-%d" = .ok s.writer.pattern := by
      rw [h.settings.pattern]
      exact ofString_pattern hw
    obtain ⟨hpattern, hsound, _, hswept⟩ := step_dirsKept htext h.files.sound hpending action
    -- what is reached now is reached in the end
    have hrest : DirsKept (s.step action).fs (s.tended (action :: actions)).fs :=
      hswept.trans (tended_dirsKept actions (by rw [hpattern, htext]) hsound rfl)
    have hstep : Daily w fs₀ dir (s.step action) := by
      cases action with
      | write bytes =>
        exact h.write hw hbase bytes (fun loc hreach => hdir loc (hrest.reach hreach)) hpending
      | tick next stamp =>
        exact h.quiet hpending (by simp) fun _ _ heq => by
          obtain ⟨rfl, -⟩ := SizeRun.Action.tick.inj heq
          exact hforward.1
      | sync => exact h.quiet hpending (by simp) (by simp)
      | close => exact h.quiet hpending (by simp) (by simp)
    change Daily w fs₀ dir ((s.step action).tend.tended actions)
    refine Daily.tended hage (hstep.tend hw hbase hage) rfl ?_ hdir
    cases action with
    | write bytes => exact hforward
    | tick next stamp => exact hforward.2
    | sync => exact hforward
    | close => exact hforward

end Daily

end TimeRun

end LogRouter
