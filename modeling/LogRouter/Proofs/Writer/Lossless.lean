import LogRouter.Proofs.Writer.SizeRun

/-!
# Runs that lose nothing

* `Steady.step`: every step of a size writer that asks for no sweeps overwrites nothing exactly if the
  backups stay fresh.
* `Steady.run`: and so does every run.
* **`keeps_everything_iff`**: a run loses no byte and overwrites no file exactly if all backups have
  paths of their own, which led to no entry at the start.
-/

namespace LogRouter

open FileSystem SizeWriter

namespace FileSystem

theorem view_of_directory {fs : FileSystem} {loc : Location} (h : fs.node? loc = some .directory) :
    fs.view loc = some (.directory, none) := by
  unfold view
  rw [h]
  rfl

end FileSystem

namespace SizeWriter

variable {w : SizeWriter}

theorem write_device (hcurrent : w.current = some .fullDevice) (hsize : w.size = 0) (fs : FileSystem)
    (now : Instant) (bytes : Bytes) :
    ∃ result w', w.write fs now bytes = (result, w', fs) ∧ SameSettings w w' ∧
      w'.rotations = w.rotations ∧ w'.pending = w.pending ∧
      (w'.current = some .fullDevice ∧ w'.size = 0) ∧ ∀ n, result = .ok n → bytes = [] := by
  by_cases hlong : w.maxSize < bytes.length
  · have hwrite : w.write fs now bytes = (.error (.writeTooLong bytes.length w.maxSize), w, fs) :=
      if_pos hlong
    exact ⟨_, w, hwrite, ⟨rfl, rfl, rfl, rfl, rfl⟩, rfl, rfl, ⟨hcurrent, hsize⟩, fun n hn => by cases hn⟩
  have hfor : w.handleFor fs now bytes.length = (.ok .fullDevice, w, fs) := by
    have hroom : ¬ w.maxSize < w.size + bytes.length := by omega
    simp only [handleFor, SizeWriter.handle, hcurrent, if_neg hroom]
  cases bytes with
  | nil =>
    refine ⟨.ok 0, { w with current := some .fullDevice, size := w.size + 0 }, ?_,
      ⟨rfl, rfl, rfl, rfl, rfl⟩, rfl, rfl, ⟨rfl, hsize⟩, fun _ _ => rfl⟩
    simp only [write, if_neg hlong, hfor]
    rfl
  | cons b rest =>
    refine ⟨.error .storageFull, { w with size := 0 }, ?_, ⟨rfl, rfl, rfl, rfl, rfl⟩, rfl, rfl,
      ⟨hcurrent, rfl⟩, fun n hn => by cases hn⟩
    simp only [write, if_neg hlong, hfor]
    rfl

end SizeWriter

namespace SizeRun

variable {w₀ : SizeWriter} {fs₀ : FileSystem} {s s' : SizeRun} {name : Name} {dir : Location}
  {id : Nat}

/-! ## Steps -/

theorem Idle.proceeds (h : Idle fs₀ s) (hplain' : Plain w₀ s'.writer)
    (hgrows : GrowsOff (fun _ => False) s.fs s'.fs) (haccepted : s'.accepted = [])
    (hbackups : s'.backups = [])
    (hcurrent : s'.writer.current = none ∨
      s'.writer.current = some .fullDevice ∧ s'.writer.size = 0) : Proceeds w₀ fs₀ s s' := by
  refine ⟨⟨hplain', Or.inl ⟨haccepted, hbackups, h.grows.trans hgrows, hcurrent⟩⟩, hgrows.dirs, ?_⟩
  exact iff_of_true (fresh_of_nil hbackups)
    ⟨fresh_of_nil h.backups, fun loc hfound _ => hgrows.view loc not_false hfound⟩

theorem Proceeds.of_opened {s₁ : SizeRun} (hplain : Plain w₀ s.writer) (hplain₁ : Plain w₀ s₁.writer)
    (hbusy : Busy w₀ fs₀ s₁ name dir id) (hgrows : GrowsOff (· = name :: dir) s.fs s₁.fs)
    (hfresh : Fresh fs₀ s₁ ↔ Fresh fs₀ s) (h : Proceeds w₀ fs₀ s₁ s') : Proceeds w₀ fs₀ s s' := by
  refine ⟨h.steady, hgrows.dirs.trans h.dirs, ?_⟩
  rw [h.fresh, hfresh]
  refine and_congr_right fun _ => ?_
  have hlocate := h.dirs.locate hbusy.active.locate
  have hne : ∀ loc, s'.fs.locate w₀.path ≠ .ok (.entry loc false) → loc ≠ name :: dir := by
    rintro loc hloc rfl
    exact hloc hlocate
  unfold Spares
  rw [hplain.path, hplain₁.path]
  constructor
  · intro hspares loc hfound hloc
    have hview := hgrows.view loc (hne loc hloc) hfound
    rw [hspares loc (by rwa [node?_of_view hview]) hloc, hview]
  · intro hspares loc hfound hloc
    obtain ⟨node, hnode⟩ := Option.ne_none_iff_exists'.mp hfound
    by_cases hdir : node = .directory
    · rw [hdir] at hnode
      rw [view_of_directory hnode, view_of_directory (h.dirs.kept loc hnode)]
    · have hbefore : s.fs.node? loc ≠ none := by
        rw [hgrows.added loc node (hne loc hloc) hnode hdir]
        exact Option.some_ne_none _
      rw [hspares loc hbefore hloc, hgrows.view loc (hne loc hloc) hbefore]

/-- **A write to an open file.** -/
theorem Busy.write (h : Busy w₀ fs₀ s name dir id) (htally : Fresh fs₀ s → Tally fs₀ s (name :: dir))
    (hplain : Plain w₀ s.writer) {handle : Handle} (hcurrent : s.writer.current = some handle)
    (bytes : Bytes) : Proceeds w₀ fs₀ s (s.step (.write bytes)) := by
  have heffect := write_effect (w := s.writer) (hplain.path ▸ h.active) hcurrent
    (h.handle handle hcurrent) s.now bytes
  unfold step
  simp only
  generalize s.writer.write s.fs s.now bytes = outcome at heffect
  -- a refused write leaves the files, and at most closes the active one
  have hrefused : ∀ {w' : SizeWriter}, (w' = s.writer ∨ w' = s.writer.closed) →
      Proceeds w₀ fs₀ s { s with
        writer := w'
        backups := if s.setsAside s.fs then s.backups ++ [s.writer.backupPath s.now]
          else s.backups } := by
    intro w' hw'
    rw [setsAside_self]
    rcases hw' with rfl | rfl
    · exact h.quiet htally hplain hplain [] (AgreeOff.refl h.sound) h.node h.handle rfl
        (List.append_nil _).symm (List.append_nil _).symm
    · refine h.quiet htally hplain (hplain.of_settings ⟨rfl, rfl, rfl, rfl, rfl⟩ rfl) []
        (AgreeOff.refl h.sound) h.node ?_ rfl (List.append_nil _).symm (List.append_nil _).symm
      rintro handle' ⟨⟩
  cases heffect with
  | tooLong long => exact hrefused (Or.inl rfl)
  | refused short full blocked => exact hrefused (Or.inr rfl)
  | @stranded e fs' short full refusal locate fits moved =>
    rw [hplain.backupPath, hplain.backupName] at locate
    rw [hplain.backupName] at fits moved
    have haside := setAside_of_moved moved h.node
    have hnone : fs'.node? (name :: dir) = none := by
      rw [moved.node, if_neg fun heq => h.backupName_ne s.now (List.cons.inj heq).1.symm, if_pos rfl]
    rw [h.setsAside_eq_true hplain locate fits haside, if_pos rfl, hplain.backupPath]
    have hspread : Spread w₀ fs₀ { s with
        writer := s.writer.closed, fs := fs', backups := s.backups ++ [w₀.backupPath s.now] } name dir :=
      h.spread_setAside locate haside rfl
    refine h.proceeds_setAside locate haside rfl htally hplain
      (hplain.of_settings ⟨rfl, rfl, rfl, rfl, rfl⟩ rfl) (List.append_nil _).symm ?_
      (Or.inr ⟨hspread, h.short, hnone, ⟨e, moved.refusal ▸ refusal⟩, rfl⟩)
    simp [contentAt?, fileAt?, hnone]
  | appended room settings rotations pending size current atEnd content node agree =>
    rw [h.setsAside_eq_false hplain agree.growsOff]
    refine h.quiet htally hplain (hplain.of_settings settings pending) bytes agree node ?_ rfl rfl content
    intro handle' hhandle'
    obtain rfl := Option.some.inj (current.symm.trans hhandle')
    exact atEnd
  | @rotated new w' fs' handle short full settings rotations pending size current atEnd locate fits files =>
    rw [hplain.sweepsFor, List.append_nil] at pending
    rw [hplain.backupPath, hplain.backupName] at locate
    rw [hplain.backupName] at fits files
    rw [h.setsAside_eq_true hplain locate fits files.toSetAside, if_pos rfl, hplain.backupPath]
    have hspread : Spread w₀ fs₀ { s with
        writer := w', fs := fs', accepted := s.accepted ++ bytes
        backups := s.backups ++ [w₀.backupPath s.now] } name dir :=
      h.spread_setAside locate files.toSetAside rfl
    refine h.proceeds_setAside locate files.toSetAside rfl htally hplain
      (hplain.of_settings settings pending) rfl ?_ (Or.inl ⟨new, hspread, h.short, files.active, ?_⟩)
    · simp [contentAt?, fileAt?, files.active, files.fresh]
    · intro handle' hhandle'
      obtain rfl := Option.some.inj (current.symm.trans hhandle')
      exact atEnd

theorem step_write_of_open {w₁ : SizeWriter} {fs₁ : FileSystem} {handle : Handle} {bytes : Bytes}
    (hlong : ¬ s.writer.maxSize < bytes.length) (hcurrent : s.writer.current = none)
    (hopen : s.writer.openActive s.fs = (.ok handle, w₁, fs₁)) (hcurrent₁ : w₁.current = some handle)
    (hmax : w₁.maxSize = s.writer.maxSize) (hsame : SameSettings s.writer w₁)
    (hfiles : ∀ loc id, (w₁.write fs₁ s.now bytes).2.2.lookup (w₁.backupPath s.now) =
      .ok (loc, .file id) → (fs₁.node? loc = some (.file id) ↔ s.fs.node? loc = some (.file id))) :
    s.step (.write bytes) = { s with writer := w₁, fs := fs₁ }.step (.write bytes) := by
  have hwrite : s.writer.write s.fs s.now bytes = w₁.write fs₁ s.now bytes :=
    write_of_openActive hlong hcurrent hopen hcurrent₁ hmax
  have hpath := hsame.backupPath s.now
  have hseen : s.setsAside (w₁.write fs₁ s.now bytes).2.2 =
      { s with writer := w₁, fs := fs₁ }.setsAside (w₁.write fs₁ s.now bytes).2.2 := by
    rw [← Bool.not_inj_iff, Bool.eq_iff_iff, Bool.not_eq_true', Bool.not_eq_true',
      setsAside_eq_false_iff, setsAside_eq_false_iff, ← hpath]
    exact forall₂_congr fun loc id => imp_congr_right fun hlookup => (hfiles loc id hlookup).symm
  unfold step
  simp only [hwrite, hseen, hpath]

theorem step_write_of_long {bytes : Bytes} (hlong : s.writer.maxSize < bytes.length) :
    s.step (.write bytes) = s := by
  have hwrite : s.writer.write s.fs s.now bytes =
      (.error (.writeTooLong bytes.length s.writer.maxSize), s.writer, s.fs) := if_pos hlong
  unfold step
  simp only [hwrite, setsAside_self, Bool.false_eq_true, if_false]

theorem Proceeds.refl (h : Steady w₀ fs₀ s) : Proceeds w₀ fs₀ s s :=
  ⟨h, DirsKept.refl s.fs, (and_iff_left fun _ _ _ => rfl).symm⟩

theorem step_write_of_device (hplain : Plain w₀ s.writer)
    (hcurrent : s.writer.current = some .fullDevice) (hsize : s.writer.size = 0) (bytes : Bytes) :
    Plain w₀ (s.step (.write bytes)).writer ∧ (s.step (.write bytes)).fs = s.fs ∧
      (s.step (.write bytes)).accepted = s.accepted ∧ (s.step (.write bytes)).backups = s.backups ∧
      ((s.step (.write bytes)).writer.current = some .fullDevice ∧
        (s.step (.write bytes)).writer.size = 0) := by
  obtain ⟨result, w', hwrite, hsame, -, hpending, hdevice, hempty⟩ :=
    write_device hcurrent hsize s.fs s.now bytes
  unfold step
  simp only [hwrite, setsAside_self, Bool.false_eq_true, if_false]
  refine ⟨hplain.of_settings hsame hpending, trivial, ?_, trivial, hdevice⟩
  cases result with
  | ok n => rw [hempty n rfl, List.append_nil]
  | error e => rfl

theorem Idle.opened (h : Idle fs₀ s) (hplain : Plain w₀ s.writer) {fs₁ : FileSystem} {w₁ : SizeWriter}
    (hactive : ActiveFile s.writer.path fs₁ name dir id) (hgrows : GrowsOff (· = name :: dir) s.fs fs₁)
    (hcontent : (fs₁.contentAt? (name :: dir)).getD [] = (s.fs.contentAt? (name :: dir)).getD [])
    (hcurrent : w₁.current = some (.appending id)) :
    Busy w₀ fs₀ { s with writer := w₁, fs := fs₁ } name dir id ∧
      Tally fs₀ { s with writer := w₁, fs := fs₁ } (name :: dir) := by
  constructor
  · refine ⟨⟨hactive.sound, hplain.path ▸ hactive.locate, ?_, ?_⟩, hactive.short, hactive.node, ?_⟩
    · intro q hq
      simp only [h.backups] at hq
      cases hq
    · exact (h.grows.mono fun _ hl => hl.elim).trans (hgrows.mono fun loc hl => Or.inl hl)
    · intro handle hhandle
      obtain rfl := Option.some.inj (hcurrent.symm.trans hhandle)
      exact Or.inl rfl
  · unfold Tally
    simp only [h.backups, h.accepted, List.flatMap_nil, List.nil_append, List.append_nil]
    rw [hcontent, h.grows.contentAt? not_false]

/-- **A write to a writer that has not opened a file.** -/
theorem Idle.write (h : Idle fs₀ s) (hplain : Plain w₀ s.writer) (bytes : Bytes) :
    Proceeds w₀ fs₀ s (s.step (.write bytes)) := by
  rcases h.current with hnone | ⟨hdevice, hsize⟩
  swap
  · obtain ⟨hplain', hfs, haccepted, hbackups, hcurrent⟩ :=
      step_write_of_device hplain hdevice hsize bytes
    refine h.proceeds hplain' ?_ (haccepted.trans h.accepted) (hbackups.trans h.backups)
      (Or.inr hcurrent)
    rw [hfs]
    exact GrowsOff.refl h.grows.sound
  by_cases hlong : s.writer.maxSize < bytes.length
  · rw [step_write_of_long hlong]
    exact Proceeds.refl ⟨hplain, Or.inl h⟩
  rcases openActive_spec s.writer h.grows.sound with ⟨e, fs₁, hopen, hs₁, hgrows⟩ |
    ⟨fs₁, hopen, hs₁, hgrows⟩ | ⟨fs₁, name, dir, id, hopen, hactive, hgrows, hcontent⟩
  · have hwrite : s.writer.write s.fs s.now bytes = (.error e, s.writer, fs₁) := by
      simp only [SizeWriter.write, if_neg hlong, handleFor, SizeWriter.handle, hnone, hopen]
    have hseen : s.setsAside fs₁ = false :=
      setsAside_of_growsOff (hgrows.growsOff hs₁) fun _ _ _ => not_false
    unfold step
    simp only [hwrite, hseen, Bool.false_eq_true, if_false]
    exact h.proceeds hplain (hgrows.growsOff hs₁) h.accepted h.backups (Or.inl hnone)
  · set s₁ : SizeRun := { s with
      writer := { s.writer with current := some .fullDevice, size := 0 }, fs := fs₁ }
    have hplain₁ : Plain w₀ s₁.writer := hplain.of_settings ⟨rfl, rfl, rfl, rfl, rfl⟩ rfl
    have hgrows₁ : GrowsOff (fun _ => False) s.fs fs₁ := hgrows.growsOff hs₁
    rw [step_write_of_open hlong hnone hopen rfl rfl ⟨rfl, rfl, rfl, rfl, rfl⟩
      fun _ _ _ => hgrows₁.file_iff not_false]
    obtain ⟨hplain', hfs, haccepted, hbackups, hcurrent⟩ :=
      step_write_of_device hplain₁ rfl rfl bytes
    refine h.proceeds hplain' ?_ (haccepted.trans h.accepted) (hbackups.trans h.backups)
      (Or.inr hcurrent)
    rw [hfs]
    exact hgrows₁
  · set s₁ : SizeRun := { s with
      writer := { s.writer with current := some (.appending id), size := (fs₁.content id).length }
      fs := fs₁ }
    have hplain₁ : Plain w₀ s₁.writer := hplain.of_settings ⟨rfl, rfl, rfl, rfl, rfl⟩ rfl
    obtain ⟨hbusy, htally⟩ : Busy w₀ fs₀ s₁ name dir id ∧ Tally fs₀ s₁ (name :: dir) :=
      h.opened hplain hactive hgrows hcontent rfl
    have hwritten := hbusy.write (fun _ => htally) hplain₁ rfl bytes
    rw [step_write_of_open hlong hnone hopen rfl rfl ⟨rfl, rfl, rfl, rfl, rfl⟩ fun loc id hlookup => ?_]
    · exact hwritten.of_opened hplain hplain₁ hbusy hgrows
        (iff_of_true (fresh_of_nil h.backups) (fresh_of_nil h.backups))
    · refine hgrows.file_iff fun hloc => ?_
      have hlocate : _ = Except.ok (Place.entry (name :: dir) false) :=
        hplain₁.path ▸ hwritten.dirs.locate hbusy.locate
      exact (backupName_spec hlocate s.now).2.1
        (List.cons.inj ((eq_of_lookup_backupPath hlocate hlookup).symm.trans hloc)).1

/-- **A write to a closed writer** that opened a file before. -/
theorem Busy.write_closed (h : Busy w₀ fs₀ s name dir id)
    (htally : Fresh fs₀ s → Tally fs₀ s (name :: dir)) (hplain : Plain w₀ s.writer)
    (hcurrent : s.writer.current = none) (bytes : Bytes) :
    Proceeds w₀ fs₀ s (s.step (.write bytes)) := by
  by_cases hlong : s.writer.maxSize < bytes.length
  · rw [step_write_of_long hlong]
    exact Proceeds.refl ⟨hplain, Or.inr ⟨name, dir, Or.inl ⟨id, h⟩, htally⟩⟩
  have hactive : ActiveFile s.writer.path s.fs name dir id := hplain.path ▸ h.active
  cases hrefusal : s.fs.refusal? .write (name :: dir) with
  | some e =>
    have hopen := openActive_of_refused hactive hrefusal
    have hwrite : s.writer.write s.fs s.now bytes = (.error e, s.writer, s.fs) := by
      simp only [SizeWriter.write, if_neg hlong, handleFor, SizeWriter.handle, hcurrent, hopen]
    unfold step
    simp only [hwrite, setsAside_self, Bool.false_eq_true, if_false]
    exact Proceeds.refl ⟨hplain, Or.inr ⟨name, dir, Or.inl ⟨id, h⟩, htally⟩⟩
  | none =>
    rw [step_write_of_open hlong hcurrent (openActive_of_active hactive hrefusal) rfl rfl
      ⟨rfl, rfl, rfl, rfl, rfl⟩ fun _ _ _ => Iff.rfl]
    set s₁ : SizeRun := { s with
      writer := { s.writer with current := some (.appending id), size := (s.fs.content id).length } }
    have hplain₁ : Plain w₀ s₁.writer := hplain.of_settings ⟨rfl, rfl, rfl, rfl, rfl⟩ rfl
    have hbusy₁ : Busy w₀ fs₀ s₁ name dir id := by
      refine ⟨⟨h.sound, h.locate, h.backups, h.grows⟩, h.short, h.node, ?_⟩
      rintro handle ⟨⟩
      exact Or.inl rfl
    exact (hbusy₁.write htally hplain₁ rfl bytes).of_opened hplain hplain₁ hbusy₁
      (GrowsOff.refl h.sound) Iff.rfl

theorem Stranded.step_write (h : Stranded w₀ fs₀ s name dir) (hplain : Plain w₀ s.writer)
    (bytes : Bytes) : s.step (.write bytes) = s := by
  by_cases hlong : s.writer.maxSize < bytes.length
  · exact step_write_of_long hlong
  obtain ⟨e, hrefusal⟩ := h.refusal
  have hlocate : s.fs.locate s.writer.path = .ok (.entry (name :: dir) false) :=
    hplain.path ▸ h.locate
  have hopen : s.fs.openToAppend s.writer.path = .error e := by
    unfold openToAppend openForWriting
    rw [hlocate]
    simp only [Bool.false_eq_true, if_false, find_cons_of_fits h.short, h.node, permit, hrefusal]
  have hwrite : s.writer.write s.fs s.now bytes = (.error e, s.writer, s.fs) := by
    simp only [SizeWriter.write, if_neg hlong, handleFor, SizeWriter.handle, h.current, openActive,
      createParent_existing hlocate, hopen]
  unfold step
  simp only [hwrite, setsAside_self, Bool.false_eq_true, if_false]

/-- **Every step** overwrites nothing exactly if the backups stay fresh. -/
theorem Steady.step (h : Steady w₀ fs₀ s) (action : Action) :
    Proceeds w₀ fs₀ s (s.step action) := by
  have hsteady := h
  have hclosed : Plain w₀ s.writer.closed := h.plain.of_settings ⟨rfl, rfl, rfl, rfl, rfl⟩ rfl
  obtain ⟨hplain, hidle | ⟨name, dir, ⟨id, hbusy⟩ | hstranded, htally⟩⟩ := h
  · cases action with
    | tick now stamp =>
      have hagree : AgreeOff (fun _ => False) s.fs { s.fs with now := stamp } :=
        .stamp hidle.grows.sound stamp
      exact hidle.proceeds hplain hagree.growsOff hidle.accepted hidle.backups hidle.current
    | write bytes => exact hidle.write hplain bytes
    | sync => exact Proceeds.refl hsteady
    | close =>
      exact hidle.proceeds hclosed (GrowsOff.refl hidle.grows.sound) hidle.accepted hidle.backups
        (Or.inl rfl)
  · cases action with
    | tick now stamp =>
      have hagree : AgreeOff (· = name :: dir) s.fs { s.fs with now := stamp } :=
        .stamp hbusy.sound stamp
      exact hbusy.quiet htally hplain hplain [] hagree hbusy.node hbusy.handle rfl
        (List.append_nil _).symm (List.append_nil _).symm
    | write bytes =>
      cases hcurrent : s.writer.current with
      | some handle => exact hbusy.write htally hplain hcurrent bytes
      | none => exact hbusy.write_closed htally hplain hcurrent bytes
    | sync => exact Proceeds.refl hsteady
    | close =>
      refine hbusy.quiet htally hplain hclosed [] (AgreeOff.refl hbusy.sound) hbusy.node ?_ rfl
        (List.append_nil _).symm (List.append_nil _).symm
      rintro handle ⟨⟩
  · cases action with
    | tick now stamp =>
      exact hstranded.quiet htally hplain hplain (.stamp hstranded.sound stamp) hstranded.current rfl rfl
    | write bytes =>
      rw [hstranded.step_write hplain]
      exact Proceeds.refl hsteady
    | sync => exact Proceeds.refl hsteady
    | close => exact hstranded.quiet htally hplain hclosed (AgreeOff.refl hstranded.sound) rfl rfl rfl

/-! ## Runs -/

/-- **Every run** overwrites nothing exactly if the backups stay fresh. -/
theorem Steady.run : ∀ (actions : List Action) {s : SizeRun}, Steady w₀ fs₀ s →
    Steady w₀ fs₀ (s.run actions) ∧ (Fresh fs₀ (s.run actions) ↔ Fresh fs₀ s ∧
      ∀ done action rest, actions = done ++ action :: rest →
        Spares (s.run done) (s.run (done ++ [action])))
  | [], s, h => by
    refine ⟨h, (and_iff_left ?_).symm⟩
    intro done action rest hsplit
    simp at hsplit
  | action :: actions, s, h => by
    have hstep := h.step action
    obtain ⟨hsteady, hfresh⟩ := Steady.run actions hstep.steady
    refine ⟨hsteady, ?_⟩
    have hrun : s.run (action :: actions) = (s.step action).run actions := rfl
    rw [hrun, hfresh, hstep.fresh, and_assoc]
    refine and_congr_right fun _ => ⟨?_, ?_⟩
    · rintro ⟨hfirst, hothers⟩ done action' rest hsplit
      rcases List.cons_eq_append_iff.mp hsplit with ⟨rfl, heq⟩ | ⟨done', rfl, heq⟩
      · obtain ⟨rfl, rfl⟩ := List.cons.inj heq
        exact hfirst
      · exact hothers done' action' rest heq
    · intro hall
      refine ⟨hall [] action actions rfl, fun done action' rest hsplit => ?_⟩
      exact hall (action :: done) action' rest (by rw [hsplit]; rfl)

theorem Steady.keeps (h : Steady w₀ fs₀ s) (hfresh : Fresh fs₀ s) : Keeps fs₀ s := by
  obtain ⟨hplain, hidle | ⟨name, dir, hphase, htally⟩⟩ := h
  · refine ⟨[], List.nodup_nil, List.nil_subset _, ?_⟩
    rw [hidle.accepted, List.flatMap_nil, List.nil_append, List.append_nil]
    unfold heldAt
    split
    · rw [hidle.grows.contentAt? not_false]
    · rfl
  · refine ⟨s.backups, hfresh.1, List.Subset.refl _, ?_⟩
    have hlocate := hphase.elim (fun ⟨_, hbusy⟩ => hbusy.locate) fun hstranded => hstranded.locate
    have hsum := htally hfresh
    unfold Tally at hsum
    rw [hplain.path, heldAt_of_locate hlocate, heldAt_of_locate hlocate, hsum]

theorem steady_start {zone : Zone} {path : Path} {maxSize : Nat} {w : SizeWriter}
    (hw : SizeWriter.create zone path maxSize 0 0 false = .ok w) {fs : FileSystem} (hs : fs.Sound)
    (now : Instant) : Steady w fs (start w fs now) := by
  unfold SizeWriter.create at hw
  split_ifs at hw
  rw [Except.ok.injEq] at hw
  subst hw
  exact ⟨⟨rfl, rfl, rfl, rfl, rfl⟩, Or.inl ⟨rfl, rfl, GrowsOff.refl hs, Or.inl rfl⟩⟩

/-- **What a run without limits on its backups keeps**: it asks for no sweeps. It loses no byte that the
active file held at the start or that was accepted, and overwrites no file, exactly if all its backups have
paths of their own, which led to no entry at the start. -/
theorem keeps_everything_iff {zone : Zone} {path : Path} {maxSize : Nat} {w : SizeWriter}
    (hw : SizeWriter.create zone path maxSize 0 0 false = .ok w) {fs : FileSystem} (hs : fs.Sound)
    (now : Instant) (actions : List Action) :
    ((start w fs now).run actions).writer.pending = [] ∧
      (((∀ done rest, actions = done ++ rest → Keeps fs ((start w fs now).run done)) ∧
          ∀ done action rest, actions = done ++ action :: rest →
            Spares ((start w fs now).run done) ((start w fs now).run (done ++ [action]))) ↔
        Fresh fs ((start w fs now).run actions)) := by
  have hstart := steady_start hw hs now
  obtain ⟨hsteady, hfresh⟩ := hstart.run actions
  refine ⟨hsteady.plain.pending, ?_, ?_⟩
  · rintro ⟨_, hspares⟩
    exact hfresh.mpr ⟨fresh_of_nil rfl, hspares⟩
  · intro hend
    refine ⟨fun done rest hsplit => ?_, (hfresh.mp hend).2⟩
    obtain ⟨hmiddle, _⟩ := hstart.run done
    refine hmiddle.keeps ?_
    have hrun : (start w fs now).run actions = ((start w fs now).run done).run rest := by
      unfold SizeRun.run
      rw [hsplit, List.foldl_append]
    rw [hrun] at hend
    exact ((hmiddle.run rest).2.mp hend).1

/-- Three bytes that do not fit together are written at three instants, and all of them are kept. -/
theorem keeps_everything_at_three_instants :
    ∃ w, SizeWriter.create .utc (.ofString "app.log") 1 0 0 false = .ok w ∧
      Keeps FileSystem.empty ((start w FileSystem.empty ⟨1735830245, 0⟩).run [.write [97],
        .tick ⟨1735830246, 0⟩ 0, .write [98], .tick ⟨1735830247, 0⟩ 0, .write [99]]) := by
  have hcreate : SizeWriter.create .utc (.ofString "app.log") 1 0 0 false =
    .ok ⟨.ofString "app.log", 1, 0, ⟨0, 86400, false⟩, .utc, none, 0, 0, []⟩ := rfl
  refine ⟨_, hcreate, ?_⟩
  have hiff := (keeps_everything_iff hcreate Sound.empty ⟨1735830245, 0⟩ [.write [97],
    .tick ⟨1735830246, 0⟩ 0, .write [98], .tick ⟨1735830247, 0⟩ 0, .write [99]]).2
  refine (hiff.mpr ⟨by decide +kernel, fun q _ loc hloc => ?_⟩).1 _ [] (List.append_nil _).symm
  obtain ⟨_, name, dir, _, _, _, rfl, _⟩ := exists_of_locate_entry hloc
  rfl

/-- Three bytes that do not fit together are written at one instant. The second backup takes the place of
the first one, and its byte is gone. -/
theorem loses_byte_at_one_instant :
    ∃ w s, SizeWriter.create .utc (.ofString "app.log") 1 0 0 false = .ok w ∧
      (start w FileSystem.empty ⟨1735830245, 0⟩).run [.write [97], .write [98], .write [99]] = s ∧
      s.accepted = [97, 98, 99] ∧ ¬ Keeps FileSystem.empty s := by
  obtain ⟨s, hs⟩ : ∃ s, (start ⟨.ofString "app.log", 1, 0, ⟨0, 86400, false⟩, .utc, none, 0, 0, []⟩
    FileSystem.empty ⟨1735830245, 0⟩).run [.write [97], .write [98], .write [99]] = s := ⟨_, rfl⟩
  have haccepted : s.accepted = [97, 98, 99] := by rw [← hs]; decide +kernel
  have hbackups : s.backups = [.ofString "app-2025-01-02T15-04-05.000.log",
    .ofString "app-2025-01-02T15-04-05.000.log"] := by rw [← hs]; decide +kernel
  have hbackup : heldAt s.fs s.fs (.ofString "app-2025-01-02T15-04-05.000.log") = [98] := by
    rw [← hs]; decide +kernel
  have hactive : heldAt s.fs s.fs s.writer.path = [99] := by rw [← hs]; decide +kernel
  refine ⟨_, s, rfl, hs, haccepted, ?_⟩
  rintro ⟨files, _, hsub, hsum⟩
  have hmem : (97 : UInt8) ∈ files.flatMap (heldAt s.fs s.fs) ++ heldAt s.fs s.fs s.writer.path := by
    rw [hsum, haccepted]
    simp
  rw [hactive, List.mem_append, List.mem_flatMap] at hmem
  rcases hmem with ⟨q, hq, hheld⟩ | hheld
  · have hname : q = .ofString "app-2025-01-02T15-04-05.000.log" := by
      simpa [hbackups] using hsub hq
    rw [hname, hbackup] at hheld
    exact absurd hheld (by decide)
  · exact absurd hheld (by decide)

end SizeRun

end LogRouter
