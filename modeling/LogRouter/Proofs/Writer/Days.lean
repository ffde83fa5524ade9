import LogRouter.Proofs.Label.Stamps
import LogRouter.Proofs.Retention.Tidy
import LogRouter.Proofs.Writer.TimeRun

/-!
# A file for each day

* `write_dirsKept`: no write loses a directory.
* **`write_refused`**: a write to a file that is not open and cannot be opened creates directories at
  most.
* `TimeWriter.dayOf`, `TimeWriter.nameAt`: the day of an instant and the name of its file. Files of
  different days have different names (`labelAt_eq_iff`), and so have their packed forms
  (`packedName_nameAt_ne`).
* `TimeWriter.Newest`: the last day on which something was written.
-/

namespace LogRouter

open FileSystem

namespace TimeWriter

variable {w : TimeWriter} {fs fs₁ : FileSystem} {now : Instant} {bytes : Bytes}

/-! ## Directories through a write -/

theorem openToAppend_dirsKept (hs : fs.Sound) {p : Path} {handle : Handle}
    (h : fs.openToAppend p = .ok (handle, fs₁)) : DirsKept fs fs₁ := by
  obtain ⟨name, dir, _, _, _, ⟨_, _, _, _, rfl⟩ | ⟨_, _, rfl⟩ | ⟨_, _, _, _, hagree⟩⟩ :=
    openToAppend_spec hs h
  · exact DirsKept.refl fs₁
  · exact DirsKept.refl fs₁
  · exact hagree.dirs

theorem rotate_dirsKept (hs : fs.Sound) (label : Name) :
    DirsKept (fs.createParent (w.pathOf label)).2 (w.rotate fs now label).2.2 := by
  obtain ⟨hs₁, _⟩ := createParent_grows hs (w.pathOf label)
  unfold rotate
  simp only
  split
  · rename_i hcreate
    rw [hcreate]
    exact DirsKept.refl _
  · rename_i hcreate
    rw [hcreate] at hs₁ ⊢
    split
    · exact DirsKept.refl _
    · rename_i hopen
      exact openToAppend_dirsKept hs₁ hopen

theorem handleFor_dirsKept (hs : fs.Sound) (label : Name) :
    DirsKept fs (w.handleFor fs now label).2.2 := by
  have hrotate : DirsKept fs (w.rotate fs now label).2.2 :=
    (createParent_grows hs (w.pathOf label)).2.dirsKept.trans (rotate_dirsKept hs label)
  unfold handleFor
  split
  · split_ifs
    · exact DirsKept.refl fs
    · exact hrotate
  · exact hrotate

theorem write_dirsKept_of (h : DirsKept fs₁ (w.handleFor fs now (w.labelAt now)).2.2) :
    DirsKept fs₁ (w.write fs now bytes).2.2 := by
  unfold write
  split
  · rename_i heq
    rwa [heq] at h
  · rename_i heq
    rw [heq] at h
    split
    · exact h
    · rename_i hput
      exact h.trans (Handle.write_dirsKept hput)

theorem write_dirsKept (hs : fs.Sound) : DirsKept fs (w.write fs now bytes).2.2 :=
  write_dirsKept_of (handleFor_dirsKept hs _)

/-! ## Writes to files that cannot be opened -/

theorem handleFor_of_not_writable (hcoupled : w.Coupled fs)
    (hclosed : ∀ fs₁ name dir, ¬ w.Writable fs now fs₁ name dir) :
    w.handleFor fs now (w.labelAt now) = w.rotate fs now (w.labelAt now) := by
  unfold handleFor
  cases hcurrent : w.current with
  | none => rfl
  | some bucket =>
    refine if_neg fun hlabel => ?_
    obtain ⟨hpath, name, dir, id, hactive, _⟩ := hcoupled bucket hcurrent
    rw [hpath, hlabel] at hactive
    refine hclosed fs name dir ⟨createParent_existing hactive.locate, hactive.locate, Or.inl ?_⟩
    rw [hcurrent, Option.map_some, hlabel]

/-- **A write to a file that is not open and cannot be opened** fails and leaves the writer closed. Nothing
but directories is created. -/
theorem write_refused (hs : fs.Sound) (hcoupled : w.Coupled fs)
    (hclosed : ∀ fs₁ name dir, ¬ w.Writable fs now fs₁ name dir)
    (hdevice : ∀ loc, (fs.createParent (w.pathOf (w.labelAt now))).2.locate (w.pathOf (w.labelAt now)) =
      .ok (.entry loc false) →
      (fs.createParent (w.pathOf (w.labelAt now))).2.node? loc ≠ some .fullDevice) (bytes : Bytes) :
    ∃ e, w.write fs now bytes = (.error e, { w with current := none },
      (fs.createParent (w.pathOf (w.labelAt now))).2) := by
  have hrotate : ∃ e, w.rotate fs now (w.labelAt now) = (.error e, { w with current := none },
      (fs.createParent (w.pathOf (w.labelAt now))).2) := by
    obtain ⟨hs₁, _⟩ := createParent_grows hs (w.pathOf (w.labelAt now))
    unfold rotate
    simp only
    split
    · rename_i e fs₁ hcreate
      exact ⟨e, by rw [hcreate]⟩
    · rename_i fs₁ hcreate
      rw [hcreate] at hs₁ hdevice ⊢
      split
      · rename_i e hopen
        exact ⟨e, rfl⟩
      · rename_i handle fs₂ hopen
        obtain ⟨name, dir, hlocate, _, hshort, hcases⟩ := openToAppend_spec hs₁ hopen
        have hroom : ∀ room, False := fun room =>
          hclosed fs₁ name dir (writable_of_opensNowAt ⟨hcreate, hlocate, hshort, room⟩)
        rcases hcases with ⟨id, _, hid, hallowed, _⟩ | ⟨_, hfull, _⟩ | ⟨_, hnone, hallowed, _⟩
        · exact (hroom (Or.inr ⟨id, hid, hallowed⟩)).elim
        · exact absurd hfull (hdevice _ hlocate)
        · exact (hroom (Or.inl ⟨hnone, hallowed⟩)).elim
  obtain ⟨e, hrotate⟩ := hrotate
  exact ⟨e, by rw [write, handleFor_of_not_writable hcoupled hclosed, hrotate]⟩

/-! ## Days and names -/

variable {t t' : Instant}

/-- The day of an instant where the writer is. -/
def dayOf (w : TimeWriter) (t : Instant) : Int := (t.seconds + w.zone.offset) / 86400

/-- The name of the file of an instant. -/
def nameAt (w : TimeWriter) (t : Instant) : Name := w.base.labelledName '.' (w.labelAt t)

theorem dayOf_mono (w : TimeWriter) (h : t.seconds ≤ t'.seconds) : w.dayOf t ≤ w.dayOf t' := by
  unfold dayOf
  omega

theorem nameAt_inj : w.nameAt t = w.nameAt t' ↔ w.labelAt t = w.labelAt t' := by
  simp [nameAt, Path.labelledName]

section Daily

variable (hw : w.pattern = dailyPattern)

include hw

theorem labelAt_daily (t : Instant) : w.labelAt t = renderDay (.ofEpochDay (w.dayOf t)) := by
  unfold labelAt TimePattern.label
  rw [hw, dailyPattern, renderItems?_day]
  rfl

theorem labelAt_eq_iff : w.labelAt t = w.labelAt t' ↔ w.dayOf t = w.dayOf t' := by
  rw [labelAt_daily hw, labelAt_daily hw]
  exact ⟨renderDay_injective, fun h => by rw [h]⟩

theorem ofString_pattern : TimePattern.ofString "%Y-%m-%d" = .ok w.pattern := hw ▸ ofString_daily

theorem count_labelAt {c : Char} (hc : isOrdinary c = false) (h : (literalText dailyPattern.items).count c = 0)
    (t : Instant) : (w.labelAt t).count c = 0 := by
  have hle := TimePattern.count_label_le hc (ofString_pattern hw) (Moment.ofInstant w.zone t)
  rw [hw, h] at hle
  rw [labelAt, hw]
  exact Nat.le_zero.mp hle

theorem packedName_nameAt_ne : Path.packedName (w.nameAt t) ≠ w.nameAt t' := by
  have hz : ∀ t, (w.labelAt t).count 'z' = 0 := count_labelAt hw rfl rfl
  intro h
  have := congrArg (List.count 'z') h
  have hlz4 : ('.' :: Path.compressedExtension).count 'z' = 1 := rfl
  simp only [Path.packedName, nameAt, Path.labelledName, List.count_append, List.count_cons, hz, hlz4] at this
  omega

theorem length_nameAt (t : Instant) : 2 < (w.nameAt t).length := by
  have hlabel : 2 ≤ (w.labelAt t).length := by
    rw [labelAt_daily hw]
    simp [renderDay, length_renderByte]
  simp only [nameAt, Path.labelledName, List.length_append, List.length_cons]
  omega

theorem parent?_daily (t : Instant) :
    (w.pathOf (w.labelAt t)).parent? = some w.base.labelledParent.trimmed := by
  refine parent?_pathOf (ofString_pattern hw) fun hdot => ?_
  have := length_nameAt hw t
  rw [nameAt, hdot] at this
  exact absurd this (by decide)

theorem isEntry_nameAt (h : (w.nameAt t).IsEntry) : (w.nameAt t').IsEntry := by
  have hnul : '\x00' ∉ w.labelAt t' := List.count_eq_zero.mp (count_labelAt hw rfl rfl t')
  have hpart : (w.nameAt t').IsPart :=
    Path.isPart_labelledName (by decide) (TimePattern.label_no_slash (ofString_pattern hw) _)
  have hnul' : '\x00' ∉ w.nameAt t' := by
    have := h.no_nul
    simp only [nameAt, Path.labelledName, List.mem_append, List.mem_cons, not_or] at this ⊢
    exact ⟨this.1, this.2.1, hnul, this.2.2.2⟩
  have hlong := length_nameAt hw t'
  refine ⟨hpart.ne_nil, ?_, ?_, hpart.no_slash, hnul'⟩
  · intro hdot
    rw [hdot] at hlong
    exact absurd hlong (by decide)
  · intro hdots
    rw [hdots] at hlong
    exact absurd hlong (by decide)

end Daily

/-- Something was written at the instant. -/
def WroteAt (deeds : List Deed) (t : Instant) : Prop := ∃ bytes, .wrote t bytes ∈ deeds

@[simp] theorem wroteAt_concat_wrote {deeds : List Deed} :
    WroteAt (deeds ++ [.wrote t' bytes]) t ↔ WroteAt deeds t ∨ t = t' := by
  simp [WroteAt, exists_or]

@[simp] theorem wroteAt_concat_closed {deeds : List Deed} :
    WroteAt (deeds ++ [.closed]) t ↔ WroteAt deeds t := by
  simp [WroteAt]

/-- Something was written at the instant, and nothing on a later day. -/
structure Newest (w : TimeWriter) (deeds : List Deed) (t : Instant) : Prop where
  wrote : WroteAt deeds t
  last : ∀ t', WroteAt deeds t' → w.dayOf t' ≤ w.dayOf t

theorem Newest.label_eq {deeds : List Deed} (hw : w.pattern = dailyPattern) (h : Newest w deeds t)
    (h' : Newest w deeds t') : w.labelAt t = w.labelAt t' :=
  (labelAt_eq_iff hw).mpr (Int.le_antisymm (h'.last t h.wrote) (h.last t' h'.wrote))

end TimeWriter

end LogRouter
