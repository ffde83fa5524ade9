import LogRouter.Proofs.Files.Opening
import LogRouter.Proofs.Writer.SizeRun
import LogRouter.Proofs.Writer.Upkeep

/-!
# Runs of a time writer

* `TimeWriter.Placed`: the bytes of a write stand at the end of the file of its label, which is open
  afterwards. Every write to a file that is open or can be opened (`TimeWriter.Writable`) does that
  (`write_placed`).
* `TimeRun`: a time writer and its files, with what was done so far.
* `bytesUnder`, `openLabel?`, `switches`: the bytes written under a label, the label of the open file
  and the number of changes of the label, as what was done says it.
* `TimeRun.Filed`: what every run keeps (`Filed.step`, `Filed.run`).
* **`files_hold_what_was_written`**: the file of every label holds what was written under it.
-/

namespace LogRouter

open FileSystem

namespace TimeWriter

variable {w w' : TimeWriter} {fs fs' fs₁ : FileSystem} {now : Instant} {bytes : Bytes} {name : Name}
  {dir : Location} {id : Nat}

/-! ## Writes to files that can be opened -/

theorem SameSettings.labelAt (h : SameSettings w w') (t : Instant) : w'.labelAt t = w.labelAt t := by
  unfold TimeWriter.labelAt
  rw [h.pattern, h.zone]

theorem SameSettings.pathOf (h : SameSettings w w') (label : Name) : w'.pathOf label = w.pathOf label := by
  unfold TimeWriter.pathOf
  rw [h.base]

theorem parent?_pathOf {text : String} (htext : TimePattern.ofString text = .ok w.pattern) {t : Instant}
    (hcurrent : w.base.labelledName '.' (w.labelAt t) ≠ ['.']) :
    (w.pathOf (w.labelAt t)).parent? = some w.base.labelledParent.trimmed := by
  rw [pathOf_eq]
  exact Path.parent?_join
    (Path.isPart_labelledName (by decide) (TimePattern.label_no_slash htext _)) hcurrent

/-- A file stands where the open file of the writer belongs, and writes go to its end. -/
def Coupled (w : TimeWriter) (fs : FileSystem) : Prop :=
  ∀ bucket, w.current = some bucket → bucket.path = w.pathOf bucket.label ∧
    ∃ name dir id, ActiveFile bucket.path fs name dir id ∧ bucket.handle.IsAtEnd fs id

theorem Coupled.of_view (h : w.Coupled fs) (hs : fs'.Sound) (hdirs : DirsKept fs fs')
    (hview : ∀ bucket loc, w.current = some bucket → fs.locate bucket.path = .ok (.entry loc false) →
      fs'.view loc = fs.view loc) : w.Coupled fs' := by
  intro bucket hbucket
  obtain ⟨hpath, name, dir, id, hactive, hend⟩ := h bucket hbucket
  have hsame := hview bucket _ hbucket hactive.locate
  have hcontent : fs'.content id = fs.content id := by
    simp only [content, stored?_of_view hsame hactive.node]
  exact ⟨hpath, name, dir, id, hactive.of_view hs hdirs hsame, by rwa [Handle.IsAtEnd, hcontent]⟩

/-- The writer has the file of another label open. -/
def leaves (w : TimeWriter) (label : Name) : Bool := w.current.any fun bucket => bucket.label ≠ label

/-- What a write does if it succeeds: its bytes go to the end of the file of its label, which is open
afterwards. -/
structure Placed (w : TimeWriter) (fs : FileSystem) (now : Instant) (bytes : Bytes) (w' : TimeWriter)
    (fs' : FileSystem) (name : Name) (dir : Location) (id : Nat) : Prop where
  settings : SameSettings w w'
  current : w'.current.map (·.label) = some (w.labelAt now)
  coupled : w'.Coupled fs'
  active : ActiveFile (w.pathOf (w.labelAt now)) fs' name dir id
  agree : AgreeOff (· = name :: dir) (fs.createParent (w.pathOf (w.labelAt now))).2 fs'
  content : fs'.content id = (fs.contentAt? (name :: dir)).getD [] ++ bytes
  rotations : w'.rotations = w.rotations + if w.leaves (w.labelAt now) then 1 else 0
  pending : w'.pending = if w.current.map (·.label) = some (w.labelAt now) then w.pending
    else w.pending ++ w.sweepsFor (w.pathOf (w.labelAt now)) now

/-- The file of the instant's label has a place once its directory was created, and it is open or can be
opened. -/
structure Writable (w : TimeWriter) (fs : FileSystem) (now : Instant) (fs₁ : FileSystem) (name : Name)
    (dir : Location) : Prop where
  parent : fs.createParent (w.pathOf (w.labelAt now)) = (.ok (), fs₁)
  locate : fs₁.locate (w.pathOf (w.labelAt now)) = .ok (.entry (name :: dir) false)
  ready : w.current.map (·.label) = some (w.labelAt now) ∨
    fs.OpensNowAt (w.pathOf (w.labelAt now)) fs₁ name dir

theorem writable_of_opensNowAt (h : fs.OpensNowAt (w.pathOf (w.labelAt now)) fs₁ name dir) :
    w.Writable fs now fs₁ name dir := ⟨h.parent, h.locate, Or.inr h⟩

/-- A handle of the file of the instant's label was handed out, and nothing was written yet. -/
def Hands (w : TimeWriter) (fs : FileSystem) (now : Instant) (name : Name) (dir : Location)
    (outcome : Except IoError Handle × TimeWriter × FileSystem) : Prop :=
  ∃ handle w' fs' id, outcome = (.ok handle, w', fs') ∧ handle.IsAtEnd fs' id ∧
    w'.current = some ⟨w.labelAt now, w.pathOf (w.labelAt now), handle⟩ ∧
    Placed w fs now [] w' fs' name dir id

theorem rotate_hands (hs : fs.Sound)
    (hopens : fs.OpensNowAt (w.pathOf (w.labelAt now)) fs₁ name dir)
    (hother : w.current.map (·.label) ≠ some (w.labelAt now)) :
    w.Hands fs now name dir (w.rotate fs now (w.labelAt now)) := by
  obtain ⟨id, fs₂, hopen, hactive, hagree, hcontent⟩ := hopens.openToAppend hs
  have hrotate : w.rotate fs now (w.labelAt now) = (.ok (.appending id),
      { w with
        current := some ⟨w.labelAt now, w.pathOf (w.labelAt now), .appending id⟩
        rotations := if w.current.isSome then w.rotations + 1 else w.rotations
        pending := w.pending ++ w.sweepsFor (w.pathOf (w.labelAt now)) now }, fs₂) := by
    simp only [rotate, hopens.parent, hopen]
  refine ⟨_, _, fs₂, id, hrotate, Or.inl rfl, rfl, ⟨rfl, rfl, rfl, rfl⟩, rfl, ?_, hactive, ?_, ?_, ?_,
    (if_neg hother).symm⟩
  · rintro bucket ⟨⟩
    exact ⟨rfl, name, dir, id, hactive, Or.inl rfl⟩
  · rw [hopens.parent]
    exact hagree
  · rw [hcontent, List.append_nil]
  · cases hcurrent : w.current with
    | none => simp [leaves, hcurrent]
    | some bucket => simp_all [leaves]

theorem handleFor_hands (hs : fs.Sound) (hcoupled : w.Coupled fs)
    (hwritable : w.Writable fs now fs₁ name dir) :
    w.Hands fs now name dir (w.handleFor fs now (w.labelAt now)) := by
  have hrotate : w.current.map (·.label) ≠ some (w.labelAt now) →
      w.Hands fs now name dir (w.rotate fs now (w.labelAt now)) := fun hother =>
    rotate_hands hs (hwritable.ready.resolve_left hother) hother
  unfold handleFor
  cases hcurrent : w.current with
  | none => exact hrotate (by simp [hcurrent])
  | some bucket =>
    simp only
    split_ifs with hlabel
    swap
    · exact hrotate (by simpa [hcurrent] using hlabel)
    obtain ⟨hpath, name', dir', id, hactive, hend⟩ := hcoupled bucket hcurrent
    rw [hlabel] at hpath
    rw [hpath] at hactive
    have hparent := createParent_existing hactive.locate
    obtain ⟨-, rfl⟩ := Prod.mk.inj (hwritable.parent.symm.trans hparent)
    have hsame : name' :: dir' = name :: dir := by
      simpa using hactive.locate.symm.trans hwritable.locate
    obtain ⟨rfl, rfl⟩ := List.cons.inj hsame
    have hbucket : bucket = ⟨w.labelAt now, w.pathOf (w.labelAt now), bucket.handle⟩ := by
      rw [← hpath, ← hlabel]
    refine ⟨bucket.handle, w, fs₁, id, rfl, hend, hcurrent.trans (congrArg some hbucket),
      SameSettings.refl w, ?_, hcoupled, hactive, ?_, ?_, ?_, ?_⟩
    · rw [hcurrent, Option.map_some, hlabel]
    · rw [hparent]
      exact AgreeOff.refl hs
    · rw [hactive.contentAt?, Option.getD_some, List.append_nil]
    · simp [leaves, hcurrent, hlabel]
    · simp [hcurrent, hlabel]

/-- **A write to a file that is open or can be opened** puts its bytes there. -/
theorem write_placed (hs : fs.Sound) (hcoupled : w.Coupled fs)
    (hwritable : w.Writable fs now fs₁ name dir) (bytes : Bytes) :
    ∃ w' fs' id, w.write fs now bytes = (.ok bytes.length, w', fs') ∧
      Placed w fs now bytes w' fs' name dir id := by
  obtain ⟨handle, w₁, fs₂, id, hfor, hend, hcurrent, hplaced⟩ :=
    handleFor_hands hs hcoupled hwritable
  obtain ⟨handle', fs', hput, hend', hcontent, hnode, hagree⟩ :=
    Handle.write_at_end hplaced.active.sound hplaced.active.node hend bytes
  have hactive := hplaced.active.of_dirsKept hagree.sound hagree.dirs hnode
  have hopen : (w₁.withHandle handle').current =
      some ⟨w.labelAt now, w.pathOf (w.labelAt now), handle'⟩ := by
    rw [withHandle, hcurrent]
    rfl
  refine ⟨w₁.withHandle handle', fs', id, by simp only [write, hfor, hput], ?_, ?_, ?_, hactive,
    hplaced.agree.trans hagree, ?_, hplaced.rotations, hplaced.pending⟩
  · exact hplaced.settings.trans ⟨rfl, rfl, rfl, rfl⟩
  · rw [hopen]
    rfl
  · rintro bucket hbucket
    obtain rfl := Option.some.inj (hopen.symm.trans hbucket)
    exact ⟨(hplaced.settings.pathOf _).symm, name, dir, id, hactive, hend'⟩
  · rw [hcontent, hplaced.content, List.append_nil]

/-! ## What was written -/

/-- Something that a writer did. -/
inductive Deed where
  /-- Bytes were written at an instant. -/
  | wrote (time : Instant) (bytes : Bytes)
  | closed
  deriving DecidableEq, Repr

/-- The bytes that were written under a label. -/
def bytesUnder (w : TimeWriter) (label : Name) (deeds : List Deed) : Bytes :=
  deeds.flatMap fun
    | .wrote time bytes => if w.labelAt time = label then bytes else []
    | .closed => []

/-- The label of the last write, if nothing was closed after it. -/
def openLabel? (w : TimeWriter) (deeds : List Deed) : Option Name :=
  match deeds.getLast? with
  | some (.wrote time _) => some (w.labelAt time)
  | _ => none

/-- The number of writes under another label than that of the write right before. -/
def switches (w : TimeWriter) (deeds : List Deed) : Nat :=
  (deeds.zip deeds.tail).countP fun
    | (.wrote time _, .wrote time' _) => w.labelAt time ≠ w.labelAt time'
    | _ => false

@[simp] theorem bytesUnder_concat_wrote (w : TimeWriter) (label : Name) (deeds : List Deed)
    (time : Instant) (bytes : Bytes) : bytesUnder w label (deeds ++ [.wrote time bytes]) =
      bytesUnder w label deeds ++ if w.labelAt time = label then bytes else [] := by
  simp [bytesUnder]

@[simp] theorem bytesUnder_concat_closed (w : TimeWriter) (label : Name) (deeds : List Deed) :
    bytesUnder w label (deeds ++ [.closed]) = bytesUnder w label deeds := by
  simp [bytesUnder]

theorem bytesUnder_eq_nil {label : Name} {deeds : List Deed}
    (h : ∀ time bytes, .wrote time bytes ∈ deeds → w.labelAt time ≠ label) :
    bytesUnder w label deeds = [] := by
  refine List.flatMap_eq_nil_iff.mpr fun deed hdeed => ?_
  cases deed with
  | wrote time bytes => exact if_neg (h time bytes hdeed)
  | closed => rfl

theorem zip_tail_concat {α : Type} (a b : α) : ∀ l : List α,
    (l ++ [a, b]).zip (l ++ [a, b]).tail = (l ++ [a]).zip (l ++ [a]).tail ++ [(a, b)]
  | [] => rfl
  | [_] => rfl
  | c :: d :: l => congrArg ((c, d) :: ·) (zip_tail_concat a b (d :: l))

theorem switches_concat_wrote (w : TimeWriter) (deeds : List Deed) (time : Instant) (bytes : Bytes) :
    switches w (deeds ++ [.wrote time bytes]) = switches w deeds +
      if (openLabel? w deeds).any (· ≠ w.labelAt time) then 1 else 0 := by
  rcases List.eq_nil_or_concat' deeds with rfl | ⟨front, last, rfl⟩
  · rfl
  · rw [List.append_assoc, switches, List.singleton_append, zip_tail_concat, List.countP_append]
    cases last <;> simp [switches, openLabel?]

theorem switches_concat_closed (w : TimeWriter) (deeds : List Deed) :
    switches w (deeds ++ [.closed]) = switches w deeds := by
  rcases List.eq_nil_or_concat' deeds with rfl | ⟨front, last, rfl⟩
  · rfl
  · rw [List.append_assoc, switches, List.singleton_append, zip_tail_concat, List.countP_append]
    cases last <;> simp [switches]

end TimeWriter

open TimeWriter

/-! ## Runs -/

/-- A time writer and its files, with what was done so far. -/
structure TimeRun where
  writer : TimeWriter
  fs : FileSystem
  now : Instant
  /-- The writes that succeeded, and the times that the writer was closed, in their order. -/
  deeds : List Deed

namespace TimeRun

/-- A step of the clocks or of the writer, as for a size writer. -/
abbrev Action : Type := SizeRun.Action

/-- The state after a step. -/
def step (s : TimeRun) : Action → TimeRun
  | .tick now stamp => { s with now := now, fs := { s.fs with now := stamp } }
  | .write bytes =>
    let (result, writer, fs) := s.writer.write s.fs s.now bytes
    { s with
      writer := writer
      fs := fs
      deeds := match result with
        | .ok _ => s.deeds ++ [.wrote s.now bytes]
        | .error _ => s.deeds }
  | .sync => s
  | .close => { s with writer := s.writer.close.2, deeds := s.deeds ++ [.closed] }

/-- The state after some steps. -/
def run (s : TimeRun) (actions : List Action) : TimeRun := actions.foldl step s

/-- A writer that has not done anything. -/
def start (w : TimeWriter) (fs : FileSystem) (now : Instant) : TimeRun := ⟨w, fs, now, []⟩

variable {w : TimeWriter} {fs₀ : FileSystem} {s : TimeRun}

/-- The file of the label of an instant holds what it held at the start and what was written under the
label. -/
def Holds (w : TimeWriter) (fs₀ : FileSystem) (s : TimeRun) (t : Instant) : Prop :=
  ∃ name dir id, ActiveFile (w.pathOf (w.labelAt t)) s.fs name dir id ∧
    s.fs.content id =
      (fs₀.contentAt? (name :: dir)).getD [] ++ bytesUnder w (w.labelAt t) s.deeds

/-- What every run keeps, where the files can be opened: the writer and the files are what was done says. -/
structure Filed (w : TimeWriter) (fs₀ : FileSystem) (s : TimeRun) : Prop where
  settings : SameSettings w s.writer
  coupled : s.writer.Coupled s.fs
  label : s.writer.current.map (·.label) = openLabel? w s.deeds
  rotations : s.writer.rotations = .ofNat (switches w s.deeds)
  policy : w.policy.isActive = false
  pending : s.writer.pending = []
  holds : ∀ t bytes, .wrote t bytes ∈ s.deeds → Holds w fs₀ s t
  grows : GrowsOff (fun loc => ∃ t bytes, .wrote t bytes ∈ s.deeds ∧
    s.fs.locate (w.pathOf (w.labelAt t)) = .ok (.entry loc false)) fs₀ s.fs

/-- A write returns the number of its bytes and puts them at the end of the file of its label, which is
all that changes. -/
def Lands (s : TimeRun) (bytes : Bytes) : Prop :=
  (s.writer.write s.fs s.now bytes).1 = .ok bytes.length ∧
    ∃ loc, (s.step (.write bytes)).fs.locate (s.writer.pathOf (s.writer.labelAt s.now)) =
        .ok (.entry loc false) ∧
      (s.step (.write bytes)).fs.contentAt? loc = some ((s.fs.contentAt? loc).getD [] ++ bytes) ∧
      GrowsOff (· = loc) s.fs (s.step (.write bytes)).fs

section Steps

variable {text : String} {name : Name} {dir : Location} {id : Nat} {fs : FileSystem} {t : Instant}

theorem label_eq_of_place (htext : TimePattern.ofString text = .ok w.pattern) {t' : Instant}
    {fs' : FileSystem} {loc : Location} {slash slash' : Bool}
    (h : fs.locate (w.pathOf (w.labelAt t)) = .ok (.entry loc slash))
    (h' : fs'.locate (w.pathOf (w.labelAt t')) = .ok (.entry loc slash')) :
    w.labelAt t = w.labelAt t' := by
  have hpart : ∀ t, (w.base.labelledName '.' (w.labelAt t)).IsPart := fun t =>
    Path.isPart_labelledName (by decide) (TimePattern.label_no_slash htext _)
  rw [pathOf_eq] at h h'
  obtain ⟨_, dir, hloc, _⟩ := isEntry_of_locate_join (hpart t) h
  obtain ⟨_, dir', hloc', _⟩ := isEntry_of_locate_join (hpart t') h'
  simpa [Path.labelledName] using (List.cons.inj (hloc.symm.trans hloc')).1

theorem Filed.content_at (h : Filed w fs₀ s) (htext : TimePattern.ofString text = .ok w.pattern)
    (hdirs : DirsKept s.fs fs) {loc : Location} {slash : Bool}
    (hlocate : fs.locate (w.pathOf (w.labelAt t)) = .ok (.entry loc slash)) :
    (s.fs.contentAt? loc).getD [] =
      (fs₀.contentAt? loc).getD [] ++ bytesUnder w (w.labelAt t) s.deeds := by
  by_cases hwritten : ∃ t' bytes, .wrote t' bytes ∈ s.deeds ∧ w.labelAt t' = w.labelAt t
  · obtain ⟨t', bytes, hmem, hlabel⟩ := hwritten
    obtain ⟨name, dir, id, hfile, hcontent⟩ := h.holds t' bytes hmem
    rw [hlabel] at hfile hcontent
    have hplace : name :: dir = loc ∧ false = slash := by
      simpa using (hdirs.locate hfile.locate).symm.trans hlocate
    rw [← hplace.1, hfile.contentAt?, Option.getD_some, hcontent]
  · -- a place that no other label has is as it was at the start
    have hother : ¬ ∃ t' bytes, .wrote t' bytes ∈ s.deeds ∧
        s.fs.locate (w.pathOf (w.labelAt t')) = .ok (.entry loc false) := by
      rintro ⟨t', bytes, hmem, hlocate'⟩
      exact hwritten ⟨t', bytes, hmem, label_eq_of_place htext hlocate' hlocate⟩
    rw [h.grows.contentAt? hother, bytesUnder_eq_nil, List.append_nil]
    exact fun t' bytes hmem hlabel => hwritten ⟨t', bytes, hmem, hlabel⟩

theorem Filed.bytesUnder_eq_nil (h : Filed w fs₀ s)
    (hplace : ∀ loc, s.fs.locate (w.pathOf (w.labelAt t)) ≠ .ok (.entry loc false)) :
    bytesUnder w (w.labelAt t) s.deeds = [] := by
  refine TimeWriter.bytesUnder_eq_nil fun t' bytes hmem hlabel => ?_
  obtain ⟨name, dir, id, hfile, _⟩ := h.holds t' bytes hmem
  exact hplace _ (hlabel ▸ hfile.locate)

theorem writable_of_opensAt {fs₁ : FileSystem} (hsettings : SameSettings w s.writer)
    (hopens : s.fs.OpensAt (w.pathOf (w.labelAt s.now)) fs₁ name dir) :
    s.writer.Writable s.fs s.now fs₁ name dir := by
  refine writable_of_opensNowAt ?_
  rw [hsettings.labelAt, hsettings.pathOf]
  exact hopens.now

theorem step_write {fs₁ : FileSystem} (hsettings : SameSettings w s.writer) (hs : s.fs.Sound)
    (hcoupled : s.writer.Coupled s.fs)
    (hwritable : s.writer.Writable s.fs s.now fs₁ name dir) (bytes : Bytes) :
    ∃ w' fs' id, s.writer.write s.fs s.now bytes = (.ok bytes.length, w', fs') ∧
      s.step (.write bytes) =
        { s with writer := w', fs := fs', deeds := s.deeds ++ [.wrote s.now bytes] } ∧
      Placed s.writer s.fs s.now bytes w' fs' name dir id ∧
      ActiveFile (w.pathOf (w.labelAt s.now)) fs' name dir id ∧ AgreeOff (· = name :: dir) fs₁ fs' := by
  have hpath : s.writer.pathOf (s.writer.labelAt s.now) = w.pathOf (w.labelAt s.now) := by
    rw [hsettings.labelAt, hsettings.pathOf]
  obtain ⟨w', fs', id, hwrite, hplaced⟩ :=
    write_placed (w := s.writer) hs hcoupled hwritable bytes
  have hagree := hplaced.agree
  rw [hwritable.parent] at hagree
  exact ⟨w', fs', id, hwrite, by simp only [step, hwrite], hplaced, hpath ▸ hplaced.active, hagree⟩

/-- **A write to a file that can be opened** lands there, and the files stay what was done says. -/
theorem Filed.write (h : Filed w fs₀ s) (htext : TimePattern.ofString text = .ok w.pattern)
    (hopens : s.fs.Opens (w.pathOf (w.labelAt s.now))) (bytes : Bytes) :
    Filed w fs₀ (s.step (.write bytes)) ∧ Lands s bytes := by
  obtain ⟨fs₁, name, dir, hopens⟩ := hopens
  obtain ⟨w', fs', id, hwrite, hstep, hplaced, hactive, hagree⟩ :=
    step_write h.settings h.grows.sound h.coupled (writable_of_opensAt h.settings hopens) bytes
  have hlabelAt := h.settings.labelAt
  have hgrows : GrowsOff (· = name :: dir) s.fs fs' := by
    obtain ⟨hs₁, hcreated⟩ := createParent_grows h.grows.sound (w.pathOf (w.labelAt s.now))
    rw [hopens.parent] at hs₁ hcreated
    exact (hcreated.growsOff hs₁).trans hagree.growsOff
  refine ⟨?_, by rw [hwrite], name :: dir, ?_, ?_, ?_⟩
  · rw [hstep]
    refine ⟨h.settings.trans hplaced.settings, hplaced.coupled, ?_, ?_, h.policy, ?_, ?_, ?_⟩
    · simp [hplaced.current, openLabel?, hlabelAt]
    · have hleaves : s.writer.leaves (w.labelAt s.now) =
          (openLabel? w s.deeds).any (· ≠ w.labelAt s.now) := by
        rw [← h.label, Option.any_map]
        rfl
      rw [hplaced.rotations, h.rotations, switches_concat_wrote, hlabelAt, hleaves, UInt64.ofNat_add]
      split_ifs <;> rfl
    · have hnone : ∀ p t, s.writer.sweepsFor p t = [] := fun p t => by
        rw [sweepsFor, h.settings.policy, h.policy]
        rfl
      simp [hplaced.pending, h.pending, hnone]
    · intro t bytes' hmem
      by_cases hlabel : w.labelAt t = w.labelAt s.now
      · refine ⟨name, dir, id, hlabel ▸ hactive, ?_⟩
        rw [hplaced.content, h.content_at htext hgrows.dirs hactive.locate, bytesUnder_concat_wrote,
          hlabel, if_pos rfl, List.append_assoc]
      · -- the file of another label stands elsewhere
        have hold : .wrote t bytes' ∈ s.deeds := by
          rcases List.mem_append.mp hmem with hold | hnew
          · exact hold
          · obtain ⟨rfl, -⟩ : t = s.now ∧ bytes' = bytes := by simpa using hnew
            exact absurd rfl hlabel
        obtain ⟨name', dir', id', hfile, hcontent⟩ := h.holds t bytes' hold
        have hplace : name' :: dir' ≠ name :: dir := fun heq =>
          hlabel (label_eq_of_place htext hfile.locate (heq ▸ hactive.locate))
        have hview := hgrows.view (name' :: dir') hplace (by simp [hfile.node])
        refine ⟨name', dir', id', hfile.of_view hgrows.sound hgrows.dirs hview, ?_⟩
        rw [bytesUnder_concat_wrote, if_neg (Ne.symm hlabel), List.append_nil, ← hcontent]
        simp only [content, stored?_of_view hview hfile.node]
    · refine (h.grows.mono ?_).trans (hgrows.mono ?_)
      · rintro loc ⟨t, bytes', hmem, hlocate⟩
        exact ⟨t, bytes', List.mem_append_left _ hmem, hgrows.dirs.locate hlocate⟩
      · rintro loc rfl
        exact ⟨s.now, bytes, by simp, hactive.locate⟩
  · rw [hstep]
    exact hplaced.active.locate
  · rw [hstep, ← hplaced.content]
    exact hactive.contentAt?
  · rw [hstep]
    exact hgrows

theorem Filed.quiet (h : Filed w fs₀ s) {action : Action} (haction : ∀ bytes, action ≠ .write bytes) :
    Filed w fs₀ (s.step action) := by
  cases action with
  | tick now stamp =>
    have hagree : ∀ P, AgreeOff P s.fs { s.fs with now := stamp } := fun P =>
      .stamp h.grows.sound stamp
    refine ⟨h.settings, ?_, h.label, h.rotations, h.policy, h.pending, ?_, ?_⟩
    · exact h.coupled.of_view (hagree fun _ => False).sound (hagree fun _ => False).dirs
        fun _ loc _ _ => (hagree fun _ => False).view loc not_false
    · intro t bytes hmem
      obtain ⟨name, dir, id, hactive, hcontent⟩ := h.holds t bytes hmem
      exact ⟨name, dir, id, hactive.stamp stamp, hcontent⟩
    · refine (h.grows.trans (hagree _).growsOff).mono ?_
      rintro loc ⟨t, bytes, hmem, hlocate⟩
      exact ⟨t, bytes, hmem, (locate_stamp _ _ _).trans hlocate⟩
  | write bytes => exact absurd rfl (haction bytes)
  | sync => exact h
  | close =>
    have hdeeds : ∀ {t bytes}, .wrote t bytes ∈ s.deeds ++ [.closed] ↔ .wrote t bytes ∈ s.deeds := by
      simp
    refine ⟨h.settings.trans ⟨rfl, rfl, rfl, rfl⟩, ?_, ?_, ?_, h.policy, h.pending, ?_, ?_⟩
    · rintro bucket ⟨⟩
    · simp [step, TimeWriter.close, openLabel?]
    · exact h.rotations.trans (congrArg _ (switches_concat_closed w s.deeds).symm)
    · intro t bytes hmem
      obtain ⟨name, dir, id, hactive, hcontent⟩ := h.holds t bytes (hdeeds.mp hmem)
      exact ⟨name, dir, id, hactive, by simpa [TimeRun.step] using hcontent⟩
    · refine h.grows.mono ?_
      rintro loc ⟨t, bytes, hmem, hlocate⟩
      exact ⟨t, bytes, hdeeds.mpr hmem, hlocate⟩

theorem Filed.opens_step (h : Filed w fs₀ s) (htext : TimePattern.ofString text = .ok w.pattern)
    {action : Action} (hnow : ∀ bytes, action = .write bytes → s.fs.Opens (w.pathOf (w.labelAt s.now)))
    (hopens : s.fs.Opens (w.pathOf (w.labelAt t))) :
    (s.step action).fs.Opens (w.pathOf (w.labelAt t)) := by
  cases action with
  | tick now stamp =>
    obtain ⟨fs₁, name, dir, hopens⟩ := hopens
    exact ⟨_, name, dir, hopens.stamp stamp⟩
  | sync => exact hopens
  | close => exact hopens
  | write bytes =>
    obtain ⟨fs₁, name, dir, hfirst⟩ := hnow bytes rfl
    obtain ⟨fs₂, name', dir', hother⟩ := hopens
    -- both files have the same parent
    have hentry : ∀ {fs name dir} (t : Instant), s.fs.OpensAt (w.pathOf (w.labelAt t)) fs name dir →
        (w.pathOf (w.labelAt t)).parent? = some w.base.labelledParent.trimmed := fun t hat =>
      parent?_pathOf htext (labels_of_locate htext hat.locate).2.ne_current
    have hparent := hother.parent
    rw [createParent_congr s.fs ((hentry t hother).trans (hentry s.now hfirst).symm), hfirst.parent]
      at hparent
    obtain ⟨-, rfl⟩ := Prod.mk.inj hparent
    obtain ⟨w', fs', id, _, hstep, _, hactive, hagree⟩ :=
      step_write h.settings h.grows.sound h.coupled (writable_of_opensAt h.settings hfirst) bytes
    rw [hstep]
    exact ⟨fs', name', dir', hother.beside hagree hactive.node⟩

/-- **Every step** of a writer whose files can be opened. -/
theorem Filed.step (h : Filed w fs₀ s) (htext : TimePattern.ofString text = .ok w.pattern)
    {action : Action} (hnow : ∀ bytes, action = .write bytes → s.fs.Opens (w.pathOf (w.labelAt s.now))) :
    Filed w fs₀ (s.step action) := by
  cases action with
  | write bytes => exact (h.write htext (hnow bytes rfl) bytes).1
  | tick now stamp => exact h.quiet (by simp)
  | sync => exact h.quiet (by simp)
  | close => exact h.quiet (by simp)

/-- **Every run** of a writer whose files can be opened. -/
theorem Filed.run (htext : TimePattern.ofString text = .ok w.pattern) :
    ∀ {actions : List Action} {s : TimeRun}, Filed w fs₀ s →
      (∀ t ∈ SizeRun.writeTimes s.now actions, s.fs.Opens (w.pathOf (w.labelAt t))) →
      ∀ done rest, actions = done ++ rest → Filed w fs₀ (s.run done) ∧
        ∀ bytes more, rest = .write bytes :: more → Lands (s.run done) bytes
  | actions, s, h, hopens, [], rest, hsplit => by
    refine ⟨h, ?_⟩
    rintro bytes more rfl
    rw [List.nil_append] at hsplit
    subst hsplit
    exact (h.write htext (hopens s.now List.mem_cons_self) bytes).2
  | actions, s, h, hopens, action :: done, rest, hsplit => by
    subst hsplit
    have hnow : ∀ bytes, action = .write bytes → s.fs.Opens (w.pathOf (w.labelAt s.now)) := by
      rintro bytes rfl
      exact hopens s.now List.mem_cons_self
    -- the invariant says nothing of files to come, so that these are carried through the run as well
    have hlater : ∀ t ∈ SizeRun.writeTimes (s.step action).now (done ++ rest),
        t ∈ SizeRun.writeTimes s.now (action :: done ++ rest) := by
      intro t ht
      cases action with
      | write bytes => exact List.mem_cons_of_mem _ ht
      | tick now stamp => exact ht
      | sync => exact ht
      | close => exact ht
    exact Filed.run htext (h.step htext hnow)
      (fun t ht => h.opens_step htext hnow (hopens t (hlater t ht))) done rest rfl

end Steps

theorem filed_start {zone : Zone} {base : Path} {text : String}
    (hw : TimeWriter.create zone base text 0 false = .ok w) {fs : FileSystem} (hs : fs.Sound)
    (now : Instant) : TimePattern.ofString text = .ok w.pattern ∧ Filed w fs (start w fs now) := by
  unfold TimeWriter.create at hw
  split_ifs at hw
  split at hw
  · cases hw
  · rename_i pattern hpattern
    rw [Except.ok.injEq] at hw
    subst hw
    exact ⟨hpattern, SameSettings.refl _, (fun _ hb => nomatch hb), rfl, rfl, rfl, rfl,
      (fun _ _ hmem => nomatch hmem), GrowsOff.refl hs⟩

/-- **The files of a writer without retention**, wherever they can be opened and however the clock is set:
every write returns the number of its bytes and lands whole in one file. At every point of the run the file
of every label holds what it held at the start and then what was written under the label, and no other file
has changed. The open file is that of the last write, until it is closed, and every write under another label
than that of the write right before is a rotation. -/
theorem files_hold_what_was_written {zone : Zone} {base : Path} {text : String}
    (hw : TimeWriter.create zone base text 0 false = .ok w) {fs : FileSystem} (hs : fs.Sound)
    {now : Instant} {actions done rest : List Action}
    (hopens : ∀ t ∈ SizeRun.writeTimes now actions, fs.Opens (w.pathOf (w.labelAt t)))
    (hsplit : actions = done ++ rest) (hrun : (start w fs now).run done = s) :
    (∀ bytes more, rest = .write bytes :: more → Lands s bytes) ∧
      (∀ t, SizeRun.heldAt s.fs s.fs (w.pathOf (w.labelAt t)) =
        SizeRun.heldAt fs s.fs (w.pathOf (w.labelAt t)) ++ bytesUnder w (w.labelAt t) s.deeds) ∧
      GrowsOff (fun loc => ∃ t bytes, .wrote t bytes ∈ s.deeds ∧
        s.fs.locate (w.pathOf (w.labelAt t)) = .ok (.entry loc false)) fs s.fs ∧
      s.writer.current.map (·.label) = openLabel? w s.deeds ∧
      s.writer.current.map (·.path) = (openLabel? w s.deeds).map w.pathOf ∧
      s.writer.rotations = .ofNat (switches w s.deeds) ∧ s.writer.pending = [] := by
  obtain ⟨htext, hstart⟩ := filed_start hw hs now
  obtain ⟨h, hlands⟩ := hstart.run htext hopens done rest hsplit
  rw [hrun] at h hlands
  refine ⟨hlands, fun t => ?_, h.grows, h.label, ?_, h.rotations, h.pending⟩
  · unfold SizeRun.heldAt
    split
    · rename_i loc slash hlocate
      exact h.content_at htext (DirsKept.refl s.fs) hlocate
    · rename_i hplace
      exact (h.bytesUnder_eq_nil fun loc => hplace loc false).symm
  · rw [← h.label]
    cases hcurrent : s.writer.current with
    | none => rfl
    | some bucket =>
      obtain ⟨hpath, _⟩ := h.coupled bucket hcurrent
      simp [hpath, h.settings.pathOf]

/-- The clock goes on to the next day and back again: both writes of the first day are in one file. -/
theorem files_hold_what_was_written_on_two_days :
    ∃ w actions s, TimeWriter.create .utc (.ofString "logs/app.log") "%Y-%m-%d" 0 false = .ok w ∧
      actions = [.write [97], .tick ⟨1735916645, 0⟩ 0, .write [98], .tick ⟨1735830245, 0⟩ 0,
        .write [99]] ∧
      (start w FileSystem.empty ⟨1735830245, 0⟩).run actions = s ∧
      SizeRun.heldAt s.fs s.fs (.ofString "logs/app.2025-01-02.log") = [97, 99] ∧
      s.writer.rotations = 2 := by
  obtain ⟨w, hw⟩ : ∃ w : TimeWriter,
    w = ⟨.ofString "logs/app.log", dailyPattern, ⟨0, 86400, false⟩, .utc, none, 0, []⟩ := ⟨_, rfl⟩
  obtain ⟨actions, hactions⟩ : ∃ actions : List Action, actions = [.write [97],
    .tick ⟨1735916645, 0⟩ 0, .write [98], .tick ⟨1735830245, 0⟩ 0, .write [99]] := ⟨_, rfl⟩
  obtain ⟨s, hs⟩ : ∃ s, (start w FileSystem.empty ⟨1735830245, 0⟩).run actions = s := ⟨_, rfl⟩
  have hcreate : TimeWriter.create .utc (.ofString "logs/app.log") "%Y-%m-%d" 0 false = .ok w := by
    rw [hw]; decide +kernel
  have hopens : ∀ t ∈ SizeRun.writeTimes ⟨1735830245, 0⟩ actions,
      FileSystem.empty.Opens (w.pathOf (w.labelAt t)) := by
    intro t ht
    have hrefusal := (createParent_grows Sound.empty (w.pathOf (w.labelAt t))).2.refusal
    refine ⟨(FileSystem.empty.createParent (w.pathOf (w.labelAt t))).2,
      w.base.labelledName '.' (w.labelAt t), ["logs".toList], Prod.ext ?_ rfl, ?_, ?_, Or.inl ?_,
      fun access => congrFun₂ hrefusal access _⟩ <;>
      (clear hrefusal; revert t; rw [hw, hactions]; decide +kernel)
  obtain ⟨_, hheld, _, _, _, hrotations, _⟩ := files_hold_what_was_written hcreate Sound.empty hopens
    (List.append_nil actions).symm hs
  have hpath : w.pathOf (w.labelAt ⟨1735830245, 0⟩) = .ofString "logs/app.2025-01-02.log" := by
    rw [hw]; decide +kernel
  have hfirst := hheld ⟨1735830245, 0⟩
  rw [hpath] at hfirst
  refine ⟨w, actions, s, hcreate, hactions, hs, hfirst.trans ?_, hrotations.trans ?_⟩ <;>
    (rw [← hs, hactions, hw]; decide +kernel)

end TimeRun

end LogRouter
