import LogRouter.Proofs.Files.Opening
import LogRouter.Proofs.Label.Letters
import LogRouter.Proofs.Path.Labelled
import LogRouter.Writer.SizeWriter

/-!
# Rotations by size

* `SizeWriter.backupName`: the name of a backup. It is that of an entry, and longer than the name of
  the active file (`backupName_spec`).
* **`setAside_spec`**: the active file becomes a backup beside it, or nothing happens.
* `SetAside`, `Rotated`: the files after that, without and with a new active file.
* **`rotate_spec`**: a rotation leaves a backup and a new active file, unless either is refused.
* **`write_effect`**: how a write to an open file comes out.
-/

namespace LogRouter

open FileSystem

namespace SizeWriter

variable {w : SizeWriter} {fs : FileSystem} {name : Name} {dir : Location}

/-! ## Names of backups -/

/-- The name of a backup made at an instant. -/
def backupName (w : SizeWriter) (now : Instant) : Name :=
  w.path.labelledName '-' (stamp w.zone now)

theorem backupPath_eq (w : SizeWriter) (now : Instant) :
    w.backupPath now = w.path.labelledParent.join ⟨w.backupName now⟩ :=
  Path.labelled_eq w.path '-' (stamp w.zone now)

theorem not_mem_stamp {c : Char} (hc : isOrdinary c = false)
    (hliteral : (literalText backupItems).count c = 0) (zone : Zone) (now : Instant) :
    c ∉ stamp zone now := by
  unfold stamp
  cases hrender : renderItems? (Moment.ofInstant zone now) backupItems with
  | none => exact List.not_mem_nil
  | some s =>
    have hcount := count_renderItems? hc (by decide) hrender
    rw [hliteral, List.count_eq_zero] at hcount
    exact hcount

theorem backupName_spec (h : fs.locate w.path = .ok (.entry (name :: dir) false)) (now : Instant) :
    (w.backupName now).IsEntry ∧ w.backupName now ≠ name ∧ fs.reach w.path.labelledParent = .ok dir := by
  obtain ⟨hname, hfile, q, hparent, hreach, _⟩ := reach_parent? h
  have hwhole := Path.stem_append_suffix hfile
  have hnul := hname.no_nul
  rw [← hwhole, List.mem_append, not_or] at hnul
  have hpart : (w.backupName now).IsPart := Path.isPart_labelledName (by decide)
    (not_mem_stamp rfl (by decide) _ _)
  have hdash : '-' ∈ w.backupName now := by simp [backupName, Path.labelledName]
  refine ⟨⟨hpart.ne_nil, ?_, ?_, hpart.no_slash, ?_⟩, ?_, ?_⟩
  · intro heq
    rw [heq] at hdash
    exact absurd hdash (by decide)
  · intro heq
    rw [heq] at hdash
    exact absurd hdash (by decide)
  · have hstamp := not_mem_stamp (c := '\x00') rfl (by decide) w.zone now
    simp [backupName, Path.labelledName, hnul, hstamp]
  · intro heq
    have hlength := congrArg List.length (heq.trans hwhole.symm)
    simp only [backupName, Path.labelledName, List.length_append, List.length_cons] at hlength
    omega
  · unfold Path.labelledParent
    rw [hfile, hparent]
    exact hreach

theorem backupPath_congr {t t' : Instant} (h : w.backupName t = w.backupName t') :
    w.backupPath t = w.backupPath t' := by
  rw [backupPath_eq, backupPath_eq, h]

theorem locate_backupPath (h : fs.locate w.path = .ok (.entry (name :: dir) false)) {now : Instant}
    {place : Place} (hq : fs.locate (w.backupPath now) = .ok place) :
    place = .entry (w.backupName now :: dir) false := by
  obtain ⟨hentry, _, hreach⟩ := backupName_spec h now
  rw [backupPath_eq] at hq
  rw [locate_join_of_reach hreach hentry (fits_of_locate hq).1] at hq
  exact (Except.ok.inj hq).symm

theorem locate_backupPath_ne (h : fs.locate w.path = .ok (.entry (name :: dir) false)) (now : Instant) :
    fs.locate (w.backupPath now) ≠ .error .notFound := by
  obtain ⟨hentry, _, hreach⟩ := backupName_spec h now
  rw [backupPath_eq]
  by_cases hfits : Fits (w.path.labelledParent.join ⟨w.backupName now⟩)
  · rw [locate_join_of_reach hreach hentry hfits]
    simp
  · rcases locate_of_not_fits fs hfits (Path.join_ne_nil hentry) with hlocate | hlocate
    · simp [hlocate]
    · simp [hlocate]

theorem eq_of_lookup_backupPath (h : fs.locate w.path = .ok (.entry (name :: dir) false))
    {now : Instant} {loc : Location} {node : Node}
    (hl : fs.lookup (w.backupPath now) = .ok (loc, node)) : loc = w.backupName now :: dir := by
  obtain ⟨hentry, _, hreach⟩ := backupName_spec h now
  rw [backupPath_eq] at hl
  obtain ⟨dir', rfl, hreach', _⟩ := of_lookup_join hentry hl
  rw [Except.ok.inj (hreach'.symm.trans hreach)]

/-! ## The active file -/

theorem openToAppend_of_active {id : Nat} (h : ActiveFile w.path fs name dir id) :
    fs.openToAppend w.path =
      (fs.permit .write (name :: dir) (some id, fs)).map fun _ => (.appending id, fs) := by
  unfold openToAppend openForWriting permit
  rw [h.locate]
  simp only [Bool.false_eq_true, if_false]
  rw [find_cons_of_fits h.short, h.node]
  cases fs.refusal? .write (name :: dir) <;> rfl

theorem openActive_of_active {id : Nat} (h : ActiveFile w.path fs name dir id)
    (hallowed : fs.refusal? .write (name :: dir) = none) :
    w.openActive fs = (.ok (.appending id),
      { w with current := some (.appending id), size := (fs.content id).length }, fs) := by
  have hopen : fs.openToAppend w.path = .ok (.appending id, fs) := by
    rw [openToAppend_of_active h, permit_of_none hallowed]
    rfl
  unfold openActive
  rw [createParent_existing h.locate]
  simp only [hopen, Handle.length]

theorem openActive_of_refused {id : Nat} (h : ActiveFile w.path fs name dir id) {e : IoError}
    (hrefusal : fs.refusal? .write (name :: dir) = some e) : w.openActive fs = (.error e, w, fs) := by
  have hopen : fs.openToAppend w.path = .error e := by
    rw [openToAppend_of_active h, permit, hrefusal]
    rfl
  unfold openActive
  rw [createParent_existing h.locate]
  simp only [hopen]

/-- **Opening the active file** fails, opens a device or a file, which may be new and empty. But for that
it creates directories at most. -/
theorem openActive_spec (w : SizeWriter) (hs : fs.Sound) :
    (∃ e fs', w.openActive fs = (.error e, w, fs') ∧ fs'.Sound ∧ Grows fs fs') ∨
      (∃ fs', w.openActive fs =
          (.ok .fullDevice, { w with current := some .fullDevice, size := 0 }, fs') ∧
        fs'.Sound ∧ Grows fs fs') ∨
      ∃ fs' name dir id, w.openActive fs = (.ok (.appending id),
          { w with current := some (.appending id), size := (fs'.content id).length }, fs') ∧
        ActiveFile w.path fs' name dir id ∧ GrowsOff (· = name :: dir) fs fs' ∧
        (fs'.contentAt? (name :: dir)).getD [] = (fs.contentAt? (name :: dir)).getD [] := by
  obtain ⟨hs₁, hgrows⟩ := createParent_grows hs w.path
  unfold openActive
  split
  · rename_i e fs₁ hcreate
    rw [hcreate] at hs₁ hgrows
    exact Or.inl ⟨e, fs₁, rfl, hs₁, hgrows⟩
  · rename_i fs₁ hcreate
    rw [hcreate] at hs₁ hgrows
    split
    · rename_i e hopen
      exact Or.inl ⟨e, fs₁, rfl, hs₁, hgrows⟩
    · rename_i handle fs₂ hopen
      right
      obtain ⟨name, dir, hlocate, _, hshort, hcases⟩ := openToAppend_spec hs₁ hopen
      rcases hcases with ⟨id, rfl, hnode, _, rfl⟩ | ⟨rfl, _, rfl⟩ | ⟨rfl, hnone, _, rfl, hagree⟩
      · have hkept : fs₂.contentAt? (name :: dir) = fs.contentAt? (name :: dir) :=
          (hgrows.growsOff (P := fun _ => False) hs₁).contentAt? not_false
        exact Or.inr ⟨fs₂, name, dir, id, rfl, ⟨hs₁, hlocate, hshort, hnode⟩, hgrows.growsOff hs₁,
          by rw [hkept]⟩
      · exact Or.inl ⟨fs₂, rfl, hs₁, hgrows⟩
      · have hnew : (fs₁.addFile (name :: dir)).1.node? (name :: dir) =
            some (.file fs₁.stored.length) := (node?_addEntry hnone _ _).trans (if_pos rfl)
        have hbefore : fs.node? (name :: dir) = none := by
          by_contra hn
          obtain ⟨node, hnode⟩ := Option.ne_none_iff_exists'.mp hn
          rw [hgrows.kept _ node hnode] at hnone
          cases hnone
        refine Or.inr ⟨_, name, dir, _, rfl,
          ⟨hagree.sound, hagree.dirs.locate hlocate, hshort, hnew⟩,
          (hgrows.growsOff hs₁).trans hagree.growsOff, ?_⟩
        simp [contentAt?, fileAt?, hnew, hbefore, content_addFile]

/-! ## The active file becomes a backup -/

section Active

variable {id : Nat}

theorem setAside_of_error {now : Instant} {e : IoError}
    (h : fs.rename w.path (w.backupPath now) = .error e) (he : e ≠ .notFound) :
    w.setAside fs now = .error e := by
  unfold setAside
  rw [h]
  cases e <;> first | rfl | exact absurd rfl he

/-- **The active file becomes a backup** where the path of the backup receives it. Elsewhere nothing
happens. -/
theorem setAside_spec (h : ActiveFile w.path fs name dir id) (now : Instant) :
    (¬ fs.Receives (w.backupPath now) ∧ ∃ e, w.setAside fs now = .error e) ∨
      ∃ fs', w.setAside fs now = .ok fs' ∧
        fs.locate (w.backupPath now) = .ok (.entry (w.backupName now :: dir) false) ∧
        byteLength (w.backupName now) ≤ maxNameLength ∧
        Moved fs fs' (name :: dir) (w.backupName now :: dir) id := by
  have hne : name :: dir ≠ w.backupName now :: dir := fun heq =>
    (backupName_spec h.locate now).2.1 (List.cons.inj heq).1.symm
  cases hq : fs.locate (w.backupPath now) with
  | error e =>
    have hrename : fs.rename w.path (w.backupPath now) = .error e := by
      simp only [rename, h.locate, hq]
    refine Or.inl ⟨?_, e, setAside_of_error hrename fun he => ?_⟩
    · rintro ⟨name', dir', hplace, _⟩
      rw [hq] at hplace
      cases hplace
    · rw [he] at hq
      exact locate_backupPath_ne h.locate now hq
  | ok place =>
    obtain rfl := locate_backupPath h.locate hq
    rcases rename_spec h.sound h.locate h.short h.node hq hne with
      ⟨hblocked, e, hrename, he⟩ | ⟨fs', hrename, hshort, hmoved⟩
    · exact Or.inl ⟨hblocked, e, setAside_of_error hrename he⟩
    · refine Or.inr ⟨fs', ?_, rfl, hshort, hmoved⟩
      unfold setAside
      rw [hrename]

/-- The file that was active stands where the backup belongs. Nothing else changed but the active file. -/
structure SetAside (fs fs' : FileSystem) (active target : Location) (id : Nat) : Prop where
  agree : AgreeOff (fun loc => loc = active ∨ loc = target) fs fs'
  replaced : fs.node? target ≠ some .directory
  backup : fs'.node? target = some (.file id)
  stored : fs'.stored? id = fs.stored? id

/-- The file that was active stands where the backup belongs, and a new one is there with the given
content. -/
structure Rotated (fs fs' : FileSystem) (active target : Location) (id new : Nat) (bytes : Bytes) : Prop
    extends SetAside fs fs' active target id where
  active : fs'.node? active = some (.file new)
  fresh : fs'.content new = bytes

theorem SetAside.content {fs' : FileSystem} {active target : Location}
    (h : SetAside fs fs' active target id) : fs'.content id = fs.content id := by
  simp only [FileSystem.content, h.stored]

theorem setAside_of_moved {fs' : FileSystem} {active target : Location}
    (h : Moved fs fs' active target id) (hactive : fs.node? active = some (.file id)) :
    SetAside fs fs' active target id where
  agree := h.agreeOff hactive
  replaced := h.replaced
  backup := by rw [h.node, if_pos rfl]
  stored := by simp only [stored?, h.stored]

section Moved

variable {fs₁ : FileSystem} {target : Location}

theorem openForWriting_of_moved (h : ActiveFile w.path fs name dir id) (hne : name :: dir ≠ target)
    (hmoved : Moved fs fs₁ (name :: dir) target id) :
    fs₁.node? (name :: dir) = none ∧ fs₁.openForWriting w.path =
      fs.permit .create (name :: dir) (some fs.stored.length, (fs₁.addFile (name :: dir)).1) := by
  have hnone : fs₁.node? (name :: dir) = none := by
    rw [hmoved.node, if_neg hne, if_pos rfl]
  refine ⟨hnone, ?_⟩
  unfold openForWriting permit
  rw [(hmoved.agreeOff h.node).dirs.locate h.locate]
  simp only [Bool.false_eq_true, if_false]
  rw [find_cons_of_fits h.short, hnone]
  simp only [addFile, hmoved.stored, hmoved.refusal]

theorem openTruncated_of_moved (h : ActiveFile w.path fs name dir id) (hne : name :: dir ≠ target)
    (hmoved : Moved fs fs₁ (name :: dir) target id)
    (hallowed : fs.refusal? .create (name :: dir) = none) :
    ∃ fs', fs₁.openTruncated w.path = .ok (.writing fs.stored.length 0, fs') ∧
      Rotated fs fs' (name :: dir) target id fs.stored.length [] := by
  have haside := setAside_of_moved hmoved h.node
  obtain ⟨hnone, hopen⟩ := openForWriting_of_moved h hne hmoved
  rw [permit_of_none hallowed] at hopen
  obtain ⟨hentry, hdir⟩ := h.sound.parent name dir (by rw [h.node]; exact Option.some_ne_none _)
  have hadd := addFile_agreeOff hmoved.sound hnone hentry (haside.agree.dirs.kept dir hdir)
  have hnew : (fs₁.addFile (name :: dir)).1.node? (name :: dir) = some (.file fs.stored.length) := by
    rw [← hmoved.stored]
    exact (node?_addEntry hnone _ _).trans (if_pos rfl)
  have hset := setStored_agreeOff hadd.sound hnew ⟨[], fs₁.now⟩
  have hview := (hadd.trans hset).view target (Ne.symm hne)
  refine ⟨(fs₁.addFile (name :: dir)).1.setContent fs.stored.length [], ?_,
    ⟨?_, hmoved.replaced, (node?_of_view hview).trans haside.backup,
      (stored?_of_view hview haside.backup).trans haside.stored⟩, hnew, ?_⟩
  · unfold openTruncated
    rw [hopen]
  · exact haside.agree.trans ((hadd.trans hset).mono fun loc hl => Or.inl hl)
  · simp [FileSystem.content, stored?, setContent, addFile, addEntry, hmoved.stored]

end Moved

/-- **A rotation** leaves a backup and a new active file where the path of the backup receives a file and
the system does not refuse the new one. Where the new one is refused, the writer is closed and the backup is
all that there is. Elsewhere a rotation closes the writer and changes no file. -/
theorem rotate_spec (h : ActiveFile w.path fs name dir id) (now : Instant) :
    (¬ fs.Receives (w.backupPath now) ∧ ∃ e, w.rotate fs now = (.error e, w.closed, fs)) ∨
      fs.locate (w.backupPath now) = .ok (.entry (w.backupName now :: dir) false) ∧
      byteLength (w.backupName now) ≤ maxNameLength ∧
      ((∃ e fs', fs.refusal? .create (name :: dir) = some e ∧
          w.rotate fs now = (.error e, w.closed, fs') ∧
          Moved fs fs' (name :: dir) (w.backupName now :: dir) id) ∨
        ∃ fs', w.rotate fs now = (.ok (.writing fs.stored.length 0),
            { w with
              current := some (.writing fs.stored.length 0)
              size := 0
              rotations := w.rotations + 1
              pending := w.pending ++ w.sweepsFor now }, fs') ∧
          Rotated fs fs' (name :: dir) (w.backupName now :: dir) id fs.stored.length []) := by
  rcases setAside_spec h now with ⟨hblocked, e, haside⟩ | ⟨fs₁, haside, hlocate, hshort, hmoved⟩
  · refine Or.inl ⟨hblocked, e, ?_⟩
    unfold rotate
    rw [haside]
  · refine Or.inr ⟨hlocate, hshort, ?_⟩
    have hne : name :: dir ≠ w.backupName now :: dir := fun heq =>
      (backupName_spec h.locate now).2.1 (List.cons.inj heq).1.symm
    have hparent := createParent_existing ((hmoved.agreeOff h.node).dirs.locate h.locate)
    unfold rotate
    rw [haside]
    simp only [hparent]
    cases hrefusal : fs.refusal? .create (name :: dir) with
    | some e =>
      have hopen : fs₁.openTruncated w.path = .error e := by
        unfold openTruncated
        rw [(openForWriting_of_moved h hne hmoved).2, permit, hrefusal]
      exact Or.inl ⟨e, fs₁, rfl, by simp only [hopen], hmoved⟩
    | none =>
      obtain ⟨fs', hopen, hrotated⟩ := openTruncated_of_moved h hne hmoved hrefusal
      exact Or.inr ⟨fs', by simp only [hopen], hrotated⟩

/-! ## Writing to the active file -/

theorem Rotated.append {fs₁ fs' : FileSystem} {active target : Location} {new : Nat} {bytes : Bytes}
    (h : Rotated fs fs₁ active target id new []) (hne : target ≠ active)
    (hagree : AgreeOff (· = active) fs₁ fs') (hnode : fs'.node? active = some (.file new))
    (hcontent : fs'.content new = bytes) : Rotated fs fs' active target id new bytes := by
  have hview := hagree.view target hne
  exact ⟨⟨h.agree.trans (hagree.mono fun loc hl => Or.inl hl), h.replaced,
    (node?_of_view hview).trans h.backup, (stored?_of_view hview h.backup).trans h.stored⟩, hnode, hcontent⟩

/-- Two writers differ at most in what is open, counted and asked for. -/
structure SameSettings (w w' : SizeWriter) : Prop where
  path : w'.path = w.path
  zone : w'.zone = w.zone
  limit : w'.maxSize = w.maxSize
  backups : w'.maxBackups = w.maxBackups
  policy : w'.policy = w.policy

namespace SameSettings

variable {w w' w'' : SizeWriter}

theorem trans (h : SameSettings w w') (h' : SameSettings w' w'') : SameSettings w w'' :=
  ⟨h'.path.trans h.path, h'.zone.trans h.zone, h'.limit.trans h.limit, h'.backups.trans h.backups,
    h'.policy.trans h.policy⟩

theorem backupPath (h : SameSettings w w') (t : Instant) : w'.backupPath t = w.backupPath t := by
  unfold SizeWriter.backupPath
  rw [h.path, h.zone]

theorem backupName (h : SameSettings w w') (t : Instant) : w'.backupName t = w.backupName t := by
  unfold SizeWriter.backupName
  rw [h.path, h.zone]

theorem sweepsFor (h : SameSettings w w') (t : Instant) : w'.sweepsFor t = w.sweepsFor t := by
  unfold SizeWriter.sweepsFor sweepFor
  rw [h.path, h.backups, h.policy]

end SameSettings

/-- How a write to an open file comes out: refused because it is too long or because the active file cannot
become a backup, with the active file as a backup and no new one, with the bytes at the end of the active
file, or with the active file as a backup and the bytes in a new one. -/
inductive Effect (w : SizeWriter) (fs : FileSystem) (now : Instant) (bytes : Bytes) (name : Name)
    (dir : Location) (id : Nat) : Except IoError Nat × SizeWriter × FileSystem → Prop where
  | tooLong (long : w.maxSize < bytes.length) :
      Effect w fs now bytes name dir id (.error (.writeTooLong bytes.length w.maxSize), w, fs)
  | refused {e : IoError} (short : bytes.length ≤ w.maxSize)
      (full : w.maxSize < w.size + bytes.length) (blocked : ¬ fs.Receives (w.backupPath now)) :
      Effect w fs now bytes name dir id (.error e, w.closed, fs)
  | stranded {e : IoError} {fs' : FileSystem} (short : bytes.length ≤ w.maxSize)
      (full : w.maxSize < w.size + bytes.length)
      (refusal : fs.refusal? .create (name :: dir) = some e)
      (locate : fs.locate (w.backupPath now) = .ok (.entry (w.backupName now :: dir) false))
      (fits : byteLength (w.backupName now) ≤ maxNameLength)
      (moved : Moved fs fs' (name :: dir) (w.backupName now :: dir) id) :
      Effect w fs now bytes name dir id (.error e, w.closed, fs')
  | appended {w' : SizeWriter} {fs' : FileSystem} {handle : Handle}
      (room : w.size + bytes.length ≤ w.maxSize) (settings : SameSettings w w')
      (rotations : w'.rotations = w.rotations) (pending : w'.pending = w.pending)
      (size : w'.size = w.size + bytes.length) (current : w'.current = some handle)
      (atEnd : handle.IsAtEnd fs' id) (content : fs'.content id = fs.content id ++ bytes)
      (node : fs'.node? (name :: dir) = some (.file id)) (agree : AgreeOff (· = name :: dir) fs fs') :
      Effect w fs now bytes name dir id (.ok bytes.length, w', fs')
  | rotated {new : Nat} {w' : SizeWriter} {fs' : FileSystem} {handle : Handle}
      (short : bytes.length ≤ w.maxSize) (full : w.maxSize < w.size + bytes.length)
      (settings : SameSettings w w') (rotations : w'.rotations = w.rotations + 1)
      (pending : w'.pending = w.pending ++ w.sweepsFor now) (size : w'.size = bytes.length)
      (current : w'.current = some handle) (atEnd : handle.IsAtEnd fs' new)
      (locate : fs.locate (w.backupPath now) = .ok (.entry (w.backupName now :: dir) false))
      (fits : byteLength (w.backupName now) ≤ maxNameLength)
      (files : Rotated fs fs' (name :: dir) (w.backupName now :: dir) id new bytes) :
      Effect w fs now bytes name dir id (.ok bytes.length, w', fs')

/-- **A write to an open file.** -/
theorem write_effect (h : ActiveFile w.path fs name dir id) {handle : Handle}
    (hcurrent : w.current = some handle) (hend : handle.IsAtEnd fs id) (now : Instant)
    (bytes : Bytes) : Effect w fs now bytes name dir id (w.write fs now bytes) := by
  by_cases hlong : w.maxSize < bytes.length
  · have hwrite : w.write fs now bytes = (.error (.writeTooLong bytes.length w.maxSize), w, fs) :=
      if_pos hlong
    rw [hwrite]
    exact .tooLong hlong
  have hhandle : w.handle fs = (.ok handle, w, fs) := by
    unfold SizeWriter.handle
    rw [hcurrent]
  by_cases hfull : w.maxSize < w.size + bytes.length
  · have hfor : w.handleFor fs now bytes.length = w.rotate fs now := by
      simp only [handleFor, hhandle, if_pos hfull]
    rcases rotate_spec h now with ⟨hblocked, e, hrotate⟩ |
      ⟨hlocate, hfits, hrefused | ⟨fs₁, hrotate, hrotated⟩⟩
    · have hwrite : w.write fs now bytes = (.error e, w.closed, fs) := by
        simp only [write, if_neg hlong, hfor, hrotate]
      rw [hwrite]
      exact .refused (Nat.le_of_not_lt hlong) hfull hblocked
    · obtain ⟨e, fs', hrefusal, hrotate, hmoved⟩ := hrefused
      have hwrite : w.write fs now bytes = (.error e, w.closed, fs') := by
        simp only [write, if_neg hlong, hfor, hrotate]
      rw [hwrite]
      exact .stranded (Nat.le_of_not_lt hlong) hfull hrefusal hlocate hfits hmoved
    · have hstart : (Handle.writing fs.stored.length 0).IsAtEnd fs₁ fs.stored.length :=
        Or.inr (by rw [hrotated.fresh]; rfl)
      obtain ⟨handle', fs', hput, hend', hcontent, hnode, hagree⟩ :=
        Handle.write_at_end hrotated.agree.sound hrotated.active hstart bytes
      rw [hrotated.fresh, List.nil_append] at hcontent
      have hne : w.backupName now :: dir ≠ name :: dir := fun heq =>
        (backupName_spec h.locate now).2.1 (List.cons.inj heq).1
      simp only [write, if_neg hlong, hfor, hrotate, hput]
      exact .rotated (Nat.le_of_not_lt hlong) hfull ⟨rfl, rfl, rfl, rfl, rfl⟩ rfl rfl (Nat.zero_add _)
        rfl hend' hlocate hfits (hrotated.append hne hagree hnode hcontent)
  · have hfor : w.handleFor fs now bytes.length = (.ok handle, w, fs) := by
      simp only [handleFor, hhandle, if_neg hfull]
    obtain ⟨handle', fs', hput, hend', hcontent, hnode, hagree⟩ :=
      Handle.write_at_end h.sound h.node hend bytes
    simp only [write, if_neg hlong, hfor, hput]
    exact .appended (Nat.le_of_not_lt hfull) ⟨rfl, rfl, rfl, rfl, rfl⟩ rfl rfl rfl rfl hend' hcontent
      hnode hagree

end Active

theorem write_of_openActive {w₁ : SizeWriter} {fs₁ : FileSystem} {handle : Handle} {now : Instant}
    {bytes : Bytes} (hlong : ¬ w.maxSize < bytes.length) (hcurrent : w.current = none)
    (hopen : w.openActive fs = (.ok handle, w₁, fs₁)) (hcurrent₁ : w₁.current = some handle)
    (hmax : w₁.maxSize = w.maxSize) : w.write fs now bytes = w₁.write fs₁ now bytes := by
  have hhandle : w.handle fs = (.ok handle, w₁, fs₁) := by
    unfold SizeWriter.handle
    rw [hcurrent]
    exact hopen
  have hhandle₁ : w₁.handle fs₁ = (.ok handle, w₁, fs₁) := by
    unfold SizeWriter.handle
    rw [hcurrent₁]
  have hfor : w.handleFor fs now bytes.length = w₁.handleFor fs₁ now bytes.length := by
    simp only [handleFor, hhandle, hhandle₁]
  unfold write
  rw [hmax, if_neg hlong, if_neg hlong, hfor]

end SizeWriter

end LogRouter
