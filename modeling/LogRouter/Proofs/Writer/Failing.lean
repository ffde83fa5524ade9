import LogRouter.Proofs.Files.Renaming
import LogRouter.Proofs.Writer.Backups
import LogRouter.Writer.TimeWriter

/-!
# Writes that fail before a byte is written

* `TimeWriter.HandsOver`, `SizeWriter.HandsOver`: a write gets as far as an open file.
* `SizeWriter.Reachable`: the states of a writer in whatever states of the file system it was used.
* `SizeWriter.Consistent`: a closed writer knows of no bytes, and an open one has opened its path.
  Every reachable writer is consistent (`Reachable.consistent`).
* `SizeWriter.Unreplaced`: the active file has become a backup, and the system refuses a new one.
* `SizeWriter.rotate_failed`: a rotation that fails has renamed nothing, or that is where it stops.
* **`fails_closed`**: a write that fails before it gets to an open file changes no file, but for a
  rotation that stops there, and leaves the writer as if it was closed.
* **`fails_open`**: what such a rotation does to the files, and a write that gets to an open file and
  stores no byte there.
-/

namespace LogRouter

open FileSystem

variable {fs fs' : FileSystem} {now : Instant} {bytes : Bytes} {e : IoError}

theorem FileSystem.Grows.contentAt? (h : Grows fs fs') (loc : Location) :
    fs'.contentAt? loc = fs.contentAt? loc := by
  unfold FileSystem.contentAt? fileAt?
  cases hn : fs.node? loc with
  | none =>
    rcases hn' : fs'.node? loc with _ | (_ | id | _)
    · rfl
    · rfl
    · rw [h.added loc (.file id) hn' (by simp)] at hn
      cases hn
    · rfl
  | some node =>
    rw [h.kept loc node hn]
    cases node with
    | directory => rfl
    | file id => simp [content, stored?, h.stored]
    | fullDevice => rfl

/-- No file has another content, and nothing but directories was made. -/
structure FileSystem.LeavesFiles (fs fs' : FileSystem) : Prop where
  grows : Grows fs fs'
  contents : ∀ loc, fs'.contentAt? loc = fs.contentAt? loc

theorem FileSystem.Grows.leavesFiles (h : Grows fs fs') : LeavesFiles fs fs' := ⟨h, h.contentAt?⟩

/-! ## Writers that rotate by time -/

namespace TimeWriter

variable {w w' : TimeWriter} {label : Name}

/-- A writer came to have no file open, without a rotation or a sweep, and goes on like one that was
closed. -/
structure LeftClosed (w w' : TimeWriter) : Prop where
  current : w'.current = none
  rotations : w'.rotations = w.rotations
  pending : w'.pending = w.pending
  next : ∀ fs now bytes, w'.write fs now bytes = w.close.2.write fs now bytes

theorem leftClosed_close (w : TimeWriter) : LeftClosed w w.close.2 :=
  ⟨rfl, rfl, rfl, fun _ _ _ => rfl⟩

/-- The write gets as far as an open file. -/
def HandsOver (w : TimeWriter) (fs : FileSystem) (now : Instant) : Prop :=
  ∃ handle, (w.handleFor fs now (w.labelAt now)).1 = .ok handle

theorem rotate_failed (hs : fs.Sound) (h : w.rotate fs now label = (.error e, w', fs')) :
    w' = w.close.2 ∧ Grows fs fs' := by
  have hgrows := (createParent_grows hs (w.pathOf label)).2
  unfold rotate at h
  simp only at h
  split at h
  · rename_i hcreate
    rw [hcreate] at hgrows
    simp only [Prod.mk.injEq] at h
    obtain ⟨-, rfl, rfl⟩ := h
    exact ⟨rfl, hgrows⟩
  · rename_i hcreate
    rw [hcreate] at hgrows
    split at h
    · simp only [Prod.mk.injEq] at h
      obtain ⟨-, rfl, rfl⟩ := h
      exact ⟨rfl, hgrows⟩
    · cases h

/-- **A file that cannot be opened** leaves the writer closed. -/
theorem handleFor_failed (hs : fs.Sound) (h : w.handleFor fs now label = (.error e, w', fs')) :
    w' = w.close.2 ∧ Grows fs fs' := by
  unfold handleFor at h
  split at h
  · split_ifs at h
    · cases h
    · exact rotate_failed hs h
  · exact rotate_failed hs h

theorem write_failed (hs : fs.Sound) (hnot : ¬ w.HandsOver fs now) :
    (w.write fs now bytes).2.1 = w.close.2 ∧ Grows fs (w.write fs now bytes).2.2 := by
  unfold HandsOver at hnot
  unfold write
  rcases h : w.handleFor fs now (w.labelAt now) with ⟨e | handle, w', fs'⟩
  · exact handleFor_failed hs h
  · rw [h] at hnot
    exact absurd ⟨handle, rfl⟩ hnot

end TimeWriter

/-! ## Writers that rotate by size -/

namespace SizeWriter

variable {w w' : SizeWriter} {cwd : Location} {handle : Handle} {length : Nat}

/-- A writer came to have no file open and to know of no bytes, without a rotation or a sweep, and goes
on like one that was closed. -/
structure LeftClosed (w w' : SizeWriter) : Prop where
  current : w'.current = none
  size : w'.size = 0
  rotations : w'.rotations = w.rotations
  pending : w'.pending = w.pending
  next : ∀ fs now bytes, w'.write fs now bytes = w.close.2.write fs now bytes

theorem leftClosed_close (w : SizeWriter) : LeftClosed w w.close.2 :=
  ⟨rfl, rfl, rfl, rfl, fun _ _ _ => rfl⟩

/-- The writer can come to be in this state. It was written to in any states of the file system, which
have nothing in common but the current directory, its sweeps were taken, and it was closed. -/
inductive Reachable (cwd : Location) : SizeWriter → Prop
  | created {zone : Zone} {path : Path} {maxSize maxBackups : Nat} {maxAge : UInt32} {compress : Bool}
      {w : SizeWriter} (h : create zone path maxSize maxBackups maxAge compress = .ok w) :
      Reachable cwd w
  | written {w : SizeWriter} {fs : FileSystem} (h : Reachable cwd w) (hs : fs.Sound)
      (hcwd : fs.cwd = cwd) (now : Instant) (bytes : Bytes) : Reachable cwd (w.write fs now bytes).2.1
  | swept {w : SizeWriter} (h : Reachable cwd w) : Reachable cwd { w with pending := [] }
  | closed {w : SizeWriter} (h : Reachable cwd w) : Reachable cwd w.close.2

/-- A closed writer knows of no bytes, and an open one has opened its path. -/
structure Consistent (cwd : Location) (w : SizeWriter) : Prop where
  closed : w.current = none → w.size = 0
  opened : w.current ≠ none → OnceOpened cwd w.path

theorem consistent_closed (w : SizeWriter) : Consistent cwd w.closed :=
  ⟨fun _ => rfl, fun h => absurd rfl h⟩

/-- The write gets as far as an open file. -/
def HandsOver (w : SizeWriter) (fs : FileSystem) (now : Instant) (bytes : Bytes) : Prop :=
  bytes.length ≤ w.maxSize ∧ ∃ handle, (w.handleFor fs now bytes.length).1 = .ok handle

/-! ### Opening the active file -/

theorem openActive_failed (hs : fs.Sound) (h : w.openActive fs = (.error e, w', fs')) :
    w' = w ∧ Grows fs fs' := by
  rcases openActive_spec w hs with ⟨e₁, fs₁, hopen, _, hgrows⟩ | ⟨fs₁, hopen, _⟩ | ⟨fs₁, _, _, _, hopen, _⟩
  · rw [hopen] at h
    simp only [Prod.mk.injEq] at h
    obtain ⟨-, rfl, rfl⟩ := h
    exact ⟨rfl, hgrows⟩
  · rw [hopen] at h; cases h
  · rw [hopen] at h; cases h

/-- **An active file that was opened** was there with the size that is known of it, or it is empty. -/
theorem openActive_opened (hs : fs.Sound) (h : w.openActive fs = (.ok handle, w', fs')) :
    w' = { w with current := some handle, size := handle.length fs' } ∧ fs'.Sound ∧
      OnceOpened fs.cwd w.path ∧ fs'.cwd = fs.cwd ∧ (Grows fs fs' ∨ w'.size = 0) := by
  obtain ⟨hs₁, hgrows⟩ := createParent_grows hs w.path
  unfold openActive at h
  split at h
  · cases h
  · rename_i fs₁ hcreate
    rw [hcreate] at hs₁ hgrows
    split at h
    · cases h
    · rename_i handle₂ fs₂ hopen
      simp only [Prod.mk.injEq, Except.ok.injEq] at h
      obtain ⟨rfl, rfl, rfl⟩ := h
      obtain ⟨name, dir, hlocate, _, _, hcases⟩ := openToAppend_spec hs₁ hopen
      refine ⟨rfl, ?_⟩
      rcases hcases with ⟨id, rfl, hnode, _, rfl⟩ | ⟨rfl, hnode, rfl⟩ | ⟨rfl, hnone, _, rfl, hagree⟩
      · exact ⟨hs₁, ⟨_, hs₁, hgrows.cwd, _, hlocate, by simp [hnode]⟩, hgrows.cwd, Or.inl hgrows⟩
      · exact ⟨hs₁, ⟨_, hs₁, hgrows.cwd, _, hlocate, by simp [hnode]⟩, hgrows.cwd, Or.inl hgrows⟩
      · refine ⟨hagree.sound, ⟨_, hs₁, hgrows.cwd, _, hlocate, by simp [hnone]⟩,
          hagree.dirs.cwd.trans hgrows.cwd, Or.inr ?_⟩
        simp [Handle.length, content_addFile]

/-! ### Rotating -/

/-- What stood at the path has become the backup of the instant, and the system refuses a new file. -/
structure Unreplaced (w : SizeWriter) (fs : FileSystem) (now : Instant) (e : IoError)
    (fs' : FileSystem) : Prop where
  renamed : fs.rename w.path (w.backupPath now) = .ok fs'
  refused : ∃ name dir, fs'.locate w.path = .ok (.entry (name :: dir) false) ∧
    fs'.node? (name :: dir) = none ∧ fs'.refusal? .create (name :: dir) = some e

/-- **Where the active file was renamed** there is room for a new one. Only the system may refuse it. -/
theorem openTruncated_of_renamed (hs : fs.Sound) (hopened : OnceOpened fs.cwd w.path)
    (h : fs.rename w.path (w.backupPath now) = .ok fs') :
    fs'.createParent w.path = (.ok (), fs') ∧
      ∀ e, fs'.openTruncated w.path = .error e → w.Unreplaced fs now e fs' := by
  have hne : ∀ {source target slash slash'}, fs.locate w.path = .ok (.entry source slash) →
      fs.locate (w.backupPath now) = .ok (.entry target slash') → source ≠ target := by
    intro source target slash slash' hp hq
    obtain ⟨name, dir, rfl, -⟩ := hs.of_locate hp
    obtain ⟨fs₀, _, _, loc, hp₀, _⟩ := hopened
    -- whether a path ends with a slash does not depend on the state
    obtain ⟨_, _, _, _, _, _, _, hslash⟩ := exists_of_locate_entry hp
    obtain ⟨_, _, _, _, _, _, _, hslash₀⟩ := exists_of_locate_entry hp₀
    rw [← hslash₀] at hslash
    rw [hslash] at hp
    obtain ⟨rfl, -⟩ := Place.entry.inj (locate_backupPath hp hq)
    exact fun heq => (backupName_spec hp now).2.1 (List.cons.inj heq).1.symm
  obtain ⟨name, dir, hlocate, hshort, hfree⟩ := rename_frees hs hopened hne h
  refine ⟨createParent_existing hlocate, fun e hopen => ⟨h, name, dir, hlocate, hfree, ?_⟩⟩
  unfold openTruncated openForWriting at hopen
  rw [hlocate] at hopen
  simp only [Bool.false_eq_true, if_false] at hopen
  rw [find_cons_of_fits hshort, hfree] at hopen
  cases hrefusal : fs'.refusal? .create (name :: dir) with
  | none =>
    simp only [permit_of_none hrefusal] at hopen
    cases hopen
  | some e₁ =>
    simp only [permit, hrefusal] at hopen
    rw [Except.error.inj hopen]

/-- **A rotation that fails** leaves the writer closed. It has renamed nothing, unless the system
refuses the new active file. -/
theorem rotate_failed (hs : fs.Sound) (hopened : OnceOpened fs.cwd w.path)
    (h : w.rotate fs now = (.error e, w', fs')) :
    w' = w.closed ∧ (Grows fs fs' ∨ w.Unreplaced fs now e fs') := by
  unfold rotate at h
  cases hrename : fs.rename w.path (w.backupPath now) with
  | ok fs₁ =>
    have haside : w.setAside fs now = .ok fs₁ := by rw [setAside, hrename]
    obtain ⟨hcreate, hrefused⟩ := openTruncated_of_renamed hs hopened hrename
    rw [haside] at h
    simp only [hcreate] at h
    split at h
    · rename_i e₁ hopen
      simp only [Prod.mk.injEq, Except.error.injEq] at h
      obtain ⟨rfl, rfl, rfl⟩ := h
      exact ⟨rfl, Or.inr (hrefused e₁ hopen)⟩
    · cases h
  | error e₁ =>
    by_cases hmissing : e₁ = .notFound
    · subst hmissing
      have haside : w.setAside fs now = .ok fs := by rw [setAside, hrename]
      have hgrows := (createParent_grows hs w.path).2
      rw [haside] at h
      simp only at h
      split at h
      · rename_i hcreate
        rw [hcreate] at hgrows
        simp only [Prod.mk.injEq] at h
        obtain ⟨-, rfl, rfl⟩ := h
        exact ⟨rfl, Or.inl hgrows⟩
      · rename_i hcreate
        rw [hcreate] at hgrows
        split at h
        · simp only [Prod.mk.injEq] at h
          obtain ⟨-, rfl, rfl⟩ := h
          exact ⟨rfl, Or.inl hgrows⟩
        · cases h
    · rw [setAside_of_error hrename hmissing] at h
      simp only [Prod.mk.injEq] at h
      obtain ⟨-, rfl, rfl⟩ := h
      exact ⟨rfl, Or.inl (Grows.refl fs)⟩

theorem rotate_consistent (hopened : OnceOpened cwd w.path) :
    Consistent cwd (w.rotate fs now).2.1 := by
  unfold rotate
  split
  · exact consistent_closed w
  · split
    · exact consistent_closed w
    · split
      · exact consistent_closed w
      · exact ⟨fun h => absurd h (Option.some_ne_none _), fun _ => hopened⟩

/-! ### The file of a write -/

theorem rotate_opened (h : w.rotate fs now = (.ok handle, w', fs')) : w'.current = some handle := by
  unfold rotate at h
  split at h
  · cases h
  · split at h
    · cases h
    · split at h
      · cases h
      · simp only [Prod.mk.injEq, Except.ok.injEq] at h
        rw [← h.2.1, ← h.1]

theorem handleFor_opened (hs : fs.Sound) (h : w.handleFor fs now length = (.ok handle, w', fs')) :
    w'.current = some handle := by
  unfold handleFor at h
  rcases hopen : w.handle fs with ⟨e | handle₁, w₁, fs₁⟩ <;> rw [hopen] at h
  · cases h
  · simp only at h
    split_ifs at h
    · exact rotate_opened h
    · simp only [Prod.mk.injEq, Except.ok.injEq] at h
      obtain ⟨rfl, rfl, rfl⟩ := h
      unfold SizeWriter.handle at hopen
      split at hopen
      · rename_i hcurrent
        simp only [Prod.mk.injEq, Except.ok.injEq] at hopen
        rw [← hopen.2.1, hcurrent, hopen.1]
      · rw [(openActive_opened hs hopen).1]

section HandleFor

variable (hw : Consistent fs.cwd w) (hs : fs.Sound)

include hw hs

/-- **A write without an open file** leaves the writer closed. -/
theorem handleFor_failed (hlength : length ≤ w.maxSize)
    (h : w.handleFor fs now length = (.error e, w', fs')) :
    w' = w.closed ∧ ∃ fs₁, Grows fs fs₁ ∧ (fs' = fs₁ ∨ w.Unreplaced fs₁ now e fs') := by
  unfold handleFor handle at h
  cases hcurrent : w.current with
  | some handle =>
    rw [hcurrent] at h
    simp only at h
    split_ifs at h
    · obtain ⟨hclosed, hgrows | hrenamed⟩ := rotate_failed hs (hw.opened (by simp [hcurrent])) h
      · exact ⟨hclosed, fs', hgrows, Or.inl rfl⟩
      · exact ⟨hclosed, fs, Grows.refl fs, Or.inr hrenamed⟩
    · cases h
  | none =>
    have hclosed : w.closed = w := by
      have hsize := hw.closed hcurrent
      cases w
      simp_all [closed]
    rw [hcurrent] at h
    simp only at h
    rcases hopen : w.openActive fs with ⟨e₁ | handle, w₁, fs₁⟩ <;> rw [hopen] at h
    · simp only [Prod.mk.injEq] at h
      obtain ⟨-, rfl, rfl⟩ := h
      rw [hclosed]
      obtain ⟨rfl, hgrows⟩ := openActive_failed hs hopen
      exact ⟨rfl, fs₁, hgrows, Or.inl rfl⟩
    · obtain ⟨rfl, hs₁, hopened, hcwd, hgrows⟩ := openActive_opened hs hopen
      simp only at h
      split_ifs at h with hfull
      · -- a file that was created has room for the bytes
        have hkept : Grows fs fs₁ := by
          refine hgrows.resolve_right fun hempty => ?_
          have hzero : handle.length fs₁ = 0 := hempty
          omega
        obtain ⟨rfl, hcases⟩ := rotate_failed hs₁ (by rw [hcwd]; exact hopened) h
        refine ⟨rfl, ?_⟩
        rcases hcases with hgrows' | ⟨hrename, hrefused⟩
        · exact ⟨fs', hkept.trans hgrows', Or.inl rfl⟩
        · exact ⟨fs₁, hkept, Or.inr ⟨hrename, hrefused⟩⟩
      · cases h

theorem handleFor_consistent : Consistent fs.cwd (w.handleFor fs now length).2.1 := by
  unfold handleFor handle
  cases hcurrent : w.current with
  | some handle =>
    simp only
    split_ifs
    · exact rotate_consistent (hw.opened (by simp [hcurrent]))
    · exact hw
  | none =>
    simp only
    rcases hopen : w.openActive fs with ⟨e₁ | handle, w₁, fs₁⟩
    · rw [(openActive_failed hs hopen).1]
      exact hw
    · obtain ⟨rfl, _, hopened, _⟩ := openActive_opened hs hopen
      simp only
      split_ifs
      · exact rotate_consistent hopened
      · exact ⟨fun h => absurd h (Option.some_ne_none _), fun _ => hopened⟩

theorem write_consistent : Consistent fs.cwd (w.write fs now bytes).2.1 := by
  unfold write
  split_ifs
  · exact hw
  have hafter : Consistent fs.cwd (w.handleFor fs now bytes.length).2.1 := handleFor_consistent hw hs
  rcases h : w.handleFor fs now bytes.length with ⟨e | handle, w', fs'⟩ <;> rw [h] at hafter
  · exact hafter
  · have hopened := handleFor_opened hs h
    simp only
    split
    · refine ⟨fun hnone => ?_, fun _ => hafter.opened (by simp [hopened])⟩
      rw [hopened] at hnone
      cases hnone
    · exact ⟨fun hnone => absurd hnone (Option.some_ne_none _),
        fun _ => hafter.opened (by simp [hopened])⟩

end HandleFor

/-- **Every writer that can come to be is consistent.** -/
theorem Reachable.consistent (h : Reachable cwd w) : Consistent cwd w := by
  induction h with
  | created h =>
    unfold create at h
    split_ifs at h
    obtain rfl := Except.ok.inj h
    exact ⟨fun _ => rfl, fun h => absurd rfl h⟩
  | written _ hs hcwd now bytes ih =>
    subst hcwd
    exact write_consistent ih hs
  | swept _ ih => exact ⟨ih.closed, ih.opened⟩
  | closed _ _ => exact consistent_closed _

/-- **A write that is not too long and finds no file** leaves the writer closed. -/
theorem write_failed (hw : Consistent fs.cwd w) (hs : fs.Sound) (hlength : bytes.length ≤ w.maxSize)
    (h : (w.write fs now bytes).1 = .error e) (hnot : ¬ w.HandsOver fs now bytes) :
    (w.write fs now bytes).2.1 = w.close.2 ∧
      ∃ fs₁, Grows fs fs₁ ∧ ((w.write fs now bytes).2.2 = fs₁ ∨
        w.Unreplaced fs₁ now e (w.write fs now bytes).2.2) := by
  unfold write at h ⊢
  rw [if_neg (Nat.not_lt.mpr hlength)] at h ⊢
  rcases hfor : w.handleFor fs now bytes.length with ⟨e₁ | handle, w', fs'⟩
  · rw [hfor] at h
    obtain rfl := Except.error.inj h
    exact handleFor_failed hw hs hlength hfor
  · exact absurd ⟨hlength, handle, by rw [hfor]⟩ hnot

theorem write_tooLong (h : w.maxSize < bytes.length) : w.write fs now bytes =
    (.error (.writeTooLong bytes.length w.maxSize), w, fs) := if_pos h

end SizeWriter

/-! ## Both writers -/

/-- **A write that fails before it gets to an open file** changes no stored content. It leaves the
files as they are, unless the active file has become a backup and the system refuses a new one. It
leaves the writer as if it was closed, unless the bytes were too many for any file, which leaves the
writer as it is. -/
theorem fails_closed :
    (∀ (w : TimeWriter) (fs : FileSystem) (now : Instant) (bytes : Bytes) (e : IoError), fs.Sound →
      (w.write fs now bytes).1 = .error e → ¬ w.HandsOver fs now →
        LeavesFiles fs (w.write fs now bytes).2.2 ∧ w.LeftClosed (w.write fs now bytes).2.1) ∧
    ∀ (w : SizeWriter) (fs : FileSystem) (now : Instant) (bytes : Bytes) (e : IoError),
      SizeWriter.Reachable fs.cwd w → fs.Sound →
      (w.write fs now bytes).1 = .error e → ¬ w.HandsOver fs now bytes →
        (w.write fs now bytes).2.2.stored = fs.stored ∧
          (∃ fs₁, LeavesFiles fs fs₁ ∧ ((w.write fs now bytes).2.2 = fs₁ ∨
            w.Unreplaced fs₁ now e (w.write fs now bytes).2.2)) ∧
          (w.maxSize < bytes.length → w.write fs now bytes =
            (.error (.writeTooLong bytes.length w.maxSize), w, fs)) ∧
          (bytes.length ≤ w.maxSize → w.LeftClosed (w.write fs now bytes).2.1) := by
  refine ⟨fun w fs now bytes e hs _ hnot => ?_, fun w fs now bytes e hw hs herror hnot => ?_⟩
  · obtain ⟨hclosed, hgrows⟩ : (w.write fs now bytes).2.1 = w.close.2 ∧
        Grows fs (w.write fs now bytes).2.2 := TimeWriter.write_failed hs hnot
    rw [hclosed]
    exact ⟨hgrows.leavesFiles, TimeWriter.leftClosed_close w⟩
  · by_cases hlong : w.maxSize < bytes.length
    · have hwrite : w.write fs now bytes =
          (.error (.writeTooLong bytes.length w.maxSize), w, fs) := SizeWriter.write_tooLong hlong
      have hafter : (w.write fs now bytes).2.2 = fs := by rw [hwrite]
      exact ⟨by rw [hafter], ⟨fs, (Grows.refl fs).leavesFiles, Or.inl hafter⟩, fun _ => hwrite,
        fun hshort => absurd hlong (Nat.not_lt.mpr hshort)⟩
    · obtain ⟨hclosed, fs₁, hgrows, hafter⟩ :=
        SizeWriter.write_failed hw.consistent hs (Nat.not_lt.mp hlong) herror hnot
      refine ⟨?_, ⟨fs₁, hgrows.leavesFiles, hafter⟩, fun hno => absurd hno hlong, fun _ => ?_⟩
      · rcases hafter with hafter | hrenamed
        · rw [hafter, hgrows.stored]
        · rw [(rename_kept hrenamed.renamed).1, hgrows.stored]
      · rw [hclosed]
        exact SizeWriter.leftClosed_close w

/-- A file of one byte, and directories where the next file of the day and the next backup belong. -/
def occupied : FileSystem :=
  { empty with
    entries := [(["app.log".toList], .file 0), (["app.2025-01-02.log".toList], .directory),
      (["app-2025-01-02T15-04-05.000.log".toList], .directory)]
    stored := [⟨[97], 0⟩] }

theorem sound_occupied : occupied.Sound := by
  have hfile := (@Sound.addFile _ Sound.empty "app.log".toList [] rfl
    ⟨by decide, by decide, by decide, by decide, by decide⟩ rfl)
  have hday := @Sound.addDirectory _ hfile "app.2025-01-02.log".toList [] (by decide +kernel)
    ⟨by decide, by decide, by decide, by decide, by decide⟩ rfl
  have hbackup := @Sound.addDirectory _ hday "app-2025-01-02T15-04-05.000.log".toList []
    (by decide +kernel) ⟨by decide, by decide, by decide, by decide, by decide⟩ rfl
  exact hbackup.setStored rfl rfl (by decide)

/-- A writer with a file for each day, and the file of the first of January open. -/
def atNewYear : TimeWriter where
  base := .ofString "app.log"
  pattern := ⟨"%Y-%m-%d", [.zeroed .year, .literal ['-'], .zeroed .month, .literal ['-'],
    .zeroed .day]⟩
  policy := .disabled
  zone := .utc
  current := some ⟨"2025-01-01".toList, .ofString "app.2025-01-01.log", .appending 0⟩
  rotations := 0
  pending := []

/-- A writer for files of one byte, closed. -/
def byteFiles : SizeWriter where
  path := .ofString "app.log"
  maxSize := 1
  maxBackups := 0
  policy := .disabled
  zone := .utc
  current := none
  size := 0
  rotations := 0
  pending := []

/-- Neither the file of the day nor the backup can come into being where a directory stands. -/
theorem fails_closed_at_directories :
    ((atNewYear.write occupied ⟨1735830245, 0⟩ [98]).1 = .error .isADirectory ∧
      LeavesFiles occupied (atNewYear.write occupied ⟨1735830245, 0⟩ [98]).2.2 ∧
      atNewYear.LeftClosed (atNewYear.write occupied ⟨1735830245, 0⟩ [98]).2.1) ∧
    ∃ w, w = (byteFiles.write empty ⟨1735830244, 0⟩ [97]).2.1 ∧ w.current.isSome ∧
      (w.write occupied ⟨1735830245, 0⟩ [98]).1 = .error .isADirectory ∧
      (w.write occupied ⟨1735830245, 0⟩ [98]).2.2.stored = occupied.stored ∧
      LeavesFiles occupied (w.write occupied ⟨1735830245, 0⟩ [98]).2.2 ∧
      w.LeftClosed (w.write occupied ⟨1735830245, 0⟩ [98]).2.1 := by
  have hday : (atNewYear.write occupied ⟨1735830245, 0⟩ [98]).1 = .error .isADirectory := by
    decide +kernel
  have hbackup : ((byteFiles.write empty ⟨1735830244, 0⟩ [97]).2.1.write occupied ⟨1735830245, 0⟩
      [98]).1 = .error .isADirectory := by decide +kernel
  have hunopened : ¬ atNewYear.HandsOver occupied ⟨1735830245, 0⟩ := by
    rintro ⟨handle, h⟩
    have : (atNewYear.handleFor occupied ⟨1735830245, 0⟩
        (atNewYear.labelAt ⟨1735830245, 0⟩)).1 = .error .isADirectory := by decide +kernel
    cases this.symm.trans h
  have hunmoved : ¬ (byteFiles.write empty ⟨1735830244, 0⟩ [97]).2.1.HandsOver occupied
      ⟨1735830245, 0⟩ [98] := by
    rintro ⟨-, handle, h⟩
    have : ((byteFiles.write empty ⟨1735830244, 0⟩ [97]).2.1.handleFor occupied ⟨1735830245, 0⟩
        1).1 = .error .isADirectory := by decide +kernel
    cases this.symm.trans h
  have hcreated : SizeWriter.create .utc (.ofString "app.log") 1 0 0 false = .ok byteFiles := by
    decide +kernel
  have hreach : SizeWriter.Reachable occupied.cwd (byteFiles.write empty ⟨1735830244, 0⟩ [97]).2.1 :=
    .written (.created hcreated) Sound.empty rfl _ _
  have hroom : [98].length ≤ (byteFiles.write empty ⟨1735830244, 0⟩ [97]).2.1.maxSize := by
    decide +kernel
  have hopen : (byteFiles.write empty ⟨1735830244, 0⟩ [97]).2.1.current.isSome := by decide +kernel
  obtain ⟨hstored, ⟨fs₁, hleaves, hafter⟩, -, hclosed⟩ :=
    fails_closed.2 _ occupied _ _ _ hreach sound_occupied hbackup hunmoved
  have hleaves' : LeavesFiles occupied ((byteFiles.write empty ⟨1735830244, 0⟩ [97]).2.1.write occupied
      ⟨1735830245, 0⟩ [98]).2.2 := by
    rcases hafter with hafter | ⟨hrename, name, dir, -, -, hrefused⟩
    · rw [hafter]
      exact hleaves
    · rw [(rename_kept hrename).2, hleaves.grows.refusal] at hrefused
      cases hrefused
  exact ⟨⟨hday, fails_closed.1 atNewYear occupied _ _ _ sound_occupied hday hunopened⟩,
    _, rfl, hopen, hbackup, hstored, hleaves', hclosed hroom⟩

/-- An active file and a backup of one byte each, on a system that makes no new files. -/
def exhausted : FileSystem :=
  { empty with
    entries := [(["app.log".toList], .file 0), (["app-2025-01-02T15-04-05.000.log".toList], .file 1)]
    stored := [⟨[97], 0⟩, ⟨[98], 0⟩]
    refusal? := fun access _ => if access = .create then some .storageFull else none }

theorem sound_exhausted : exhausted.Sound := by
  have hfile := (@Sound.addFile _ Sound.empty "app.log".toList [] rfl
    ⟨by decide, by decide, by decide, by decide, by decide⟩ rfl)
  have hbackup := @Sound.addFile _ hfile "app-2025-01-02T15-04-05.000.log".toList []
    (by decide +kernel) ⟨by decide, by decide, by decide, by decide, by decide⟩ rfl
  exact hbackup.setStored rfl rfl (by decide)

/-- A device that takes no bytes, in a directory of its own. -/
def device : FileSystem :=
  { empty with entries := [(["dev".toList], .directory), (["full".toList, "dev".toList], .fullDevice)] }

theorem sound_device : device.Sound := by
  have hdir := @Sound.addDirectory _ Sound.empty "dev".toList [] rfl
    ⟨by decide, by decide, by decide, by decide, by decide⟩ rfl
  exact @Sound.extend _ device hdir "full".toList ["dev".toList] .fullDevice (by decide +kernel)
    ⟨by decide, by decide, by decide, by decide, by decide⟩ (by decide +kernel) rfl rfl (Nat.le_refl _)
    fun id h => by cases h

/-- A writer for the device, closed. -/
def deviceFiles : SizeWriter := { byteFiles with path := .ofString "/dev/full" }

/-- A write that stores no byte may still move the active file over an older backup, where the system
makes no new files. And it may leave the device open that it got to. -/
theorem fails_open :
    (∃ w, w = (byteFiles.write empty ⟨1735830244, 0⟩ [97]).2.1 ∧
      SizeWriter.Reachable exhausted.cwd w ∧ exhausted.Sound ∧
      (w.write exhausted ⟨1735830245, 0⟩ [99]).1 = .error .storageFull ∧
      ¬ w.HandsOver exhausted ⟨1735830245, 0⟩ [99] ∧
      exhausted.contentAt? ["app.log".toList] = some [97] ∧
      exhausted.contentAt? ["app-2025-01-02T15-04-05.000.log".toList] = some [98] ∧
      (w.write exhausted ⟨1735830245, 0⟩ [99]).2.2.contentAt? ["app.log".toList] = none ∧
      (w.write exhausted ⟨1735830245, 0⟩ [99]).2.2.contentAt?
        ["app-2025-01-02T15-04-05.000.log".toList] = some [97]) ∧
    SizeWriter.Reachable device.cwd deviceFiles ∧ device.Sound ∧
      (deviceFiles.write device ⟨1735830245, 0⟩ [97]).1 = .error .storageFull ∧
      (deviceFiles.write device ⟨1735830245, 0⟩ [97]).2.2.stored = device.stored ∧
      (deviceFiles.write device ⟨1735830245, 0⟩ [97]).2.1.current = some .fullDevice := by
  have hcreated : SizeWriter.create .utc (.ofString "app.log") 1 0 0 false = .ok byteFiles := by
    decide +kernel
  have hdevice : SizeWriter.create .utc (.ofString "/dev/full") 1 0 0 false = .ok deviceFiles := by
    decide +kernel
  have hrefused : ((byteFiles.write empty ⟨1735830244, 0⟩ [97]).2.1.handleFor exhausted ⟨1735830245, 0⟩
      1).1 = .error .storageFull := by decide +kernel
  refine ⟨⟨_, rfl, .written (.created hcreated) Sound.empty rfl _ _, sound_exhausted, by decide +kernel,
    ?_, by decide +kernel, by decide +kernel, by decide +kernel, by decide +kernel⟩,
    .created hdevice, sound_device, by decide +kernel, by decide +kernel, by decide +kernel⟩
  rintro ⟨-, handle, h⟩
  cases hrefused.symm.trans h

end LogRouter
