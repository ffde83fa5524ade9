import LogRouter.Proofs.Writer.Lossless
import Mathlib.Logic.Function.Basic

/-!
# A size writer as a machine on contents

* `Rolling`: the content of the active file, of the other files of its directory, and the number of
  rotations; `Rolling.write`, `Rolling.run`: what a write and a run do to them.
* `Rolling.write_spec`: a write that is short enough leaves its bytes at the end of an active file
  within the limit, and sets aside nothing that is empty.
* `SizeRun.Follows`: the files and the writer are what the machine says, which a write keeps whether it
  finds room (`Follows.appended`) or not (`Follows.rotated`), and so does a run (`Follows.run`).
* **`rolls_like_machine`**: every run of a writer without retention follows the machine.
-/

namespace LogRouter

open FileSystem SizeWriter

/-- The files of a directory, by their names, as a size writer sees them. -/
structure Rolling where
  /-- The content of the active file, if there is one. -/
  active : Option Bytes
  /-- The contents of the other files. -/
  others : Name → Option Bytes
  rotations : Nat

namespace Rolling

/-- What the active file holds. -/
def held (r : Rolling) : Bytes := r.active.getD []

/-- A write of at most `limit` bytes goes to the end of the active file. If there is no room for it, the
content of the active file replaces that of the backup first. -/
def write (limit : Nat) (backup : Name) (bytes : Bytes) (r : Rolling) : Rolling :=
  if limit < bytes.length then r
  else if limit < r.held.length + bytes.length then
    ⟨some bytes, Function.update r.others backup (some r.held), r.rotations + 1⟩
  else { r with active := some (r.held ++ bytes) }

/-- What a step does while the clock shows `now`. -/
def step (w : SizeWriter) (now : Instant) (r : Rolling) : SizeRun.Action → Rolling
  | .write bytes => r.write w.maxSize (w.backupName now) bytes
  | _ => r

/-- What some steps do from an instant on. -/
def run (w : SizeWriter) : Instant → List SizeRun.Action → Rolling → Rolling
  | _, [], r => r
  | _, .tick now _ :: actions, r => run w now actions r
  | now, action :: actions, r => run w now actions (r.step w now action)

/-- The files of the directory `dir` around the active file `name`. -/
def start (fs : FileSystem) (name : Name) (dir : Location) : Rolling :=
  ⟨fs.contentAt? (name :: dir), fun other => fs.contentAt? (other :: dir), 0⟩

/-- **A write that is short enough** leaves an active file within the limit that ends with its bytes. What
it sets aside is not empty. -/
theorem write_spec (r : Rolling) (backup : Name) {limit : Nat} {bytes : Bytes}
    (hshort : bytes.length ≤ limit) :
    ∃ content, (r.write limit backup bytes).active = some content ∧ content.length ≤ limit ∧
      bytes <:+ content ∧ ((r.write limit backup bytes).rotations ≠ r.rotations →
        r.held ≠ [] ∧ (r.write limit backup bytes).others backup = some r.held) := by
  unfold write
  rw [if_neg (Nat.not_lt.mpr hshort)]
  split_ifs with hfull
  · refine ⟨bytes, rfl, hshort, List.suffix_rfl, fun _ => ⟨?_, by simp⟩⟩
    intro hempty
    rw [hempty, List.length_nil] at hfull
    omega
  · refine ⟨r.held ++ bytes, rfl, ?_, List.suffix_append _ _, fun hne => absurd rfl hne⟩
    rw [List.length_append]
    omega

theorem write_some_held (r : Rolling) (backup : Name) {limit : Nat} {bytes : Bytes}
    (hshort : bytes.length ≤ limit) :
    { r with active := some r.held }.write limit backup bytes = r.write limit backup bytes := by
  unfold write
  rw [if_neg (Nat.not_lt.mpr hshort), if_neg (Nat.not_lt.mpr hshort)]
  rfl

end Rolling

namespace SizeWriter

variable {w : SizeWriter} {fs fs₁ : FileSystem} {name : Name} {dir : Location}

/-- **A file that can be opened** is opened with its content. -/
theorem openActive_of_opensNowAt (hs : fs.Sound) (hopens : fs.OpensNowAt w.path fs₁ name dir) :
    ∃ id fs₂, w.openActive fs = (.ok (.appending id),
        { w with current := some (.appending id), size := (fs₂.content id).length }, fs₂) ∧
      ActiveFile w.path fs₂ name dir id ∧ AgreeOff (· = name :: dir) fs₁ fs₂ ∧
      fs₂.content id = (fs.contentAt? (name :: dir)).getD [] := by
  obtain ⟨id, fs₂, hopen, hactive, hagree, hcontent⟩ := hopens.openToAppend hs
  refine ⟨id, fs₂, ?_, hactive, hagree, hcontent⟩
  unfold openActive
  rw [hopens.parent]
  simp only [hopen, Handle.length]

end SizeWriter

namespace FileSystem

theorem Receives.of_agreeOff {fs fs' : FileSystem} {P : Location → Prop} {q : Path}
    (h : fs.Receives q) (hagree : AgreeOff P fs fs')
    (hfiles : ∀ loc, P loc → fs'.node? loc ≠ some .directory) : fs'.Receives q := by
  obtain ⟨name, dir, hlocate, hshort, hfree⟩ := h
  refine ⟨name, dir, hagree.dirs.locate hlocate, hshort, ?_⟩
  by_cases hP : P (name :: dir)
  · exact hfiles _ hP
  · rwa [node?_of_view (hagree.view _ hP)]

end FileSystem

namespace SizeRun

variable {w : SizeWriter} {fs₀ : FileSystem} {times : List Instant} {name : Name} {dir : Location}
  {s : SizeRun} {r : Rolling}

/-- The files and the writer are what the machine says. A file can be opened at the path, and one can be
renamed to the backups of the given instants. -/
structure Follows (w : SizeWriter) (fs₀ : FileSystem) (times : List Instant) (name : Name)
    (dir : Location) (s : SizeRun) (r : Rolling) : Prop where
  plain : Plain w s.writer
  limit : s.writer.maxSize = w.maxSize
  opens : ∃ fs₁, s.fs.OpensAt w.path fs₁ name dir ∧ ∀ t ∈ times, fs₁.Receives (w.backupPath t)
  handle : ∀ handle, s.writer.current = some handle →
    ∃ id, ActiveFile w.path s.fs name dir id ∧ handle.IsAtEnd s.fs id
  size : s.writer.size = if s.writer.current.isSome then r.held.length else 0
  active : s.fs.contentAt? (name :: dir) = r.active
  others : ∀ other, other ≠ name → s.fs.contentAt? (other :: dir) = r.others other
  rotations : s.writer.rotations = .ofNat r.rotations
  grows : GrowsOff (fun loc => loc = name :: dir ∨ ∃ t ∈ times, loc = w.backupName t :: dir) fs₀ s.fs

theorem opens_of_active {fs fs₁ fs₂ : FileSystem} {P : Location → Prop} {id : Nat}
    (hopens : fs.OpensAt w.path fs₁ name dir) (hreceives : ∀ t ∈ times, fs₁.Receives (w.backupPath t))
    (hactive : ActiveFile w.path fs₂ name dir id) (hagree : AgreeOff P fs₁ fs₂)
    (hfiles : ∀ loc, P loc → fs₂.node? loc ≠ some .directory) :
    ∃ fs₁, fs₂.OpensAt w.path fs₁ name dir ∧ ∀ t ∈ times, fs₁.Receives (w.backupPath t) :=
  ⟨fs₂, opensAt_of_active hactive (hagree.dirs.refusal ▸ hopens.allowed),
    fun t ht => (hreceives t ht).of_agreeOff hagree hfiles⟩

theorem Follows.held (h : Follows w fs₀ times name dir s r) {id : Nat}
    (hactive : ActiveFile w.path s.fs name dir id) : r.held = s.fs.content id := by
  rw [Rolling.held, ← h.active, hactive.contentAt?, Option.getD_some]

theorem Follows.congr {s' : SizeRun} (h : Follows w fs₀ times name dir s r)
    (hwriter : s'.writer = s.writer) (hfs : s'.fs = s.fs) : Follows w fs₀ times name dir s' r := by
  obtain ⟨writer, fs, now, accepted, backups⟩ := s'
  simp only at hwriter hfs
  subst hwriter hfs
  exact ⟨h.plain, h.limit, h.opens, h.handle, h.size, h.active, h.others, h.rotations, h.grows⟩

theorem Follows.opened (h : Follows w fs₀ times name dir s r) {bytes : Bytes}
    (hshort : ¬ s.writer.maxSize < bytes.length) :
    ∃ w₁ fs₁, Follows w fs₀ times name dir { s with writer := w₁, fs := fs₁ }
        { r with active := some r.held } ∧
      w₁.current ≠ none ∧ s.writer.write s.fs s.now bytes = w₁.write fs₁ s.now bytes := by
  obtain ⟨fs₁, hopens, hreceives⟩ := h.opens
  cases hcurrent : s.writer.current with
  | some handle =>
    obtain ⟨id, hactive, _⟩ := h.handle handle hcurrent
    have hsome : r = { r with active := some r.held } := by
      rw [h.held hactive, ← hactive.contentAt?, h.active]
    exact ⟨s.writer, s.fs, hsome ▸ h, by simp [hcurrent], rfl⟩
  | none =>
    -- a file that is missing is created empty, which the machine does not tell from a missing one
    have hopens' : s.fs.OpensAt s.writer.path fs₁ name dir := h.plain.path ▸ hopens
    obtain ⟨id, fs₂, hopen, hactive, hagree, hcontent⟩ := openActive_of_opensNowAt h.grows.sound hopens'.now
    rw [h.plain.path] at hactive
    have hgrows : GrowsOff (· = name :: dir) s.fs fs₂ := by
      obtain ⟨hs₁, hcreated⟩ := createParent_grows h.grows.sound w.path
      rw [hopens.parent] at hs₁ hcreated
      exact (hcreated.growsOff hs₁).trans hagree.growsOff
    have hheld : fs₂.content id = r.held := by rw [hcontent, h.active, Rolling.held]
    refine ⟨{ s.writer with current := some (.appending id), size := (fs₂.content id).length }, fs₂,
      ⟨h.plain.of_settings ⟨rfl, rfl, rfl, rfl, rfl⟩ rfl, h.limit,
        opens_of_active hopens hreceives hactive hagree ?_, ?_, ?_, ?_, ?_, h.rotations, ?_⟩,
      by simp, write_of_openActive hshort hcurrent hopen rfl rfl⟩
    · rintro loc rfl
      simp [hactive.node]
    · rintro handle ⟨⟩
      exact ⟨id, hactive, Or.inl rfl⟩
    · simp [hheld, Rolling.held]
    · rw [hactive.contentAt?, hheld]
    · intro other hother
      rw [hgrows.contentAt? fun heq => hother (List.cons.inj heq).1, h.others other hother]
    · exact h.grows.trans (hgrows.mono fun loc hl => Or.inl hl)

section Write

variable {id : Nat} {bytes : Bytes} {w' : SizeWriter} {fs' : FileSystem} {handle : Handle}

theorem Follows.appended (h : Follows w fs₀ times name dir s r)
    (hactive : ActiveFile w.path s.fs name dir id) (hsettings : SameSettings s.writer w')
    (hpending : w'.pending = s.writer.pending) (hrotations : w'.rotations = s.writer.rotations)
    (hcurrent : w'.current = some handle) (hend : handle.IsAtEnd fs' id)
    (hsize : w'.size = r.held.length + bytes.length) (hcontent : fs'.content id = s.fs.content id ++ bytes)
    (hnode : fs'.node? (name :: dir) = some (.file id)) (hagree : AgreeOff (· = name :: dir) s.fs fs') :
    Follows w fs₀ times name dir { s with writer := w', fs := fs' }
      { r with active := some (r.held ++ bytes) } := by
  obtain ⟨fs₁, hopens, hreceives⟩ := h.opens
  obtain ⟨-, rfl⟩ := Prod.mk.inj (hopens.parent.symm.trans (createParent_existing hactive.locate))
  have hactive' := hactive.of_dirsKept hagree.sound hagree.dirs hnode
  refine ⟨h.plain.of_settings hsettings hpending, hsettings.limit.trans h.limit,
    opens_of_active hopens hreceives hactive' hagree ?_, ?_, ?_, ?_, ?_, hrotations.trans h.rotations,
    h.grows.trans (hagree.growsOff.mono fun loc hl => Or.inl hl)⟩
  · rintro loc rfl
    simp [hnode]
  · intro handle' hhandle'
    obtain rfl := Option.some.inj (hcurrent.symm.trans hhandle')
    exact ⟨id, hactive', hend⟩
  · simp [hsize, hcurrent, Rolling.held]
  · rw [hactive'.contentAt?, hcontent, h.held hactive]
  · intro other hother
    rw [hagree.growsOff.contentAt? fun heq => hother (List.cons.inj heq).1, h.others other hother]

theorem Follows.rotated (h : Follows w fs₀ times name dir s r)
    (hactive : ActiveFile w.path s.fs name dir id) (htimes : s.now ∈ times) {new : Nat}
    (hsettings : SameSettings s.writer w') (hpending : w'.pending = s.writer.pending)
    (hrotations : w'.rotations = s.writer.rotations + 1) (hcurrent : w'.current = some handle)
    (hend : handle.IsAtEnd fs' new) (hsize : w'.size = bytes.length)
    (hfiles : Rotated s.fs fs' (name :: dir) (w.backupName s.now :: dir) id new bytes) :
    Follows w fs₀ times name dir { s with writer := w', fs := fs' }
      ⟨some bytes, Function.update r.others (w.backupName s.now) (some r.held), r.rotations + 1⟩ := by
  obtain ⟨fs₁, hopens, hreceives⟩ := h.opens
  obtain ⟨-, rfl⟩ := Prod.mk.inj (hopens.parent.symm.trans (createParent_existing hactive.locate))
  have hactive' := hactive.of_dirsKept hfiles.agree.sound hfiles.agree.dirs hfiles.active
  refine ⟨h.plain.of_settings hsettings hpending, hsettings.limit.trans h.limit,
    opens_of_active hopens hreceives hactive' hfiles.agree ?_, ?_, ?_, ?_, ?_, ?_,
    h.grows.trans (hfiles.agree.growsOff.mono ?_)⟩
  · rintro loc (rfl | rfl)
    · simp [hfiles.active]
    · simp [hfiles.backup]
  · intro handle' hhandle'
    obtain rfl := Option.some.inj (hcurrent.symm.trans hhandle')
    exact ⟨_, hactive', hend⟩
  · simp [hsize, hcurrent, Rolling.held]
  · rw [hactive'.contentAt?, hfiles.fresh]
  · intro other hother
    simp only
    by_cases hbackup : other = w.backupName s.now
    · rw [hbackup, Function.update_self, h.held hactive, ← hfiles.content]
      simp [FileSystem.contentAt?, fileAt?, hfiles.backup]
    · rw [Function.update_of_ne hbackup, ← h.others other hother]
      refine hfiles.agree.growsOff.contentAt? ?_
      rintro (heq | heq)
      · exact hother (List.cons.inj heq).1
      · exact hbackup (List.cons.inj heq).1
  · rw [hrotations, h.rotations, UInt64.ofNat_add]
    rfl
  · rintro loc (rfl | rfl)
    · exact Or.inl rfl
    · exact Or.inr ⟨s.now, htimes, rfl⟩

theorem Follows.write_open (h : Follows w fs₀ times name dir s r) (hopen : s.writer.current ≠ none)
    (htimes : s.now ∈ times) (hshort : bytes.length ≤ w.maxSize) :
    Follows w fs₀ times name dir (s.step (.write bytes)) (r.step w s.now (.write bytes)) ∧
      (s.writer.write s.fs s.now bytes).1 = .ok bytes.length := by
  obtain ⟨handle, hcurrent⟩ := Option.ne_none_iff_exists'.mp hopen
  obtain ⟨id, hactive, hend⟩ := h.handle handle hcurrent
  obtain ⟨fs₁, hopens, hreceives⟩ := h.opens
  obtain ⟨-, rfl⟩ := Prod.mk.inj (hopens.parent.symm.trans (createParent_existing hactive.locate))
  have hsize : s.writer.size = r.held.length := by
    rw [h.size, hcurrent]
    rfl
  have heffect := write_effect (w := s.writer) (h.plain.path ▸ hactive) hcurrent hend s.now bytes
  have hlimit := h.limit
  unfold step Rolling.step Rolling.write
  simp only
  generalize s.writer.write s.fs s.now bytes = outcome at heffect
  cases heffect with
  | tooLong long => omega
  | refused short full blocked =>
    rw [h.plain.backupPath] at blocked
    exact absurd (hreceives s.now htimes) blocked
  | stranded short full refusal locate fits moved =>
    cases (hopens.allowed .create).symm.trans refusal
  | appended room settings rotations pending size current atEnd content node agree =>
    rw [if_neg (show ¬ w.maxSize < bytes.length by omega),
      if_neg (show ¬ w.maxSize < r.held.length + bytes.length by omega)]
    have hnext := h.appended hactive settings pending rotations current atEnd (by omega) content node agree
    exact ⟨hnext.congr rfl rfl, rfl⟩
  | rotated short full settings rotations pending size current atEnd locate fits files =>
    rw [h.plain.sweepsFor, List.append_nil] at pending
    rw [h.plain.backupName] at files
    rw [if_neg (show ¬ w.maxSize < bytes.length by omega),
      if_pos (show w.maxSize < r.held.length + bytes.length by omega)]
    have hnext := h.rotated hactive htimes settings pending rotations current atEnd size files
    exact ⟨hnext.congr rfl rfl, rfl⟩

end Write

/-- What a write returns and leaves: one that is too long changes nothing at all, any other lands whole in
the active file. -/
def Rolls (w : SizeWriter) (name : Name) (dir : Location) (s : SizeRun) (bytes : Bytes) : Prop :=
  if w.maxSize < bytes.length then
    (s.writer.write s.fs s.now bytes).1 = .error (.writeTooLong bytes.length w.maxSize) ∧
      s.step (.write bytes) = s
  else
    (s.writer.write s.fs s.now bytes).1 = .ok bytes.length ∧
      ∃ content, (s.step (.write bytes)).fs.contentAt? (name :: dir) = some content ∧
        content.length ≤ w.maxSize ∧ bytes <:+ content ∧
        ((s.step (.write bytes)).writer.rotations ≠ s.writer.rotations →
          ∃ held, held ≠ [] ∧
            (s.step (.write bytes)).fs.contentAt? (w.backupName s.now :: dir) = some held)

/-- **A write** does what the machine does. -/
theorem Follows.write (h : Follows w fs₀ times name dir s r) (htimes : s.now ∈ times) (bytes : Bytes) :
    Follows w fs₀ times name dir (s.step (.write bytes)) (r.step w s.now (.write bytes)) ∧
      Rolls w name dir s bytes := by
  by_cases hlong : s.writer.maxSize < bytes.length
  · have hlong' : w.maxSize < bytes.length := h.limit ▸ hlong
    have hwrite : s.writer.write s.fs s.now bytes =
        (.error (.writeTooLong bytes.length s.writer.maxSize), s.writer, s.fs) := if_pos hlong
    have hstep : s.step (.write bytes) = s := step_write_of_long hlong
    have hmachine : r.step w s.now (.write bytes) = r := if_pos hlong'
    rw [hstep, hmachine, Rolls, if_pos hlong', hwrite, h.limit]
    exact ⟨h, rfl, hstep⟩
  have hshort : bytes.length ≤ w.maxSize := h.limit ▸ Nat.le_of_not_lt hlong
  obtain ⟨w₁, fs₁, hopened, hopen, hwrite⟩ := h.opened hlong
  obtain ⟨hfollows, hresult⟩ := hopened.write_open hopen htimes hshort
  have hmachine : r.step w s.now (.write bytes) =
      { r with active := some r.held }.step w s.now (.write bytes) :=
    (Rolling.write_some_held r _ hshort).symm
  have hnext : Follows w fs₀ times name dir (s.step (.write bytes)) (r.step w s.now (.write bytes)) := by
    rw [hmachine]
    exact hfollows.congr (by simp only [step, hwrite]) (by simp only [step, hwrite])
  refine ⟨hnext, ?_⟩
  rw [Rolls, if_neg (Nat.not_lt.mpr hshort), hwrite]
  obtain ⟨content, hactive, hwithin, hends, hbackup⟩ :=
    Rolling.write_spec r (w.backupName s.now) hshort
  refine ⟨hresult, content, by rw [hnext.active]; exact hactive, hwithin, hends, fun hne => ?_⟩
  rw [hnext.rotations, h.rotations] at hne
  obtain ⟨hheld, hothers⟩ := hbackup fun heq => hne (congrArg UInt64.ofNat heq)
  refine ⟨r.held, hheld, (hnext.others _ ?_).trans hothers⟩
  obtain ⟨fs₁, hopens, _⟩ := h.opens
  exact (backupName_spec hopens.locate s.now).2.1

theorem Follows.quiet (h : Follows w fs₀ times name dir s r) (action : Action)
    (haction : ∀ bytes, action ≠ .write bytes) : Follows w fs₀ times name dir (s.step action) r := by
  obtain ⟨fs₁, hopens, hreceives⟩ := h.opens
  cases action with
  | tick now stamp =>
    have hagree : AgreeOff (fun _ => False) s.fs { s.fs with now := stamp } := .stamp h.grows.sound stamp
    refine ⟨h.plain, h.limit, ⟨{ fs₁ with now := stamp }, hopens.stamp stamp, fun t ht => ?_⟩, ?_,
      h.size, h.active, h.others, h.rotations, h.grows.trans (hagree.mono fun _ hl => hl.elim).growsOff⟩
    · obtain ⟨name', dir', hlocate, hfits⟩ := hreceives t ht
      exact ⟨name', dir', (locate_stamp fs₁ stamp _).trans hlocate, hfits⟩
    · intro handle hhandle
      obtain ⟨id, hactive, hend⟩ := h.handle handle hhandle
      exact ⟨id, hactive.of_dirsKept hagree.sound hagree.dirs hactive.node, hend⟩
  | write bytes => exact absurd rfl (haction bytes)
  | sync => exact h
  | close =>
    refine ⟨h.plain.of_settings ⟨rfl, rfl, rfl, rfl, rfl⟩ rfl, h.limit, ⟨fs₁, hopens, hreceives⟩, ?_, rfl,
      h.active, h.others, h.rotations, h.grows⟩
    rintro handle ⟨⟩

/-- **Every run** does what the machine does. -/
theorem Follows.run : ∀ {actions : List Action} {s : SizeRun} {r : Rolling},
    Follows w fs₀ times name dir s r → (∀ t ∈ writeTimes s.now actions, t ∈ times) →
    ∀ done rest, actions = done ++ rest →
      Follows w fs₀ times name dir (s.run done) (r.run w s.now done) ∧
        ∀ bytes more, rest = .write bytes :: more → Rolls w name dir (s.run done) bytes
  | actions, s, r, h, htimes, [], rest, hsplit => by
    refine ⟨h, ?_⟩
    rintro bytes more rfl
    rw [List.nil_append] at hsplit
    subst hsplit
    exact (h.write (htimes s.now List.mem_cons_self) bytes).2
  | actions, s, r, h, htimes, action :: done, rest, hsplit => by
    subst hsplit
    cases action with
    | tick now stamp =>
      have hnext := h.quiet (.tick now stamp) (by simp)
      exact Follows.run hnext htimes done rest rfl
    | sync =>
      have hlater : ∀ t ∈ writeTimes s.now (done ++ rest), t ∈ times := htimes
      exact Follows.run h hlater done rest rfl
    | close =>
      have hlater : ∀ t ∈ writeTimes s.now (done ++ rest), t ∈ times := htimes
      exact Follows.run (h.quiet .close (by simp)) hlater done rest rfl
    | write bytes =>
      have hnext := (h.write (htimes s.now List.mem_cons_self) bytes).1
      exact Follows.run hnext (fun t ht => htimes t (List.mem_cons_of_mem _ ht)) done rest rfl

/-- **A writer without retention rolls like the machine**: if a file can be opened at its path, and one can
be renamed to the backups of the instants of its writes, then at every point of a run the files of the
directory have the contents that the machine says, and no other file has changed. A write that is too long
changes nothing at all, any other lands whole at the end of the active file. -/
theorem rolls_like_machine {zone : Zone} {path : Path} {maxSize : Nat}
    (hw : SizeWriter.create zone path maxSize 0 0 false = .ok w) {fs fs₁ : FileSystem} (hs : fs.Sound)
    (hopens : fs.OpensAt w.path fs₁ name dir) {now : Instant} {actions done rest : List Action}
    (hbackups : ∀ t ∈ writeTimes now actions, fs₁.Receives (w.backupPath t))
    (hsplit : actions = done ++ rest) (hrun : (SizeRun.start w fs now).run done = s)
    (hmachine : (Rolling.start fs name dir).run w now done = r) :
    s.fs.contentAt? (name :: dir) = r.active ∧
      (∀ other, other ≠ name → s.fs.contentAt? (other :: dir) = r.others other) ∧
      GrowsOff (fun loc => loc = name :: dir ∨
        ∃ t ∈ writeTimes now actions, loc = w.backupName t :: dir) fs s.fs ∧
      s.writer.rotations = .ofNat r.rotations ∧
      s.writer.size = (if s.writer.current.isSome then r.held.length else 0) ∧
      s.writer.pending = [] ∧
      ∀ bytes more, rest = .write bytes :: more → Rolls w name dir s bytes := by
  have hstart : Follows w fs (writeTimes now actions) name dir (SizeRun.start w fs now)
      (Rolling.start fs name dir) := by
    unfold SizeWriter.create at hw
    split_ifs at hw
    rw [Except.ok.injEq] at hw
    subst hw
    refine ⟨⟨rfl, rfl, rfl, rfl, rfl⟩, rfl, ⟨fs₁, hopens, hbackups⟩, ?_, rfl, rfl, fun _ _ => rfl, rfl,
      GrowsOff.refl hs⟩
    rintro handle ⟨⟩
  obtain ⟨h, hrolls⟩ := hstart.run (fun _ ht => ht) done rest hsplit
  have hmachine' : (Rolling.start fs name dir).run w (SizeRun.start w fs now).now done = r := hmachine
  rw [hrun, hmachine'] at h
  rw [hrun] at hrolls
  exact ⟨h.active, h.others, h.grows, h.rotations, h.size, h.plain.pending, hrolls⟩

/-- Two bytes fill the file, the third one starts another, and three at once are too many. -/
theorem rolls_like_machine_over_one_limit :
    ∃ w actions s, SizeWriter.create .utc (.ofString "app.log") 2 0 0 false = .ok w ∧
      actions = [.write [97, 98], .close, .tick ⟨1735830246, 0⟩ 0, .write [99],
        .write [100, 101, 102]] ∧
      (SizeRun.start w FileSystem.empty ⟨1735830245, 0⟩).run actions = s ∧
      s.fs.contentAt? ["app.log".toList] = some [99] ∧
      s.fs.contentAt? ["app-2025-01-02T15-04-06.000.log".toList] = some [97, 98] ∧
      s.writer.rotations = 1 := by
  obtain ⟨w, hw⟩ : ∃ w : SizeWriter,
    w = ⟨.ofString "app.log", 2, 0, ⟨0, 86400, false⟩, .utc, none, 0, 0, []⟩ := ⟨_, rfl⟩
  obtain ⟨actions, hactions⟩ : ∃ actions : List Action, actions = [.write [97, 98], .close,
    .tick ⟨1735830246, 0⟩ 0, .write [99], .write [100, 101, 102]] := ⟨_, rfl⟩
  obtain ⟨s, hs⟩ : ∃ s, (SizeRun.start w FileSystem.empty ⟨1735830245, 0⟩).run actions = s := ⟨_, rfl⟩
  have hcreate : SizeWriter.create .utc (.ofString "app.log") 2 0 0 false = .ok w := by rw [hw]; rfl
  have hopens : FileSystem.empty.OpensAt w.path FileSystem.empty "app.log".toList [] := by
    rw [hw]
    exact ⟨Prod.ext (by decide +kernel) rfl, by decide +kernel, by decide +kernel, Or.inl rfl, fun _ => rfl⟩
  have hbackups : ∀ t ∈ writeTimes ⟨1735830245, 0⟩ actions,
      FileSystem.empty.Receives (w.backupPath t) := by
    intro t ht
    refine ⟨w.backupName t, [], ?_, ?_, ?_⟩ <;> (revert t; rw [hw, hactions]; decide +kernel)
  obtain ⟨hactive, hothers, _, hrotations, _⟩ := rolls_like_machine hcreate Sound.empty hopens hbackups
    (List.append_nil actions).symm hs rfl
  refine ⟨w, actions, s, hcreate, hactions, hs, hactive.trans ?_, (hothers _ (by decide)).trans ?_,
    hrotations.trans ?_⟩ <;> (rw [hactions, hw]; decide +kernel)

end SizeRun

end LogRouter
