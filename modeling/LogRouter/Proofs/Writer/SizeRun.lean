import LogRouter.Proofs.Writer.Backups

/-!
# Runs of a size writer

* `SizeRun`: a size writer and its files, with the bytes that it accepted and the paths of the
  backups that it made.
* `SizeRun.Keeps`, `SizeRun.Spares`: no byte was lost, and a step overwrote no file.
* `SizeRun.Fresh`: no two backups have one path, and no backup took the place of a file that was
  there at the start.
* `SizeRun.Steady`: what every run keeps. No file was opened so far, one is there, or the one that was
  there is a backup and a new one was refused.
* **`Busy.quiet`**, **`Busy.proceeds_setAside`**, **`Stranded.quiet`**: a step keeps it, and overwrites
  nothing exactly if the backups stay fresh.
-/

namespace LogRouter

open FileSystem SizeWriter

/-- A size writer and its files, with the bytes that it accepted and the backups that it made. -/
structure SizeRun where
  writer : SizeWriter
  fs : FileSystem
  now : Instant
  accepted : Bytes
  /-- The paths of the backups, in the order in which they were made. -/
  backups : List Path

namespace SizeRun

/-- A step of the clocks or of the writer. -/
inductive Action where
  /-- The clock shows another instant, and changes of content get another stamp. -/
  | tick (now : Instant) (stamp : Int)
  | write (bytes : Bytes)
  | sync
  | close
  deriving DecidableEq, Repr

/-- A step of the writer put a file where the backup of its instant belongs. -/
def setsAside (s : SizeRun) (fs' : FileSystem) : Bool :=
  match fs'.lookup (s.writer.backupPath s.now) with
  | .ok (loc, .file id) => s.fs.fileAt? loc != some id
  | _ => false

/-- The state after a step. -/
def step (s : SizeRun) : Action → SizeRun
  | .tick now stamp => { s with now := now, fs := { s.fs with now := stamp } }
  | .write bytes =>
    let (result, writer, fs) := s.writer.write s.fs s.now bytes
    { s with
      writer := writer
      fs := fs
      accepted := match result with
        | .ok _ => s.accepted ++ bytes
        | .error _ => s.accepted
      backups := if s.setsAside fs then s.backups ++ [s.writer.backupPath s.now] else s.backups }
  | .sync => s
  | .close => { s with writer := s.writer.close.2 }

/-- The state after some steps. -/
def run (s : SizeRun) (actions : List Action) : SizeRun := actions.foldl step s

/-- The instants of the writes in some steps. -/
def writeTimes (now : Instant) : List Action → List Instant
  | [] => []
  | .tick now _ :: actions => writeTimes now actions
  | .write _ :: actions => now :: writeTimes now actions
  | .sync :: actions | .close :: actions => writeTimes now actions

/-- A writer that has not accepted anything. -/
def start (w : SizeWriter) (fs : FileSystem) (now : Instant) : SizeRun := ⟨w, fs, now, [], []⟩

/-- What a file system holds where a path leads in a later one. -/
def heldAt (fs later : FileSystem) (p : Path) : Bytes :=
  match later.locate p with
  | .ok (.entry loc _) => (fs.contentAt? loc).getD []
  | _ => []

/-- What the active file held at the start and whatever was accepted is there, in this order, in different
backups and then in the active file. -/
def Keeps (fs₀ : FileSystem) (s : SizeRun) : Prop :=
  ∃ files : List Path, files.Nodup ∧ files ⊆ s.backups ∧
    files.flatMap (heldAt s.fs s.fs) ++ heldAt s.fs s.fs s.writer.path =
      heldAt fs₀ s.fs s.writer.path ++ s.accepted

/-- All entries but the active file are as they were. -/
def Spares (s s' : SizeRun) : Prop :=
  ∀ loc, s.fs.node? loc ≠ none → s'.fs.locate s.writer.path ≠ .ok (.entry loc false) →
    s'.fs.view loc = s.fs.view loc

/-- All backups have paths of their own, which led to no entry at the start. -/
def Fresh (fs₀ : FileSystem) (s : SizeRun) : Prop :=
  s.backups.Nodup ∧
    ∀ q ∈ s.backups, ∀ loc, s.fs.locate q = .ok (.entry loc false) → fs₀.node? loc = none

/-! ## What every run keeps -/

/-- The writer has the settings of another one, which asks for no sweeps, and has asked for none. -/
structure Plain (w₀ w : SizeWriter) : Prop where
  path : w.path = w₀.path
  zone : w.zone = w₀.zone
  backups : w.maxBackups = 0
  policy : w.policy.isActive = false
  pending : w.pending = []

/-- Nothing was accepted and no file was opened. -/
structure Idle (fs₀ : FileSystem) (s : SizeRun) : Prop where
  accepted : s.accepted = []
  backups : s.backups = []
  grows : GrowsOff (fun _ => False) fs₀ s.fs
  current : s.writer.current = none ∨ s.writer.current = some .fullDevice ∧ s.writer.size = 0

/-- A file was opened at a place. Whatever changed since the start is there or one of the backups, which
stand beside it. -/
structure Spread (w₀ : SizeWriter) (fs₀ : FileSystem) (s : SizeRun) (name : Name) (dir : Location) :
    Prop where
  sound : s.fs.Sound
  locate : s.fs.locate w₀.path = .ok (.entry (name :: dir) false)
  backups : ∀ q ∈ s.backups, ∃ t, q = w₀.backupPath t ∧
    s.fs.locate q = .ok (.entry (w₀.backupName t :: dir) false) ∧
    s.fs.node? (w₀.backupName t :: dir) ≠ none
  grows : GrowsOff (fun loc => loc = name :: dir ∨
    ∃ q ∈ s.backups, s.fs.locate q = .ok (.entry loc false)) fs₀ s.fs

/-- The file is there. -/
structure Busy (w₀ : SizeWriter) (fs₀ : FileSystem) (s : SizeRun) (name : Name) (dir : Location)
    (id : Nat) : Prop extends Spread w₀ fs₀ s name dir where
  short : byteLength name ≤ maxNameLength
  node : s.fs.node? (name :: dir) = some (.file id)
  handle : ∀ handle, s.writer.current = some handle → handle.IsAtEnd s.fs id

/-- The file is one of the backups, and the system refuses a new one. -/
structure Stranded (w₀ : SizeWriter) (fs₀ : FileSystem) (s : SizeRun) (name : Name) (dir : Location) :
    Prop extends Spread w₀ fs₀ s name dir where
  short : byteLength name ≤ maxNameLength
  node : s.fs.node? (name :: dir) = none
  refusal : ∃ e, s.fs.refusal? .create (name :: dir) = some e
  current : s.writer.current = none

/-- The backups and the file at a location hold what was there at the start and was accepted. -/
def Tally (fs₀ : FileSystem) (s : SizeRun) (loc : Location) : Prop :=
  s.backups.flatMap (heldAt s.fs s.fs) ++ (s.fs.contentAt? loc).getD [] =
    (fs₀.contentAt? loc).getD [] ++ s.accepted

/-- The run was fine so far: while its backups are fresh, nothing was lost. -/
structure Steady (w₀ : SizeWriter) (fs₀ : FileSystem) (s : SizeRun) : Prop where
  plain : Plain w₀ s.writer
  phase : Idle fs₀ s ∨ ∃ name dir, ((∃ id, Busy w₀ fs₀ s name dir id) ∨ Stranded w₀ fs₀ s name dir) ∧
    (Fresh fs₀ s → Tally fs₀ s (name :: dir))

/-- A step that overwrites nothing exactly if the backups stay fresh. -/
structure Proceeds (w₀ : SizeWriter) (fs₀ : FileSystem) (s s' : SizeRun) : Prop where
  steady : Steady w₀ fs₀ s'
  dirs : DirsKept s.fs s'.fs
  fresh : Fresh fs₀ s' ↔ Fresh fs₀ s ∧ Spares s s'

variable {w₀ : SizeWriter} {fs₀ : FileSystem} {s s' : SizeRun} {name : Name} {dir : Location}
  {id : Nat}

theorem Plain.sweepsFor (h : Plain w₀ s.writer) (now : Instant) : s.writer.sweepsFor now = [] := by
  unfold SizeWriter.sweepsFor
  rw [h.policy, h.backups]
  rfl

theorem Plain.of_settings {w' : SizeWriter} (h : Plain w₀ s.writer) (hsame : SameSettings s.writer w')
    (hpending : w'.pending = s.writer.pending) : Plain w₀ w' :=
  ⟨hsame.path.trans h.path, hsame.zone.trans h.zone, hsame.backups.trans h.backups,
    hsame.policy ▸ h.policy, hpending.trans h.pending⟩

theorem Plain.backupPath (h : Plain w₀ s.writer) (t : Instant) :
    s.writer.backupPath t = w₀.backupPath t := by
  unfold SizeWriter.backupPath
  rw [h.path, h.zone]

theorem Plain.backupName (h : Plain w₀ s.writer) (t : Instant) :
    s.writer.backupName t = w₀.backupName t := by
  unfold SizeWriter.backupName
  rw [h.path, h.zone]

theorem heldAt_of_locate {fs later : FileSystem} {p : Path} {loc : Location} {slash : Bool}
    (h : later.locate p = .ok (.entry loc slash)) : heldAt fs later p = (fs.contentAt? loc).getD [] := by
  unfold heldAt
  rw [h]

theorem fresh_of_nil (h : s.backups = []) : Fresh fs₀ s := by
  unfold Fresh
  simp [h]

theorem setsAside_eq_false_iff {fs' : FileSystem} : s.setsAside fs' = false ↔
    ∀ loc id, fs'.lookup (s.writer.backupPath s.now) = .ok (loc, .file id) →
      s.fs.node? loc = some (.file id) := by
  unfold setsAside
  split
  · rename_i loc id hlookup
    rw [bne_eq_false_iff_eq, fileAt?_eq_some_iff]
    refine ⟨fun hnode loc' id' heq => ?_, fun hall => hall loc id hlookup⟩
    obtain ⟨rfl, hid⟩ := Prod.mk.inj (Except.ok.inj (hlookup.symm.trans heq))
    rw [hnode, hid]
  · rename_i hnone
    exact iff_of_true rfl fun loc id hlookup => absurd hlookup (hnone loc id)

theorem setsAside_self (s : SizeRun) : s.setsAside s.fs = false :=
  setsAside_eq_false_iff.mpr fun _ _ => node?_of_lookup

theorem setsAside_of_growsOff {P : Location → Prop} {fs' : FileSystem} (h : GrowsOff P s.fs fs')
    (hbackup : ∀ loc id, fs'.lookup (s.writer.backupPath s.now) = .ok (loc, .file id) → ¬ P loc) :
    s.setsAside fs' = false :=
  setsAside_eq_false_iff.mpr fun loc id hlookup =>
    (h.file_iff (hbackup loc id hlookup)).mp (node?_of_lookup hlookup)

namespace Spread

variable (h : Spread w₀ fs₀ s name dir)

include h

theorem backupName_ne (t : Instant) : w₀.backupName t ≠ name := (backupName_spec h.locate t).2.1

theorem locate_iff (hdirs : DirsKept s.fs s'.fs) {q : Path} (hq : q ∈ s.backups) {loc : Location} :
    s'.fs.locate q = .ok (.entry loc false) ↔ s.fs.locate q = .ok (.entry loc false) := by
  obtain ⟨t, _, hlocate, _⟩ := h.backups q hq
  rw [hdirs.locate hlocate, hlocate]

theorem flatMap_heldAt (hdirs : DirsKept s.fs s'.fs)
    (hview : ∀ t, s.fs.node? (w₀.backupName t :: dir) ≠ none →
      s'.fs.view (w₀.backupName t :: dir) = s.fs.view (w₀.backupName t :: dir)) :
    s.backups.flatMap (heldAt s'.fs s'.fs) = s.backups.flatMap (heldAt s.fs s.fs) := by
  refine List.flatMap_congr fun q hq => ?_
  obtain ⟨t, _, hlocate, hnode⟩ := h.backups q hq
  rw [heldAt_of_locate (hdirs.locate hlocate), heldAt_of_locate hlocate,
    contentAt?_of_view (hview t hnode)]

theorem fresh_iff (hdirs : DirsKept s.fs s'.fs) (hbackups : s'.backups = s.backups) :
    Fresh fs₀ s' ↔ Fresh fs₀ s := by
  unfold Fresh
  rw [hbackups]
  refine and_congr_right fun _ => forall₂_congr fun q hq => forall_congr' fun loc => ?_
  rw [h.locate_iff hdirs hq]

theorem of_agreeOff (hagree : AgreeOff (· = name :: dir) s.fs s'.fs)
    (hbackups : s'.backups = s.backups) : Spread w₀ fs₀ s' name dir := by
  refine ⟨hagree.sound, hagree.dirs.locate h.locate, ?_, ?_⟩
  · intro q hq
    rw [hbackups] at hq
    obtain ⟨t, ht, hlocate, hfound⟩ := h.backups q hq
    refine ⟨t, ht, hagree.dirs.locate hlocate, ?_⟩
    rwa [node?_of_view (hagree.view _ fun heq => h.backupName_ne t (List.cons.inj heq).1)]
  · refine (h.grows.mono ?_).trans (hagree.growsOff.mono fun loc hl => Or.inl hl)
    rintro loc (hl | ⟨q, hq, hlocate⟩)
    · exact Or.inl hl
    · exact Or.inr ⟨q, by rwa [hbackups], hagree.dirs.locate hlocate⟩

/-- **A step without a new backup** puts bytes at the end of the active file at most. -/
theorem tally_of_agreeOff (hagree : AgreeOff (· = name :: dir) s.fs s'.fs)
    (hbackups : s'.backups = s.backups) {bytes : Bytes} (haccepted : s'.accepted = s.accepted ++ bytes)
    (hcontent : (s'.fs.contentAt? (name :: dir)).getD [] =
      (s.fs.contentAt? (name :: dir)).getD [] ++ bytes) (hsum : Tally fs₀ s (name :: dir)) :
    Tally fs₀ s' (name :: dir) := by
  have hothers := h.flatMap_heldAt hagree.dirs fun t _ =>
    hagree.view _ fun heq => h.backupName_ne t (List.cons.inj heq).1
  unfold Tally at hsum ⊢
  rw [hbackups, hothers, hcontent, haccepted, ← List.append_assoc, hsum, List.append_assoc]

theorem spares_of_agreeOff (hplain : Plain w₀ s.writer)
    (hagree : AgreeOff (· = name :: dir) s.fs s'.fs) : Spares s s' := by
  intro loc _ hloc
  refine hagree.view loc fun heq => hloc ?_
  rw [heq, hplain.path]
  exact hagree.dirs.locate h.locate

theorem setsAside_eq_false (hplain : Plain w₀ s.writer) {fs' : FileSystem}
    (hgrows : GrowsOff (· = name :: dir) s.fs fs') : s.setsAside fs' = false := by
  refine setsAside_of_growsOff hgrows ?_
  rintro _ id hlookup rfl
  rw [hplain.backupPath] at hlookup
  exact h.backupName_ne s.now
    (List.cons.inj (eq_of_lookup_backupPath (hgrows.dirs.locate h.locate) hlookup)).1.symm

end Spread

namespace Busy

variable (h : Busy w₀ fs₀ s name dir id)

include h

theorem active : ActiveFile w₀.path s.fs name dir id := ⟨h.sound, h.locate, h.short, h.node⟩

theorem node?_ne_none {loc : Location} (hloc : fs₀.node? loc ≠ none) : s.fs.node? loc ≠ none := by
  by_cases hchanged : loc = name :: dir ∨ ∃ q ∈ s.backups, s.fs.locate q = .ok (.entry loc false)
  · rcases hchanged with rfl | ⟨q, hq, hlocate⟩
    · rw [h.node]
      exact Option.some_ne_none _
    · obtain ⟨t, _, hplace, hnode⟩ := h.backups q hq
      rw [hlocate] at hplace
      simp only [Except.ok.injEq, Place.entry.injEq, and_true] at hplace
      rwa [hplace]
  · rwa [node?_of_view (h.grows.view loc hchanged hloc)]

theorem eq_directory {t : Instant} (hq : w₀.backupPath t ∉ s.backups)
    (hfree : fs₀.node? (w₀.backupName t :: dir) = none) {node : Node}
    (hnode : s.fs.node? (w₀.backupName t :: dir) = some node) : node = .directory := by
  by_contra hfile
  have hunchanged : ¬ (w₀.backupName t :: dir = name :: dir ∨
      ∃ q ∈ s.backups, s.fs.locate q = .ok (.entry (w₀.backupName t :: dir) false)) := by
    rintro (heq | ⟨q, hmem, hlocate⟩)
    · exact h.backupName_ne t (List.cons.inj heq).1
    · obtain ⟨t', rfl, hplace, _⟩ := h.backups q hmem
      rw [hlocate] at hplace
      simp only [Except.ok.injEq, Place.entry.injEq, and_true] at hplace
      rw [backupPath_congr (List.cons.inj hplace).1] at hq
      exact hq hmem
  rw [h.grows.added _ node hunchanged hnode hfile] at hfree
  cases hfree

/-- **A step without a new backup** puts bytes at the end of the active file at most. -/
theorem quiet (htally : Fresh fs₀ s → Tally fs₀ s (name :: dir))
    (hplain : Plain w₀ s.writer) (hplain' : Plain w₀ s'.writer) (bytes : Bytes)
    (hagree : AgreeOff (· = name :: dir) s.fs s'.fs)
    (hnode : s'.fs.node? (name :: dir) = some (.file id))
    (hhandle : ∀ handle, s'.writer.current = some handle → handle.IsAtEnd s'.fs id)
    (hbackups : s'.backups = s.backups) (haccepted : s'.accepted = s.accepted ++ bytes)
    (hcontent : s'.fs.content id = s.fs.content id ++ bytes) : Proceeds w₀ fs₀ s s' := by
  have hbusy : Busy w₀ fs₀ s' name dir id :=
    ⟨h.of_agreeOff hagree hbackups, h.short, hnode, hhandle⟩
  have hfresh := h.fresh_iff hagree.dirs hbackups
  refine ⟨⟨hplain', Or.inr ⟨name, dir, Or.inl ⟨id, hbusy⟩, fun hf => ?_⟩⟩, hagree.dirs, ?_⟩
  · refine h.tally_of_agreeOff hagree hbackups haccepted ?_ (htally (hfresh.mp hf))
    rw [hbusy.active.contentAt?, h.active.contentAt?]
    exact hcontent
  · rw [hfresh, and_iff_left (h.spares_of_agreeOff hplain hagree)]

theorem setsAside_eq_true (hplain : Plain w₀ s.writer)
    (hlocate : s.fs.locate (w₀.backupPath s.now) = .ok (.entry (w₀.backupName s.now :: dir) false))
    (hfits : byteLength (w₀.backupName s.now) ≤ maxNameLength) {fs' : FileSystem}
    (haside : SetAside s.fs fs' (name :: dir) (w₀.backupName s.now :: dir) id) :
    s.setsAside fs' = true := by
  have hlookup : fs'.lookup (s.writer.backupPath s.now) =
      .ok (w₀.backupName s.now :: dir, .file id) := by
    rw [hplain.backupPath, lookup, haside.agree.dirs.locate hlocate]
    simp only [find_cons_of_fits hfits, haside.backup]
    rfl
  have hbefore : s.fs.fileAt? (w₀.backupName s.now :: dir) ≠ some id := by
    intro hfile
    have hnode := fileAt?_eq_some_iff.mp hfile
    exact h.backupName_ne s.now (List.cons.inj (h.sound.once _ _ id hnode h.node)).1
  unfold setsAside
  rw [hlookup]
  simpa using hbefore

/-! ## New backups

At `t` the active file is set aside as a backup. Where the system lets it, another one is started with
`bytes`. -/

section SetAside

variable {t : Instant} {new : Nat} {bytes : Bytes}
  (hlocate : s.fs.locate (w₀.backupPath t) = .ok (.entry (w₀.backupName t :: dir) false))
  (haside : SetAside s.fs s'.fs (name :: dir) (w₀.backupName t :: dir) id)
  (hbackups : s'.backups = s.backups ++ [w₀.backupPath t])

include haside

theorem view_of_setAside {t' : Instant} (hne : w₀.backupName t' :: dir ≠ w₀.backupName t :: dir) :
    s'.fs.view (w₀.backupName t' :: dir) = s.fs.view (w₀.backupName t' :: dir) := by
  refine haside.agree.view _ ?_
  rintro (heq | heq)
  · exact h.backupName_ne t' (List.cons.inj heq).1
  · exact hne heq

theorem spares_setAside_iff (hplain : Plain w₀ s.writer) :
    Spares s s' ↔ s.fs.node? (w₀.backupName t :: dir) = none := by
  have hagree := haside.agree
  have hactive := hagree.dirs.locate h.locate
  have hne : w₀.backupName t :: dir ≠ name :: dir := fun heq =>
    h.backupName_ne t (List.cons.inj heq).1
  constructor
  · intro hspares
    by_contra hfound
    have hsame := node?_of_view (hspares _ hfound (by
      rw [hplain.path, hactive]
      simpa using hne.symm))
    rw [haside.backup] at hsame
    exact hne (h.sound.once _ _ id hsame.symm h.node)
  · intro hnone loc hfound hloc
    refine hagree.view loc ?_
    rintro (rfl | rfl)
    · exact hloc (by rw [hplain.path]; exact hactive)
    · exact hfound hnone

include hlocate hbackups

theorem spread_setAside : Spread w₀ fs₀ s' name dir := by
  have hagree := haside.agree
  have hlocate' := hagree.dirs.locate hlocate
  refine ⟨hagree.sound, hagree.dirs.locate h.locate, ?_, ?_⟩
  · intro q hq
    rw [hbackups] at hq
    rcases List.mem_append.mp hq with hq | hq
    · obtain ⟨t', ht', hplace, hfound⟩ := h.backups q hq
      refine ⟨t', ht', hagree.dirs.locate hplace, ?_⟩
      by_cases heq : w₀.backupName t' :: dir = w₀.backupName t :: dir
      · rw [heq, haside.backup]
        exact Option.some_ne_none _
      · rwa [node?_of_view (h.view_of_setAside haside heq)]
    · rw [List.mem_singleton] at hq
      exact ⟨t, hq, hq ▸ hlocate', by rw [haside.backup]; exact Option.some_ne_none _⟩
  · refine (h.grows.mono ?_).trans (hagree.growsOff.mono ?_)
    · rintro loc (hl | ⟨q, hq, hplace⟩)
      · exact Or.inl hl
      · exact Or.inr ⟨q, by rw [hbackups]; exact List.mem_append_left _ hq, hagree.dirs.locate hplace⟩
    · rintro loc (hl | rfl)
      · exact Or.inl hl
      · exact Or.inr ⟨_, by rw [hbackups]; exact List.mem_append_right _ List.mem_cons_self, hlocate'⟩

theorem fresh_setAside_iff :
    Fresh fs₀ s' ↔ Fresh fs₀ s ∧ s.fs.node? (w₀.backupName t :: dir) = none := by
  have hdirs := haside.agree.dirs
  have hlocate' := hdirs.locate hlocate
  unfold Fresh
  rw [hbackups]
  constructor
  · rintro ⟨hnodup, hstart⟩
    obtain ⟨hnodup, _, hapart⟩ := List.nodup_append.mp hnodup
    have hlast := hstart _ (List.mem_append_right _ List.mem_cons_self) _ hlocate'
    refine ⟨⟨hnodup, fun q hq loc hl => hstart q (List.mem_append_left _ hq) loc
      ((h.locate_iff hdirs hq).mpr hl)⟩, ?_⟩
    by_contra hfound
    obtain ⟨node, hnode⟩ := Option.ne_none_iff_exists'.mp hfound
    have hnotMem : w₀.backupPath t ∉ s.backups := fun hmem => hapart _ hmem _ List.mem_cons_self rfl
    rw [h.eq_directory hnotMem hlast hnode] at hnode
    exact haside.replaced hnode
  · rintro ⟨⟨hnodup, hstart⟩, hnone⟩
    have hnotMem : w₀.backupPath t ∉ s.backups := by
      intro hmem
      obtain ⟨t', _, hplace, hfound⟩ := h.backups _ hmem
      rw [hlocate] at hplace
      simp only [Except.ok.injEq, Place.entry.injEq, and_true] at hplace
      exact hfound (hplace ▸ hnone)
    have hlast : fs₀.node? (w₀.backupName t :: dir) = none := by
      by_contra hfound
      exact h.node?_ne_none hfound hnone
    refine ⟨List.nodup_append.mpr ⟨hnodup, List.nodup_singleton _, ?_⟩, ?_⟩
    · rintro q hq _ hq' rfl
      rw [List.mem_singleton] at hq'
      exact hnotMem (hq' ▸ hq)
    · intro q hq loc hloc
      rcases List.mem_append.mp hq with hq | hq
      · exact hstart q hq loc ((h.locate_iff hdirs hq).mp hloc)
      · rw [List.mem_singleton] at hq
        rw [hq, hlocate'] at hloc
        simp only [Except.ok.injEq, Place.entry.injEq, and_true] at hloc
        rwa [← hloc]

theorem tally_setAside (hsum : Tally fs₀ s (name :: dir)) (haccepted : s'.accepted = s.accepted ++ bytes)
    (hcontent : (s'.fs.contentAt? (name :: dir)).getD [] = bytes)
    (hnone : s.fs.node? (w₀.backupName t :: dir) = none) : Tally fs₀ s' (name :: dir) := by
  unfold Tally at hsum ⊢
  rw [h.active.contentAt?, Option.getD_some] at hsum
  have hmoved : heldAt s'.fs s'.fs (w₀.backupPath t) = s.fs.content id := by
    rw [heldAt_of_locate (haside.agree.dirs.locate hlocate)]
    unfold contentAt? fileAt?
    rw [haside.backup]
    exact haside.content
  have hothers : s.backups.flatMap (heldAt s'.fs s'.fs) = s.backups.flatMap (heldAt s.fs s.fs) :=
    h.flatMap_heldAt haside.agree.dirs fun t' ht' =>
      h.view_of_setAside haside fun heq => ht' (heq ▸ hnone)
  rw [hcontent, hbackups, List.flatMap_append, List.flatMap_singleton, hothers, hmoved, haccepted, hsum,
    List.append_assoc]

/-- **A step with a new backup** overwrites nothing exactly if the backup is fresh. -/
theorem proceeds_setAside (htally : Fresh fs₀ s → Tally fs₀ s (name :: dir)) (hplain : Plain w₀ s.writer)
    (hplain' : Plain w₀ s'.writer) (haccepted : s'.accepted = s.accepted ++ bytes)
    (hcontent : (s'.fs.contentAt? (name :: dir)).getD [] = bytes)
    (hphase : (∃ new, Busy w₀ fs₀ s' name dir new) ∨ Stranded w₀ fs₀ s' name dir) :
    Proceeds w₀ fs₀ s s' := by
  have hfresh := h.fresh_setAside_iff hlocate haside hbackups
  refine ⟨⟨hplain', Or.inr ⟨name, dir, hphase, fun hf => ?_⟩⟩, haside.agree.dirs, ?_⟩
  · obtain ⟨hf, hnone⟩ := hfresh.mp hf
    exact h.tally_setAside hlocate haside hbackups (htally hf) haccepted hcontent hnone
  · rw [hfresh, h.spares_setAside_iff haside hplain]

end SetAside

end Busy

/-- **Once a new file was refused** nothing happens any more. -/
theorem Stranded.quiet (h : Stranded w₀ fs₀ s name dir)
    (htally : Fresh fs₀ s → Tally fs₀ s (name :: dir)) (hplain : Plain w₀ s.writer)
    (hplain' : Plain w₀ s'.writer) (hagree : AgreeOff (fun _ => False) s.fs s'.fs)
    (hcurrent : s'.writer.current = none) (hbackups : s'.backups = s.backups)
    (haccepted : s'.accepted = s.accepted) : Proceeds w₀ fs₀ s s' := by
  have hactive : AgreeOff (· = name :: dir) s.fs s'.fs := hagree.mono fun _ => False.elim
  have hview := hagree.view (name :: dir) not_false
  have hfresh := h.fresh_iff hagree.dirs hbackups
  have hstranded : Stranded w₀ fs₀ s' name dir :=
    ⟨h.of_agreeOff hactive hbackups, h.short, (node?_of_view hview).trans h.node,
      hagree.dirs.refusal ▸ h.refusal, hcurrent⟩
  refine ⟨⟨hplain', Or.inr ⟨name, dir, Or.inr hstranded, fun hf => ?_⟩⟩, hagree.dirs, ?_⟩
  · refine h.tally_of_agreeOff hactive hbackups (haccepted.trans (List.append_nil _).symm) ?_
      (htally (hfresh.mp hf))
    rw [contentAt?_of_view hview, List.append_nil]
  · rw [hfresh, and_iff_left (h.spares_of_agreeOff hplain hactive)]

end SizeRun

end LogRouter
