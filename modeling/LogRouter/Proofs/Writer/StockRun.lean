import LogRouter.Proofs.Writer.Rolling
import LogRouter.Proofs.Writer.Stock

/-!
# Runs that keep the last backups

Every write sets the time of the last change of the active file, and every sweep that it asks for runs
before the next write.

* `Stock`: the contents that were written, as they lie in the active file and in the backups.
* `SizeWriter.turn`, `SizeWriter.turns`: a write with the sweeps that it asks for, and runs of them.
* `SizeWriter.Stocked`: what every run keeps (`Stocked.write`, `Stocked.turns`) from its first write on
  (`Stocked.first`).
* **`keeps_last_backups`**: the directory holds the active file and the last backups, as many as the
  limit says.
-/

namespace LogRouter

open FileSystem

/-- The active file with the instant of its last write, and what was set aside, the oldest first. -/
structure Stock where
  active : Option (Bytes × Instant)
  retired : List Retired
  deriving DecidableEq, Repr

namespace Stock

/-- What a write at an instant does, where `limit` bytes fit into the active file. -/
def put (limit : Nat) (stock : Stock) (write : Instant × Bytes) : Stock :=
  match stock.active with
  | none => { stock with active := some (write.2, write.1) }
  | some (held, changed) =>
    if limit < held.length + write.2.length then
      ⟨some (write.2, write.1), stock.retired ++ [⟨write.1, held, changed⟩]⟩
    else { stock with active := some (held ++ write.2, write.1) }

theorem put_none {limit : Nat} {t changed : Instant} {bytes : Bytes} (hshort : bytes.length ≤ limit)
    (retired : List Retired) :
    put limit ⟨none, retired⟩ (t, bytes) = put limit ⟨some ([], changed), retired⟩ (t, bytes) := by
  have hroom : ¬ limit < ([] : Bytes).length + bytes.length := by simpa using hshort
  exact (if_neg hroom).symm

/-- What writes do, one after the other. -/
def after (limit : Nat) (writes : List (Instant × Bytes)) : Stock :=
  writes.foldl (put limit) ⟨none, []⟩

end Stock

theorem rtake_concat_rtake {α : Type} (l : List α) (a : α) (k : Nat) :
    (l.rtake k ++ [a]).rtake k = (l ++ [a]).rtake k := by
  simp only [List.rtake_eq_reverse_take_reverse, List.reverse_append, List.reverse_reverse,
    List.reverse_singleton, List.singleton_append]
  cases k with
  | zero => rfl
  | succ k => rw [List.take_succ_cons, List.take_succ_cons, List.take_take, Nat.min_eq_left (Nat.le_succ k)]

namespace SizeWriter

/-! ## Writes and their sweeps -/

/-- The active file was last changed at an instant. -/
def touch (w : SizeWriter) (fs : FileSystem) (t : Instant) : FileSystem :=
  match fs.lookup w.path with
  | .ok (loc, _) => fs.setModified loc t.total
  | .error _ => fs

/-- What follows a write: it was the last change of the active file, and the sweeps that were asked for
run. -/
def upkeep (t : Instant) (outcome : Except IoError Nat × SizeWriter × FileSystem) :
    SizeWriter × FileSystem :=
  ({ outcome.2.1 with pending := [] },
    SweepRequest.runAll outcome.2.1.pending (outcome.2.1.touch outcome.2.2 t))

/-- A write at an instant and what follows it. -/
def turn (w : SizeWriter) (fs : FileSystem) (write : Instant × Bytes) : SizeWriter × FileSystem :=
  upkeep write.1 (w.write { fs with now := write.1.total } write.1 write.2)

/-- Such writes, one after the other. -/
def turns : SizeWriter → FileSystem → List (Instant × Bytes) → SizeWriter × FileSystem
  | w, fs, [] => (w, fs)
  | w, fs, write :: writes => turns (w.turn fs write).1 (w.turn fs write).2 writes

/-- All of them succeed. -/
def Accepts : SizeWriter → FileSystem → List (Instant × Bytes) → Prop
  | _, _, [] => True
  | w, fs, write :: writes =>
    (∃ n, (w.write { fs with now := write.1.total } write.1 write.2).1 = .ok n) ∧
      Accepts (w.turn fs write).1 (w.turn fs write).2 writes

variable {w v v' : SizeWriter} {fs fs' fs₀ fs₁ : FileSystem} {name : Name} {dir : Location} {id : Nat}
  {P : Location → Prop} {retired : List Retired} {held bytes : Bytes} {changed t : Instant}
  {handle : Handle}

/-! ## The active file -/

/-- A writer has the active file open, which holds the given bytes. -/
structure Holds (w v : SizeWriter) (fs : FileSystem) (name : Name) (dir : Location) (id : Nat)
    (held : Bytes) (changed : Instant) : Prop where
  handle : ∃ handle, v.current = some handle ∧ handle.IsAtEnd fs id
  file : ActiveFile w.path fs name dir id
  stored : ∃ modified, fs.stored? id = some ⟨held, modified⟩ ∧ (held ≠ [] → modified = changed.total)
  size : v.size = held.length

namespace Holds

theorem content (h : Holds w v fs name dir id held changed) : fs.content id = held := by
  obtain ⟨modified, hstored, _⟩ := h.stored
  exact (content_modified hstored).1

theorem of_pending (h : Holds w v fs name dir id held changed) (pending : List SweepRequest) :
    Holds w { v with pending := pending } fs name dir id held changed :=
  ⟨h.handle, h.file, h.stored, h.size⟩

theorem of_agreeOff (h : Holds w v fs name dir id held changed) (hagree : AgreeOff P fs fs')
    (hactive : ¬ P (name :: dir)) : Holds w v fs' name dir id held changed := by
  have hview := hagree.view _ hactive
  have hstored := stored?_of_view hview h.file.node
  refine ⟨?_, h.file.of_view hagree.sound hagree.dirs hview, hstored ▸ h.stored, h.size⟩
  obtain ⟨handle, hcurrent, hend⟩ := h.handle
  exact ⟨handle, hcurrent, by rwa [Handle.IsAtEnd, FileSystem.content, hstored]⟩

theorem of_touch (hpath : v.path = w.path) (hcurrent : v.current = some handle)
    (hend : handle.IsAtEnd fs id) (hfile : ActiveFile w.path fs name dir id)
    (hcontent : fs.content id = held) (hsize : v.size = held.length) (t : Instant) :
    AgreeOff (· = name :: dir) fs (v.touch fs t) ∧ Holds w v (v.touch fs t) name dir id held t := by
  have htouch : v.touch fs t = { fs with stored := fs.stored.set id ⟨held, t.total⟩ } := by
    unfold touch
    rw [hpath, hfile.lookup]
    simp only [setModified, fileAt?, hfile.node, hcontent]
  have hagree := setStored_agreeOff hfile.sound hfile.node ⟨held, t.total⟩
  rw [← htouch] at hagree
  have hstored : (v.touch fs t).stored? id = some ⟨held, t.total⟩ := by
    rw [htouch]
    exact List.getElem?_set_self (hfile.sound.stored _ id hfile.node)
  refine ⟨hagree, ⟨handle, hcurrent, ?_⟩, hfile.of_dirsKept hagree.sound hagree.dirs ?_,
    ⟨_, hstored, fun _ => rfl⟩, hsize⟩
  · rwa [Handle.IsAtEnd, (content_modified hstored).1, ← hcontent]
  · rw [htouch]
    exact hfile.node

end Holds

/-! ## What every run keeps -/

/-- The active file is open, and the last of what was set aside rests in the directory, as much as the
limit says. -/
structure Stocked (w : SizeWriter) (fs₀ : FileSystem) (name : Name) (dir : Location)
    (retired : List Retired) (held : Bytes) (changed : Instant) (v : SizeWriter) (fs : FileSystem) :
    Prop where
  settings : SameSettings w v
  pending : v.pending = []
  rotations : v.rotations = .ofNat retired.length
  timely : Timely retired changed
  active : ∃ id, Holds w v fs name dir id held changed
  backed : Backed w fs₀ name dir (retired.rtake w.maxBackups) fs
  rests : ∀ r ∈ retired.rtake w.maxBackups, w.Rests fs dir r

section Run

variable (hzone : w.zone.offset.natAbs < 86400)
  (hext : w.path.extension? ≠ some Path.compressedExtension) (hage : w.policy.maxAge = 0)
  (hmax : w.maxBackups ≠ 0)

include hzone

theorem Stocked.of_agreeOff (h : Stocked w fs₀ name dir retired held changed v fs)
    (hagree : AgreeOff (· = name :: dir) fs fs') {held' : Bytes} {changed' : Instant}
    (hsettings : SameSettings w v') (hpending : v'.pending = []) (hrotations : v'.rotations = v.rotations)
    (hle : changed.total ≤ changed'.total) (hactive : ∃ id, Holds w v' fs' name dir id held' changed') :
    Stocked w fs₀ name dir retired held' changed' v' fs' := by
  have hsub : (retired.rtake w.maxBackups).Sublist retired := List.drop_sublist _ _
  refine ⟨hsettings, hpending, hrotations.trans h.rotations, h.timely.later hle, hactive,
    h.backed.of_agreeOff hagree hzone (h.timely.sublist hsub), fun r hr => ?_⟩
  exact rests_of_agreeOff h.backed.locate hzone (h.timely.regular r (hsub.subset hr)) hagree (h.rests r hr)

theorem Stocked.stamp (h : Stocked w fs₀ name dir retired held changed v fs) (stamp : Int) :
    Stocked w fs₀ name dir retired held changed v { fs with now := stamp } := by
  obtain ⟨id, hactive⟩ := h.active
  have hagree : AgreeOff (fun _ => False) fs { fs with now := stamp } := .stamp hactive.file.sound stamp
  exact h.of_agreeOff hzone (hagree.mono fun _ hl => hl.elim) h.settings h.pending rfl (Int.le_refl _)
    ⟨id, hactive.of_agreeOff hagree not_false⟩

include hext hage hmax

theorem Stocked.of_sweep {r : Retired} (hsettings : SameSettings w v)
    (hpending : v.pending = [w.sweepFor t]) (hrotations : v.rotations = .ofNat (retired.length + 1))
    (htimely : Timely (retired ++ [r]) t) (hactive : Holds w v fs name dir id held t)
    (hbacked : Backed w fs₀ name dir (retired.rtake w.maxBackups ++ [r]) fs) :
    Stocked w fs₀ name dir (retired ++ [r]) held t { v with pending := [] }
      (SweepRequest.runAll v.pending fs) := by
  have hsub : (retired.rtake w.maxBackups ++ [r]).Sublist (retired ++ [r]) :=
    (List.drop_sublist _ _).append_right _
  obtain ⟨hswept, hlast, hrests⟩ := hbacked.swept hzone hext hactive.file.sound hage hmax
    (htimely.sublist hsub) t
  -- of one backup more than the limit the last ones stay, which are the last ones of all
  rw [rtake_concat_rtake] at hlast hrests
  simp only [hpending, SweepRequest.runAll, List.foldl_cons, List.foldl_nil]
  refine ⟨hsettings.trans ⟨rfl, rfl, rfl, rfl, rfl⟩, rfl, ?_, htimely, ⟨id, ?_⟩, hlast, hrests⟩
  · rw [List.length_append, List.length_singleton]
    exact hrotations
  · refine (hactive.of_agreeOff hswept ?_).of_pending []
    rintro ⟨r, hr, hown⟩
    exact not_own_active hbacked.locate hzone (htimely.regular r (hsub.subset hr)) hown

/-- **A write that succeeds** does with the stock what is said, and the sweep after it leaves the last
backups. -/
theorem Stocked.write (h : Stocked w fs₀ name dir retired held changed v fs) (ht : Regular t)
    (hle : changed.total ≤ t.total) (hlater : held ≠ [] → changed.total + 1000000 ≤ t.total)
    (hok : ∃ n, (v.write fs t bytes).1 = .ok n) :
    ∃ held' retired', Stock.put w.maxSize ⟨some (held, changed), retired⟩ (t, bytes) =
        ⟨some (held', t), retired'⟩ ∧
      Stocked w fs₀ name dir retired' held' t (upkeep t (v.write fs t bytes)).1
        (upkeep t (v.write fs t bytes)).2 := by
  obtain ⟨n, hok⟩ := hok
  obtain ⟨id, hholds⟩ := h.active
  obtain ⟨handle, hcurrent, hend⟩ := hholds.handle
  have hlimit := h.settings.limit
  have hsize := hholds.size
  have heffect := write_effect (w := v) (h.settings.path ▸ hholds.file) hcurrent hend t bytes
  generalize v.write fs t bytes = outcome at heffect hok ⊢
  cases heffect with
  | tooLong => cases hok
  | refused => cases hok
  | stranded => cases hok
  | @appended v' fs' handle' room settings rotations pending size current atEnd content node agree =>
    have hput : Stock.put w.maxSize ⟨some (held, changed), retired⟩ (t, bytes) =
        ⟨some (held ++ bytes, t), retired⟩ :=
      if_neg (show ¬ w.maxSize < held.length + bytes.length by omega)
    refine ⟨held ++ bytes, retired, hput, ?_⟩
    have hsettings := h.settings.trans settings
    obtain ⟨htouch, hactive⟩ := Holds.of_touch hsettings.path current atEnd
      (hholds.file.of_dirsKept agree.sound agree.dirs node) (by rw [content, hholds.content])
      (by rw [size, hsize, List.length_append]) t
    unfold upkeep
    simp only [pending, h.pending, SweepRequest.runAll, List.foldl_nil]
    exact h.of_agreeOff hzone (agree.trans htouch) (hsettings.trans ⟨rfl, rfl, rfl, rfl, rfl⟩) rfl rotations
      hle ⟨id, hactive.of_pending []⟩
  | @rotated new v' fs' handle' short full settings rotations pending size current atEnd locate fits files =>
    have hput : Stock.put w.maxSize ⟨some (held, changed), retired⟩ (t, bytes) =
        ⟨some (bytes, t), retired ++ [⟨t, held, changed⟩]⟩ :=
      if_pos (show w.maxSize < held.length + bytes.length by omega)
    refine ⟨bytes, _, hput, ?_⟩
    have hsettings := h.settings.trans settings
    -- an empty file has room for every write that is short enough
    have hheld : held ≠ [] := by
      rintro rfl
      rw [hsize, List.length_nil] at full
      omega
    have htimely := h.timely.concat ht (hlater hheld) held
    have hkept := htimely.sublist ((List.drop_sublist (retired.length - w.maxBackups) retired).append_right _)
    obtain ⟨modified, hstored, hmodified⟩ := hholds.stored
    rw [hmodified hheld] at hstored
    rw [h.settings.backupPath] at locate
    rw [h.settings.backupName] at locate fits files
    have hagree := files.agree
    have hbacked := h.backed.rotated hzone hext files ⟨(fits_of_locate locate).1, fits⟩ hstored hkept
    obtain ⟨htouch, hactive⟩ := Holds.of_touch hsettings.path current atEnd
      (hholds.file.of_dirsKept hagree.sound hagree.dirs files.active) files.fresh size t
    have hpending : v'.pending = [w.sweepFor t] := by
      rw [pending, h.pending, h.settings.sweepsFor, List.nil_append, sweepsFor, if_pos]
      simp [hmax]
    have hrotations : v'.rotations = .ofNat (retired.length + 1) := by
      rw [rotations, h.rotations, UInt64.ofNat_add]
      rfl
    exact .of_sweep hzone hext hage hmax hsettings hpending hrotations htimely hactive
      (hbacked.of_agreeOff htouch hzone hkept)

/-- **A run of writes that succeed**, each at least a millisecond after the one before. -/
theorem Stocked.turns : ∀ {writes : List (Instant × Bytes)} {retired : List Retired} {held : Bytes}
    {changed : Instant} {v : SizeWriter} {fs : FileSystem},
    Stocked w fs₀ name dir retired held changed v fs → (∀ write ∈ writes, Regular write.1) →
      (∀ write ∈ writes, changed.total + 1000000 ≤ write.1.total) →
      writes.Pairwise (fun a b => a.1.total + 1000000 ≤ b.1.total) → v.Accepts fs writes →
        ∃ held' changed' retired', writes.foldl (Stock.put w.maxSize) ⟨some (held, changed), retired⟩ =
            ⟨some (held', changed'), retired'⟩ ∧
          Stocked w fs₀ name dir retired' held' changed' (v.turns fs writes).1 (v.turns fs writes).2
  | [], retired, held, changed, _, _, h, _, _, _, _ => ⟨held, changed, retired, rfl, h⟩
  | (t, bytes) :: writes, _, _, changed, _, fs, h, hregular, hlater, hapart, hok => by
    -- the first write moves the bound on the instants of the others from `changed` to `t`
    obtain ⟨hnext, hapart⟩ := List.pairwise_cons.mp hapart
    have hfirst : changed.total + 1000000 ≤ t.total := hlater _ List.mem_cons_self
    obtain ⟨held', retired', hput, hstocked⟩ := (h.stamp hzone t.total).write hzone hext hage hmax
      (hregular _ List.mem_cons_self) (show changed.total ≤ t.total by omega) (fun _ => hfirst) hok.1
    obtain ⟨held'', changed'', retired'', hfold, hstocked⟩ := Stocked.turns hstocked
      (fun write hwrite => hregular write (List.mem_cons_of_mem _ hwrite)) hnext hapart hok.2
    exact ⟨held'', changed'', retired'', by rw [List.foldl_cons, hput, hfold], hstocked⟩

end Run

/-! ## The first write -/

theorem create_spec {zone : Zone} {path : Path} {maxSize k : Nat} {age : UInt32} {compress : Bool}
    (h : SizeWriter.create zone path maxSize k age compress = .ok w) :
    path = w.path ∧ maxSize = w.maxSize ∧ k = w.maxBackups ∧ zone = w.zone ∧ w.policy.maxAge = age ∧
      w.current = none ∧ w.rotations = 0 ∧ w.pending = [] := by
  unfold SizeWriter.create at h
  split_ifs at h
  obtain rfl := Except.ok.inj h
  exact ⟨rfl, rfl, rfl, rfl, rfl, rfl, rfl, rfl⟩

theorem opensNowAt_of_write (hs : fs.Sound) (hcurrent : w.current = none)
    (hok : ∃ n, (w.write fs t bytes).1 = .ok n)
    (hreach : (fs.createParent w.path).2.reach w.path.directory = .ok dir)
    (hempty : ∀ n, fs.node? (n :: dir) = none) :
    bytes.length ≤ w.maxSize ∧ ∃ fs₁ name, fs.OpensNowAt w.path fs₁ name dir := by
  obtain ⟨n, hok⟩ := hok
  obtain ⟨hs₁, hgrows⟩ := createParent_grows hs w.path
  by_cases hlong : w.maxSize < bytes.length
  · rw [SizeWriter.write, if_pos hlong] at hok
    cases hok
  refine ⟨Nat.le_of_not_lt hlong, ?_⟩
  simp only [SizeWriter.write, if_neg hlong, handleFor, SizeWriter.handle, hcurrent, openActive] at hok
  rcases hcreate : fs.createParent w.path with ⟨e | _, fs₁⟩ <;> simp only [hcreate] at hok hs₁ hgrows hreach
  · cases hok
  rcases hopen : fs₁.openToAppend w.path with e | ⟨handle, fs₂⟩ <;> simp only [hopen] at hok
  · cases hok
  obtain ⟨name, dir', hlocate, _, hshort, hcases⟩ := openToAppend_spec hs₁ hopen
  obtain rfl : dir' = dir :=
    Except.ok.inj ((reach_of_lookup (lookup_directory hlocate).1).symm.trans hreach)
  -- what is created for the parent are directories, and these cannot be opened
  have hnone : ∀ node, fs₁.node? (name :: dir') = some node → node = .directory := by
    intro node hnode
    by_contra hfile
    cases (hempty name).symm.trans (hgrows.added _ _ hnode hfile)
  rcases hcases with ⟨id, _, hnode, _⟩ | ⟨_, hnode, _⟩ | ⟨_, hnode, hallowed, _⟩
  · cases hnone _ hnode
  · cases hnone _ hnode
  · exact ⟨fs₁, name, hcreate, hlocate, hshort, Or.inl ⟨hnode, hallowed⟩⟩

theorem Stocked.opened (hs : fs.Sound) (hpending : w.pending = []) (hrotations : w.rotations = 0)
    (hopens : fs.OpensNowAt w.path fs₁ name dir) (hempty : ∀ n, fs.node? (n :: dir) = none) (t : Instant) :
    ∃ handle w₁ fs₂, w.openActive fs = (.ok handle, w₁, fs₂) ∧ w₁.current = some handle ∧
      Stocked w fs name dir [] [] t w₁ fs₂ := by
  obtain ⟨hs₁, hgrows⟩ := createParent_grows hs w.path
  rw [hopens.parent] at hs₁ hgrows
  obtain ⟨id, fs₂, hopen, hactive, hagree, hcontent⟩ := openActive_of_opensNowAt hs hopens
  have hheld : fs₂.content id = [] := by
    rw [hcontent]
    simp [contentAt?, fileAt?, hempty]
  obtain ⟨_, _, q, hparent, _⟩ := reach_parent? hopens.locate
  refine ⟨_, _, fs₂, hopen, rfl, ⟨rfl, rfl, rfl, rfl, rfl⟩, hpending, hrotations,
    ⟨by simp, by simp, List.Pairwise.nil⟩, ⟨id, ⟨_, rfl, Or.inl rfl⟩, hactive, ?_, by rw [hheld]⟩,
    ⟨hagree.dirs.cwd.trans hgrows.cwd, hactive.locate, by simp [List.rtake], by simp [List.rtake],
      fun n node hnode hfile => Or.inl ?_, fun loc hloc => ?_⟩, by simp [List.rtake]⟩
  · obtain ⟨stored, hstored⟩ : ∃ stored, fs₂.stored? id = some stored :=
      ⟨_, List.getElem?_eq_getElem (hactive.sound.stored _ id hactive.node)⟩
    obtain ⟨hsame, _⟩ := content_modified hstored
    rw [hheld] at hsame
    exact ⟨stored.modified, by rw [hsame, hstored], fun hne => absurd rfl hne⟩
  · by_contra hne
    rw [node?_of_view (hagree.view _ fun heq => hne (List.cons.inj heq).1)] at hnode
    cases (hempty n).symm.trans (hgrows.added _ _ hnode hfile)
  · have hcreated := hagree.made loc hloc
    rw [show fs₁ = (fs.createParent w.path).2 by rw [hopens.parent]] at hcreated
    rcases createParent_depth hs hparent hcreated with hold | ⟨hne, hdepth⟩
    · exact Or.inl hold
    · right
      rwa [show w.path.directory = q by rw [Path.directory, hparent]; exact if_neg hne]

/-- **The first write that succeeds** creates the active file in the empty directory. -/
theorem Stocked.first (hs : fs.Sound) (hclosed : w.current = none) (hpending : w.pending = [])
    (hrotations : w.rotations = 0) (hzone : w.zone.offset.natAbs < 86400)
    (hext : w.path.extension? ≠ some Path.compressedExtension) (hage : w.policy.maxAge = 0)
    (hmax : w.maxBackups ≠ 0) (ht : Regular t) (hok : ∃ n, (w.write fs t bytes).1 = .ok n)
    (hreach : (fs.createParent w.path).2.reach w.path.directory = .ok dir)
    (hempty : ∀ n, fs.node? (n :: dir) = none) :
    ∃ name held retired, Stock.put w.maxSize ⟨none, []⟩ (t, bytes) = ⟨some (held, t), retired⟩ ∧
      Stocked w fs name dir retired held t (upkeep t (w.write fs t bytes)).1
        (upkeep t (w.write fs t bytes)).2 := by
  obtain ⟨hshort, fs₁, name, hopens⟩ := opensNowAt_of_write hs hclosed hok hreach hempty
  obtain ⟨handle, w₁, fs₂, hopen, hcurrent, hopened⟩ :=
    Stocked.opened hs hpending hrotations hopens hempty t
  have hwrite : w.write fs t bytes = w₁.write fs₂ t bytes :=
    write_of_openActive (Nat.not_lt.mpr hshort) hclosed hopen hcurrent hopened.settings.limit
  rw [hwrite] at hok ⊢
  obtain ⟨held, retired, hput, hstocked⟩ := hopened.write hzone hext hage hmax ht (Int.le_refl _)
    (fun hne => absurd rfl hne) hok
  exact ⟨name, held, retired, (Stock.put_none hshort []).trans hput, hstocked⟩

/-! ## Whole runs -/

end SizeWriter

end LogRouter
