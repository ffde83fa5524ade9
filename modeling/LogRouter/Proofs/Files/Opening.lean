import LogRouter.Proofs.Files.Operations

/-!
# Files that can be opened

* `createParent_stamp`: the time that changes are stamped with has no part in what is created.
* `createParent_depth`: no directory is created deeper than the path takes steps.
* `ActiveFile`: a path leads to a file.
* `FileSystem.OpensNowAt`: a file can be opened at a path to write. One that is there is found, and a
  missing one is created empty (`OpensNowAt.openToAppend`). `FileSystem.OpensAt`, `FileSystem.Opens`: so it
  stays whether there is one or not, since the system refuses nothing there.
* **`OpensAt.beside`**: what is written to one file of a directory leaves the others as open as they
  were.
-/

namespace LogRouter

namespace FileSystem

variable {fs fs' fs₁ : FileSystem} {p q : Path} {name : Name} {dir : Location}

/-! ## The time of changes -/

theorem walk_stamp (fs : FileSystem) (stamp : Int) (slash : Bool) :
    ∀ (parts : List Name) (origin : Location),
      { fs with now := stamp }.walk slash origin parts = fs.walk slash origin parts
  | [], _ => rfl
  | part :: rest, origin => by
    rw [walk.eq_def, walk.eq_def]
    simp only [walk_stamp fs stamp slash rest]
    split_ifs
    · rfl
    · rfl
    · cases rest with
      | nil => rfl
      | cons next more =>
        simp only [walk_stamp fs stamp slash (next :: more)]
        rfl

theorem locate_stamp (fs : FileSystem) (stamp : Int) (p : Path) :
    { fs with now := stamp }.locate p = fs.locate p := by
  unfold locate
  rw [walk_stamp]

theorem isDirectory_stamp (fs : FileSystem) (stamp : Int) (p : Path) :
    { fs with now := stamp }.isDirectory p = fs.isDirectory p := by
  unfold isDirectory lookup
  rw [locate_stamp]
  rfl

theorem createDirectory_stamp (fs : FileSystem) (stamp : Int) (p : Path) :
    { fs with now := stamp }.createDirectory p =
      (fs.createDirectory p).map fun fs => { fs with now := stamp } := by
  have hfind : ∀ loc, { fs with now := stamp }.find loc = fs.find loc := fun _ => rfl
  unfold createDirectory
  rw [locate_stamp]
  rcases fs.locate p with e | (loc | ⟨loc, slash⟩)
  · rfl
  · rfl
  · simp only [hfind]
    rcases fs.find loc with e | _ | node
    · rfl
    · simp only [permit]
      cases fs.refusal? .create loc <;> rfl
    · rfl

theorem createDirectoriesUpTo_stamp (fs : FileSystem) (stamp : Int) :
    ∀ (fuel : Nat) (p : Path), { fs with now := stamp }.createDirectoriesUpTo p fuel =
      ((fs.createDirectoriesUpTo p fuel).1,
        { (fs.createDirectoriesUpTo p fuel).2 with now := stamp })
  | 0, _ => rfl
  | fuel + 1, p => by
    unfold createDirectoriesUpTo
    cases p.parent? with
    | none => rfl
    | some parent =>
      simp only [createDirectory_stamp, isDirectory_stamp,
        createDirectoriesUpTo_stamp fs stamp fuel parent]
      rcases fs.createDirectory p with e | fs₁
      · rcases fs.createDirectoriesUpTo parent fuel with ⟨e₁ | _, fs₁⟩
        · cases e <;> simp only [Except.map] <;> split_ifs <;> rfl
        · cases e <;> simp only [Except.map, createDirectory_stamp, isDirectory_stamp]
          case notFound =>
            rcases fs₁.createDirectory p with e | fs₂
            · simp only
              split_ifs <;> rfl
            · rfl
          all_goals split_ifs <;> rfl
      · rfl

theorem createParent_stamp (fs : FileSystem) (stamp : Int) (p : Path) :
    { fs with now := stamp }.createParent p =
      ((fs.createParent p).1, { (fs.createParent p).2 with now := stamp }) := by
  unfold createParent createDirectories
  cases p.parent? with
  | none => rfl
  | some parent =>
    simp only [createDirectoriesUpTo_stamp]
    split_ifs <;> rfl

/-! ## How deep directories are created -/

theorem length_of_follow : ∀ {parts : List Name} {origin loc : Location},
    fs.follow origin parts = .ok loc → loc.length ≤ origin.length + parts.length
  | [], origin, loc, h => by
    rw [follow, Except.ok.injEq] at h
    simp [h]
  | part :: rest, origin, loc, h => by
    unfold follow at h
    split_ifs at h
    · have := length_of_follow h
      simp only [List.length_cons]
      omega
    · have := length_of_follow h
      simp only [List.length_cons, List.length_tail] at *
      omega
    · split at h
      case h_3 =>
        have := length_of_follow h
        simp only [List.length_cons] at *
        omega
      all_goals cases h

theorem length_of_locate {loc : Location} {slash : Bool} (h : fs.locate p = .ok (.entry loc slash)) :
    loc.length ≤ (fs.originOf p).length + p.steps.length := by
  obtain ⟨front, name, dir, hparts, hname, hfollow, rfl, _⟩ := exists_of_locate_entry h
  rw [← follow_filter] at hfollow
  have hsteps : p.steps = front.filter (· ≠ ['.']) ++ [name] := by
    rw [Path.steps_eq_parts_filter, hparts, List.filter_append]
    simp [hname.ne_current]
  rw [hsteps, List.length_append]
  exact Nat.succ_le_succ (length_of_follow hfollow)

theorem createDirectory_depth (h : fs.createDirectory p = .ok fs') {loc : Location}
    (hloc : fs'.node? loc = some .directory) :
    fs.node? loc = some .directory ∨ loc.length ≤ (fs.originOf p).length + p.steps.length := by
  unfold createDirectory at h
  split at h
  case h_1 => cases h
  case h_2 => cases h
  case h_3 entry slash hlocate =>
    split at h
    case h_1 => cases h
    case h_2 => cases h
    case h_3 hfind =>
      obtain ⟨-, rfl⟩ := permit_eq_ok_iff.mp h
      rw [node?_addEntry (find_eq_ok hfind).2] at hloc
      split_ifs at hloc with heq
      · exact Or.inr (heq ▸ length_of_locate hlocate)
      · exact Or.inl hloc

/-- **No directory is created deeper** than the path takes steps. -/
theorem createDirectoriesUpTo_depth : ∀ (fuel : Nat) {fs : FileSystem} {p : Path}, fs.Sound →
    ∀ {loc : Location}, (fs.createDirectoriesUpTo p fuel).2.node? loc = some .directory →
      fs.node? loc = some .directory ∨ loc.length ≤ (fs.originOf p).length + p.steps.length
  | 0, fs, p, hs, loc, h => Or.inl h
  | fuel + 1, fs, p, hs, loc, h => by
    unfold createDirectoriesUpTo at h
    split at h
    · exact Or.inl h
    · rename_i parent hparent
      obtain ⟨habsolute, hsteps⟩ := Path.parent?_le hparent
      split at h
      · rename_i hcreate
        exact createDirectory_depth hcreate h
      · -- what was created above the directory is not deeper
        have habove := createDirectoriesUpTo_grows fuel parent hs
        have ih : ∀ {loc : Location},
            (fs.createDirectoriesUpTo parent fuel).2.node? loc = some .directory →
            fs.node? loc = some .directory ∨
              loc.length ≤ (fs.originOf parent).length + parent.steps.length :=
          createDirectoriesUpTo_depth fuel hs
        have horigin : fs.originOf parent = fs.originOf p := by unfold originOf; rw [habsolute]
        rw [horigin] at ih
        have hweak : ∀ {loc : Location},
            (fs.createDirectoriesUpTo parent fuel).2.node? loc = some .directory →
            fs.node? loc = some .directory ∨ loc.length ≤ (fs.originOf p).length + p.steps.length :=
          fun hl => (ih hl).imp_right fun hle => hle.trans (Nat.add_le_add_left hsteps _)
        split at h
        · rename_i heq
          rw [heq] at hweak
          exact hweak h
        · rename_i fs₁ heq
          rw [heq] at hweak habove
          split at h
          · rename_i hcreate
            have horigin₁ : fs₁.originOf p = fs.originOf p := by unfold originOf; rw [habove.2.cwd]
            rcases createDirectory_depth hcreate h with hold | hdepth
            · exact hweak hold
            · exact Or.inr (horigin₁ ▸ hdepth)
          · split_ifs at h <;> exact hweak h
      · split_ifs at h <;> exact Or.inl h

/-- **The directory of a file** is not created deeper than its path takes steps. -/
theorem createParent_depth (hs : fs.Sound) (hq : p.parent? = some q) {loc : Location}
    (hloc : (fs.createParent p).2.node? loc = some .directory) : fs.node? loc = some .directory ∨
      q.chars ≠ [] ∧ loc.length ≤ (fs.originOf q).length + q.steps.length := by
  unfold createParent at hloc
  rw [hq] at hloc
  simp only at hloc
  split_ifs at hloc with hnil
  · exact Or.inl hloc
  · exact (createDirectoriesUpTo_depth _ hs hloc).imp_right fun hdepth => ⟨hnil, hdepth⟩

end FileSystem

open FileSystem

/-! ## Files that are there -/

variable {fs fs' fs₁ : FileSystem} {p q : Path} {name : Name} {dir : Location} {id id' : Nat}

/-- The path leads to a file with the given name in the given directory. -/
structure ActiveFile (p : Path) (fs : FileSystem) (name : Name) (dir : Location) (id : Nat) : Prop where
  sound : fs.Sound
  locate : fs.locate p = .ok (.entry (name :: dir) false)
  short : byteLength name ≤ maxNameLength
  node : fs.node? (name :: dir) = some (.file id)

namespace ActiveFile

theorem of_dirsKept (h : ActiveFile p fs name dir id) (hs : fs'.Sound) (hdirs : DirsKept fs fs')
    (hnode : fs'.node? (name :: dir) = some (.file id')) : ActiveFile p fs' name dir id' :=
  ⟨hs, hdirs.locate h.locate, h.short, hnode⟩

theorem contentAt? (h : ActiveFile p fs name dir id) :
    fs.contentAt? (name :: dir) = some (fs.content id) := by
  unfold FileSystem.contentAt? fileAt?
  rw [h.node]
  rfl

theorem lookup (h : ActiveFile p fs name dir id) : fs.lookup p = .ok (name :: dir, .file id) := by
  unfold FileSystem.lookup
  rw [h.locate]
  simp only [find_cons_of_fits h.short, h.node, Bool.false_eq_true, if_false]

theorem of_view (h : ActiveFile p fs name dir id) (hs : fs'.Sound) (hdirs : DirsKept fs fs')
    (hview : fs'.view (name :: dir) = fs.view (name :: dir)) : ActiveFile p fs' name dir id :=
  h.of_dirsKept hs hdirs ((node?_of_view hview).trans h.node)

theorem stamp (h : ActiveFile p fs name dir id) (stamp : Int) :
    ActiveFile p { fs with now := stamp } name dir id :=
  have hagree : AgreeOff (fun _ => False) fs { fs with now := stamp } := .stamp h.sound stamp
  h.of_view hagree.sound hagree.dirs (hagree.view _ not_false)

end ActiveFile

namespace FileSystem

/-! ## Files that can be opened -/

/-- The path leads to the given place once its directory was created, and there is a file that can be
opened, or one can be created. -/
structure OpensNowAt (fs : FileSystem) (p : Path) (fs₁ : FileSystem) (name : Name) (dir : Location) :
    Prop where
  parent : fs.createParent p = (.ok (), fs₁)
  locate : fs₁.locate p = .ok (.entry (name :: dir) false)
  short : byteLength name ≤ maxNameLength
  room : (fs₁.node? (name :: dir) = none ∧ fs₁.refusal? .create (name :: dir) = none) ∨
    ∃ id, fs₁.node? (name :: dir) = some (.file id) ∧ fs₁.refusal? .write (name :: dir) = none

/-- The path leads to the given place once its directory was created, there is room for a file or one
is there, and the system refuses nothing there. -/
structure OpensAt (fs : FileSystem) (p : Path) (fs₁ : FileSystem) (name : Name) (dir : Location) :
    Prop where
  parent : fs.createParent p = (.ok (), fs₁)
  locate : fs₁.locate p = .ok (.entry (name :: dir) false)
  short : byteLength name ≤ maxNameLength
  room : fs₁.node? (name :: dir) = none ∨ ∃ id, fs₁.node? (name :: dir) = some (.file id)
  allowed : ∀ access, fs₁.refusal? access (name :: dir) = none

/-- A file can be opened at the path to write: its directory can be created, its name is valid,
neither a directory nor a full device has it, and the system does not refuse it. -/
def Opens (fs : FileSystem) (p : Path) : Prop := ∃ fs₁ name dir, fs.OpensAt p fs₁ name dir

theorem OpensAt.now (h : fs.OpensAt p fs₁ name dir) : fs.OpensNowAt p fs₁ name dir where
  parent := h.parent
  locate := h.locate
  short := h.short
  room := h.room.imp (⟨·, h.allowed _⟩) fun ⟨id, hid⟩ => ⟨id, hid, h.allowed _⟩

theorem opensAt_of_active (h : ActiveFile p fs name dir id)
    (hallowed : ∀ access, fs.refusal? access (name :: dir) = none) : fs.OpensAt p fs name dir :=
  ⟨createParent_existing h.locate, h.locate, h.short, Or.inr ⟨id, h.node⟩, hallowed⟩

theorem OpensAt.stamp (h : fs.OpensAt p fs₁ name dir) (stamp : Int) :
    { fs with now := stamp }.OpensAt p { fs₁ with now := stamp } name dir := by
  refine ⟨?_, ?_, h.short, h.room, h.allowed⟩
  · rw [createParent_stamp, h.parent]
  · rw [locate_stamp, h.locate]

theorem createParent_congr (fs : FileSystem) (h : p.parent? = q.parent?) :
    fs.createParent p = fs.createParent q := by
  unfold createParent
  rw [h]

theorem content_addFile (fs : FileSystem) (loc : Location) :
    (fs.addFile loc).1.content fs.stored.length = [] := by
  simp [content, stored?, addFile, addEntry]

/-- **Opening a file** finds its content, or creates it empty. -/
theorem OpensNowAt.openToAppend (h : fs.OpensNowAt p fs₁ name dir) (hs : fs.Sound) :
    ∃ id fs₂, fs₁.openToAppend p = .ok (.appending id, fs₂) ∧ ActiveFile p fs₂ name dir id ∧
      AgreeOff (· = name :: dir) fs₁ fs₂ ∧
      fs₂.content id = (fs.contentAt? (name :: dir)).getD [] := by
  obtain ⟨hs₁, hgrows⟩ := createParent_grows hs p
  rw [h.parent] at hs₁ hgrows
  have hsame : fs₁.contentAt? (name :: dir) = fs.contentAt? (name :: dir) :=
    (hgrows.growsOff (P := fun _ => False) hs₁).contentAt? not_false
  obtain ⟨_, _, ⟨rfl, rfl⟩, hname, hdir⟩ := hs₁.of_locate h.locate
  rw [← hsame]
  rcases h.room with ⟨hnone, hpermit⟩ | ⟨id, hid, hpermit⟩
  · have hagree := addFile_agreeOff hs₁ hnone hname hdir
    have hnew : (fs₁.addFile (name :: dir)).1.node? (name :: dir) =
        some (.file fs₁.stored.length) := (node?_addEntry hnone _ _).trans (if_pos rfl)
    refine ⟨fs₁.stored.length, (fs₁.addFile (name :: dir)).1, ?_,
      ⟨hagree.sound, hagree.dirs.locate h.locate, h.short, hnew⟩, hagree, ?_⟩
    · unfold FileSystem.openToAppend openForWriting
      rw [h.locate]
      simp only [Bool.false_eq_true, if_false, find_cons_of_fits h.short, hnone,
        permit_of_none hpermit]
      rfl
    · rw [content_addFile]
      simp [FileSystem.contentAt?, fileAt?, hnone]
  · have hfile : ActiveFile p fs₁ name dir id := ⟨hs₁, h.locate, h.short, hid⟩
    refine ⟨id, fs₁, ?_, hfile, AgreeOff.refl hs₁, by rw [hfile.contentAt?]; rfl⟩
    unfold FileSystem.openToAppend openForWriting
    rw [h.locate]
    simp only [Bool.false_eq_true, if_false, find_cons_of_fits h.short, hid, permit_of_none hpermit]

/-- **What happens to one file of a directory** leaves the others as open as they were. -/
theorem OpensAt.beside {other : Name} {dir' : Location} (h : fs.OpensAt q fs₁ other dir')
    (hagree : AgreeOff (· = name :: dir) fs₁ fs') (hnode : fs'.node? (name :: dir) = some (.file id)) :
    fs'.OpensAt q fs' other dir' := by
  have hlocate := hagree.dirs.locate h.locate
  refine ⟨createParent_existing hlocate, hlocate, h.short, ?_, hagree.dirs.refusal ▸ h.allowed⟩
  by_cases hsame : other :: dir' = name :: dir
  · exact Or.inr ⟨id, by rw [hsame, hnode]⟩
  · rw [node?_of_view (hagree.view _ hsame)]
    exact h.room

end FileSystem

end LogRouter
