import LogRouter.Proofs.Files.Sound

/-!
# What the operations change

* `Grows`: nothing but directories was added. Creating directories does no more
  (`createParent_grows`), and nothing where the directory exists (`createDirectories_existing`).
* `AgreeOff`: the entries away from some locations are as they were, and no directory was lost or
  made.
* `GrowsOff`: both at once.
* **`openForWriting_spec`**, **`createNew_spec`**, **`remove_spec`**, **`rename_spec`**: what these
  operations do where they succeed.
-/

namespace LogRouter

namespace FileSystem

variable {fs fs' : FileSystem}

/-! ## Places of entries -/

theorem Sound.of_locate (hs : fs.Sound) {p : Path} {loc : Location} {slash : Bool}
    (h : fs.locate p = .ok (.entry loc slash)) :
    ∃ name dir, loc = name :: dir ∧ name.IsEntry ∧ fs.node? dir = some .directory := by
  obtain ⟨front, name, dir, _, hname, hfollow, hloc, _⟩ := exists_of_locate_entry h
  exact ⟨name, dir, hloc, hname,
    node?_of_follow (hs.origin_directory p) hs.tail_directory hfollow⟩

/-! ## Creating directories -/

/-- Nothing but directories was added. -/
structure Grows (fs fs' : FileSystem) : Prop where
  cwd : fs'.cwd = fs.cwd
  refusal : fs'.refusal? = fs.refusal?
  stored : fs'.stored = fs.stored
  kept : ∀ loc node, fs.node? loc = some node → fs'.node? loc = some node
  added : ∀ loc node, fs'.node? loc = some node → node ≠ .directory → fs.node? loc = some node

namespace Grows

theorem refl (fs : FileSystem) : Grows fs fs := ⟨rfl, rfl, rfl, fun _ _ h => h, fun _ _ h _ => h⟩

theorem trans {fs₁ fs₂ fs₃ : FileSystem} (h : Grows fs₁ fs₂) (h' : Grows fs₂ fs₃) :
    Grows fs₁ fs₃ where
  cwd := h'.cwd.trans h.cwd
  refusal := h'.refusal.trans h.refusal
  stored := h'.stored.trans h.stored
  kept loc node hn := h'.kept loc node (h.kept loc node hn)
  added loc node hn hd := h.added loc node (h'.added loc node hn hd) hd

theorem dirsKept (h : Grows fs fs') : DirsKept fs fs' :=
  ⟨h.cwd, h.refusal, fun loc => h.kept loc .directory⟩

end Grows

theorem createDirectory_grows (hs : fs.Sound) {p : Path} (h : fs.createDirectory p = .ok fs') :
    fs'.Sound ∧ Grows fs fs' := by
  unfold createDirectory at h
  split at h
  case h_1 => cases h
  case h_2 => cases h
  case h_3 loc slash hlocate =>
    split at h
    case h_1 => cases h
    case h_2 => cases h
    case h_3 hfind =>
      obtain ⟨-, rfl⟩ := permit_eq_ok_iff.mp h
      obtain ⟨name, dir, rfl, hname, hdir⟩ := hs.of_locate hlocate
      have hnone := (find_eq_ok hfind).2
      have hnode := node?_addEntry hnone .directory
      refine ⟨hs.addDirectory hnone hname hdir, rfl, rfl, rfl, ?_, ?_⟩
      · intro loc node hl
        rw [hnode, if_neg, hl]
        rintro rfl
        rw [hl] at hnone
        cases hnone
      · intro loc node hl hd
        rw [hnode] at hl
        split_ifs at hl
        · exact absurd (Option.some.inj hl).symm hd
        · exact hl

theorem createDirectoriesUpTo_grows : ∀ (fuel : Nat) {fs : FileSystem} (p : Path), fs.Sound →
    (fs.createDirectoriesUpTo p fuel).2.Sound ∧ Grows fs (fs.createDirectoriesUpTo p fuel).2
  | 0, fs, _, hs => ⟨hs, Grows.refl fs⟩
  | fuel + 1, fs, p, hs => by
    unfold createDirectoriesUpTo
    split
    · exact ⟨hs, Grows.refl fs⟩
    · rename_i parent _
      split
      · rename_i hcreate
        exact createDirectory_grows hs hcreate
      · -- the directory above was missing; what was created there stays
        have ih := createDirectoriesUpTo_grows fuel parent hs
        split
        · rename_i habove
          rwa [habove] at ih
        · rename_i fs₁ habove
          rw [habove] at ih
          split
          · rename_i hcreate
            obtain ⟨hs₂, hg₂⟩ := createDirectory_grows ih.1 hcreate
            exact ⟨hs₂, ih.2.trans hg₂⟩
          · split_ifs <;> exact ih
      · split_ifs <;> exact ⟨hs, Grows.refl fs⟩

theorem createParent_grows (hs : fs.Sound) (p : Path) :
    (fs.createParent p).2.Sound ∧ Grows fs (fs.createParent p).2 := by
  unfold createParent
  split
  · split_ifs
    · exact ⟨hs, Grows.refl fs⟩
    · exact createDirectoriesUpTo_grows _ _ hs
  · exact ⟨hs, Grows.refl fs⟩

theorem createDirectories_existing {p : Path} {loc : Location}
    (h : fs.lookup p = .ok (loc, .directory)) : fs.createDirectories p = (.ok (), fs) := by
  have hdir : fs.isDirectory p = true := by
    unfold isDirectory
    rw [h]
  have hcreate : fs.createDirectory p = .error .alreadyExists := by
    unfold lookup at h
    unfold createDirectory
    rcases hl : fs.locate p with e | (unnamed | ⟨entry, slash⟩)
    · rw [hl] at h; cases h
    · rfl
    · rw [hl] at h
      simp only at h ⊢
      rcases hf : fs.find entry with e | _ | node
      · rw [hf] at h; cases h
      · rw [hf] at h; cases h
      · rfl
  unfold createDirectories createDirectoriesUpTo
  rw [hcreate]
  simp only [hdir, if_true]
  split <;> rfl

theorem createParent_existing {p : Path} {name : Name} {dir : Location}
    (h : fs.locate p = .ok (.entry (name :: dir) false)) : fs.createParent p = (.ok (), fs) := by
  obtain ⟨_, _, q, hq, hreach, hfits⟩ := reach_parent? h
  unfold createParent
  rw [hq]
  simp only
  split_ifs with hnil
  · rfl
  · exact createDirectories_existing ((lookup_directory_iff hfits hnil).mpr hreach)

/-! ## Changes at some locations -/

/-- The entries away from some locations are as they were, and no directory was lost or made. -/
structure AgreeOff (P : Location → Prop) (fs fs' : FileSystem) : Prop where
  sound : fs'.Sound
  dirs : DirsKept fs fs'
  made : ∀ loc, fs'.node? loc = some .directory → fs.node? loc = some .directory
  view : ∀ loc, ¬ P loc → fs'.view loc = fs.view loc

namespace AgreeOff

variable {P Q : Location → Prop}

theorem refl (hs : fs.Sound) : AgreeOff P fs fs :=
  ⟨hs, DirsKept.refl fs, fun _ h => h, fun _ _ => rfl⟩

theorem trans {fs₁ fs₂ fs₃ : FileSystem} (h : AgreeOff P fs₁ fs₂) (h' : AgreeOff P fs₂ fs₃) :
    AgreeOff P fs₁ fs₃ :=
  ⟨h'.sound, h.dirs.trans h'.dirs, fun loc hl => h.made loc (h'.made loc hl),
    fun loc hl => (h'.view loc hl).trans (h.view loc hl)⟩

theorem mono (h : AgreeOff P fs fs') (hPQ : ∀ loc, P loc → Q loc) : AgreeOff Q fs fs' :=
  ⟨h.sound, h.dirs, h.made, fun loc hl => h.view loc fun hp => hl (hPQ loc hp)⟩

theorem directory_iff (h : AgreeOff P fs fs') {loc : Location} :
    fs'.node? loc = some .directory ↔ fs.node? loc = some .directory := ⟨h.made loc, h.dirs.kept loc⟩

theorem stamp (hs : fs.Sound) (stamp : Int) : AgreeOff P fs { fs with now := stamp } :=
  ⟨hs.setStored rfl rfl (Nat.le_refl _), ⟨rfl, rfl, fun _ h => h⟩, fun _ h => h, fun _ _ => rfl⟩

end AgreeOff

theorem dropEntry_agreeOff (hs : fs.Sound) {loc : Location}
    (h : fs.node? loc ≠ some .directory) : AgreeOff (· = loc) fs (fs.dropEntry loc) := by
  have hnode := node?_dropEntry fs (ne_nil_of_node?_ne h)
  refine ⟨hs.dropEntry h, ⟨rfl, rfl, fun l hl => ?_⟩, fun l hl => ?_,
    fun l hl => view_congr ?_ fun _ _ => rfl⟩
  · rw [hnode, if_neg, hl]
    rintro rfl
    exact h hl
  · rw [hnode] at hl
    split_ifs at hl
    exact hl
  · rw [hnode, if_neg hl]

theorem addFile_agreeOff (hs : fs.Sound) {name : Name} {dir : Location}
    (hnone : fs.node? (name :: dir) = none) (hname : name.IsEntry)
    (hdir : fs.node? dir = some .directory) :
    AgreeOff (· = name :: dir) fs (fs.addFile (name :: dir)).1 := by
  have hnode : ∀ l, (fs.addFile (name :: dir)).1.node? l =
      if l = name :: dir then some (.file fs.stored.length) else fs.node? l :=
    node?_addEntry hnone (.file fs.stored.length)
  refine ⟨hs.addFile hnone hname hdir, ⟨rfl, rfl, fun l hl => ?_⟩, fun l hl => ?_,
    fun l hl => view_congr (by rw [hnode, if_neg hl]) fun id hid => ?_⟩
  · rw [hnode, if_neg, hl]
    rintro rfl
    rw [hl] at hnone
    cases hnone
  · rw [hnode] at hl
    split_ifs at hl
    · cases hl
    · exact hl
  · exact List.getElem?_append_left (hs.stored l id hid)

theorem setStored_agreeOff (hs : fs.Sound) {loc : Location} {id : Nat}
    (h : fs.node? loc = some (.file id)) (new : Stored) :
    AgreeOff (· = loc) fs { fs with stored := fs.stored.set id new } := by
  refine ⟨hs.setStored rfl rfl (by simp), ⟨rfl, rfl, fun l hl => hl⟩, fun l hl => hl,
    fun l hl => view_congr rfl fun id' hid' => ?_⟩
  refine List.getElem?_set_ne fun hid => hl ?_
  subst hid
  exact hs.once l loc id hid' h

/-! ## Changes at some locations, and new directories -/

/-- Away from some locations what was there is as it was, and nothing but directories was added. -/
structure GrowsOff (P : Location → Prop) (fs fs' : FileSystem) : Prop where
  sound : fs'.Sound
  dirs : DirsKept fs fs'
  view : ∀ loc, ¬ P loc → fs.node? loc ≠ none → fs'.view loc = fs.view loc
  added : ∀ loc node, ¬ P loc → fs'.node? loc = some node → node ≠ .directory →
    fs.node? loc = some node

theorem AgreeOff.growsOff {P : Location → Prop} (h : AgreeOff P fs fs') : GrowsOff P fs fs' where
  sound := h.sound
  dirs := h.dirs
  view loc hl _ := h.view loc hl
  added loc _ hl hn _ := (node?_of_view (h.view loc hl)).symm.trans hn

theorem Grows.growsOff {P : Location → Prop} (h : Grows fs fs') (hs : fs'.Sound) :
    GrowsOff P fs fs' where
  sound := hs
  dirs := h.dirsKept
  view loc _ hn := by
    obtain ⟨node, hnode⟩ := Option.ne_none_iff_exists'.mp hn
    refine view_congr ((h.kept loc node hnode).trans hnode.symm) fun id _ => ?_
    unfold stored?
    rw [h.stored]
  added loc node _ hn hd := h.added loc node hn hd

namespace GrowsOff

variable {P Q : Location → Prop}

theorem refl (hs : fs.Sound) : GrowsOff P fs fs := (AgreeOff.refl hs).growsOff

theorem trans {fs₁ fs₂ fs₃ : FileSystem} (h : GrowsOff P fs₁ fs₂) (h' : GrowsOff P fs₂ fs₃) :
    GrowsOff P fs₁ fs₃ where
  sound := h'.sound
  dirs := h.dirs.trans h'.dirs
  view loc hl hn := by
    have hview := h.view loc hl hn
    rw [h'.view loc hl (by rwa [node?_of_view hview]), hview]
  added loc node hl hn hd := h.added loc node hl (h'.added loc node hl hn hd) hd

theorem mono (h : GrowsOff P fs fs') (hPQ : ∀ loc, P loc → Q loc) : GrowsOff Q fs fs' :=
  ⟨h.sound, h.dirs, fun loc hl => h.view loc fun hp => hl (hPQ loc hp),
    fun loc node hl => h.added loc node fun hp => hl (hPQ loc hp)⟩

theorem file_iff (h : GrowsOff P fs fs') {loc : Location} (hl : ¬ P loc) {id : Nat} :
    fs'.node? loc = some (.file id) ↔ fs.node? loc = some (.file id) := by
  refine ⟨fun hid => h.added loc _ hl hid (by simp), fun hid => ?_⟩
  rw [node?_of_view (h.view loc hl (by simp [hid])), hid]

theorem contentAt? (h : GrowsOff P fs fs') {loc : Location} (hl : ¬ P loc) :
    fs'.contentAt? loc = fs.contentAt? loc := by
  by_cases hn : fs.node? loc = none
  swap
  · exact contentAt?_of_view (h.view loc hl hn)
  have hno : ∀ id, fs'.node? loc ≠ some (.file id) := by
    intro id hid
    rw [h.file_iff hl, hn] at hid
    cases hid
  unfold FileSystem.contentAt? fileAt?
  rw [hn]
  cases hn' : fs'.node? loc with
  | none => rfl
  | some node =>
    cases node with
    | file id => exact absurd hn' (hno id)
    | directory => rfl
    | fullDevice => rfl

end GrowsOff

/-! ## Opening, renaming and removing -/

/-- **Opening a file to write** finds one or creates an empty one, unless that is refused. -/
theorem openForWriting_spec (hs : fs.Sound) {p : Path} {r : Option Nat}
    (h : fs.openForWriting p = .ok (r, fs')) :
    ∃ name dir, fs.locate p = .ok (.entry (name :: dir) false) ∧ name.IsEntry ∧
      byteLength name ≤ maxNameLength ∧ fs.node? dir = some .directory ∧
      ((∃ id, r = some id ∧ fs.node? (name :: dir) = some (.file id) ∧
          fs.refusal? .write (name :: dir) = none ∧ fs' = fs) ∨
        (r = none ∧ fs.node? (name :: dir) = some .fullDevice ∧ fs' = fs) ∨
        (r = some fs.stored.length ∧ fs.node? (name :: dir) = none ∧
          fs.refusal? .create (name :: dir) = none ∧ fs' = (fs.addFile (name :: dir)).1)) := by
  unfold openForWriting at h
  split at h
  case h_1 => cases h
  case h_2 => cases h
  case h_3 loc slash hlocate =>
    split_ifs at h with hslash
    rw [Bool.not_eq_true] at hslash
    subst hslash
    obtain ⟨name, dir, rfl, hname, hdir⟩ := hs.of_locate hlocate
    refine ⟨name, dir, hlocate, hname, ?_⟩
    split at h
    case h_1 => cases h
    case h_2 => cases h
    case h_3 id hfind =>
      obtain ⟨hshort, hnode⟩ := find_eq_ok hfind
      obtain ⟨hpermit, hr⟩ := permit_eq_ok_iff.mp h
      obtain ⟨rfl, rfl⟩ := Prod.mk.inj hr
      exact ⟨hshort, hdir, Or.inl ⟨id, rfl, hnode, hpermit, rfl⟩⟩
    case h_4 hfind =>
      obtain ⟨hshort, hnode⟩ := find_eq_ok hfind
      obtain ⟨rfl, rfl⟩ := Prod.mk.inj (permit_eq_ok_iff.mp h).2
      exact ⟨hshort, hdir, Or.inr (Or.inl ⟨rfl, hnode, rfl⟩)⟩
    case h_5 hfind =>
      obtain ⟨hshort, hnode⟩ := find_eq_ok hfind
      obtain ⟨hpermit, hr⟩ := permit_eq_ok_iff.mp h
      obtain ⟨rfl, rfl⟩ := Prod.mk.inj hr
      exact ⟨hshort, hdir, Or.inr (Or.inr ⟨rfl, hnode, hpermit, rfl⟩)⟩

/-- **Opening a file to append** finds a file or the device, or creates a file that is empty. -/
theorem openToAppend_spec (hs : fs.Sound) {p : Path} {handle : Handle}
    (h : fs.openToAppend p = .ok (handle, fs')) :
    ∃ name dir, fs.locate p = .ok (.entry (name :: dir) false) ∧ name.IsEntry ∧
      byteLength name ≤ maxNameLength ∧
      ((∃ id, handle = .appending id ∧ fs.node? (name :: dir) = some (.file id) ∧
          fs.refusal? .write (name :: dir) = none ∧ fs' = fs) ∨
        (handle = .fullDevice ∧ fs.node? (name :: dir) = some .fullDevice ∧ fs' = fs) ∨
        (handle = .appending fs.stored.length ∧ fs.node? (name :: dir) = none ∧
          fs.refusal? .create (name :: dir) = none ∧ fs' = (fs.addFile (name :: dir)).1 ∧
          AgreeOff (· = name :: dir) fs fs')) := by
  unfold openToAppend at h
  split at h
  case h_1 => cases h
  case h_2 id fs₁ hopen =>
    obtain ⟨name, dir, hlocate, hname, hshort, hdir, hcases⟩ := openForWriting_spec hs hopen
    simp only [Except.ok.injEq, Prod.mk.injEq] at h
    obtain ⟨rfl, rfl⟩ := h
    refine ⟨name, dir, hlocate, hname, hshort, ?_⟩
    rcases hcases with ⟨_, hr, hnode, hpermit, heq⟩ | ⟨hr, _⟩ | ⟨hr, hnone, hpermit, heq⟩
    · exact Or.inl ⟨_, congrArg _ (Option.some.inj hr), hnode, hpermit, heq⟩
    · cases hr
    · refine Or.inr (Or.inr ⟨congrArg _ (Option.some.inj hr), hnone, hpermit, heq, ?_⟩)
      rw [heq]
      exact addFile_agreeOff hs hnone hname hdir
  case h_3 fs₁ hopen =>
    obtain ⟨name, dir, hlocate, hname, hshort, _, hcases⟩ := openForWriting_spec hs hopen
    simp only [Except.ok.injEq, Prod.mk.injEq] at h
    obtain ⟨rfl, rfl⟩ := h
    refine ⟨name, dir, hlocate, hname, hshort, ?_⟩
    rcases hcases with ⟨_, hr, _⟩ | ⟨_, hnode, heq⟩ | ⟨hr, _⟩
    · cases hr
    · exact Or.inr (Or.inl ⟨rfl, hnode, heq⟩)
    · cases hr

/-- **Creating a new file** needs a location without an entry, where it is not refused. -/
theorem createNew_spec (hs : fs.Sound) {p : Path} {id : Nat}
    (h : fs.createNew p = .ok (id, fs')) :
    ∃ name dir, fs.locate p = .ok (.entry (name :: dir) false) ∧ name.IsEntry ∧
      fs.node? dir = some .directory ∧ fs.node? (name :: dir) = none ∧
      fs.refusal? .create (name :: dir) = none ∧ id = fs.stored.length ∧
      fs' = (fs.addFile (name :: dir)).1 := by
  unfold createNew at h
  split at h
  case h_1 => cases h
  case h_2 => cases h
  case h_3 loc slash hlocate =>
    split_ifs at h with hslash
    rw [Bool.not_eq_true] at hslash
    subst hslash
    obtain ⟨name, dir, rfl, hname, hdir⟩ := hs.of_locate hlocate
    refine ⟨name, dir, hlocate, hname, hdir, ?_⟩
    split at h
    case h_1 => cases h
    case h_2 => cases h
    case h_3 hfind =>
      obtain ⟨hpermit, hr⟩ := permit_eq_ok_iff.mp h
      obtain ⟨rfl, rfl⟩ := Prod.mk.inj hr
      exact ⟨(find_eq_ok hfind).2, hpermit, rfl, rfl⟩

/-- **Removing** drops the entry of a file. -/
theorem remove_spec {p : Path} (h : fs.remove p = .ok fs') :
    ∃ loc node, fs.locate p = .ok (.entry loc false) ∧ fs.node? loc = some node ∧
      node ≠ .directory ∧ fs' = fs.dropEntry loc := by
  unfold remove at h
  split at h
  case h_1 => cases h
  case h_2 => cases h
  case h_3 loc slash hlocate =>
    split at h
    case h_1 => cases h
    case h_2 => cases h
    case h_3 => cases h
    case h_4 node hnode hfind =>
      split_ifs at h with hslash
      rw [Bool.not_eq_true] at hslash
      subst hslash
      rw [Except.ok.injEq] at h
      exact ⟨loc, node, hlocate, (find_eq_ok hfind).2, hnode, h.symm⟩

/-- A file of `fs` stands at another location in `fs'`, where it replaced what was there. -/
structure Moved (fs fs' : FileSystem) (source target : Location) (id : Nat) : Prop where
  sound : fs'.Sound
  cwd : fs'.cwd = fs.cwd
  refusal : fs'.refusal? = fs.refusal?
  stored : fs'.stored = fs.stored
  replaced : fs.node? target ≠ some .directory
  node : ∀ loc, fs'.node? loc =
    if loc = target then some (.file id) else if loc = source then none else fs.node? loc

theorem Moved.agreeOff {source target : Location} {id : Nat} (h : Moved fs fs' source target id)
    (hsource : fs.node? source = some (.file id)) :
    AgreeOff (fun loc => loc = source ∨ loc = target) fs fs' := by
  refine ⟨h.sound, ⟨h.cwd, h.refusal, fun loc hl => ?_⟩, fun loc hl => ?_, fun loc hl => ?_⟩
  · rw [h.node, if_neg, if_neg, hl]
    · rintro rfl
      rw [hsource] at hl
      cases hl
    · rintro rfl
      exact h.replaced hl
  · rw [h.node] at hl
    split_ifs at hl
    · cases hl
    · exact hl
  · rw [not_or] at hl
    refine view_congr (by rw [h.node, if_neg hl.2, if_neg hl.1]) fun id' _ => ?_
    unfold stored?
    rw [h.stored]

theorem moved_of_free (hs : fs.Sound) {source : Location} {name : Name} {dir : Location} {id : Nat}
    (hsource : fs.node? source = some (.file id)) (hname : name.IsEntry)
    (hdir : fs.node? dir = some .directory) (hne : source ≠ name :: dir) :
    (fs.node? (name :: dir) = none →
        Moved fs (fs.moveTree source (name :: dir)) source (name :: dir) id) ∧
      (fs.node? (name :: dir) ≠ some .directory →
        Moved fs ((fs.dropEntry (name :: dir)).moveTree source (name :: dir)) source (name :: dir)
          id) := by
  have hfile : Node.file id ≠ .directory := by simp
  constructor
  · intro hnone
    exact ⟨hs.moveTree hsource hfile hnone hname hdir, rfl, rfl, rfl, by simp [hnone],
      hs.node?_moveTree hsource hfile hnone⟩
  · intro hold
    have hdrop := dropEntry_agreeOff hs hold
    have hfind := node?_dropEntry fs (List.cons_ne_nil name dir)
    have hsource' : (fs.dropEntry (name :: dir)).node? source = some (.file id) := by
      rw [hfind, if_neg hne, hsource]
    have hnone : (fs.dropEntry (name :: dir)).node? (name :: dir) = none := by
      rw [hfind, if_pos rfl]
    refine ⟨hdrop.sound.moveTree hsource' hfile hnone hname (hdrop.dirs.kept _ hdir), rfl, rfl, rfl,
      hold, fun loc => ?_⟩
    rw [hdrop.sound.node?_moveTree hsource' hfile hnone, hfind]
    split_ifs <;> rfl

/-- A file can be renamed to the path: its name is not too long, and no directory has it. -/
def Receives (fs : FileSystem) (q : Path) : Prop :=
  ∃ name dir, fs.locate q = .ok (.entry (name :: dir) false) ∧ byteLength name ≤ maxNameLength ∧
    fs.node? (name :: dir) ≠ some .directory

/-- A new file can be made at the path, once an older one is gone: its name is not too long, no directory
has it, and the system does not refuse the file. -/
def Admits (fs : FileSystem) (q : Path) : Prop :=
  ∃ name dir, fs.locate q = .ok (.entry (name :: dir) false) ∧ byteLength name ≤ maxNameLength ∧
    fs.node? (name :: dir) ≠ some .directory ∧ fs.refusal? .create (name :: dir) = none

/-- **Renaming a file** moves it where a path receives it. Elsewhere it fails with anything but that there
is no such file. -/
theorem rename_spec (hs : fs.Sound) {p q : Path} {source : Location} {name : Name} {dir : Location}
    {id : Nat} (hp : fs.locate p = .ok (.entry source false))
    (hshort : byteLength (source.headD []) ≤ maxNameLength)
    (hsource : fs.node? source = some (.file id))
    (hq : fs.locate q = .ok (.entry (name :: dir) false)) (hne : source ≠ name :: dir) :
    (¬ fs.Receives q ∧ ∃ e, fs.rename p q = .error e ∧ e ≠ .notFound) ∨
      ∃ fs', fs.rename p q = .ok fs' ∧ byteLength name ≤ maxNameLength ∧
        Moved fs fs' source (name :: dir) id := by
  obtain ⟨_, _, ⟨rfl, rfl⟩, hname, hdir⟩ := hs.of_locate hq
  obtain ⟨hfree, hheld⟩ := moved_of_free hs hsource hname hdir hne
  have hfound : fs.find source = .ok (some (.file id)) := by
    rw [← hsource]
    exact find_of_fits hshort
  have hreceives : fs.Receives q ↔
      byteLength name ≤ maxNameLength ∧ fs.node? (name :: dir) ≠ some .directory := by
    constructor
    · rintro ⟨name', dir', hq', hfits⟩
      simp only [hq, Except.ok.injEq, Place.entry.injEq, List.cons.injEq, and_true] at hq'
      obtain ⟨rfl, rfl⟩ := hq'
      exact hfits
    · exact fun hfits => ⟨name, dir, hq, hfits⟩
  by_cases hlong : maxNameLength < byteLength name
  · have hfind : fs.find (name :: dir) = .error .nameTooLong := if_pos hlong
    refine Or.inl ⟨fun h => by have := (hreceives.mp h).1; omega, .nameTooLong, ?_, by simp⟩
    simp only [rename, hp, hq, renamePlace, hfound, hfind]
  have hrename : fs.rename p q = fs.renameEntry source (name :: dir) (.file id) := by
    simp only [rename, hp, hq, renamePlace, hfound, find_cons_of_fits (Nat.le_of_not_lt hlong)]
    simp
  rw [hrename]
  unfold renameEntry
  rw [if_neg hne, if_neg (by simp)]
  by_cases htarget : fs.node? (name :: dir) = some .directory
  · refine Or.inl ⟨fun h => (hreceives.mp h).2 htarget, ?_⟩
    by_cases hbelow : isBelow (name :: dir) source = true
    · exact ⟨.directoryNotEmpty, if_pos hbelow, by simp⟩
    · exact ⟨.isADirectory, by rw [if_neg hbelow, htarget], by simp⟩
  · have hbelow : ¬ isBelow (name :: dir) source = true := fun hb =>
      hne (hs.no_entry_below htarget hb (by simp [hsource]))
    rw [if_neg hbelow]
    right
    cases hold : fs.node? (name :: dir) with
    | none => exact ⟨_, rfl, Nat.le_of_not_lt hlong, hfree hold⟩
    | some old =>
      cases old with
      | directory => exact absurd hold htarget
      | file other => exact ⟨_, rfl, Nat.le_of_not_lt hlong, hheld (by simp [hold])⟩
      | fullDevice => exact ⟨_, rfl, Nat.le_of_not_lt hlong, hheld (by simp [hold])⟩

end FileSystem

namespace Handle

open FileSystem

variable {fs fs' : FileSystem}

/-! ## Writing to open files -/

theorem write_sound {handle handle' : Handle} {bytes : Bytes}
    (hs : fs.Sound) (h : handle.write fs bytes = .ok (handle', fs')) : fs'.Sound := by
  unfold Handle.write at h
  split_ifs at h
  · rw [Except.ok.injEq, Prod.mk.injEq] at h
    rw [← h.2]
    exact hs
  · cases handle with
    | appending id =>
      rw [Except.ok.injEq, Prod.mk.injEq] at h
      rw [← h.2]
      exact hs.setStored rfl rfl (by simp [setContent])
    | writing id offset =>
      rw [Except.ok.injEq, Prod.mk.injEq] at h
      rw [← h.2]
      exact hs.setStored rfl rfl (by simp [setContent])
    | fullDevice => cases h

theorem write_dirsKept {handle handle' : Handle} {bytes : Bytes}
    (h : handle.write fs bytes = .ok (handle', fs')) : DirsKept fs fs' := by
  have hentries : fs'.entries = fs.entries ∧ fs'.cwd = fs.cwd ∧ fs'.refusal? = fs.refusal? := by
    unfold Handle.write at h
    split_ifs at h
    · rw [← (Prod.mk.inj (Except.ok.inj h)).2]
      exact ⟨rfl, rfl, rfl⟩
    · cases handle with
      | fullDevice => cases h
      | appending id =>
        rw [← (Prod.mk.inj (Except.ok.inj h)).2]
        exact ⟨rfl, rfl, rfl⟩
      | writing id offset =>
        rw [← (Prod.mk.inj (Except.ok.inj h)).2]
        exact ⟨rfl, rfl, rfl⟩
  exact ⟨hentries.2.1, hentries.2.2, fun loc hl => (node?_congr hentries.1 loc).trans hl⟩

/-- Writes go to the end of the file. -/
def IsAtEnd (handle : Handle) (fs : FileSystem) (id : Nat) : Prop :=
  handle = .appending id ∨ handle = .writing id (fs.content id).length

theorem content_setContent {id : Nat} (h : id < fs.stored.length) (new : Bytes) :
    (fs.setContent id new).content id = new := by
  unfold FileSystem.content stored? setContent
  rw [List.getElem?_set_self h]

/-- **Writing at the end** of a file puts the bytes behind its content. -/
theorem write_at_end (hs : fs.Sound) {loc : Location} {id : Nat}
    (hnode : fs.node? loc = some (.file id)) {handle : Handle} (h : handle.IsAtEnd fs id)
    (bytes : Bytes) :
    ∃ handle' fs', handle.write fs bytes = .ok (handle', fs') ∧ handle'.IsAtEnd fs' id ∧
      fs'.content id = fs.content id ++ bytes ∧ fs'.node? loc = some (.file id) ∧
      AgreeOff (· = loc) fs fs' := by
  have hid := hs.stored loc id hnode
  have hset := setStored_agreeOff hs hnode ⟨fs.content id ++ bytes, fs.now⟩
  have hcontent : (fs.setContent id (fs.content id ++ bytes)).content id = fs.content id ++ bytes :=
    content_setContent hid _
  unfold Handle.write
  by_cases hempty : bytes.isEmpty = true
  · rw [if_pos hempty]
    rw [List.isEmpty_iff] at hempty
    refine ⟨handle, fs, rfl, h, ?_, hnode, AgreeOff.refl hs⟩
    rw [hempty, List.append_nil]
  rw [if_neg hempty]
  rcases h with rfl | rfl
  · exact ⟨_, _, rfl, Or.inl rfl, hcontent, hnode, hset⟩
  · have hbehind : overwrite (fs.content id) (fs.content id).length bytes = fs.content id ++ bytes := by
      simp [overwrite]
    simp only [hbehind]
    refine ⟨_, _, rfl, Or.inr ?_, hcontent, hnode, hset⟩
    rw [hcontent, List.length_append]

end Handle

end LogRouter
