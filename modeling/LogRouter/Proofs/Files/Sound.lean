import LogRouter.Files.Handle
import LogRouter.Proofs.Files.Walk
import Mathlib.Data.List.Nodup

/-!
# Sound file systems

* `FileSystem.Sound`: every location has one entry, every entry stands in a directory, and every
  stored content is that of one file at most.
* `FileSystem.view`: an entry with what is stored for it. Two states agree about a location if
  their views of it are the same.
* `node?_addEntry`, `node?_dropEntry`, `Sound.node?_moveTree`: the entries after each change.
* **`Sound.addFile`**, **`Sound.addDirectory`**, **`Sound.dropEntry`**, **`Sound.moveTree`**,
  **`Sound.setStored`**: each change leaves a sound file system.
* `mem_children_iff`, `children_nodup`: the entries of a directory, each listed once.
-/

namespace LogRouter

namespace FileSystem

variable {fs fs' : FileSystem}

/-! ## Entries -/

theorem fileAt?_eq_some_iff {loc : Location} {id : Nat} :
    fs.fileAt? loc = some id ↔ fs.node? loc = some (.file id) := by
  unfold fileAt?
  rcases fs.node? loc with _ | (_ | id | _) <;> simp

theorem node?_of_ne_nil {loc : Location} (h : loc ≠ []) :
    fs.node? loc = (fs.entries.find? fun (l, _) => l == loc).map (·.2) := by
  cases loc with
  | nil => exact absurd rfl h
  | cons name dir => rfl

theorem ne_nil_of_node?_ne {loc : Location} (h : fs.node? loc ≠ some .directory) : loc ≠ [] := by
  rintro rfl
  exact h rfl

theorem node?_congr (h : fs'.entries = fs.entries) (loc : Location) :
    fs'.node? loc = fs.node? loc := by
  unfold node?
  rw [h]

theorem node?_addEntry {loc : Location} (h : fs.node? loc = none) (node : Node) (l : Location) :
    (fs.addEntry loc node).node? l = if l = loc then some node else fs.node? l := by
  have hne : loc ≠ [] := by
    rintro rfl
    cases h
  by_cases hnil : l = []
  · rw [hnil, if_neg (Ne.symm hne)]
    rfl
  · rw [node?_of_ne_nil hnil, node?_of_ne_nil hnil]
    unfold addEntry
    rw [List.find?_append]
    split_ifs with hl
    · subst hl
      rw [node?_of_ne_nil hnil, Option.map_eq_none_iff] at h
      rw [h]
      simp
    · have hlast : [(loc, node)].find? (fun (l', _) => l' == l) = none := by
        simp [Ne.symm hl]
      rw [hlast, Option.or_none]

theorem node?_dropEntry (fs : FileSystem) {loc : Location} (hne : loc ≠ []) (l : Location) :
    (fs.dropEntry loc).node? l = if l = loc then none else fs.node? l := by
  by_cases hnil : l = []
  · rw [hnil, if_neg (Ne.symm hne)]
    rfl
  · rw [node?_of_ne_nil hnil, node?_of_ne_nil hnil]
    unfold dropEntry
    rw [List.find?_filter]
    split_ifs with hl
    · rw [Option.map_eq_none_iff, List.find?_eq_none]
      rintro ⟨l', node⟩ _
      simp [hl]
    · congr 2
      funext ⟨l', node⟩
      by_cases hl' : l' = l
      · simp [hl', hl]
      · simp [hl']

/-- **The entries are what is found**, where every location has one. -/
theorem mem_entries_iff (hn : (fs.entries.map Prod.fst).Nodup) {loc : Location} (hne : loc ≠ [])
    {node : Node} : (loc, node) ∈ fs.entries ↔ fs.node? loc = some node := by
  rw [node?_of_ne_nil hne]
  constructor
  · intro hmem
    cases hfind : fs.entries.find? (fun (l, _) => l == loc) with
    | none => simpa using List.find?_eq_none.mp hfind _ hmem
    | some found =>
      have hfound := List.mem_of_find?_eq_some hfind
      have hloc : found.1 = loc := by simpa using List.find?_some hfind
      have heq := List.inj_on_of_nodup_map hn hfound hmem hloc
      rw [heq]
      rfl
  · intro h
    obtain ⟨found, hfind, rfl⟩ := Option.map_eq_some_iff.mp h
    have hloc : found.1 = loc := by simpa using List.find?_some hfind
    rw [← hloc]
    exact List.mem_of_find?_eq_some hfind

theorem not_mem_of_node?_none (hn : (fs.entries.map Prod.fst).Nodup) {loc : Location}
    (h : fs.node? loc = none) : loc ∉ fs.entries.map Prod.fst := by
  rw [List.mem_map]
  rintro ⟨⟨loc, node⟩, hmem, rfl⟩
  have hne : loc ≠ [] := by
    rintro rfl
    cases h
  rw [(mem_entries_iff hn hne).mp hmem] at h
  cases h

/-- The entry at a location with what is stored for it. -/
def view (fs : FileSystem) (loc : Location) : Option (Node × Option Stored) :=
  (fs.node? loc).map fun node =>
    match node with
    | .file id => (node, fs.stored? id)
    | _ => (node, none)

theorem node?_of_view {loc : Location} (h : fs'.view loc = fs.view loc) :
    fs'.node? loc = fs.node? loc := by
  have hfst : ∀ fs : FileSystem, fs.node? loc = (fs.view loc).map Prod.fst := by
    intro fs
    unfold view
    rw [Option.map_map]
    cases fs.node? loc with
    | none => rfl
    | some node => cases node <;> rfl
  rw [hfst, hfst, h]

theorem stored?_of_view {loc : Location} (h : fs'.view loc = fs.view loc) {id : Nat}
    (hid : fs.node? loc = some (.file id)) : fs'.stored? id = fs.stored? id := by
  have hid' := (node?_of_view h).trans hid
  unfold view at h
  rw [hid, hid'] at h
  simpa using h

theorem contentAt?_of_view {loc : Location} (h : fs'.view loc = fs.view loc) :
    fs'.contentAt? loc = fs.contentAt? loc := by
  unfold contentAt? fileAt?
  rw [node?_of_view h]
  cases hn : fs.node? loc with
  | none => rfl
  | some node =>
    cases node with
    | file id => simp [content, stored?_of_view h hn]
    | directory => rfl
    | fullDevice => rfl

/-- What is stored for the file at a location. -/
def storedAt? (fs : FileSystem) (loc : Location) : Option Stored :=
  (fs.fileAt? loc).bind fs.stored?

theorem storedAt?_eq_some_iff {loc : Location} {stored : Stored} :
    fs.storedAt? loc = some stored ↔
      ∃ id, fs.node? loc = some (.file id) ∧ fs.stored? id = some stored := by
  unfold storedAt? fileAt?
  rcases fs.node? loc with _ | (_ | id | _) <;> simp

theorem contentAt?_of_storedAt? {loc : Location} {stored : Stored}
    (h : fs.storedAt? loc = some stored) : fs.contentAt? loc = some stored.content := by
  obtain ⟨id, hnode, hstored⟩ := storedAt?_eq_some_iff.mp h
  simp [contentAt?, fileAt?, hnode, content, hstored]

theorem storedAt?_of_view {loc : Location} (h : fs'.view loc = fs.view loc) :
    fs'.storedAt? loc = fs.storedAt? loc := by
  unfold storedAt? fileAt?
  rw [node?_of_view h]
  cases hn : fs.node? loc with
  | none => rfl
  | some node =>
    cases node with
    | file id => exact stored?_of_view h hn
    | directory => rfl
    | fullDevice => rfl

theorem view_congr {loc : Location} (hnode : fs'.node? loc = fs.node? loc)
    (hstored : ∀ id, fs.node? loc = some (.file id) → fs'.stored? id = fs.stored? id) :
    fs'.view loc = fs.view loc := by
  unfold view
  rw [hnode]
  cases hn : fs.node? loc with
  | none => rfl
  | some node =>
    cases node with
    | file id => simp [hstored id hn]
    | directory => rfl
    | fullDevice => rfl

/-! ## Soundness -/

/-- Every location has one entry, every entry stands in a directory under a fitting name, and every
stored content is that of one file at most. -/
structure Sound (fs : FileSystem) : Prop where
  nodup : (fs.entries.map Prod.fst).Nodup
  parent : ∀ name dir, fs.node? (name :: dir) ≠ none →
    name.IsEntry ∧ fs.node? dir = some .directory
  stored : ∀ loc id, fs.node? loc = some (.file id) → id < fs.stored.length
  once : ∀ loc loc' id, fs.node? loc = some (.file id) → fs.node? loc' = some (.file id) → loc = loc'
  cwd : fs.node? fs.cwd = some .directory

namespace Sound

theorem empty : FileSystem.empty.Sound := by
  have hnone : ∀ name dir, FileSystem.empty.node? (name :: dir) = none := fun _ _ => rfl
  have hfile : ∀ loc id, FileSystem.empty.node? loc ≠ some (.file id) := by
    intro loc id h
    cases loc with
    | nil => cases h
    | cons name dir => cases h
  exact ⟨List.nodup_nil, fun name dir h => absurd (hnone name dir) h,
    fun loc id h => absurd h (hfile loc id), fun loc _ id h => absurd h (hfile loc id), rfl⟩

theorem tail_directory (hs : fs.Sound) (loc : Location) (h : fs.node? loc ≠ none) :
    fs.node? loc.tail = some .directory := by
  cases loc with
  | nil => rfl
  | cons name dir => exact (hs.parent name dir h).2

theorem origin_directory (hs : fs.Sound) (p : Path) :
    fs.node? (fs.originOf p) = some .directory := by
  unfold originOf
  split_ifs
  · rfl
  · exact hs.cwd

theorem no_entry_below (hs : fs.Sound) {loc : Location} (h : fs.node? loc ≠ some .directory) :
    ∀ {l : Location}, isBelow loc l = true → fs.node? l ≠ none → l = loc
  | [], hl, _ => by
    unfold isBelow at hl
    rw [List.isSuffixOf_iff_suffix, List.suffix_nil] at hl
    rw [hl]
  | name :: dir, hl, hn => by
    unfold isBelow at hl
    rw [List.isSuffixOf_iff_suffix, List.suffix_cons_iff] at hl
    rcases hl with hl | hl
    · exact hl.symm
    · obtain ⟨_, hdir⟩ := hs.parent name dir hn
      have := hs.no_entry_below h (l := dir) (by unfold isBelow; rwa [List.isSuffixOf_iff_suffix])
        (by rw [hdir]; exact Option.some_ne_none _)
      rw [this] at hdir
      exact absurd hdir h

/-! ## Changes that keep a file system sound -/

theorem extend (hs : fs.Sound) {name : Name} {dir : Location} {node : Node}
    (hnone : fs.node? (name :: dir) = none) (hname : name.IsEntry)
    (hdir : fs.node? dir = some .directory) (hentries : fs'.entries = fs.entries ++ [(name :: dir, node)])
    (hcwd : fs'.cwd = fs.cwd) (hlength : fs.stored.length ≤ fs'.stored.length)
    (hnode : ∀ id, node = .file id → fs.stored.length ≤ id ∧ id < fs'.stored.length) :
    fs'.Sound := by
  have hfind : ∀ l, fs'.node? l = if l = name :: dir then some node else fs.node? l := fun l =>
    (@node?_congr (fs.addEntry (name :: dir) node) _ hentries l).trans (node?_addEntry hnone node l)
  have hkept : ∀ {l node'}, fs.node? l = some node' → fs'.node? l = some node' := by
    intro l node' hl
    rw [hfind, if_neg, hl]
    rintro rfl
    rw [hl] at hnone
    cases hnone
  refine ⟨?_, ?_, ?_, ?_, by rw [hcwd]; exact hkept hs.cwd⟩
  · rw [hentries, List.map_append, List.nodup_append]
    refine ⟨hs.nodup, List.nodup_singleton _, fun a ha b hb hab => ?_⟩
    rw [List.map_singleton, List.mem_singleton] at hb
    rw [hab, hb] at ha
    exact not_mem_of_node?_none hs.nodup hnone ha
  · intro name' dir' h
    rw [hfind] at h
    split_ifs at h with heq
    · obtain ⟨rfl, rfl⟩ := List.cons.inj heq
      exact ⟨hname, hkept hdir⟩
    · obtain ⟨hname', hdir'⟩ := hs.parent name' dir' h
      exact ⟨hname', hkept hdir'⟩
  · intro loc id h
    rw [hfind] at h
    split_ifs at h
    · exact (hnode id (Option.some.inj h)).2
    · exact (hs.stored loc id h).trans_le hlength
  · intro loc loc' id h h'
    rw [hfind] at h h'
    split_ifs at h h' with hl hl' hl'
    · rw [hl, hl']
    · have := (hnode id (Option.some.inj h)).1
      exact absurd (hs.stored loc' id h') (Nat.not_lt.mpr this)
    · have := (hnode id (Option.some.inj h')).1
      exact absurd (hs.stored loc id h) (Nat.not_lt.mpr this)
    · exact hs.once loc loc' id h h'

/-- **A new file** leaves a sound file system. -/
theorem addFile (hs : fs.Sound) {name : Name} {dir : Location}
    (hnone : fs.node? (name :: dir) = none) (hname : name.IsEntry)
    (hdir : fs.node? dir = some .directory) : (fs.addFile (name :: dir)).1.Sound := by
  refine @Sound.extend fs _ hs name dir (.file fs.stored.length) hnone hname hdir rfl rfl ?_ ?_
  · simp [FileSystem.addFile]
  · rintro id ⟨⟩
    simp [FileSystem.addFile]

/-- **A new directory** leaves a sound file system. -/
theorem addDirectory (hs : fs.Sound) {name : Name} {dir : Location}
    (hnone : fs.node? (name :: dir) = none) (hname : name.IsEntry)
    (hdir : fs.node? dir = some .directory) : (fs.addEntry (name :: dir) .directory).Sound :=
  hs.extend hnone hname hdir rfl rfl (Nat.le_refl _) fun id h => by cases h

/-- **Other stored contents** leave a sound file system. -/
theorem setStored (hs : fs.Sound) (hentries : fs'.entries = fs.entries) (hcwd : fs'.cwd = fs.cwd)
    (hlength : fs.stored.length ≤ fs'.stored.length) : fs'.Sound := by
  have hfind := node?_congr hentries
  refine ⟨by rw [hentries]; exact hs.nodup, ?_, ?_, ?_, by rw [hfind, hcwd]; exact hs.cwd⟩
  · intro name dir h
    rw [hfind] at h ⊢
    exact hs.parent name dir h
  · intro loc id h
    rw [hfind] at h
    exact (hs.stored loc id h).trans_le hlength
  · intro loc loc' id h h'
    rw [hfind] at h h'
    exact hs.once loc loc' id h h'

/-- **A file that is removed** leaves a sound file system. -/
theorem dropEntry (hs : fs.Sound) {loc : Location} (hloc : fs.node? loc ≠ some .directory) :
    (fs.dropEntry loc).Sound := by
  have hfind := node?_dropEntry fs (ne_nil_of_node?_ne hloc)
  have hkept : ∀ {l}, fs.node? l = some .directory →
      (fs.dropEntry loc).node? l = some .directory := by
    intro l hl
    rw [hfind, if_neg, hl]
    rintro rfl
    exact hloc hl
  have hback : ∀ {l node}, (fs.dropEntry loc).node? l = some node → fs.node? l = some node := by
    intro l node hl
    rw [hfind] at hl
    split_ifs at hl
    exact hl
  refine ⟨hs.nodup.sublist (List.Sublist.map _ List.filter_sublist), ?_, ?_, ?_, hkept hs.cwd⟩
  · intro name dir h
    obtain ⟨node, hnode⟩ := Option.ne_none_iff_exists'.mp h
    obtain ⟨hname, hdir⟩ := hs.parent name dir (by rw [hback hnode]; exact Option.some_ne_none _)
    exact ⟨hname, hkept hdir⟩
  · exact fun l id h => hs.stored l id (hback h)
  · exact fun l l' id h h' => hs.once l l' id (hback h) (hback h')

/-! ## Moving a file -/

theorem entries_moveTree (hs : fs.Sound) {source : Location}
    (hsource : fs.node? source ≠ some .directory) (target : Location) :
    (fs.moveTree source target).entries =
      fs.entries.map fun (l, node) => if l = source then (target, node) else (l, node) := by
  have hne := ne_nil_of_node?_ne hsource
  refine List.map_congr_left ?_
  rintro ⟨l, node⟩ hmem
  simp only
  by_cases hl : l = source
  · rw [if_pos hl, if_pos (by unfold isBelow; simp [hl]), hl, Nat.sub_self, List.take_zero,
      List.nil_append]
  · rw [if_neg hl, if_neg]
    intro hbelow
    by_cases hnil : l = []
    · unfold isBelow at hbelow
      rw [hnil, List.isSuffixOf_iff_suffix, List.suffix_nil] at hbelow
      exact hne hbelow
    · refine hl (hs.no_entry_below hsource hbelow ?_)
      rw [(mem_entries_iff hs.nodup hnil).mp hmem]
      exact Option.some_ne_none _

theorem nodup_moveTree (hs : fs.Sound) {source target : Location}
    (hsource : fs.node? source ≠ some .directory) (htarget : fs.node? target = none) :
    ((fs.moveTree source target).entries.map Prod.fst).Nodup := by
  have hfree := not_mem_of_node?_none hs.nodup htarget
  have hlocs : (fs.moveTree source target).entries.map Prod.fst =
      (fs.entries.map Prod.fst).map fun l => if l = source then target else l := by
    rw [hs.entries_moveTree hsource, List.map_map, List.map_map]
    refine List.map_congr_left ?_
    rintro ⟨l, node⟩ _
    simp only [Function.comp_apply]
    split_ifs <;> rfl
  rw [hlocs]
  refine hs.nodup.map_on fun l hl l' hl' heq => ?_
  split_ifs at heq with h h' h'
  · rw [h, h']
  · exact absurd (heq ▸ hl') hfree
  · exact absurd (heq ▸ hl) hfree
  · exact heq

theorem mem_entries_moveTree (hs : fs.Sound) {source : Location}
    (hsource : fs.node? source ≠ some .directory) {target l : Location} {node : Node} :
    (l, node) ∈ (fs.moveTree source target).entries ↔
      ∃ l₀, (l₀, node) ∈ fs.entries ∧ l = if l₀ = source then target else l₀ := by
  rw [hs.entries_moveTree hsource, List.mem_map]
  constructor
  · rintro ⟨⟨l₀, node₀⟩, hl₀, heq⟩
    refine ⟨l₀, ?_⟩
    simp only at heq
    split_ifs at heq with h <;> obtain ⟨rfl, rfl⟩ := Prod.mk.inj heq
    · exact ⟨hl₀, (if_pos h).symm⟩
    · exact ⟨hl₀, (if_neg h).symm⟩
  · rintro ⟨l₀, hl₀, rfl⟩
    refine ⟨(l₀, node), hl₀, ?_⟩
    simp only
    split_ifs <;> rfl

/-- **A file that is moved** stands at its new location, and not at the old one. -/
theorem node?_moveTree (hs : fs.Sound) {source target : Location} {node : Node}
    (hnode : fs.node? source = some node) (hfile : node ≠ .directory)
    (htarget : fs.node? target = none) (l : Location) :
    (fs.moveTree source target).node? l =
      if l = target then some node else if l = source then none else fs.node? l := by
  have hsource : fs.node? source ≠ some .directory := by
    rw [hnode]
    exact fun h => hfile (Option.some.inj h)
  have hne : target ≠ source := by
    rintro rfl
    rw [hnode] at htarget
    cases htarget
  have hnil : target ≠ [] := by
    rintro rfl
    cases htarget
  by_cases hl : l = []
  · rw [hl, if_neg (Ne.symm hnil), if_neg (Ne.symm (ne_nil_of_node?_ne hsource))]
    rfl
  ext node'
  rw [← mem_entries_iff (hs.nodup_moveTree hsource htarget) hl, hs.mem_entries_moveTree hsource]
  split_ifs with ht hsrc
  · subst ht
    constructor
    · rintro ⟨l₀, hl₀, heq⟩
      split_ifs at heq with h
      · rw [h, mem_entries_iff hs.nodup (ne_nil_of_node?_ne hsource), hnode] at hl₀
        exact hl₀
      · rw [← heq, mem_entries_iff hs.nodup hl, htarget] at hl₀
        cases hl₀
    · rintro ⟨⟩
      exact ⟨source, (mem_entries_iff hs.nodup (ne_nil_of_node?_ne hsource)).mpr hnode,
        (if_pos rfl).symm⟩
  · refine iff_of_false ?_ (by simp)
    rintro ⟨l₀, _, heq⟩
    split_ifs at heq with h
    · exact ht heq
    · exact h (heq ▸ hsrc)
  · constructor
    · rintro ⟨l₀, hl₀, heq⟩
      split_ifs at heq with h
      · exact absurd heq ht
      · rw [← heq] at hl₀
        exact (mem_entries_iff hs.nodup hl).mp hl₀
    · intro hfound
      exact ⟨l, (mem_entries_iff hs.nodup hl).mpr hfound, (if_neg hsrc).symm⟩

/-- **A file that is moved** leaves a sound file system. -/
theorem moveTree (hs : fs.Sound) {source : Location} {name : Name} {dir : Location} {node : Node}
    (hnode : fs.node? source = some node) (hfile : node ≠ .directory)
    (htarget : fs.node? (name :: dir) = none) (hname : name.IsEntry)
    (hdir : fs.node? dir = some .directory) : (fs.moveTree source (name :: dir)).Sound := by
  have hsource : fs.node? source ≠ some .directory := by
    rw [hnode]
    exact fun h => hfile (Option.some.inj h)
  have hfind := hs.node?_moveTree hnode hfile htarget
  have hkept : ∀ {l}, fs.node? l = some .directory →
      (fs.moveTree source (name :: dir)).node? l = some .directory := by
    intro l hl
    rw [hfind, if_neg, if_neg, hl]
    · rintro rfl
      exact hsource hl
    · rintro rfl
      rw [hl] at htarget
      cases htarget
  -- where a file stands now, it stood before, or it is the one that was moved
  have hback : ∀ {l node'}, (fs.moveTree source (name :: dir)).node? l = some node' →
      (l = name :: dir ∧ node' = node) ∨ (l ≠ source ∧ fs.node? l = some node') := by
    intro l node' hl
    rw [hfind] at hl
    split_ifs at hl with ht hsrc
    · exact Or.inl ⟨ht, (Option.some.inj hl).symm⟩
    · exact Or.inr ⟨hsrc, hl⟩
  refine ⟨hs.nodup_moveTree hsource htarget, ?_, ?_, ?_, hkept hs.cwd⟩
  · intro name' dir' h
    obtain ⟨node', hnode'⟩ := Option.ne_none_iff_exists'.mp h
    rcases hback hnode' with ⟨heq, _⟩ | ⟨_, hold⟩
    · obtain ⟨rfl, rfl⟩ := List.cons.inj heq
      exact ⟨hname, hkept hdir⟩
    · obtain ⟨hname', hdir'⟩ := hs.parent name' dir' (by rw [hold]; exact Option.some_ne_none _)
      exact ⟨hname', hkept hdir'⟩
  · intro l id h
    rcases hback h with ⟨_, rfl⟩ | ⟨_, hold⟩
    · exact hs.stored source id hnode
    · exact hs.stored l id hold
  · intro l l' id h h'
    rcases hback h with ⟨hl, hnode₁⟩ | ⟨hl, hold⟩ <;>
      rcases hback h' with ⟨hl', hnode₂⟩ | ⟨hl', hold'⟩
    · rw [hl, hl']
    · exact absurd (hs.once l' source id hold' (hnode₁ ▸ hnode)) hl'
    · exact absurd (hs.once l source id hold (hnode₂ ▸ hnode)) hl
    · exact hs.once l l' id hold hold'

end Sound

/-! ## The entries of a directory -/

section Children

variable {dir : Location}

theorem isIn_iff {loc : Location} : isIn dir loc = true ↔ ∃ name, loc = name :: dir := by
  cases loc with
  | nil => simp [isIn]
  | cons name parent => simp [isIn]

theorem mem_children_iff (hs : fs.Sound) {name : Name} {node : Node} :
    (name, node) ∈ fs.children dir ↔ fs.node? (name :: dir) = some node := by
  rw [← mem_entries_iff hs.nodup (List.cons_ne_nil name dir)]
  unfold children
  constructor
  · intro h
    obtain ⟨⟨loc, node'⟩, hmem, heq⟩ := List.mem_filterMap.mp h
    rw [List.mem_filter] at hmem
    obtain ⟨name', rfl⟩ := isIn_iff.mp hmem.2
    simp only [List.head?_cons, Option.map_some, Option.some.injEq, Prod.mk.injEq] at heq
    rw [← heq.1, ← heq.2]
    exact hmem.1
  · intro h
    exact List.mem_filterMap.mpr
      ⟨(name :: dir, node), List.mem_filter.mpr ⟨h, isIn_iff.mpr ⟨name, rfl⟩⟩, rfl⟩

theorem children_nodup (hs : fs.Sound) (dir : Location) :
    (fs.children dir).Pairwise (fun a b => a.1 ≠ b.1) := by
  unfold children
  rw [List.pairwise_filterMap]
  have hlocs : fs.entries.Pairwise (fun a b => a.1 ≠ b.1) := List.pairwise_map.mp hs.nodup
  refine (hlocs.sublist List.filter_sublist).imp_of_mem ?_
  rintro ⟨loc, node⟩ ⟨loc', node'⟩ hmem hmem' hne ⟨name, _⟩ h ⟨name', _⟩ h' heq
  obtain ⟨n, rfl⟩ := isIn_iff.mp (List.mem_filter.mp hmem).2
  obtain ⟨n', rfl⟩ := isIn_iff.mp (List.mem_filter.mp hmem').2
  simp only [List.head?_cons, Option.map_some, Option.some.injEq, Prod.mk.injEq] at h h' heq
  exact hne (by rw [h.1, h'.1, heq])

end Children

end FileSystem

end LogRouter
