import LogRouter.Files.FileSystem
import LogRouter.Proofs.Path.Parts

/-!
# Walks

* `FileSystem.follow`: the walk through all parts, the last of them included, as directories.
* `walk_concat`, `exists_of_walk_entry`: a walk follows all parts but the last, and ends in the
  directory that holds the entry of that name.
* `FileSystem.reach`: the directory that a path leads to, by its steps alone.
* **`locate_join`**, **`lookup_directory_iff`**: the entries of a directory stand where their
  names behind its path lead.
* **`reach_parent?`**: the parent of a path to an entry is the path of its directory.
* `DirsKept`: no directory is lost, so what is reached stays reached.
-/

namespace LogRouter

namespace FileSystem

/-! ## Following parts -/

/-- Follows all parts of a path from a directory to a directory. -/
def follow (fs : FileSystem) (origin : Location) : List Name → Except IoError Location
  | [] => .ok origin
  | part :: rest =>
    if part = ['.'] then fs.follow origin rest
    else if part = ['.', '.'] then fs.follow origin.tail rest
    else
      match fs.find (part :: origin) with
      | .error e => .error e
      | .ok none => .error .notFound
      | .ok (some .directory) => fs.follow (part :: origin) rest
      | .ok (some _) => .error .notADirectory

variable {fs fs' : FileSystem}

theorem permit_eq_ok_iff {α : Type} {access : Access} {loc : Location} {result result' : α} :
    fs.permit access loc result = .ok result' ↔
      fs.refusal? access loc = none ∧ result = result' := by
  unfold permit
  cases fs.refusal? access loc <;> simp

theorem permit_of_none {α : Type} {access : Access} {loc : Location}
    (h : fs.refusal? access loc = none) (result : α) : fs.permit access loc result = .ok result :=
  permit_eq_ok_iff.mpr ⟨h, rfl⟩

theorem find_eq_ok {loc : Location} {node? : Option Node} (h : fs.find loc = .ok node?) :
    byteLength (loc.headD []) ≤ maxNameLength ∧ fs.node? loc = node? := by
  unfold find at h
  split_ifs at h with hlong
  rw [Except.ok.injEq] at h
  exact ⟨Nat.le_of_not_lt hlong, h⟩

theorem find_of_fits {loc : Location} (h : byteLength (loc.headD []) ≤ maxNameLength) :
    fs.find loc = .ok (fs.node? loc) := if_neg (Nat.not_lt.mpr h)

theorem find_cons_of_fits {name : Name} (h : byteLength name ≤ maxNameLength) (dir : Location) :
    fs.find (name :: dir) = .ok (fs.node? (name :: dir)) := find_of_fits h

theorem node?_of_follow : ∀ {parts : List Name} {origin loc : Location},
    fs.node? origin = some .directory → (∀ loc, fs.node? loc ≠ none → fs.node? loc.tail = some .directory) →
    fs.follow origin parts = .ok loc → fs.node? loc = some .directory
  | [], origin, loc, ho, _, h => by
    rw [follow, Except.ok.injEq] at h
    rwa [← h]
  | part :: rest, origin, loc, ho, hp, h => by
    unfold follow at h
    split_ifs at h
    · exact node?_of_follow ho hp h
    · refine node?_of_follow (hp origin ?_) hp h
      rw [ho]
      exact Option.some_ne_none _
    · split at h
      case h_3 hfind => exact node?_of_follow (find_eq_ok hfind).2 hp h
      all_goals cases h

theorem follow_filter : ∀ (parts : List Name) (origin : Location),
    fs.follow origin (parts.filter (· ≠ ['.'])) = fs.follow origin parts
  | [], _ => rfl
  | part :: rest, origin => by
    by_cases hdot : part = ['.']
    · rw [List.filter_cons_of_neg (by simp [hdot]), follow_filter rest, follow, if_pos hdot]
    · rw [List.filter_cons_of_pos (by simp [hdot]), follow, follow, if_neg hdot, if_neg hdot]
      split_ifs
      · exact follow_filter rest _
      · split
        · rfl
        · rfl
        · exact follow_filter rest _
        · rfl

/-- **A walk follows all parts but the last.** -/
theorem walk_concat {name : Name} (hc : name ≠ ['.']) (hp : name ≠ ['.', '.']) (slash : Bool) :
    ∀ (front : List Name) (origin : Location), fs.walk slash origin (front ++ [name]) =
      match fs.follow origin front with
      | .error e => .error e
      | .ok loc => .ok (.entry (name :: loc) slash)
  | [], origin => by
    rw [List.nil_append, walk, if_neg hc, if_neg hp]
    rfl
  | part :: rest, origin => by
    rw [List.cons_append, walk.eq_def, follow]
    simp only
    split_ifs
    · exact walk_concat hc hp slash rest origin
    · exact walk_concat hc hp slash rest origin.tail
    · obtain ⟨next, more, hnext⟩ := List.exists_cons_of_ne_nil
        (List.append_ne_nil_of_right_ne_nil rest (List.cons_ne_nil name []))
      rw [hnext]
      simp only
      rw [← hnext]
      rcases fs.find (part :: origin) with e | _ | node
      · rfl
      · rfl
      · cases node with
        | directory => exact walk_concat hc hp slash rest (part :: origin)
        | file id => rfl
        | fullDevice => rfl

theorem exists_of_walk_entry {slash slash' : Bool} : ∀ {parts : List Name} {origin loc : Location},
    fs.walk slash origin parts = .ok (.entry loc slash') →
      ∃ front name dir, parts = front ++ [name] ∧ name ≠ ['.'] ∧ name ≠ ['.', '.'] ∧
        fs.follow origin front = .ok dir ∧ loc = name :: dir ∧ slash' = slash
  | [], origin, loc, h => by
    rw [walk] at h
    cases h
  | part :: rest, origin, loc, h => by
    unfold walk at h
    split_ifs at h with hc hp
    · obtain ⟨front, name, dir, rfl, hrest⟩ := exists_of_walk_entry h
      exact ⟨part :: front, name, dir, rfl, by rwa [follow, if_pos hc]⟩
    · obtain ⟨front, name, dir, rfl, hrest⟩ := exists_of_walk_entry h
      exact ⟨part :: front, name, dir, rfl, by rwa [follow, if_neg hc, if_pos hp]⟩
    · cases rest with
      | nil =>
        simp only [Except.ok.injEq, Place.entry.injEq] at h
        exact ⟨[], part, origin, rfl, hc, hp, rfl, h.1.symm, h.2.symm⟩
      | cons next more =>
        simp only at h
        split at h
        case h_3 hfind =>
          obtain ⟨front, name, dir, heq, hrest⟩ := exists_of_walk_entry h
          refine ⟨part :: front, name, dir, by rw [heq, List.cons_append], ?_⟩
          rwa [follow, if_neg hc, if_neg hp, hfind]
        all_goals cases h

theorem follow_eq_walk (slash : Bool) : ∀ (parts : List Name) (origin : Location),
    fs.follow origin parts =
      match fs.walk slash origin parts with
      | .error e => .error e
      | .ok (.unnamed loc) => .ok loc
      | .ok (.entry loc _) =>
        match fs.find loc with
        | .error e => .error e
        | .ok none => .error .notFound
        | .ok (some .directory) => .ok loc
        | .ok (some _) => .error .notADirectory
  | [], origin => rfl
  | part :: rest, origin => by
    rw [follow, walk.eq_def]
    simp only
    split_ifs
    · exact follow_eq_walk slash rest origin
    · exact follow_eq_walk slash rest origin.tail
    · cases rest with
      | nil => simp only [follow]
      | cons next more =>
        rcases fs.find (part :: origin) with e | _ | node
        · rfl
        · rfl
        · cases node with
          | directory => exact follow_eq_walk slash (next :: more) (part :: origin)
          | file id => rfl
          | fullDevice => rfl

/-! ## Texts that are not too long -/

theorem byteLength_append (a b : List Char) : byteLength (a ++ b) = byteLength a + byteLength b := by
  have hshift : ∀ (s : List Char) (n : Nat),
      s.foldl (fun n c => n + c.utf8Size) n = n + byteLength s := by
    intro s
    induction s with
    | nil => exact fun n => rfl
    | cons c s ih =>
      intro n
      unfold byteLength
      rw [List.foldl_cons, List.foldl_cons, ih, ih, Nat.zero_add, Nat.add_assoc]
  rw [byteLength, List.foldl_append, hshift]
  rfl

theorem byteLength_mono {a b : List Char} (h : a <+: b) : byteLength a ≤ byteLength b := by
  obtain ⟨tail, rfl⟩ := h
  rw [byteLength_append]
  exact Nat.le_add_right _ _

/-- The text of a path is one that the system looks at. -/
structure Fits (p : Path) : Prop where
  no_nul : '\x00' ∉ p.chars
  length_le : byteLength p.chars ≤ maxPathLength

theorem Fits.front {p q : Path} (h : Fits p) (hq : q.chars <+: p.chars) : Fits q :=
  ⟨fun hn => h.no_nul (hq.subset hn), (byteLength_mono hq).trans h.length_le⟩

/-- Where a path that is not empty starts. -/
def originOf (fs : FileSystem) (p : Path) : Location := if p.isAbsolute then [] else fs.cwd

theorem locate_of_fits {p : Path} (h : Fits p) (hne : p.chars ≠ []) :
    fs.locate p = fs.walk (p.chars.getLast? == some '/') (fs.originOf p) p.parts := by
  unfold locate
  rw [if_neg h.no_nul, if_neg hne, if_neg (Nat.not_lt.mpr h.length_le)]
  rfl

theorem locate_of_not_fits (fs : FileSystem) {p : Path} (h : ¬ Fits p) (hne : p.chars ≠ []) :
    fs.locate p = .error .nulInPath ∨ fs.locate p = .error .nameTooLong := by
  unfold locate
  by_cases hnul : '\x00' ∈ p.chars
  · rw [if_pos hnul]
    exact Or.inl rfl
  by_cases hlong : maxPathLength < byteLength p.chars
  · rw [if_neg hnul, if_neg hne, if_pos hlong]
    exact Or.inr rfl
  · exact absurd ⟨hnul, Nat.le_of_not_lt hlong⟩ h

theorem fits_of_locate {p : Path} {place : Place} (h : fs.locate p = .ok place) :
    Fits p ∧ p.chars ≠ [] := by
  unfold locate at h
  split_ifs at h with hnul hnil hlong
  all_goals exact ⟨⟨hnul, Nat.le_of_not_lt hlong⟩, hnil⟩

/-! ## Directories -/

/-- The directory that a path leads to, by its steps alone. -/
def reach (fs : FileSystem) (p : Path) : Except IoError Location :=
  fs.follow (fs.originOf p) p.steps

theorem reach_eq_follow_parts (p : Path) : fs.reach p = fs.follow (fs.originOf p) p.parts := by
  unfold reach
  rw [Path.steps_eq_parts_filter, follow_filter]

/-- **The entries of a directory stand where their names behind its path lead.** -/
theorem locate_join {p : Path} {name : Name} (h : name.IsEntry) (hfits : Fits (p.join ⟨name⟩)) :
    fs.locate (p.join ⟨name⟩) =
      match fs.reach p with
      | .error e => .error e
      | .ok dir => .ok (.entry (name :: dir) false) := by
  have horigin : fs.originOf (p.join ⟨name⟩) = fs.originOf p := by
    unfold originOf
    rw [Path.isAbsolute_join h]
  have hslash : ((p.join ⟨name⟩).chars.getLast? == some '/') = false := by
    rw [beq_eq_false_iff_ne]
    exact Path.getLast?_join h
  rw [locate_of_fits hfits (Path.join_ne_nil h), horigin, hslash, Path.parts_join h.isPart,
    walk_concat h.ne_current h.ne_parent, reach_eq_follow_parts]

/-- **A path leads to a directory if and only if it reaches it.** -/
theorem lookup_directory_iff {p : Path} (hfits : Fits p) (hne : p.chars ≠ []) {loc : Location} :
    fs.lookup p = .ok (loc, .directory) ↔ fs.reach p = .ok loc := by
  rw [reach_eq_follow_parts, follow_eq_walk (p.chars.getLast? == some '/'),
    ← locate_of_fits hfits hne, lookup]
  rcases fs.locate p with e | (unnamed | ⟨entry, slash⟩)
  · simp
  · simp
  · simp only
    rcases fs.find entry with e | _ | node
    · simp
    · simp
    · cases node <;> cases slash <;> simp

theorem reach_of_lookup {p : Path} {loc : Location} (h : fs.lookup p = .ok (loc, .directory)) :
    fs.reach p = .ok loc := by
  cases hl : fs.locate p with
  | error e => rw [lookup, hl] at h; cases h
  | ok place =>
    obtain ⟨hfits, hne⟩ := fits_of_locate hl
    exact (lookup_directory_iff hfits hne).mp h

theorem node?_of_lookup {p : Path} {loc : Location} {id : Nat}
    (h : fs.lookup p = .ok (loc, .file id)) : fs.node? loc = some (.file id) := by
  unfold lookup at h
  rcases hlocate : fs.locate p with e | (unnamed | ⟨entry, slash⟩)
  · rw [hlocate] at h; cases h
  · rw [hlocate] at h; cases h
  · rw [hlocate] at h
    simp only at h
    rcases hfind : fs.find entry with e | _ | node
    · rw [hfind] at h; cases h
    · rw [hfind] at h; cases h
    · rw [hfind] at h
      cases node with
      | directory => cases h
      | file _ | fullDevice =>
        simp only at h
        split_ifs at h
        obtain ⟨rfl, hnode⟩ := Prod.mk.inj (Except.ok.inj h)
        rw [← hnode]
        exact (find_eq_ok hfind).2

theorem of_lookup_join {p : Path} {name : Name} (h : name.IsEntry) {loc : Location} {node : Node}
    (hl : fs.lookup (p.join ⟨name⟩) = .ok (loc, node)) :
    ∃ dir, loc = name :: dir ∧ fs.reach p = .ok dir ∧ Fits (p.join ⟨name⟩) ∧
      byteLength name ≤ maxNameLength ∧ fs.node? loc = some node := by
  cases hlocate : fs.locate (p.join ⟨name⟩) with
  | error e => rw [lookup, hlocate] at hl; cases hl
  | ok place =>
    have hfits := (fits_of_locate hlocate).1
    rw [locate_join h hfits] at hlocate
    split at hlocate
    case h_1 => cases hlocate
    case h_2 dir hreach =>
      rw [lookup, locate_join h hfits, hreach] at hl
      simp only at hl
      rcases hfind : fs.find (name :: dir) with e | _ | found
      · rw [hfind] at hl; cases hl
      · rw [hfind] at hl; cases hl
      · obtain ⟨hshort, hnode⟩ := find_eq_ok hfind
        rw [hfind] at hl
        have heq : (name :: dir, found) = (loc, node) := by
          cases found <;> exact Except.ok.inj hl
        obtain ⟨rfl, rfl⟩ := Prod.mk.inj heq
        exact ⟨dir, rfl, hreach, hfits, hshort, hnode⟩

theorem locate_join_of_reach {p : Path} {name : Name} {dir : Location}
    (hreach : fs.reach p = .ok dir) (h : name.IsEntry) (hfits : Fits (p.join ⟨name⟩)) :
    fs.locate (p.join ⟨name⟩) = .ok (.entry (name :: dir) false) := by
  rw [locate_join h hfits, hreach]

theorem eq_of_locate_join {p : Path} {name : Name} {dir : Location} (hreach : fs.reach p = .ok dir)
    (h : name.IsEntry) {loc : Location} {slash : Bool}
    (hl : fs.locate (p.join ⟨name⟩) = .ok (.entry loc slash)) : loc = name :: dir := by
  rw [locate_join_of_reach hreach h (fits_of_locate hl).1] at hl
  simp only [Except.ok.injEq, Place.entry.injEq] at hl
  exact hl.1.symm

theorem lookup_join_iff {p : Path} {name : Name} {dir : Location} (hreach : fs.reach p = .ok dir)
    (h : name.IsEntry) {id : Nat} :
    fs.lookup (p.join ⟨name⟩) = .ok (name :: dir, .file id) ↔
      Fits (p.join ⟨name⟩) ∧ byteLength name ≤ maxNameLength ∧
        fs.node? (name :: dir) = some (.file id) := by
  constructor
  · intro hl
    obtain ⟨_, _, _, hfits, hshort, hnode⟩ := of_lookup_join h hl
    exact ⟨hfits, hshort, hnode⟩
  · rintro ⟨hfits, hshort, hid⟩
    rw [lookup, locate_join_of_reach hreach h hfits]
    simp only
    rw [find_cons_of_fits hshort, hid]
    rfl

theorem exists_of_locate_entry {p : Path} {loc : Location} {slash : Bool}
    (h : fs.locate p = .ok (.entry loc slash)) :
    ∃ front name dir, p.parts = front ++ [name] ∧ name.IsEntry ∧
      fs.follow (fs.originOf p) front = .ok dir ∧ loc = name :: dir ∧
      slash = (p.chars.getLast? == some '/') := by
  obtain ⟨hfits, hne⟩ := fits_of_locate h
  rw [locate_of_fits hfits hne] at h
  obtain ⟨front, name, dir, hparts, hc, hp, hfollow, hloc, hslash⟩ := exists_of_walk_entry h
  have hmem : name ∈ p.parts := by rw [hparts]; simp
  unfold Path.parts at hmem
  rw [List.mem_filter, decide_eq_true_eq] at hmem
  refine ⟨front, name, dir, hparts, ⟨hmem.2, hc, hp, ?_, ?_⟩, hfollow, hloc, hslash⟩
  · exact Path.no_slash_of_mem_split name hmem.1
  · exact fun hn => hfits.no_nul (Path.mem_of_mem_split hmem.1 hn)

theorem isEntry_of_locate_join {p : Path} {name : Name} (h : name.IsPart) {loc : Location}
    {slash : Bool} (hl : fs.locate (p.join ⟨name⟩) = .ok (.entry loc slash)) :
    name.IsEntry ∧ ∃ dir, loc = name :: dir ∧ fs.reach p = .ok dir := by
  obtain ⟨front, name', dir, hparts, hentry, _, hloc, _⟩ := exists_of_locate_entry hl
  rw [Path.parts_join h] at hparts
  have hname := (List.cons.inj (List.append_inj' hparts rfl).2).1
  subst hname
  refine ⟨hentry, dir, hloc, ?_⟩
  rw [locate_join hentry (fits_of_locate hl).1, hloc] at hl
  split at hl
  · cases hl
  · rename_i dir' hreach
    obtain ⟨hplace, -⟩ : name :: dir' = name :: dir ∧ false = slash := by simpa using hl
    rw [hreach, (List.cons.inj hplace).2]

/-- **The parent of a path to an entry is the path of its directory.** -/
theorem reach_parent? {p : Path} {name : Name} {dir : Location}
    (h : fs.locate p = .ok (.entry (name :: dir) false)) :
    name.IsEntry ∧ p.fileName? = some name ∧
      ∃ q, p.parent? = some q ∧ fs.reach q = .ok dir ∧ Fits q := by
  obtain ⟨front, name', dir', hparts, hentry, hfollow, hloc, hslash⟩ := exists_of_locate_entry h
  obtain ⟨rfl, rfl⟩ := List.cons.inj hloc
  have hlast : p.chars.getLast? ≠ some '/' := by
    rw [eq_comm, beq_eq_false_iff_ne] at hslash
    exact hslash
  obtain ⟨start, hsplit, hstart⟩ := Path.split_of_parts hparts hlast
  obtain ⟨hname, q, hq, habs, hsteps, hprefix⟩ := Path.exists_parent? hentry hsplit
  refine ⟨hentry, hname, q, hq, ?_, (fits_of_locate h).1.front hprefix⟩
  rw [reach, hsteps, hstart, follow_filter, originOf, habs]
  exact hfollow

/-! ## Directories that stay -/

/-- No directory is lost, the current one is the same, and so is what the system refuses. -/
structure DirsKept (fs fs' : FileSystem) : Prop where
  cwd : fs'.cwd = fs.cwd
  refusal : fs'.refusal? = fs.refusal?
  kept : ∀ loc, fs.node? loc = some .directory → fs'.node? loc = some .directory

theorem DirsKept.refl (fs : FileSystem) : DirsKept fs fs := ⟨rfl, rfl, fun _ h => h⟩

theorem DirsKept.trans {fs₁ fs₂ fs₃ : FileSystem} (h : DirsKept fs₁ fs₂) (h' : DirsKept fs₂ fs₃) :
    DirsKept fs₁ fs₃ :=
  ⟨h'.cwd.trans h.cwd, h'.refusal.trans h.refusal, fun loc hl => h'.kept loc (h.kept loc hl)⟩

theorem DirsKept.follow (hk : DirsKept fs fs') : ∀ {parts : List Name} {origin loc : Location},
    fs.follow origin parts = .ok loc → fs'.follow origin parts = .ok loc
  | [], _, _, h => h
  | part :: rest, origin, loc, h => by
    unfold FileSystem.follow at h ⊢
    split_ifs at h ⊢
    · exact hk.follow h
    · exact hk.follow h
    · split at h
      case h_3 hfind =>
        obtain ⟨hshort, hdir⟩ := find_eq_ok hfind
        rw [find_of_fits hshort, hk.kept _ hdir]
        exact hk.follow h
      all_goals cases h

theorem follow_both {fs₁ fs₂ : FileSystem} (hkeep : ∀ loc, fs₁.node? loc = some .directory →
      fs₂.node? loc = some .directory → fs'.node? loc = some .directory) :
    ∀ {parts : List Name} {origin loc₁ loc₂ : Location}, fs₁.follow origin parts = .ok loc₁ →
      fs₂.follow origin parts = .ok loc₂ → loc₁ = loc₂ ∧ fs'.follow origin parts = .ok loc₂
  | [], _, _, _, h₁, h₂ => by
    rw [FileSystem.follow, Except.ok.injEq] at h₁ h₂
    exact ⟨h₁.symm.trans h₂, congrArg _ h₂⟩
  | part :: rest, origin, loc₁, loc₂, h₁, h₂ => by
    unfold FileSystem.follow at h₁ h₂ ⊢
    split_ifs at h₁ h₂ ⊢
    · exact follow_both hkeep h₁ h₂
    · exact follow_both hkeep h₁ h₂
    · split at h₁
      case h_3 hfind₁ =>
        split at h₂
        case h_3 hfind₂ =>
          obtain ⟨hshort, hdir₁⟩ := find_eq_ok hfind₁
          rw [find_of_fits hshort, hkeep _ hdir₁ (find_eq_ok hfind₂).2]
          exact follow_both hkeep h₁ h₂
        all_goals cases h₂
      all_goals cases h₁

theorem DirsKept.locate (hk : DirsKept fs fs') {p : Path} {loc : Location} {slash : Bool}
    (h : fs.locate p = .ok (.entry loc slash)) : fs'.locate p = .ok (.entry loc slash) := by
  obtain ⟨hfits, hne⟩ := fits_of_locate h
  obtain ⟨front, name, dir, hparts, hname, hfollow, hloc, hslash⟩ := exists_of_locate_entry h
  have hfollow' := hk.follow hfollow
  have horigin : fs'.originOf p = fs.originOf p := by
    unfold originOf
    rw [hk.cwd]
  rw [locate_of_fits hfits hne, hparts, walk_concat hname.ne_current hname.ne_parent, horigin,
    hfollow', hloc, hslash]

/-- **What is reached stays reached.** -/
theorem DirsKept.reach (hk : DirsKept fs fs') {p : Path} {loc : Location}
    (h : fs.reach p = .ok loc) : fs'.reach p = .ok loc := by
  unfold FileSystem.reach originOf at *
  rw [hk.cwd]
  exact hk.follow h

theorem DirsKept.lookup (hk : DirsKept fs fs') {p : Path} {loc : Location}
    (h : fs.lookup p = .ok (loc, .directory)) : fs'.lookup p = .ok (loc, .directory) := by
  cases hl : fs.locate p with
  | error e => rw [FileSystem.lookup, hl] at h; cases h
  | ok place =>
    obtain ⟨hfits, hne⟩ := fits_of_locate hl
    exact (lookup_directory_iff hfits hne).mpr (hk.reach (reach_of_lookup h))

end FileSystem

end LogRouter
