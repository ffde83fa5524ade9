import LogRouter.Proofs.Files.Operations

/-!
# Renaming anything

`rename_spec` says what renaming a file does. A directory can be renamed as well, and takes along
what is below it.

* `node?_moveTree_apart`, `node?_moveTree_source`, `node?_moveTree_target`: the entries after a move
  of anything.
* **`renameEntry_keeps`**: a renamed entry is gone from its place, and no directory is lost but the
  entry and those below it.
* `rename_kept`: a renaming changes no stored content.
* **`rename_frees`**: a path that once led to a place of files leads to a free place when what stands
  there was renamed.
-/

namespace LogRouter

namespace FileSystem

variable {fs fs' : FileSystem} {source target l : Location}

/-! ## Locations below another -/

theorem isBelow_self (loc : Location) : isBelow loc loc = true :=
  List.isSuffixOf_iff_suffix.mpr List.suffix_rfl

theorem isBelow_append (front loc : Location) : isBelow loc (front ++ loc) = true :=
  List.isSuffixOf_iff_suffix.mpr (List.suffix_append front loc)

theorem eq_of_below_empty (hs : fs.Sound) (hempty : (fs.children target).isEmpty = true) :
    ∀ {l : Location}, isBelow target l = true → fs.node? l ≠ none → l = target
  | [], hl, _ => (List.suffix_nil.mp (List.isSuffixOf_iff_suffix.mp hl)).symm
  | name :: dir, hl, hn => by
    rcases List.suffix_cons_iff.mp (List.isSuffixOf_iff_suffix.mp hl) with hl | hl
    · exact hl.symm
    · obtain ⟨_, hdir⟩ := hs.parent name dir hn
      obtain rfl := eq_of_below_empty hs hempty (l := dir) (List.isSuffixOf_iff_suffix.mpr hl)
        (by rw [hdir]; exact Option.some_ne_none _)
      obtain ⟨node, hnode⟩ := Option.ne_none_iff_exists'.mp hn
      have hmem := (mem_children_iff hs).mpr hnode
      rw [List.isEmpty_iff.mp hempty] at hmem
      exact absurd hmem List.not_mem_nil

/-! ## Moving an entry with everything below it -/

/-- Where an entry goes when another one is moved. -/
def movedTo (source target : Location) (entry : Location × Node) : Location × Node :=
  if isBelow source entry.1 then
    (entry.1.take (entry.1.length - source.length) ++ target, entry.2)
  else entry

theorem node?_eq_find? (fs : FileSystem) (hl : l ≠ []) :
    fs.node? l = (fs.entries.find? fun entry => entry.1 == l).map Prod.snd := node?_of_ne_nil hl

theorem node?_moveTree_eq_find? (fs : FileSystem) (hl : l ≠ []) : (fs.moveTree source target).node? l =
    ((fs.entries.map (movedTo source target)).find? fun entry => entry.1 == l).map Prod.snd :=
  node?_of_ne_nil hl

theorem movedTo_of_below {entry : Location × Node} (h : isBelow source entry.1 = true) :
    isBelow target (movedTo source target entry).1 = true := by
  unfold movedTo
  rw [if_pos h]
  exact isBelow_append _ _

theorem movedTo_of_not_below {entry : Location × Node} (h : isBelow source entry.1 = false) :
    movedTo source target entry = entry := if_neg (by rw [h]; exact Bool.false_ne_true)

theorem node?_moveTree_apart (hs : isBelow source l = false) (ht : isBelow target l = false) :
    (fs.moveTree source target).node? l = fs.node? l := by
  by_cases hl : l = []
  · rw [hl]
    rfl
  rw [node?_eq_find? fs hl, node?_moveTree_eq_find? fs hl]
  induction fs.entries with
  | nil => rfl
  | cons entry entries ih =>
    rw [List.map_cons, List.find?_cons, List.find?_cons]
    cases hbelow : isBelow source entry.1 with
    | true =>
      have hne : ∀ {loc : Location}, isBelow source loc = true ∨ isBelow target loc = true →
          (loc == l) = false := by
        rintro loc hloc
        rw [beq_eq_false_iff_ne]
        rintro rfl
        rw [hs, ht] at hloc
        simp at hloc
      rw [hne (Or.inr (movedTo_of_below hbelow)), hne (Or.inl hbelow)]
      exact ih
    | false =>
      rw [movedTo_of_not_below hbelow]
      split
      · rfl
      · exact ih

theorem node?_moveTree_source (hsource : source ≠ []) (h : isBelow target source = false) :
    (fs.moveTree source target).node? source = none := by
  rw [node?_moveTree_eq_find? fs hsource, Option.map_eq_none_iff, List.find?_eq_none]
  intro entry hentry heq
  rw [beq_iff_eq] at heq
  obtain ⟨before, _, rfl⟩ := List.mem_map.mp hentry
  cases hbelow : isBelow source before.1 with
  | true =>
    have htarget : isBelow target (movedTo source target before).1 = true := movedTo_of_below hbelow
    rw [heq, h] at htarget
    cases htarget
  | false =>
    rw [movedTo_of_not_below hbelow] at heq
    rw [heq, isBelow_self] at hbelow
    cases hbelow

theorem node?_moveTree_target (hn : (fs.entries.map Prod.fst).Nodup) (hsource : source ≠ [])
    (hfree : fs.node? target = none) :
    (fs.moveTree source target).node? target = fs.node? source := by
  have htarget : target ≠ [] := by
    rintro rfl
    cases hfree
  have hnot := not_mem_of_node?_none hn hfree
  rw [node?_eq_find? fs hsource, node?_moveTree_eq_find? fs htarget]
  generalize fs.entries = entries at hnot
  induction entries with
  | nil => rfl
  | cons entry entries ih =>
    rw [List.map_cons, List.mem_cons, not_or] at hnot
    have hsame : ((movedTo source target entry).1 == target) = (entry.1 == source) := by
      cases hbelow : isBelow source entry.1 with
      | true =>
        obtain ⟨front, hfront⟩ := List.isSuffixOf_iff_suffix.mp hbelow
        unfold movedTo
        rw [if_pos hbelow, ← hfront]
        simp
      | false =>
        rw [movedTo_of_not_below hbelow, beq_eq_false_iff_ne.mpr (Ne.symm hnot.1), eq_comm,
          beq_eq_false_iff_ne]
        intro heq
        rw [heq, isBelow_self] at hbelow
        cases hbelow
    have hnode : (movedTo source target entry).2 = entry.2 := by
      unfold movedTo
      split_ifs <;> rfl
    rw [List.map_cons, List.find?_cons, List.find?_cons, hsame]
    split
    · exact congrArg some hnode
    · exact ih hnot.2

/-! ## Renaming -/

/-- **A renamed entry** is gone from its place, and no directory is lost but the entry and those
below it. -/
theorem renameEntry_keeps (hs : fs.Sound) {node : Node} (hsource : fs.node? source = some node)
    (hnil : source ≠ []) (hne : source ≠ target) (h : fs.renameEntry source target node = .ok fs') :
    fs'.cwd = fs.cwd ∧ fs'.node? source = none ∧
      ∀ loc, fs.node? loc = some .directory → isBelow source loc = false →
        fs'.node? loc = some .directory := by
  unfold renameEntry at h
  rw [if_neg hne] at h
  by_cases hinto : node = .directory ∧ isBelow source target = true
  · rw [if_pos hinto] at h
    cases h
  rw [if_neg hinto] at h
  by_cases hbelow : isBelow target source = true
  · rw [if_pos hbelow] at h
    cases h
  rw [if_neg hbelow] at h
  rw [Bool.not_eq_true] at hbelow
  have hapart : ∀ loc, fs.node? loc = some .directory → fs.node? target ≠ some .directory →
      isBelow target loc = false := by
    intro loc hloc hold
    by_contra hin
    rw [Bool.not_eq_false] at hin
    rw [hs.no_entry_below hold hin (by rw [hloc]; exact Option.some_ne_none _)] at hloc
    exact hold hloc
  have hdropped : ∀ {loc}, target ≠ [] → loc ≠ target → (fs.dropEntry target).node? loc = fs.node? loc :=
    fun hnot hloc => (node?_dropEntry fs hnot _).trans (if_neg hloc)
  split at h
  case h_1 hfree =>
    obtain rfl := Except.ok.inj h
    refine ⟨rfl, node?_moveTree_source hnil hbelow, fun loc hloc hout => ?_⟩
    rw [node?_moveTree_apart hout (hapart loc hloc (by simp [hfree])), hloc]
  case h_2 hold =>
    -- an empty directory gives way to the directory that is renamed
    split_ifs at h with hempty
    obtain rfl := Except.ok.inj h
    have htarget : target ≠ [] := by
      rintro rfl
      rw [isBelow, List.isSuffixOf_iff_suffix.mpr List.nil_suffix] at hbelow
      cases hbelow
    refine ⟨rfl, node?_moveTree_source hnil hbelow, fun loc hloc hout => ?_⟩
    by_cases hin : isBelow target loc = true
    · obtain rfl := eq_of_below_empty hs hempty hin (by rw [hloc]; exact Option.some_ne_none _)
      have hdrop := node?_dropEntry fs htarget
      have hnodup : ((fs.dropEntry loc).entries.map Prod.fst).Nodup :=
        hs.nodup.sublist (List.filter_sublist.map _)
      rw [node?_moveTree_target hnodup hnil ((hdrop loc).trans (if_pos rfl)),
        hdropped htarget hne, hsource]
    · rw [node?_moveTree_apart hout (Bool.not_eq_true _ ▸ hin), hdropped htarget, hloc]
      rintro rfl
      exact hin (isBelow_self _)
  case h_3 => cases h
  case h_4 => cases h
  case h_5 hfile hold _ _ =>
    obtain rfl := Except.ok.inj h
    have hold : fs.node? target ≠ some .directory := by
      rw [hold]
      exact fun heq => hfile (Option.some.inj heq)
    refine ⟨rfl, node?_moveTree_source hnil hbelow, fun loc hloc hout => ?_⟩
    rw [node?_moveTree_apart hout (hapart loc hloc hold), hdropped (ne_nil_of_node?_ne hold), hloc]
    rintro rfl
    exact hold hloc

/-- A path led to a place of files in some state with the given current directory. -/
def OnceOpened (cwd : Location) (p : Path) : Prop :=
  ∃ fs : FileSystem, fs.Sound ∧ fs.cwd = cwd ∧ ∃ loc, fs.locate p = .ok (.entry loc false) ∧
    fs.node? loc ≠ some .directory

theorem rename_places {p q : Path} (h : fs.rename p q = .ok fs') :
    ∃ source slash target slash' node, fs.locate p = .ok (.entry source slash) ∧
      fs.locate q = .ok (.entry target slash') ∧ byteLength (source.headD []) ≤ maxNameLength ∧
      fs.node? source = some node ∧ fs.renameEntry source target node = .ok fs' := by
  unfold rename at h
  rcases hp : fs.locate p with e | (loc | ⟨source, slash⟩)
  · rw [hp] at h; cases h
  · rw [hp] at h
    rcases hq : fs.locate q with e | place <;> rw [hq] at h <;> cases h
  rcases hq : fs.locate q with e | (loc | ⟨target, slash'⟩)
  · rw [hp, hq] at h; cases h
  · rw [hp, hq] at h; cases h
  rw [hp, hq] at h
  simp only [renamePlace] at h
  rcases hsource : fs.find source with e | _ | node
  · rw [hsource] at h; cases h
  · rw [hsource] at h; cases h
  rcases htarget : fs.find target with e | node'
  · rw [hsource, htarget] at h; cases h
  rw [hsource, htarget] at h
  simp only at h
  split_ifs at h
  obtain ⟨hshort, hnode⟩ := find_eq_ok hsource
  exact ⟨source, slash, target, slash', node, rfl, rfl, hshort, hnode, h⟩

theorem rename_kept {p q : Path} (h : fs.rename p q = .ok fs') :
    fs'.stored = fs.stored ∧ fs'.refusal? = fs.refusal? := by
  obtain ⟨source, _, target, _, node, _, _, _, _, hentry⟩ := rename_places h
  unfold renameEntry at hentry
  split at hentry
  · obtain rfl := Except.ok.inj hentry
    exact ⟨rfl, rfl⟩
  split at hentry
  · cases hentry
  split at hentry
  · cases hentry
  split at hentry
  case h_1 | h_5 =>
    obtain rfl := Except.ok.inj hentry
    exact ⟨rfl, rfl⟩
  case h_2 =>
    split_ifs at hentry
    obtain rfl := Except.ok.inj hentry
    exact ⟨rfl, rfl⟩
  case h_3 | h_4 => cases hentry

/-- **A path that once led to a place of files** leads to a free place when what stands there was
renamed. No directory on the way can have been at or below that place. -/
theorem rename_frees (hs : fs.Sound) {p q : Path} (hopened : OnceOpened fs.cwd p)
    (hne : ∀ {source target slash slash'}, fs.locate p = .ok (.entry source slash) →
      fs.locate q = .ok (.entry target slash') → source ≠ target)
    (h : fs.rename p q = .ok fs') :
    ∃ name dir, fs'.locate p = .ok (.entry (name :: dir) false) ∧
      byteLength name ≤ maxNameLength ∧ fs'.node? (name :: dir) = none := by
  obtain ⟨source, slash, target, slash', node, hp, hq, hshort, hnode, hentry⟩ := rename_places h
  obtain ⟨fs₀, hs₀, hcwd, loc, hp₀, hfile⟩ := hopened
  obtain ⟨front, name, dir, hparts, hname, hfollow, rfl, -⟩ := exists_of_locate_entry hp
  obtain ⟨front₀, name₀, dir₀, hparts₀, -, hfollow₀, rfl, hslash₀⟩ := exists_of_locate_entry hp₀
  rw [hparts] at hparts₀
  obtain ⟨rfl, hlast⟩ := List.append_inj' hparts₀ rfl
  obtain ⟨rfl, -⟩ := List.cons.inj hlast
  have horigin₀ : fs₀.originOf p = fs.originOf p := by
    unfold originOf
    rw [hcwd]
  rw [horigin₀] at hfollow₀
  have hsame : ∀ loc, fs₀.node? loc = some .directory → fs.node? loc = some .directory →
      fs.node? loc = some .directory := fun _ _ h => h
  have hdirs : dir₀ = dir := (follow_both hsame hfollow₀ hfollow).1
  subst hdirs
  obtain ⟨hcwd', hfree, hkept⟩ :=
    renameEntry_keeps hs hnode (List.cons_ne_nil _ _) (hne hp hq) hentry
  have hkeep : ∀ loc, fs₀.node? loc = some .directory → fs.node? loc = some .directory →
      fs'.node? loc = some .directory := by
    intro loc hloc₀ hloc
    refine hkept loc hloc ?_
    by_contra hbelow
    rw [Bool.not_eq_false] at hbelow
    have := hs₀.no_entry_below hfile hbelow (by rw [hloc₀]; exact Option.some_ne_none _)
    exact hfile (this ▸ hloc₀)
  have hfollow' := (follow_both hkeep hfollow₀ hfollow).2
  have horigin' : fs'.originOf p = fs.originOf p := by
    unfold originOf
    rw [hcwd']
  obtain ⟨hfits, hchars⟩ := fits_of_locate hp
  refine ⟨name, dir₀, ?_, hshort, hfree⟩
  rw [locate_of_fits hfits hchars, hparts, walk_concat hname.ne_current hname.ne_parent, horigin',
    hfollow', ← hslash₀]

end FileSystem

end LogRouter
