import LogRouter.Proofs.Retention.AllOrNothing

/-!
# Names whose paths can be followed

Whether an entry of a directory can be removed or compressed depends on its path and its name alone,
as long as the directory stays where it is.

* `Reaches`: the path of a name can be followed to its end.
* `leadsTo_join_iff`, `isTaken_join_iff`: what stands where such a path leads, and whether the name of
  the compressed form is taken.
* `removeIfPossible_reaches`, `removeIfPossible_gone`: what is removed.
* **`compress_reaches`**: where nothing or an older file stands, compressing changes the place of the
  compressed form. **`compress_gone`**: the older file is gone.
-/

namespace LogRouter

namespace FileSystem

variable {fs : FileSystem} {q : Path} {dir loc : Location} {name : Name} {node : Node}

/-! ## Names that paths reach -/

/-- The path of a name behind a directory is not too long, and neither is the name. -/
def Reaches (q : Path) (name : Name) : Prop :=
  Fits (q.join ⟨name⟩) ∧ byteLength name ≤ maxNameLength

theorem leadsTo_join_iff (hreach : fs.reach q = .ok dir) (h : name.IsEntry) :
    fs.LeadsTo (q.join ⟨name⟩) loc node ↔ Reaches q name ∧ loc = name :: dir ∧
      fs.node? (name :: dir) = some node ∧ node ≠ .directory := by
  constructor
  · rintro ⟨hlocate, hshort, hnode, hne⟩
    obtain rfl := eq_of_locate_join hreach h hlocate
    exact ⟨⟨(fits_of_locate hlocate).1, hshort⟩, rfl, hnode, hne⟩
  · rintro ⟨⟨hfits, hshort⟩, rfl, hnode, hne⟩
    exact ⟨locate_join_of_reach hreach h hfits, hshort, hnode, hne⟩

theorem removeIfPossible_reaches (hs : fs.Sound) (hreach : fs.reach q = .ok dir) (h : name.IsEntry) :
    AgreeOff (fun loc => Reaches q name ∧ loc = name :: dir) fs
      (fs.removeIfPossible (q.join ⟨name⟩)) := by
  by_cases hleads : ∃ loc node, fs.LeadsTo (q.join ⟨name⟩) loc node
  · obtain ⟨loc, node, hleads⟩ := hleads
    obtain ⟨hreaches, rfl, -⟩ := (leadsTo_join_iff hreach h).mp hleads
    rw [removeIfPossible_of_leadsTo hleads]
    exact (hleads.dropEntry hs).1.mono fun loc hl => ⟨hreaches, hl⟩
  · rw [removeIfPossible_of_not fun loc node hl => hleads ⟨loc, node, hl⟩]
    exact AgreeOff.refl hs

theorem removeIfPossible_gone (hs : fs.Sound) (hreach : fs.reach q = .ok dir) (h : name.IsEntry)
    (hreaches : Reaches q name) (hdir : fs.node? (name :: dir) ≠ some .directory) :
    (fs.removeIfPossible (q.join ⟨name⟩)).node? (name :: dir) = none := by
  cases hnode : fs.node? (name :: dir) with
  | none =>
    rw [removeIfPossible_of_not fun loc node hl => ?_, hnode]
    have hsome := ((leadsTo_join_iff hreach h).mp hl).2.2.1
    rw [hnode] at hsome
    cases hsome
  | some node =>
    have hleads : fs.LeadsTo (q.join ⟨name⟩) (name :: dir) node :=
      (leadsTo_join_iff hreach h).mpr ⟨hreaches, rfl, hnode, fun heq => hdir (heq ▸ hnode)⟩
    rw [removeIfPossible_of_leadsTo hleads]
    exact (hleads.dropEntry hs).2

theorem compress_reaches (hs : fs.Sound) (hreach : fs.reach q = .ok dir) (h : name.IsEntry) :
    AgreeOff (fun loc => Reaches q name ∧ (loc = name :: dir ∨ loc = Path.packedName name :: dir ∧
      (fs.node? loc = none ∨ fs.IsTaken (q.join ⟨name⟩)))) fs (fs.compress (q.join ⟨name⟩)).2 := by
  have hagree := compress_agreeOff hs hreach h
  refine ⟨hagree.sound, hagree.dirs, hagree.made, fun loc hl => ?_⟩
  cases hfound : fs.lookup (q.join ⟨name⟩) with
  | error e =>
    unfold compress
    rw [hfound]
  | ok found =>
    obtain ⟨_, _, _, hfits, hshort, _⟩ := of_lookup_join h hfound
    have hreaches : Reaches q name := ⟨hfits, hshort⟩
    by_cases hpacked : loc = Path.packedName name :: dir
    · subst hpacked
      obtain ⟨hsome, htaken⟩ : fs.node? (Path.packedName name :: dir) ≠ none ∧
          ¬ fs.IsTaken (q.join ⟨name⟩) :=
        not_or.mp fun hcause => hl ⟨hreaches, Or.inr ⟨rfl, hcause⟩⟩
      obtain ⟨e, hrefused⟩ := compress_refused htaken fun r hr => hsome <| by
        rw [Path.compressed_join h] at hr
        exact ((createNew_join_iff hreach (Path.isEntry_packedName h)).mp ⟨r, hr⟩).2.2.1
      rw [hrefused]
    · exact hagree.view loc (not_or.mpr ⟨fun heq => hl ⟨hreaches, Or.inl heq⟩, hpacked⟩)

/-! ## Compressed forms whose names are taken -/

theorem isTaken_join_iff (hreach : fs.reach q = .ok dir) (h : name.IsEntry) :
    fs.IsTaken (q.join ⟨name⟩) ↔ (∃ found, fs.lookup (q.join ⟨name⟩) = .ok found) ∧
      Reaches q (Path.packedName name) ∧
        ∃ node, fs.node? (Path.packedName name :: dir) = some node ∧ node ≠ .directory := by
  have hpacked := Path.isEntry_packedName h
  unfold IsTaken
  rw [Path.compressed_join h]
  constructor
  · rintro ⟨found, place, node, hfound, htaken, hne⟩
    obtain ⟨hreaches, -, hnode, -⟩ :=
      (leadsTo_join_iff hreach hpacked).mp ((lookup_eq_ok_iff hne).mp htaken)
    exact ⟨⟨found, hfound⟩, hreaches, node, hnode, hne⟩
  · rintro ⟨⟨found, hfound⟩, hreaches, node, hnode, hne⟩
    exact ⟨found, _, node, hfound,
      ((leadsTo_join_iff hreach hpacked).mpr ⟨hreaches, rfl, hnode, hne⟩).lookup, hne⟩

theorem compress_gone (hs : fs.Sound) (hreach : fs.reach q = .ok dir) (h : name.IsEntry)
    (htaken : fs.IsTaken (q.join ⟨name⟩)) :
    (fs.compress (q.join ⟨name⟩)).2.node? (Path.packedName name :: dir) = none := by
  obtain ⟨⟨found, hfound⟩, hreaches, node, hnode, hne⟩ := (isTaken_join_iff hreach h).mp htaken
  have hleads : fs.LeadsTo (q.join ⟨name⟩).compressed (Path.packedName name :: dir) node := by
    rw [Path.compressed_join h]
    exact (leadsTo_join_iff hreach (Path.isEntry_packedName h)).mpr ⟨hreaches, rfl, hnode, hne⟩
  rw [compress_taken hfound hleads]
  exact (hleads.dropEntry hs).2

end FileSystem

end LogRouter
