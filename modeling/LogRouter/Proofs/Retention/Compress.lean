import LogRouter.Proofs.Files.Operations
import LogRouter.Retention.Compress

/-!
# What compressing changes

* `remove_join`: removing an entry of a directory drops it and changes nothing else.
* `createNew_join_iff`: when a new file can be created in a directory.
* **`compress_agreeOff`**: compressing an entry changes it and its compressed form at most.
* **`compress_done`**, **`compress_failed`**: the entry is gone if the compressed form could be
  created, and is as it was if not.
-/

namespace LogRouter

namespace FileSystem

variable {fs fs' : FileSystem} {q : Path} {dir : Location} {name : Name}

/-! ## Entries of a directory -/

theorem remove_join (hreach : fs.reach q = .ok dir) (h : name.IsEntry)
    (hr : fs.remove (q.join ⟨name⟩) = .ok fs') :
    fs.node? (name :: dir) ≠ some .directory ∧ fs' = fs.dropEntry (name :: dir) := by
  obtain ⟨loc, node, hlocate, hnode, hd, rfl⟩ := remove_spec hr
  have hloc := eq_of_locate_join hreach h hlocate
  subst hloc
  refine ⟨fun hdir => hd ?_, rfl⟩
  rw [hnode] at hdir
  exact Option.some.inj hdir

theorem remove_file (hreach : fs.reach q = .ok dir) (h : name.IsEntry)
    (hfits : Fits (q.join ⟨name⟩)) (hshort : byteLength name ≤ maxNameLength) {id : Nat}
    (hid : fs.node? (name :: dir) = some (.file id)) :
    fs.remove (q.join ⟨name⟩) = .ok (fs.dropEntry (name :: dir)) := by
  unfold remove
  rw [locate_join_of_reach hreach h hfits]
  simp only
  rw [find_cons_of_fits hshort, hid]
  rfl

/-- **A new file can be created** where its path and its name fit, nothing stands and nothing is
refused. -/
theorem createNew_join_iff (hreach : fs.reach q = .ok dir) (h : name.IsEntry) :
    (∃ r, fs.createNew (q.join ⟨name⟩) = .ok r) ↔
      Fits (q.join ⟨name⟩) ∧ byteLength name ≤ maxNameLength ∧ fs.node? (name :: dir) = none ∧
        fs.refusal? .create (name :: dir) = none := by
  constructor
  · rintro ⟨⟨id, fs'⟩, hr⟩
    unfold createNew at hr
    split at hr
    case h_1 => cases hr
    case h_2 => cases hr
    case h_3 loc slash hlocate =>
      have hloc := eq_of_locate_join hreach h hlocate
      subst hloc
      split_ifs at hr
      split at hr
      case h_1 => cases hr
      case h_2 => cases hr
      case h_3 hfind =>
        obtain ⟨hshort, hnone⟩ := find_eq_ok hfind
        exact ⟨(fits_of_locate hlocate).1, hshort, hnone, (permit_eq_ok_iff.mp hr).1⟩
  · rintro ⟨hfits, hshort, hnone, hpermit⟩
    refine ⟨((fs.addFile (name :: dir)).2, (fs.addFile (name :: dir)).1), ?_⟩
    unfold createNew
    rw [locate_join_of_reach hreach h hfits]
    simp only
    rw [find_cons_of_fits hshort, hnone]
    exact permit_of_none hpermit _

/-! ## Frames -/

theorem removeIfPossible_agreeOff (hs : fs.Sound) (hreach : fs.reach q = .ok dir)
    (h : name.IsEntry) :
    AgreeOff (· = name :: dir) fs (fs.removeIfPossible (q.join ⟨name⟩)) := by
  unfold removeIfPossible
  split
  · rename_i hr
    obtain ⟨hnode, rfl⟩ := remove_join hreach h hr
    exact dropEntry_agreeOff hs hnode
  · exact AgreeOff.refl hs

theorem writeFrame_agreeOff (hs : fs.Sound) (hreach : fs.reach q = .ok dir) (h : name.IsEntry)
    (p : Path) :
    AgreeOff (· = name :: dir) fs (fs.writeFrame p (q.join ⟨name⟩)).2 ∧
      ∀ id, (fs.writeFrame p (q.join ⟨name⟩)).1 = .ok id →
        (fs.writeFrame p (q.join ⟨name⟩)).2.node? (name :: dir) = some (.file id) := by
  unfold writeFrame
  split
  · exact ⟨AgreeOff.refl hs, fun id hid => by cases hid⟩
  · rename_i id fs₁ hcreate
    obtain ⟨name', dir', hlocate, hname, hdir, hnone, _, rfl, rfl⟩ := createNew_spec hs hcreate
    have hloc := eq_of_locate_join hreach h hlocate
    rw [hloc] at hnone
    obtain ⟨rfl, rfl⟩ := List.cons.inj hloc
    have hagree := addFile_agreeOff hs hnone hname hdir
    have hnode : (fs.addFile (name' :: dir')).1.node? (name' :: dir') =
        some (.file fs.stored.length) := (node?_addEntry hnone _ _).trans (if_pos rfl)
    rw [hloc]
    split
    · exact ⟨hagree, fun id hid => by cases hid⟩
    · refine ⟨hagree.trans (setStored_agreeOff hagree.sound hnode _), ?_⟩
      rintro id ⟨⟩
      exact hnode

/-- **Compressing an entry changes it and its compressed form at most.** -/
theorem compress_agreeOff (hs : fs.Sound) (hreach : fs.reach q = .ok dir) (h : name.IsEntry) :
    AgreeOff (fun loc => loc = name :: dir ∨ loc = Path.packedName name :: dir) fs
      (fs.compress (q.join ⟨name⟩)).2 := by
  have hpacked := Path.isEntry_packedName h
  obtain ⟨hframe, hnode⟩ := writeFrame_agreeOff hs hreach hpacked (q.join ⟨name⟩)
  unfold compress
  rw [Path.compressed_join h]
  split
  · exact AgreeOff.refl hs
  · simp only
    split
    · rename_i fs₁ heq
      rw [heq] at hframe
      exact (hframe.trans (removeIfPossible_agreeOff hframe.sound (hframe.dirs.reach hreach)
        hpacked)).mono fun loc hl => Or.inr hl
    · rename_i id fs₁ heq
      rw [heq] at hframe hnode
      have hstamped : ∀ new, AgreeOff (· = Path.packedName name :: dir) fs
          { fs₁ with stored := fs₁.stored.set id new } := fun new =>
        hframe.trans (setStored_agreeOff hframe.sound (hnode id rfl) new)
      split
      · exact (hstamped _).mono fun loc hl => Or.inr hl
      · rename_i fs₂ hr
        obtain ⟨hfile, rfl⟩ := remove_join ((hstamped _).dirs.reach hreach) h hr
        exact ((hstamped _).mono fun loc hl => Or.inr hl).trans
          ((dropEntry_agreeOff (hstamped _).sound hfile).mono fun loc hl => Or.inl hl)

/-- **A file is replaced by its frame** if that could be created. The frame takes over the time of the last
change. -/
theorem compress_done (hs : fs.Sound) (hreach : fs.reach q = .ok dir) (h : name.IsEntry) {id : Nat}
    (hid : fs.lookup (q.join ⟨name⟩) = .ok (name :: dir, .file id))
    (hcreate : ∃ r, fs.createNew (q.join ⟨name⟩).compressed = .ok r) :
    (fs.compress (q.join ⟨name⟩)).2.node? (name :: dir) = none ∧
      (fs.compress (q.join ⟨name⟩)).2.storedAt? (Path.packedName name :: dir) =
        some ⟨Lz4.encode (fs.content id), fs.modified id⟩ := by
  have hpacked := Path.isEntry_packedName h
  obtain ⟨hfits, hshort, hnode⟩ := (lookup_join_iff hreach h).mp hid
  obtain ⟨⟨new, fs₁⟩, hcreate⟩ := hcreate
  rw [Path.compressed_join h] at hcreate
  have hne : name :: dir ≠ Path.packedName name :: dir := fun heq =>
    Path.packedName_ne name (List.cons.inj heq).1.symm
  obtain ⟨hframe, hwritten⟩ := writeFrame_agreeOff hs hreach hpacked (q.join ⟨name⟩)
  -- the file is still there while its frame is written
  have hread : fs₁.readFile (q.join ⟨name⟩) = .ok (fs.content id) := by
    obtain ⟨name', dir', hlocate, hname', hdir', hnone, _, _, rfl⟩ := createNew_spec hs hcreate
    have hagree := addFile_agreeOff hs hnone hname' hdir'
    have hloc := eq_of_locate_join hreach hpacked hlocate
    have hview := hagree.view (name :: dir) (by rw [hloc]; exact hne)
    rw [readFile, (lookup_join_iff (hagree.dirs.reach hreach) h).mpr
      ⟨hfits, hshort, (node?_of_view hview).trans hnode⟩]
    simp only [content, stored?_of_view hview hnode]
  have hwrite : fs.writeFrame (q.join ⟨name⟩) (q.join ⟨Path.packedName name⟩) =
      (.ok new, fs₁.setContent new (Lz4.encode (fs.content id))) := by
    rw [writeFrame, hcreate]
    simp only [hread]
  rw [hwrite] at hframe hwritten
  have hnew := hwritten new rfl
  have hlength := hframe.sound.stored _ new hnew
  have hframed : (fs₁.setContent new (Lz4.encode (fs.content id))).content new =
      Lz4.encode (fs.content id) := Handle.content_setContent (by simpa [setContent] using hlength) _
  have hstamped := hframe.trans (setStored_agreeOff hframe.sound hnew
    ⟨Lz4.encode (fs.content id), fs.modified id⟩)
  have hkept := node?_of_view (hstamped.view (name :: dir) hne)
  have hremove := remove_file (hstamped.dirs.reach hreach) h hfits hshort (hkept.trans hnode)
  unfold compress
  rw [Path.compressed_join h, hid]
  simp only [hwrite, hframed, hremove]
  have hdrop := fun loc => node?_dropEntry { fs₁.setContent new (Lz4.encode (fs.content id)) with
    stored := (fs₁.setContent new (Lz4.encode (fs.content id))).stored.set new
      ⟨Lz4.encode (fs.content id), fs.modified id⟩ } (List.cons_ne_nil name dir) loc
  refine ⟨by rw [hdrop, if_pos rfl], storedAt?_eq_some_iff.mpr ⟨new, ?_, ?_⟩⟩
  · rw [hdrop, if_neg (Ne.symm hne)]
    exact hnew
  · exact List.getElem?_set_self hlength

/-- **A file stays as it is** if its compressed form could not be created. -/
theorem compress_failed (hs : fs.Sound) (hreach : fs.reach q = .ok dir) (h : name.IsEntry)
    (hcreate : ¬ ∃ r, fs.createNew (q.join ⟨name⟩).compressed = .ok r) :
    AgreeOff (· = Path.packedName name :: dir) fs (fs.compress (q.join ⟨name⟩)).2 := by
  rw [Path.compressed_join h] at hcreate
  unfold compress
  rw [Path.compressed_join h]
  split
  · exact AgreeOff.refl hs
  · cases hc : fs.createNew (q.join ⟨Path.packedName name⟩) with
    | ok r => exact absurd ⟨r, hc⟩ hcreate
    | error e =>
      simp only [writeFrame, hc]
      exact removeIfPossible_agreeOff hs hreach (Path.isEntry_packedName h)

theorem compress_blocked (hreach : fs.reach q = .ok dir) (h : name.IsEntry)
    (hcreate : ¬ ∃ r, fs.createNew (q.join ⟨name⟩).compressed = .ok r)
    (hplace : ∀ node, fs.node? (Path.packedName name :: dir) = some node → node = .directory) :
    (fs.compress (q.join ⟨name⟩)).2 = fs := by
  rw [Path.compressed_join h] at hcreate
  have hremove : fs.removeIfPossible (q.join ⟨Path.packedName name⟩) = fs := by
    unfold removeIfPossible
    split
    · rename_i fs' hr
      obtain ⟨loc, node, hlocate, hnode, hfile, _⟩ := remove_spec hr
      have hloc := eq_of_locate_join hreach (Path.isEntry_packedName h) hlocate
      exact absurd (hplace node (hloc ▸ hnode)) hfile
    · rfl
  unfold compress
  rw [Path.compressed_join h]
  split
  · rfl
  · cases hc : fs.createNew (q.join ⟨Path.packedName name⟩) with
    | ok r => exact absurd ⟨r, hc⟩ hcreate
    | error e =>
      simp only [writeFrame, hc]
      exact hremove

theorem unreachable_file (hreach : fs.reach q = .ok dir) (h : name.IsEntry) {id : Nat}
    (hnode : fs.node? (name :: dir) = some (.file id))
    (hlook : fs.lookup (q.join ⟨name⟩) ≠ .ok (name :: dir, .file id)) :
    fs.removeIfPossible (q.join ⟨name⟩) = fs ∧ (fs.compress (q.join ⟨name⟩)).2 = fs := by
  have hplace : ∀ place, fs.locate (q.join ⟨name⟩) = .ok place →
      place = .entry (name :: dir) false ∧ ¬ byteLength name ≤ maxNameLength := by
    intro place hl
    have hfits := (fits_of_locate hl).1
    rw [locate_join_of_reach hreach h hfits, Except.ok.injEq] at hl
    exact ⟨hl.symm, fun hshort => hlook ((lookup_join_iff hreach h).mpr ⟨hfits, hshort, hnode⟩)⟩
  have hfind : ¬ byteLength name ≤ maxNameLength →
      fs.find (name :: dir) = .error .nameTooLong := fun hlong => if_pos (Nat.lt_of_not_le hlong)
  constructor
  · unfold removeIfPossible remove
    cases hl : fs.locate (q.join ⟨name⟩) with
    | error e => rfl
    | ok place =>
      obtain ⟨rfl, hlong⟩ := hplace place hl
      simp only [hfind hlong]
  · unfold compress lookup
    cases hl : fs.locate (q.join ⟨name⟩) with
    | error e => rfl
    | ok place =>
      obtain ⟨rfl, hlong⟩ := hplace place hl
      simp only [hfind hlong]

end FileSystem

end LogRouter
