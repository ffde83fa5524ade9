import LogRouter.Proofs.Files.Lz4
import LogRouter.Proofs.Retention.Compress

/-!
# Compressing, all or nothing

* `LeadsTo`: a path leads to an entry that is no directory. Such an entry can be removed.
* `Replaces`: a file is gone, its frame stands at another path, and nothing else changed.
* `compress_taken`, `compress_refused`, `compress_unread`, `compress_free`: how compressing ends, by
  what the path leads to and what has the name of the compressed form.
* **`compress_all_or_nothing_iff`**: compressing replaces the file or changes nothing, unless an
  older file has the name of the compressed form. That file is removed.
-/

namespace LogRouter

namespace FileSystem

variable {fs fs' : FileSystem} {p : Path} {loc source : Location} {node : Node}

/-! ## Entries that paths lead to -/

/-- The path leads to an entry that is no directory. -/
structure LeadsTo (fs : FileSystem) (p : Path) (loc : Location) (node : Node) : Prop where
  locate : fs.locate p = .ok (.entry loc false)
  short : byteLength (loc.headD []) ≤ maxNameLength
  standing : fs.node? loc = some node
  ne_directory : node ≠ .directory

namespace LeadsTo

theorem find (h : fs.LeadsTo p loc node) : fs.find loc = .ok (some node) := by
  rw [find_of_fits h.short, h.standing]

theorem lookup (h : fs.LeadsTo p loc node) : fs.lookup p = .ok (loc, node) := by
  have hne := h.ne_directory
  unfold FileSystem.lookup
  rw [h.locate]
  simp only [h.find]
  cases node with
  | directory => exact absurd rfl hne
  | file _ | fullDevice => rfl

theorem of_dirsKept (h : fs.LeadsTo p loc node) (hdirs : DirsKept fs fs')
    (hnode : fs'.node? loc = some node) : fs'.LeadsTo p loc node :=
  ⟨hdirs.locate h.locate, h.short, hnode, h.ne_directory⟩

theorem lookup_of_none (h : fs.LeadsTo p loc node) (hdirs : DirsKept fs fs')
    (hnone : fs'.node? loc = none) : fs'.lookup p = .error .notFound := by
  unfold FileSystem.lookup
  rw [hdirs.locate h.locate]
  simp only [find_of_fits h.short, hnone]

theorem dropEntry (h : fs.LeadsTo p loc node) (hs : fs.Sound) :
    AgreeOff (· = loc) fs (fs.dropEntry loc) ∧ (fs.dropEntry loc).node? loc = none := by
  have hfile : fs.node? loc ≠ some .directory := fun hdir =>
    h.ne_directory (Option.some.inj (h.standing.symm.trans hdir))
  exact ⟨dropEntry_agreeOff hs hfile,
    (node?_dropEntry fs (ne_nil_of_node?_ne hfile) loc).trans (if_pos rfl)⟩

end LeadsTo

theorem lookup_eq_ok_iff (h : node ≠ .directory) :
    fs.lookup p = .ok (loc, node) ↔ fs.LeadsTo p loc node := by
  refine ⟨fun hl => ?_, LeadsTo.lookup⟩
  unfold lookup at hl
  rcases hlocate : fs.locate p with e | (unnamed | ⟨entry, slash⟩)
  · rw [hlocate] at hl; cases hl
  · rw [hlocate] at hl
    exact absurd (Prod.mk.inj (Except.ok.inj hl)).2.symm h
  · rw [hlocate] at hl
    simp only at hl
    rcases hfind : fs.find entry with e | _ | found
    · rw [hfind] at hl; cases hl
    · rw [hfind] at hl; cases hl
    · obtain ⟨hshort, hnode⟩ := find_eq_ok hfind
      rw [hfind] at hl
      cases found with
      | directory => exact absurd (Prod.mk.inj (Except.ok.inj hl)).2.symm h
      | file _ | fullDevice =>
        cases slash with
        | true => cases hl
        | false =>
          obtain ⟨rfl, rfl⟩ := Prod.mk.inj (Except.ok.inj hl)
          exact ⟨hlocate, hshort, hnode, h⟩

/-- **What can be removed** is what a path leads to, unless it is a directory. -/
theorem remove_eq_ok_iff :
    fs.remove p = .ok fs' ↔ ∃ loc node, fs.LeadsTo p loc node ∧ fs' = fs.dropEntry loc := by
  constructor
  · intro hr
    obtain ⟨loc, node, hlocate, hnode, hne, rfl⟩ := remove_spec hr
    refine ⟨loc, node, ⟨hlocate, ?_, hnode, hne⟩, rfl⟩
    unfold remove at hr
    rw [hlocate] at hr
    simp only at hr
    cases hfind : fs.find loc with
    | error e => rw [hfind] at hr; cases hr
    | ok found => exact (find_eq_ok hfind).1
  · rintro ⟨loc, node, h, rfl⟩
    have hne := h.ne_directory
    unfold remove
    rw [h.locate]
    simp only [h.find]
    cases node with
    | directory => exact absurd rfl hne
    | file _ | fullDevice => rfl

theorem removeIfPossible_of_leadsTo (h : fs.LeadsTo p loc node) :
    fs.removeIfPossible p = fs.dropEntry loc := by
  unfold removeIfPossible
  rw [remove_eq_ok_iff.mpr ⟨loc, node, h, rfl⟩]

theorem removeIfPossible_of_not (h : ∀ loc node, ¬ fs.LeadsTo p loc node) :
    fs.removeIfPossible p = fs := by
  unfold removeIfPossible
  cases hr : fs.remove p with
  | error e => rfl
  | ok fs' =>
    obtain ⟨loc, node, hleads, _⟩ := remove_eq_ok_iff.mp hr
    exact absurd hleads (h loc node)

theorem lookup_of_added {place : Location} (hnone : fs.node? place = none)
    (hagree : AgreeOff (· = place) fs fs') (h : fs.lookup p = .ok (loc, node)) :
    fs'.lookup p = .ok (loc, node) := by
  by_cases hdir : node = .directory
  · subst hdir
    exact hagree.dirs.lookup h
  · have hleads := (lookup_eq_ok_iff hdir).mp h
    have hne : loc ≠ place := by
      rintro rfl
      cases hnone.symm.trans hleads.standing
    exact (hleads.of_dirsKept hagree.dirs
      ((node?_of_view (hagree.view loc hne)).trans hleads.standing)).lookup

/-! ## The ways in which compressing ends -/

/-- The path leads to a file, and the compressed form can be created. -/
def CanCompress (fs : FileSystem) (p : Path) : Prop :=
  (∃ source id, fs.lookup p = .ok (source, .file id)) ∧ ∃ r, fs.createNew p.compressed = .ok r

/-- The path leads somewhere, and an older file has the name of the compressed form. -/
def IsTaken (fs : FileSystem) (p : Path) : Prop :=
  ∃ found place node, fs.lookup p = .ok found ∧ fs.lookup p.compressed = .ok (place, node) ∧
    node ≠ .directory

/-- The file at `p` is gone, and its frame stands at `target`, where nothing stood before, with the
time of its last change. Nothing else changed. -/
def Replaces (fs fs' : FileSystem) (p target : Path) : Prop :=
  ∃ source id place new,
    fs.lookup p = .ok (source, .file id) ∧ fs'.lookup p = .error .notFound ∧
    fs.node? place = none ∧ fs'.lookup target = .ok (place, .file new) ∧
    Lz4.decode? (fs'.content new) = some (fs.content id) ∧ fs'.modified new = fs.modified id ∧
    ∀ loc, loc ≠ source → loc ≠ place → fs'.view loc = fs.view loc

theorem createNew_of_leadsTo (h : fs.LeadsTo p loc node) :
    fs.createNew p = .error .alreadyExists := by
  unfold createNew
  rw [h.locate]
  simp only [h.find]
  rfl

theorem compress_taken {found : Location × Node} (hfound : fs.lookup p = .ok found)
    (h : fs.LeadsTo p.compressed loc node) :
    fs.compress p = (.error .alreadyExists, fs.dropEntry loc) := by
  unfold compress writeFrame
  rw [hfound]
  simp only [createNew_of_leadsTo h, removeIfPossible_of_leadsTo h]

theorem compress_refused (htaken : ¬ fs.IsTaken p)
    (hcreate : ∀ r, fs.createNew p.compressed ≠ .ok r) : ∃ e, fs.compress p = (.error e, fs) := by
  unfold compress writeFrame
  cases hfound : fs.lookup p with
  | error e => exact ⟨e, rfl⟩
  | ok found =>
    have hnot : ∀ place node, ¬ fs.LeadsTo p.compressed place node := fun place node h =>
      htaken ⟨found, place, node, hfound, h.lookup, h.ne_directory⟩
    cases hc : fs.createNew p.compressed with
    | ok r => exact absurd hc (hcreate r)
    | error e => exact ⟨e, by simp only [removeIfPossible_of_not hnot]⟩

section Created

variable {new : Nat} (hs : fs.Sound) (hcreate : fs.createNew p.compressed = .ok (new, fs'))

include hs hcreate

theorem created_spec : ∃ place, fs.node? place = none ∧ AgreeOff (· = place) fs fs' ∧
    fs'.LeadsTo p.compressed place (.file new) := by
  obtain ⟨name, dir, hlocate, hname, hdir, hnone, _, rfl, rfl⟩ := createNew_spec hs hcreate
  have hagree := addFile_agreeOff hs hnone hname hdir
  have hnode : (fs.addFile (name :: dir)).1.node? (name :: dir) = some (.file fs.stored.length) :=
    (node?_addEntry hnone _ _).trans (if_pos rfl)
  refine ⟨name :: dir, hnone, hagree, hagree.dirs.locate hlocate, ?_, hnode, by simp⟩
  unfold createNew at hcreate
  rw [hlocate] at hcreate
  simp only [Bool.false_eq_true, if_false] at hcreate
  cases hfind : fs.find (name :: dir) with
  | error e => rw [hfind] at hcreate; cases hcreate
  | ok found => exact (find_eq_ok hfind).1

theorem compress_unread (hno : ∀ source id, fs.lookup p ≠ .ok (source, .file id)) :
    ∃ e, (fs.compress p).1 = .error e ∧ ∀ loc, (fs.compress p).2.view loc = fs.view loc := by
  obtain ⟨place, hnone, hagree, hplace⟩ := created_spec hs hcreate
  obtain ⟨hdrop, hgone⟩ := hplace.dropEntry hagree.sound
  have hview : ∀ loc, (fs'.dropEntry place).view loc = fs.view loc := by
    intro loc
    by_cases hloc : loc = place
    · subst hloc
      exact view_congr (hgone.trans hnone.symm) fun id hid => by rw [hnone] at hid; cases hid
    · exact (hdrop.view loc hloc).trans (hagree.view loc hloc)
  rcases hfound : fs.lookup p with e | ⟨loc, node⟩
  · unfold compress
    rw [hfound]
    exact ⟨e, rfl, fun _ => rfl⟩
  · -- what is no file is still none when the frame is written
    have hread : ∃ e, fs'.readFile p = .error e := by
      unfold readFile
      rw [lookup_of_added hnone hagree hfound]
      cases node with
      | directory => exact ⟨_, rfl⟩
      | file id => exact absurd hfound (hno loc id)
      | fullDevice => exact ⟨_, rfl⟩
    obtain ⟨e, hread⟩ := hread
    unfold compress writeFrame
    rw [hfound]
    simp only [hcreate, hread, removeIfPossible_of_leadsTo hplace]
    exact ⟨e, rfl, hview⟩

theorem compress_eq_of_created {id : Nat} (h : fs.LeadsTo p source (.file id)) :
    fs.compress p = (.ok p.compressed, { fs' with
      stored := fs'.stored.set new ⟨Lz4.encode (fs.content id), fs.modified id⟩ }.dropEntry source) := by
  obtain ⟨place, hnone, hagree, hplace⟩ := created_spec hs hcreate
  have hne : source ≠ place := by
    rintro rfl
    cases hnone.symm.trans h.standing
  have hkept := (lookup_eq_ok_iff (by simp)).mp (lookup_of_added hnone hagree h.lookup)
  have hread : fs'.readFile p = .ok (fs.content id) := by
    rw [readFile, hkept.lookup]
    simp only [content, stored?_of_view (hagree.view source hne) h.standing]
  have hwritten : (fs'.setContent new (Lz4.encode (fs.content id))).content new =
      Lz4.encode (fs.content id) :=
    Handle.content_setContent (hagree.sound.stored place new hplace.standing) _
  have hremove : ∀ frame : Stored, { fs' with stored := fs'.stored.set new frame }.remove p =
      .ok ({ fs' with stored := fs'.stored.set new frame }.dropEntry source) := fun frame =>
    remove_eq_ok_iff.mpr ⟨source, _, hkept.of_dirsKept ⟨rfl, rfl, fun _ hl => hl⟩ hkept.standing, rfl⟩
  unfold compress writeFrame
  rw [h.lookup]
  simp only [hcreate, hread, hwritten]
  simp only [setContent, List.set_set, hremove]

/-- **A file is replaced by its frame** where the frame has a place. -/
theorem compress_free {id : Nat} (h : fs.LeadsTo p source (.file id)) :
    Replaces fs (fs.compress p).2 p p.compressed := by
  obtain ⟨place, hnone, hagree, hplace⟩ := created_spec hs hcreate
  have hne : source ≠ place := by
    rintro rfl
    cases hnone.symm.trans h.standing
  rw [compress_eq_of_created hs hcreate h]
  set frame : Stored := ⟨Lz4.encode (fs.content id), fs.modified id⟩
  set stamped : FileSystem := { fs' with stored := fs'.stored.set new frame }
  have hstamp : AgreeOff (· = place) fs stamped :=
    hagree.trans (setStored_agreeOff hagree.sound hplace.standing frame)
  have hsource : stamped.LeadsTo p source (.file id) :=
    h.of_dirsKept hstamp.dirs ((node?_of_view (hstamp.view source hne)).trans h.standing)
  obtain ⟨hdrop, hgone⟩ := hsource.dropEntry hstamp.sound
  have hthere : (stamped.dropEntry source).LeadsTo p.compressed place (.file new) :=
    hplace.of_dirsKept ((⟨rfl, rfl, fun _ hl => hl⟩ : DirsKept fs' stamped).trans hdrop.dirs)
      ((node?_of_view (hdrop.view place hne.symm)).trans hplace.standing)
  have hstored : (stamped.dropEntry source).stored? new = some frame :=
    List.getElem?_set_self (hagree.sound.stored place new hplace.standing)
  refine ⟨source, id, place, new, h.lookup, hsource.lookup_of_none hdrop.dirs hgone, hnone,
    hthere.lookup, ?_, ?_, fun loc hl hl' => (hdrop.view loc hl).trans (hstamp.view loc hl')⟩
  · simp only [content, hstored]
    exact Lz4.decode?_encode _
  · simp only [modified, hstored]
    rfl

end Created

/-! ## All or nothing -/

/-- Compressing `p` replaces it by its frame, or fails and changes nothing. -/
structure AllOrNothing (fs : FileSystem) (p : Path) : Prop where
  all : ∀ target, (fs.compress p).1 = .ok target →
    target.chars = p.chars ++ ".lz4".toList ∧ Replaces fs (fs.compress p).2 p target
  nothing : ∀ e, (fs.compress p).1 = .error e → ∀ loc, (fs.compress p).2.view loc = fs.view loc

/-- **Compressing ends in one of two ways**: the file is replaced, or it fails. Then nothing changed
unless the place of the frame was taken. -/
theorem compress_cases (hs : fs.Sound) (p : Path) :
    (fs.CanCompress p ∧ ¬ fs.IsTaken p ∧ (fs.compress p).1 = .ok p.compressed ∧
        Replaces fs (fs.compress p).2 p p.compressed) ∨
      (¬ fs.CanCompress p ∧ (∃ e, (fs.compress p).1 = .error e) ∧
        ((∀ loc, (fs.compress p).2.view loc = fs.view loc) ↔ ¬ fs.IsTaken p)) := by
  by_cases htaken : fs.IsTaken p
  · obtain ⟨found, place, node, hfound, hplace, hne⟩ := id htaken
    have hleads := (lookup_eq_ok_iff hne).mp hplace
    obtain ⟨-, hgone⟩ := hleads.dropEntry hs
    refine Or.inr ⟨?_, ⟨_, by rw [compress_taken hfound hleads]⟩, iff_of_false (fun h => ?_)
      (not_not_intro htaken)⟩
    · rintro ⟨-, r, hcreate⟩
      cases (createNew_of_leadsTo hleads).symm.trans hcreate
    · rw [compress_taken hfound hleads] at h
      cases hgone.symm.trans ((node?_of_view (h place)).trans hleads.standing)
  by_cases hcreate : ∃ r, fs.createNew p.compressed = .ok r
  swap
  · obtain ⟨e, hrefused⟩ := compress_refused htaken fun r hr => hcreate ⟨r, hr⟩
    rw [hrefused]
    exact Or.inr ⟨fun hcan => hcreate hcan.2, ⟨e, rfl⟩, iff_of_true (fun _ => rfl) htaken⟩
  obtain ⟨⟨new, fs'⟩, hnew⟩ := hcreate
  by_cases hfile : ∃ source id, fs.lookup p = .ok (source, .file id)
  · obtain ⟨source, id, hsource⟩ := hfile
    have hleads := (lookup_eq_ok_iff (by simp)).mp hsource
    refine Or.inl ⟨⟨⟨source, id, hsource⟩, _, hnew⟩, htaken, ?_, compress_free hs hnew hleads⟩
    rw [compress_eq_of_created hs hnew hleads]
  · obtain ⟨e, he, hview⟩ := compress_unread hs hnew fun source id h => hfile ⟨source, id, h⟩
    exact Or.inr ⟨fun hcan => hfile hcan.1, ⟨e, he⟩, iff_of_true hview htaken⟩

/-- **Compressing is all or nothing** exactly where no older file has the name of the compressed
form, or the path leads nowhere. It succeeds exactly for a file whose compressed form can be created,
and then it does all that it should. -/
theorem compress_all_or_nothing_iff (hs : fs.Sound) (p : Path) :
    ((∃ target, (fs.compress p).1 = .ok target) ↔ fs.CanCompress p) ∧
    (∀ target, (fs.compress p).1 = .ok target →
      target.chars = p.chars ++ ".lz4".toList ∧ Replaces fs (fs.compress p).2 p target) ∧
    (AllOrNothing fs p ↔ ¬ fs.IsTaken p) := by
  rcases compress_cases hs p with ⟨hcan, htaken, hok, hall⟩ | ⟨hcan, ⟨e, he⟩, hnothing⟩
  · have hdone : ∀ target, (fs.compress p).1 = .ok target →
        target.chars = p.chars ++ ".lz4".toList ∧ Replaces fs (fs.compress p).2 p target := by
      intro target htarget
      obtain rfl := Except.ok.inj (hok.symm.trans htarget)
      exact ⟨rfl, hall⟩
    exact ⟨iff_of_true ⟨_, hok⟩ hcan, hdone,
      iff_of_true ⟨hdone, fun e he => by cases hok.symm.trans he⟩ htaken⟩
  · have hfails : ∀ target, (fs.compress p).1 ≠ .ok target := fun target h => by
      cases he.symm.trans h
    refine ⟨iff_of_false (fun ⟨t, h⟩ => hfails t h) hcan, fun t h => absurd h (hfails t), ?_⟩
    rw [← hnothing]
    exact ⟨fun h => h.nothing e he, fun h => ⟨fun t ht => absurd ht (hfails t), fun _ _ => h⟩⟩

/-- The root with the given files, in the order of their numbers. -/
def ofFiles (files : List (Name × Stored)) : FileSystem :=
  { empty with
    entries := files.mapIdx fun i file => ([file.1], .file i)
    stored := files.map Prod.snd }

/-- A log of three bytes. -/
def someLog : Name × Stored := ("app.log".toList, ⟨[110, 101, 119], 1735830245000000000⟩)

/-- An older file with the name of its compressed form. -/
def olderFrame : Name × Stored := ("app.log.lz4".toList, ⟨[111, 108, 100], 1735743845000000000⟩)

theorem sound_someLog : (ofFiles [someLog]).Sound := by
  have hadded := @Sound.addFile _ Sound.empty "app.log".toList [] rfl
    ⟨by decide, by decide, by decide, by decide, by decide⟩ rfl
  exact hadded.setStored rfl rfl (by decide)

theorem sound_olderFrame : (ofFiles [someLog, olderFrame]).Sound := by
  have hadded := @Sound.addFile _ sound_someLog "app.log.lz4".toList [] rfl
    ⟨by decide, by decide, by decide, by decide, by decide⟩ rfl
  exact hadded.setStored rfl rfl (by decide)

/-- A log is replaced by its frame where nothing has the name of that. -/
theorem compress_replaces_log :
    (ofFiles [someLog]).Sound ∧
      ((ofFiles [someLog]).compress (.ofString "app.log")).1 = .ok (.ofString "app.log.lz4") ∧
      AllOrNothing (ofFiles [someLog]) (.ofString "app.log") := by
  obtain ⟨-, -, hall⟩ := compress_all_or_nothing_iff sound_someLog (.ofString "app.log")
  have hfree : (ofFiles [someLog]).lookup (Path.ofString "app.log").compressed =
      .error .notFound := by decide +kernel
  refine ⟨sound_someLog, by decide +kernel, hall.mpr ?_⟩
  rintro ⟨_, _, _, _, htaken, _⟩
  cases hfree.symm.trans htaken

/-- A log cannot be compressed where an older file has the name of its frame, and the older file is
lost. -/
theorem compress_loses_older_file :
    (ofFiles [someLog, olderFrame]).Sound ∧
      ((ofFiles [someLog, olderFrame]).compress (.ofString "app.log")).1 = .error .alreadyExists ∧
      (ofFiles [someLog, olderFrame]).contentAt? ["app.log.lz4".toList] = some [111, 108, 100] ∧
      ((ofFiles [someLog, olderFrame]).compress (.ofString "app.log")).2.contentAt?
        ["app.log.lz4".toList] = none ∧
      ¬ AllOrNothing (ofFiles [someLog, olderFrame]) (.ofString "app.log") := by
  have hfails : ((ofFiles [someLog, olderFrame]).compress (.ofString "app.log")).1 =
      .error .alreadyExists := by decide +kernel
  have hkept : (ofFiles [someLog, olderFrame]).contentAt? ["app.log.lz4".toList] =
      some [111, 108, 100] := by decide +kernel
  have hlost : ((ofFiles [someLog, olderFrame]).compress (.ofString "app.log")).2.contentAt?
      ["app.log.lz4".toList] = none := by decide +kernel
  refine ⟨sound_olderFrame, hfails, hkept, hlost, fun h => ?_⟩
  have hsame := contentAt?_of_view (h.nothing _ hfails ["app.log.lz4".toList])
  cases hlost.symm.trans (hsame.trans hkept)

end FileSystem

end LogRouter
