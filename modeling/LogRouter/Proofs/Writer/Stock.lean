import LogRouter.Proofs.Writer.BackupSweep
import Mathlib.Data.List.DropRight

/-!
# The backups that a limit leaves

* `Retired`: a content that a rotation set aside. `Timely`: rotations and changes follow each other.
* `SizeWriter.Rests`: the backup is there, packed if it can be.
* `SizeWriter.Backed`: the directory holds the given backups besides the active file. A write to the
  active file leaves it so (`Backed.of_agreeOff`), and a rotation adds one backup (`Backed.rotated`).
* `Backed.shelf`: these backups are what a sweep may touch.
* **`Backed.swept`**: a sweep leaves the last ones, as many as the limit says.
-/

namespace LogRouter

open FileSystem

/-- A content that a rotation set aside. -/
structure Retired where
  /-- The instant of the rotation. -/
  made : Instant
  content : Bytes
  /-- The instant of the last write to it. -/
  changed : Instant
  deriving DecidableEq, Repr

namespace SizeWriter

variable {w : SizeWriter} {fs fs' fs₀ : FileSystem} {name : Name} {dir : Location} {id new : Nat}
  {P : Location → Prop} {retired kept : List Retired} {held bytes : Bytes} {changed t now : Instant}
  {r : Retired}

/-! ## Times -/

/-- The rotations and the last changes of what they set aside follow each other, up to a last change. -/
structure Timely (retired : List Retired) (changed : Instant) : Prop where
  regular : ∀ r ∈ retired, Regular r.made
  early : ∀ r ∈ retired, r.changed.total + 1000000 ≤ r.made.total ∧ r.made.total ≤ changed.total
  ordered : retired.Pairwise fun r r' => r.made.total ≤ r'.changed.total

namespace Timely

theorem later (h : Timely retired changed) (hle : changed.total ≤ t.total) : Timely retired t :=
  ⟨h.regular, fun r hr => ⟨(h.early r hr).1, (h.early r hr).2.trans hle⟩, h.ordered⟩

theorem sublist (h : Timely retired changed) (hsub : kept.Sublist retired) : Timely kept changed :=
  ⟨fun r hr => h.regular r (hsub.subset hr), fun r hr => h.early r (hsub.subset hr),
    h.ordered.sublist hsub⟩

theorem concat (h : Timely retired changed) (ht : Regular t) (hlater : changed.total + 1000000 ≤ t.total)
    (held : Bytes) : Timely (retired ++ [⟨t, held, changed⟩]) t := by
  refine ⟨fun r hr => ?_, fun r hr => ?_, List.pairwise_append.mpr ⟨h.ordered, List.pairwise_singleton _ _,
    fun r hr r' hr' => ?_⟩⟩
  · rcases List.mem_append.mp hr with hr | hr
    · exact h.regular r hr
    · rw [List.mem_singleton.mp hr]
      exact ht
  · rcases List.mem_append.mp hr with hr | hr
    · obtain ⟨hearly, hle⟩ := h.early r hr
      exact ⟨hearly, by omega⟩
    · rw [List.mem_singleton.mp hr]
      exact ⟨hlater, Int.le_refl _⟩
  · rw [List.mem_singleton.mp hr']
    exact (h.early r hr).2

theorem increasing (h : Timely retired changed) :
    retired.Pairwise fun r r' => r.changed.total < r'.changed.total := by
  refine h.ordered.imp_of_mem fun {r r'} hr _ hle => ?_
  have := (h.early r hr).1
  omega

theorem names (h : Timely retired changed) :
    retired.Pairwise fun r r' => w.backupName r.made ≠ w.backupName r'.made := by
  refine h.ordered.imp_of_mem fun {r r'} hr hr' hle => ?_
  refine backupName_ne (h.regular r hr) (h.regular r' hr') ?_
  have := (h.early r' hr').1
  omega

end Timely

/-! ## Backups in their directory -/

/-- A backup is to be packed, and the file system takes the packed one. -/
def Packs (w : SizeWriter) (fs : FileSystem) (t : Instant) : Prop :=
  w.policy.compress = true ∧ fs.Admits (w.backupPath t).compressed

/-- The backup is there: packed if it can be, and as it was set aside if not. -/
structure Rests (w : SizeWriter) (fs : FileSystem) (dir : Location) (r : Retired) : Prop where
  packed : w.Packs fs r.made → fs.PackedAt dir (w.backupName r.made) ⟨r.content, r.changed.total⟩
  plain : ¬ w.Packs fs r.made → fs.PlainAt dir (w.backupName r.made) ⟨r.content, r.changed.total⟩

/-- The file of a backup. -/
def fileOf (w : SizeWriter) (r : Retired) : NamedFile := ⟨w.backupName r.made, r.content, r.changed.total⟩

/-- The directory holds the given backups besides the active file, and no other files. There are no
directories but those on the way to the active file. -/
structure Backed (w : SizeWriter) (fs₀ : FileSystem) (name : Name) (dir : Location)
    (kept : List Retired) (fs : FileSystem) : Prop where
  cwd : fs.cwd = fs₀.cwd
  locate : fs.locate w.path = .ok (.entry (name :: dir) false)
  fits : ∀ r ∈ kept, Fits (w.backupPath r.made) ∧ byteLength (w.backupName r.made) ≤ maxNameLength
  stands : ∀ r ∈ kept, fs.PlainAt dir (w.backupName r.made) ⟨r.content, r.changed.total⟩ ∨
    fs.PackedAt dir (w.backupName r.made) ⟨r.content, r.changed.total⟩ ∧ w.Packs fs r.made
  others : ∀ n node, fs.node? (n :: dir) = some node → node ≠ .directory →
    n = name ∨ ∃ r ∈ kept, Own dir (w.backupName r.made) (n :: dir)
  made : ∀ loc, fs.node? loc = some .directory → fs₀.node? loc = some .directory ∨
    loc.length ≤ (fs₀.originOf w.path.directory).length + w.path.directory.steps.length

section Located

variable (h : fs.locate w.path = .ok (.entry (name :: dir) false))

include h

theorem packs_iff_of_agreeOff (hagree : AgreeOff P fs fs') (t : Instant) :
    w.Packs fs' t ↔ w.Packs fs t := by
  unfold Packs
  rw [admits_compressed_iff h, admits_compressed_iff (hagree.dirs.locate h), Ne, hagree.directory_iff,
    hagree.dirs.refusal]

theorem not_own_active (hzone : w.zone.offset.natAbs < 86400) (ht : Regular t) :
    ¬ Own dir (w.backupName t) (name :: dir) := by
  obtain ⟨hplain, hpacked⟩ := covers_backupName h hzone ht t
  rintro (heq | heq)
  · exact not_covers_active h t ((List.cons.inj heq).1 ▸ hplain)
  · exact not_covers_active h t ((List.cons.inj heq).1 ▸ hpacked)

theorem rests_of_agreeOff (hzone : w.zone.offset.natAbs < 86400) (hr : Regular r.made)
    (hagree : AgreeOff (· = name :: dir) fs fs') (hrests : w.Rests fs dir r) : w.Rests fs' dir r := by
  have hview : ∀ loc, Own dir (w.backupName r.made) loc → fs'.view loc = fs.view loc :=
    fun loc hown => hagree.view loc fun hloc => not_own_active h hzone hr (hloc ▸ hown)
  have hname := hview _ (Or.inl rfl)
  have hframe := hview _ (Or.inr rfl)
  have hiff := packs_iff_of_agreeOff h hagree r.made
  exact ⟨fun hpacks => (hrests.packed (hiff.mp hpacks)).of_view hname hframe,
    fun hpacks => (hrests.plain (mt hiff.mpr hpacks)).of_view hname hframe⟩

variable (hext : w.path.extension? ≠ some Path.compressedExtension)

include hext

theorem own_apart (hne : w.backupName t ≠ w.backupName now) {loc : Location}
    (hown : Own dir (w.backupName t) loc) : ¬ Own dir (w.backupName now) loc := by
  have hpacked : ∀ t now, Path.packedName (w.backupName t) ≠ w.backupName now := by
    intro t now heq
    have hplain := isCompressed_backupName hext (backupName_spec h now).1 w.path
    rw [← heq, Path.isCompressed_packedName (backupName_spec h t).1] at hplain
    cases hplain
  intro hown'
  rcases hown with rfl | rfl <;> rcases hown' with heq | heq
  · exact hne (List.cons.inj heq).1
  · exact hpacked now t (List.cons.inj heq).1.symm
  · exact hpacked t now (List.cons.inj heq).1
  · exact hne (Path.packedName_injective (List.cons.inj heq).1)

end Located

namespace Backed

variable (h : Backed w fs₀ name dir kept fs)

include h

theorem stands_of_agreeOff (hagree : AgreeOff P fs fs') (hr : r ∈ kept)
    (hapart : ∀ loc, Own dir (w.backupName r.made) loc → ¬ P loc) :
    fs'.PlainAt dir (w.backupName r.made) ⟨r.content, r.changed.total⟩ ∨
      fs'.PackedAt dir (w.backupName r.made) ⟨r.content, r.changed.total⟩ ∧ w.Packs fs' r.made := by
  have hname := hagree.view _ (hapart _ (Or.inl rfl))
  have hframe := hagree.view _ (hapart _ (Or.inr rfl))
  rw [packs_iff_of_agreeOff h.locate hagree]
  exact (h.stands r hr).imp (·.of_view hname hframe) (And.imp_left (·.of_view hname hframe))

theorem of_agreeOff (hagree : AgreeOff (· = name :: dir) fs fs')
    (hzone : w.zone.offset.natAbs < 86400) (htimely : Timely kept changed) :
    Backed w fs₀ name dir kept fs' where
  cwd := hagree.dirs.cwd.trans h.cwd
  locate := hagree.dirs.locate h.locate
  fits := h.fits
  stands r hr := h.stands_of_agreeOff hagree hr fun loc hown hloc =>
    not_own_active h.locate hzone (htimely.regular r hr) (hloc ▸ hown)
  others n node hnode hfile := by
    by_cases hname : n = name
    · exact Or.inl hname
    · have hview := hagree.view (n :: dir) fun heq => hname (List.cons.inj heq).1
      exact h.others n node (by rw [← node?_of_view hview, hnode]) hfile
  made loc hloc := h.made loc (hagree.made loc hloc)

variable (hzone : w.zone.offset.natAbs < 86400)
  (hext : w.path.extension? ≠ some Path.compressedExtension)

include hzone hext

/-- **A rotation adds one backup**, in a place of its own. -/
theorem rotated (hrotated : Rotated fs fs' (name :: dir) (w.backupName t :: dir) id new bytes)
    (hfits : Fits (w.backupPath t) ∧ byteLength (w.backupName t) ≤ maxNameLength)
    (hstored : fs.stored? id = some ⟨held, changed.total⟩) (htimely : Timely (kept ++ [⟨t, held, changed⟩]) t) :
    Backed w fs₀ name dir (kept ++ [⟨t, held, changed⟩]) fs' := by
  have hagree := hrotated.agree
  obtain ⟨_, _, hnames⟩ := List.pairwise_append.mp (htimely.names (w := w))
  have hnew : ∀ {r}, r ∈ kept → w.backupName r.made ≠ w.backupName t := fun hr =>
    hnames _ hr ⟨t, held, changed⟩ List.mem_cons_self
  have hregular : ∀ {r}, r ∈ kept → Regular r.made := fun hr =>
    htimely.regular _ (List.mem_append_left _ hr)
  have ht : Regular t :=
    htimely.regular ⟨t, held, changed⟩ (List.mem_append_right _ List.mem_cons_self)
  have hactive : ∀ {t}, Regular t → ¬ Own dir (w.backupName t) (name :: dir) :=
    not_own_active h.locate hzone
  have hplain : fs'.PlainAt dir (w.backupName t) ⟨held, changed.total⟩ := by
    refine ⟨storedAt?_eq_some_iff.mpr ⟨id, hrotated.backup, hrotated.stored.trans hstored⟩,
      fun node hnode => ?_⟩
    -- a file in the place of the packed form would be another backup
    have hview := hagree.view (Path.packedName (w.backupName t) :: dir) (by
      rintro (heq | heq)
      · exact hactive ht (Or.inr heq.symm)
      · exact Path.packedName_ne _ (List.cons.inj heq).1)
    by_contra hfile
    rw [node?_of_view hview] at hnode
    rcases h.others _ _ hnode hfile with heq | ⟨r, hr, hown⟩
    · exact hactive ht (Or.inr (by rw [heq]))
    · exact own_apart h.locate hext (hnew hr) hown (Or.inr rfl)
  refine ⟨hagree.dirs.cwd.trans h.cwd, hagree.dirs.locate h.locate, fun r hr => ?_, fun r hr => ?_,
    fun n node hnode hfile => ?_, fun loc hloc => h.made loc (hagree.made loc hloc)⟩
  · rcases List.mem_append.mp hr with hr | hr
    · exact h.fits r hr
    · rw [List.mem_singleton.mp hr]
      exact hfits
  · rcases List.mem_append.mp hr with hr | hr
    · refine h.stands_of_agreeOff hagree hr fun loc hown hloc => ?_
      rcases hloc with rfl | rfl
      · exact hactive (hregular hr) hown
      · exact own_apart h.locate hext (hnew hr) hown (Or.inl rfl)
    · rw [List.mem_singleton.mp hr]
      exact Or.inl hplain
  · by_cases hplace : n :: dir = name :: dir ∨ n :: dir = w.backupName t :: dir
    · rcases hplace with heq | heq
      · exact Or.inl (List.cons.inj heq).1
      · exact Or.inr ⟨_, List.mem_append_right _ List.mem_cons_self, Or.inl heq⟩
    · rw [node?_of_view (hagree.view _ hplace)] at hnode
      refine (h.others n node hnode hfile).imp_right ?_
      rintro ⟨r, hr, hown⟩
      exact ⟨r, List.mem_append_left _ hr, hown⟩

/-! ### Sweeps -/

/-- **The backups are what a sweep may touch.** -/
theorem shelf (htimely : Timely kept changed) (now : Instant) :
    (w.sweepFor now).Shelf fs dir (kept.map w.fileOf) := by
  have hentry : ∀ t, (w.backupName t).IsEntry := fun t => (backupName_spec h.locate t).1
  have hfiles : ∀ {Q : NamedFile → Prop}, (∀ r ∈ kept, Q (w.fileOf r)) → ∀ m ∈ kept.map w.fileOf, Q m := by
    intro Q hQ m hm
    obtain ⟨r, hr, rfl⟩ := List.mem_map.mp hm
    exact hQ r hr
  refine ⟨hfiles fun r _ => hentry r.made,
    hfiles fun r hr => covers_backupName h.locate hzone (htimely.regular r hr) now,
    hfiles fun r _ => isCompressed_backupName hext (hentry r.made) _, hfiles fun r hr => ?_,
    hfiles fun r hr => (h.stands r hr).imp_right
      (And.imp_right (packs_iff_admits h.locate hext r.made now).mpr),
    List.pairwise_map.mpr htimely.increasing, fun n id hid hcovers => ?_⟩
  · obtain ⟨hpath, hshort⟩ := h.fits r hr
    rw [backupPath_eq] at hpath
    exact ⟨((lookup_directory h.locate).2 (hentry r.made) hshort).mpr hpath, hshort⟩
  · rcases h.others n _ hid (by simp) with rfl | ⟨r, hr, hown⟩
    · exact absurd hcovers (not_covers_active h.locate now)
    · exact ⟨_, List.mem_map.mpr ⟨r, hr, rfl⟩, hown⟩

/-- **A sweep leaves the last backups**, as many as the limit says, and packs those that it can pack. It
leaves the active file as it is. -/
theorem swept (hs : fs.Sound) (hage : w.policy.maxAge = 0) (hmax : w.maxBackups ≠ 0)
    (htimely : Timely kept changed) (now : Instant) :
    AgreeOff (fun loc => ∃ r ∈ kept, Own dir (w.backupName r.made) loc) fs
        ((w.sweepFor now).run fs).2 ∧
      Backed w fs₀ name dir (kept.rtake w.maxBackups) ((w.sweepFor now).run fs).2 ∧
      ∀ r ∈ kept.rtake w.maxBackups, w.Rests ((w.sweepFor now).run fs).2 dir r := by
  obtain ⟨hrun, hsettled, hgone⟩ := (h.shelf hzone hext htimely now).run hs hage (if_neg hmax)
    (lookup_directory h.locate).1
  rw [List.length_map, ← List.map_drop] at hsettled
  rw [List.length_map, ← List.map_take] at hgone
  generalize ((w.sweepFor now).run fs).2 = fs₁ at *
  have hagree : AgreeOff (fun loc => ∃ r ∈ kept, Own dir (w.backupName r.made) loc) fs fs₁ := by
    refine hrun.mono ?_
    rintro loc ⟨m, hm, hown⟩
    obtain ⟨r, hr, rfl⟩ := List.mem_map.mp hm
    exact ⟨r, hr, hown⟩
  -- a sweep makes no directory, so that the same backups can be packed before it and after it
  have hrests : ∀ r ∈ kept.rtake w.maxBackups, w.Rests fs₁ dir r := by
    intro r hr
    obtain ⟨hpacked, hplain⟩ := hsettled _ (List.mem_map.mpr ⟨r, hr, rfl⟩)
    have hiff := packs_iff_admits h.locate hext r.made now
    exact ⟨fun hpacks => hpacked (hiff.mpr ((packs_iff_of_agreeOff h.locate hagree _).mp hpacks)),
      fun hpacks => hplain fun hc => hpacks ((packs_iff_of_agreeOff h.locate hagree _).mpr (hiff.mp hc))⟩
  have hsub : (kept.rtake w.maxBackups).Sublist kept := List.drop_sublist _ _
  refine ⟨hagree, ⟨hagree.dirs.cwd.trans h.cwd, hagree.dirs.locate h.locate,
    fun r hr => h.fits r (hsub.subset hr), fun r hr => ?_, fun n node hnode hfile => ?_,
    fun loc hloc => h.made loc (hagree.made loc hloc)⟩, hrests⟩
  · by_cases hpacks : w.Packs fs₁ r.made
    · exact Or.inr ⟨(hrests r hr).packed hpacks, hpacks⟩
    · exact Or.inl ((hrests r hr).plain hpacks)
  · by_cases htouched : ∃ r ∈ kept, Own dir (w.backupName r.made) (n :: dir)
    · obtain ⟨r, hr, hown⟩ := htouched
      rw [← List.take_append_drop (kept.length - w.maxBackups) kept] at hr
      rcases List.mem_append.mp hr with hold | hlast
      · -- nothing is left in the places of the others
        obtain ⟨hnone, hnoFrame⟩ := hgone _ (List.mem_map.mpr ⟨r, hold, rfl⟩)
        rcases hown with heq | heq
        · rw [heq] at hnode
          cases hnone.symm.trans hnode
        · rw [heq] at hnode
          exact absurd (hnoFrame node hnode) hfile
      · exact Or.inr ⟨r, hlast, hown⟩
    · rw [node?_of_view (hagree.view _ htouched)] at hnode
      exact (h.others n node hnode hfile).imp_right fun hown => absurd hown htouched

end Backed

end SizeWriter

end LogRouter
