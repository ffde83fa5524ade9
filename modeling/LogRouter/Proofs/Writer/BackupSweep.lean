import LogRouter.Proofs.Label.OtherYear
import LogRouter.Proofs.Retention.Limit
import LogRouter.Proofs.Writer.Backups
import LogRouter.Proofs.Writer.OpenBucket

/-!
# Backups in sweeps

* `backupName_ne`: backups of different milliseconds have different names.
* `recognizes_backupName`: the sweeps of a writer recognize its backups.
* `covers_backupName`: the sweeps of a writer cover its backups, as they are and packed.
* `not_covers_active`: they do not cover its active file.
* **`packs_iff_admits`**: a sweep packs a backup if the file system takes the packed one.
-/

namespace LogRouter

open FileSystem

namespace SizeWriter

variable {w : SizeWriter} {fs : FileSystem} {name : Name} {dir : Location} {t t' now : Instant}

/-! ## Names -/

/-- The time has a date and a time of the day that can be written and read again. -/
structure Regular (t : Instant) : Prop where
  representable : t.Representable
  noLeap : t.nanos < Instant.nanosPerSecond

theorem backupName_ne (ht : Regular t) (ht' : Regular t') (h : t.total + 1000000 ≤ t'.total) :
    w.backupName t ≠ w.backupName t' := by
  intro hname
  simp only [backupName, Path.labelledName, List.append_cancel_left_eq, List.cons.injEq, true_and,
    List.append_cancel_right_eq] at hname
  obtain ⟨hseconds, hmillis⟩ := stamp_injective ht.noLeap ht'.noLeap hname
  unfold Instant.total at h
  rw [hseconds] at h
  omega

theorem stamp_plain (zone : Zone) (t : Instant) : 2 ≤ (stamp zone t).length ∧ 'z' ∉ stamp zone t := by
  refine ⟨?_, not_mem_stamp rfl (by decide) zone t⟩
  unfold stamp
  rw [renderItems?_backup, Option.getD_some]
  simp only [renderDay, List.length_append, List.length_cons]
  omega

theorem isCompressed_backupName (hext : w.path.extension? ≠ some Path.compressedExtension)
    (hentry : (w.backupName t).IsEntry) (q : Path) :
    (q.join ⟨w.backupName t⟩).isCompressed = false := by
  rw [Path.isCompressed_join hentry, beq_eq_false_iff_ne]
  intro hsplit
  obtain ⟨other, hname⟩ := Path.exists_packedName hsplit
  obtain ⟨hlength, hz⟩ := stamp_plain w.zone t
  exact Path.labelledName_ne_packedName (beq_eq_false_iff_ne.mpr hext) hlength hz other hname

/-! ## What sweeps cover -/

theorem parse?_backupPattern : Item.parse? backupPattern = some backupItems := by decide +kernel

theorem readsLabel_backup (base : Path) (label : List Char) :
    (RotatedName.around base '-' backupPattern).readsLabel label =
      (!label.isEmpty && readsAs backupItems label) := by
  unfold RotatedName.readsLabel RotatedName.around
  rw [parse?_backupPattern]

theorem recognizes_backupName (hzone : w.zone.offset.natAbs < 86400) (ht : t.Representable)
    (hnanos : t.nanos < 2 * Instant.nanosPerSecond) :
    (RotatedName.around w.path '-' backupPattern).recognizes (w.backupName t) = true ∧
      (RotatedName.around w.path '-' backupPattern).recognizes (Path.packedName (w.backupName t)) =
        true := by
  have hreads : (RotatedName.around w.path '-' backupPattern).readsLabel (stamp w.zone t) = true := by
    have hne : stamp w.zone t ≠ [] := by
      unfold stamp
      rw [renderItems?_backup, Option.getD_some]
      simp
    rw [readsLabel_backup, readsAs_stamp hzone ht hnanos, Bool.and_true]
    simpa using hne
  exact ⟨RotatedName.recognizes_around_iff.mpr ⟨_, hreads, Or.inl rfl⟩,
    RotatedName.recognizes_around_iff.mpr ⟨_, hreads, Or.inr rfl⟩⟩

section Located

variable (h : fs.locate w.path = .ok (.entry (name :: dir) false))

include h

theorem covers_backupName (hzone : w.zone.offset.natAbs < 86400) (ht : Regular t) (now : Instant) :
    (w.sweepFor now).Covers (w.backupName t) ∧
      (w.sweepFor now).Covers (Path.packedName (w.backupName t)) := by
  obtain ⟨hrecognized, hpacked⟩ :=
    recognizes_backupName hzone ht.representable (ht.noLeap.trans (by decide))
  obtain ⟨hentry, hne, _⟩ := backupName_spec h t
  obtain ⟨front, active, dir', hparts, hname, _, hloc, hslash⟩ := exists_of_locate_entry h
  obtain ⟨rfl, rfl⟩ := List.cons.inj hloc
  have hlast : w.path.chars.getLast? ≠ some '/' := by
    rw [eq_comm, beq_eq_false_iff_ne] at hslash
    exact hslash
  obtain ⟨start, hsplit, _⟩ := Path.split_of_parts hparts hlast
  refine ⟨⟨hrecognized, Path.sameAs_join_of_ne hname hsplit hentry hne⟩,
    hpacked, Path.sameAs_join_of_ne hname hsplit (Path.isEntry_packedName hentry) fun heq => ?_⟩
  obtain ⟨_, hfile, _⟩ := reach_parent? h
  have hlength := congrArg List.length (heq.trans (Path.stem_append_suffix hfile).symm)
  simp only [Path.packedName, backupName, Path.labelledName, List.length_append,
    List.length_cons] at hlength
  omega

theorem not_covers_active (now : Instant) : ¬ (w.sweepFor now).Covers name := by
  rintro ⟨hrecognized, _⟩
  obtain ⟨_, hfile, _⟩ := reach_parent? h
  exact absurd hrecognized (Bool.eq_false_iff.mp (RotatedName.recognizes_fileName? hfile))

theorem lookup_directory : fs.lookup w.path.directory = .ok (dir, .directory) ∧
    ∀ {n : Name}, n.IsEntry → byteLength n ≤ maxNameLength →
      (Fits (w.path.directory.join ⟨n⟩) ↔ Fits (w.path.labelledParent.join ⟨n⟩)) := by
  obtain ⟨_, hfile, q, hparent, hreach, hfits⟩ := reach_parent? h
  have hlabelled : w.path.labelledParent = q := by
    unfold Path.labelledParent
    rw [hfile, hparent]
    rfl
  unfold Path.directory
  rw [hparent, hlabelled]
  simp only
  split_ifs with hnil
  · have hq : q = ⟨[]⟩ := by
      cases q
      exact congrArg Path.mk hnil
    rw [hq] at hreach ⊢
    refine ⟨lookup_current hreach, fun {n} hentry hshort => iff_of_true
      (fits_current_join hentry hshort) ⟨fun hnul => ?_, ?_⟩⟩
    · rw [Path.nul_mem_join hentry] at hnul
      cases hnul
    · have hjoin : ((Path.mk []).join ⟨n⟩).chars = n := by
        rcases Path.join_chars (p := ⟨[]⟩) hentry.isPart with ⟨_, hjoin⟩ | ⟨_, _, hne, _⟩
        · exact hjoin
        · exact absurd rfl hne
      rw [hjoin]
      exact hshort.trans (by decide)
  · exact ⟨(lookup_directory_iff hfits hnil).mpr hreach, fun _ _ => Iff.rfl⟩

theorem admits_compressed_iff (t : Instant) : fs.Admits (w.backupPath t).compressed ↔
    Fits (w.backupPath t).compressed ∧ byteLength (Path.packedName (w.backupName t)) ≤ maxNameLength ∧
      fs.node? (Path.packedName (w.backupName t) :: dir) ≠ some .directory ∧
      fs.refusal? .create (Path.packedName (w.backupName t) :: dir) = none := by
  obtain ⟨hentry, _, hreach⟩ := backupName_spec h t
  have hpacked := Path.isEntry_packedName hentry
  rw [backupPath_eq, Path.compressed_join hentry]
  constructor
  · rintro ⟨name', dir', hlocate, hshort, hroom⟩
    obtain ⟨rfl, rfl⟩ := List.cons.inj (eq_of_locate_join hreach hpacked hlocate)
    exact ⟨(fits_of_locate hlocate).1, hshort, hroom⟩
  · rintro ⟨hpath, hshort, hroom⟩
    exact ⟨_, dir, locate_join_of_reach hreach hpacked hpath, hshort, hroom⟩

/-- **A sweep packs a backup** if that is asked for and the file system takes the packed one. -/
theorem packs_iff_admits (hext : w.path.extension? ≠ some Path.compressedExtension) (t now : Instant) :
    (w.sweepFor now).Packs fs dir (w.backupName t) ↔
      w.policy.compress = true ∧ fs.Admits (w.backupPath t).compressed := by
  have hentry := (backupName_spec h t).1
  have hpacked := Path.isEntry_packedName hentry
  obtain ⟨_, hfits⟩ := lookup_directory h
  rw [admits_compressed_iff h, backupPath_eq, Path.compressed_join hentry]
  constructor
  · rintro ⟨hasked, _, hpath, hshort, hroom, hallowed⟩
    exact ⟨hasked, (hfits hpacked hshort).mp hpath, hshort, hroom, hallowed⟩
  · rintro ⟨hasked, hpath, hshort, hroom, hallowed⟩
    exact ⟨hasked, isCompressed_backupName hext hentry _, (hfits hpacked hshort).mpr hpath, hshort, hroom,
      hallowed⟩

end Located

end SizeWriter

end LogRouter
