import LogRouter.Proofs.Writer.BackupSweep

/-!
# The names of backups

* `fileName?_backupPath`: the file name of a backup.
* `backupPath_eq_iff`: two backups have one path exactly if clocks show their instants alike.
* **`backups_told_apart`**: the backups of a path are recognized and told apart by their names, those of
  years beyond four digits included, and the active file is not taken for one.
* **`leap_second_shares_backup`**: a leap second that does not end a minute shares its backup with the second
  after it.
-/

namespace LogRouter

namespace SizeWriter

variable {w : SizeWriter} {name : Name} {t t' : Instant}

theorem fileName?_backupPath (h : w.path.fileName? = some name) (t : Instant) :
    (w.backupPath t).fileName? = some (w.backupName t) :=
  Path.fileName?_labelled h (by decide) (not_mem_stamp rfl (by decide) _ _)

theorem backupName_eq_iff : w.backupName t = w.backupName t' ↔ stamp w.zone t = stamp w.zone t' := by
  simp [backupName, Path.labelledName]

/-- **Two backups have one path** exactly if clocks show their instants alike. -/
theorem backupPath_eq_iff (h : w.path.fileName? = some name) (ht : t.nanos < 2 * Instant.nanosPerSecond)
    (ht' : t'.nanos < 2 * Instant.nanosPerSecond) :
    w.backupPath t = w.backupPath t' ↔ w.zone.ShowsAlike t t' := by
  rw [← stamp_eq_iff ht ht', ← backupName_eq_iff]
  constructor
  · intro heq
    have hnames := congrArg Path.fileName? heq
    rwa [fileName?_backupPath h, fileName?_backupPath h, Option.some.injEq] at hnames
  · exact backupPath_congr

/-- **The backups of a path are told apart.** For every path with a file name and every zone, the
backup of every representable instant is recognized, as it is and packed, and the active file is not.
Two backups have one path exactly if they were made in the same millisecond, or one in a leap second that
clocks of the zone do not show at the end of a minute and the other a second later. -/
theorem backups_told_apart (hname : w.path.fileName? = some name)
    (hzone : w.zone.offset.natAbs < 86400) :
    (∀ t : Instant, t.Representable → t.nanos < 2 * Instant.nanosPerSecond →
      ∃ backup, (w.backupPath t).fileName? = some backup ∧
        (RotatedName.around w.path '-' backupPattern).recognizes backup = true ∧
        (RotatedName.around w.path '-' backupPattern).recognizes (Path.packedName backup) = true) ∧
    (RotatedName.around w.path '-' backupPattern).recognizes name = false ∧
    ∀ t t' : Instant, t.nanos < 2 * Instant.nanosPerSecond →
      t'.nanos < 2 * Instant.nanosPerSecond →
      (w.backupPath t = w.backupPath t' ↔
        t.SameMillisecond t' ∨ w.zone.RunsInto t t' ∨ w.zone.RunsInto t' t) ∧
      ((t.isLeap = true → (t.seconds + w.zone.offset) % 60 = 59) →
        (t'.isLeap = true → (t'.seconds + w.zone.offset) % 60 = 59) →
        (w.backupPath t = w.backupPath t' ↔ t.SameMillisecond t')) := by
  refine ⟨fun t ht hnanos => ?_, RotatedName.recognizes_fileName? hname, fun t t' ht ht' => ?_⟩
  · exact ⟨_, fileName?_backupPath hname t, recognizes_backupName hzone ht hnanos⟩
  · have hiff := (backupPath_eq_iff hname ht ht').trans (Zone.showsAlike_iff ht ht')
    refine ⟨hiff, fun hleap hleap' => hiff.trans (or_iff_left ?_)⟩
    rintro (⟨hisLeap, hinside, _⟩ | ⟨hisLeap, hinside, _⟩)
    · exact hinside (hleap hisLeap)
    · exact hinside (hleap' hisLeap)

/-- The backup of a leap second is recognized. Where clocks show it at the end of a minute it is not that of
the second after it. -/
theorem backups_told_apart_at_leap_second : ∃ w : SizeWriter, w.path = .ofString "logs/app.log" ∧
    w.zone = .fixed 19800 ∧ ∃ backup,
      (w.backupPath ⟨1483228799, 1500000000⟩).fileName? = some backup ∧
      backup = "app-2017-01-01T05-29-60.500.log".toList ∧
      (RotatedName.around w.path '-' backupPattern).recognizes backup = true ∧
      (RotatedName.around w.path '-' backupPattern).recognizes (Path.packedName backup) = true ∧
      w.backupPath ⟨1483228799, 1500000000⟩ ≠ w.backupPath ⟨1483228800, 500000000⟩ := by
  obtain ⟨w, hw⟩ : ∃ w : SizeWriter,
      w = ⟨.ofString "logs/app.log", 1, 0, .disabled, .fixed 19800, none, 0, 0, []⟩ := ⟨_, rfl⟩
  have hname : w.path.fileName? = some "app.log".toList := by
    rw [hw]
    decide +kernel
  have hzone : w.zone.offset.natAbs < 86400 := by
    rw [hw]
    decide
  obtain ⟨hbackups, -, hpaths⟩ := backups_told_apart hname hzone
  obtain ⟨backup, hfile, hrecognized, hpacked⟩ :=
    hbackups ⟨1483228799, 1500000000⟩ (by decide) (by decide)
  obtain ⟨-, hiff⟩ := hpaths ⟨1483228799, 1500000000⟩ ⟨1483228800, 500000000⟩ (by decide) (by decide)
  refine ⟨w, by rw [hw], by rw [hw], backup, hfile, ?_, hrecognized, hpacked, fun heq => ?_⟩
  · rw [fileName?_backupPath hname, Option.some.injEq] at hfile
    rw [← hfile, hw]
    decide +kernel
  · have hleap : ∀ s, (Instant.isLeap ⟨s, 500000000⟩) = false := fun s => rfl
    refine absurd ((hiff (fun _ => ?_) fun h => ?_).mp heq).1 (by decide)
    · rw [hw]
      decide
    · rw [hleap] at h
      cases h

/-- Fifteen seconds ahead of universal time, a leap second and the second after it have one backup, though
they are different seconds. Five and a half hours ahead they have two, though the same milliseconds have
passed since the epoch. -/
theorem leap_second_shares_backup :
    (∃ w : SizeWriter, w.path = .ofString "app.log" ∧ w.zone = .fixed 15 ∧
      w.backupPath ⟨1483228799, 1500000000⟩ = w.backupPath ⟨1483228800, 500000000⟩ ∧
      ¬ Instant.SameMillisecond ⟨1483228799, 1500000000⟩ ⟨1483228800, 500000000⟩) ∧
    ∃ w : SizeWriter, w.path = .ofString "app.log" ∧ w.zone = .fixed 19800 ∧
      w.backupPath ⟨1483228799, 1500000000⟩ ≠ w.backupPath ⟨1483228800, 500000000⟩ ∧
      Instant.total ⟨1483228799, 1500000000⟩ / 1000000 = Instant.total ⟨1483228800, 500000000⟩ / 1000000 := by
  refine ⟨⟨⟨.ofString "app.log", 1, 0, .disabled, .fixed 15, none, 0, 0, []⟩, rfl, rfl, by decide +kernel,
    fun h => absurd h.1 (by decide)⟩, ⟨.ofString "app.log", 1, 0, .disabled, .fixed 19800, none, 0, 0, []⟩,
    rfl, rfl, by decide +kernel, by decide⟩

end SizeWriter

end LogRouter
