import LogRouter.Proofs.Label.Readable
import LogRouter.Proofs.Retention.AllOrNothing
import LogRouter.Proofs.Writer.BackupSweep

/-!
# Sweeps and the backups of another path

A stamp is read more freely than it is written: its year may have a sign, blanks may stand in front of it,
and the milliseconds may be missing. So the dash behind a stem can be taken for the sign of a year, and an
extension for milliseconds.

* `StemsClash`, `SuffixesClash`: how the name of a backup can be split in two ways.
* `exists_label_iff`, **`labelled_stamp_iff`**: these are the only ways in which the backup of one path can
  be a labelled name of another.
* **`SizeWriter.recognizes_backup_of_sibling_iff`**: when a writer takes the backups of another for its own;
  otherwise its sweeps leave them alone.
-/

namespace LogRouter

open SizeWriter

/-! ## Texts around a separator -/

theorem append_cons_eq_append_cons {c : Char} {a b s t : List Char} (h : a ++ c :: s = b ++ c :: t) :
    (a = b ∧ s = t) ∨ (∃ d, a = b ++ c :: d ∧ t = d ++ c :: s) ∨
      ∃ d, b = a ++ c :: d ∧ s = d ++ c :: t := by
  rcases List.append_eq_append_iff.mp h with ⟨d, hb, hs⟩ | ⟨d, ha, ht⟩
  · cases d with
    | nil => exact Or.inl ⟨by simpa using hb.symm, (List.cons.inj hs).2⟩
    | cons e d =>
      rw [List.cons_append, List.cons.injEq] at hs
      exact Or.inr (Or.inr ⟨d, hs.1 ▸ hb, hs.2⟩)
  · cases d with
    | nil => exact Or.inl ⟨by simpa using ha, (List.cons.inj ht).2.symm⟩
    | cons e d =>
      rw [List.cons_append, List.cons.injEq] at ht
      exact Or.inr (Or.inl ⟨d, ht.1 ▸ ha, ht.2⟩)

theorem append_cons_inj {c : Char} {a b s t : List Char} (ha : c ∉ a) (hb : c ∉ b)
    (h : a ++ c :: s = b ++ c :: t) : a = b ∧ s = t := by
  rcases append_cons_eq_append_cons h with h | ⟨d, rfl, -⟩ | ⟨d, rfl, -⟩
  · exact h
  · exact absurd (List.mem_append_right _ List.mem_cons_self) ha
  · exact absurd (List.mem_append_right _ List.mem_cons_self) hb

/-! ## Stems -/

/-- The stems of two paths, where the backup of `other` in a year can be split behind the stem `base` as
well: they are the same, or the dash behind `other` is taken for the sign of a year that has none, with
blanks at most in front of it, or the sign of a year that can be read without it is taken for the dash
behind `base`. -/
inductive StemsClash (base other : Name) (year : Int) : Prop where
  | same (stem : other = base)
  | sign {blanks : Name} (stem : other = base ++ '-' :: blanks)
      (blank : Text.allBlank blanks = true) (range : 0 ≤ year ∧ year ≤ 9999)
  | dash (stem : base = other ++ ['-']) (range : -9999 ≤ year ∧ year < 0)

section Stems

variable {m : Moment} {base other : Name} {label places : List Char}

/-- **A stamp that is split in two ways** has a dash that is taken for a sign, or a sign that is taken for
a dash: there are four other dashes in it, however it is read. -/
theorem stemsClash_of_eq (hm : m.InRange) (hplaces : '-' ∉ places)
    (hlabel : readsAs backupItems label = true)
    (h : other ++ '-' :: (renderYear .zero m.date.year ++ (clockText m ++ places)) =
      base ++ '-' :: label) : StemsClash base other m.date.year := by
  obtain ⟨year, month, clock, rfl, hyear, hmonth, hdashes, -, -⟩ := exists_of_readsAs_stamp hlabel
  have hclock := (count_clockText hm).1
  have hplaces := List.count_eq_zero.mpr hplaces
  have hmonth := (hmonth.unmarked rfl).1
  obtain ⟨clockRest, hclockRest⟩ : ∃ rest, clockText m ++ places = '-' :: rest := ⟨_, rfl⟩
  rcases append_cons_eq_append_cons h with ⟨rfl, -⟩ | ⟨d, hother, heq⟩ | ⟨d, hbase, heq⟩
  · exact .same rfl
  · have hcount := congrArg (List.count '-') heq
    simp only [List.count_append, List.count_cons_self, hdashes, hmonth, hclock, hplaces] at hcount
    rcases hyear.dash with hnone | ⟨blanks, digits, rfl, hblank, hdigit⟩
    · have := List.count_eq_zero.mpr hnone
      omega
    -- the first dash is the sign that is read, and the dash behind it the one behind the year
    have hblanks : '-' ∉ blanks := not_mem_of_forall hblank rfl
    have hdigits : '-' ∉ digits := not_mem_of_forall hdigit rfl
    rw [List.count_append, List.count_cons_self, List.count_eq_zero.mpr hblanks,
      List.count_eq_zero.mpr hdigits] at hcount
    rw [List.append_assoc, List.cons_append, hclockRest] at heq
    obtain ⟨rfl, hrest⟩ := append_cons_inj hblanks (List.count_eq_zero.mp (by omega)) heq
    obtain ⟨hyear, -⟩ := append_cons_inj hdigits (List.count_eq_zero.mp (by omega)) hrest
    exact .sign hother (List.all_eq_true.mpr hblank) (renderYear_range (hyear ▸ hdigit))
  · have hcount := congrArg (List.count '-') heq
    simp only [List.count_append, List.count_cons_self, hdashes, hmonth, hclock, hplaces] at hcount
    rcases dash_renderYear m.date.year with hnone | hneg
    · have := List.count_eq_zero.mpr hnone
      omega
    -- the sign is the dash behind the stem, and the year has to be read without it
    obtain ⟨digits, hrender, hspells, -, hlength⟩ := renderYear_of_negative hneg
    have hdigits : '-' ∉ digits := not_mem_of_forall hspells.isDigit rfl
    rw [hrender, List.count_cons_self, List.count_eq_zero.mpr hdigits] at hcount
    rw [hrender, List.cons_append, hclockRest] at heq
    obtain ⟨rfl, hrest⟩ := append_cons_inj (a := []) List.not_mem_nil
      (List.count_eq_zero.mp (by omega)) heq
    obtain ⟨rfl, -⟩ := append_cons_inj hdigits (List.count_eq_zero.mp (by omega)) hrest
    exact .dash hbase ⟨hlength.mp (hyear.length_le hspells.isDigit rfl), hneg⟩

theorem exists_label_of_stemsClash (hm : m.IsShown) (hplaces : places = [] ∨ places = milliText m)
    (h : StemsClash base other m.date.year) : ∃ label, readsAs backupItems label = true ∧
      other ++ '-' :: (renderYear .zero m.date.year ++ (clockText m ++ places)) = base ++ '-' :: label := by
  have hstop : (clockText m ++ places).head?.any Char.isDigit = false := rfl
  have hlarge : m.date.year.natAbs ≤ Reading.maxNumber := hm.year.trans (by decide)
  cases h with
  | same stem =>
    refine ⟨_, readsAs_stamp_of_year hm rfl hm.year hplaces (read?_renderYear hm.inRange hstop), ?_⟩
    rw [stem]
  | sign stem blank range =>
    rename_i blanks
    obtain ⟨sign, digits, hrender, hspells, hne, hsign⟩ := renderYear_spec m.date.year
    obtain rfl : sign = [] := by
      rcases hsign with ⟨hsign, -⟩ | ⟨-, hneg⟩ | ⟨-, hlong⟩
      · exact hsign
      · omega
      · omega
    have hread := NumericField.read?_minus (List.all_eq_true.mp blank) hspells hne hlarge hstop
    have hsame : (-(m.date.year.natAbs : Int)).natAbs = m.date.year.natAbs := by omega
    refine ⟨_, readsAs_stamp_of_year hm (isLeapYear_of_natAbs hsame) (hsame.trans_le hm.year) hplaces
      hread, ?_⟩
    rw [stem, hrender, List.append_assoc, List.cons_append, List.nil_append]
  | dash stem range =>
    obtain ⟨digits, hrender, hspells, hne, hlength⟩ := renderYear_of_negative range.2
    have hread : NumericField.year.read? (digits ++ (clockText m ++ places)) =
        some ((m.date.year.natAbs : Int), clockText m ++ places) := by
      have htrim : Text.trimStart (digits ++ (clockText m ++ places)) =
          [] ++ (digits ++ (clockText m ++ places)) :=
        ((startsPlain_of_spells hspells hne).append _).trimStart_eq
      refine NumericField.read?_of_digits htrim (.none (by omega)) hspells hne hlarge
        (fun h => absurd rfl h) (fun _ width hwidth => ?_) (Or.inr hstop)
      rw [← Option.some.inj hwidth]
      exact hlength.mpr range.1
    have hsame : (m.date.year.natAbs : Int).natAbs = m.date.year.natAbs := by omega
    refine ⟨_, readsAs_stamp_of_year hm (isLeapYear_of_natAbs hsame) (hsame.trans_le hm.year) hplaces
      hread, ?_⟩
    rw [stem, hrender, List.append_assoc, List.cons_append, List.singleton_append]

/-- **A stamp can be split in two ways** exactly if the stems clash. -/
theorem exists_label_iff (hm : m.IsShown) (hplaces : places = [] ∨ places = milliText m) :
    (∃ label, readsAs backupItems label = true ∧
      other ++ '-' :: (renderYear .zero m.date.year ++ (clockText m ++ places)) =
        base ++ '-' :: label) ↔ StemsClash base other m.date.year := by
  refine ⟨fun h => ?_, exists_label_of_stemsClash hm hplaces⟩
  obtain ⟨label, hlabel, heq⟩ := h
  refine stemsClash_of_eq hm.inRange ?_ hlabel heq
  rcases hplaces with rfl | rfl
  · exact List.not_mem_nil
  · exact not_mem_milliText m

end Stems

/-! ## Extensions -/

/-- The extensions of two paths, where the backup of `other` at a moment can be split in front of the suffix
`base` as well: they are the same, or the one is taken for the milliseconds of a stamp without extension. -/
def SuffixesClash (base other : Name) (m : Moment) : Prop :=
  base = other ∨ other = [] ∧ base = milliText m

/-- **The backup of a path clashes** with the labelled names of another. -/
def BackupsClash (base other : Path) (m : Moment) : Prop :=
  StemsClash base.stem other.stem m.date.year ∧ SuffixesClash base.suffix other.suffix m

section Suffixes

variable {m : Moment} {base other : Path} {name name' : Name} {label : List Char}

theorem stamp_ne_of_suffix_nil (hname : base.fileName? = some name) (hname' : other.fileName? = some name')
    (hsuffix : base.suffix = []) (hlabel : readsAs backupItems label = true) {front tail extension : Name}
    (hfront : other.stem ++ '-' :: (front ++ '.' :: tail) ++ '.' :: extension = base.stem ++ '-' :: label) :
    False := by
  obtain ⟨c, rest, hcons, hdot⟩ := Path.stem_of_suffix_eq_nil hname hsuffix
  obtain ⟨d, rest', hcons'⟩ := List.exists_cons_of_ne_nil (Path.stem_ne_nil hname')
  rw [hcons, hcons'] at hfront
  have hcount := congrArg (List.count '.') (List.cons.inj hfront).2
  have hpoint := (count_of_readsAs_stamp hlabel).1
  simp [List.count_eq_zero.mpr hdot] at hcount
  omega

/-- **The backup of one path is a labelled name of another** exactly if the two clash. -/
theorem labelled_stamp_iff (hname : base.fileName? = some name) (hname' : other.fileName? = some name')
    (hm : m.IsShown) : (∃ label, readsAs backupItems label = true ∧
      other.labelledName '-' (renderYear .zero m.date.year ++ (clockText m ++ milliText m)) =
        base.labelledName '-' label) ↔ BackupsClash base other m := by
  simp only [Path.labelledName_eq_append]
  unfold BackupsClash SuffixesClash
  have hmilli : '.' ∉ zeroPadded 3 (m.fraction / 1000000) :=
    not_mem_of_forall (isDigit_milliText m) rfl
  have hfull := @exists_label_iff _ base.stem other.stem _ hm (Or.inr rfl)
  have hshort := @exists_label_iff _ base.stem other.stem _ hm (Or.inl rfl)
  constructor
  · rintro ⟨label, hlabel, heq⟩
    rcases Path.suffix_eq base with hsuffix | ⟨extension, hdot, hsuffix⟩ <;>
      rcases Path.suffix_eq other with hsuffix' | ⟨extension', hdot', hsuffix'⟩
    · rw [hsuffix, hsuffix', List.append_nil, List.append_nil] at heq
      exact ⟨hfull.mp ⟨label, hlabel, heq⟩, Or.inl (hsuffix.trans hsuffix'.symm)⟩
    · rw [hsuffix, hsuffix', List.append_nil] at heq
      rw [milliText, ← List.append_assoc] at heq
      exact (stamp_ne_of_suffix_nil hname hname' hsuffix hlabel heq).elim
    · -- the extension can only be taken for the milliseconds
      rw [hsuffix, hsuffix', List.append_nil, milliText, ← List.append_assoc, ← List.cons_append,
        ← List.append_assoc] at heq
      obtain ⟨hfront, hextension⟩ := Path.append_dot_inj hmilli hdot heq
      rw [hsuffix, hsuffix', milliText, hextension]
      exact ⟨hshort.mp ⟨label, hlabel, by rwa [List.append_nil]⟩, Or.inr ⟨rfl, rfl⟩⟩
    · rw [hsuffix, hsuffix'] at heq
      obtain ⟨hfront, hextension⟩ := Path.append_dot_inj hdot' hdot heq
      rw [hsuffix, hsuffix', hextension]
      exact ⟨hfull.mp ⟨label, hlabel, hfront⟩, Or.inl rfl⟩
  · rintro ⟨hstems, hsuffix | ⟨hsuffix', hsuffix⟩⟩
    · obtain ⟨label, hlabel, heq⟩ := hfull.mpr hstems
      exact ⟨label, hlabel, by rw [heq, hsuffix]⟩
    · obtain ⟨label, hlabel, heq⟩ := hshort.mpr hstems
      refine ⟨label, hlabel, ?_⟩
      rw [hsuffix, hsuffix', ← heq]
      simp

end Suffixes

/-! ## Size writers of one directory -/

namespace SizeWriter

/-- **When a writer takes the backups of another for its own.** For every two writers whose names are not
those of compressed files, and every representable instant: the backup that the second makes is recognized by
the first, as it is and packed, exactly if the two clash, and if they do not, the sweeps of the first leave it
alone wherever it stands. -/
theorem recognizes_backup_of_sibling_iff {w w' : SizeWriter} {name name' : Name}
    (hname : w.path.fileName? = some name) (hname' : w'.path.fileName? = some name')
    (hplain : w.path.isCompressed = false) (hplain' : w'.path.isCompressed = false)
    (hzone : w'.zone.offset.natAbs < 86400) {t : Instant} (ht : t.Representable)
    (hnanos : t.nanos < 2 * Instant.nanosPerSecond) :
    ∃ backup, (w'.backupPath t).fileName? = some backup ∧
      ∀ file, file = backup ∨ file = Path.packedName backup →
        ((RotatedName.around w.path '-' backupPattern).recognizes file = true ↔
          BackupsClash w.path w'.path (.ofInstant w'.zone t)) ∧
        (¬ BackupsClash w.path w'.path (.ofInstant w'.zone t) →
          ∀ (now : Instant) (fs : FileSystem) (dir : Location), fs.Sound →
            ((w.sweepFor now).run fs).2.view (file :: dir) = fs.view (file :: dir)) := by
  have hm := Moment.isShown_ofInstant hzone ht hnanos
  have hreads : ∀ label, (RotatedName.around w.path '-' backupPattern).readsLabel label = true ↔
      readsAs backupItems label = true := by
    intro label
    rw [readsLabel_backup, Bool.and_eq_true, Bool.not_eq_true', and_iff_right_iff_imp]
    intro h
    have hlength := (count_of_readsAs_stamp h).2.1
    cases label with
    | nil => exact absurd hlength (by decide)
    | cons c label => rfl
  refine ⟨w'.backupName t, Path.fileName?_labelled hname' (by decide) (not_mem_stamp rfl (by decide) _ _),
    fun file hfile => ?_⟩
  have hiff : (RotatedName.around w.path '-' backupPattern).recognizes file = true ↔
      BackupsClash w.path w'.path (.ofInstant w'.zone t) := by
    rw [RotatedName.recognizes_sibling_iff hplain hplain' (stamp_plain w'.zone t)
      (fun label h => (count_of_readsAs_stamp ((hreads label).mp h)).2) hfile,
      ← labelled_stamp_iff hname hname' hm, stamp_eq]
    exact exists_congr fun label => and_congr_left fun _ => hreads label
  refine ⟨hiff, fun hclash now fs dir hs => ?_⟩
  exact SweepRequest.run_view_of_not_recognized hs (Bool.eq_false_iff.mpr fun h => hclash (hiff.mp h)) dir

/-- A writer in universal time that keeps its backups for a day. -/
def keepingDay (path : Path) : SizeWriter := ⟨path, 16, 0, ⟨1, 86400, false⟩, .utc, none, 0, 0, []⟩

/-- A dash and a word behind the stem do not clash with it. -/
theorem spares_backup_of_longer_stem : ∃ backup,
    ((keepingDay (.ofString "app-error.log")).backupPath ⟨1735830245, 0⟩).fileName? = some backup ∧
    backup = "app-error-2025-01-02T15-04-05.000.log".toList ∧
    ((RotatedName.around (.ofString "app.log") '-' backupPattern).recognizes backup = false ∧
      (RotatedName.around (.ofString "app.log") '-' backupPattern).recognizes
        (Path.packedName backup) = false) := by
  have hname : (keepingDay (.ofString "app.log")).path.fileName? = some "app.log".toList := by
    decide +kernel
  have hname' : (keepingDay (.ofString "app-error.log")).path.fileName? =
      some "app-error.log".toList := by decide +kernel
  have ht : (Instant.mk 1735830245 0).Representable := by decide
  obtain ⟨backup, hfile, hiff⟩ := recognizes_backup_of_sibling_iff hname hname' (by decide +kernel)
    (by decide +kernel) (by decide) ht (by decide)
  have hstem : (Path.ofString "app.log").stem = "app".toList ∧
      (Path.ofString "app-error.log").stem = "app-error".toList := by decide +kernel
  have hclash : ¬ BackupsClash (.ofString "app.log") (.ofString "app-error.log")
      (.ofInstant .utc ⟨1735830245, 0⟩) := by
    rintro ⟨hstems, -⟩
    rw [hstem.1, hstem.2] at hstems
    cases hstems with
    | same stem => exact absurd stem (by decide)
    | sign stem blank range =>
      rename_i blanks
      have hblanks : "app-".toList ++ "error".toList = "app-".toList ++ blanks := stem
      rw [← List.append_cancel_left hblanks] at blank
      exact absurd blank (by decide)
    | dash stem => exact absurd (congrArg List.length stem) (by decide)
  have hspared := fun file hfile => Bool.eq_false_iff.mpr fun h => hclash ((hiff file hfile).1.mp h)
  refine ⟨backup, hfile, ?_, hspared _ (Or.inl rfl), hspared _ (Or.inr rfl)⟩
  have hbackup : ((keepingDay (.ofString "app-error.log")).backupPath ⟨1735830245, 0⟩).fileName? =
      some "app-error-2025-01-02T15-04-05.000.log".toList := by decide +kernel
  exact Option.some.inj (hfile.symm.trans hbackup)

/-- The backup of the writer for `app-.log`, alone in its directory. -/
def dashedBackup : FileSystem :=
  .ofFiles [("app--2025-01-02T15-04-05.000.log".toList, ⟨[97], 1735830245000000000⟩)]

/-- The dash that the stem `app-` ends with is taken for the dash behind the stem `app`, and the one behind
it for the sign of a year: the sweep of the one writer removes the backup of the other. -/
theorem takes_backup_of_dashed_stem : ∃ backup,
    ((keepingDay (.ofString "app-.log")).backupPath ⟨1735830245, 0⟩).fileName? = some backup ∧
    backup = "app--2025-01-02T15-04-05.000.log".toList ∧
    (Path.ofString "app.log").fileName? ≠ (Path.ofString "app-.log").fileName? ∧
    (Path.ofString "app.log").isCompressed = false ∧ (Path.ofString "app-.log").isCompressed = false ∧
    (RotatedName.around (.ofString "app.log") '-' backupPattern).recognizes backup = true ∧
    (RotatedName.around (.ofString "app.log") '-' backupPattern).recognizes (Path.packedName backup) =
      true ∧
    dashedBackup.node? [backup] = some (.file 0) ∧
    (((keepingDay (.ofString "app.log")).sweepFor ⟨1736003045, 0⟩).run dashedBackup).2.node? [backup] =
      none := by
  refine ⟨"app--2025-01-02T15-04-05.000.log".toList, ?_, rfl, ?_, ?_, ?_, ?_, ?_, ?_, ?_⟩ <;>
    decide +kernel

end SizeWriter

end LogRouter
