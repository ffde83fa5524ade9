import LogRouter.Proofs.Label.Legible
import LogRouter.Proofs.Writer.Buckets
import LogRouter.Proofs.Writer.OpenBucket

/-!
# The sweeps of a writer recognize its files

* `recognizes_labelledName_iff`: the file of a label is recognized exactly if the label is read.
* **`TimePattern.recognizes_label_iff`**: which files of a writer its sweeps recognize, for every
  accepted pattern and every instant.
* `TimePattern.overlooks_label_behind_zone`: a file that is not recognized.
-/

namespace LogRouter

variable {text : String} {pattern : TimePattern}

/-- **The file of a label** is recognized exactly if the label is read: it is no compressed form of
another. -/
theorem recognizes_labelledName_iff (hpattern : TimePattern.ofString text = .ok pattern) (base : Path)
    (m : Moment) :
    (RotatedName.around base '.' text.toList).recognizes (base.labelledName '.' (pattern.label m)) =
      true ↔ (RotatedName.around base '.' text.toList).readsLabel (pattern.label m) = true := by
  rw [RotatedName.recognizes_iff]
  constructor
  · rintro ⟨label, hlabel, hname | hname⟩
    · rw [around_append] at hname
      unfold Path.labelledName at hname
      simp only [List.append_cancel_left_eq, List.cons.injEq, List.append_cancel_right_eq, true_and]
        at hname
      rwa [hname]
    · rw [around_append] at hname
      exact absurd hname.symm (packedName_ne_labelledName hpattern base hlabel m)
  · intro hlabel
    exact ⟨_, hlabel, Or.inl (around_append _ _ _).symm⟩

theorem readsAs_label (hpattern : TimePattern.ofString text = .ok pattern) {m : Moment}
    (hm : m.InRange) (hne : pattern.label m ≠ []) (h : legible m pattern.items = true) :
    readsAs pattern.items (pattern.label m) = true := by
  obtain ⟨-, hparse, -⟩ := TimePattern.text_of_ofString hpattern
  unfold TimePattern.label at hne ⊢
  cases hrender : renderItems? m pattern.items with
  | none =>
    rw [hrender] at hne
    exact absurd rfl hne
  | some label => exact readsAs_of_legible hm (Item.isProper_parse? _ hparse) hrender h

namespace TimePattern

/-- **What sweeps recognize of the files of a writer.** For every accepted pattern, every path with a
file name and every instant, the file of the label is recognized exactly if the label is not empty
and is read by the pattern, and its compressed form is recognized with it. If no field of the label
runs into what follows it, the label is read. -/
theorem recognizes_label_iff (hpattern : ofString text = .ok pattern) {base : Path} {baseName : Name}
    (hbase : base.fileName? = some baseName) {zone : Zone} (hzone : zone.offset.natAbs < 86400)
    {t : Instant} (ht : t.Representable) (hnanos : t.nanos < 2 * Instant.nanosPerSecond) :
    ∃ name, (base.labelled '.' (pattern.label (.ofInstant zone t))).fileName? = some name ∧
      ((RotatedName.around base '.' text.toList).recognizes name = true ↔
        pattern.label (.ofInstant zone t) ≠ [] ∧
          readsAs pattern.items (pattern.label (.ofInstant zone t)) = true) ∧
      ((RotatedName.around base '.' text.toList).recognizes name = true →
        (RotatedName.around base '.' text.toList).recognizes (Path.packedName name) = true) ∧
      (pattern.label (.ofInstant zone t) ≠ [] →
        legible (.ofInstant zone t) pattern.items = true →
        (RotatedName.around base '.' text.toList).recognizes name = true) := by
  have hm := Moment.inRange_ofInstant hzone ht hnanos
  have hrecognizes := recognizes_labelledName_iff hpattern base (.ofInstant zone t)
  have hreads : (RotatedName.around base '.' text.toList).readsLabel
      (pattern.label (.ofInstant zone t)) = true ↔ pattern.label (.ofInstant zone t) ≠ [] ∧
        readsAs pattern.items (pattern.label (.ofInstant zone t)) = true := by
    rw [readsLabel_around hpattern]
    simp
  refine ⟨base.labelledName '.' (pattern.label (.ofInstant zone t)),
    Path.fileName?_labelled hbase (by decide) (label_no_slash hpattern _), hrecognizes.trans hreads, ?_, ?_⟩
  · intro hname
    refine RotatedName.recognizes_iff.mpr ⟨_, hrecognizes.mp hname, Or.inr ?_⟩
    rw [around_append]
  · intro hne hlegible
    exact hrecognizes.mpr (hreads.mpr ⟨hne, readsAs_label hpattern hm hne hlegible⟩)

/-- The file of a day and its compressed form are recognized. -/
theorem recognizes_label_of_day : ∃ name,
    ((Path.ofString "logs/app.log").labelled '.' "2025-01-02".toList).fileName? = some name ∧
    (RotatedName.around (.ofString "logs/app.log") '.' "%Y-%m-%d".toList).recognizes name = true ∧
    (RotatedName.around (.ofString "logs/app.log") '.' "%Y-%m-%d".toList).recognizes
      (Path.packedName name) = true := by
  have hbase : (Path.ofString "logs/app.log").fileName? = some "app.log".toList := by decide +kernel
  have hzone : Zone.utc.offset.natAbs < 86400 := by decide
  have ht : (Instant.mk 1735830245 0).Representable := by decide
  obtain ⟨name, hname, -, hpacked, hlegible⟩ :=
    recognizes_label_iff TimeWriter.ofString_daily hbase hzone ht (by decide)
  have hlabel : TimeWriter.dailyPattern.label (.ofInstant .utc ⟨1735830245, 0⟩) =
      "2025-01-02".toList := by decide +kernel
  have hrecognized := hlegible (by decide +kernel) (by decide +kernel)
  rw [hlabel] at hname
  exact ⟨name, hname, hrecognized, hpacked hrecognized⟩

/-- A pattern that starts with the name of the zone. -/
def zonedPattern : TimePattern :=
  ⟨"%Z-%Y-%m-%d", [.word .zoneName, .literal ['-'], .zeroed .year, .literal ['-'], .zeroed .month,
    .literal ['-'], .zeroed .day]⟩

/-- The name of a zone is read up to a blank, so that the file of a day is not recognized if its
label starts with it, nor is its compressed form. -/
theorem overlooks_label_behind_zone : TimePattern.ofString "%Z-%Y-%m-%d" = .ok zonedPattern ∧
    zonedPattern.label (.ofInstant (.fixed 19800) ⟨1735830245, 0⟩) = "+05:30-2025-01-02".toList ∧
    ((Path.ofString "logs/app.log").labelled '.' "+05:30-2025-01-02".toList).fileName? =
      some "app.+05:30-2025-01-02.log".toList ∧
    (RotatedName.around (.ofString "logs/app.log") '.' "%Z-%Y-%m-%d".toList).recognizes
      "app.+05:30-2025-01-02.log".toList = false ∧
    (RotatedName.around (.ofString "logs/app.log") '.' "%Z-%Y-%m-%d".toList).recognizes
      "app.+05:30-2025-01-02.log.lz4".toList = false := by
  decide +kernel

end TimePattern

end LogRouter
