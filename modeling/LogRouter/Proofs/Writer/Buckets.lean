import LogRouter.Proofs.Label.Letters
import LogRouter.Proofs.Path.Labelled
import LogRouter.Proofs.Retention.RotatedName
import LogRouter.Proofs.Retention.Sweep
import LogRouter.Writer.TimeWriter

/-!
# The files of a time writer

* `packedName_ne_labelledName`: the compressed form of a name whose label is read is not the name of
  a label that was written.
* **`noTarget_labelledName`**: the file of a label is never the compressed form of a file that the
  sweeps of the same writer recognize.
-/

namespace LogRouter

theorem readsLabel_around {text : String} {pattern : TimePattern}
    (hpattern : TimePattern.ofString text = .ok pattern) (base : Path) (label : List Char) :
    (RotatedName.around base '.' text.toList).readsLabel label =
      (!label.isEmpty && readsAs pattern.items label) := by
  obtain ⟨_, hparse, _⟩ := TimePattern.text_of_ofString hpattern
  unfold RotatedName.readsLabel RotatedName.around
  rw [hparse]

/-- **No labelled name is the compressed form of another.** A text that reads as a label has all
`z`s of the literal text, a label has no more, and `.lz4` would add one. -/
theorem packedName_ne_labelledName {text : String} {pattern : TimePattern}
    (hpattern : TimePattern.ofString text = .ok pattern) (base : Path) {label : List Char}
    (hreads : (RotatedName.around base '.' text.toList).readsLabel label = true) (m : Moment) :
    Path.packedName (base.labelledName '.' label) ≠ base.labelledName '.' (pattern.label m) := by
  intro heq
  have hcount : (literalText pattern.items).count 'z' ≤ label.count 'z' := by
    rw [readsLabel_around hpattern, Bool.and_eq_true] at hreads
    exact count_le_of_readsAs 'z' hreads.2
  have hlabel := TimePattern.count_label_le (c := 'z') rfl hpattern m
  have hlz4 : ('.' :: Path.compressedExtension).count 'z' = 1 := rfl
  unfold Path.packedName Path.labelledName at heq
  rw [List.append_assoc, List.append_cancel_left_eq, List.cons_append, List.cons.injEq,
    List.append_assoc] at heq
  -- the label that was written is the other one with `.lz4`
  have hlonger : label ++ '.' :: Path.compressedExtension = pattern.label m := by
    rcases Path.suffix_eq base with hsuffix | ⟨extension, hdot, hsuffix⟩
    · rw [hsuffix, List.nil_append, List.append_nil] at heq
      exact heq.2
    · rw [hsuffix, ← List.append_assoc] at heq
      obtain ⟨hfront, hextension⟩ := Path.append_dot_inj (by decide) hdot heq.2
      rw [hextension, hfront]
  have hcounts := congrArg (List.count 'z') hlonger
  rw [List.count_append] at hcounts
  omega

/-- **The file of a label is never the compressed form of a file that is recognized.** -/
theorem noTarget_labelledName {text : String} {pattern : TimePattern}
    (hpattern : TimePattern.ofString text = .ok pattern) {request : SweepRequest} {base : Path}
    (hnames : request.names = .around base '.' pattern.text.toList) (m : Moment) :
    request.NoTarget (base.labelledName '.' (pattern.label m)) := by
  intro other hother hrecognized hplain heq
  obtain ⟨htext, -, -⟩ := TimePattern.text_of_ofString hpattern
  rw [hnames, htext] at hrecognized
  obtain ⟨label, hreads, hshape | hshape⟩ := RotatedName.recognizes_iff.mp hrecognized
  · rw [hshape, around_append] at heq
    exact packedName_ne_labelledName hpattern base hreads m heq
  · rw [SweepRequest.pathOf, Path.isCompressed_join hother, hshape,
      Path.splitName_packedName (by simp [RotatedName.around]), beq_self_eq_true] at hplain
    cases hplain

end LogRouter
