import LogRouter.Proofs.Path.Labelled
import LogRouter.Retention.RotatedName

/-!
# Recognized names

* `label?_eq_some_iff`: what a name of the shape is put together from.
* **`recognizes_iff`**: what is recognized has the shape, or is the compressed form of a name that
  has it.
* `recognizes_packedName`: the compressed form of a recognized name that is not compressed is
  recognized.
* `recognizes_around_iff`: the shape of the labelled forms of a path recognizes labelled names and
  their compressed forms, but not the name of the path itself.
* **`recognizes_sibling_iff`**: it recognizes a labelled name of another path, as it is or packed, exactly
  if it is a labelled name of the path as well.
-/

namespace LogRouter

theorem stripFront?_eq_some_iff {front s rest : List Char} :
    stripFront? front s = some rest ↔ s = front ++ rest := by
  unfold stripFront?
  split_ifs with h
  · obtain ⟨tail, rfl⟩ := List.isPrefixOf_iff_prefix.mp h
    rw [List.drop_left, Option.some.injEq, List.append_cancel_left_eq]
  · refine iff_of_false (fun hn => by cases hn) ?_
    rintro rfl
    exact h (List.isPrefixOf_iff_prefix.mpr (List.prefix_append _ _))

theorem stripBack?_eq_some_iff {back s rest : List Char} :
    stripBack? back s = some rest ↔ s = rest ++ back := by
  unfold stripBack?
  split_ifs with h
  · obtain ⟨head, rfl⟩ := List.isSuffixOf_iff_suffix.mp h
    rw [List.length_append, Nat.add_sub_cancel, List.take_left, Option.some.injEq,
      List.append_cancel_right_eq]
  · refine iff_of_false (fun hn => by cases hn) ?_
    rintro rfl
    exact h (List.isSuffixOf_iff_suffix.mpr (List.suffix_append _ _))

namespace RotatedName

variable {names : RotatedName} {name : Name}

theorem label?_eq_some_iff {label : List Char} :
    names.label? name = some label ↔ name = names.front ++ (label ++ names.back) := by
  unfold label?
  rw [Option.bind_eq_some_iff]
  constructor
  · rintro ⟨rest, hfront, hback⟩
    rw [stripFront?_eq_some_iff] at hfront
    rw [stripBack?_eq_some_iff] at hback
    rw [hfront, hback]
  · intro h
    exact ⟨label ++ names.back, stripFront?_eq_some_iff.mpr h, stripBack?_eq_some_iff.mpr rfl⟩

theorem recognizesPlain_iff : names.recognizesPlain name = true ↔
    ∃ label, names.readsLabel label = true ∧ name = names.front ++ (label ++ names.back) := by
  unfold recognizesPlain
  cases h : names.label? name with
  | none =>
    refine iff_of_false Bool.false_ne_true ?_
    rintro ⟨label, _, hn⟩
    rw [label?_eq_some_iff.mpr hn] at h
    cases h
  | some label =>
    have hn := label?_eq_some_iff.mp h
    refine ⟨fun hreads => ⟨label, hreads, hn⟩, ?_⟩
    rintro ⟨label', hreads, hn'⟩
    rw [label?_eq_some_iff.mpr hn', Option.some.injEq] at h
    rwa [← h]

theorem recognizes_eq_true_iff : names.recognizes name = true ↔ names.recognizesPlain name = true ∨
    ∃ plain, names.recognizesPlain plain = true ∧ name = Path.packedName plain := by
  unfold recognizes
  rw [Bool.or_eq_true]
  refine or_congr_right ?_
  cases hstrip : stripBack? ('.' :: Path.compressedExtension) name with
  | none =>
    refine iff_of_false Bool.false_ne_true ?_
    rintro ⟨plain, _, hn⟩
    have hsome : stripBack? ('.' :: Path.compressedExtension) name = some plain :=
      stripBack?_eq_some_iff.mpr hn
    rw [hstrip] at hsome
    cases hsome
  | some plain =>
    have hn : name = Path.packedName plain := stripBack?_eq_some_iff.mp hstrip
    refine ⟨fun hplain => ⟨plain, hplain, hn⟩, ?_⟩
    rintro ⟨plain', hplain, hn'⟩
    rwa [Path.packedName_injective (hn.symm.trans hn')]

/-- **What is recognized** has the shape, or is the compressed form of a name that has it. -/
theorem recognizes_iff : names.recognizes name = true ↔ ∃ label, names.readsLabel label = true ∧
    (name = names.front ++ (label ++ names.back) ∨
      name = Path.packedName (names.front ++ (label ++ names.back))) := by
  rw [recognizes_eq_true_iff, recognizesPlain_iff]
  constructor
  · rintro (⟨label, hreads, hn⟩ | ⟨plain, hplain, hn⟩)
    · exact ⟨label, hreads, Or.inl hn⟩
    · obtain ⟨label, hreads, rfl⟩ := recognizesPlain_iff.mp hplain
      exact ⟨label, hreads, Or.inr hn⟩
  · rintro ⟨label, hreads, hn | hn⟩
    · exact Or.inl ⟨label, hreads, hn⟩
    · exact Or.inr ⟨_, recognizesPlain_iff.mpr ⟨label, hreads, rfl⟩, hn⟩

theorem ne_nil_of_recognizesPlain (h : names.recognizesPlain name = true) : name ≠ [] := by
  obtain ⟨label, hreads, rfl⟩ := recognizesPlain_iff.mp h
  rintro hnil
  obtain ⟨rfl, -⟩ := List.append_eq_nil_iff.mp (List.append_eq_nil_iff.mp hnil).2
  unfold readsLabel at hreads
  split at hreads
  · rw [List.isEmpty_nil, Bool.not_true, Bool.false_and] at hreads
    cases hreads
  · cases hreads

/-- **The compressed form of a name that has the shape** is recognized, and so is that of every
recognized name that is not compressed. -/
theorem recognizes_packedName {p : Path} (h : name.IsEntry) (hname : names.recognizes name = true)
    (hplain : (p.join ⟨name⟩).isCompressed = false) :
    names.recognizes (Path.packedName name) = true := by
  rcases recognizes_eq_true_iff.mp hname with hshape | ⟨plain, hshape, rfl⟩
  · exact recognizes_eq_true_iff.mpr (Or.inr ⟨name, hshape, rfl⟩)
  · rw [Path.isCompressed_join h, Path.splitName_packedName (ne_nil_of_recognizesPlain hshape),
      beq_self_eq_true] at hplain
    cases hplain

end RotatedName

/-! ## The shape of labelled paths -/

variable {base : Path} {separator : Char} {pattern : List Char} {name : Name}

theorem around_append (base : Path) {separator : Char} (pattern label : List Char) :
    (RotatedName.around base separator pattern).front ++
      (label ++ (RotatedName.around base separator pattern).back) =
        base.labelledName separator label := by
  rw [Path.labelledName, RotatedName.around, List.append_assoc, List.singleton_append]

namespace RotatedName

/-- **What the shape of a path recognizes** are its labelled names and their compressed forms. -/
theorem recognizes_around_iff : (around base separator pattern).recognizes name = true ↔
    ∃ label, (around base separator pattern).readsLabel label = true ∧
      (name = base.labelledName separator label ∨
        name = Path.packedName (base.labelledName separator label)) := by
  simp only [recognizes_iff, around_append]

theorem recognizes_fileName? (h : base.fileName? = some name) :
    (around base separator pattern).recognizes name = false := by
  rw [Bool.eq_false_iff, Ne, recognizes_around_iff]
  rintro ⟨label, -, hname⟩
  rw [← Path.stem_append_suffix h] at hname
  rcases hname with hname | hname <;>
  · have hlength := congrArg List.length hname
    simp only [Path.packedName, Path.labelledName, List.length_append, List.length_cons] at hlength
    omega

/-- **The labelled names of another path** are recognized, as they are and packed, exactly if they are
labelled names of the path as well. -/
theorem recognizes_sibling_iff {other : Path} {written : Name} (hbase : base.isCompressed = false)
    (hother : other.isCompressed = false) (hwritten : 2 ≤ written.length ∧ 'z' ∉ written)
    (hreads : ∀ label, (around base separator pattern).readsLabel label = true →
      2 ≤ label.length ∧ 'z' ∉ label)
    (hname : name = other.labelledName separator written ∨
      name = Path.packedName (other.labelledName separator written)) :
    (around base separator pattern).recognizes name = true ↔
      ∃ label, (around base separator pattern).readsLabel label = true ∧
        other.labelledName separator written = base.labelledName separator label := by
  have hplain : ∀ plain, other.labelledName separator written ≠ Path.packedName plain :=
    Path.labelledName_ne_packedName hother hwritten.1 hwritten.2
  rw [recognizes_around_iff]
  refine exists_congr fun label => and_congr_right fun hlabel => ?_
  have hplain' : ∀ plain, base.labelledName separator label ≠ Path.packedName plain :=
    Path.labelledName_ne_packedName hbase (hreads label hlabel).1 (hreads label hlabel).2
  rcases hname with rfl | rfl
  · exact or_iff_left (hplain _)
  · rw [or_iff_right (Ne.symm (hplain' _))]
    exact ⟨Path.packedName_injective, congrArg Path.packedName⟩

end RotatedName

end LogRouter
