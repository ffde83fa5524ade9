import LogRouter.Proofs.Retention.RotatedName

/-!
# Labels and the paths that carry them

* `Path.Halves`: a file name falls into a stem and an extension with its dot; `halves_of_fileName?`: so
  does that of a path.
* `name_eq_of_sameAs`: paths that say the same have one file name.
* `label?_around`: the label of a labelled name is what is left of it between the texts of its shape.
* **`labelled_tells_label`**: a labelled path stands beside its path, its name has the label between
  the halves of the name of the path, and from there the label is read back.
-/

namespace LogRouter

namespace Path

variable {base p q : Path} {name stem suffix label other : Name}

/-- A file name falls into a stem, which is not empty, and a suffix: the last dot behind the first
character and what follows it, which may be nothing. Without such a dot the suffix is empty. -/
structure Halves (name stem suffix : Name) : Prop where
  append_eq : stem ++ suffix = name
  stem_ne_nil : stem ≠ []
  suffix_eq : (suffix = [] ∧ '.' ∉ name.tail) ∨
    ∃ extension, suffix = '.' :: extension ∧ '.' ∉ extension

/-- **The stem and the extension of a path** are the halves of its file name. -/
theorem halves_of_fileName? (h : base.fileName? = some name) : Halves name base.stem base.suffix := by
  refine ⟨stem_append_suffix h, base.stem_ne_nil h, ?_⟩
  rcases base.suffix_eq with hnone | ⟨extension, hdot, hsome⟩
  · obtain ⟨c, tail, hstem, hdot⟩ := stem_of_suffix_eq_nil h hnone
    have hname : name = c :: tail := by
      rw [← stem_append_suffix h, hnone, List.append_nil, hstem]
    exact Or.inl ⟨hnone, hname ▸ hdot⟩
  · exact Or.inr ⟨extension, hsome, hdot⟩

theorem exists_components_of_fileName? (h : p.fileName? = some name) :
    ∃ said, p.components = said ++ [.entry name] := by
  have hidle := isIdle_of_fileName? h
  unfold fileName? at h
  split at h
  · rename_i part hlast
    split_ifs at h with hparent
    obtain rfl := Option.some.inj h
    obtain ⟨front, hbody⟩ := List.getLast?_eq_some_iff.mp hlast
    obtain ⟨tail, htrim, htail⟩ := exists_trimIdle_append (split (start p.chars).2)
    change _ = p.body ++ tail at htrim
    have hsaid : ([part].filter (!isIdle ·)).map componentOf = [.entry part] := by
      simp [hidle, componentOf, hparent]
    refine ⟨(start p.chars).1.components ++ (front.filter (!isIdle ·)).map componentOf, ?_⟩
    rw [components, htrim, List.filter_append, htail, List.append_nil, hbody, List.filter_append,
      List.map_append, hsaid, List.append_assoc]
  · cases h

theorem name_eq_of_sameAs (h : p.sameAs q = true) (hp : p.fileName? = some name)
    (hq : q.fileName? = some other) : name = other := by
  obtain ⟨said, hsaid⟩ := exists_components_of_fileName? hp
  obtain ⟨said', hsaid'⟩ := exists_components_of_fileName? hq
  have hcomponents : p.components = q.components := eq_of_beq h
  rw [hsaid, hsaid'] at hcomponents
  have hlast := (List.append_inj' hcomponents rfl).2
  exact Component.entry.inj (List.cons.inj hlast).1

theorem labelledName_injective {separator : Char}
    (h : base.labelledName separator label = base.labelledName separator other) : label = other := by
  unfold labelledName at h
  exact List.append_cancel_right (List.cons.inj (List.append_cancel_left h)).2

theorem sameAs_labelled_iff {separator : Char} (hname : base.fileName? = some name)
    (hseparator : separator ≠ '/') (hlabel : '/' ∉ label) (hother : '/' ∉ other) :
    (base.labelled separator label).sameAs (base.labelled separator other) = true ↔ label = other := by
  constructor
  · intro h
    exact labelledName_injective (name_eq_of_sameAs h (fileName?_labelled hname hseparator hlabel)
      (fileName?_labelled hname hseparator hother))
  · rintro rfl
    exact sameAs_self _

end Path

namespace RotatedName

variable {base : Path} {name label other : Name}

theorem label?_around (base : Path) (separator : Char) (pattern label : List Char) :
    (around base separator pattern).label? (base.labelledName separator label) = some label :=
  label?_eq_some_iff.mpr (around_append base pattern label).symm

/-- **A labelled path tells its label.** It stands beside the path, and its file name is the stem of
the path, a dot, the label and the suffix of the path. What is left of this name between the two texts
that sweeps take from the path is the label, whatever dots the label has, and two labelled paths say
the same only if their labels are the same. -/
theorem labelled_tells_label (hname : base.fileName? = some name) (hlabel : '/' ∉ label)
    (hother : '/' ∉ other) (pattern : List Char) :
    (base.labelled '.' label).parent? = base.parent? ∧
    (∃ stem suffix, Path.Halves name stem suffix ∧
      (base.labelled '.' label).fileName? = some (stem ++ '.' :: (label ++ suffix))) ∧
    (base.labelled '.' label).fileName?.bind (around base '.' pattern).label? = some label ∧
    ((base.labelled '.' label).sameAs (base.labelled '.' other) = true ↔ label = other) := by
  have hfile := Path.fileName?_labelled hname (by decide : '.' ≠ '/') hlabel
  refine ⟨Path.parent?_labelled hname (by decide) hlabel,
    ⟨base.stem, base.suffix, Path.halves_of_fileName? hname, hfile⟩, ?_,
    Path.sameAs_labelled_iff hname (by decide) hlabel hother⟩
  rw [hfile, Option.bind_some, label?_around]

/-- A hidden file with two dots and an empty extension, and a label that ends like it. -/
theorem labelled_tells_label_of_hidden_file : ∃ base : Path,
    base = .ofString "logs//.app.tar./" ∧ base.fileName? = some ".app.tar.".toList ∧
    (base.labelled '.' "01.".toList).parent? = some (.ofString "logs") ∧
    (base.labelled '.' "01.".toList).fileName? = some ".app.tar.01..".toList ∧
    (base.labelled '.' "01.".toList).fileName?.bind (around base '.' []).label? = some "01.".toList ∧
    (base.labelled '.' "01.".toList).sameAs (base.labelled '.' "01".toList) = false := by
  obtain ⟨base, hbase⟩ : ∃ base : Path, base = .ofString "logs//.app.tar./" := ⟨_, rfl⟩
  have hname : base.fileName? = some ".app.tar.".toList := by
    rw [hbase]
    decide +kernel
  have hlabel : '/' ∉ "01.".toList := by decide
  have hother : '/' ∉ "01".toList := by decide
  obtain ⟨hparent, -, hread, hsame⟩ := labelled_tells_label hname hlabel hother []
  refine ⟨base, hbase, hname, hparent.trans ?_, ?_, hread, ?_⟩
  · rw [hbase]
    decide +kernel
  · rw [hbase]
    decide +kernel
  · rw [Bool.eq_false_iff, Ne, hsame]
    decide

end RotatedName

end LogRouter
