import LogRouter.Proofs.Path.Parts

/-!
# Labelled paths

* `Path.labelledName`, `Path.labelledParent`: the name of a labelled path and the path in front of
  it.
* `stem_append_suffix`: the stem and the extension of a path make up its file name.
* `labelledName_ne_packedName`: a labelled name is not that of a compressed file.
* **`fileName?_labelled`**, **`parent?_labelled`**: a labelled path has the labelled name and stands
  beside the path.
* `Path.HasDirectory`, `Path.IsBare`: a path with a file name and a directory in front of it, or
  none.
* `sameAs_current_join`: a file of the current directory has two paths that do not say the same.
-/

namespace LogRouter

namespace Path

variable {base : Path} {separator : Char} {label : Name}

/-! ## Labelled names -/

/-- The name of a labelled path. -/
def labelledName (base : Path) (separator : Char) (label : Name) : Name :=
  base.stem ++ separator :: (label ++ base.suffix)

theorem labelledName_eq_append (base : Path) (separator : Char) (label : Name) :
    base.labelledName separator label = (base.stem ++ separator :: label) ++ base.suffix := by
  rw [labelledName, List.append_assoc, List.cons_append]

/-- The path in front of the name of a labelled path. -/
def labelledParent (base : Path) : Path :=
  match base.fileName? with
  | some _ => base.parent?.getD ⟨[]⟩
  | none => base

theorem labelled_eq (base : Path) (separator : Char) (label : Name) :
    base.labelled separator label = base.labelledParent.join ⟨base.labelledName separator label⟩ := by
  unfold labelled withFileName labelledParent labelledName
  cases base.fileName? <;> rfl

theorem no_slash_of_fileName? {name : Name} (h : base.fileName? = some name) : '/' ∉ name := by
  unfold fileName? at h
  split at h
  · rename_i part hlast
    split_ifs at h
    rw [← Option.some.inj h]
    obtain ⟨tail, htrim, _⟩ := exists_trimIdle_append (split (start base.chars).2)
    have hmem : part ∈ base.body := List.mem_of_getLast? hlast
    exact no_slash_of_mem_split part (by rw [htrim]; exact List.mem_append_left _ hmem)
  · cases h

theorem stem_append_suffix {name : Name} (h : base.fileName? = some name) :
    base.stem ++ base.suffix = name := by
  unfold stem suffix extension?
  rw [h]
  simp only [Option.bind_some]
  rcases splitName_spec name with ⟨hnone, hfirst⟩ | ⟨extension, hsome, _, heq⟩
  · rw [hnone, hfirst, List.append_nil]
  · rw [hsome, heq]

theorem suffix_eq (base : Path) :
    base.suffix = [] ∨ ∃ extension, '.' ∉ extension ∧ base.suffix = '.' :: extension := by
  unfold suffix extension?
  cases base.fileName? with
  | none => exact Or.inl rfl
  | some name =>
    simp only [Option.bind_some]
    rcases splitName_spec name with ⟨hnone, _⟩ | ⟨extension, hsome, hdot, _⟩
    · rw [hnone]
      exact Or.inl rfl
    · rw [hsome]
      exact Or.inr ⟨extension, hdot, rfl⟩

theorem no_slash_stem_suffix (base : Path) : '/' ∉ base.stem ∧ '/' ∉ base.suffix := by
  cases hname : base.fileName? with
  | none => simp [stem, suffix, extension?, hname]
  | some name =>
    have h := no_slash_of_fileName? hname
    rw [← stem_append_suffix hname, List.mem_append, not_or] at h
    exact h

theorem isPart_labelledName (hseparator : separator ≠ '/') (hlabel : '/' ∉ label) :
    (base.labelledName separator label).IsPart := by
  obtain ⟨hstem, hsuffix⟩ := no_slash_stem_suffix base
  refine ⟨by simp [labelledName], ?_⟩
  simp [labelledName, hstem, hsuffix, hlabel, Ne.symm hseparator]

theorem isIdle_of_fileName? {name : Name} (h : base.fileName? = some name) : isIdle name = false := by
  unfold fileName? at h
  split at h
  · rename_i part hlast
    split_ifs at h
    rw [← Option.some.inj h]
    unfold body trimIdle at hlast
    have hfirst := List.head?_dropWhile_not isIdle (split (start base.chars).2).reverse
    rw [List.getLast?_reverse] at hlast
    rwa [hlast] at hfirst
  · cases h

theorem stem_ne_nil {name : Name} (h : base.fileName? = some name) : base.stem ≠ [] := by
  have hname : name ≠ [] := by
    rintro rfl
    cases isIdle_of_fileName? h
  unfold stem splitName
  rw [h]
  dsimp only
  split_ifs with hbefore
  · exact hname
  · exact hbefore

theorem stem_of_suffix_eq_nil {name : Name} (h : base.fileName? = some name) (hsuffix : base.suffix = []) :
    ∃ c tail, base.stem = c :: tail ∧ '.' ∉ tail := by
  obtain ⟨c, tail, hcons⟩ := List.exists_cons_of_ne_nil (stem_ne_nil h)
  refine ⟨c, tail, hcons, fun hdot => ?_⟩
  have hname : name = c :: tail := by rw [← stem_append_suffix h, hsuffix, List.append_nil, hcons]
  have htwo := splitName_of_dot (c := c) hdot
  rw [← hname] at htwo
  unfold suffix extension? at hsuffix
  rw [h, Option.bind_some] at hsuffix
  cases hsplit : (splitName name).2 with
  | none => exact htwo hsplit
  | some extension =>
    rw [hsplit] at hsuffix
    cases hsuffix

theorem suffix_ne_of_plain (h : base.isCompressed = false) :
    base.suffix ≠ '.' :: compressedExtension := by
  unfold isCompressed at h
  unfold suffix
  intro hsuffix
  split at hsuffix
  · rename_i extension hextension
    rw [hextension, (List.cons.inj hsuffix).2, beq_self_eq_true] at h
    cases h
  · cases hsuffix

/-- **A labelled name is no compressed form** if its path is not that of a compressed file and the label
has two characters and no `z`. -/
theorem labelledName_ne_packedName (h : base.isCompressed = false) (hlength : 2 ≤ label.length)
    (hz : 'z' ∉ label) (other : Name) : base.labelledName separator label ≠ packedName other := by
  intro heq
  rw [labelledName_eq_append, packedName] at heq
  rcases suffix_eq base with hsuffix | ⟨extension, hdot, hsuffix⟩
  · -- the last character but one is in the label
    rw [hsuffix, List.append_nil] at heq
    rw [← List.length_reverse] at hlength
    obtain ⟨a, rest, hlast⟩ := List.exists_cons_of_length_pos (Nat.lt_of_lt_of_le Nat.zero_lt_two hlength)
    rw [hlast, List.length_cons] at hlength
    obtain ⟨b, front, hrest⟩ := List.exists_cons_of_length_pos (Nat.le_of_succ_le_succ hlength)
    rw [hrest] at hlast
    have hreverse := congrArg List.reverse heq
    rw [List.reverse_append, List.reverse_cons, hlast, List.reverse_append] at hreverse
    have hb : b = 'z' := (List.cons.inj (List.cons.inj hreverse).2).1
    exact hz (List.mem_reverse.mp (hlast ▸ hb ▸ List.mem_cons_of_mem _ List.mem_cons_self))
  · rw [hsuffix] at heq
    have hextension := (append_dot_inj hdot (by decide) heq).2
    exact suffix_ne_of_plain h (hsuffix.trans (congrArg ('.' :: ·) hextension))

theorem labelledName_ne_dot {name : Name} (hname : base.fileName? = some name) :
    base.labelledName separator label ≠ ['.'] := by
  intro heq
  have hstem := List.length_pos_iff.mpr (stem_ne_nil hname)
  have hlength := congrArg List.length heq
  simp only [labelledName, List.length_append, List.length_cons, List.length_nil] at hlength
  omega

/-- **The file name of a labelled path** of a path with a file name is the labelled name. -/
theorem fileName?_labelled {name : Name} (hname : base.fileName? = some name)
    (hseparator : separator ≠ '/') (hlabel : '/' ∉ label) :
    (base.labelled separator label).fileName? = some (base.labelledName separator label) := by
  have hidle := isIdle_of_fileName? hname
  have happend := stem_append_suffix hname
  have hstem := stem_ne_nil hname
  rw [labelled_eq]
  refine fileName?_join_of_isPart (isPart_labelledName hseparator hlabel) (labelledName_ne_dot hname) ?_
  · -- two dots would be the stem and the separator, and the stem the whole file name
    intro heq
    obtain ⟨c, rest, hcons⟩ := List.exists_cons_of_ne_nil hstem
    rw [labelledName, hcons] at heq
    simp only [List.cons_append, List.cons.injEq] at heq
    obtain ⟨rfl, hrest⟩ := heq
    have hlength := congrArg List.length hrest
    simp only [List.length_append, List.length_cons, List.length_nil] at hlength
    have hempty : rest = [] ∧ base.suffix = [] :=
      ⟨List.eq_nil_of_length_eq_zero (by omega), List.eq_nil_of_length_eq_zero (by omega)⟩
    rw [hcons, hempty.1, hempty.2] at happend
    rw [← happend] at hidle
    cases hidle

/-- **A labelled path** of a path with a file name stands beside it. -/
theorem parent?_labelled {name : Name} (hname : base.fileName? = some name)
    (hseparator : separator ≠ '/') (hlabel : '/' ∉ label) :
    (base.labelled separator label).parent? = base.parent? := by
  have hparent : base.parent? = some base.labelledParent := by
    unfold labelledParent
    rw [hname]
    cases hparent : base.parent? with
    | some q => rfl
    | none =>
      -- only the root and the empty path have no parent, and they have no file name
      unfold parent? at hparent
      unfold fileName? at hname
      split at hparent <;> simp_all
  rw [labelled_eq, parent?_join (isPart_labelledName hseparator hlabel) (labelledName_ne_dot hname),
    trimmed_of_parent? hparent, hparent]

/-! ## Directories of paths -/

/-- The path has a file name and the text of a directory in front of it. -/
def HasDirectory (base : Path) : Prop :=
  base.fileName? ≠ none ∧ ∃ parent, base.parent? = some parent ∧ parent.chars ≠ []

/-- The path is a file name and nothing else. -/
def IsBare (base : Path) : Prop := base.fileName? ≠ none ∧ base.parent? = some ⟨[]⟩

theorem HasDirectory.directory_eq (h : base.HasDirectory) : base.directory = base.labelledParent := by
  obtain ⟨hname, parent, hparent, hne⟩ := h
  obtain ⟨name, hname⟩ := Option.ne_none_iff_exists'.mp hname
  unfold directory labelledParent
  rw [hparent, hname]
  exact if_neg hne

theorem IsBare.directory_eq (h : base.IsBare) :
    base.directory = ⟨['.']⟩ ∧ base.labelledParent = ⟨[]⟩ := by
  obtain ⟨hname, hparent⟩ := h
  obtain ⟨name, hname⟩ := Option.ne_none_iff_exists'.mp hname
  unfold directory labelledParent
  rw [hparent, hname]
  exact ⟨rfl, rfl⟩

theorem directory_ne_nil (base : Path) : base.directory.chars ≠ [] := by
  unfold directory
  split
  · split_ifs with hnil
    · exact List.cons_ne_nil _ _
    · exact hnil
  · exact List.cons_ne_nil _ _

theorem sameAs_self (p : Path) : p.sameAs p = true := beq_self_eq_true p.components

theorem sameAs_current_join {a b : Name} (ha : a.IsEntry) (hb : b.IsEntry) :
    ((Path.mk ['.']).join ⟨a⟩).sameAs ((Path.mk []).join ⟨b⟩) = false := by
  have hcurrent : (Path.mk ['.']).components = [.current] := rfl
  have hempty : (Path.mk []).components = [] := rfl
  unfold sameAs
  rw [beq_eq_false_iff_ne, components_join ha, components_join hb, hcurrent, hempty]
  simp

end Path

end LogRouter
