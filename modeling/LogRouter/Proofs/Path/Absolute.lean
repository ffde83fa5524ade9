import LogRouter.Proofs.Path.Parts

/-!
# Paths seen from the root

* `Path.said_eq`: what a path says behind its start are its steps.
* `Path.Address`: what is left of a path seen from the root: its names, `..` among them, whether two
  slashes stand in front of them and whether one stands behind them.
* **`absolute_eq`**: the path seen from the root is the text of its address.
* **`Address.chars_injective`**: different addresses have different texts.
-/

namespace LogRouter.Path

/-! ## Steps and components -/

theorem isPart_of_mem_steps {p : Path} : ∀ part ∈ p.steps, Name.IsPart part := by
  intro part hpart
  obtain ⟨hmem, hidle⟩ := List.mem_filter.mp hpart
  refine ⟨?_, no_slash_of_mem_split part hmem⟩
  rintro rfl
  simp [isIdle] at hidle

theorem ofComponent_componentOf (part : Name) : ofComponent (componentOf part) = ⟨part⟩ := by
  unfold componentOf
  split_ifs with h
  · rw [h]; rfl
  · rfl

theorem componentOf_ne_current (part : Name) : componentOf part ≠ .current := by
  unfold componentOf
  split_ifs <;> simp

theorem split_chars_of_current {s : List Char} (h : (start s).1 = .current) :
    ∃ more, split s = ['.'] :: more ∧ split (start s).2 = [] :: more := by
  unfold start at h ⊢
  split at h
  · cases h
  · exact ⟨[], rfl, rfl⟩
  · exact ⟨_, split_append_slash ['.'] _, split_slash _⟩
  · cases h

/-- **What a path says behind its start are its steps.** A start at the current directory by name
says nothing. -/
theorem said_eq (p : Path) : p.components.filter (· ≠ .current) =
    (if p.isAbsolute then [.root] else []) ++ p.steps.map componentOf := by
  have hkeep : ∀ parts : List Name, (parts.map componentOf).filter (· ≠ .current) =
      parts.map componentOf := fun parts => by
    refine List.filter_eq_self.mpr fun c hc => ?_
    obtain ⟨part, _, rfl⟩ := List.mem_map.mp hc
    simpa using componentOf_ne_current part
  unfold components
  rw [List.filter_append, hkeep]
  unfold steps
  rcases hstart : start p.chars with ⟨st, rest⟩
  have hchars := start_chars p.chars
  rw [hstart] at hchars
  cases st with
  | root =>
    have hsplit : split p.chars = [] :: split rest := by rw [← hchars]; exact split_slash rest
    have habs : p.isAbsolute = true := by
      unfold isAbsolute
      rw [← hchars]
      rfl
    rw [hsplit, habs]
    rfl
  | current =>
    have habs : p.isAbsolute = false := isAbsolute_of_start (by simp [hstart])
    obtain ⟨more, hsplit, hmore⟩ := split_chars_of_current (s := p.chars) (by rw [hstart])
    rw [hstart] at hmore
    rw [hsplit, hmore, habs]
    rfl
  | plain =>
    have habs : p.isAbsolute = false := isAbsolute_of_start (by simp [hstart])
    have hsame : p.chars = rest := hchars.symm
    rw [habs, hsame]
    rfl

theorem isAbsolute_of_hasDoubleSlash {p : Path} (h : hasDoubleSlash p.chars = true) :
    p.isAbsolute = true := by
  unfold hasDoubleSlash at h
  unfold isAbsolute
  split at h
  · cases h
  · rename_i hchars
    rw [hchars]
    rfl
  · cases h

/-! ## Parts behind a path -/

/-- A path with further parts behind it, one after the other. -/
def extend (p : Path) (parts : List Name) : Path := parts.foldl (fun q part => q.join ⟨part⟩) p

theorem foldl_join_components (p : Path) (parts : List Name) :
    (parts.map componentOf).foldl (fun q c => q.join (ofComponent c)) p = p.extend parts := by
  rw [List.foldl_map]
  simp only [ofComponent_componentOf]
  rfl

theorem isAbsolute_of_isPart {name : Name} (h : name.IsPart) :
    (Path.mk name).isAbsolute = false := by
  unfold isAbsolute
  cases name with
  | nil => rfl
  | cons c rest =>
    have hc : c ≠ '/' := fun hc => h.no_slash (hc ▸ List.mem_cons_self)
    simp [hc]

theorem exists_getLast?_unsplit {names : List Name} (hnames : ∀ name ∈ names, Name.IsPart name)
    (hne : names ≠ []) : ∃ c, (unsplit names).getLast? = some c ∧ c ≠ '/' := by
  have hlast := hnames _ (List.getLast_mem hne)
  have hsplit := List.dropLast_concat_getLast hne
  set last := names.getLast hne
  refine ⟨last.getLast hlast.ne_nil, ?_, fun h => hlast.no_slash (h ▸ List.getLast_mem _)⟩
  rw [← List.getLast?_eq_some_getLast, ← hsplit]
  by_cases hinit : names.dropLast = []
  · rw [hinit]; rfl
  · rw [unsplit_concat last hinit, List.getLast?_append, List.getLast?_cons]
    cases h : last.getLast? with
    | none => exact absurd (List.getLast?_eq_none_iff.mp h) hlast.ne_nil
    | some c => rfl

theorem exists_cons_unsplit {names : List Name} (hnames : ∀ name ∈ names, Name.IsPart name)
    (hne : names ≠ []) : ∃ c rest, unsplit names = c :: rest ∧ c ≠ '/' := by
  obtain ⟨name, names, rfl⟩ := List.exists_cons_of_ne_nil hne
  have hname := hnames name List.mem_cons_self
  obtain ⟨c, rest, hc⟩ := List.exists_cons_of_ne_nil hname.ne_nil
  have hslash : c ≠ '/' := fun h => hname.no_slash (by rw [hc, h]; exact List.mem_cons_self)
  by_cases hnames : names = []
  · exact ⟨c, rest, by rw [hnames, hc]; rfl, hslash⟩
  · exact ⟨c, _, by rw [unsplit_cons name hnames, hc, List.cons_append], hslash⟩

theorem extend_unsplit {lead : List Char} (hlead : lead.getLast? = some '/') {names : List Name} :
    ∀ {parts : List Name}, (∀ part ∈ names ++ parts, Name.IsPart part) →
      (Path.mk (lead ++ unsplit names)).extend parts = ⟨lead ++ unsplit (names ++ parts)⟩ := by
  intro parts
  induction parts generalizing names with
  | nil => intro _; rw [List.append_nil]; rfl
  | cons part parts ih =>
    intro h
    have hpart : Name.IsPart part := h part (by simp)
    have hjoin : (Path.mk (lead ++ unsplit names)).join ⟨part⟩ =
        ⟨lead ++ unsplit (names ++ [part])⟩ := by
      unfold join
      rw [isAbsolute_of_isPart hpart, if_neg Bool.false_ne_true]
      by_cases hnames : names = []
      · rw [if_pos (Or.inr (by simp [hnames, unsplit, hlead])), hnames]
        simp [unsplit]
      · have hlast : (lead ++ unsplit names).getLast? ≠ some '/' := by
          obtain ⟨c, hc, hslash⟩ :=
            exists_getLast?_unsplit (fun n hn => h n (List.mem_append_left _ hn)) hnames
          rw [List.getLast?_append, hc]
          simpa using hslash
        have hne : lead ++ unsplit names ≠ [] := by
          intro hnil
          rw [(List.append_eq_nil_iff.mp hnil).1] at hlead
          cases hlead
        rw [if_neg (not_or.mpr ⟨hne, hlast⟩), unsplit_concat part hnames, List.append_assoc]
    change (((Path.mk (lead ++ unsplit names)).join ⟨part⟩).extend parts) = _
    rw [hjoin, ih (by simpa using h)]
    simp

/-! ## Addresses -/

/-- What is left of a path seen from the root. -/
structure Address where
  /-- Two slashes stand in front of the names, not one. -/
  double : Bool
  /-- The names, `..` among them. -/
  names : List Name
  /-- A slash stands behind the names. -/
  slash : Bool
  deriving DecidableEq, Repr

/-- The text in front of the names of an address. -/
def Address.lead (a : Address) : List Char := if a.double then ['/', '/'] else ['/']

theorem Address.getLast?_lead (a : Address) : a.lead.getLast? = some '/' := by
  unfold lead
  split_ifs <;> rfl

/-- The text of an address. -/
def Address.chars (a : Address) : List Char :=
  a.lead ++ unsplit a.names ++ if a.slash then ['/'] else []

/-- The address of a path, where `cwd` is the place of the current directory. -/
def address (cwd : List Name) (p : Path) : Address :=
  let names := (if p.isAbsolute then [] else cwd.reverse) ++ p.steps
  ⟨hasDoubleSlash p.chars, names, p.chars.getLast? == some '/' && !names.isEmpty⟩

section Addresses

variable {cwd : List Name} {p : Path}

theorem isPart_of_mem_address (hcwd : ∀ name ∈ cwd, Name.IsPart name) :
    ∀ name ∈ (p.address cwd).names, Name.IsPart name := by
  intro name hname
  rcases List.mem_append.mp hname with h | h
  · split_ifs at h
    · cases h
    · exact hcwd name (List.mem_reverse.mp h)
  · exact isPart_of_mem_steps name h

theorem join_nil (lead : List Char) (hlead : lead.getLast? = some '/') {names : List Name}
    (hnames : ∀ name ∈ names, Name.IsPart name) (slash : Bool) :
    (if slash = true then (Path.mk (lead ++ unsplit names)).join ⟨[]⟩
      else ⟨lead ++ unsplit names⟩) =
      Path.mk (lead ++ unsplit names ++ if slash && !names.isEmpty then ['/'] else []) := by
  have hnil : (Path.mk []).isAbsolute = false := rfl
  cases slash with
  | false => simp
  | true =>
    unfold join
    rw [if_pos rfl, hnil, if_neg Bool.false_ne_true]
    by_cases hne : names = []
    · rw [if_pos (Or.inr (by simp [hne, unsplit, hlead])), hne]
      rfl
    · obtain ⟨c, hc, hslash⟩ := exists_getLast?_unsplit hnames hne
      have hlast : (lead ++ unsplit names).getLast? = some c := by
        rw [List.getLast?_append, hc]
        rfl
      rw [if_neg (not_or.mpr ⟨?_, by simpa [hlast] using hslash⟩)]
      · simp [hne]
      · intro hempty
        change lead ++ unsplit names = [] at hempty
        rw [hempty] at hlast
        cases hlast

/-- A path seen from the root, without the slash at its end. -/
def whole (p cwd : Path) : Path :=
  let said := p.components.filter (· ≠ .current)
  if hasDoubleSlash p.chars then
    (said.drop 1).foldl (fun q c => q.join (ofComponent c)) ⟨['/', '/']⟩
  else if p.isAbsolute then said.foldl (fun q c => q.join (ofComponent c)) ⟨[]⟩
  else said.foldl (fun q c => q.join (ofComponent c)) cwd

theorem absolute_of_ne_nil (hp : p.chars ≠ []) (q : Path) : p.absolute (.ok q) =
    .ok (if p.chars.getLast? = some '/' then (p.whole q).join ⟨[]⟩ else p.whole q) := by
  unfold absolute origin whole
  rw [if_neg hp]
  split_ifs <;> rfl

theorem absolute_of_error {e : IoError} {r : Path} (h : p.absolute (.error e) = .ok r)
    (cwd : Except IoError Path) : p.absolute cwd = .ok r := by
  unfold absolute origin at h ⊢
  split_ifs at h ⊢ <;> exact h

theorem ne_nil_of_join {q : Path} (hq : q.chars ≠ []) (r : Path) : (q.join r).chars ≠ [] := by
  unfold join
  split_ifs with habs
  · intro hnil
    simp [isAbsolute, hnil] at habs
  · simp [hq]
  · simp

theorem ne_nil_of_foldl_join {q : Path} (hq : q.chars ≠ []) (said : List Component) :
    (said.foldl (fun q c => q.join (ofComponent c)) q).chars ≠ [] := by
  induction said generalizing q with
  | nil => exact hq
  | cons c said ih => exact ih (ne_nil_of_join hq _)

theorem whole_ne_nil {q : Path} (hq : q.chars ≠ []) : (p.whole q).chars ≠ [] := by
  unfold whole
  simp only
  split_ifs with hdouble habs
  · exact ne_nil_of_foldl_join (by simp) _
  · have hroot : (Path.mk []).join (ofComponent .root) = ⟨['/']⟩ := rfl
    rw [said_eq, if_pos habs, List.singleton_append, List.foldl_cons, hroot]
    exact ne_nil_of_foldl_join (by simp) _
  · exact ne_nil_of_foldl_join hq _

theorem absolute_ne_nil {cwd : Except IoError Path} (hcwd : ∀ q, cwd = .ok q → q.chars ≠ [])
    {r : Path} (h : p.absolute cwd = .ok r) : r.chars ≠ [] := by
  have hp : p.chars ≠ [] := by
    rintro hnil
    rw [absolute, if_pos hnil] at h
    cases h
  obtain ⟨q, hq, hr⟩ : ∃ q : Path, q.chars ≠ [] ∧ p.absolute (.ok q) = .ok r := by
    cases cwd with
    | error e => exact ⟨⟨['/']⟩, by simp, absolute_of_error h _⟩
    | ok q => exact ⟨q, hcwd q rfl, h⟩
  rw [absolute_of_ne_nil hp] at hr
  obtain rfl := Except.ok.inj hr
  split_ifs
  · exact ne_nil_of_join (whole_ne_nil hq) _
  · exact whole_ne_nil hq

theorem whole_eq (hcwd : ∀ name ∈ cwd, Name.IsPart name) :
    p.whole ⟨'/' :: unsplit cwd.reverse⟩ =
      ⟨(p.address cwd).lead ++ unsplit (p.address cwd).names⟩ := by
  rw [address, ← extend_unsplit (Address.getLast?_lead _) (isPart_of_mem_address hcwd),
    ← foldl_join_components]
  unfold whole Address.lead
  rw [said_eq]
  by_cases hdouble : hasDoubleSlash p.chars = true
  · simp [hdouble, isAbsolute_of_hasDoubleSlash hdouble, unsplit]
  · by_cases habs : p.isAbsolute = true
    · have hroot : (Path.mk []).join (ofComponent .root) = ⟨['/']⟩ := rfl
      simp [hdouble, habs, unsplit, hroot]
    · simp [hdouble, habs]

/-- **A path seen from the root** is the text of its address. -/
theorem absolute_eq (hcwd : ∀ name ∈ cwd, Name.IsPart name) (hp : p.chars ≠ []) :
    p.absolute (.ok ⟨'/' :: unsplit cwd.reverse⟩) = .ok ⟨(p.address cwd).chars⟩ := by
  have hslash := join_nil (p.address cwd).lead (p.address cwd).getLast?_lead
    (isPart_of_mem_address (p := p) hcwd) (p.chars.getLast? == some '/')
  rw [absolute_of_ne_nil hp, whole_eq hcwd]
  simp only [beq_iff_eq] at hslash
  rw [hslash]
  rfl

/-- What an address has to be like to be told by its text. -/
structure Address.Proper (a : Address) : Prop where
  isPart : ∀ name ∈ a.names, Name.IsPart name
  names_ne_nil : a.slash = true → a.names ≠ []

theorem proper_address (hcwd : ∀ name ∈ cwd, Name.IsPart name) : (p.address cwd).Proper where
  isPart := isPart_of_mem_address hcwd
  names_ne_nil h := by
    unfold address at h ⊢
    rw [Bool.and_eq_true, Bool.not_eq_true', List.isEmpty_eq_false_iff] at h
    exact h.2

namespace Address

theorem parts_chars {a : Address} (ha : a.Proper) : (Path.mk a.chars).parts = a.names := by
  have hnames : (split (unsplit a.names)).filter (· ≠ []) = a.names := by
    by_cases hne : a.names = []
    · rw [hne]; rfl
    · rw [split_unsplit hne fun name hname => (ha.isPart name hname).no_slash]
      exact List.filter_eq_self.mpr fun name hname => by simpa using (ha.isPart name hname).ne_nil
  have htail : (split (unsplit a.names ++ if a.slash then ['/'] else [])).filter (· ≠ []) =
      a.names := by
    split_ifs
    · rw [split_append_slash, List.filter_append, hnames]
      exact List.append_nil _
    · rw [List.append_nil, hnames]
  change (split (a.lead ++ unsplit a.names ++ _)).filter _ = _
  rw [List.append_assoc]
  unfold lead
  generalize (unsplit a.names ++ if a.slash then ['/'] else []) = rest at htail ⊢
  cases a.double with
  | true =>
    change (split ('/' :: '/' :: rest)).filter _ = _
    rw [split_slash, split_slash]
    simpa using htail
  | false =>
    change (split ('/' :: rest)).filter _ = _
    rw [split_slash]
    simpa using htail

/-- **Different addresses have different texts.** -/
theorem chars_injective {a b : Address} (ha : a.Proper) (hb : b.Proper) (h : a.chars = b.chars) :
    a = b := by
  have hnames : a.names = b.names := by
    rw [← parts_chars ha, ← parts_chars hb, h]
  have hdouble : a.double = b.double := by
    -- behind the slashes there is a character of the first name, or nothing
    unfold chars lead at h
    rw [hnames] at h
    by_cases hne : b.names = []
    · have hsa : a.slash = false := Bool.eq_false_iff.mpr fun hs => ha.names_ne_nil hs (hnames ▸ hne)
      have hsb : b.slash = false := Bool.eq_false_iff.mpr fun hs => hb.names_ne_nil hs hne
      rw [hne, hsa, hsb] at h
      cases hda : a.double <;> cases hdb : b.double <;> simp_all
    · obtain ⟨c, rest, hc, hslash⟩ := exists_cons_unsplit hb.isPart hne
      have hslash' := Ne.symm hslash
      rw [hc] at h
      cases hda : a.double <;> cases hdb : b.double <;> simp_all
  have hslash : a.slash = b.slash := by
    unfold chars lead at h
    rw [hnames, hdouble, List.append_cancel_left_eq] at h
    cases hsa : a.slash <;> cases hsb : b.slash <;> simp_all
  obtain ⟨double, names, slash⟩ := a
  obtain ⟨double', names', slash'⟩ := b
  simp only [mk.injEq]
  exact ⟨hdouble, hnames, hslash⟩

end Address

end Addresses

/-! ## Where paths lead by their names alone -/

/-- Where a part leads from a place: `..` one step back, and a name to the entry below. -/
def onward (loc : List Name) (part : Name) : List Name :=
  if part = ['.', '.'] then loc.tail else part :: loc

/-- The place that a path names, where `cwd` is the place of the current directory. -/
def destination (cwd : List Name) (p : Path) : List Name :=
  p.steps.foldl onward (if p.isAbsolute then [] else cwd)

theorem foldl_onward_of_no_parent {names : List Name} (h : ['.', '.'] ∉ names) (loc : List Name) :
    names.foldl onward loc = names.reverse ++ loc := by
  induction names generalizing loc with
  | nil => rfl
  | cons name names ih =>
    rw [List.mem_cons, not_or] at h
    rw [List.foldl_cons, onward, if_neg (Ne.symm h.1), ih h.2]
    simp

/-- **The address of a path tells the place that it names.** -/
theorem foldl_onward_address {cwd : List Name} (hcwd : ∀ name ∈ cwd, Name.IsEntry name) (p : Path) :
    (p.address cwd).names.foldl onward [] = p.destination cwd := by
  unfold address destination
  simp only
  rw [List.foldl_append]
  split_ifs
  · rfl
  · rw [foldl_onward_of_no_parent fun h => (hcwd _ (List.mem_reverse.mp h)).ne_parent rfl,
      List.reverse_reverse, List.append_nil]

/-- A path is spelled plainly: there is no `..` in it, it does not begin with exactly two slashes,
and it does not end with one. -/
structure IsPlain (p : Path) : Prop where
  no_parent : ['.', '.'] ∉ p.steps
  single : hasDoubleSlash p.chars = false
  no_slash : p.chars.getLast? ≠ some '/'

/-- **The place that a plain path names tells its address.** -/
theorem address_of_isPlain {cwd : List Name} {p : Path} (h : p.IsPlain) :
    p.address cwd = ⟨false, (p.destination cwd).reverse, false⟩ := by
  unfold address destination
  rw [foldl_onward_of_no_parent h.no_parent, h.single, beq_eq_false_iff_ne.mpr h.no_slash]
  split_ifs <;> simp

end LogRouter.Path
