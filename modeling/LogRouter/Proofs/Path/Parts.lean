import LogRouter.Path.Labelled
import Mathlib.Data.List.DropRight
import Mathlib.Data.List.TakeWhile
import Mathlib.Tactic.Common

/-!
# The parts of a path

* `unsplit_split`, `split_unsplit`: splitting at slashes and joining with them undo each other.
* `Name.IsEntry`: a name that an entry of a directory can have.
* `Path.parts`: the parts of a path between its slashes; `Path.steps`: those that say something.
* **`parts_join`**, **`components_join`**: a name behind a path is one more part and says one more
  thing.
* **`exists_parent?`**: a path that ends with the name of an entry has a parent, which takes all steps
  but the last.
* **`parent?_join`**: names behind one path have one parent.
-/

namespace LogRouter

/-- The name can be that of an entry: it is not empty, says neither `.` nor `..`, and has no slash
and no NUL. -/
structure Name.IsEntry (name : Name) : Prop where
  ne_nil : name ≠ []
  ne_current : name ≠ ['.']
  ne_parent : name ≠ ['.', '.']
  no_slash : '/' ∉ name
  no_nul : '\x00' ∉ name

/-- The name can stand between two slashes. -/
structure Name.IsPart (name : Name) : Prop where
  ne_nil : name ≠ []
  no_slash : '/' ∉ name

theorem Name.IsEntry.isPart {name : Name} (h : name.IsEntry) : name.IsPart := ⟨h.ne_nil, h.no_slash⟩

namespace Path

/-! ## Splitting and joining -/

theorem split_ne_nil (s : List Char) : split s ≠ [] := by
  cases s with
  | nil => exact List.cons_ne_nil _ _
  | cons c rest =>
    unfold split
    split_ifs
    · exact List.cons_ne_nil _ _
    · split <;> exact List.cons_ne_nil _ _

theorem split_slash (s : List Char) : split ('/' :: s) = [] :: split s := by
  rw [split, if_pos rfl]

theorem split_cons {c : Char} (hc : c ≠ '/') {s : List Char} {part : Name} {parts : List Name}
    (hs : split s = part :: parts) : split (c :: s) = (c :: part) :: parts := by
  rw [split, if_neg hc, hs]

theorem exists_split (s : List Char) : ∃ part parts, split s = part :: parts :=
  List.exists_cons_of_ne_nil (split_ne_nil s)

theorem split_append_slash : ∀ a b : List Char, split (a ++ '/' :: b) = split a ++ split b
  | [], b => split_slash b
  | c :: a, b => by
    have ih := split_append_slash a b
    by_cases hc : c = '/'
    · rw [hc, List.cons_append, split_slash, split_slash, ih, List.cons_append]
    · obtain ⟨part, parts, ha⟩ := exists_split a
      rw [ha] at ih
      rw [List.cons_append, split_cons hc ih, split_cons hc ha]
      rfl

theorem split_eq_singleton : ∀ {s : List Char}, '/' ∉ s → split s = [s]
  | [], _ => rfl
  | c :: s, h => by
    rw [List.mem_cons, not_or] at h
    exact split_cons (Ne.symm h.1) (split_eq_singleton h.2)

theorem no_slash_of_mem_split : ∀ {s : List Char}, ∀ part ∈ split s, '/' ∉ part
  | [], part, h => by
    rw [split, List.mem_singleton] at h
    rw [h]
    exact List.not_mem_nil
  | c :: s, part, h => by
    obtain ⟨first, parts, hs⟩ := exists_split s
    by_cases hc : c = '/'
    · rw [hc, split_slash, List.mem_cons] at h
      rcases h with rfl | h
      · exact List.not_mem_nil
      · exact no_slash_of_mem_split part h
    · rw [split_cons hc hs, List.mem_cons] at h
      rcases h with rfl | h
      · rw [List.mem_cons, not_or]
        exact ⟨Ne.symm hc, no_slash_of_mem_split first (hs ▸ List.mem_cons_self)⟩
      · exact no_slash_of_mem_split part (hs ▸ List.mem_cons_of_mem _ h)

theorem mem_of_mem_split : ∀ {s : List Char} {part : Name} {c : Char}, part ∈ split s → c ∈ part →
    c ∈ s
  | [], part, c, h, hc => by
    rw [split, List.mem_singleton] at h
    rwa [h] at hc
  | d :: s, part, c, h, hc => by
    obtain ⟨first, parts, hs⟩ := exists_split s
    by_cases hd : d = '/'
    · rw [hd, split_slash, List.mem_cons] at h
      rcases h with rfl | h
      · exact absurd hc List.not_mem_nil
      · exact List.mem_cons_of_mem _ (mem_of_mem_split h hc)
    · rw [split_cons hd hs, List.mem_cons] at h
      rcases h with rfl | h
      · rcases List.mem_cons.mp hc with rfl | hc
        · exact List.mem_cons_self
        · exact List.mem_cons_of_mem _ (mem_of_mem_split (hs ▸ List.mem_cons_self) hc)
      · exact List.mem_cons_of_mem _ (mem_of_mem_split (hs ▸ List.mem_cons_of_mem _ h) hc)

theorem unsplit_cons (part : Name) {parts : List Name} (h : parts ≠ []) :
    unsplit (part :: parts) = part ++ '/' :: unsplit parts := by
  obtain ⟨next, parts, rfl⟩ := List.exists_cons_of_ne_nil h
  rfl

/-- **Joining undoes splitting.** -/
theorem unsplit_split : ∀ s : List Char, unsplit (split s) = s
  | [] => rfl
  | c :: s => by
    have ih := unsplit_split s
    by_cases hc : c = '/'
    · rw [hc, split_slash, unsplit_cons [] (split_ne_nil s), ih, List.nil_append]
    · obtain ⟨part, parts, hs⟩ := exists_split s
      rw [hs] at ih
      rw [split_cons hc hs]
      cases parts with
      | nil => exact congrArg (c :: ·) ih
      | cons next parts => exact congrArg (c :: ·) ih

/-- **Splitting undoes joining**, if there are parts and no slash is in one of them. -/
theorem split_unsplit : ∀ {parts : List Name}, parts ≠ [] → (∀ part ∈ parts, '/' ∉ part) →
    split (unsplit parts) = parts
  | [], h, _ => absurd rfl h
  | [part], _, h => split_eq_singleton (h part List.mem_cons_self)
  | part :: next :: parts, _, h => by
    have ih := @split_unsplit (next :: parts) (List.cons_ne_nil _ _)
      fun p hp => h p (List.mem_cons_of_mem _ hp)
    rw [unsplit_cons part (List.cons_ne_nil _ _), split_append_slash, ih,
      split_eq_singleton (h part List.mem_cons_self), List.singleton_append]

theorem unsplit_prefix : ∀ (parts tail : List Name), unsplit parts <+: unsplit (parts ++ tail)
  | [], _ => List.nil_prefix
  | [part], tail => by
    rw [List.singleton_append]
    cases tail with
    | nil => exact List.prefix_rfl
    | cons next tail => exact List.prefix_append _ _
  | part :: next :: parts, tail => by
    have ih := unsplit_prefix (next :: parts) tail
    rw [List.cons_append, unsplit_cons part (List.cons_ne_nil _ _),
      unsplit_cons part (by simp), List.prefix_append_right_inj, List.prefix_cons_inj]
    exact ih

/-! ## Parts and steps -/

/-- The parts of a path between its slashes. -/
def parts (p : Path) : List Name := (split p.chars).filter (· ≠ [])

/-- The parts of a path that say something. -/
def steps (p : Path) : List Name := (split p.chars).filter (!isIdle ·)

theorem isIdle_iff {part : Name} : isIdle part = true ↔ part = [] ∨ part = ['.'] := by
  unfold isIdle
  rw [Bool.or_eq_true, beq_iff_eq, beq_iff_eq]

theorem isIdle_of_isPart {name : Name} (h : name.IsPart) (hcurrent : name ≠ ['.']) :
    isIdle name = false := by
  rw [Bool.eq_false_iff, Ne, isIdle_iff, not_or]
  exact ⟨h.ne_nil, hcurrent⟩

theorem isIdle_of_isEntry {name : Name} (h : name.IsEntry) : isIdle name = false :=
  isIdle_of_isPart h.isPart h.ne_current

theorem steps_eq_parts_filter (p : Path) : p.steps = p.parts.filter (· ≠ ['.']) := by
  unfold steps parts
  rw [List.filter_filter]
  refine List.filter_congr fun part _ => ?_
  unfold isIdle
  by_cases h : part = [] <;> by_cases h' : part = ['.'] <;> simp [h, h']

theorem unsplit_concat : ∀ {parts : List Name} (last : Name), parts ≠ [] →
    unsplit (parts ++ [last]) = unsplit parts ++ '/' :: last
  | [], _, h => absurd rfl h
  | [part], last, _ => rfl
  | part :: next :: parts, last, _ => by
    have ih := @unsplit_concat (next :: parts) last (List.cons_ne_nil _ _)
    rw [List.cons_append, unsplit_cons part (by simp), unsplit_cons part (List.cons_ne_nil _ _), ih,
      List.append_assoc, List.cons_append]

theorem split_of_parts {p : Path} {front : List Name} {name : Name}
    (h : p.parts = front ++ [name]) (hlast : p.chars.getLast? ≠ some '/') :
    ∃ start, split p.chars = start ++ [name] ∧
      start.filter (!isIdle ·) = front.filter (· ≠ ['.']) := by
  have hsplit := List.dropLast_concat_getLast (split_ne_nil p.chars)
  set start := (split p.chars).dropLast
  set last := (split p.chars).getLast (split_ne_nil p.chars)
  have hne : last ≠ [] := by
    intro hnil
    have hchars := unsplit_split p.chars
    rw [← hsplit, hnil] at hchars
    by_cases hstart : start = []
    · -- the path is empty, and has no parts
      rw [hstart] at hchars
      unfold parts at h
      rw [← hchars] at h
      simp [split, unsplit] at h
    · rw [unsplit_concat [] hstart] at hchars
      exact hlast (by rw [← hchars]; simp)
  unfold parts at h
  rw [← hsplit, List.filter_append, List.filter_cons_of_pos (by simpa using hne),
    List.filter_nil] at h
  obtain ⟨hfront, hname⟩ := List.append_inj' h rfl
  rw [List.cons.injEq] at hname
  refine ⟨start, by rw [← hname.1, hsplit], ?_⟩
  rw [← hfront, List.filter_filter]
  refine List.filter_congr fun part _ => ?_
  unfold isIdle
  by_cases h₁ : part = [] <;> by_cases h₂ : part = ['.'] <;> simp [h₁, h₂]

/-! ## A name behind a path -/

section Join

variable {p : Path} {name : Name}

theorem join_chars (h : name.IsPart) :
    (p.chars = [] ∧ (p.join ⟨name⟩).chars = name) ∨
      ∃ front, (p.chars = front ++ ['/'] ∨ p.chars = front) ∧ p.chars ≠ [] ∧
        (p.join ⟨name⟩).chars = front ++ '/' :: name := by
  have habs : (Path.mk name).isAbsolute = false := by
    unfold isAbsolute
    cases name with
    | nil => rfl
    | cons c rest =>
      have hc : c ≠ '/' := fun hc => h.no_slash (hc ▸ List.mem_cons_self)
      simp [hc]
  unfold join
  rw [habs, if_neg Bool.false_ne_true]
  by_cases hnil : p.chars = []
  · exact Or.inl ⟨hnil, by rw [if_pos (Or.inl hnil), hnil, List.nil_append]⟩
  · right
    by_cases hlast : p.chars.getLast? = some '/'
    · obtain ⟨front, hfront⟩ := List.getLast?_eq_some_iff.mp hlast
      refine ⟨front, Or.inl hfront, hnil, ?_⟩
      rw [if_pos (Or.inr hlast), hfront, List.append_assoc, List.singleton_append]
    · exact ⟨p.chars, Or.inr rfl, hnil, by rw [if_neg (not_or.mpr ⟨hnil, hlast⟩)]⟩

theorem split_join (h : name.IsPart) :
    (split (p.join ⟨name⟩).chars).filter (· ≠ []) = (split p.chars).filter (· ≠ []) ++ [name] := by
  have hname : split name = [name] := split_eq_singleton h.no_slash
  have hkeep : [name].filter (· ≠ []) = [name] := by simp [h.ne_nil]
  rcases join_chars (p := p) h with ⟨hnil, hjoin⟩ | ⟨front, hfront, _, hjoin⟩
  · rw [hjoin, hname, hnil, hkeep]
    rfl
  · rw [hjoin, split_append_slash, hname, List.filter_append, hkeep]
    rcases hfront with hfront | hfront
    · have hslash : split ['/'] = [[], []] := rfl
      rw [hfront, split_append_slash, List.filter_append]
      simp [split]
    · rw [hfront]

/-- **A name behind a path is one more part.** -/
theorem parts_join (h : name.IsPart) : (p.join ⟨name⟩).parts = p.parts ++ [name] := split_join h

theorem isAbsolute_join (h : name.IsEntry) : (p.join ⟨name⟩).isAbsolute = p.isAbsolute := by
  unfold isAbsolute
  rcases join_chars (p := p) h.isPart with ⟨hnil, hjoin⟩ | ⟨front, hfront, hne, hjoin⟩
  · obtain ⟨c, rest, rfl⟩ := List.exists_cons_of_ne_nil h.ne_nil
    have hc : c ≠ '/' := fun hc => h.no_slash (hc ▸ List.mem_cons_self)
    rw [hjoin, hnil]
    simp [hc]
  · rw [hjoin]
    rcases hfront with hfront | hfront
    · rw [hfront]
      cases front <;> rfl
    · rw [← hfront]
      obtain ⟨c, rest, hp⟩ := List.exists_cons_of_ne_nil hne
      rw [hp]
      rfl

theorem getLast?_join (h : name.IsEntry) : (p.join ⟨name⟩).chars.getLast? ≠ some '/' := by
  have hlast : name.getLast? ≠ some '/' := fun hl => h.no_slash (List.mem_of_getLast? hl)
  rcases join_chars (p := p) h.isPart with ⟨_, hjoin⟩ | ⟨front, _, _, hjoin⟩
  · rwa [hjoin]
  · rw [hjoin, List.getLast?_append, List.getLast?_cons]
    obtain ⟨last, hlast'⟩ : ∃ last, name.getLast? = some last :=
      ⟨name.getLast h.ne_nil, List.getLast?_eq_some_getLast h.ne_nil⟩
    rw [hlast'] at hlast ⊢
    simpa using hlast

theorem join_ne_nil (h : name.IsEntry) : (p.join ⟨name⟩).chars ≠ [] := by
  rcases join_chars (p := p) h.isPart with ⟨_, hjoin⟩ | ⟨front, _, _, hjoin⟩
  · rw [hjoin]
    exact h.ne_nil
  · rw [hjoin]
    simp

theorem nul_mem_join (h : name.IsEntry) : '\x00' ∈ (p.join ⟨name⟩).chars ↔ '\x00' ∈ p.chars := by
  have := h.no_nul
  rcases join_chars (p := p) h.isPart with ⟨hnil, hjoin⟩ | ⟨front, hfront, _, hjoin⟩
  · rw [hjoin, hnil]
    simpa using this
  · rw [hjoin]
    rcases hfront with hfront | hfront <;> rw [hfront] <;> simp [this]

theorem chars_prefix_join (h : name.IsEntry) : p.chars <+: (p.join ⟨name⟩).chars := by
  rcases join_chars (p := p) h.isPart with ⟨hnil, _⟩ | ⟨front, hfront, _, hjoin⟩
  · rw [hnil]
    exact List.nil_prefix
  · rw [hjoin]
    rcases hfront with hfront | hfront
    · rw [hfront]
      exact ⟨name, by simp⟩
    · rw [hfront]
      exact List.prefix_append _ _

theorem join_append (h : name.IsEntry) (tail : List Char) (ht : (name ++ tail).IsEntry) :
    p.join ⟨name ++ tail⟩ = ⟨(p.join ⟨name⟩).chars ++ tail⟩ := by
  have hname : (Path.mk name).isAbsolute = (Path.mk (name ++ tail)).isAbsolute := by
    obtain ⟨c, rest, rfl⟩ := List.exists_cons_of_ne_nil h.ne_nil
    rfl
  unfold join
  rw [← hname]
  split_ifs <;> simp

theorem join_injective {name' : Name} (h : name.IsEntry) (h' : name'.IsEntry)
    (heq : p.join ⟨name⟩ = p.join ⟨name'⟩) : name = name' := by
  have := congrArg parts heq
  rw [parts_join h.isPart, parts_join h'.isPart, List.append_cancel_left_eq, List.cons.injEq] at this
  exact this.1

end Join

/-! ## What a path says -/

theorem start_plain {s : List Char} (hroot : ∀ rest, s ≠ '/' :: rest) (hdot : s ≠ ['.'])
    (hcurrent : ∀ rest, s ≠ '.' :: '/' :: rest) : start s = (.plain, s) := by
  unfold start
  split
  · exact absurd rfl (hroot _)
  · exact absurd rfl hdot
  · exact absurd rfl (hcurrent _)
  · rfl

theorem start_of_isPart {name : Name} (h : name.IsPart) (hcurrent : name ≠ ['.']) :
    start name = (.plain, name) :=
  start_plain (fun _ he => h.no_slash (he ▸ List.mem_cons_self)) hcurrent
    fun _ he => h.no_slash (he ▸ List.mem_cons_of_mem _ List.mem_cons_self)

theorem start_chars (s : List Char) : (start s).1.chars ++ (start s).2 = s := by
  unfold start
  split <;> rfl

theorem start_append_slash {s : List Char} (hs : s ≠ []) (t : List Char) :
    start (s ++ '/' :: t) = ((start s).1, (start s).2 ++ '/' :: t) := by
  match s, hs with
  | '/' :: rest, _ => rfl
  | ['.'], _ => rfl
  | '.' :: '/' :: rest, _ => rfl
  | [c], _ =>
    by_cases hc : c = '/'
    · rw [hc]; rfl
    · by_cases hd : c = '.'
      · rw [hd]; rfl
      · rw [start_plain (s := [c]) (by simp [hc]) (by simp [hd]) (by simp),
          start_plain (by simp [hc]) (by simp) (by simp [hd])]
  | c :: d :: rest, _ =>
    by_cases hc : c = '/'
    · rw [hc]; rfl
    · by_cases hd : c = '.' ∧ d = '/'
      · rw [hd.1, hd.2]; rfl
      · have hd' : c = '.' → d ≠ '/' := fun h h' => hd ⟨h, h'⟩
        rw [start_plain (s := c :: d :: rest) (by simp [hc]) (by simp) (by simpa using hd'),
          start_plain (by simp [hc]) (by simp) (by simpa using hd')]

theorem said_of_isEntry {name : Name} (h : name.IsEntry) :
    ([name].filter (!isIdle ·)).map componentOf = [.entry name] := by
  rw [List.filter_cons_of_pos (by rw [isIdle_of_isEntry h]; rfl)]
  exact congrArg ([·]) (if_neg h.ne_parent)

/-- **A name behind a path says one more thing.** -/
theorem components_join {p : Path} {name : Name} (h : name.IsEntry) :
    (p.join ⟨name⟩).components = p.components ++ [.entry name] := by
  have hsplit : split name = [name] := split_eq_singleton h.no_slash
  have hsaid := said_of_isEntry h
  unfold components
  rcases join_chars (p := p) h.isPart with ⟨hnil, hjoin⟩ | ⟨front, hfront, _, hjoin⟩
  · rw [hjoin, hnil, start_of_isPart h.isPart h.ne_current, hsplit, hsaid]
    rfl
  · by_cases hf : front = []
    · have hp : p.chars = ['/'] := by
        rcases hfront with hfront | hfront
        · rw [hfront, hf]; rfl
        · rw [hf] at hfront; contradiction
      have hroot : start ('/' :: name) = (.root, name) := rfl
      rw [hjoin, hp, hf, List.nil_append, hroot, hsplit, hsaid]
      rfl
    · rw [hjoin, start_append_slash hf, split_append_slash, hsplit, List.filter_append,
        List.map_append, hsaid, ← List.append_assoc]
      rcases hfront with hfront | hfront
      · have hidle : (split []).filter (!isIdle ·) = [] := rfl
        rw [hfront, start_append_slash hf, split_append_slash, List.filter_append, hidle,
          List.append_nil]
      · rw [hfront]

theorem sameAs_join_iff {p : Path} {name name' : Name} (h : name.IsEntry) (h' : name'.IsEntry) :
    (p.join ⟨name⟩).sameAs (p.join ⟨name'⟩) = true ↔ name = name' := by
  unfold sameAs
  rw [beq_iff_eq, components_join h, components_join h']
  simp

/-! ## The parent of a path -/

theorem exists_trimIdle_append (parts : List Name) :
    ∃ tail, parts = trimIdle parts ++ tail ∧ tail.filter (!isIdle ·) = [] := by
  refine ⟨(parts.reverse.takeWhile isIdle).reverse, ?_, ?_⟩
  · unfold trimIdle
    rw [← List.reverse_append, List.takeWhile_append_dropWhile, List.reverse_reverse]
  · refine List.filter_eq_nil_iff.mpr fun part hpart => ?_
    have := List.mem_takeWhile_imp (List.mem_reverse.mp hpart)
    simp [this]

theorem trimIdle_concat {name : Name} (h : isIdle name = false) (parts : List Name) :
    trimIdle (parts ++ [name]) = parts ++ [name] := by
  unfold trimIdle
  rw [List.reverse_append, List.reverse_singleton, List.singleton_append,
    List.dropWhile_cons_of_neg (by simp [h]), List.reverse_cons, List.reverse_reverse]

theorem trimIdle_idempotent (parts : List Name) : trimIdle (trimIdle parts) = trimIdle parts := by
  unfold trimIdle
  rw [List.reverse_reverse, List.dropWhile_idempotent]

theorem split_unsplit_filter {parts : List Name} (h : ∀ part ∈ parts, '/' ∉ part) :
    (split (unsplit parts)).filter (!isIdle ·) = parts.filter (!isIdle ·) := by
  by_cases hnil : parts = []
  · rw [hnil]; rfl
  · rw [split_unsplit hnil h]

theorem split_start {s : List Char} {front : List Name} {name : Name} (hcurrent : name ≠ ['.'])
    (hs : split s = front ++ [name]) :
    ∃ front', split (start s).2 = front' ++ [name] ∧
      front'.filter (!isIdle ·) = front.filter (!isIdle ·) ∧
      ((start s).1 = .current → ∃ more, front' = [] :: more) := by
  unfold start
  split
  · rename_i rest
    rw [split_slash] at hs
    cases front with
    | nil => exact absurd (List.cons.inj hs).2 (split_ne_nil rest)
    | cons first front =>
      obtain ⟨hfirst, hrest⟩ := List.cons.inj hs
      exact ⟨front, hrest, by rw [← hfirst]; rfl, fun hc => by cases hc⟩
  · cases front with
    | nil => exact absurd (List.cons.inj hs).1.symm hcurrent
    | cons first front => simp [split] at hs
  · rename_i rest
    have hsplit : split ('.' :: '/' :: rest) = ['.'] :: split rest :=
      split_append_slash ['.'] rest
    rw [hsplit] at hs
    cases front with
    | nil => exact absurd (List.cons.inj hs).2 (split_ne_nil rest)
    | cons first front =>
      obtain ⟨hfirst, hrest⟩ := List.cons.inj hs
      refine ⟨[] :: front, by rw [split_slash, hrest]; rfl, ?_, fun _ => ⟨front, rfl⟩⟩
      rw [← hfirst]
      rfl
  · exact ⟨front, hs, rfl, fun hc => by cases hc⟩

theorem exists_components {p : Path} {front : List Name} {name : Name} (h : name.IsEntry)
    (hs : split p.chars = front ++ [name]) : ∃ said, p.components = said ++ [.entry name] := by
  obtain ⟨front', hsplit, _, _⟩ := split_start h.ne_current hs
  refine ⟨(start p.chars).1.components ++ (front'.filter (!isIdle ·)).map componentOf, ?_⟩
  rw [components, hsplit, List.filter_append, List.map_append, said_of_isEntry h, List.append_assoc]

theorem sameAs_join_of_ne {p q : Path} {front : List Name} {name name' : Name} (h : name.IsEntry)
    (hs : split p.chars = front ++ [name]) (h' : name'.IsEntry) (hne : name' ≠ name) :
    (q.join ⟨name'⟩).sameAs p = false := by
  obtain ⟨said, hsaid⟩ := exists_components h hs
  unfold sameAs
  rw [beq_eq_false_iff_ne, components_join h', hsaid]
  intro heq
  have := (List.append_inj' heq rfl).2
  simp only [List.cons.injEq, Component.entry.injEq, and_true] at this
  exact hne this

theorem steps_of_start {st : Start} {parts : List Name} (h : ∀ part ∈ parts, '/' ∉ part)
    (hcurrent : st = .current → parts = [] ∨ ∃ more, parts = [] :: more) :
    (Path.mk (st.chars ++ unsplit parts)).steps = parts.filter (!isIdle ·) := by
  unfold steps
  cases st with
  | root =>
    change (split ('/' :: unsplit parts)).filter _ = _
    rw [split_slash]
    exact split_unsplit_filter h
  | current =>
    rcases hcurrent rfl with rfl | ⟨more, rfl⟩
    · rfl
    · by_cases hmore : more = []
      · rw [hmore]; rfl
      · change (split ('.' :: unsplit ([] :: more))).filter _ = _
        rw [unsplit_cons [] hmore, List.nil_append]
        have hsplit : split ('.' :: '/' :: unsplit more) = ['.'] :: split (unsplit more) :=
          split_append_slash ['.'] _
        rw [hsplit]
        exact split_unsplit_filter fun part hp => h part (List.mem_cons_of_mem _ hp)
  | plain => exact split_unsplit_filter h

theorem isAbsolute_of_start {p : Path} (h : (start p.chars).1 ≠ .root) : p.isAbsolute = false := by
  unfold isAbsolute
  by_contra habs
  rw [Bool.not_eq_false, beq_iff_eq] at habs
  obtain ⟨rest, hrest⟩ : ∃ rest, p.chars = '/' :: rest := by
    cases hp : p.chars with
    | nil => rw [hp] at habs; cases habs
    | cons c rest =>
      rw [hp, List.head?_cons, Option.some.injEq] at habs
      exact ⟨rest, by rw [habs]⟩
  rw [hrest] at h
  exact h rfl

theorem isAbsolute_of_front {p q : Path} (h : q.chars <+: p.chars)
    (hnil : q.chars = [] → p.isAbsolute = false) : q.isAbsolute = p.isAbsolute := by
  obtain ⟨tail, htail⟩ := h
  cases hq : q.chars with
  | nil => rw [hnil hq, isAbsolute, hq]; rfl
  | cons c rest =>
    unfold isAbsolute
    rw [← htail, hq]
    rfl

theorem ne_root_of_chars_eq_nil {st : Start} {s : List Char} (h : st.chars ++ s = []) :
    st ≠ .root := by
  rintro rfl
  cases h

/-- **The parent of a path that ends with a name** takes all its steps but the last. Its text is the
start of the text of the path. -/
theorem exists_parent? {p : Path} {front : List Name} {name : Name} (h : name.IsEntry)
    (hs : split p.chars = front ++ [name]) :
    p.fileName? = some name ∧ ∃ q, p.parent? = some q ∧ q.isAbsolute = p.isAbsolute ∧
      q.steps = front.filter (!isIdle ·) ∧ q.chars <+: p.chars := by
  obtain ⟨front', hsplit, hfilter, hcurrent⟩ := split_start h.ne_current hs
  have hbody : p.body = front' ++ [name] := by
    unfold body
    rw [hsplit, trimIdle_concat (isIdle_of_isEntry h)]
  obtain ⟨tail, htrim, htail⟩ := exists_trimIdle_append front'
  have hparent : p.parent? = some ⟨(start p.chars).1.chars ++ unsplit (trimIdle front')⟩ := by
    have hlast : (front' ++ [name]).dropLast = front' := List.dropLast_concat
    unfold parent?
    rw [hbody]
    split
    · simp at *
    · rw [hlast]
  have hprefix : (start p.chars).1.chars ++ unsplit (trimIdle front') <+: p.chars := by
    conv_rhs => rw [← start_chars p.chars, ← unsplit_split (start p.chars).2, hsplit]
    rw [List.prefix_append_right_inj]
    conv_rhs => rw [htrim, List.append_assoc]
    exact unsplit_prefix _ _
  have hslash : ∀ part ∈ trimIdle front', '/' ∉ part := fun part hpart =>
    no_slash_of_mem_split (s := (start p.chars).2) part
      (by rw [hsplit, htrim]; simp [hpart])
  refine ⟨?_, _, hparent, ?_, ?_, hprefix⟩
  · unfold fileName?
    rw [hbody, List.getLast?_concat]
    exact if_neg h.ne_parent
  · exact isAbsolute_of_front hprefix fun hnil => isAbsolute_of_start (ne_root_of_chars_eq_nil hnil)
  · rw [steps_of_start hslash, ← hfilter]
    · conv_rhs => rw [htrim, List.filter_append, htail, List.append_nil]
    · intro hst
      obtain ⟨more, hmore⟩ := hcurrent hst
      cases htrimmed : trimIdle front' with
      | nil => exact Or.inl rfl
      | cons first rest =>
        rw [htrimmed, hmore] at htrim
        exact Or.inr ⟨rest, by rw [(List.cons.inj htrim).1]⟩

theorem split_of_current {s : List Char} (h : (start s).1 = .current) :
    ∃ more, split (start s).2 = [] :: more := by
  unfold start at h ⊢
  split at h
  · cases h
  · exact ⟨[], rfl⟩
  · exact ⟨_, split_slash _⟩
  · cases h

theorem exists_split_front (p : Path) :
    ∃ tail, split (start p.chars).2 = trimIdle p.body.dropLast ++ tail := by
  obtain ⟨tail, htrim, _⟩ := exists_trimIdle_append p.body.dropLast
  obtain ⟨tail', htrim', _⟩ := exists_trimIdle_append (split (start p.chars).2)
  obtain ⟨tail'', hlast⟩ := List.dropLast_prefix p.body
  refine ⟨tail ++ (tail'' ++ tail'), ?_⟩
  rw [htrim', ← List.append_assoc, ← htrim, ← List.append_assoc, hlast]
  rfl

/-- **The parent of a path** starts where the path starts, and takes no more steps. -/
theorem parent?_le {p q : Path} (h : p.parent? = some q) :
    q.isAbsolute = p.isAbsolute ∧ q.steps.length ≤ p.steps.length := by
  unfold parent? at h
  split at h
  · split_ifs at h with hcurrent
    obtain rfl := Option.some.inj h
    exact ⟨(isAbsolute_of_start (by simp [hcurrent])).symm, Nat.zero_le _⟩
  · obtain rfl := Option.some.inj h
    obtain ⟨tail, hsplit⟩ := exists_split_front p
    generalize trimIdle p.body.dropLast = front at hsplit ⊢
    have hslash : ∀ part ∈ front ++ tail, '/' ∉ part := fun part hpart =>
      no_slash_of_mem_split (s := (start p.chars).2) part (hsplit ▸ hpart)
    have hchars : p.chars = (start p.chars).1.chars ++ unsplit (front ++ tail) := by
      rw [← hsplit, unsplit_split, start_chars]
    have hcurrent : (start p.chars).1 = .current → ∃ more, front ++ tail = [] :: more := fun hst =>
      hsplit ▸ split_of_current hst
    have hsteps : p.steps = (front ++ tail).filter (!isIdle ·) := by
      rw [← steps_of_start hslash fun hst => Or.inr (hcurrent hst), ← hchars]
    refine ⟨isAbsolute_of_front ?_ fun hnil => isAbsolute_of_start (ne_root_of_chars_eq_nil hnil), ?_⟩
    · conv_rhs => rw [hchars]
      rw [List.prefix_append_right_inj]
      exact unsplit_prefix _ _
    · rw [hsteps, List.filter_append, List.length_append, steps_of_start]
      · exact Nat.le_add_right _ _
      · exact fun part hpart => hslash part (List.mem_append_left _ hpart)
      · intro hst
        obtain ⟨more, hmore⟩ := hcurrent hst
        cases front with
        | nil => exact Or.inl rfl
        | cons first rest => exact Or.inr ⟨rest, by rw [(List.cons.inj hmore).1]⟩

/-- A path without the parts at its end that say nothing. -/
def trimmed (p : Path) : Path := ⟨(start p.chars).1.chars ++ unsplit p.body⟩

theorem trimmed_concat_slash {front : List Char} (hne : front ≠ []) :
    (Path.mk (front ++ ['/'])).trimmed = (Path.mk front).trimmed := by
  have hidle : ∀ parts : List Name, trimIdle (parts ++ [[]]) = trimIdle parts := by
    simp [trimIdle, isIdle]
  have hslash : split [] = [[]] := rfl
  unfold trimmed body
  rw [start_append_slash hne, split_append_slash, hslash, hidle]

/-- **The parent of a name behind a path** does not depend on the name. -/
theorem parent?_join {p : Path} {name : Name} (h : name.IsPart) (hcurrent : name ≠ ['.']) :
    (p.join ⟨name⟩).parent? = some p.trimmed := by
  have hsplit : split name = [name] := split_eq_singleton h.no_slash
  have hidle : isIdle name = false := isIdle_of_isPart h hcurrent
  -- the parts in front of the name, and the start in front of them
  have hends : ∀ (front : List Name) {s : List Char} {st : Start} {rest : List Char},
      start s = (st, rest) → split rest = front ++ [name] →
      (Path.mk s).parent? = some ⟨st.chars ++ unsplit (trimIdle front)⟩ := by
    intro front s st rest hst hs
    have hbody : (Path.mk s).body = front ++ [name] := by
      unfold body
      rw [hst, hs, trimIdle_concat hidle]
    have hlast : (front ++ [name]).dropLast = front := List.dropLast_concat
    unfold parent?
    rw [hbody, hst]
    split
    · simp at *
    · rw [hlast]
  rcases join_chars (p := p) h with ⟨hnil, hjoin⟩ | ⟨front, hfront, hne, hjoin⟩
  · have hpath : p.join ⟨name⟩ = ⟨name⟩ := congrArg Path.mk hjoin
    rw [hpath, hends [] (start_of_isPart h hcurrent) hsplit]
    simp [trimmed, body, hnil, start, split, trimIdle, isIdle]
  · have hpath : p.join ⟨name⟩ = ⟨front ++ '/' :: name⟩ := congrArg Path.mk hjoin
    rw [hpath]
    by_cases hnil : front = []
    · have hp : p.chars = ['/'] := by
        rcases hfront with hfront | hfront <;> simp_all
      have hroot : start ('/' :: name) = (.root, name) := rfl
      rw [hnil, List.nil_append, hends [] hroot hsplit]
      simp [trimmed, body, hp, start, split, trimIdle, isIdle]
    · rw [hends _ (start_append_slash hnil _) (by rw [split_append_slash, hsplit])]
      have htrimmed : p.trimmed = (Path.mk front).trimmed := by
        rcases hfront with hfront | hfront
        · rw [← trimmed_concat_slash hnil, ← hfront]
        · rw [← hfront]
      rw [htrimmed]
      rfl

theorem exists_split_join {p : Path} {name : Name} (h : name.IsPart) :
    ∃ front, split (p.join ⟨name⟩).chars = front ++ [name] := by
  have hname : split name = [name] := split_eq_singleton h.no_slash
  rcases join_chars (p := p) h with ⟨_, hjoin⟩ | ⟨front, _, _, hjoin⟩
  · exact ⟨[], by rw [hjoin, hname]; rfl⟩
  · exact ⟨split front, by rw [hjoin, split_append_slash, hname]⟩

theorem trimmed_spec (p : Path) : p.trimmed.isAbsolute = p.isAbsolute ∧ p.trimmed.steps = p.steps := by
  -- the trimmed path is the parent of any name behind the path
  have h : Name.IsEntry ['a'] := ⟨by decide, by decide, by decide, by decide, by decide⟩
  obtain ⟨front, hfront⟩ := exists_split_join (p := p) h.isPart
  obtain ⟨_, q, hparent, habsolute, hsteps, _⟩ := exists_parent? h hfront
  rw [parent?_join h.isPart h.ne_current, Option.some.injEq] at hparent
  rw [hparent]
  refine ⟨habsolute.trans (isAbsolute_join h), ?_⟩
  have hjoin : (p.join ⟨['a']⟩).steps = p.steps ++ [['a']] := by
    rw [steps_eq_parts_filter, parts_join h.isPart, List.filter_append, ← steps_eq_parts_filter]
    rfl
  rw [steps, hfront, List.filter_append] at hjoin
  exact hsteps.trans (List.append_cancel_right hjoin)

theorem start_of_front {s : List Char} {front tail : List Name}
    (hs : split (start s).2 = front ++ tail) (htrim : trimIdle front = front) :
    start ((start s).1.chars ++ unsplit front) = ((start s).1, unsplit front) := by
  have hidle : ∀ part, isIdle part = true → front ≠ [part] := by
    rintro part hpart rfl
    simp [trimIdle, hpart] at htrim
  unfold start at hs ⊢
  split at hs <;> simp only at hs ⊢
  · rfl
  · cases front with
    | nil => rfl
    | cons first more =>
      obtain ⟨hfirst, hmore⟩ := List.cons.inj hs
      exact absurd (by rw [← hfirst, (List.append_eq_nil_iff.mp hmore.symm).1]) (hidle [] rfl)
  · rw [split_slash] at hs
    cases front with
    | nil => rfl
    | cons first more =>
      obtain ⟨rfl, -⟩ := List.cons.inj hs
      rw [unsplit_cons [] fun hnil => hidle [] rfl (by rw [hnil])]
      rfl
  · rename_i hroot hdot hcurrent
    change start (unsplit front) = (.plain, unsplit front)
    -- what the text of the first parts starts with, the whole text starts with
    obtain ⟨more, hmore⟩ := unsplit_prefix front tail
    rw [← hs, unsplit_split] at hmore
    refine start_plain ?_ ?_ ?_
    · intro rest hrest
      exact hroot (rest ++ more) (by rw [← hmore, hrest, List.cons_append])
    · intro hfront
      have hparts : split (unsplit front) = [['.']] := by rw [hfront]; rfl
      by_cases hnil : front = []
      · rw [hnil] at hfront
        cases hfront
      · rw [split_unsplit hnil fun part hpart =>
          no_slash_of_mem_split part (hs ▸ List.mem_append_left _ hpart)] at hparts
        exact hidle ['.'] rfl hparts
    · intro rest hrest
      exact hcurrent (rest ++ more) (by rw [← hmore, hrest, List.cons_append, List.cons_append])

/-- **The parent of a path** has no parts at its end that say nothing. -/
theorem trimmed_of_parent? {p q : Path} (h : p.parent? = some q) : q.trimmed = q := by
  unfold parent? at h
  split at h
  · split_ifs at h
    obtain rfl := Option.some.inj h
    rfl
  · obtain rfl := Option.some.inj h
    obtain ⟨tail, hsplit⟩ := exists_split_front p
    have htrim := trimIdle_idempotent p.body.dropLast
    generalize trimIdle p.body.dropLast = front at hsplit htrim ⊢
    have hbody : (Path.mk ((start p.chars).1.chars ++ unsplit front)).body = front := by
      unfold body
      rw [start_of_front hsplit htrim]
      by_cases hnil : front = []
      · rw [hnil]
        rfl
      · rw [split_unsplit hnil fun part hpart =>
          no_slash_of_mem_split part (hsplit ▸ List.mem_append_left _ hpart), htrim]
    rw [trimmed, hbody, start_of_front hsplit htrim]

/-! ## The halves of a name -/

theorem splitName_spec (name : Name) :
    ((splitName name).2 = none ∧ (splitName name).1 = name) ∨
      ∃ extension, (splitName name).2 = some extension ∧ '.' ∉ extension ∧
        (splitName name).1 ++ '.' :: extension = name := by
  unfold splitName
  simp only
  split_ifs with hbefore
  · exact Or.inl ⟨rfl, rfl⟩
  · right
    have hwhole := List.takeWhile_append_dropWhile (p := (· != '.')) (l := name.reverse)
    refine ⟨_, rfl, ?_, ?_⟩
    · rw [List.mem_reverse]
      intro hdot
      simpa using List.mem_takeWhile_imp hdot
    · cases hdrop : name.reverse.dropWhile (· != '.') with
      | nil => simp [hdrop] at hbefore
      | cons c rest =>
        have hc : c = '.' := by
          have := List.dropWhile_get_zero_not (· != '.') name.reverse (by rw [hdrop]; simp)
          simpa [hdrop] using this
        rw [hdrop, hc] at hwhole
        rw [List.reverse_cons, List.dropLast_concat]
        have := congrArg List.reverse hwhole
        simpa [hc] using this

theorem splitName_of_dot {c : Char} {tail : Name} (h : '.' ∈ tail) :
    (splitName (c :: tail)).2 ≠ none := by
  have hdrop : tail.reverse.dropWhile (· != '.') ≠ [] := by
    rw [Ne, List.dropWhile_eq_nil_iff, not_forall]
    exact ⟨'.', by simpa using h⟩
  have hbefore : ((c :: tail).reverse.dropWhile (· != '.')).reverse.dropLast ≠ [] := by
    rw [List.reverse_cons, List.dropWhile_append, if_neg (by simpa using hdrop), List.reverse_append,
      List.reverse_singleton, List.singleton_append,
      List.dropLast_cons_of_ne_nil (List.reverse_ne_nil_iff.mpr hdrop)]
    exact List.cons_ne_nil _ _
  unfold splitName
  dsimp only
  rw [if_neg hbefore]
  exact Option.some_ne_none _

theorem append_dot_inj {a b : List Char} {e e' : List Char} (he : '.' ∉ e) (he' : '.' ∉ e')
    (h : a ++ '.' :: e = b ++ '.' :: e') : a = b ∧ e = e' := by
  have hlast : ∀ {a e : List Char}, '.' ∉ e →
      (a ++ '.' :: e).reverse.takeWhile (· != '.') = e.reverse := by
    intro a e he
    rw [List.reverse_append, List.reverse_cons, List.append_assoc, List.takeWhile_append_of_pos]
    · simp
    · intro c hc
      rw [bne_iff_ne]
      rintro rfl
      exact he (List.mem_reverse.mp hc)
  have hrev := hlast (a := a) he
  rw [h, hlast he', List.reverse_inj] at hrev
  subst hrev
  exact ⟨List.append_cancel_right h, rfl⟩

/-! ## Compressed files -/

/-- The name of the compressed form of a file. -/
def packedName (name : Name) : Name := name ++ '.' :: compressedExtension

theorem packedName_ne (name : Name) : packedName name ≠ name := by
  intro h
  have := congrArg List.length h
  simp [packedName] at this

theorem isEntry_packedName {name : Name} (h : name.IsEntry) : (packedName name).IsEntry := by
  have hlong : 4 ≤ (packedName name).length := by simp [packedName, compressedExtension]
  have hmem : ∀ c, c ∈ packedName name ↔ c ∈ name ∨ c ∈ ['.', 'l', 'z', '4'] := fun c =>
    List.mem_append
  refine ⟨?_, ?_, ?_, ?_, ?_⟩
  · intro heq
    rw [heq] at hlong
    simp at hlong
  · intro heq
    rw [heq] at hlong
    simp at hlong
  · intro heq
    rw [heq] at hlong
    simp at hlong
  · rw [hmem, not_or]
    exact ⟨h.no_slash, by decide⟩
  · rw [hmem, not_or]
    exact ⟨h.no_nul, by decide⟩

theorem compressed_join {p : Path} {name : Name} (h : name.IsEntry) :
    (p.join ⟨name⟩).compressed = p.join ⟨packedName name⟩ :=
  (join_append h _ (isEntry_packedName h)).symm

theorem fileName?_join_of_isPart {p : Path} {name : Name} (h : name.IsPart)
    (hcurrent : name ≠ ['.']) (hparent : name ≠ ['.', '.']) :
    (p.join ⟨name⟩).fileName? = some name := by
  obtain ⟨front, hfront⟩ := exists_split_join (p := p) h
  obtain ⟨front', hsplit, _, _⟩ := split_start hcurrent hfront
  unfold fileName? body
  rw [hsplit, trimIdle_concat (isIdle_of_isPart h hcurrent), List.getLast?_concat]
  exact if_neg hparent

theorem fileName?_join {p : Path} {name : Name} (h : name.IsEntry) :
    (p.join ⟨name⟩).fileName? = some name :=
  fileName?_join_of_isPart h.isPart h.ne_current h.ne_parent

theorem isCompressed_join {p : Path} {name : Name} (h : name.IsEntry) :
    (p.join ⟨name⟩).isCompressed = ((splitName name).2 == some compressedExtension) := by
  unfold isCompressed extension?
  rw [fileName?_join h, Option.bind_some]

theorem splitName_packedName {name : Name} (h : name ≠ []) :
    splitName (packedName name) = (name, some compressedExtension) := by
  have hreverse : (packedName name).reverse = ['4', 'z', 'l', '.'] ++ name.reverse := by
    simp [packedName, compressedExtension]
  unfold splitName
  rw [hreverse]
  simp [h, compressedExtension]

theorem isCompressed_packedName {p : Path} {name : Name} (h : name.IsEntry) :
    (p.join ⟨packedName name⟩).isCompressed = true := by
  rw [isCompressed_join (isEntry_packedName h), splitName_packedName h.ne_nil, beq_self_eq_true]

theorem exists_packedName {name : Name} (h : (splitName name).2 = some compressedExtension) :
    ∃ other, name = packedName other := by
  rcases splitName_spec name with ⟨hnone, -⟩ | ⟨extension, hsome, -, hname⟩
  · rw [hnone] at h
    cases h
  · rw [hsome, Option.some.injEq] at h
    exact ⟨_, by rw [packedName, ← h, hname]⟩

theorem packedName_injective {a b : Name} (h : packedName a = packedName b) : a = b :=
  List.append_cancel_right h

end Path

end LogRouter
