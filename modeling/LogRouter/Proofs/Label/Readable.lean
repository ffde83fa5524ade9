import LogRouter.Proofs.Label.Numbers
import LogRouter.Writer.SizeWriter

/-!
# What reads as a label

* `NumericField.Numeral`: the texts that a numeric field reads (`NumericField.exists_of_read?`).
* `exists_of_readItems?_numeric`, `exists_of_readItems?_literal`: what an item has read stands at the
  front of the text.
* **`exists_of_readsAs_day`**, **`exists_of_readsAs_stamp`**: what reads as a day or as the stamp of a
  backup, taken apart.
-/

namespace LogRouter

/-! ## Numbers -/

theorem exists_of_readDigits? {width? : Option Nat} {s rest : List Char} {n : Nat}
    (h : readDigits? width? s = some (n, rest)) :
    ∃ digits, s = digits ++ rest ∧ (∀ c ∈ digits, c.isDigit = true) ∧ digits ≠ [] ∧
      ∀ width, width? = some width → digits.length ≤ width := by
  have hread : ∀ digits : List Char, digits <+: s →
      (if digits.isEmpty ∨ Reading.maxNumber < digits.foldl (fun n c => n * 10 + (c.toNat - 48)) 0 then
        none else some (digits.foldl (fun n c => n * 10 + (c.toNat - 48)) 0, s.drop digits.length)) =
        some (n, rest) → s = digits ++ rest ∧ digits ≠ [] := by
    intro digits hfront h
    split_ifs at h with hbad
    simp only [Option.some.injEq, Prod.mk.injEq] at h
    rw [← h.2]
    exact ⟨(List.prefix_iff_eq_append.mp hfront).symm, by simpa using (not_or.mp hbad).1⟩
  unfold readDigits? at h
  cases width? with
  | none =>
    obtain ⟨hs, hne⟩ := hread _ (List.takeWhile_prefix _) h
    exact ⟨_, hs, fun _ hc => List.mem_takeWhile_imp hc, hne, fun width hwidth => by cases hwidth⟩
  | some width =>
    have hfront := List.takeWhile_prefix (l := s.take width) Char.isDigit
    obtain ⟨hs, hne⟩ := hread _ (hfront.trans (List.take_prefix _ _)) h
    refine ⟨_, hs, fun _ hc => List.mem_takeWhile_imp hc, hne, fun places hplaces => ?_⟩
    rw [← Option.some.inj hplaces]
    exact hfront.length_le.trans (List.length_take_le _ _)

namespace NumericField

variable {field : NumericField} {text s rest : List Char} {c : Char}

/-- The texts that a numeric field reads: blanks, a sign if the field may have one, and digits, no more
than the places of the field unless there is a sign. -/
inductive Numeral (field : NumericField) : List Char → Prop where
  | bare {blanks digits : List Char} (blank : ∀ c ∈ blanks, Text.isBlank c = true)
      (digit : ∀ c ∈ digits, c.isDigit = true)
      (places : ∀ width, field.width? = some width → digits.length ≤ width) :
      Numeral field (blanks ++ digits)
  | signed {blanks digits : List Char} {sign : Char} (signed : field.signed = true)
      (isSign : sign = '-' ∨ sign = '+') (blank : ∀ c ∈ blanks, Text.isBlank c = true)
      (digit : ∀ c ∈ digits, c.isDigit = true) : Numeral field (blanks ++ sign :: digits)

/-- **What a numeric field has read** stands at the front of the text. -/
theorem exists_of_read? {value : Int} (h : field.read? s = some (value, rest)) :
    ∃ text, field.Numeral text ∧ s = text ++ rest := by
  have hblank : ∀ c ∈ s.takeWhile Text.isBlank, Text.isBlank c = true := fun _ hc =>
    List.mem_takeWhile_imp hc
  have hs : s = s.takeWhile Text.isBlank ++ Text.trimStart s :=
    (List.takeWhile_append_dropWhile (p := Text.isBlank) (l := s)).symm
  unfold read? at h
  split at h
  all_goals
    obtain ⟨⟨n, tail⟩, hdigits, heq⟩ := Option.map_eq_some_iff.mp h
    obtain ⟨digits, happend, hdigit, -, hwidth⟩ := exists_of_readDigits? hdigits
    obtain ⟨-, rfl⟩ := Prod.mk.inj heq
  · rename_i hsigned htrim
    refine ⟨_, .signed hsigned (Or.inl rfl) hblank hdigit, ?_⟩
    rw [htrim, happend] at hs
    rw [List.append_assoc, List.cons_append]
    exact hs
  · rename_i hsigned htrim
    refine ⟨_, .signed hsigned (Or.inr rfl) hblank hdigit, ?_⟩
    rw [htrim, happend] at hs
    rw [List.append_assoc, List.cons_append]
    exact hs
  · refine ⟨_, .bare hblank hdigit hwidth, ?_⟩
    rw [happend] at hs
    rw [List.append_assoc]
    exact hs

theorem Numeral.not_mem (h : field.Numeral text) (hblank : Text.isBlank c = false)
    (hdigit : c.isDigit = false) (hsign : field.signed = true → c ≠ '-' ∧ c ≠ '+') : c ∉ text := by
  cases h with
  | bare blank digit places =>
    rw [List.mem_append, not_or]
    exact ⟨not_mem_of_forall blank hblank, not_mem_of_forall digit hdigit⟩
  | signed signed isSign blank digit =>
    rw [List.mem_append, List.mem_cons, not_or, not_or]
    refine ⟨not_mem_of_forall blank hblank, ?_, not_mem_of_forall digit hdigit⟩
    rintro rfl
    exact isSign.elim (hsign signed).1 (hsign signed).2

theorem Numeral.unmarked (h : field.Numeral text) (hsigned : field.signed = false) :
    text.count '-' = 0 ∧ text.count '.' = 0 ∧ 'z' ∉ text := by
  have hsign : ∀ {c : Char}, field.signed = true → c ≠ '-' ∧ c ≠ '+' := fun hsome => by
    rw [hsigned] at hsome
    cases hsome
  exact ⟨List.count_eq_zero.mpr (h.not_mem rfl rfl hsign),
    List.count_eq_zero.mpr (h.not_mem rfl rfl hsign), h.not_mem rfl rfl hsign⟩

theorem Numeral.length_le (h : field.Numeral text) (hdigits : ∀ c ∈ text, c.isDigit = true)
    {width : Nat} (hwidth : field.width? = some width) : text.length ≤ width := by
  cases h with
  | bare blank digit places =>
    rename_i blanks digits
    have hnil : blanks = [] := by
      rw [List.eq_nil_iff_forall_not_mem]
      intro c hc
      exact not_mem_of_forall blank (isBlank_of_isDigit (hdigits c (List.mem_append_left _ hc))) hc
    rw [hnil, List.nil_append]
    exact places width hwidth
  | signed signed isSign blank digit =>
    have hsign := hdigits _ (List.mem_append_right _ List.mem_cons_self)
    rcases isSign with rfl | rfl <;> exact absurd hsign (by decide)

theorem Numeral.dash (h : field.Numeral text) : '-' ∉ text ∨ ∃ blanks digits,
    text = blanks ++ '-' :: digits ∧ (∀ c ∈ blanks, Text.isBlank c = true) ∧
      ∀ c ∈ digits, c.isDigit = true := by
  cases h with
  | bare blank digit places =>
    left
    rw [List.mem_append, not_or]
    exact ⟨not_mem_of_forall blank rfl, not_mem_of_forall digit rfl⟩
  | signed signed isSign blank digit =>
    rcases isSign with rfl | rfl
    · exact Or.inr ⟨_, _, rfl, blank, digit⟩
    · left
      rw [List.mem_append, List.mem_cons, not_or, not_or]
      exact ⟨not_mem_of_forall blank rfl, by decide, not_mem_of_forall digit rfl⟩

end NumericField

/-! ## Items -/

section Items

variable {r r' : Reading} {s rest text : List Char} {items : List Item}

theorem exists_of_readItems?_numeric {field : NumericField} {pad : Pad}
    (h : readItems? r s (.numeric field pad :: items) = some (r', rest)) :
    ∃ text r₁ s₁, field.Numeral text ∧ s = text ++ s₁ ∧ readItems? r₁ s₁ items = some (r', rest) := by
  obtain ⟨⟨r₁, s₁⟩, hitem, hrest⟩ := Option.bind_eq_some_iff.mp h
  unfold Item.read? readNumeric? at hitem
  simp only [Option.bind_eq_bind, Option.bind_eq_some_iff, Option.pure_def, Option.some.injEq,
    Prod.mk.injEq] at hitem
  obtain ⟨⟨value, tail⟩, hread, _, _, _, rfl⟩ := hitem
  obtain ⟨text, htext, hs⟩ := NumericField.exists_of_read? hread
  exact ⟨text, r₁, _, htext, hs, hrest⟩

theorem exists_of_readItems?_literal
    (h : readItems? r s (.literal text :: items) = some (r', rest)) :
    ∃ s₁, s = text ++ s₁ ∧ readItems? r s₁ items = some (r', rest) := by
  obtain ⟨⟨r₁, s₁⟩, hitem, hrest⟩ := Option.bind_eq_some_iff.mp h
  simp only [Item.read?] at hitem
  split_ifs at hitem with hfront
  simp only [Option.some.injEq, Prod.mk.injEq] at hitem
  obtain ⟨rfl, rfl⟩ := hitem
  exact ⟨_, (List.prefix_iff_eq_append.mp (List.isPrefixOf_iff_prefix.mp hfront)).symm, hrest⟩

theorem of_readItems?_milli (h : readItems? r s [.word (.fraction .milli)] = some (r', [])) :
    s = [] ∨ ∃ places, s = '.' :: places ∧ ∀ c ∈ places, c.isDigit = true := by
  obtain ⟨⟨r₁, s₁⟩, hitem, hrest⟩ := Option.bind_eq_some_iff.mp h
  simp only [readItems?, Option.some.injEq, Prod.mk.injEq] at hrest
  obtain ⟨-, rfl⟩ := hrest
  simp only [Item.read?, TextField.read?] at hitem
  unfold readPointed? at hitem
  split at hitem
  · rename_i tail
    simp only [Option.bind_eq_bind, Option.bind_eq_some_iff, Option.pure_def, Option.some.injEq,
      Prod.mk.injEq] at hitem
    obtain ⟨⟨nanos, tail'⟩, hplaces, _, _, _, rfl⟩ := hitem
    simp only [Precision.read?] at hplaces
    unfold readPlaces? at hplaces
    split at hplaces
    · rename_i n more hdigits
      split_ifs at hplaces
      simp only [Option.some.injEq, Prod.mk.injEq] at hplaces
      obtain ⟨digits, happend, hdigit, -⟩ := exists_of_readDigits? hdigits
      rw [hplaces.2, List.append_nil] at happend
      exact Or.inr ⟨digits, congrArg ('.' :: ·) happend, hdigit⟩
    · cases hplaces
  · simp only [Option.some.injEq, Prod.mk.injEq] at hitem
    exact Or.inl hitem.2

theorem exists_of_readsAs (h : readsAs items s = true) :
    ∃ r, readItems? Reading.empty s items = some (r, []) := by
  unfold readsAs at h
  split at h
  · rename_i r rest hread
    rw [List.isEmpty_iff.mp h] at hread
    exact ⟨r, hread⟩
  · cases h

/-- **What reads as the stamp of a backup** starts with the numerals of year and month, with a dash
behind each of them. What follows has two dashes and one point at most. -/
theorem exists_of_readsAs_stamp (h : readsAs SizeWriter.backupItems s = true) :
    ∃ year month clock, s = year ++ '-' :: (month ++ '-' :: clock) ∧
      NumericField.year.Numeral year ∧ NumericField.month.Numeral month ∧
      clock.count '-' = 2 ∧ clock.count '.' ≤ 1 ∧ 'z' ∉ clock := by
  obtain ⟨r, h₀⟩ := exists_of_readsAs h
  obtain ⟨year, _, _, hyear, rfl, h₁⟩ := exists_of_readItems?_numeric h₀
  obtain ⟨_, rfl, h₂⟩ := exists_of_readItems?_literal h₁
  obtain ⟨month, _, _, hmonth, rfl, h₃⟩ := exists_of_readItems?_numeric h₂
  obtain ⟨_, rfl, h₄⟩ := exists_of_readItems?_literal h₃
  obtain ⟨day, _, _, hday, rfl, h₅⟩ := exists_of_readItems?_numeric h₄
  obtain ⟨_, rfl, h₆⟩ := exists_of_readItems?_literal h₅
  obtain ⟨hour, _, _, hhour, rfl, h₇⟩ := exists_of_readItems?_numeric h₆
  obtain ⟨_, rfl, h₈⟩ := exists_of_readItems?_literal h₇
  obtain ⟨minute, _, _, hminute, rfl, h₉⟩ := exists_of_readItems?_numeric h₈
  obtain ⟨_, rfl, h₁₀⟩ := exists_of_readItems?_literal h₉
  obtain ⟨second, _, places, hsecond, rfl, h₁₁⟩ := exists_of_readItems?_numeric h₁₀
  -- the places have a point in front of their digits, and the numerals neither sign nor point
  have hplaces : places.count '-' = 0 ∧ places.count '.' ≤ 1 ∧ 'z' ∉ places := by
    rcases of_readItems?_milli h₁₁ with rfl | ⟨digits, rfl, hdigit⟩
    · exact ⟨rfl, Nat.zero_le _, List.not_mem_nil⟩
    · have hdash : '-' ∉ digits := not_mem_of_forall hdigit rfl
      have hpoint : '.' ∉ digits := not_mem_of_forall hdigit rfl
      have hz : 'z' ∉ digits := not_mem_of_forall hdigit rfl
      simp [List.count_eq_zero.mpr hdash, List.count_eq_zero.mpr hpoint, hz]
  obtain ⟨hday, hday', hday''⟩ := hday.unmarked rfl
  obtain ⟨hhour, hhour', hhour''⟩ := hhour.unmarked rfl
  obtain ⟨hminute, hminute', hminute''⟩ := hminute.unmarked rfl
  obtain ⟨hsecond, hsecond', hsecond''⟩ := hsecond.unmarked rfl
  refine ⟨year, month, _, rfl, hyear, hmonth, ?_, ?_, ?_⟩
  · simp [hday, hhour, hminute, hsecond, hplaces.1]
  · simp [hday', hhour', hminute', hsecond', hplaces.2.1]
  · simp [hday'', hhour'', hminute'', hsecond'', hplaces.2.2]

theorem count_of_readsAs_stamp (h : readsAs SizeWriter.backupItems s = true) :
    s.count '.' ≤ 1 ∧ 2 ≤ s.length ∧ 'z' ∉ s := by
  obtain ⟨year, month, clock, rfl, hyear, hmonth, -, hpoint, hz⟩ := exists_of_readsAs_stamp h
  have hnot : ∀ c : Char, Text.isBlank c = false → c.isDigit = false → c ≠ '-' → c ≠ '+' →
      c ∉ year ∧ c ∉ month := fun c hblank hdigit hminus hplus =>
    ⟨hyear.not_mem hblank hdigit fun _ => ⟨hminus, hplus⟩,
      hmonth.not_mem hblank hdigit fun _ => ⟨hminus, hplus⟩⟩
  obtain ⟨hyear, hmonth⟩ := hnot '.' rfl rfl (by decide) (by decide)
  obtain ⟨hyear', hmonth'⟩ := hnot 'z' rfl rfl (by decide) (by decide)
  refine ⟨?_, ?_, ?_⟩
  · simpa [List.count_eq_zero.mpr hyear, List.count_eq_zero.mpr hmonth] using hpoint
  · simp only [List.length_append, List.length_cons]
    omega
  · simp [hyear', hmonth', hz]

end Items

end LogRouter
