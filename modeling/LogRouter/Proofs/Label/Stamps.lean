import LogRouter.Proofs.Calendar.Date
import LogRouter.Writer.SizeWriter
import Mathlib.Data.List.TakeWhile

/-!
# Labels tell times apart

* `Spells`: a text of digits and the number that it stands for. Numbers are written in such texts
  (`spells_renderByte`, `renderYear_spec`).
* **`renderDay_injective`**: the label of a day tells it apart from all other days.
* `Instant.SameMillisecond`: two instants fall in the same millisecond.
* `Zone.ShowsAlike`: the clocks of a zone show them alike up to milliseconds. Some leap seconds run into the
  second after them (`Zone.RunsInto`, `Zone.showsAlike_iff`).
* **`stamp_eq_iff`**: the stamps of two backups are equal exactly if clocks show their instants alike.
-/

namespace LogRouter

/-! ## Digits -/

theorem not_mem_of_forall {p : Char → Bool} {s : List Char} {c : Char} (h : ∀ c ∈ s, p c = true)
    (hc : p c = false) : c ∉ s :=
  fun hmem => absurd (h c hmem) (Bool.eq_false_iff.mp hc)

/-- The text consists of digits, and stands for the number. -/
structure Spells (digits : List Char) (n : Nat) : Prop where
  isDigit : ∀ c ∈ digits, c.isDigit = true
  value : Nat.ofDigitChars 10 digits 0 = n

theorem spells_zeros (missing n : Nat) :
    Spells (List.replicate missing '0' ++ decimalDigits n) n where
  isDigit c hc := by
    rcases List.mem_append.mp hc with hc | hc
    · rw [List.eq_of_mem_replicate hc]
      rfl
    · exact Nat.isDigit_of_mem_toDigits (by decide) (by decide) hc
  value := by
    rw [Nat.ofDigitChars_append, Nat.ofDigitChars_replicate_zero, Nat.mul_zero, decimalDigits,
      Nat.ofDigitChars_ten_toDigits]

theorem zeros_ne_nil (missing n : Nat) : List.replicate missing '0' ++ decimalDigits n ≠ [] :=
  List.append_ne_nil_of_right_ne_nil _ (List.ne_nil_of_length_pos Nat.length_toDigits_pos)

theorem length_renderByte (n : Nat) : (renderByte .zero n).length = 2 := rfl

theorem spells_renderByte {n : Nat} (h : n < 100) : Spells (renderByte .zero n) n := by
  have hdigit : ∀ k < 10, (Char.ofNat (48 + k)).isDigit = true ∧ (Char.ofNat (48 + k)).toNat = 48 + k := by
    decide
  have htens := hdigit (n % 256 / 10) (by omega)
  have hones := hdigit (n % 256 % 10) (by omega)
  refine ⟨?_, ?_⟩
  · simp [renderByte, htens.1, hones.1]
  · simp only [renderByte, Nat.ofDigitChars, List.foldl_cons, List.foldl_nil, htens.2, hones.2]
    have hzero : '0'.toNat = 48 := rfl
    omega

/-! ## Years -/

theorem renderYear_spec (year : Int) : ∃ sign digits, renderYear .zero year = sign ++ digits ∧
    Spells digits year.natAbs ∧ digits ≠ [] ∧
    ((sign = [] ∧ 0 ≤ year ∧ digits.length = 4) ∨ (sign = ['-'] ∧ year < 0) ∨
      (sign = ['+'] ∧ 9999 < year)) := by
  have hne := fun missing => zeros_ne_nil missing year.natAbs
  unfold renderYear padded
  split_ifs with hrange hneg
  · have hlength : (decimalDigits year.natAbs).length ≤ 4 :=
      (Nat.length_toDigits_le_iff (by decide) (by decide)).mpr (by omega)
    exact ⟨[], _, rfl, spells_zeros _ _, hne _, Or.inl ⟨rfl, hrange.1, by simp; omega⟩⟩
  · exact ⟨['-'], _, rfl, spells_zeros _ _, hne _, Or.inr (Or.inl ⟨rfl, hneg⟩)⟩
  · exact ⟨['+'], _, rfl, spells_zeros _ _, hne _, Or.inr (Or.inr ⟨rfl, by omega⟩)⟩

theorem dash_renderYear (year : Int) : '-' ∉ renderYear .zero year ∨ year < 0 := by
  obtain ⟨sign, digits, hyear, hdigits, -, hsign⟩ := renderYear_spec year
  have hdash : '-' ∉ digits := not_mem_of_forall hdigits.isDigit rfl
  rcases hsign with ⟨rfl, -⟩ | ⟨-, hneg⟩ | ⟨rfl, -⟩
  · exact Or.inl (hyear ▸ hdash)
  · exact Or.inr hneg
  · left
    rw [hyear, List.mem_append, not_or]
    exact ⟨by decide, hdash⟩

theorem renderYear_range {year : Int} (h : ∀ c ∈ renderYear .zero year, c.isDigit = true) :
    0 ≤ year ∧ year ≤ 9999 := by
  unfold renderYear padded at h
  split_ifs at h with hrange hneg
  · exact hrange
  · exact absurd (h '-' (List.mem_append_left _ List.mem_cons_self)) (by decide)
  · exact absurd (h '+' (List.mem_append_left _ List.mem_cons_self)) (by decide)

theorem renderYear_of_negative {year : Int} (h : year < 0) : ∃ digits,
    renderYear .zero year = '-' :: digits ∧ Spells digits year.natAbs ∧ digits ≠ [] ∧
      (digits.length ≤ 4 ↔ -9999 ≤ year) := by
  refine ⟨List.replicate (5 - (1 + (decimalDigits year.natAbs).length)) '0' ++
    decimalDigits year.natAbs, ?_, spells_zeros _ _, zeros_ne_nil _ _, ?_⟩
  · rw [renderYear, if_neg (by omega), if_pos h]
    rfl
  · have hlength : (decimalDigits year.natAbs).length ≤ 4 ↔ year.natAbs < 10 ^ 4 :=
      Nat.length_toDigits_le_iff (by decide) (by decide)
    rw [List.length_append, List.length_replicate]
    omega

theorem renderYear_injective {year year' : Int} (h : renderYear .zero year = renderYear .zero year') :
    year = year' := by
  obtain ⟨sign, digits, heq, hspells, _, hsign⟩ := renderYear_spec year
  obtain ⟨sign', digits', heq', hspells', _, hsign'⟩ := renderYear_spec year'
  rw [heq, heq'] at h
  have hminus : ∀ rest n, ¬ Spells ('-' :: rest) n := fun rest n hs =>
    absurd (hs.isDigit '-' List.mem_cons_self) (by decide)
  have hplus : ∀ rest n, ¬ Spells ('+' :: rest) n := fun rest n hs =>
    absurd (hs.isDigit '+' List.mem_cons_self) (by decide)
  have hvalue : digits = digits' → year.natAbs = year'.natAbs := by
    rintro rfl
    exact hspells.value.symm.trans hspells'.value
  -- no sign is a digit, so that equal texts have equal signs
  rcases hsign with ⟨rfl, hyear⟩ | ⟨rfl, hyear⟩ | ⟨rfl, hyear⟩ <;>
    rcases hsign' with ⟨rfl, hyear'⟩ | ⟨rfl, hyear'⟩ | ⟨rfl, hyear'⟩ <;> simp at h
  · have := hvalue h
    omega
  · exact absurd (h ▸ hspells) (hminus _ _)
  · exact absurd (h ▸ hspells) (hplus _ _)
  · exact absurd (h ▸ hspells') (hminus _ _)
  · have := hvalue h
    omega
  · exact absurd (h ▸ hspells') (hplus _ _)
  · have := hvalue h
    omega

/-! ## Days -/

/-- The label of a day. -/
def renderDay (date : Date) : Name :=
  renderYear .zero date.year ++
    '-' :: (renderByte .zero date.month ++ '-' :: renderByte .zero date.day)

theorem renderItems?_day (m : Moment) : renderItems? m [.zeroed .year, .literal ['-'],
    .zeroed .month, .literal ['-'], .zeroed .day] = some (renderDay m.date) := by
  simp [renderItems?, Item.render?, Item.zeroed, NumericField.render, renderDay]

theorem renderByte_injective {n n' : Nat} (h : n < 100) (h' : n' < 100)
    (heq : renderByte .zero n = renderByte .zero n') : n = n' := by
  rw [← (spells_renderByte h).value, ← (spells_renderByte h').value, heq]

theorem month_day_range {date : Date} (h : date.dayOfYear < yearLength date.year) :
    1 ≤ date.month ∧ date.month ≤ 12 ∧ 1 ≤ date.day ∧ date.day ≤ 31 := by
  obtain ⟨i, d, hmonth, hday, hi, hd, _⟩ := Date.monthDay_spec h
  omega

/-- **The label of a day** tells it apart from all other days. -/
theorem renderDay_injective {n n' : Int}
    (h : renderDay (.ofEpochDay n) = renderDay (.ofEpochDay n')) : n = n' := by
  have hrange := month_day_range (Date.epochDay_ofEpochDay n).2
  have hrange' := month_day_range (Date.epochDay_ofEpochDay n').2
  -- month and day have fixed lengths, and the year is what stands in front of them
  obtain ⟨hyear, hrest⟩ := List.append_inj' h (by simp [length_renderByte])
  obtain ⟨hmonth, hrest⟩ := List.append_inj (List.cons.inj hrest).2 (by simp only [length_renderByte])
  exact Date.ofEpochDay_injective (renderYear_injective hyear)
    (renderByte_injective (by omega) (by omega) hmonth)
    (renderByte_injective (by omega) (by omega) (List.cons.inj hrest).2)

/-! ## Stamps -/

/-- The time of the day as backups are stamped with it. -/
def renderTime (m : Moment) : List Char :=
  renderByte .zero m.hour ++ '-' :: (renderByte .zero m.minute ++
    '-' :: (renderByte .zero m.second ++ '.' :: zeroPadded 3 (m.fraction / 1000000)))

theorem renderItems?_backup (m : Moment) : renderItems? m SizeWriter.backupItems =
    some (renderDay m.date ++ 'T' :: renderTime m) := by
  simp [SizeWriter.backupItems, renderItems?, Item.render?, Item.zeroed, NumericField.render,
    TextField.render?, renderFraction, renderPlaces, renderDay, renderTime]

theorem zeroPadded_injective {width n n' : Nat} (h : zeroPadded width n = zeroPadded width n') :
    n = n' := by
  have hspells : ∀ n, Spells (zeroPadded width n) n := fun n => spells_zeros _ n
  rw [← (hspells n).value, ← (hspells n').value, h]

theorem length_zeroPadded {width n : Nat} (hpos : 0 < width) (h : n < 10 ^ width) :
    (zeroPadded width n).length = width := by
  have hlength : (decimalDigits n).length ≤ width :=
    (Nat.length_toDigits_le_iff (by decide) hpos).mpr h
  simp [zeroPadded, padded]
  omega

theorem time_range (zone : Zone) {t : Instant} (ht : t.nanos < 2 * Instant.nanosPerSecond) :
    (Moment.ofInstant zone t).hour < 24 ∧ (Moment.ofInstant zone t).minute < 60 ∧
      (Moment.ofInstant zone t).second ≤ 60 ∧ (Moment.ofInstant zone t).fraction / 1000000 < 1000 := by
  unfold Moment.hour Moment.minute Moment.second Moment.fraction Moment.ofInstant
  unfold Instant.nanosPerSecond at *
  simp only
  omega

theorem length_renderTime (zone : Zone) {t : Instant} (ht : t.nanos < 2 * Instant.nanosPerSecond) :
    (renderTime (.ofInstant zone t)).length = 12 := by
  have hplaces := length_zeroPadded (show 0 < 3 by decide) (time_range zone ht).2.2.2
  simp [renderTime, length_renderByte, hplaces]

/-- Two moments show the same time of the day, up to milliseconds. -/
structure Moment.SameTime (m m' : Moment) : Prop where
  hour : m.hour = m'.hour
  minute : m.minute = m'.minute
  second : m.second = m'.second
  milli : m.fraction / 1000000 = m'.fraction / 1000000

theorem renderTime_eq_iff {zone : Zone} {t t' : Instant} (ht : t.nanos < 2 * Instant.nanosPerSecond)
    (ht' : t'.nanos < 2 * Instant.nanosPerSecond) :
    renderTime (.ofInstant zone t) = renderTime (.ofInstant zone t') ↔
      (Moment.ofInstant zone t).SameTime (Moment.ofInstant zone t') := by
  have hrange := time_range zone ht
  have hrange' := time_range zone ht'
  constructor
  · intro h
    obtain ⟨hhour, hrest⟩ := List.append_inj h (by simp only [length_renderByte])
    obtain ⟨hminute, hrest⟩ := List.append_inj (List.cons.inj hrest).2 (by simp only [length_renderByte])
    obtain ⟨hsecond, hrest⟩ := List.append_inj (List.cons.inj hrest).2 (by simp only [length_renderByte])
    exact ⟨renderByte_injective (by omega) (by omega) hhour,
      renderByte_injective (by omega) (by omega) hminute,
      renderByte_injective (by omega) (by omega) hsecond,
      zeroPadded_injective (List.cons.inj hrest).2⟩
  · rintro ⟨hhour, hminute, hsecond, hmilli⟩
    rw [renderTime, hhour, hminute, hsecond, hmilli, renderTime]

/-- Two instants fall in the same millisecond of the same second. -/
def Instant.SameMillisecond (t t' : Instant) : Prop :=
  t.seconds = t'.seconds ∧ t.nanos / 1000000 = t'.nanos / 1000000

/-- An instant of a leap second that clocks of the zone do not show at the end of a minute, and one of the
second after it, in the same millisecond of these seconds. -/
def Zone.RunsInto (zone : Zone) (t t' : Instant) : Prop :=
  t.isLeap = true ∧ (t.seconds + zone.offset) % 60 ≠ 59 ∧ t'.seconds = t.seconds + 1 ∧
    t.nanos / 1000000 = t'.nanos / 1000000 + 1000

/-- The clocks of a zone show two instants alike: in the same minute, and in the same millisecond since
the epoch. A leap second runs into the second after it, but belongs to the minute that it ends. -/
def Zone.ShowsAlike (zone : Zone) (t t' : Instant) : Prop :=
  (t.seconds + zone.offset) / 60 = (t'.seconds + zone.offset) / 60 ∧
    t.total / 1000000 = t'.total / 1000000

/-- **Clocks show two instants alike** if they fall in the same millisecond, or if one of them lies in a
leap second that does not end a minute and runs into the other one. -/
theorem Zone.showsAlike_iff {zone : Zone} {t t' : Instant} (ht : t.nanos < 2 * Instant.nanosPerSecond)
    (ht' : t'.nanos < 2 * Instant.nanosPerSecond) :
    zone.ShowsAlike t t' ↔ t.SameMillisecond t' ∨ zone.RunsInto t t' ∨ zone.RunsInto t' t := by
  unfold ShowsAlike Instant.SameMillisecond RunsInto Instant.isLeap Instant.total
  simp only [decide_eq_true_eq]
  unfold Instant.nanosPerSecond at *
  omega

theorem Zone.showsAlike_iff_sameTime {zone : Zone} {t t' : Instant} :
    zone.ShowsAlike t t' ↔
      (t.seconds + zone.offset) / 86400 = (t'.seconds + zone.offset) / 86400 ∧
        (Moment.ofInstant zone t).SameTime (Moment.ofInstant zone t') := by
  unfold ShowsAlike Instant.total
  constructor
  · intro h
    unfold Instant.nanosPerSecond at h
    refine ⟨by omega, ⟨?_, ?_, ?_, ?_⟩⟩
    · unfold Moment.hour Moment.ofInstant
      dsimp only
      omega
    · unfold Moment.minute Moment.ofInstant
      dsimp only
      omega
    · unfold Moment.second Moment.ofInstant Instant.nanosPerSecond
      dsimp only
      omega
    · unfold Moment.fraction Moment.ofInstant Instant.nanosPerSecond
      dsimp only
      omega
  · rintro ⟨hday, hhour, hminute, hsecond, hmilli⟩
    unfold Moment.hour at hhour
    unfold Moment.minute at hminute
    unfold Moment.second at hsecond
    unfold Moment.fraction at hmilli
    unfold Moment.ofInstant Instant.nanosPerSecond at *
    simp only at *
    omega

/-- **The stamps of two backups are equal** exactly if clocks show their instants alike. -/
theorem stamp_eq_iff {zone : Zone} {t t' : Instant} (ht : t.nanos < 2 * Instant.nanosPerSecond)
    (ht' : t'.nanos < 2 * Instant.nanosPerSecond) :
    SizeWriter.stamp zone t = SizeWriter.stamp zone t' ↔ zone.ShowsAlike t t' := by
  unfold SizeWriter.stamp
  rw [renderItems?_backup, renderItems?_backup, Option.getD_some, Option.getD_some,
    Zone.showsAlike_iff_sameTime, ← renderTime_eq_iff ht ht']
  constructor
  · intro h
    -- the time of the day has a fixed length, and the date is what stands in front of it
    obtain ⟨hdate, htime⟩ := List.append_inj' h (by simp [length_renderTime, ht, ht'])
    exact ⟨renderDay_injective hdate, (List.cons.inj htime).2⟩
  · rintro ⟨hday, htime⟩
    have hdate : (Moment.ofInstant zone t).date = (Moment.ofInstant zone t').date :=
      congrArg Date.ofEpochDay hday
    rw [hdate, htime]

theorem stamp_injective {zone : Zone} {t t' : Instant} (ht : t.nanos < Instant.nanosPerSecond)
    (ht' : t'.nanos < Instant.nanosPerSecond)
    (h : SizeWriter.stamp zone t = SizeWriter.stamp zone t') :
    t.SameMillisecond t' := by
  have hleap : ∀ {t t' : Instant}, t.nanos < Instant.nanosPerSecond → ¬ zone.RunsInto t t' :=
    fun hnanos hruns => absurd (of_decide_eq_true hruns.1) (Nat.not_le.mpr hnanos)
  have hdouble : Instant.nanosPerSecond < 2 * Instant.nanosPerSecond := by decide
  rw [stamp_eq_iff (ht.trans hdouble) (ht'.trans hdouble),
    Zone.showsAlike_iff (ht.trans hdouble) (ht'.trans hdouble)] at h
  exact h.resolve_right (not_or.mpr ⟨hleap ht, hleap ht'⟩)

end LogRouter
