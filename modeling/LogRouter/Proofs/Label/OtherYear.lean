import LogRouter.Proofs.Label.Legible
import LogRouter.Writer.SizeWriter

/-!
# Stamps read with another year

* `clockText`, `milliText`: the stamp of a backup behind its year, and behind its seconds.
* `Moment.IsShown.withYear`: the same day and time of another year, if this has leap days as well.
* `readItems?_clock`: the text is read behind whatever was read as the year.
* **`readsAs_stamp_of_year`**: a text that starts with any year of the same length, and goes on like the
  stamp of a backup, reads as one. The milliseconds need not be there.
* `SizeWriter.readsAs_stamp`: the stamp of a backup reads as one.
-/

namespace LogRouter

open Reading

/-! ## Other years -/

/-- The moment on the same day of another year. -/
def Moment.withYear (m : Moment) (year : Int) : Moment := { m with date := ⟨year, m.date.dayOfYear⟩ }

theorem Moment.IsShown.withYear {m : Moment} (hm : m.IsShown) {year : Int}
    (hleap : isLeapYear year = isLeapYear m.date.year) (hyear : year.natAbs ≤ 999999) :
    (m.withYear year).IsShown := by
  refine ⟨hyear, ?_, hm.secondOfDay, hm.nanos, hm.offset⟩
  have hlength : yearLength year = yearLength m.date.year := by
    unfold yearLength
    rw [hleap]
  exact hm.dayOfYear.trans_eq hlength.symm

/-! ## Behind the year -/

/-- The items of the stamp of a backup between the year and the milliseconds. -/
def clockItems : List Item :=
  [.literal ['-'], .zeroed .month, .literal ['-'], .zeroed .day, .literal ['T'], .zeroed .hour,
   .literal ['-'], .zeroed .minute, .literal ['-'], .zeroed .second]

theorem backupItems_eq : SizeWriter.backupItems =
    .zeroed .year :: (clockItems ++ [.word (.fraction .milli)]) := rfl

/-- The stamp of a backup between the year and the milliseconds. -/
def clockText (m : Moment) : List Char :=
  '-' :: (renderByte .zero m.date.month ++ '-' :: (renderByte .zero m.date.day ++
    'T' :: (renderByte .zero m.hour ++ '-' :: (renderByte .zero m.minute ++
    '-' :: renderByte .zero m.second))))

/-- The milliseconds with their point, as the stamp of a backup ends with them. -/
def milliText (m : Moment) : List Char := '.' :: zeroPadded 3 (m.fraction / 1000000)

theorem stamp_eq (zone : Zone) (t : Instant) : SizeWriter.stamp zone t =
    renderYear .zero (Moment.ofInstant zone t).date.year ++
      (clockText (.ofInstant zone t) ++ milliText (.ofInstant zone t)) := by
  rw [SizeWriter.stamp, renderItems?_backup, Option.getD_some]
  simp [renderDay, renderTime, clockText, milliText]

theorem count_clockText {m : Moment} (hm : m.InRange) :
    (clockText m).count '-' = 4 ∧ '.' ∉ clockText m := by
  have hspells : ∀ {n}, n < 100 → ∀ {c : Char}, c.isDigit = false → c ∉ renderByte .zero n :=
    fun hn _ => not_mem_of_forall (spells_renderByte hn).isDigit
  have hmonth := @hspells _ (hm.month.2.trans_lt (by decide))
  have hday := @hspells _ (hm.day.2.trans_lt (by decide))
  have hhour := @hspells _ (hm.hour.trans_lt (by decide))
  have hminute := @hspells _ (hm.minute.trans_lt (by decide))
  have hsecond := @hspells _ (hm.second.trans_lt (by decide))
  constructor
  · simp [clockText, List.count_eq_zero.mpr (hmonth (c := '-') rfl),
      List.count_eq_zero.mpr (hday (c := '-') rfl), List.count_eq_zero.mpr (hhour (c := '-') rfl),
      List.count_eq_zero.mpr (hminute (c := '-') rfl), List.count_eq_zero.mpr (hsecond (c := '-') rfl)]
  · simp [clockText, hmonth (c := '.') rfl, hday (c := '.') rfl, hhour (c := '.') rfl,
      hminute (c := '.') rfl, hsecond (c := '.') rfl]

theorem isDigit_milliText (m : Moment) :
    ∀ c ∈ zeroPadded 3 (m.fraction / 1000000), c.isDigit = true := by
  have hspells : Spells (zeroPadded 3 (m.fraction / 1000000)) (m.fraction / 1000000) := spells_zeros _ _
  exact hspells.isDigit

theorem not_mem_milliText (m : Moment) : '-' ∉ milliText m := by
  rw [milliText, List.mem_cons, not_or]
  exact ⟨by decide, not_mem_of_forall (isDigit_milliText m) rfl⟩

theorem clockText_withYear {m : Moment} {year : Int} (hleap : isLeapYear year = isLeapYear m.date.year) :
    clockText (m.withYear year) = clockText m := by
  have hday : (m.withYear year).date.monthDay = m.date.monthDay := by
    unfold Date.monthDay Moment.withYear
    rw [hleap]
  unfold clockText Date.month Date.day
  rw [hday]
  rfl

section Reading

variable {m : Moment} {nanos : Nat} {r r' : Reading} {s rest : List Char} {items : List Item}

theorem readItems?_mark (c : Char) :
    readItems? r (c :: s) (.literal [c] :: items) = readItems? r s items := by
  simp [readItems?, Item.read?]

theorem readItems?_number {field : NumericField} (h : readNumeric? r s field = some (r', rest)) :
    readItems? r s (.zeroed field :: items) = readItems? r' rest items := by
  rw [readItems?, Item.zeroed, Item.read?, h]
  rfl

/-- **What follows the year** is read whatever follows it in turn. -/
theorem readItems?_clock (hm : m.InRange) (hr : r.Fits m nanos) : ∃ r', r'.Fits m nanos ∧
    ∀ rest items, readItems? r (clockText m ++ rest) (clockItems ++ items) =
      readItems? r' rest items := by
  have htwo : ∀ {r n} field, r.Fits m nanos → NumericField.width? field = some 2 →
      field.render m .zero = renderByte .zero n → n < 100 → ∃ r', r'.Fits m nanos ∧
        ∀ rest items, readItems? r (renderByte .zero n ++ rest) (.zeroed field :: items) =
          readItems? r' rest items := by
    intro r n field hr hwidth hrender hn
    obtain ⟨r', hr', hread⟩ := readNumeric?_zeroPadded hm hr field hwidth hrender hn
    refine ⟨r', hr', fun rest items => readItems?_number ?_⟩
    rw [← zeroPadded_two hn]
    exact hread rest
  obtain ⟨r₁, h₁, hmonth⟩ := htwo .month hr rfl rfl (hm.month.2.trans_lt (by decide))
  obtain ⟨r₂, h₂, hday⟩ := htwo .day h₁ rfl rfl (hm.day.2.trans_lt (by decide))
  obtain ⟨r₃, h₃, hhour⟩ := htwo .hour h₂ rfl rfl (hm.hour.trans_lt (by decide))
  obtain ⟨r₄, h₄, hminute⟩ := htwo .minute h₃ rfl rfl (hm.minute.trans_lt (by decide))
  obtain ⟨r₅, h₅, hsecond⟩ := htwo .second h₄ rfl rfl (hm.second.trans_lt (by decide))
  refine ⟨r₅, h₅, fun rest items => ?_⟩
  simp only [clockText, clockItems, List.cons_append, List.append_assoc, List.nil_append,
    readItems?_mark, hmonth, hday, hhour, hminute, hsecond]

theorem readItems?_pointed {precision : Precision} {places : List Char}
    (hread : precision.read? places = some (nanos, [])) (hsay : r.sayNanosecond? nanos = some r') :
    readItems? r ('.' :: places) [.word (.fraction precision)] = some (r', []) := by
  have hitem : (Item.word (.fraction precision)).read? r ('.' :: places) = some (r', []) := by
    unfold Item.read? TextField.read? readPointed?
    simp [hread, hsay]
  rw [readItems?, hitem]
  rfl

theorem readItems?_milli (hm : m.InRange) (hr : r.Fits m (Precision.milli.kept m.fraction))
    {places : List Char} (hplaces : places = [] ∨ places = milliText m) :
    ∃ r', readItems? r places [.word (.fraction .milli)] = some (r', []) := by
  rcases hplaces with rfl | rfl
  · exact ⟨r, rfl⟩
  · have hread : Precision.milli.read? (renderPlaces m.fraction .milli ++ []) =
        some (Precision.milli.kept m.fraction, []) :=
      Precision.read?_renderPlaces hm.fraction fun h => by cases h
    rw [List.append_nil] at hread
    obtain ⟨r', hsay, -⟩ := hr.sayNanosecond? ((Precision.kept_le _ _).trans hm.fraction)
    exact ⟨r', readItems?_pointed hread hsay⟩

/-- **A stamp with another year** of the same length reads as the stamp of a backup. -/
theorem readsAs_stamp_of_year (hm : m.IsShown) {year : Int}
    (hleap : isLeapYear year = isLeapYear m.date.year) (hyear : year.natAbs ≤ 999999)
    {places : List Char} (hplaces : places = [] ∨ places = milliText m)
    (hread : NumericField.year.read? s = some (year, clockText m ++ places)) :
    readsAs SizeWriter.backupItems s = true := by
  have hm' := (hm.withYear hleap hyear).inRange
  have hempty := fits_empty (m.withYear year) (Precision.milli.kept m.fraction)
  have hfield : NumericField.year = .nanosecond →
      (m.withYear year).fraction = Precision.milli.kept m.fraction := fun h => by cases h
  obtain ⟨r₁, hsay, h₁⟩ : ∃ r₁, Reading.empty.say? year .year = some r₁ ∧
      r₁.Fits (m.withYear year) (Precision.milli.kept m.fraction) := hempty.say? hm' hfield
  have hnumeric : readNumeric? .empty s .year = some (r₁, clockText m ++ places) := by
    unfold readNumeric?
    simp [hread, hsay]
  obtain ⟨r₂, h₂, hclock⟩ := readItems?_clock hm' h₁
  rw [clockText_withYear hleap] at hclock
  obtain ⟨r₃, hmilli⟩ := readItems?_milli hm' h₂ hplaces
  unfold readsAs
  rw [backupItems_eq, readItems?_number hnumeric, hclock, hmilli]
  rfl

theorem read?_renderYear (hm : m.InRange) (hrest : rest.head?.any Char.isDigit = false) :
    NumericField.year.read? (renderYear .zero m.date.year ++ rest) = some (m.date.year, rest) := by
  have hout : NumericField.year.standsOut m .zero rest = true :=
    NumericField.standsOut_of_signed rfl hrest
  exact NumericField.read?_render hm hout rfl

end Reading

/-- **The stamp of a backup** is read by the pattern that it was written by. -/
theorem SizeWriter.readsAs_stamp {zone : Zone} (hzone : zone.offset.natAbs < 86400) {t : Instant}
    (ht : t.Representable) (hnanos : t.nanos < 2 * Instant.nanosPerSecond) :
    readsAs backupItems (stamp zone t) = true := by
  have hm := Moment.isShown_ofInstant hzone ht hnanos
  rw [stamp_eq]
  exact readsAs_stamp_of_year hm rfl hm.year (Or.inr rfl) (read?_renderYear hm.inRange rfl)

end LogRouter
