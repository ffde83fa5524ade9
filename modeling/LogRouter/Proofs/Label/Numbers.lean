import LogRouter.Label.Match
import LogRouter.Proofs.Label.Stamps

/-!
# Numbers of labels

* `Moment.IsShown`, `Moment.InRange`: clocks and calendars can show a moment, and its parts lie where
  they do (`Moment.inRange_ofInstant`).
* `IsSign`, `exists_digits`: a number is written as blanks, a sign and digits;
  `readDigits?_of_spells` says how far digits are read.
* `NumericField.value`: the number that a field writes; `render_eq_padded` says how it is written.
* `NumericField.standsOut`: the text behind a number does not run into it.
* **`NumericField.read?_render`**: a number that stands out is read again, with the text behind it
  left over.
-/

namespace LogRouter

/-! ## Moments of instants -/

namespace Moment

/-- The parts of a moment lie where clocks and calendars show them. -/
structure InRange (m : Moment) : Prop where
  year : m.date.year.natAbs ≤ 999999
  isoYear : m.date.isoWeek.1.natAbs ≤ 1000000
  quarter : 1 ≤ m.date.quarter ∧ m.date.quarter ≤ 4
  month : 1 ≤ m.date.month ∧ m.date.month ≤ 12
  day : 1 ≤ m.date.day ∧ m.date.day ≤ 31
  weekFromSunday : m.date.weekFromSunday ≤ 53
  weekFromMonday : m.date.weekFromMonday ≤ 53
  isoWeek : 1 ≤ m.date.isoWeek.2 ∧ m.date.isoWeek.2 ≤ 53
  weekday : m.date.weekday ≤ 6
  ordinal : 1 ≤ m.date.ordinal ∧ m.date.ordinal ≤ 366
  hour : m.hour ≤ 23
  hour12 : 1 ≤ m.hour12 ∧ m.hour12 ≤ 12
  minute : m.minute ≤ 59
  second : m.second ≤ 60
  fraction : m.fraction ≤ 999999999
  timestamp : m.timestamp.natAbs ≤ 1000000000000000
  offset : m.zone.offset.natAbs < 86400

theorem weekday_le (date : Date) : date.weekday ≤ 6 := by
  unfold Date.weekday
  omega

theorem ordinal_range {date : Date} (h : date.dayOfYear < yearLength date.year) :
    1 ≤ date.ordinal ∧ date.ordinal ≤ 366 := by
  unfold yearLength at h
  unfold Date.ordinal
  split_ifs at h <;> omega

theorem isoWeek_range {date : Date} (h : date.dayOfYear < yearLength date.year) :
    (1 ≤ date.isoWeek.2 ∧ date.isoWeek.2 ≤ 53) ∧
      date.isoWeek.1.natAbs ≤ date.year.natAbs + 1 := by
  have hordinal := ordinal_range h
  have hweekday := weekday_le date
  have hweeks : ∀ year, Date.isoWeeks year = 52 ∨ Date.isoWeeks year = 53 := by
    intro year
    unfold Date.isoWeeks
    dsimp only
    split_ifs <;> simp
  have hlast := hweeks (date.year - 1)
  unfold Date.isoWeek
  dsimp only
  split_ifs <;> dsimp only <;> omega

/-- Clocks and calendars can show the moment. -/
structure IsShown (m : Moment) : Prop where
  year : m.date.year.natAbs ≤ 999999
  dayOfYear : m.date.dayOfYear < yearLength m.date.year
  secondOfDay : m.secondOfDay < 86400
  nanos : m.nanos < 2 * Instant.nanosPerSecond
  offset : m.zone.offset.natAbs < 86400

theorem isShown_ofInstant {zone : Zone} (hzone : zone.offset.natAbs < 86400) {t : Instant}
    (ht : t.Representable) (hnanos : t.nanos < 2 * Instant.nanosPerSecond) :
    (ofInstant zone t).IsShown := by
  obtain ⟨hfirst, hlast⟩ := ht
  unfold Instant.firstSecond Instant.lastSecond at *
  refine ⟨Date.natAbs_year_ofEpochDay_le (by omega), (Date.epochDay_ofEpochDay _).2, ?_, hnanos, hzone⟩
  change ((t.seconds + zone.offset) % 86400).toNat < 86400
  omega

theorem IsShown.inRange {m : Moment} (h : m.IsShown) : m.InRange := by
  obtain ⟨hyear, hlength, hseconds, hnanos, hzone⟩ := h
  unfold Instant.nanosPerSecond at hnanos
  obtain ⟨hmonth, hmonth', hday, hday'⟩ := month_day_range hlength
  have hordinal := ordinal_range hlength
  obtain ⟨hisoWeek, hisoYear⟩ := isoWeek_range hlength
  refine ⟨hyear, by omega, ?_, ⟨hmonth, hmonth'⟩, ⟨hday, hday'⟩, ?_, ?_, hisoWeek, weekday_le _,
    hordinal, ?_, ?_, ?_, ?_, ?_, ?_, hzone⟩
  · unfold Date.quarter
    omega
  · unfold Date.weekFromSunday
    omega
  · unfold Date.weekFromMonday
    omega
  · unfold Moment.hour
    omega
  · unfold Moment.hour12
    split_ifs <;> omega
  · unfold Moment.minute
    omega
  · unfold Moment.second Instant.nanosPerSecond
    omega
  · unfold Moment.fraction Instant.nanosPerSecond
    omega
  · unfold Moment.timestamp Date.epochDay daysBeforeYear epochOffset
    unfold Date.ordinal at hordinal
    omega

theorem inRange_ofInstant {zone : Zone} (hzone : zone.offset.natAbs < 86400) {t : Instant}
    (ht : t.Representable) (hnanos : t.nanos < 2 * Instant.nanosPerSecond) :
    (ofInstant zone t).InRange := (isShown_ofInstant hzone ht hnanos).inRange

end Moment

/-! ## Blanks, sign and digits -/

theorem trimStart_of_not_blank {c : Char} (h : Text.isBlank c = false) (s : List Char) :
    Text.trimStart (c :: s) = c :: s := List.dropWhile_cons_of_neg (by simp [h])

theorem isBlank_of_isDigit {c : Char} (h : c.isDigit = true) : Text.isBlank c = false := by
  have hrange : 48 ≤ c.toNat ∧ c.toNat ≤ 57 := Char.isDigit_iff_toNat.mp h
  simp only [Text.isBlank, Bool.or_eq_false_iff, Bool.and_eq_false_iff, beq_eq_false_iff_ne,
    decide_eq_false_iff_not]
  omega

/-- The text is a sign that the number can have. -/
inductive IsSign : List Char → Int → Prop where
  | none {n : Int} (h : 0 ≤ n) : IsSign [] n
  | plus {n : Int} (h : 0 ≤ n) : IsSign ['+'] n
  | minus {n : Int} (h : n < 0) : IsSign ['-'] n

theorem exists_digits (pad : Pad) (width : Nat) {sign : List Char} {n : Int}
    (hsign : IsSign sign n) :
    ∃ digits, (∀ rest, Text.trimStart (padded pad width sign n.natAbs ++ rest) =
        sign ++ (digits ++ rest)) ∧ Spells digits n.natAbs ∧ digits ≠ [] ∧
      ∀ places, width ≤ places → 0 < places → n.natAbs < 10 ^ places → digits.length ≤ places := by
  have hdecimal : decimalDigits n.natAbs ≠ [] := zeros_ne_nil 0 n.natAbs
  have hlength : ∀ places, 0 < places → n.natAbs < 10 ^ places →
      (decimalDigits n.natAbs).length ≤ places := fun places hpos h =>
    (Nat.length_toDigits_le_iff (by decide) hpos).mpr h
  have hplain := spells_zeros 0 n.natAbs
  rw [List.replicate_zero, List.nil_append] at hplain
  -- neither a sign nor a digit is blank
  have htrim : ∀ {digits}, Spells digits n.natAbs → digits ≠ [] → ∀ rest,
      Text.trimStart (sign ++ (digits ++ rest)) = sign ++ (digits ++ rest) := by
    intro digits hspells hne rest
    obtain ⟨c, tail, rfl⟩ := List.exists_cons_of_ne_nil hne
    have hc := isBlank_of_isDigit (hspells.isDigit c List.mem_cons_self)
    cases hsign with
    | none => exact trimStart_of_not_blank hc _
    | plus => exact trimStart_of_not_blank rfl _
    | minus => exact trimStart_of_not_blank rfl _
  cases pad with
  | bare =>
    refine ⟨_, fun rest => ?_, hplain, hdecimal, fun places _ hpos h => hlength places hpos h⟩
    rw [padded, List.append_assoc, htrim hplain hdecimal]
  | zero =>
    have hspells := spells_zeros (width - (sign.length + (decimalDigits n.natAbs).length)) n.natAbs
    have hne := zeros_ne_nil (width - (sign.length + (decimalDigits n.natAbs).length)) n.natAbs
    refine ⟨_, fun rest => ?_, hspells, hne, fun places hwidth hpos h => ?_⟩
    · rw [padded, List.append_assoc, htrim hspells hne]
    · have := hlength places hpos h
      rw [List.length_append, List.length_replicate]
      omega
  | space =>
    refine ⟨_, fun rest => ?_, hplain, hdecimal, fun places _ hpos h => hlength places hpos h⟩
    have hblank : ∀ c ∈ List.replicate (width - (sign.length + (decimalDigits n.natAbs).length)) ' ',
        Text.isBlank c = true := fun c hc => List.eq_of_mem_replicate hc ▸ rfl
    rw [padded, List.append_assoc, List.append_assoc, Text.trimStart,
      List.dropWhile_append_of_pos hblank]
    exact htrim hplain hdecimal rest

theorem readDigits?_of_spells {width? : Option Nat} {digits rest : List Char} {n : Nat}
    (h : Spells digits n) (hne : digits ≠ []) (hn : n ≤ Reading.maxNumber)
    (hwidth : width? = some digits.length ∨
      (∀ width, width? = some width → digits.length ≤ width) ∧ rest.head?.any Char.isDigit = false) :
    readDigits? width? (digits ++ rest) = some (n, rest) := by
  have hvalue : digits.foldl (fun n c => n * 10 + (c.toNat - 48)) 0 = n := by
    rw [← h.value, Nat.ofDigitChars]
    simp only [Nat.mul_comm 10]
    rfl
  have hall : digits.takeWhile Char.isDigit = digits := List.takeWhile_eq_self_iff.mpr h.isDigit
  unfold readDigits?
  rcases hwidth with rfl | ⟨hlength, hrest⟩
  · simp [hall, hvalue, hne, hn]
  · have hstop : ∀ k, (rest.take k).takeWhile Char.isDigit = [] := by
      intro k
      cases k <;> cases rest <;> simp_all
    cases width? with
    | none =>
      have hrest : rest.takeWhile Char.isDigit = [] := by simpa using hstop rest.length
      simp [List.takeWhile_append_of_pos h.isDigit, hrest, hvalue, hne, hn]
    | some width =>
      have hlength := hlength width rfl
      simp [List.take_append, List.take_of_length_le hlength, List.takeWhile_append_of_pos h.isDigit,
        hstop, hvalue, hne, hn]

theorem renderByte_eq_padded (pad : Pad) {n : Nat} (h : n < 100) :
    renderByte pad n = padded pad 2 [] n := by
  have hall : ∀ n < 100, renderByte .bare n = padded .bare 2 [] n ∧
      renderByte .zero n = padded .zero 2 [] n ∧ renderByte .space n = padded .space 2 [] n := by
    decide +kernel
  cases pad with
  | bare => exact (hall n h).1
  | zero => exact (hall n h).2.1
  | space => exact (hall n h).2.2

theorem byte_lt_of_isDigit (pad : Pad) {n : Nat} (hn : n < 256)
    (h : (Text.trimStart (renderByte pad n)).all Char.isDigit = true) : n < 100 := by
  have hall : ∀ n < 256, ∀ pad ∈ [Pad.bare, Pad.zero, Pad.space],
      (Text.trimStart (renderByte pad n)).all Char.isDigit = true → n < 100 := by
    decide +kernel
  exact hall n hn pad (by cases pad <;> simp) h

namespace NumericField

/-! ## Fields -/

/-- The number that a field writes. -/
def value (m : Moment) : NumericField → Int
  | year => m.date.year
  | century => centuryByte m.date.year
  | yearOfCentury => LogRouter.yearOfCentury m.date.year
  | isoYear => m.date.isoWeek.1
  | isoYearOfCentury => LogRouter.yearOfCentury m.date.isoWeek.1
  | quarter => m.date.quarter
  | month => m.date.month
  | day => m.date.day
  | weekFromSunday => m.date.weekFromSunday
  | weekFromMonday => m.date.weekFromMonday
  | isoWeek => m.date.isoWeek.2
  | weekdayFromSunday => m.date.weekdayFromSunday
  | weekdayFromMonday => m.date.weekday + 1
  | ordinal => m.date.ordinal
  | hour => m.hour
  | hour12 => m.hour12
  | minute => m.minute
  | second => m.second
  | nanosecond => m.fraction
  | timestamp => m.timestamp

theorem centuryByte_lt (year : Int) : centuryByte year < 256 := by
  unfold centuryByte
  omega

theorem yearOfCentury_lt (year : Int) : LogRouter.yearOfCentury year < 100 := by
  unfold LogRouter.yearOfCentury
  omega

/-- The places of a field: a number without a sign has no more digits. -/
def Holds (field : NumericField) (width : Nat) (n : Int) : Prop :=
  ∀ places, field.width? = some places → width ≤ places ∧ 0 < places ∧ n.natAbs < 10 ^ places

theorem holds_of_width {field : NumericField} {width places : Nat} {n : Int}
    (hplaces : field.width? = some places) (hwidth : width ≤ places) (hpos : 0 < places)
    (h : n.natAbs < 10 ^ places) : field.Holds width n := by
  intro other hother
  rw [hplaces, Option.some.injEq] at hother
  exact hother ▸ ⟨hwidth, hpos, h⟩

theorem renderYear_eq_padded {field : NumericField} (hfield : field.width? = some 4) (pad : Pad)
    (n : Int) : ∃ width sign, renderYear pad n = padded pad width sign n.natAbs ∧ IsSign sign n ∧
      (sign = [] → field.Holds width n) := by
  unfold renderYear
  split_ifs with hrange hneg
  · exact ⟨4, [], rfl, .none hrange.1, fun _ => holds_of_width hfield le_rfl (by decide) (by omega)⟩
  · exact ⟨5, ['-'], rfl, .minus hneg, nofun⟩
  · exact ⟨5, ['+'], rfl, .plus (by omega), nofun⟩

theorem render_eq_padded {m : Moment} (hm : m.InRange) (field : NumericField) (pad : Pad)
    (hcentury : field = .century → centuryByte m.date.year < 100) :
    ∃ pad' width sign, field.render m pad = padded pad' width sign (field.value m).natAbs ∧
      IsSign sign (field.value m) ∧ (sign = [] → field.Holds width (field.value m)) := by
  have hmonth := hm.month
  have hday := hm.day
  have hweekday := hm.weekday
  have hfraction := hm.fraction
  have hbyte : ∀ {field : NumericField} {n : Nat}, field.width? = some 2 → field.value m = n →
      field.render m pad = renderByte pad n → n < 100 → ∃ pad' width sign,
        field.render m pad = padded pad' width sign (field.value m).natAbs ∧
        IsSign sign (field.value m) ∧ (sign = [] → field.Holds width (field.value m)) := by
    intro field n hplaces hvalue hrender hn
    rw [hvalue, hrender]
    exact ⟨pad, 2, [], renderByte_eq_padded pad hn, .none (by omega),
      fun _ => holds_of_width hplaces le_rfl (by decide) (by omega)⟩
  have hdigit : ∀ {field : NumericField} {n : Nat}, field.width? = some 1 → field.value m = n →
      field.render m pad = decimalDigits n → n < 10 → ∃ pad' width sign,
        field.render m pad = padded pad' width sign (field.value m).natAbs ∧
        IsSign sign (field.value m) ∧ (sign = [] → field.Holds width (field.value m)) := by
    intro field n hplaces hvalue hrender hn
    rw [hvalue, hrender]
    exact ⟨.bare, 1, [], rfl, .none (by omega),
      fun _ => holds_of_width hplaces le_rfl (by decide) (by omega)⟩
  cases field with
  | year => exact ⟨pad, renderYear_eq_padded rfl pad _⟩
  | isoYear => exact ⟨pad, renderYear_eq_padded rfl pad _⟩
  | century => exact hbyte rfl rfl rfl (hcentury rfl)
  | yearOfCentury => exact hbyte rfl rfl rfl (yearOfCentury_lt _)
  | isoYearOfCentury => exact hbyte rfl rfl rfl (yearOfCentury_lt _)
  | month => exact hbyte rfl rfl rfl (by omega)
  | day => exact hbyte rfl rfl rfl (by omega)
  | weekFromSunday => exact hbyte rfl rfl rfl (hm.weekFromSunday.trans_lt (by decide))
  | weekFromMonday => exact hbyte rfl rfl rfl (hm.weekFromMonday.trans_lt (by decide))
  | isoWeek => exact hbyte rfl rfl rfl (hm.isoWeek.2.trans_lt (by decide))
  | hour => exact hbyte rfl rfl rfl (hm.hour.trans_lt (by decide))
  | hour12 => exact hbyte rfl rfl rfl (hm.hour12.2.trans_lt (by decide))
  | minute => exact hbyte rfl rfl rfl (hm.minute.trans_lt (by decide))
  | second => exact hbyte rfl rfl rfl (hm.second.trans_lt (by decide))
  | quarter => exact hdigit rfl rfl rfl (hm.quarter.2.trans_lt (by decide))
  | weekdayFromSunday => exact hdigit rfl rfl rfl (by unfold Date.weekdayFromSunday; omega)
  | weekdayFromMonday => exact hdigit (n := m.date.weekday + 1) rfl rfl rfl (by omega)
  | ordinal =>
    have hordinal := hm.ordinal
    exact ⟨pad, 3, [], rfl, .none (Int.natCast_nonneg _),
      fun _ => holds_of_width rfl le_rfl (by decide) (by simp only [value]; omega)⟩
  | nanosecond =>
    exact ⟨pad, 9, [], rfl, .none (Int.natCast_nonneg _),
      fun _ => holds_of_width rfl le_rfl (by decide) (by simp only [value]; omega)⟩
  | timestamp =>
    simp only [render, value, minus]
    split_ifs with hneg
    · exact ⟨pad, 9, ['-'], rfl, .minus hneg, fun h => absurd h (List.cons_ne_nil _ _)⟩
    · exact ⟨pad, 9, [], rfl, .none (by omega), fun _ _ h => by cases h⟩

theorem value_natAbs_le {m : Moment} (hm : m.InRange) (field : NumericField) :
    (field.value m).natAbs ≤ Reading.maxNumber := by
  obtain ⟨_, _, _, _, _, _, _, _, _, _, _, _, _, _, _, _, _⟩ := hm
  have hcentury := centuryByte_lt m.date.year
  have hyear := yearOfCentury_lt m.date.year
  have hisoYear := yearOfCentury_lt m.date.isoWeek.1
  unfold Reading.maxNumber
  cases field <;> simp only [value, Date.weekdayFromSunday] <;> omega

/-! ## Reading -/

theorem read?_of_digits {field : NumericField} {sign digits s rest : List Char} {n : Int}
    (hs : Text.trimStart s = sign ++ (digits ++ rest)) (hsign : IsSign sign n)
    (hspells : Spells digits n.natAbs) (hne : digits ≠ []) (hn : n.natAbs ≤ Reading.maxNumber)
    (hsigned : sign ≠ [] → field.signed = true)
    (hlength : sign = [] → ∀ width, field.width? = some width → digits.length ≤ width)
    (hstop : sign = [] ∧ field.width? = some digits.length ∨ rest.head?.any Char.isDigit = false) :
    field.read? s = some (n, rest) := by
  have hunlimited : sign ≠ [] → readDigits? none (digits ++ rest) = some (n.natAbs, rest) := fun h =>
    readDigits?_of_spells hspells hne hn
      (Or.inr ⟨nofun, hstop.resolve_left fun hwidth => h hwidth.1⟩)
  unfold read?
  rw [hs]
  cases hsign with
  | none hpos =>
    have hread : readDigits? field.width? (digits ++ rest) = some (n.natAbs, rest) :=
      readDigits?_of_spells hspells hne hn
        (hstop.imp And.right fun hrest => ⟨hlength rfl, hrest⟩)
    obtain ⟨c, tail, rfl⟩ := List.exists_cons_of_ne_nil hne
    have hc := hspells.isDigit c List.mem_cons_self
    have hread : (readDigits? field.width? (c :: tail ++ rest)).map
        (fun p => ((p.1 : Int), p.2)) = some (n, rest) := by
      rw [hread, Option.map_some]
      simp only [Int.natAbs_of_nonneg hpos]
    rw [List.nil_append]
    split
    · rename_i heq
      rw [(List.cons.inj heq).1] at hc
      exact absurd hc (by decide)
    · rename_i heq
      rw [(List.cons.inj heq).1] at hc
      exact absurd hc (by decide)
    · exact hread
  | plus hpos =>
    rw [hsigned (List.cons_ne_nil _ _), List.singleton_append]
    change (readDigits? none (digits ++ rest)).map _ = _
    rw [hunlimited (List.cons_ne_nil _ _), Option.map_some]
    simp only [Int.natAbs_of_nonneg hpos]
  | minus hneg =>
    rw [hsigned (List.cons_ne_nil _ _), List.singleton_append]
    change (readDigits? none (digits ++ rest)).map _ = _
    rw [hunlimited (List.cons_ne_nil _ _), Option.map_some]
    have hvalue : -(n.natAbs : Int) = n := by omega
    simp only [hvalue]

theorem read?_minus {blanks digits rest : List Char} {n : Nat}
    (hblanks : ∀ c ∈ blanks, Text.isBlank c = true) (hspells : Spells digits n) (hne : digits ≠ [])
    (hn : n ≤ Reading.maxNumber) (hrest : rest.head?.any Char.isDigit = false) :
    year.read? (blanks ++ '-' :: (digits ++ rest)) = some (-(n : Int), rest) := by
  have htrim : Text.trimStart (blanks ++ '-' :: (digits ++ rest)) = '-' :: (digits ++ rest) := by
    rw [Text.trimStart, List.dropWhile_append_of_pos hblanks]
    exact trimStart_of_not_blank rfl _
  unfold read?
  rw [htrim]
  change (readDigits? none (digits ++ rest)).map _ = _
  have hnone : ∀ width, (none : Option Nat) = some width → digits.length ≤ width := fun _ h => by cases h
  rw [readDigits?_of_spells hspells hne hn (Or.inr ⟨hnone, hrest⟩), Option.map_some]

/-- The number can be read and ends where its reading ends: it consists of digits unless its field
may have a sign, and what follows is no digit unless all places of the field are taken. -/
def standsOut (m : Moment) (pad : Pad) (tail : List Char) (field : NumericField) : Bool :=
  let text := Text.trimStart (field.render m pad)
  if text.all Char.isDigit then
    field.width? == some text.length || !tail.head?.any Char.isDigit
  else field.signed && !tail.head?.any Char.isDigit

/-- **A number that stands out** is read again, and what follows it is left over. -/
theorem read?_render {m : Moment} (hm : m.InRange) {field : NumericField} {pad : Pad}
    {s tail : List Char} (h : field.standsOut m pad tail = true)
    (hs : Text.trimStart s = Text.trimStart (field.render m pad ++ tail)) :
    field.read? s = some (field.value m, tail) := by
  have hcentury : field = .century → centuryByte m.date.year < 100 := by
    rintro rfl
    refine byte_lt_of_isDigit pad (centuryByte_lt _) ?_
    by_contra hdigits
    simp only [standsOut, render, if_neg hdigits, signed, Bool.false_and, Bool.false_eq_true] at h
  obtain ⟨pad', width, sign, hrender, hsign, hholds⟩ := render_eq_padded hm field pad hcentury
  obtain ⟨digits, htrim, hspells, hne, hlength⟩ := exists_digits pad' width hsign
  have htext : Text.trimStart (field.render m pad) = sign ++ digits := by
    have := htrim []
    rwa [List.append_nil, List.append_nil, ← hrender] at this
  rw [hrender, htrim] at hs
  unfold standsOut at h
  rw [htext] at h
  have hplaces : sign = [] → ∀ width, field.width? = some width → digits.length ≤ width := by
    intro hnone places hplaces
    obtain ⟨hwidth, hpos, hlt⟩ := hholds hnone places hplaces
    exact hlength places hwidth hpos hlt
  refine read?_of_digits hs hsign hspells hne (value_natAbs_le hm field) ?_ hplaces ?_
  all_goals
    cases hsign with
    | none =>
      have hall : ([] ++ digits).all Char.isDigit = true := List.all_eq_true.mpr hspells.isDigit
      simp_all
    | plus => simp_all [Char.isDigit]
    | minus => simp_all [Char.isDigit]

end NumericField

end LogRouter
