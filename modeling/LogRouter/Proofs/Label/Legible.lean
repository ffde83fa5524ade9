import LogRouter.Proofs.Label.Letters
import LogRouter.Proofs.Label.Words
import Mathlib.Data.List.DropRight

/-!
# Legible labels

* `Reading.Fits`: what was read is what the label of a moment says.
* `Reading.Fits.say?`: a number of the moment contradicts nothing of that.
* `Ahead`: a text, or what is left of it without the blanks in front.
* `Item.standsOut`, `legible`: every field of a label ends where its reading ends, and all
  fields tell the same nanoseconds.
* **`readsAs_of_legible`**: a legible label is read by the pattern that it was written by.
-/

namespace LogRouter

/-! ## What a label says -/

/-- What was said about a thing, if anything was, is the value. -/
def Admits (said : Option Int) (value : Int) : Prop := ∀ other ∈ said, other = value

theorem admits_self (value : Int) : Admits (some value) value := fun _ h => (Option.some.inj h).symm

namespace Reading

/-- What was read is what the label of the moment says, where its fields tell the given
nanoseconds. -/
structure Fits (r : Reading) (m : Moment) (nanos : Nat) : Prop where
  year : Admits r.year m.date.year
  century : Admits r.century (centuryByte m.date.year)
  yearOfCentury : Admits r.yearOfCentury (LogRouter.yearOfCentury m.date.year)
  isoYear : Admits r.isoYear m.date.isoWeek.1
  isoYearOfCentury : Admits r.isoYearOfCentury (LogRouter.yearOfCentury m.date.isoWeek.1)
  quarter : Admits r.quarter m.date.quarter
  month : Admits r.month m.date.month
  weekFromSunday : Admits r.weekFromSunday m.date.weekFromSunday
  weekFromMonday : Admits r.weekFromMonday m.date.weekFromMonday
  isoWeek : Admits r.isoWeek m.date.isoWeek.2
  weekday : Admits r.weekday m.date.weekday
  ordinal : Admits r.ordinal m.date.ordinal
  day : Admits r.day m.date.day
  half : Admits r.half (m.hour / 12)
  hourOfHalf : Admits r.hourOfHalf (m.hour % 12)
  minute : Admits r.minute m.minute
  second : Admits r.second m.second
  nanosecond : Admits r.nanosecond nanos
  timestamp : Admits r.timestamp m.timestamp
  offset : Admits r.offset (offsetValue m.zone.offset)

theorem fits_empty (m : Moment) (nanos : Nat) : empty.Fits m nanos := by
  constructor <;> exact fun _ h => by cases h

theorem agree?_of_admits {said : Option Int} {lo hi value : Int} (h : Admits said value)
    (hrange : lo ≤ value ∧ value ≤ hi) : agree? said lo hi value = some (some value) := by
  unfold agree?
  rw [if_pos hrange]
  cases said with
  | none => rfl
  | some other =>
    obtain rfl := h other rfl
    exact if_pos rfl

theorem exists_agree? {said : Option Int} {lo hi value : Int} {add : Option Int → Reading}
    {P : Reading → Prop} (h : Admits said value) (hrange : lo ≤ value ∧ value ≤ hi)
    (hadd : P (add (some value))) : ∃ r', (agree? said lo hi value).map add = some r' ∧ P r' :=
  ⟨_, congrArg (Option.map add) (agree?_of_admits h hrange), hadd⟩

namespace Fits

variable {r : Reading} {m : Moment} {nanos : Nat}

theorem sayMonth? (h : r.Fits m nanos) (hm : m.InRange) :
    ∃ r', r.sayMonth? m.date.month = some r' ∧ r'.Fits m nanos := by
  have hmonth := hm.month
  exact exists_agree? h.month (by omega) { h with month := admits_self _ }

theorem sayWeekday? (h : r.Fits m nanos) (hm : m.InRange) :
    ∃ r', r.sayWeekday? m.date.weekday = some r' ∧ r'.Fits m nanos := by
  have hweekday := hm.weekday
  exact exists_agree? h.weekday (by omega) { h with weekday := admits_self _ }

theorem sayHalf? (h : r.Fits m nanos) (hm : m.InRange) :
    ∃ r', r.sayHalf? (m.hour / 12) = some r' ∧ r'.Fits m nanos := by
  have hhour := hm.hour
  exact exists_agree? h.half (by omega) { h with half := admits_self _ }

theorem sayHourOfHalf? (h : r.Fits m nanos) :
    ∃ r', r.sayHourOfHalf? (m.hour % 12) = some r' ∧ r'.Fits m nanos :=
  exists_agree? h.hourOfHalf (by omega) { h with hourOfHalf := admits_self _ }

theorem sayNanosecond? (h : r.Fits m nanos) (hnanos : nanos ≤ 999999999) :
    ∃ r', r.sayNanosecond? nanos = some r' ∧ r'.Fits m nanos :=
  exists_agree? h.nanosecond (by omega) { h with nanosecond := admits_self _ }

theorem sayOffset? (h : r.Fits m nanos) (hm : m.InRange) :
    ∃ r', r.sayOffset? (offsetValue m.zone.offset) = some r' ∧ r'.Fits m nanos := by
  have hoffset := hm.offset
  have hrange : -86400 ≤ offsetValue m.zone.offset ∧ offsetValue m.zone.offset ≤ 86400 := by
    unfold offsetValue
    split_ifs <;> omega
  exact exists_agree? h.offset (by unfold yearRange; omega) { h with offset := admits_self _ }

/-- **A number of the moment** lies in the range of its field and contradicts nothing that was read
before. -/
theorem say? (h : r.Fits m nanos) (hm : m.InRange) {field : NumericField}
    (hnanos : field = .nanosecond → m.fraction = nanos) :
    ∃ r', r.say? (field.value m) field = some r' ∧ r'.Fits m nanos := by
  have hfraction := hm.fraction
  have hbyte := NumericField.centuryByte_lt m.date.year
  have hcentury := NumericField.yearOfCentury_lt m.date.year
  have hisoCentury := NumericField.yearOfCentury_lt m.date.isoWeek.1
  obtain ⟨hyear, hisoYear, hquarter, hmonth, hday, hsunday, hmonday, hweek, hweekday, hordinal,
    hhour, hhour12, hminute, hsecond, _, htimestamp, _⟩ := id hm
  have hlarge : (maxNumber : Int) = 9223372036854775807 := rfl
  cases field <;> dsimp only [NumericField.value, Reading.say?]
  case year =>
    exact exists_agree? h.year (by unfold yearRange; omega) { h with year := admits_self _ }
  case century =>
    exact exists_agree? h.century (by unfold yearRange; omega) { h with century := admits_self _ }
  case yearOfCentury =>
    exact exists_agree? h.yearOfCentury (by omega) { h with yearOfCentury := admits_self _ }
  case isoYear =>
    exact exists_agree? h.isoYear (by unfold yearRange; omega) { h with isoYear := admits_self _ }
  case isoYearOfCentury =>
    exact exists_agree? h.isoYearOfCentury (by omega) { h with isoYearOfCentury := admits_self _ }
  case quarter =>
    exact exists_agree? h.quarter (by omega) { h with quarter := admits_self _ }
  case month => exact h.sayMonth? hm
  case day => exact exists_agree? h.day (by omega) { h with day := admits_self _ }
  case weekFromSunday =>
    exact exists_agree? h.weekFromSunday (by omega) { h with weekFromSunday := admits_self _ }
  case weekFromMonday =>
    exact exists_agree? h.weekFromMonday (by omega) { h with weekFromMonday := admits_self _ }
  case isoWeek =>
    exact exists_agree? h.isoWeek (by omega) { h with isoWeek := admits_self _ }
  case weekdayFromSunday =>
    -- from Sunday on, the number is one more, around the week
    have hback : ((m.date.weekdayFromSunday : Int) + 6) % 7 = m.date.weekday := by
      unfold Date.weekdayFromSunday
      omega
    have hvalue : 0 ≤ (m.date.weekdayFromSunday : Int) ∧
        (m.date.weekdayFromSunday : Int) ≤ 6 := by
      unfold Date.weekdayFromSunday
      omega
    rw [if_pos hvalue, hback]
    exact h.sayWeekday? hm
  case weekdayFromMonday =>
    rw [Int.add_sub_cancel]
    exact h.sayWeekday? hm
  case ordinal =>
    exact exists_agree? h.ordinal (by omega) { h with ordinal := admits_self _ }
  case hour =>
    have hvalue : 0 ≤ (m.hour : Int) ∧ (m.hour : Int) ≤ 23 := by omega
    obtain ⟨r₁, hhalf, h₁⟩ := h.sayHalf? hm
    obtain ⟨r₂, hrest, h₂⟩ := h₁.sayHourOfHalf?
    refine ⟨r₂, ?_, h₂⟩
    rw [if_pos hvalue, hhalf, Option.bind_some, hrest]
  case hour12 =>
    have hvalue : 1 ≤ (m.hour12 : Int) ∧ (m.hour12 : Int) ≤ 12 := by omega
    have hdial : (m.hour12 : Int) % 12 = m.hour % 12 := by
      unfold Moment.hour12
      split_ifs <;> omega
    rw [if_pos hvalue, hdial]
    exact h.sayHourOfHalf?
  case minute => exact exists_agree? h.minute (by omega) { h with minute := admits_self _ }
  case second => exact exists_agree? h.second (by omega) { h with second := admits_self _ }
  case nanosecond =>
    rw [hnanos rfl]
    exact h.sayNanosecond? (hnanos rfl ▸ hfraction)
  case timestamp =>
    exact exists_agree? h.timestamp (by omega) { h with timestamp := admits_self _ }

end Fits

end Reading

/-! ## Where a text stands -/

/-- What is read is the text, or what is left of it without the blanks in front. -/
def Ahead (s text : List Char) : Prop := s = text ∨ s = Text.trimStart text

theorem Ahead.trimStart_eq {s text : List Char} (h : Ahead s text) :
    Text.trimStart s = Text.trimStart text := by
  rcases h with rfl | rfl
  · rfl
  · exact List.dropWhile_idempotent _ _

theorem Ahead.eq {s text : List Char} (h : Ahead s text) (hplain : StartsPlain text) : s = text := by
  rcases h with rfl | rfl
  · rfl
  · exact hplain.trimStart_eq

/-! ## Legible labels -/

/-- The text can be read and ends where its reading ends. Places as many as needed must not run into
digits, nor a missing point into another one; the name of a zone is read up to a blank; an offset is
read with hours and minutes. -/
def TextField.standsOut (m : Moment) (tail : List Char) : TextField → Bool
  | .fraction .asNeeded =>
    if m.fraction = 0 then (Text.trimStart tail).head? != some '.' else !tail.head?.any Char.isDigit
  | .bareFraction .asNeeded => !tail.head?.any Char.isDigit
  | .zoneName => tail.head?.all Text.isBlank
  | .offset style => style == .joined || style == .minutes
  | _ => true

/-- What the item writes can be read and ends where its reading ends. -/
def Item.standsOut (m : Moment) (tail : List Char) : Item → Bool
  | .numeric field pad => field.standsOut m pad tail
  | .word field => field.standsOut m tail
  | _ => true

/-- The nanoseconds that an item tells. -/
def Item.nanos? (m : Moment) : Item → Option Nat
  | .numeric .nanosecond _ => some m.fraction
  | .word (.fraction precision) =>
    if precision = .asNeeded ∧ m.fraction = 0 then none else some (precision.kept m.fraction)
  | .word (.bareFraction precision) => some (precision.kept m.fraction)
  | .word .full => if m.fraction = 0 then none else some m.fraction
  | _ => none

/-- Every item can be read and ends where its reading ends. -/
def allStandOut (m : Moment) : List Item → Bool
  | [] => true
  | item :: items =>
    item.standsOut m ((renderItems? m items).getD []) && allStandOut m items

/-- The items tell the same nanoseconds. -/
def sameNanos (m : Moment) (items : List Item) : Bool :=
  match items.filterMap (Item.nanos? m) with
  | [] => true
  | nanos :: others => others.all (· == nanos)

/-- The label of a moment is legible: every item can be read and ends where its reading ends, and
the items tell the same nanoseconds. -/
def legible (m : Moment) (items : List Item) : Bool := allStandOut m items && sameNanos m items

theorem Item.nanos?_le {m : Moment} (hm : m.InRange) {item : Item} {nanos : Nat}
    (h : item.nanos? m = some nanos) : nanos ≤ 999999999 := by
  have hkept := fun precision : Precision => (precision.kept_le m.fraction).trans hm.fraction
  unfold nanos? at h
  split at h
  · exact Option.some.inj h ▸ hm.fraction
  · split_ifs at h
    exact Option.some.inj h ▸ hkept _
  · exact Option.some.inj h ▸ hkept _
  · split_ifs at h
    exact Option.some.inj h ▸ hm.fraction
  · cases h

theorem exists_nanos_of_sameNanos {m : Moment} {items : List Item} (hm : m.InRange)
    (h : sameNanos m items = true) : ∃ nanos ≤ 999999999, ∀ item ∈ items,
      ∀ other ∈ item.nanos? m, other = nanos := by
  have hmem : ∀ {item : Item} {other : Nat}, item ∈ items → item.nanos? m = some other →
      other ∈ items.filterMap (Item.nanos? m) := fun hitem hother =>
    List.mem_filterMap.mpr ⟨_, hitem, hother⟩
  unfold sameNanos at h
  split at h
  · rename_i hnone
    refine ⟨0, Nat.zero_le _, fun item hitem other hother => ?_⟩
    have := hmem hitem hother
    rw [hnone] at this
    cases this
  · rename_i nanos others hsome
    have hnanos : nanos ∈ items.filterMap (Item.nanos? m) := hsome ▸ List.mem_cons_self
    obtain ⟨item, _, hitem⟩ := List.mem_filterMap.mp hnanos
    refine ⟨nanos, Item.nanos?_le hm hitem, fun item hitem other hother => ?_⟩
    have := hmem hitem hother
    rw [hsome] at this
    rcases List.mem_cons.mp this with heq | hrest
    · exact heq
    · exact beq_iff_eq.mp (List.all_eq_true.mp h other hrest)

/-! ## Reading items -/

section Reading

variable {m : Moment} {nanos : Nat} {r : Reading} {s tail : List Char}

theorem readNumeric?_render (hm : m.InRange) (hr : r.Fits m nanos) (field : NumericField)
    (hnanos : field = .nanosecond → m.fraction = nanos) :
    ∃ r', r'.Fits m nanos ∧ ∀ pad {s tail}, field.standsOut m pad tail = true →
      Ahead s (field.render m pad ++ tail) → readNumeric? r s field = some (r', tail) := by
  obtain ⟨r', hsay, hr'⟩ := hr.say? hm hnanos
  refine ⟨r', hr', fun pad s tail hout hs => ?_⟩
  unfold readNumeric?
  rw [NumericField.read?_render hm hout hs.trimStart_eq]
  simp [hsay]

theorem readPointed?_renderFraction (hm : m.InRange) (hr : r.Fits m nanos) {precision : Precision}
    (hout : (TextField.fraction precision).standsOut m tail = true)
    (hnanos : ∀ other ∈ (Item.word (.fraction precision)).nanos? m, other = nanos)
    (hlimit : nanos ≤ 999999999) (hs : Ahead s (renderFraction m.fraction precision ++ tail)) :
    ∃ r' s', readPointed? r s precision = some (r', s') ∧ r'.Fits m nanos ∧ Ahead s' tail := by
  unfold renderFraction at hs
  split_ifs at hs with hnone
  · -- no places are needed, and no point follows that could be taken for one
    obtain ⟨rfl, hzero⟩ := hnone
    simp only [TextField.standsOut, if_pos hzero, bne_iff_ne, ne_eq] at hout
    refine ⟨r, s, ?_, hr, hs⟩
    unfold readPointed?
    split
    · rename_i rest
      have hpoint : Text.trimStart ('.' :: rest) = '.' :: rest := trimStart_of_not_blank rfl _
      rw [List.nil_append] at hs
      rw [← hs.trimStart_eq, hpoint] at hout
      exact absurd rfl hout
    · rfl
  · have hs : s = '.' :: (renderPlaces m.fraction precision ++ tail) :=
      hs.eq ⟨'.', _, rfl, rfl⟩
    have hdigit : precision = .asNeeded → tail.head?.any Char.isDigit = false := by
      rintro rfl
      have hzero : m.fraction ≠ 0 := fun hzero => hnone ⟨rfl, hzero⟩
      simpa only [TextField.standsOut, if_neg hzero, Bool.not_eq_true'] using hout
    have hread := precision.read?_renderPlaces hm.fraction hdigit
    have hkept : precision.kept m.fraction = nanos := by
      refine hnanos _ ?_
      simp only [Item.nanos?, if_neg hnone]
      rfl
    obtain ⟨r', hsay, hr'⟩ := hr.sayNanosecond? hlimit
    refine ⟨r', tail, ?_, hr', Or.inl rfl⟩
    rw [hs]
    unfold readPointed?
    simp [hread, hkept, hsay]

theorem NumericField.standsOut_of_signed {field : NumericField} {pad : Pad}
    (hsigned : field.signed = true) (htail : tail.head?.any Char.isDigit = false) :
    field.standsOut m pad tail = true := by
  unfold standsOut
  dsimp only
  split_ifs <;> simp [hsigned, htail]

theorem NumericField.standsOut_byte {field : NumericField} {n : Nat} (hwidth : field.width? = some 2)
    (hrender : field.render m .zero = renderByte .zero n) (hn : n < 100) :
    field.standsOut m .zero tail = true := by
  have hspells := spells_renderByte hn
  have htrim : Text.trimStart (renderByte .zero n) = renderByte .zero n :=
    trimStart_of_not_blank (isBlank_of_isDigit (hspells.isDigit _ List.mem_cons_self)) _
  unfold standsOut
  rw [hrender, htrim]
  simp [List.all_eq_true.mpr hspells.isDigit, hwidth, length_renderByte]

theorem readMark?_cons {mark : Char} (hmark : Text.isBlank mark = false) (rest : List Char) :
    readMark? mark (mark :: rest) = some rest := by
  unfold readMark?
  rw [trimStart_of_not_blank hmark]
  exact if_pos rfl

theorem readNumeric?_zeroPadded (hm : m.InRange) (hr : r.Fits m nanos) (field : NumericField)
    {n : Nat} (hwidth : field.width? = some 2) (hrender : field.render m .zero = renderByte .zero n)
    (hn : n < 100) : ∃ r', r'.Fits m nanos ∧
      ∀ rest, readNumeric? r (zeroPadded 2 n ++ rest) field = some (r', rest) := by
  have hfield : field ≠ .nanosecond := by
    rintro rfl
    cases hwidth
  obtain ⟨r', hr', hread⟩ := readNumeric?_render hm hr field fun h => absurd h hfield
  refine ⟨r', hr', fun rest => ?_⟩
  rw [zeroPadded_two hn, ← hrender]
  exact hread .zero (NumericField.standsOut_byte hwidth hrender hn) (Or.inl rfl)

theorem readFull?_renderFull (hm : m.InRange) (hr : r.Fits m nanos)
    (hnanos : ∀ other ∈ (Item.word .full).nanos? m, other = nanos) (hlimit : nanos ≤ 999999999)
    (tail : List Char) :
    ∃ r', readFull? r (renderFull m ++ tail) = some (r', tail) ∧ r'.Fits m nanos := by
  have hlt : ∀ {n places : Nat}, n ≤ places → places < 100 → n < 100 := fun h h' => h.trans_lt h'
  obtain ⟨r₁, h₁, hyear⟩ := readNumeric?_render hm hr .year nofun
  have hyear : ∀ rest, readNumeric? r (renderYear .zero m.date.year ++ '-' :: rest) .year =
      some (r₁, '-' :: rest) := fun rest =>
    hyear .zero (NumericField.standsOut_of_signed rfl rfl) (Or.inl rfl)
  obtain ⟨r₂, h₂, hmonth⟩ :=
    readNumeric?_zeroPadded hm h₁ .month rfl rfl (hlt hm.month.2 (by decide))
  obtain ⟨r₃, h₃, hday⟩ :=
    readNumeric?_zeroPadded hm h₂ .day rfl rfl (hlt hm.day.2 (by decide))
  obtain ⟨r₄, h₄, hhour⟩ :=
    readNumeric?_zeroPadded hm h₃ .hour rfl rfl (hlt hm.hour (by decide))
  obtain ⟨r₅, h₅, hminute⟩ :=
    readNumeric?_zeroPadded hm h₄ .minute rfl rfl (hlt hm.minute (by decide))
  obtain ⟨r₆, h₆, hsecond⟩ :=
    readNumeric?_zeroPadded hm h₅ .second rfl rfl (hlt hm.second (by decide))
  -- what follows the seconds starts with a point or the sign of the offset
  obtain ⟨sign, digits, hoffset, hsign, hread⟩ :=
    readOffset?_renderOffset? hm.offset (Or.inr rfl) true
  have hplain : StartsPlain (sign :: digits ++ tail) := by
    refine ⟨sign, digits ++ tail, rfl, ?_⟩
    rcases hsign with rfl | rfl <;> rfl
  have hout : (TextField.fraction .asNeeded).standsOut m (sign :: digits ++ tail) = true := by
    unfold TextField.standsOut
    rw [hplain.trimStart_eq]
    rcases hsign with rfl | rfl <;> split_ifs <;> rfl
  have hfraction : ∀ other ∈ (Item.word (.fraction .asNeeded)).nanos? m, other = nanos := by
    simpa [Item.nanos?, Precision.kept] using hnanos
  obtain ⟨r₇, s₇, hpoint, h₇, hahead⟩ :=
    readPointed?_renderFraction hm h₆ hout hfraction hlimit (Or.inl rfl)
  obtain rfl := hahead.eq hplain
  have hword : afterWord? ['u', 't', 'c'] (sign :: digits ++ tail) = none := by
    rcases hsign with rfl | rfl <;> rfl
  obtain ⟨r₈, hsay, h₈⟩ := h₇.sayOffset? hm
  refine ⟨r₈, ?_, h₈⟩
  have htext : renderFull m ++ tail = renderYear .zero m.date.year ++
      '-' :: (zeroPadded 2 m.date.month ++ '-' :: (zeroPadded 2 m.date.day ++
      'T' :: (zeroPadded 2 m.hour ++ ':' :: (zeroPadded 2 m.minute ++
      ':' :: (zeroPadded 2 m.second ++ (renderFraction m.fraction .asNeeded ++
      (sign :: digits ++ tail))))))) := by
    simp [renderFull, hoffset]
  rw [htext]
  unfold readFull?
  simp only [hyear, hmonth, hday, hhour, hminute, hsecond, hpoint, hword, hplain.trimStart_eq, hread,
    hsay, readMark?_cons (show Text.isBlank '-' = false from rfl),
    readMark?_cons (show Text.isBlank ':' = false from rfl), Option.bind_eq_bind, Option.bind_some,
    true_or, if_true, Option.pure_def]

/-- **A text field** that stands out is read. -/
theorem TextField.read?_render {field : TextField} {text : List Char} (hm : m.InRange)
    (hr : r.Fits m nanos) (htext : field.render? m = some text)
    (hout : field.standsOut m tail = true)
    (hnanos : ∀ other ∈ (Item.word field).nanos? m, other = nanos) (hlimit : nanos ≤ 999999999)
    (hs : Ahead s (text ++ tail)) :
    ∃ r' s', field.read? r s = some (r', s') ∧ r'.Fits m nanos ∧ Ahead s' tail := by
  have hmonth : m.date.month - 1 < monthNames.length := by
    have hlength : monthNames.length = 12 := rfl
    have := hm.month
    omega
  have hback : ((m.date.month - 1 : Nat) : Int) + 1 = m.date.month := by
    have := hm.month
    omega
  have hhalf : (m.hour : Int) / 12 = if m.isAfternoon then 1 else 0 := by
    have := hm.hour
    unfold Moment.isAfternoon
    simp only [decide_eq_true_eq]
    split_ifs <;> omega
  have hweekday : m.date.weekday < weekdayNames.length := Nat.lt_succ_of_le hm.weekday
  obtain ⟨hshortMonth, hlongMonth⟩ := startsPlain_name (Or.inl rfl) hmonth
  obtain ⟨hshortDay, hlongDay⟩ := startsPlain_name (Or.inr rfl) hweekday
  cases field with
  | shortMonth =>
    obtain rfl := Option.some.inj htext
    obtain ⟨r', hsay, hr'⟩ := hr.sayMonth? hm
    refine ⟨r', tail, ?_, hr', Or.inl rfl⟩
    rw [hs.eq (hshortMonth.append tail)]
    simp [read?, readName?_short toldApart_monthNames hmonth, hback, hsay]
  | longMonth =>
    obtain rfl := Option.some.inj htext
    obtain ⟨r', hsay, hr'⟩ := hr.sayMonth? hm
    refine ⟨r', tail, ?_, hr', Or.inl rfl⟩
    rw [hs.eq (hlongMonth.append tail)]
    simp [read?, readName?_long toldApart_monthNames hmonth, hback, hsay]
  | shortWeekday =>
    obtain rfl := Option.some.inj htext
    obtain ⟨r', hsay, hr'⟩ := hr.sayWeekday? hm
    refine ⟨r', tail, ?_, hr', Or.inl rfl⟩
    rw [hs.eq (hshortDay.append tail)]
    simp [read?, readName?_short toldApart_weekdayNames hweekday, hsay]
  | longWeekday =>
    obtain rfl := Option.some.inj htext
    obtain ⟨r', hsay, hr'⟩ := hr.sayWeekday? hm
    refine ⟨r', tail, ?_, hr', Or.inl rfl⟩
    rw [hs.eq (hlongDay.append tail)]
    simp [read?, readName?_long toldApart_weekdayNames hweekday, hsay]
  | lowerHalf | upperHalf =>
    obtain rfl := Option.some.inj htext
    obtain ⟨r', hsay, hr'⟩ := hr.sayHalf? hm
    refine ⟨r', tail, ?_, hr', Or.inl rfl⟩
    rw [hhalf] at hsay
    cases hafternoon : m.isAfternoon <;> rw [hafternoon] at hs hsay <;>
      rw [hs.eq ⟨_, _, rfl, rfl⟩]
    · exact congrArg (Option.map fun r => (r, tail)) hsay
    · exact congrArg (Option.map fun r => (r, tail)) hsay
  | fraction precision =>
    obtain rfl := Option.some.inj htext
    exact readPointed?_renderFraction hm hr hout hnanos hlimit hs
  | bareFraction precision =>
    obtain rfl := Option.some.inj htext
    have hplain := startsPlain_renderPlaces m.fraction precision
    have hdigit : precision = .asNeeded → tail.head?.any Char.isDigit = false := by
      rintro rfl
      simpa only [standsOut, Bool.not_eq_true'] using hout
    have hkept : precision.kept m.fraction = nanos := hnanos _ rfl
    obtain ⟨r', hsay, hr'⟩ := hr.sayNanosecond? hlimit
    refine ⟨r', tail, ?_, hr', Or.inl rfl⟩
    rw [hs.eq (hplain.append tail)]
    simp [read?, precision.read?_renderPlaces hm.fraction hdigit, hkept, hsay]
  | zoneName =>
    obtain rfl := Option.some.inj htext
    obtain ⟨hplain, hblank⟩ := not_blank_of_mem_name m.zone
    have hskip : ∀ c ∈ m.zone.name, (!Text.isBlank c) = true := fun c hc => by rw [hblank c hc]; rfl
    have htail : tail.dropWhile (fun c => !Text.isBlank c) = tail := by
      cases tail with
      | nil => rfl
      | cons c rest => exact List.dropWhile_cons_of_neg (by simpa [standsOut] using hout)
    refine ⟨r, tail, ?_, hr, Or.inl rfl⟩
    rw [hs.eq (hplain.append tail), read?, List.dropWhile_append_of_pos hskip, htail]
  | offset style =>
    have hstyle : style = .joined ∨ style = .minutes := by
      simpa [standsOut] using hout
    have hpermissive : (style == .permissive) = false := by
      rcases hstyle with rfl | rfl <;> rfl
    obtain ⟨sign, digits, hoffset, hsign, hread⟩ := readOffset?_renderOffset? hm.offset hstyle false
    have htext : sign :: digits = text := Option.some.inj (hoffset.symm.trans htext)
    have hplain : StartsPlain (sign :: digits ++ tail) := by
      refine ⟨sign, digits ++ tail, rfl, ?_⟩
      rcases hsign with rfl | rfl <;> rfl
    obtain ⟨r', hsay, hr'⟩ := hr.sayOffset? hm
    refine ⟨r', tail, ?_, hr', Or.inl rfl⟩
    rw [← htext] at hs
    rw [hs.eq hplain]
    simp only [read?, hpermissive, hplain.trimStart_eq, hread, Option.bind_eq_bind, Option.bind_some,
      hsay, Option.pure_def]
  | full =>
    obtain rfl := Option.some.inj htext
    obtain ⟨r', hread, hr'⟩ := readFull?_renderFull hm hr hnanos hlimit tail
    refine ⟨r', tail, ?_, hr', Or.inl rfl⟩
    rw [hs.eq (((startsPlain_renderYear m.date.year).append _).append tail)]
    exact hread

/-- **An item** that stands out is read. -/
theorem Item.read?_render {item : Item} {text : List Char} (hm : m.InRange) (hr : r.Fits m nanos)
    (hproper : item.isProper = true) (htext : item.render? m = some text)
    (hout : item.standsOut m tail = true) (hnanos : ∀ other ∈ item.nanos? m, other = nanos)
    (hlimit : nanos ≤ 999999999) (hs : Ahead s (text ++ tail)) :
    ∃ r' s', item.read? r s = some (r', s') ∧ r'.Fits m nanos ∧ Ahead s' tail := by
  cases item with
  | literal literal =>
    obtain rfl := Option.some.inj htext
    have hplain : StartsPlain literal := by
      cases literal with
      | nil => cases hproper
      | cons c rest => exact ⟨c, rest, rfl, by simpa [isProper] using hproper⟩
    refine ⟨r, tail, ?_, hr, Or.inl rfl⟩
    have hprefix : literal.isPrefixOf (literal ++ tail) = true :=
      List.isPrefixOf_iff_prefix.mpr (List.prefix_append _ _)
    rw [hs.eq (hplain.append tail), read?, if_pos hprefix, List.drop_left]
  | blanks blanks =>
    obtain rfl := Option.some.inj htext
    refine ⟨r, Text.trimStart s, rfl, hr, Or.inr ?_⟩
    rw [hs.trimStart_eq]
    exact List.dropWhile_append_of_pos (List.all_eq_true.mp hproper)
  | numeric field pad =>
    obtain rfl := Option.some.inj htext
    obtain ⟨r', hr', hread⟩ := readNumeric?_render hm hr field fun h => by
      subst h
      exact hnanos _ rfl
    exact ⟨r', tail, hread pad hout hs, hr', Or.inl rfl⟩
  | word field => exact TextField.read?_render hm hr htext hout hnanos hlimit hs

/-- **What is written by items** that stand out is read by them. -/
theorem readItems?_render (hm : m.InRange) (hlimit : nanos ≤ 999999999) :
    ∀ {items : List Item} {text : List Char}, items.all Item.isProper = true →
      renderItems? m items = some text → allStandOut m items = true →
      (∀ item ∈ items, ∀ other ∈ item.nanos? m, other = nanos) →
      ∀ {r s}, r.Fits m nanos → Ahead s text → ∃ r', readItems? r s items = some (r', [])
  | [], text, _, htext, _, _, r, s, _, hs => by
    obtain rfl := Option.some.inj htext
    have hnil : s = [] := hs.elim id id
    exact ⟨r, by rw [hnil, readItems?]⟩
  | item :: items, text, hproper, htext, hout, hnanos, r, s, hr, hs => by
    obtain ⟨head, tail, hhead, htail, rfl⟩ := renderItems?_cons htext
    rw [List.all_cons, Bool.and_eq_true] at hproper
    rw [allStandOut, htail, Option.getD_some, Bool.and_eq_true] at hout
    obtain ⟨r', s', hread, hr', hs'⟩ := Item.read?_render hm hr hproper.1 hhead hout.1
      (hnanos item List.mem_cons_self) hlimit hs
    obtain ⟨r'', hrest⟩ := readItems?_render hm hlimit hproper.2 htail hout.2
      (fun other hother => hnanos other (List.mem_cons_of_mem _ hother)) hr' hs'
    refine ⟨r'', ?_⟩
    rw [readItems?, hread]
    exact hrest

end Reading

/-- **A legible label** is read by the pattern that it was written by. -/
theorem readsAs_of_legible {m : Moment} (hm : m.InRange) {items : List Item} {text : List Char}
    (hproper : items.all Item.isProper = true) (htext : renderItems? m items = some text)
    (h : legible m items = true) : readsAs items text = true := by
  unfold legible at h
  rw [Bool.and_eq_true] at h
  obtain ⟨nanos, hlimit, hnanos⟩ := exists_nanos_of_sameNanos hm h.2
  obtain ⟨r', hread⟩ := readItems?_render hm hlimit hproper htext h.1 hnanos
    (Reading.fits_empty m nanos) (Or.inl rfl)
  unfold readsAs
  rw [hread]
  rfl

end LogRouter
