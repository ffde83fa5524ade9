import LogRouter.Proofs.Label.Accepted

/-!
# The unit of a pattern

The unit of a pattern is found by a scan for letters, but its labels are written from its items.

* `BucketUnit.Agrees`: two moments agree on the fields of a unit and of the coarser ones.
* `Item.unit?`: the finest unit that an item changes at. Moments that agree on it have the same text
  for the item (`Item.render?_congr`).
* `BucketUnit.changesAt?`: the finest unit that the field of a letter changes at. The scan knows it for
  all letters but `v`, which stands for a whole date, and `q`, the quarter.
* `Grouped`, `grouped_parse?`: the items of a pattern are the fields of the letters that are scanned, in
  their order, with literal text in between.
* **`TimePattern.constant_within_unit_iff`**: a label is the same throughout the unit of its pattern,
  unless the pattern has a `v` and a unit above a day, or a `q` and the unit of a year.
-/

namespace LogRouter

/-! ## Agreement of moments -/

namespace BucketUnit

/-- The moments agree on the fields that belong to the unit itself. -/
def SameFields (a b : Moment) : BucketUnit → Prop
  | year => a.date.year = b.date.year ∧ a.date.isoWeek.1 = b.date.isoWeek.1
  | month => a.date.month = b.date.month
  | week => a.date.weekFromSunday = b.date.weekFromSunday ∧
      a.date.weekFromMonday = b.date.weekFromMonday ∧ a.date.isoWeek.2 = b.date.isoWeek.2
  | day => a.date = b.date
  | hour => a.hour = b.hour
  | minute => a.minute = b.minute
  | second => a.second = b.second

/-- The moments agree on the fields of the unit and of all coarser units. -/
def Agrees (unit : BucketUnit) (a b : Moment) : Prop :=
  ∀ coarser : BucketUnit, unit.rank ≤ coarser.rank → SameFields a b coarser

/-- All units, the finest first. -/
def all : List BucketUnit := [second, minute, hour, day, week, month, year]

theorem mem_all (unit : BucketUnit) : unit ∈ all := by cases unit <;> decide

instance (a b : Moment) : (unit : BucketUnit) → Decidable (SameFields a b unit)
  | year => inferInstanceAs (Decidable (_ ∧ _))
  | month => inferInstanceAs (Decidable (_ = _))
  | week => inferInstanceAs (Decidable (_ ∧ _ ∧ _))
  | day => inferInstanceAs (Decidable (_ = _))
  | hour => inferInstanceAs (Decidable (_ = _))
  | minute => inferInstanceAs (Decidable (_ = _))
  | second => inferInstanceAs (Decidable (_ = _))

instance (unit : BucketUnit) (a b : Moment) : Decidable (unit.Agrees a b) :=
  decidable_of_iff (∀ coarser ∈ all, unit.rank ≤ coarser.rank → SameFields a b coarser)
    ⟨fun h coarser => h coarser (mem_all coarser), fun h coarser _ => h coarser⟩

theorem Agrees.mono {unit unit' : BucketUnit} {a b : Moment} (h : unit.Agrees a b)
    (hle : unit.rank ≤ unit'.rank) : unit'.Agrees a b :=
  fun coarser hcoarser => h coarser (hle.trans hcoarser)

end BucketUnit

/-! ## Units of items -/

/-- The finest unit that a number changes at. -/
def NumericField.unit : NumericField → BucketUnit
  | year | century | yearOfCentury | isoYear | isoYearOfCentury => .year
  | quarter | month => .month
  | weekFromSunday | weekFromMonday | isoWeek => .week
  | day | weekdayFromSunday | weekdayFromMonday | ordinal => .day
  | hour | hour12 => .hour
  | minute => .minute
  | second | nanosecond | timestamp => .second

/-- The finest unit that a text changes at. The name and the offset of a fixed zone do not change. -/
def TextField.unit? : TextField → Option BucketUnit
  | shortMonth | longMonth => some .month
  | shortWeekday | longWeekday => some .day
  | lowerHalf | upperHalf => some .hour
  | fraction _ | bareFraction _ | full => some .second
  | zoneName | offset _ => none

/-- The finest unit that an item changes at. -/
def Item.unit? : Item → Option BucketUnit
  | literal _ | blanks _ => none
  | numeric field _ => some field.unit
  | word field => field.unit?

theorem NumericField.render_congr {a b : Moment} {field : NumericField} (pad : Pad)
    (h : field.unit.Agrees a b) (hne : field.unit ≠ .second) :
    field.render a pad = field.render b pad := by
  have hyear := h .year (by cases field <;> decide)
  have hown := h field.unit le_rfl
  cases field <;> simp only [unit, BucketUnit.SameFields, ne_eq, not_true] at hown hyear hne
  case year | century | yearOfCentury | isoYear | isoYearOfCentury =>
    simp only [render, hyear.1, hyear.2]
  case quarter | month => simp only [render, Date.quarter, hown]
  case weekFromSunday | weekFromMonday | isoWeek => simp only [render, hown.1, hown.2.1, hown.2.2]
  case day | weekdayFromSunday | weekdayFromMonday | ordinal => simp only [render, hown]
  case hour | hour12 | minute => simp only [render, Moment.hour12, hown]

theorem TextField.render?_congr {a b : Moment} {field : TextField} (hzone : a.zone = b.zone)
    (h : ∀ unit, field.unit? = some unit → unit.Agrees a b ∧ unit ≠ .second) :
    field.render? a = field.render? b := by
  cases field
  case shortMonth | longMonth =>
    have hmonth : a.date.month = b.date.month := (h .month rfl).1 .month le_rfl
    simp only [render?, hmonth]
  case shortWeekday | longWeekday =>
    have hday : a.date = b.date := (h .day rfl).1 .day le_rfl
    simp only [render?, hday]
  case lowerHalf | upperHalf =>
    have hhour : a.hour = b.hour := (h .hour rfl).1 .hour le_rfl
    have hhalf : a.isAfternoon = b.isAfternoon := congrArg (fun n => decide (12 ≤ n)) hhour
    simp only [render?, hhalf]
  case fraction | bareFraction | full => exact absurd rfl (h .second rfl).2
  case zoneName | offset => simp only [render?, hzone]

/-- **Moments that agree on the unit of an item** have the same text for it. -/
theorem Item.render?_congr {a b : Moment} {item : Item} (hzone : a.zone = b.zone)
    (h : ∀ unit, item.unit? = some unit → unit.Agrees a b ∧ unit ≠ .second) :
    item.render? a = item.render? b := by
  cases item with
  | literal text => rfl
  | blanks text => rfl
  | numeric field pad =>
    have hfield := h field.unit rfl
    exact congrArg some (NumericField.render_congr pad hfield.1 hfield.2)
  | word field => exact TextField.render?_congr hzone h

/-! ## Letters -/

namespace BucketUnit

/-- The finest unit that the field of a letter changes at. -/
def changesAt? (letter : Char) : Option BucketUnit :=
  if letter = 'v' then some day else if letter = 'q' then some month else ofLetter? letter

theorem changesAt?_of_ne {letter : Char} (hv : letter ≠ 'v') (hq : letter ≠ 'q') :
    changesAt? letter = ofLetter? letter := by
  rw [changesAt?, if_neg hv, if_neg hq]

theorem letters_cons_of_ne {c : Char} (hc : c ≠ '%') (s : List Char) :
    letters false (c :: s) = letters false s := by
  rw [letters, if_neg Bool.false_ne_true, beq_eq_false_iff_ne.mpr hc]

theorem letters_dropWhile {p : Char → Bool} (hp : p '%' = false) : ∀ s : List Char,
    letters false (s.dropWhile p) = letters false s
  | [] => rfl
  | c :: s => by
    cases hc : p c with
    | false => rw [List.dropWhile_cons_of_neg (by simp [hc])]
    | true =>
      have hne : c ≠ '%' := by
        rintro rfl
        rw [hp] at hc
        cases hc
      rw [List.dropWhile_cons_of_pos hc, letters_dropWhile hp s, letters_cons_of_ne hne]

theorem letters_append : ∀ {marks : List Char} {c : Char} (s : List Char),
    marks.all isModifier = true → isModifier c = false →
      letters true (marks ++ c :: s) = c :: letters false s
  | [], c, s, _, hc => by simp [letters, hc]
  | mark :: marks, c, s, hmarks, hc => by
    rw [List.all_cons, Bool.and_eq_true] at hmarks
    simp [letters, hmarks.1, letters_append s hmarks.2 hc]

theorem finer_rank (a b : BucketUnit) :
    (a.finer b).rank ≤ a.rank ∧ (a.finer b).rank ≤ b.rank := by
  unfold finer
  split_ifs <;> omega

theorem foldl_finer_rank : ∀ (units : List BucketUnit) (first : BucketUnit),
    ∀ unit ∈ first :: units, (units.foldl finer first).rank ≤ unit.rank
  | [], first, unit, h => by rw [List.mem_singleton.mp h, List.foldl_nil]
  | next :: units, first, unit, h => by
    have ih := foldl_finer_rank units (first.finer next)
    have hfirst := ih _ List.mem_cons_self
    have hrank := finer_rank first next
    rw [List.foldl_cons]
    rcases List.mem_cons.mp h with rfl | h
    · omega
    · rcases List.mem_cons.mp h with rfl | h
      · omega
      · exact ih unit (List.mem_cons_of_mem _ h)

/-- **The scan takes the finest unit** of the letters that it knows. -/
theorem ofPattern_rank_le {s : List Char} {c : Char} {unit : BucketUnit} (hc : c ∈ letters false s)
    (hunit : ofLetter? c = some unit) : (ofPattern s).rank ≤ unit.rank := by
  have hmem : unit ∈ (letters false s).filterMap ofLetter? :=
    List.mem_filterMap.mpr ⟨c, hc, hunit⟩
  unfold ofPattern
  cases hunits : (letters false s).filterMap ofLetter? with
  | nil =>
    rw [hunits] at hmem
    cases hmem
  | cons first units => exact foldl_finer_rank units first unit (hunits ▸ hmem)

end BucketUnit

/-! ## Fields and their letters -/

namespace Item

/-- The items of the letter `v`. -/
def wholeDate : List Item :=
  [spaced .day, .literal ['-'], .word .shortMonth, .literal ['-'], zeroed .year]

/-- The items are a quarter alone. -/
def isQuarter : List Item → Bool
  | [.numeric .quarter _] => true
  | _ => false

/-- The items make up a field with the letter. -/
structure FieldOf (letter : Char) (items : List Item) : Prop where
  unit : ∀ item ∈ items, ∀ unit ∈ item.unit?,
    ∃ finest ∈ BucketUnit.changesAt? letter, finest.rank ≤ unit.rank
  wholeDate : letter = 'v' → items = wholeDate
  isQuarter : letter = 'q' → isQuarter items = true

theorem fieldOf_ofLetter? {c : Char} {items : List Item} (h : ofLetter? c = some items) :
    BucketUnit.isModifier c = false ∧ FieldOf c items := by
  suffices BucketUnit.isModifier c = false ∧
      (∀ item ∈ items, ∀ unit ∈ item.unit?,
        ∃ finest ∈ BucketUnit.changesAt? c, finest.rank ≤ unit.rank) ∧
      (c = 'v' → items = wholeDate) ∧ (c = 'q' → isQuarter items = true) from
    ⟨this.1, this.2.1, this.2.2.1, this.2.2.2⟩
  unfold ofLetter? at h
  split at h <;> cases h <;> decide

theorem fieldOf_field? {s rest : List Char} {items : List Item} (h : field? s = some (items, rest)) :
    ∃ marks c, s = marks ++ c :: rest ∧ marks.all BucketUnit.isModifier = true ∧
      BucketUnit.isModifier c = false ∧ FieldOf c items := by
  have hoffset : ∀ style, FieldOf 'z' [.word (.offset style)] := fun style =>
    ⟨by simp [unit?, TextField.unit?], nofun, nofun⟩
  have hsecond : ∀ field : TextField, field.unit? = some .second → FieldOf 'f' [.word field] :=
    fun field hfield => ⟨by simp [unit?, hfield]; decide, nofun, nofun⟩
  have hdigit : ∀ {d : Char} {p : Precision}, precision? d = some p →
      BucketUnit.isModifier d = true := by
    intro d p hd
    unfold precision? at hd
    split at hd <;> first | rfl | cases hd
  unfold field? at h
  split at h
  case h_1 =>
    obtain ⟨rfl, rfl⟩ := Prod.mk.inj (Option.some.inj h)
    exact ⟨[':', ':', ':'], 'z', rfl, rfl, rfl, hoffset _⟩
  case h_2 =>
    obtain ⟨rfl, rfl⟩ := Prod.mk.inj (Option.some.inj h)
    exact ⟨[':', ':'], 'z', rfl, rfl, rfl, hoffset _⟩
  case h_3 =>
    obtain ⟨rfl, rfl⟩ := Prod.mk.inj (Option.some.inj h)
    exact ⟨[':'], 'z', rfl, rfl, rfl, hoffset _⟩
  case h_4 =>
    obtain ⟨rfl, rfl⟩ := Prod.mk.inj (Option.some.inj h)
    exact ⟨['.'], 'f', rfl, rfl, rfl, hsecond _ rfl⟩
  case h_5 d _ _ =>
    obtain ⟨p, hp, heq⟩ := Option.map_eq_some_iff.mp h
    obtain ⟨rfl, rfl⟩ := Prod.mk.inj heq
    exact ⟨['.', d], 'f', rfl, by simp [hdigit hp]; rfl, rfl, hsecond _ rfl⟩
  case h_6 d _ _ _ _ _ _ =>
    split at h
    case h_1 =>
      rename_i hp _ _ _ _ _
      obtain ⟨rfl, rfl⟩ := Prod.mk.inj (Option.some.inj h)
      exact ⟨[d], 'f', rfl, by simp [hdigit hp], rfl, hsecond _ rfl⟩
    case h_2 => cases h
    case h_3 =>
      obtain ⟨found, hfound, heq⟩ := Option.map_eq_some_iff.mp h
      obtain ⟨rfl, rfl⟩ := Prod.mk.inj heq
      obtain ⟨hletter, hfield⟩ := fieldOf_ofLetter? hfound
      exact ⟨[], d, rfl, rfl, hletter, hfield⟩
  case h_7 => cases h

theorem fieldOf_marked? {s rest : List Char} {items : List Item}
    (h : marked? s = some (items, rest)) :
    ∃ marks c, s = marks ++ c :: rest ∧ marks.all BucketUnit.isModifier = true ∧
      BucketUnit.isModifier c = false ∧ FieldOf c items := by
  unfold marked? at h
  split at h
  case h_1 =>
    obtain ⟨rfl, rfl⟩ := Prod.mk.inj (Option.some.inj h)
    exact ⟨['#'], 'z', rfl, rfl, rfl, by simp [unit?, TextField.unit?], nofun, nofun⟩
  case h_2 => cases h
  case h_3 mark tail _ _ =>
    split at h
    case h_1 => exact fieldOf_field? h
    case h_2 pad hpad =>
      split at h
      case h_2 => cases h
      case h_1 field unpadded tail' hfield =>
        obtain ⟨rfl, rfl⟩ := Prod.mk.inj (Option.some.inj h)
        obtain ⟨marks, c, rfl, hmarks, hc, hof⟩ := fieldOf_field? hfield
        have hmark : BucketUnit.isModifier mark = true := by
          unfold padMark? at hpad
          split at hpad <;> first | rfl | cases hpad
        refine ⟨mark :: marks, c, rfl, by simp [hmark, hmarks], hc, ?_, ?_, ?_⟩
        · simpa [unit?] using hof.unit
        · exact fun hv => absurd (hof.wholeDate hv) nofun
        · exact fun hq => by
            have := hof.isQuarter hq
            cases field <;> first | rfl | cases this
  case h_4 => cases h

/-- The items are the fields of the letters in their order, with literal text in between. -/
inductive Grouped : List Char → List Item → Prop
  | nil : Grouped [] []
  | plain {letters : List Char} {items : List Item} (item : Item) (hplain : item.unit? = none)
      (hrest : Grouped letters items) : Grouped letters (item :: items)
  | field {letters : List Char} {items : List Item} {letter : Char} {part : List Item}
      (hpart : FieldOf letter part) (hrest : Grouped letters items) :
      Grouped (letter :: letters) (part ++ items)

/-- **The scan finds the letters of a pattern.** -/
theorem grouped_parse? (s : List Char) {items : List Item} (h : parse? s = some items) :
    Grouped (BucketUnit.letters false s) items := by
  fun_induction parse? s generalizing items with
  | case1 =>
    rw [← Option.some.inj h]
    exact .nil
  | case2 => cases h
  | case3 rest part rest' hmarked ih =>
    obtain ⟨more, hmore, rfl⟩ := Option.map_eq_some_iff.mp h
    obtain ⟨marks, c, rfl, hmarks, hc, hpart⟩ := fieldOf_marked? hmarked
    have hletters : BucketUnit.letters false ('%' :: (marks ++ c :: rest')) =
        c :: BucketUnit.letters false rest' := BucketUnit.letters_append rest' hmarks hc
    rw [hletters]
    exact .field hpart (ih hmore)
  | case4 c rest hne hblank ih =>
    obtain ⟨more, hmore, rfl⟩ := Option.map_eq_some_iff.mp h
    have hrest := ih hmore
    rw [BucketUnit.letters_dropWhile rfl] at hrest
    rw [BucketUnit.letters_cons_of_ne hne]
    exact .plain _ rfl hrest
  | case5 c rest hne _ ih =>
    obtain ⟨more, hmore, rfl⟩ := Option.map_eq_some_iff.mp h
    have hrest := ih hmore
    rw [BucketUnit.letters_dropWhile rfl] at hrest
    rw [BucketUnit.letters_cons_of_ne hne]
    exact .plain _ rfl hrest

theorem Grouped.exists_letter {letters : List Char} {items : List Item} (h : Grouped letters items)
    {item : Item} (hitem : item ∈ items) :
    item.unit? = none ∨ ∃ letter ∈ letters, ∃ part, FieldOf letter part ∧ item ∈ part := by
  induction h with
  | nil => cases hitem
  | plain other hplain _ ih =>
    rcases List.mem_cons.mp hitem with rfl | hitem
    · exact Or.inl hplain
    · exact ih hitem
  | @field letters items letter part hpart _ ih =>
    rcases List.mem_append.mp hitem with hitem | hitem
    · exact Or.inr ⟨letter, List.mem_cons_self, part, hpart, hitem⟩
    · rcases ih hitem with hplain | ⟨other, hother, hfield⟩
      · exact Or.inl hplain
      · exact Or.inr ⟨other, List.mem_cons_of_mem _ hother, hfield⟩

theorem Grouped.exists_part {letters : List Char} {items : List Item} (h : Grouped letters items)
    {letter : Char} (hletter : letter ∈ letters) :
    ∃ part, FieldOf letter part ∧ ∀ item ∈ part, item ∈ items := by
  induction h with
  | nil => cases hletter
  | plain other _ _ ih =>
    obtain ⟨part, hpart, hmem⟩ := ih hletter
    exact ⟨part, hpart, fun item hitem => List.mem_cons_of_mem _ (hmem item hitem)⟩
  | @field letters items other part hpart _ ih =>
    rcases List.mem_cons.mp hletter with rfl | hletter
    · exact ⟨part, hpart, fun item hitem => List.mem_append_left _ hitem⟩
    · obtain ⟨found, hfound, hmem⟩ := ih hletter
      exact ⟨found, hfound, fun item hitem => List.mem_append_right _ (hmem item hitem)⟩

end Item

/-! ## Equal and different labels -/

theorem renderItems?_congr {a b : Moment} : ∀ {items : List Item},
    (∀ item ∈ items, item.render? a = item.render? b) → renderItems? a items = renderItems? b items
  | [], _ => rfl
  | item :: items, h => by
    rw [renderItems?, renderItems?, h item List.mem_cons_self,
      renderItems?_congr fun other hother => h other (List.mem_cons_of_mem _ hother)]

theorem render?_eq_of_renderItems?_eq {a b : Moment} {label : List Char} : ∀ {items : List Item},
    (∀ item ∈ items, (item.render? a).map List.length = (item.render? b).map List.length) →
    renderItems? a items = some label → renderItems? b items = some label →
      ∀ item ∈ items, item.render? a = item.render? b
  | [], _, _, _, _, hitem => nomatch hitem
  | first :: items, hlengths, ha, hb, item, hitem => by
    obtain ⟨text, tail, hfirst, htail, hlabel⟩ := renderItems?_cons ha
    obtain ⟨text', tail', hfirst', htail', hlabel'⟩ := renderItems?_cons hb
    have hlength : text.length = text'.length := by
      simpa [hfirst, hfirst'] using hlengths first List.mem_cons_self
    obtain ⟨rfl, rfl⟩ := List.append_inj (hlabel.symm.trans hlabel') hlength
    rcases List.mem_cons.mp hitem with rfl | hitem
    · rw [hfirst, hfirst']
    · exact render?_eq_of_renderItems?_eq
        (fun other hother => hlengths other (List.mem_cons_of_mem _ hother)) htail htail' item hitem

/-! ## Noons -/

/-- Noon of the day `n`, where clocks are the given distance from universal time. -/
def noon (offset n : Int) : Instant := ⟨n * 86400 + 43200 - offset, 0⟩

theorem ofInstant_noon (offset : Int) {n : Int} {date : Date} (hdate : Date.ofEpochDay n = date) :
    Moment.ofInstant (.fixed offset) (noon offset n) = ⟨date, 43200, 0, .fixed offset⟩ := by
  have hseconds : n * 86400 + 43200 - offset + offset = 43200 + n * 86400 := by omega
  simp only [Moment.ofInstant, noon, Zone.offset, hseconds, Moment.mk.injEq, and_true, ← hdate]
  exact ⟨congrArg _ (by omega), by omega⟩

theorem noon_representable {offset n : Int} (hoffset : offset.natAbs < 86400) (hn : n.natAbs < 86400) :
    (noon offset n).Representable := by
  simp only [Instant.Representable, noon, Instant.firstSecond, Instant.lastSecond]
  omega

theorem days_of_one_week : ∃ a b, Date.ofEpochDay 20095 = a ∧ Date.ofEpochDay 20096 = b ∧
    a.year = b.year ∧ a.month = b.month ∧ a.isoWeek = b.isoWeek ∧
    a.weekFromSunday = b.weekFromSunday ∧ a.weekFromMonday = b.weekFromMonday ∧
    a.day = 7 ∧ b.day = 8 :=
  ⟨⟨2025, 6⟩, ⟨2025, 7⟩, by decide +kernel⟩

theorem days_of_one_year : ∃ a b, Date.ofEpochDay 20095 = a ∧ Date.ofEpochDay 20185 = b ∧
    a.year = b.year ∧ a.isoWeek.1 = b.isoWeek.1 ∧ a.month = 1 ∧ b.month = 4 :=
  ⟨⟨2025, 6⟩, ⟨2025, 96⟩, by decide +kernel⟩

theorem length_wholeDate {a b : Moment} (hyear : a.date.year = b.date.year)
    (hmonth : (shortName monthNames (a.date.month - 1)).length =
      (shortName monthNames (b.date.month - 1)).length) :
    ∀ item ∈ Item.wholeDate,
      (item.render? a).map List.length = (item.render? b).map List.length := by
  simp only [Item.wholeDate, List.forall_mem_cons]
  refine ⟨rfl, rfl, congrArg some hmonth, rfl, ?_, nofun⟩
  simp only [Item.zeroed, Item.render?, NumericField.render, hyear]

/-! ## Labels within a unit -/

namespace TimePattern

variable {text : String} {pattern : TimePattern}

theorem grouped_of_accepted (h : ofString text = .ok pattern) :
    Item.Grouped (BucketUnit.letters false text.toList) pattern.items :=
  Item.grouped_parse? _ (ofString_eq_ok_iff.mp h).2.2.1

theorem unit_rank_le (h : ofString text = .ok pattern) {c : Char} {unit : BucketUnit}
    (hc : c ∈ BucketUnit.letters false text.toList) (hunit : BucketUnit.ofLetter? c = some unit) :
    pattern.unit.rank ≤ unit.rank := by
  rw [TimePattern.unit, (ofString_eq_ok_iff.mp h).2.1]
  exact BucketUnit.ofPattern_rank_le hc hunit

section Fields

variable {a b : Moment} (hzone : a.zone = b.zone) (hagrees : pattern.unit.Agrees a b)
  (hsecond : pattern.unit ≠ .second)
include hzone hagrees hsecond

theorem render?_of_fieldOf {c : Char} {part : List Item} (hpart : Item.FieldOf c part)
    (hunit : ∀ unit, BucketUnit.changesAt? c = some unit → pattern.unit.rank ≤ unit.rank)
    {item : Item} (hitem : item ∈ part) : item.render? a = item.render? b := by
  refine Item.render?_congr hzone fun unit hitemUnit => ?_
  obtain ⟨finest, hfinest, hle⟩ := hpart.unit item hitem unit hitemUnit
  have hrank := (hunit finest hfinest).trans hle
  refine ⟨hagrees.mono hrank, ?_⟩
  rintro rfl
  have hzero : pattern.unit.rank = 0 := Nat.le_zero.mp hrank
  exact hsecond (by cases hu : pattern.unit <;> simp [hu, BucketUnit.rank] at hzero ⊢)

/-- Where no letter is missed, **the labels of moments that agree on the unit are equal**. -/
theorem label_congr (h : ofString text = .ok pattern)
    (hunit : ∀ c ∈ BucketUnit.letters false text.toList, ∀ unit,
      BucketUnit.changesAt? c = some unit → pattern.unit.rank ≤ unit.rank) :
    pattern.label a = pattern.label b := by
  unfold label
  rw [renderItems?_congr fun item hitem => ?_]
  rcases (grouped_of_accepted h).exists_letter hitem with hplain | ⟨c, hc, part, hpart, hmem⟩
  · exact Item.render?_congr hzone fun unit hunit => by rw [hplain] at hunit; cases hunit
  · exact render?_of_fieldOf hzone hagrees hsecond hpart (hunit c hc) hmem

theorem label_ne (h : ofString text = .ok pattern)
    (hdate : ∀ item ∈ Item.wholeDate,
      (item.render? a).map List.length = (item.render? b).map List.length)
    (hquarter : (decimalDigits a.date.quarter).length = (decimalDigits b.date.quarter).length)
    {c : Char} (hc : c ∈ BucketUnit.letters false text.toList)
    (hne : ∀ part, Item.FieldOf c part → ∃ item ∈ part, item.render? a ≠ item.render? b) :
    pattern.label a ≠ pattern.label b := by
  intro heq
  obtain ⟨part, hpart, hpartMem⟩ := (grouped_of_accepted h).exists_part hc
  obtain ⟨item, hitem, hitemNe⟩ := hne part hpart
  have hb := (label_of_accepted h b).1
  rw [← heq] at hb
  refine hitemNe (render?_eq_of_renderItems?_eq (fun other hother => ?_)
    (label_of_accepted h a).1 hb item (hpartMem item hitem))
  rcases (grouped_of_accepted h).exists_letter hother with hplain | ⟨d, hd, part', hpart', hmem⟩
  · rw [Item.render?_congr hzone fun unit hunit => by rw [hplain] at hunit; cases hunit]
  · by_cases hv : d = 'v'
    · rw [hpart'.wholeDate hv] at hmem
      exact hdate other hmem
    · by_cases hq : d = 'q'
      · have hisQuarter := hpart'.isQuarter hq
        unfold Item.isQuarter at hisQuarter
        split at hisQuarter
        · rw [List.mem_singleton.mp hmem]
          exact congrArg some hquarter
        · cases hisQuarter
      · rw [render?_of_fieldOf hzone hagrees hsecond hpart' (fun unit hunit => ?_) hmem]
        rw [BucketUnit.changesAt?_of_ne hv hq] at hunit
        exact unit_rank_le h hd hunit

end Fields

/-- Two noons that agree on the unit of the pattern have different labels. -/
def ChangesBetweenNoons (pattern : TimePattern) (offset : Int) : Prop :=
  ∃ n n' : Int, n.natAbs < 86400 ∧ n'.natAbs < 86400 ∧
    pattern.unit.Agrees (.ofInstant (.fixed offset) (noon offset n))
      (.ofInstant (.fixed offset) (noon offset n')) ∧
    pattern.label (.ofInstant (.fixed offset) (noon offset n)) ≠
      pattern.label (.ofInstant (.fixed offset) (noon offset n'))

theorem changes_of_v (h : ofString text = .ok pattern) (offset : Int)
    (hv : 'v' ∈ BucketUnit.letters false text.toList) (hcoarse : BucketUnit.day.rank < pattern.unit.rank) :
    pattern.ChangesBetweenNoons offset := by
  obtain ⟨a, b, ha, hb, hyear, hmonth, hiso, hsunday, hmonday, hday, hday'⟩ := days_of_one_week
  refine ⟨20095, 20096, by decide, by decide, ?_⟩
  rw [ofInstant_noon offset ha, ofInstant_noon offset hb]
  have hagrees : pattern.unit.Agrees ⟨a, 43200, 0, .fixed offset⟩ ⟨b, 43200, 0, .fixed offset⟩ := by
    intro coarser hle
    have hrank := hcoarse.trans_le hle
    cases coarser <;> simp only [BucketUnit.rank, Nat.reduceLT] at hrank
    case week => exact ⟨hsunday, hmonday, congrArg Prod.snd hiso⟩
    case month => exact hmonth
    case year => exact ⟨hyear, congrArg Prod.fst hiso⟩
  have hsecond : pattern.unit ≠ .second := fun hunit => by
    rw [hunit] at hcoarse
    exact absurd hcoarse (by decide)
  refine ⟨hagrees, label_ne rfl hagrees hsecond h (length_wholeDate hyear ?_) ?_ hv fun part hpart => ?_⟩
  · simp only [hmonth]
  · simp only [Date.quarter, hmonth]
  · rw [hpart.wholeDate rfl]
    refine ⟨.spaced .day, List.mem_cons_self, ?_⟩
    simp only [Item.spaced, Item.render?, NumericField.render, hday, hday']
    decide

theorem changes_of_q (h : ofString text = .ok pattern) (offset : Int)
    (hq : 'q' ∈ BucketUnit.letters false text.toList) (hunit : pattern.unit = .year) :
    pattern.ChangesBetweenNoons offset := by
  obtain ⟨a, b, ha, hb, hyear, hiso, hmonth, hmonth'⟩ := days_of_one_year
  refine ⟨20095, 20185, by decide, by decide, ?_⟩
  rw [ofInstant_noon offset ha, ofInstant_noon offset hb]
  have hagrees : pattern.unit.Agrees ⟨a, 43200, 0, .fixed offset⟩ ⟨b, 43200, 0, .fixed offset⟩ := by
    intro coarser hle
    rw [hunit] at hle
    cases coarser <;> simp only [BucketUnit.rank, Nat.reduceLeDiff] at hle
    exact ⟨hyear, hiso⟩
  have hsecond : pattern.unit ≠ .second := by rw [hunit]; decide
  refine ⟨hagrees, label_ne rfl hagrees hsecond h (length_wholeDate hyear ?_) ?_ hq fun part hpart => ?_⟩
  · simp only [hmonth, hmonth']
    decide
  · simp only [Date.quarter, hmonth, hmonth']
    decide
  · have hisQuarter := hpart.isQuarter rfl
    unfold Item.isQuarter at hisQuarter
    split at hisQuarter
    · refine ⟨_, List.mem_cons_self, ?_⟩
      simp only [Item.render?, NumericField.render, Date.quarter, hmonth, hmonth']
      decide
    · cases hisQuarter

/-- **A label is the same throughout the unit of its pattern**, if the unit is above a second, exactly
if the scan misses no letter that matters: `v` stands for a date, which changes every day, and `q`
for the quarter, which changes with the month. -/
theorem constant_within_unit_iff (h : ofString text = .ok pattern) (hsecond : pattern.unit ≠ .second)
    {offset : Int} (hoffset : offset.natAbs < 86400) :
    (∀ t t' : Instant, t.Representable → t'.Representable → t.nanos < 2 * Instant.nanosPerSecond →
        t'.nanos < 2 * Instant.nanosPerSecond →
        pattern.unit.Agrees (.ofInstant (.fixed offset) t) (.ofInstant (.fixed offset) t') →
        pattern.label (.ofInstant (.fixed offset) t) =
          pattern.label (.ofInstant (.fixed offset) t')) ↔
      ('v' ∈ BucketUnit.letters false text.toList → pattern.unit.rank ≤ BucketUnit.day.rank) ∧
      ('q' ∈ BucketUnit.letters false text.toList → pattern.unit ≠ .year) := by
  constructor
  · intro hall
    have hnoons : ¬ pattern.ChangesBetweenNoons offset := by
      rintro ⟨n, n', hn, hn', hagrees, hne⟩
      exact hne (hall _ _ (noon_representable hoffset hn) (noon_representable hoffset hn')
        (Nat.zero_lt_succ _) (Nat.zero_lt_succ _) hagrees)
    refine ⟨fun hv => ?_, fun hq hunit => hnoons (changes_of_q h offset hq hunit)⟩
    exact Nat.le_of_not_lt fun hcoarse => hnoons (changes_of_v h offset hv hcoarse)
  · rintro ⟨hv, hq⟩ t t' - - - - hagrees
    refine label_congr rfl hagrees hsecond h fun c hc unit hunit => ?_
    unfold BucketUnit.changesAt? at hunit
    split_ifs at hunit with hcv hcq
    · rw [← Option.some.inj hunit]
      exact hv (hcv ▸ hc)
    · rw [← Option.some.inj hunit]
      have hne := hq (hcq ▸ hc)
      cases hu : pattern.unit <;> first | decide | exact absurd hu hne
    · exact unit_rank_le h hc hunit

/-- Where there is an hour, neither the whole date nor the quarter is missed: the label stays the same up
to the leap second at the end of the hour. -/
theorem constant_within_hour : ∃ pattern, ofString "%v-%q-%H:30" = .ok pattern ∧
    pattern.unit ≠ .second ∧ (19800 : Int).natAbs < 86400 ∧
    pattern.label (.ofInstant (.fixed 19800) ⟨1735830245, 0⟩) =
      pattern.label (.ofInstant (.fixed 19800) ⟨1735831799, 1999999999⟩) := by
  have hok : ofString "%v-%q-%H:30" = .ok ⟨"%v-%q-%H:30", [.spaced .day, .literal ['-'],
      .word .shortMonth, .literal ['-'], .zeroed .year, .literal ['-'], .numeric .quarter .bare,
      .literal ['-'], .zeroed .hour, .literal [':', '3', '0']]⟩ := by decide +kernel
  have hunit : BucketUnit.ofPattern "%v-%q-%H:30".toList = .hour := by decide +kernel
  refine ⟨_, hok, by rw [unit, hunit]; decide, by decide, ?_⟩
  refine (constant_within_unit_iff hok (by rw [unit, hunit]; decide) (by decide)).mpr
    ⟨fun _ => ?_, fun _ => ?_⟩ _ _ (by decide) (by decide) (by decide) (by decide) ?_
  · rw [unit, hunit]
    decide
  · rw [unit, hunit]
    decide
  · rw [unit, hunit]
    decide +kernel

/-- `%v` is a whole date, but the unit of `%Y-%v` is the year: the label changes from a day to the
next. -/
theorem changes_within_year : ∃ pattern, ofString "%Y-%v" = .ok pattern ∧ pattern.unit = .year ∧
    BucketUnit.year.Agrees (.ofInstant (.fixed 19800) ⟨1735830245, 0⟩)
      (.ofInstant (.fixed 19800) ⟨1735916645, 0⟩) ∧
    pattern.label (.ofInstant (.fixed 19800) ⟨1735830245, 0⟩) ≠
      pattern.label (.ofInstant (.fixed 19800) ⟨1735916645, 0⟩) := by
  have hok : ofString "%Y-%v" = .ok ⟨"%Y-%v", [.zeroed .year, .literal ['-'], .spaced .day,
      .literal ['-'], .word .shortMonth, .literal ['-'], .zeroed .year]⟩ := by decide +kernel
  exact ⟨_, hok, by decide +kernel, by decide +kernel, by decide +kernel⟩

end TimePattern

end LogRouter
