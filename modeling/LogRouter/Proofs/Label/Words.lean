import LogRouter.Proofs.Label.Numbers

/-!
# Words of labels

* `StartsPlain`: the text starts with a character that is not blank.
* `readName?_shortName`: the name of a month or a day of the week is read as its number.
* `Precision.kept`: the nanoseconds that the places of a precision tell;
  `Precision.read?_renderPlaces` says that they are read.
* `offsetValue`: the seconds that an offset tells; `readOffset?_renderOffset?` says that they are
  read.
* `not_blank_of_mem_name`: there is no blank in the name of a zone.
-/

namespace LogRouter

/-! ## Starts of texts -/

/-- The text starts with a character that is not blank. -/
def StartsPlain (text : List Char) : Prop := ∃ c rest, text = c :: rest ∧ Text.isBlank c = false

theorem StartsPlain.trimStart_eq {text : List Char} (h : StartsPlain text) :
    Text.trimStart text = text := by
  obtain ⟨c, rest, rfl, hc⟩ := h
  exact trimStart_of_not_blank hc _

theorem StartsPlain.append {text : List Char} (h : StartsPlain text) (rest : List Char) :
    StartsPlain (text ++ rest) := by
  obtain ⟨c, tail, rfl, hc⟩ := h
  exact ⟨c, tail ++ rest, rfl, hc⟩

theorem startsPlain_of_spells {digits : List Char} {n : Nat} (h : Spells digits n)
    (hne : digits ≠ []) : StartsPlain digits := by
  obtain ⟨c, rest, rfl⟩ := List.exists_cons_of_ne_nil hne
  exact ⟨c, rest, rfl, isBlank_of_isDigit (h.isDigit c List.mem_cons_self)⟩

theorem startsPlain_zeroPadded (width n : Nat) : StartsPlain (zeroPadded width n) :=
  startsPlain_of_spells (spells_zeros _ n) (zeros_ne_nil _ n)

theorem startsPlain_renderYear (year : Int) : StartsPlain (renderYear .zero year) := by
  obtain ⟨sign, digits, heq, hspells, hne, hsign⟩ := renderYear_spec year
  rw [heq]
  rcases hsign with ⟨rfl, _⟩ | ⟨rfl, _⟩ | ⟨rfl, _⟩
  · exact startsPlain_of_spells hspells hne
  · exact ⟨'-', digits, rfl, rfl⟩
  · exact ⟨'+', digits, rfl, rfl⟩

/-! ## Names -/

theorem afterWord?_append : ∀ word rest, afterWord? word (word ++ rest) = some rest
  | [], _ => rfl
  | c :: word, rest => by
    rw [List.cons_append, afterWord?, if_pos rfl]
    exact afterWord?_append word rest

theorem afterWord?_eq_none : ∀ {word other : List Char}, word.length = other.length →
    word.map Char.toLower ≠ other.map Char.toLower → ∀ rest, afterWord? word (other ++ rest) = none
  | [], [], _, hne, _ => absurd rfl hne
  | c :: word, d :: other, hlength, hne, rest => by
    rw [List.cons_append, afterWord?]
    split_ifs with hsame
    · refine afterWord?_eq_none (Nat.succ.inj hlength) (fun hrest => hne ?_) rest
      rw [List.map_cons, List.map_cons, hsame, hrest]
    · rfl

/-- The names are told apart by their first three letters in any case. -/
structure ToldApart (names : List String) : Prop where
  length : ∀ name ∈ names, (name.toList.take 3).length = 3
  distinct : names.Pairwise fun a b =>
    (a.toList.take 3).map Char.toLower ≠ (b.toList.take 3).map Char.toLower

theorem readName?_shortName {long : Bool} {rest : List Char} : ∀ {names : List String},
    ToldApart names → ∀ {i : Nat}, i < names.length → ∀ start,
      readName? long (shortName names i ++ rest) start names = some (start + i,
        if long then (afterWord? ((longName names i).drop 3) rest).getD rest else rest)
  | name :: names, _, 0, _, start => by
    have hfirst : shortName (name :: names) 0 = name.toList.take 3 := rfl
    rw [readName?, hfirst, afterWord?_append]
    cases long <;> rfl
  | name :: names, h, i + 1, hi, start => by
    have hi : i < names.length := Nat.lt_of_succ_lt_succ hi
    have hother : shortName (name :: names) (i + 1) = names[i].toList.take 3 := by
      simp [shortName, longName, hi]
    have hnone : afterWord? (name.toList.take 3) (shortName (name :: names) (i + 1) ++ rest) = none := by
      rw [hother]
      refine afterWord?_eq_none ?_ ((List.pairwise_cons.mp h.distinct).1 _ (List.getElem_mem hi)) rest
      rw [h.length _ List.mem_cons_self, h.length _ (List.mem_cons_of_mem _ (List.getElem_mem hi))]
    have htail : ToldApart names := ⟨fun other hmem => h.length _ (List.mem_cons_of_mem _ hmem),
      (List.pairwise_cons.mp h.distinct).2⟩
    rw [readName?, hnone, ← Nat.add_assoc, Nat.add_right_comm]
    exact readName?_shortName htail hi (start + 1)

theorem toldApart_monthNames : ToldApart monthNames := ⟨by decide +kernel, by decide +kernel⟩

theorem toldApart_weekdayNames : ToldApart weekdayNames := ⟨by decide +kernel, by decide +kernel⟩

theorem readName?_short {names : List String} (h : ToldApart names) {i : Nat} (hi : i < names.length)
    (rest : List Char) : readName? false (shortName names i ++ rest) 0 names = some (i, rest) := by
  rw [readName?_shortName h hi, Nat.zero_add]
  rfl

theorem readName?_long {names : List String} (h : ToldApart names) {i : Nat} (hi : i < names.length)
    (rest : List Char) : readName? true (longName names i ++ rest) 0 names = some (i, rest) := by
  have hsplit : longName names i ++ rest = shortName names i ++ ((longName names i).drop 3 ++ rest) := by
    rw [shortName, ← List.append_assoc, List.take_append_drop]
  rw [hsplit, readName?_shortName h hi, Nat.zero_add, if_pos rfl, afterWord?_append]
  rfl

theorem startsPlain_name {names : List String} (h : names = monthNames ∨ names = weekdayNames)
    {i : Nat} (hi : i < names.length) :
    StartsPlain (shortName names i) ∧ StartsPlain (longName names i) := by
  have hmonths : ∀ i < 12, (longName monthNames i).head?.any (!Text.isBlank ·) = true := by
    decide +kernel
  have hdays : ∀ i < 7, (longName weekdayNames i).head?.any (!Text.isBlank ·) = true := by
    decide +kernel
  have hfirst : (longName names i).head?.any (!Text.isBlank ·) = true := by
    rcases h with rfl | rfl
    · exact hmonths i hi
    · exact hdays i hi
  unfold shortName
  cases hlong : longName names i with
  | nil =>
    rw [hlong] at hfirst
    cases hfirst
  | cons c rest =>
    have hblank : Text.isBlank c = false := by simpa [hlong] using hfirst
    exact ⟨⟨c, rest.take 2, rfl, hblank⟩, c, rest, rfl, hblank⟩

/-! ## Places behind the point -/

/-- The nanoseconds that the places of a precision tell. -/
def Precision.kept (nanos : Nat) : Precision → Nat
  | .asNeeded | .nano => nanos
  | .milli => nanos / 1000000 * 1000000
  | .micro => nanos / 1000 * 1000

theorem Precision.kept_le (nanos : Nat) (precision : Precision) : precision.kept nanos ≤ nanos := by
  cases precision <;> simp only [kept] <;> omega

theorem readDigits?_zeroPadded {places n : Nat} (hpos : 0 < places) (hplaces : places ≤ 9)
    (h : n < 10 ^ places) {width : Nat} (hwidth : places ≤ width) {rest : List Char}
    (hrest : places = width ∨ rest.head?.any Char.isDigit = false) :
    readDigits? (some width) (zeroPadded places n ++ rest) = some (n, rest) := by
  have hlength := length_zeroPadded hpos h
  have hlarge : n ≤ Reading.maxNumber :=
    (h.trans_le (Nat.pow_le_pow_right (by decide) hplaces)).le.trans (by decide)
  refine readDigits?_of_spells (spells_zeros _ n) (List.ne_nil_of_length_pos (by omega)) hlarge ?_
  exact hrest.imp (fun heq => congrArg some (heq.symm.trans hlength.symm))
    fun hstop => ⟨fun w hw => by rw [← Option.some.inj hw]; exact hlength.trans_le hwidth, hstop⟩

theorem readPlaces?_zeroPadded {places n : Nat} (hpos : 0 < places) (hplaces : places ≤ 9)
    (h : n < 10 ^ places) (rest : List Char) :
    readPlaces? places (zeroPadded places n ++ rest) = some (n * 10 ^ (9 - places), rest) := by
  simp [readPlaces?, readDigits?_zeroPadded hpos hplaces h le_rfl (Or.inl rfl),
    length_zeroPadded hpos h]

theorem readFraction?_zeroPadded {places n : Nat} (hpos : 0 < places) (hplaces : places ≤ 9)
    (h : n < 10 ^ places) {rest : List Char} (hrest : rest.head?.any Char.isDigit = false) :
    readFraction? (zeroPadded places n ++ rest) = some (n * 10 ^ (9 - places), rest) := by
  have hdrop : rest.dropWhile Char.isDigit = rest := by
    cases rest with
    | nil => rfl
    | cons c rest => exact List.dropWhile_cons_of_neg (by simpa using hrest)
  simp [readFraction?, readDigits?_zeroPadded hpos hplaces h hplaces (Or.inr hrest),
    length_zeroPadded hpos h, hdrop]

theorem startsPlain_renderPlaces (nanos : Nat) (precision : Precision) :
    StartsPlain (renderPlaces nanos precision) := by
  cases precision with
  | asNeeded =>
    unfold renderPlaces
    dsimp only
    split_ifs <;> exact startsPlain_zeroPadded _ _
  | milli => exact startsPlain_zeroPadded _ _
  | micro => exact startsPlain_zeroPadded _ _
  | nano => exact startsPlain_zeroPadded _ _

/-- **The places behind the point** are read as the nanoseconds that they tell. If there are as many
as needed, no digit may follow them. -/
theorem Precision.read?_renderPlaces {nanos : Nat} (h : nanos ≤ 999999999) {precision : Precision}
    {rest : List Char}
    (hrest : precision = .asNeeded → rest.head?.any Char.isDigit = false) :
    precision.read? (renderPlaces nanos precision ++ rest) = some (precision.kept nanos, rest) := by
  cases precision with
  | milli => exact readPlaces?_zeroPadded (by decide) (by decide) (by omega) rest
  | micro => exact readPlaces?_zeroPadded (by decide) (by decide) (by omega) rest
  | nano =>
    simp only [renderPlaces, Precision.read?, Precision.kept]
    rw [readPlaces?_zeroPadded (by decide) (by decide) (by omega) rest, Nat.sub_self, Nat.pow_zero,
      Nat.mul_one]
  | asNeeded =>
    have hrest := hrest rfl
    simp only [renderPlaces, Precision.read?, Precision.kept]
    split_ifs with hmilli hmicro
    · rw [readFraction?_zeroPadded (by decide) (by decide) (by omega) hrest]
      exact congrArg (fun n => some (n, rest)) (Nat.div_mul_cancel (Nat.dvd_of_mod_eq_zero hmilli))
    · rw [readFraction?_zeroPadded (by decide) (by decide) (by omega) hrest]
      exact congrArg (fun n => some (n, rest)) (Nat.div_mul_cancel (Nat.dvd_of_mod_eq_zero hmicro))
    · rw [readFraction?_zeroPadded (by decide) (by decide) (by omega) hrest]
      exact congrArg (fun n => some (n, rest)) (Nat.mul_one nanos)

/-! ## Offsets -/

/-- The seconds that an offset tells if its minutes come last. -/
def offsetValue (offset : Int) : Int :=
  (if offset < 0 then -1 else 1) * ((offset.natAbs + 30) / 60 * 60 : Nat)

theorem zeroPadded_two {n : Nat} (h : n < 100) : zeroPadded 2 n = renderByte .zero n :=
  (renderByte_eq_padded .zero h).symm

theorem exists_twoDigits? {n : Nat} (h : n < 100) : ∃ a b, zeroPadded 2 n = [a, b] ∧
    a.isDigit = true ∧ b.isDigit = true ∧ twoDigits? a b = some n := by
  have hall : ∀ n < 100, (Char.ofNat (48 + n % 256 / 10)).isDigit = true ∧
      (Char.ofNat (48 + n % 256 % 10)).isDigit = true ∧
      twoDigits? (Char.ofNat (48 + n % 256 / 10)) (Char.ofNat (48 + n % 256 % 10)) = some n := by
    decide +kernel
  exact ⟨_, _, zeroPadded_two h, hall n h⟩

theorem readOffset?_of_digits {zulu : Bool} {sign a b a' b' : Char} {hours minutes : Nat} {unit : Int}
    {between rest : List Char} (hsign : sign = '+' ∧ unit = 1 ∨ sign = '-' ∧ unit = -1)
    (hhours : twoDigits? a b = some hours) (hminutes : twoDigits? a' b' = some minutes)
    (hlt : minutes < 60) (hdigit : a'.isDigit = true)
    (hbetween : ∀ c ∈ between, (c == ':' || Text.isBlank c) = true) :
    readOffset? zulu false (sign :: a :: b :: (between ++ a' :: b' :: rest)) =
      some (unit * (hours * 3600 + minutes * 60), rest) := by
  have hcolon : a' ≠ ':' := by
    rintro rfl
    exact absurd hdigit (by decide)
  have hskip : (between ++ a' :: b' :: rest).dropWhile (fun c => c == ':' || Text.isBlank c) =
      a' :: b' :: rest := by
    rw [List.dropWhile_append_of_pos hbetween, List.dropWhile_cons_of_neg]
    simp [hcolon, isBlank_of_isDigit hdigit]
  rcases hsign with ⟨rfl, rfl⟩ | ⟨rfl, rfl⟩ <;>
    simp [readOffset?, hhours, hminutes, hskip, readMinutes?, hlt]

/-- **An offset with minutes** is read as the seconds that it tells. -/
theorem readOffset?_renderOffset? {offset : Int} (h : offset.natAbs < 86400) {style : OffsetStyle}
    (hstyle : style = .joined ∨ style = .minutes) (zulu : Bool) :
    ∃ sign text, renderOffset? offset style = some (sign :: text) ∧ (sign = '+' ∨ sign = '-') ∧
      ∀ rest, readOffset? zulu false (sign :: text ++ rest) = some (offsetValue offset, rest) := by
  obtain ⟨a, b, hhours, _, _, htwo⟩ :=
    exists_twoDigits? (n := (offset.natAbs + 30) / 60 / 60) (by omega)
  obtain ⟨a', b', hminutes, hdigit, _, htwo'⟩ :=
    exists_twoDigits? (n := (offset.natAbs + 30) / 60 % 60) (by omega)
  have hlt : (offset.natAbs + 30) / 60 % 60 < 60 := Nat.mod_lt _ (by decide)
  obtain ⟨sign, unit, hchoice, hsign, hvalue⟩ : ∃ sign unit,
      (if offset < 0 then '-' else '+') = sign ∧ (sign = '+' ∧ unit = 1 ∨ sign = '-' ∧ unit = -1) ∧
      offsetValue offset = unit * (((offset.natAbs + 30) / 60 / 60 : Nat) * 3600 +
        ((offset.natAbs + 30) / 60 % 60 : Nat) * 60) := by
    unfold offsetValue
    split_ifs
    · exact ⟨_, -1, rfl, Or.inr ⟨rfl, rfl⟩, by omega⟩
    · exact ⟨_, 1, rfl, Or.inl ⟨rfl, rfl⟩, by omega⟩
  have hread : ∀ between, (∀ c ∈ between, (c == ':' || Text.isBlank c) = true) → ∀ rest,
      readOffset? zulu false (sign :: a :: b :: (between ++ a' :: b' :: rest)) =
        some (offsetValue offset, rest) := by
    intro between hbetween rest
    rw [readOffset?_of_digits hsign htwo htwo' hlt hdigit hbetween, hvalue]
  have hsign : sign = '+' ∨ sign = '-' := hsign.imp And.left And.left
  rcases hstyle with rfl | rfl
  · refine ⟨sign, [a, b, a', b'], ?_, hsign, hread [] (fun c hc => absurd hc List.not_mem_nil)⟩
    simp [renderOffset?, renderOffsetHours, hhours, hminutes, hchoice]
  · refine ⟨sign, [a, b, ':', a', b'], ?_, hsign, hread [':'] (by simp)⟩
    simp [renderOffset?, renderOffsetHours, hhours, hminutes, hchoice]

/-! ## Names of zones -/

theorem not_blank_of_mem_zeroPadded {width n : Nat} {c : Char} (h : c ∈ zeroPadded width n) :
    Text.isBlank c = false := isBlank_of_isDigit ((spells_zeros _ n).isDigit c h)

theorem not_blank_of_mem_name (zone : Zone) :
    StartsPlain zone.name ∧ ∀ c ∈ zone.name, Text.isBlank c = false := by
  suffices hname : zone.name ≠ [] ∧ ∀ c ∈ zone.name, Text.isBlank c = false by
    obtain ⟨c, rest, heq⟩ := List.exists_cons_of_ne_nil hname.1
    exact ⟨⟨c, rest, heq, hname.2 c (heq ▸ List.mem_cons_self)⟩, hname.2⟩
  cases zone with
  | utc =>
    refine ⟨List.cons_ne_nil _ _, fun c hc => ?_⟩
    simp only [Zone.name, List.mem_cons, List.not_mem_nil, or_false] at hc
    rcases hc with rfl | rfl | rfl <;> rfl
  | fixed offset =>
    have hhours : ∀ hours, ∀ c ∈ renderOffsetHours offset hours, Text.isBlank c = false := by
      intro hours c hc
      rcases List.mem_cons.mp hc with rfl | hc
      · split_ifs <;> rfl
      · exact not_blank_of_mem_zeroPadded hc
    have hcolon : Text.isBlank ':' = false := rfl
    simp only [Zone.name]
    split_ifs with hwhole
    · refine ⟨by simp [renderOffset?, renderOffsetHours], fun c hc => ?_⟩
      simp only [renderOffset?, Option.getD_some, List.mem_append, List.mem_cons] at hc
      rcases hc with hc | rfl | hc
      exacts [hhours _ c hc, hcolon, not_blank_of_mem_zeroPadded hc]
    · refine ⟨by simp [renderOffset?, renderOffsetHours], fun c hc => ?_⟩
      simp only [renderOffset?, Option.getD_some, List.mem_append, List.mem_cons] at hc
      rcases hc with hc | rfl | hc | rfl | hc
      exacts [hhours _ c hc, hcolon, not_blank_of_mem_zeroPadded hc, hcolon,
        not_blank_of_mem_zeroPadded hc]

end LogRouter
