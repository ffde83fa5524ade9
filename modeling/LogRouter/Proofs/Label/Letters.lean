import LogRouter.Label.Pattern
import Mathlib.Data.List.TakeWhile
import Mathlib.Tactic.Common

/-!
# The letters of labels

* `isOrdinary`: the characters that fields may write. A slash, a backslash, NUL and the letter `z` come
  from the literal text of a pattern only.
* **`count_renderItems?`**: a label has exactly the `z`s, slashes and backslashes of the literal text.
* `Item.isProper_parse?`: the literal text of a pattern starts with no blank, and its blanks are blank.
* `Item.read?_suffix`: reading leaves an end of the text.
* **`count_le_of_readItems?`**: a text that is read has all the `z`s of the literal text, at least.
* `TimePattern.label_no_slash`: the labels of an accepted pattern hold no slash.
-/

namespace LogRouter

/-! ## What fields write -/

/-- The character is one that fields may write. -/
def isOrdinary (c : Char) : Bool := c != '/' && c != '\\' && c != '\x00' && c != 'z'

/-- All characters are ones that fields may write. -/
def allOrdinary (s : List Char) : Bool := s.all isOrdinary

@[simp] theorem allOrdinary_nil : allOrdinary [] = true := rfl

@[simp] theorem allOrdinary_cons (c : Char) (s : List Char) :
    allOrdinary (c :: s) = (isOrdinary c && allOrdinary s) := rfl

@[simp] theorem allOrdinary_append (s t : List Char) :
    allOrdinary (s ++ t) = (allOrdinary s && allOrdinary t) := List.all_append

theorem isOrdinary_of_isDigit {c : Char} (h : c.isDigit = true) : isOrdinary c = true := by
  unfold isOrdinary
  simp only [Bool.and_eq_true, bne_iff_ne]
  refine ⟨⟨⟨?_, ?_⟩, ?_⟩, ?_⟩ <;> rintro rfl <;> exact absurd h (by decide)

theorem allOrdinary_decimalDigits (n : Nat) : allOrdinary (decimalDigits n) = true :=
  List.all_eq_true.mpr fun _ hc =>
    isOrdinary_of_isDigit (Nat.isDigit_of_mem_toDigits (by decide) (by decide) hc)

theorem allOrdinary_replicate (n : Nat) {c : Char} (h : isOrdinary c = true) :
    allOrdinary (List.replicate n c) = true :=
  List.all_eq_true.mpr fun _ hc => by rwa [List.eq_of_mem_replicate hc]

theorem allOrdinary_padded (pad : Pad) (width : Nat) {sign : List Char} (n : Nat)
    (h : allOrdinary sign = true) : allOrdinary (padded pad width sign n) = true := by
  unfold padded
  cases pad <;>
    simp [h, allOrdinary_decimalDigits, allOrdinary_replicate _ (show isOrdinary '0' = true by decide),
      allOrdinary_replicate _ (show isOrdinary ' ' = true by decide)]

theorem allOrdinary_zeroPadded (width n : Nat) : allOrdinary (zeroPadded width n) = true :=
  allOrdinary_padded .zero width n rfl

theorem isOrdinary_ofNat {n : Nat} (h : n < 26) : isOrdinary (Char.ofNat (48 + n)) = true := by
  have : ∀ n < 26, isOrdinary (Char.ofNat (48 + n)) = true := by decide
  exact this n h

theorem allOrdinary_renderByte (pad : Pad) (n : Nat) : allOrdinary (renderByte pad n) = true := by
  have hfirst := isOrdinary_ofNat (show n % 256 / 10 < 26 by omega)
  have hlast := isOrdinary_ofNat (show n % 256 % 10 < 26 by omega)
  have hspace : isOrdinary ' ' = true := by decide
  unfold renderByte
  cases pad with
  | bare => simp only; split_ifs <;> simp [hfirst, hlast]
  | zero => simp [hfirst, hlast]
  | space => simp only; split_ifs <;> simp [hfirst, hlast, hspace]

theorem allOrdinary_renderYear (pad : Pad) (year : Int) :
    allOrdinary (renderYear pad year) = true := by
  unfold renderYear
  split_ifs
  all_goals exact allOrdinary_padded _ _ _ (by decide)

theorem allOrdinary_render (field : NumericField) (m : Moment) (pad : Pad) :
    allOrdinary (field.render m pad) = true := by
  cases field <;>
    simp only [NumericField.render, allOrdinary_renderYear, allOrdinary_renderByte,
      allOrdinary_decimalDigits]
  case ordinal => exact allOrdinary_padded _ _ _ rfl
  case nanosecond => exact allOrdinary_padded _ _ _ rfl
  case timestamp =>
    refine allOrdinary_padded _ _ _ ?_
    unfold minus
    split_ifs <;> decide

theorem allOrdinary_longName {names : List String} (h : ∀ name ∈ names, allOrdinary name.toList = true)
    (n : Nat) : allOrdinary (longName names n) = true := by
  unfold longName
  rw [List.getD_eq_getElem?_getD]
  cases hn : names[n]? with
  | none => rfl
  | some name => exact h name (List.mem_of_getElem? hn)

theorem allOrdinary_take {s : List Char} (h : allOrdinary s = true) (n : Nat) :
    allOrdinary (s.take n) = true :=
  List.all_eq_true.mpr fun c hc => List.all_eq_true.mp h c (List.mem_of_mem_take hc)

theorem allOrdinary_monthNames : ∀ name ∈ monthNames, allOrdinary name.toList = true := by decide

theorem allOrdinary_weekdayNames : ∀ name ∈ weekdayNames, allOrdinary name.toList = true := by decide

theorem allOrdinary_renderPlaces (nanos : Nat) (precision : Precision) :
    allOrdinary (renderPlaces nanos precision) = true := by
  unfold renderPlaces
  cases precision with
  | milli => exact allOrdinary_zeroPadded _ _
  | micro => exact allOrdinary_zeroPadded _ _
  | nano => exact allOrdinary_zeroPadded _ _
  | asNeeded => simp only; split_ifs <;> exact allOrdinary_zeroPadded _ _

theorem allOrdinary_renderFraction (nanos : Nat) (precision : Precision) :
    allOrdinary (renderFraction nanos precision) = true := by
  unfold renderFraction
  split_ifs
  · rfl
  · rw [allOrdinary_cons, allOrdinary_renderPlaces]
    decide

theorem allOrdinary_renderOffset? {offset : Int} {style : OffsetStyle} {s : List Char}
    (h : renderOffset? offset style = some s) : allOrdinary s = true := by
  have hhours : ∀ n, allOrdinary (renderOffsetHours offset n) = true := by
    intro n
    unfold renderOffsetHours
    rw [allOrdinary_cons, allOrdinary_zeroPadded]
    split_ifs <;> decide
  have hcolon : isOrdinary ':' = true := by decide
  unfold renderOffset? at h
  cases style <;> simp only [Option.some.injEq] at h
  case permissive => cases h
  all_goals
    subst h
    simp [hhours, hcolon, allOrdinary_zeroPadded]

theorem allOrdinary_getD_renderOffset? (offset : Int) (style : OffsetStyle) :
    allOrdinary ((renderOffset? offset style).getD []) = true := by
  cases h : renderOffset? offset style with
  | none => rfl
  | some s => exact allOrdinary_renderOffset? h

theorem allOrdinary_zoneName (zone : Zone) : allOrdinary zone.name = true := by
  cases zone with
  | utc => decide
  | fixed offset => exact allOrdinary_getD_renderOffset? _ _

theorem allOrdinary_renderFull (m : Moment) : allOrdinary (renderFull m) = true := by
  have hmarks : isOrdinary '-' = true ∧ isOrdinary 'T' = true ∧ isOrdinary ':' = true := by decide
  unfold renderFull
  simp [hmarks, allOrdinary_renderYear, allOrdinary_zeroPadded, allOrdinary_renderFraction,
    allOrdinary_getD_renderOffset?]

/-- **Fields write ordinary characters only.** -/
theorem allOrdinary_render? {m : Moment} {field : TextField} {s : List Char}
    (h : field.render? m = some s) : allOrdinary s = true := by
  cases field with
  | offset style => exact allOrdinary_renderOffset? h
  | shortMonth =>
    rw [← Option.some.inj h]
    exact allOrdinary_take (allOrdinary_longName allOrdinary_monthNames _) 3
  | longMonth =>
    rw [← Option.some.inj h]
    exact allOrdinary_longName allOrdinary_monthNames _
  | shortWeekday =>
    rw [← Option.some.inj h]
    exact allOrdinary_take (allOrdinary_longName allOrdinary_weekdayNames _) 3
  | longWeekday =>
    rw [← Option.some.inj h]
    exact allOrdinary_longName allOrdinary_weekdayNames _
  | lowerHalf =>
    rw [← Option.some.inj h]
    split_ifs <;> decide
  | upperHalf =>
    rw [← Option.some.inj h]
    split_ifs <;> decide
  | fraction precision =>
    rw [← Option.some.inj h]
    exact allOrdinary_renderFraction _ _
  | bareFraction precision =>
    rw [← Option.some.inj h]
    exact allOrdinary_renderPlaces _ _
  | zoneName =>
    rw [← Option.some.inj h]
    exact allOrdinary_zoneName _
  | full =>
    rw [← Option.some.inj h]
    exact allOrdinary_renderFull m

/-! ## Literal text -/

namespace Item

/-- The literal text of an item. -/
def literalText : Item → List Char
  | literal text => text
  | _ => []

/-- An item whose blanks are blanks, as they are in every pattern that is read. -/
def hasBlanks : Item → Bool
  | blanks text => allOrdinary text
  | _ => true

end Item

/-- The literal text of a pattern. -/
def literalText (items : List Item) : List Char := items.flatMap Item.literalText

theorem count_eq_zero_of_allOrdinary {c : Char} (hc : isOrdinary c = false) {s : List Char}
    (h : allOrdinary s = true) : s.count c = 0 := by
  rw [List.count_eq_zero]
  intro hmem
  have := List.all_eq_true.mp h c hmem
  rw [hc] at this
  cases this

theorem count_render? {c : Char} (hc : isOrdinary c = false) {m : Moment} {item : Item}
    (hb : item.hasBlanks = true) {s : List Char} (h : item.render? m = some s) :
    s.count c = item.literalText.count c := by
  cases item with
  | literal text => rw [← Option.some.inj h]; rfl
  | blanks text =>
    rw [← Option.some.inj h]
    exact count_eq_zero_of_allOrdinary hc hb
  | numeric field pad =>
    rw [← Option.some.inj h]
    exact count_eq_zero_of_allOrdinary hc (allOrdinary_render field m pad)
  | word field => exact count_eq_zero_of_allOrdinary hc (allOrdinary_render? h)

theorem renderItems?_cons {m : Moment} {item : Item} {items : List Item} {text : List Char}
    (h : renderItems? m (item :: items) = some text) :
    ∃ head tail, item.render? m = some head ∧ renderItems? m items = some tail ∧
      text = head ++ tail := by
  unfold renderItems? at h
  split at h
  · rename_i head tail hitem hrest
    exact ⟨head, tail, hitem, hrest, (Option.some.inj h).symm⟩
  · cases h

/-- **A label has exactly the extraordinary characters of the literal text.** -/
theorem count_renderItems? {c : Char} (hc : isOrdinary c = false) {m : Moment} :
    ∀ {items : List Item} {s : List Char}, items.all Item.hasBlanks = true →
      renderItems? m items = some s → s.count c = (literalText items).count c
  | [], s, _, h => by rw [← Option.some.inj h]; rfl
  | item :: items, s, hb, h => by
    rw [List.all_cons, Bool.and_eq_true] at hb
    obtain ⟨head, tail, hitem, hrest, rfl⟩ := renderItems?_cons h
    rw [literalText, List.flatMap_cons, List.count_append, List.count_append,
      count_render? hc hb.1 hitem]
    exact congrArg _ (count_renderItems? hc hb.2 hrest)

/-! ## Items of patterns -/

theorem isOrdinary_of_isBlank {c : Char} (h : Text.isBlank c = true) : isOrdinary c = true := by
  unfold isOrdinary
  simp only [Bool.and_eq_true, bne_iff_ne]
  refine ⟨⟨⟨?_, ?_⟩, ?_⟩, ?_⟩ <;> rintro rfl <;> exact absurd h (by decide)

namespace Item

/-- The item is one that a pattern can be read as: literal text starts with a character that is not
blank, and blanks are blank. -/
def isProper : Item → Bool
  | literal text => text.head?.any fun c => !Text.isBlank c
  | blanks text => text.all Text.isBlank
  | _ => true

theorem hasBlanks_of_isProper {item : Item} (h : item.isProper = true) : item.hasBlanks = true := by
  cases item with
  | blanks text =>
    exact List.all_eq_true.mpr fun c hc => isOrdinary_of_isBlank (List.all_eq_true.mp h c hc)
  | literal text => rfl
  | numeric field pad => rfl
  | word field => rfl

theorem isProper_ofLetter? {c : Char} {items : List Item} (h : ofLetter? c = some items) :
    items.all isProper = true := by
  unfold ofLetter? at h
  split at h <;> cases h <;> decide

theorem isProper_field? {s rest : List Char} {items : List Item}
    (h : field? s = some (items, rest)) : items.all isProper = true := by
  unfold field? at h
  split at h
  case h_5 =>
    simp only [Option.map_eq_some_iff, Prod.mk.injEq] at h
    obtain ⟨_, _, rfl, _⟩ := h
    rfl
  case h_6 =>
    split at h
    · simp only [Option.some.injEq, Prod.mk.injEq] at h
      obtain ⟨rfl, _⟩ := h
      rfl
    · cases h
    · simp only [Option.map_eq_some_iff, Prod.mk.injEq] at h
      obtain ⟨_, hletter, rfl, _⟩ := h
      exact isProper_ofLetter? hletter
  case h_7 => cases h
  all_goals
    simp only [Option.some.injEq, Prod.mk.injEq] at h
    obtain ⟨rfl, _⟩ := h
    rfl

theorem isProper_marked? {s rest : List Char} {items : List Item}
    (h : marked? s = some (items, rest)) : items.all isProper = true := by
  unfold marked? at h
  split at h
  · simp only [Option.some.injEq, Prod.mk.injEq] at h
    obtain ⟨rfl, _⟩ := h
    rfl
  · cases h
  · split at h
    · exact isProper_field? h
    · split at h
      · simp only [Option.some.injEq, Prod.mk.injEq] at h
        obtain ⟨rfl, _⟩ := h
        rfl
      · cases h
  · cases h

/-- **The items of a pattern** are proper. -/
theorem isProper_parse? (s : List Char) {items : List Item} (h : parse? s = some items) :
    items.all isProper = true := by
  fun_induction parse? s generalizing items with
  | case1 =>
    rw [← Option.some.inj h]
    rfl
  | case2 => cases h
  | case3 rest marked rest' hmarked ih =>
    obtain ⟨more, hmore, rfl⟩ := Option.map_eq_some_iff.mp h
    rw [List.all_append, isProper_marked? hmarked, ih hmore]
    rfl
  | case4 c rest _ hblank ih =>
    obtain ⟨more, hmore, rfl⟩ := Option.map_eq_some_iff.mp h
    have hrun : (rest.takeWhile Text.isBlank).all Text.isBlank = true :=
      List.all_eq_true.mpr fun d hd => List.mem_takeWhile_imp hd
    rw [List.all_cons, ih hmore, isProper, List.all_cons, hblank, hrun]
    rfl
  | case5 c rest _ hblank ih =>
    obtain ⟨more, hmore, rfl⟩ := Option.map_eq_some_iff.mp h
    rw [List.all_cons, ih hmore, isProper, List.head?_cons, Option.any_some,
      Bool.eq_false_iff.mpr hblank]
    rfl

/-- **The blanks of a pattern are blanks.** -/
theorem hasBlanks_parse? (s : List Char) {items : List Item} (h : parse? s = some items) :
    items.all hasBlanks = true :=
  List.all_eq_true.mpr fun item hitem =>
    hasBlanks_of_isProper (List.all_eq_true.mp (isProper_parse? s h) item hitem)

end Item

/-! ## What reading leaves -/

theorem trimStart_suffix (s : List Char) : Text.trimStart s <:+ s := List.dropWhile_suffix _

theorem readDigits?_suffix {width? : Option Nat} {s rest : List Char} {n : Nat}
    (h : readDigits? width? s = some (n, rest)) : rest <:+ s := by
  unfold readDigits? at h
  simp only at h
  split_ifs at h
  simp only [Option.some.injEq, Prod.mk.injEq] at h
  rw [← h.2]
  exact List.drop_suffix _ _

theorem NumericField.read?_suffix {field : NumericField} {s rest : List Char} {value : Int}
    (h : field.read? s = some (value, rest)) : rest <:+ s := by
  have htrim := trimStart_suffix s
  unfold NumericField.read? at h
  split at h
  all_goals
    obtain ⟨⟨n, tail⟩, hdigits, heq⟩ := Option.map_eq_some_iff.mp h
    simp only [Prod.mk.injEq] at heq
    rw [← heq.2]
    have hsuffix := readDigits?_suffix hdigits
  · rename_i htext
    rw [htext] at htrim
    exact (hsuffix.trans (List.suffix_cons _ _)).trans htrim
  · rename_i htext
    rw [htext] at htrim
    exact (hsuffix.trans (List.suffix_cons _ _)).trans htrim
  · exact hsuffix.trans htrim

theorem afterWord?_suffix : ∀ {word s rest : List Char}, afterWord? word s = some rest → rest <:+ s
  | [], s, rest, h => by
    rw [afterWord?, Option.some.injEq] at h
    subst h
    exact List.suffix_rfl
  | w :: word, [], rest, h => by
    rw [afterWord?] at h
    cases h
  | w :: word, c :: s, rest, h => by
    rw [afterWord?] at h
    split_ifs at h
    exact (afterWord?_suffix h).trans (List.suffix_cons _ _)

theorem readName?_suffix {long : Bool} {s rest : List Char} {k : Nat} :
    ∀ {names : List String} {n : Nat}, readName? long s n names = some (k, rest) → rest <:+ s
  | [], n, h => by
    rw [readName?] at h
    cases h
  | name :: names, n, h => by
    unfold readName? at h
    split at h
    · exact readName?_suffix h
    · rename_i tail htail
      have hshort := afterWord?_suffix htail
      split_ifs at h
      · simp only [Option.some.injEq, Prod.mk.injEq] at h
        rw [← h.2]
        cases hlong : afterWord? (name.toList.drop 3) tail with
        | none => exact hshort
        | some more => exact (afterWord?_suffix hlong).trans hshort
      · simp only [Option.some.injEq, Prod.mk.injEq] at h
        rw [← h.2]
        exact hshort

theorem readPlaces?_suffix {places : Nat} {s rest : List Char} {n : Nat}
    (h : readPlaces? places s = some (n, rest)) : rest <:+ s := by
  unfold readPlaces? at h
  split at h
  · rename_i hdigits
    split_ifs at h
    simp only [Option.some.injEq, Prod.mk.injEq] at h
    rw [← h.2]
    exact readDigits?_suffix hdigits
  · cases h

theorem readFraction?_suffix {s rest : List Char} {n : Nat}
    (h : readFraction? s = some (n, rest)) : rest <:+ s := by
  unfold readFraction? at h
  split at h
  · rename_i hdigits
    simp only [Option.some.injEq, Prod.mk.injEq] at h
    rw [← h.2]
    exact (List.dropWhile_suffix _).trans (readDigits?_suffix hdigits)
  · cases h

theorem Precision.read?_suffix {precision : Precision} {s rest : List Char} {n : Nat}
    (h : precision.read? s = some (n, rest)) : rest <:+ s := by
  cases precision with
  | asNeeded => exact readFraction?_suffix h
  | milli => exact readPlaces?_suffix h
  | micro => exact readPlaces?_suffix h
  | nano => exact readPlaces?_suffix h

theorem readMinutes?_suffix {optional : Bool} {s rest : List Char} {n : Nat}
    (h : readMinutes? optional s = some (n, rest)) : rest <:+ s := by
  unfold readMinutes? at h
  split at h
  · split_ifs at h
    simp only [Option.some.injEq, Prod.mk.injEq] at h
    obtain ⟨_, rfl⟩ := h
    exact List.suffix_rfl
  · cases h
  · obtain ⟨m, _, hm⟩ := Option.bind_eq_some_iff.mp h
    split_ifs at hm
    simp only [Option.some.injEq, Prod.mk.injEq] at hm
    rw [← hm.2]
    exact (List.suffix_cons _ _).trans (List.suffix_cons _ _)

theorem readOffset?_suffix {zulu optionalMinutes : Bool} {s rest : List Char} {value : Int}
    (h : readOffset? zulu optionalMinutes s = some (value, rest)) : rest <:+ s := by
  unfold readOffset? at h
  split at h
  · cases h
  · rename_i c tail
    by_cases hzulu : zulu = true ∧ (c = 'Z' ∨ c = 'z')
    · rw [if_pos hzulu] at h
      simp only [Option.some.injEq, Prod.mk.injEq] at h
      rw [← h.2]
      exact List.suffix_cons _ _
    · rw [if_neg hzulu] at h
      simp only at h
      generalize (if c = '+' then some (1 : Int) else
        if c = '-' ∨ c = '\u2212' then some (-1) else none) = sign? at h
      split at h
      · split at h
        · cases h
        · obtain ⟨⟨minutes, more⟩, hminutes, heq⟩ := Option.map_eq_some_iff.mp h
          simp only [Prod.mk.injEq] at heq
          rw [← heq.2]
          have hsuffix := (readMinutes?_suffix hminutes).trans (List.dropWhile_suffix _)
          exact ((hsuffix.trans (List.suffix_cons _ _)).trans (List.suffix_cons _ _)).trans
            (List.suffix_cons _ _)
      · cases h

theorem readNumeric?_suffix {r r' : Reading} {s rest : List Char} {field : NumericField}
    (h : readNumeric? r s field = some (r', rest)) : rest <:+ s := by
  unfold readNumeric? at h
  simp only [Option.bind_eq_bind, Option.bind_eq_some_iff, Option.pure_def, Option.some.injEq,
    Prod.mk.injEq] at h
  obtain ⟨⟨value, tail⟩, hread, r₁, _, _, rfl⟩ := h
  exact NumericField.read?_suffix hread

theorem readMark?_suffix {mark : Char} {s rest : List Char} (h : readMark? mark s = some rest) :
    rest <:+ s := by
  have htrim := trimStart_suffix s
  unfold readMark? at h
  split at h
  · rename_i htext
    split_ifs at h
    rw [htext] at htrim
    rw [← Option.some.inj h]
    exact (List.suffix_cons _ _).trans htrim
  · cases h

theorem readPointed?_suffix {r r' : Reading} {s rest : List Char} {precision : Precision}
    (h : readPointed? r s precision = some (r', rest)) : rest <:+ s := by
  unfold readPointed? at h
  split at h
  · simp only [Option.bind_eq_bind, Option.bind_eq_some_iff, Option.pure_def, Option.some.injEq,
      Prod.mk.injEq] at h
    obtain ⟨⟨nanos, tail⟩, hread, r₁, _, _, rfl⟩ := h
    exact (Precision.read?_suffix hread).trans (List.suffix_cons _ _)
  · simp only [Option.some.injEq, Prod.mk.injEq] at h
    obtain ⟨_, rfl⟩ := h
    exact List.suffix_rfl

theorem readFull?_suffix {r r' : Reading} {s rest : List Char}
    (h : readFull? r s = some (r', rest)) : rest <:+ s := by
  unfold readFull? at h
  simp only [Option.bind_eq_bind, Option.bind_eq_some_iff, Option.pure_def] at h
  obtain ⟨⟨r₁, s₁⟩, h₁, s₂, h₂, ⟨r₃, s₃⟩, h₃, s₄, h₄, ⟨r₅, s₅⟩, h₅, h⟩ := h
  have hdate : s₅ <:+ s :=
    (readNumeric?_suffix h₅).trans <| (readMark?_suffix h₄).trans <|
      (readNumeric?_suffix h₃).trans <| (readMark?_suffix h₂).trans (readNumeric?_suffix h₁)
  split at h
  case h_2 => cases h
  case h_1 c s₆ hs₅ =>
    split_ifs at h
    swap
    · cases h
    simp only [Option.bind_some, Option.bind_eq_some_iff] at h
    obtain ⟨⟨r₇, s₇⟩, h₇, s₈, h₈, ⟨r₉, s₉⟩, h₉, s₁₀, h₁₀, ⟨r₁₁, s₁₁⟩, h₁₁, ⟨r₁₂, s₁₂⟩, h₁₂, h⟩ := h
    have hmark : s₆ <:+ s₅ := by
      simp only at hs₅
      rw [hs₅]
      exact List.suffix_cons _ _
    have hclock : s₁₂ <:+ s₆ :=
      (readPointed?_suffix h₁₂).trans <| (readNumeric?_suffix h₁₁).trans <|
        (readMark?_suffix h₁₀).trans <| (readNumeric?_suffix h₉).trans <|
          (readMark?_suffix h₈).trans (readNumeric?_suffix h₇)
    have hall : Text.trimStart s₁₂ <:+ s :=
      (trimStart_suffix s₁₂).trans (hclock.trans (hmark.trans hdate))
    split at h
    · rename_i tail hutc
      simp only [Option.bind_eq_some_iff, Option.some.injEq, Prod.mk.injEq] at h
      obtain ⟨_, _, _, rfl⟩ := h
      exact (afterWord?_suffix hutc).trans hall
    · simp only [Option.bind_eq_some_iff, Option.some.injEq, Prod.mk.injEq] at h
      obtain ⟨⟨offset, tail⟩, hoffset, _, _, _, rfl⟩ := h
      exact (readOffset?_suffix hoffset).trans hall

theorem TextField.read?_suffix {field : TextField} {r r' : Reading} {s rest : List Char}
    (h : field.read? r s = some (r', rest)) : rest <:+ s := by
  cases field
  case fraction => exact readPointed?_suffix h
  case full => exact readFull?_suffix h
  case zoneName =>
    simp only [TextField.read?, Option.some.injEq, Prod.mk.injEq] at h
    rw [← h.2]
    exact List.dropWhile_suffix _
  case bareFraction =>
    simp only [TextField.read?, Option.bind_eq_bind, Option.bind_eq_some_iff, Option.pure_def,
      Option.some.injEq, Prod.mk.injEq] at h
    obtain ⟨⟨_, _⟩, hread, _, _, _, rfl⟩ := h
    exact Precision.read?_suffix hread
  case offset =>
    simp only [TextField.read?, Option.bind_eq_bind, Option.bind_eq_some_iff, Option.pure_def,
      Option.some.injEq, Prod.mk.injEq] at h
    obtain ⟨⟨_, _⟩, hread, _, _, _, rfl⟩ := h
    exact (readOffset?_suffix hread).trans (trimStart_suffix s)
  case lowerHalf | upperHalf =>
    simp only [TextField.read?] at h
    split at h
    · rename_i hword
      obtain ⟨_, _, heq⟩ := Option.map_eq_some_iff.mp h
      simp only [Prod.mk.injEq] at heq
      rw [← heq.2]
      exact afterWord?_suffix hword
    · rename_i hword
      obtain ⟨_, _, heq⟩ := Option.map_eq_some_iff.mp h
      simp only [Prod.mk.injEq] at heq
      rw [← heq.2]
      exact afterWord?_suffix hword
    · cases h
  all_goals
    simp only [TextField.read?, Option.bind_eq_bind, Option.bind_eq_some_iff, Option.pure_def,
      Option.some.injEq, Prod.mk.injEq] at h
    obtain ⟨⟨_, _⟩, hread, _, _, _, rfl⟩ := h
    exact readName?_suffix hread

/-- **Reading an item** takes its literal text and leaves an end of the text. -/
theorem Item.read?_suffix {item : Item} {r r' : Reading} {s rest : List Char}
    (h : item.read? r s = some (r', rest)) :
    ∃ taken, s = taken ++ rest ∧ (item.literalText ≠ [] → taken = item.literalText) := by
  cases item with
  | literal text =>
    simp only [Item.read?] at h
    split_ifs at h with hprefix
    simp only [Option.some.injEq, Prod.mk.injEq] at h
    obtain ⟨tail, rfl⟩ := List.isPrefixOf_iff_prefix.mp hprefix
    refine ⟨text, ?_, fun _ => rfl⟩
    rw [← h.2, List.drop_left]
  | blanks text =>
    simp only [Item.read?, Option.some.injEq, Prod.mk.injEq] at h
    obtain ⟨taken, htaken⟩ := trimStart_suffix s
    exact ⟨taken, by rw [← h.2, htaken], fun hne => absurd rfl hne⟩
  | numeric field pad =>
    obtain ⟨taken, htaken⟩ := readNumeric?_suffix h
    exact ⟨taken, htaken.symm, fun hne => absurd rfl hne⟩
  | word field =>
    obtain ⟨taken, htaken⟩ := TextField.read?_suffix h
    exact ⟨taken, htaken.symm, fun hne => absurd rfl hne⟩

/-- **A text that is read has all characters of the literal text**, at least. -/
theorem count_le_of_readItems? (c : Char) : ∀ {items : List Item} {r r' : Reading}
    {s rest : List Char}, readItems? r s items = some (r', rest) →
      (literalText items).count c + rest.count c ≤ s.count c
  | [], r, r', s, rest, h => by
    simp only [readItems?, Option.some.injEq, Prod.mk.injEq] at h
    rw [h.2]
    simp [literalText]
  | item :: items, r, r', s, rest, h => by
    obtain ⟨⟨r₁, s₁⟩, hitem, hrest⟩ := Option.bind_eq_some_iff.mp h
    have ih := count_le_of_readItems? c hrest
    obtain ⟨taken, rfl, htaken⟩ := Item.read?_suffix hitem
    have hle : item.literalText.count c ≤ taken.count c := by
      by_cases hne : item.literalText = []
      · rw [hne]
        exact Nat.zero_le _
      · rw [htaken hne]
    rw [literalText, List.flatMap_cons, List.count_append, List.count_append]
    unfold literalText at ih
    omega

theorem count_le_of_readsAs (c : Char) {items : List Item} {s : List Char}
    (h : readsAs items s = true) : (literalText items).count c ≤ s.count c := by
  unfold readsAs at h
  split at h
  · rename_i hread
    have := count_le_of_readItems? c hread
    omega
  · cases h

/-! ## The labels of an accepted pattern -/

namespace TimePattern

variable {text : String} {pattern : TimePattern}

theorem text_of_ofString (h : ofString text = .ok pattern) :
    pattern.text = text ∧ Item.parse? text.toList = some pattern.items ∧
      ∃ label, renderItems? sample pattern.items = some label ∧ label.any isSeparator = false := by
  unfold ofString at h
  split_ifs at h
  split at h
  · cases h
  · rename_i items hparse
    split at h
    · cases h
    · rename_i label hlabel
      split_ifs at h with hseparator
      rw [Except.ok.injEq] at h
      subst h
      exact ⟨rfl, hparse, label, hlabel, by simpa using hseparator⟩

theorem count_label_le {c : Char} (hc : isOrdinary c = false) (h : ofString text = .ok pattern)
    (m : Moment) : (pattern.label m).count c ≤ (literalText pattern.items).count c := by
  obtain ⟨_, hparse, _⟩ := text_of_ofString h
  unfold label
  cases hrender : renderItems? m pattern.items with
  | none => exact Nat.zero_le _
  | some s => exact Nat.le_of_eq (count_renderItems? hc (Item.hasBlanks_parse? _ hparse) hrender)

/-- **The labels of an accepted pattern hold no slash.** -/
theorem label_no_slash (h : ofString text = .ok pattern) (m : Moment) :
    '/' ∉ pattern.label m := by
  obtain ⟨_, hparse, label, hlabel, hseparator⟩ := text_of_ofString h
  have hsample : label.count '/' = 0 := by
    rw [List.count_eq_zero]
    intro hmem
    rw [List.any_eq_false] at hseparator
    exact hseparator '/' hmem rfl
  have hzero := count_label_le (c := '/') rfl h m
  rw [← count_renderItems? rfl (Item.hasBlanks_parse? _ hparse) hlabel, hsample] at hzero
  exact List.count_eq_zero.mp (Nat.le_zero.mp hzero)

end TimePattern

end LogRouter
