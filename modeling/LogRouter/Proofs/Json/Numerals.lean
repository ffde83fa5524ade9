import LogRouter.Json.Printer
import LogRouter.Json.Reader
import LogRouter.Proofs.Decimal.Rounding
import LogRouter.Proofs.Label.Stamps

/-!
# Writing and reading numbers

* `Follows`: what stands behind a value in a text.
* `Numeral`: the text of a number by its parts; `Numeral.Proper` rules out empty parts and zeros in
  front of other digits.
* **`readNumber?_text`**: a number is read by its parts.
* `Numeral.Means`: a numeral has a given text and the value of a decimal.
* `means_decimalText`: the text of a decimal stands for it, whichever form it has.
* `Number.IsValid`: an integer of 64 bits, or a real in normal form.
* **`readNumber?_render`**: a valid number is read back.
-/

namespace LogRouter.Json

/-! ## Digits -/

theorem digitsValue_eq (acc : Nat) (digits : List Char) :
    digitsValue acc digits = Nat.ofDigitChars 10 digits acc := by
  unfold digitsValue Nat.ofDigitChars
  simp only [Nat.mul_comm 10]
  rfl

theorem digitsValue_append (acc : Nat) (digits digits' : List Char) :
    digitsValue acc (digits ++ digits') = digitsValue (digitsValue acc digits) digits' :=
  List.foldl_append

theorem digitsValue_lt {digits : List Char} (h : ∀ c ∈ digits, c.isDigit = true) (acc : Nat) :
    digitsValue acc digits < (acc + 1) * 10 ^ digits.length := by
  induction digits generalizing acc with
  | nil => simp [digitsValue]
  | cons c digits ih =>
    have hc : c.toNat - 48 ≤ 9 := by
      have hdigit := h c List.mem_cons_self
      rw [Char.isDigit_iff_toNat] at hdigit
      have hnine : '9'.toNat = 57 := rfl
      omega
    calc digitsValue acc (c :: digits)
        = digitsValue (acc * 10 + (c.toNat - 48)) digits := rfl
      _ < (acc * 10 + (c.toNat - 48) + 1) * 10 ^ digits.length :=
        ih (fun c hc => h c (List.mem_cons_of_mem _ hc)) _
      _ ≤ ((acc + 1) * 10) * 10 ^ digits.length := Nat.mul_le_mul_right _ (by omega)
      _ = (acc + 1) * 10 ^ (c :: digits).length := by rw [List.length_cons, pow_succ]; ring

theorem digitsValue_zeros (acc k : Nat) : digitsValue acc (List.replicate k '0') = acc * 10 ^ k := by
  rw [digitsValue_eq, Nat.ofDigitChars_replicate_zero]
  ring

theorem isDigit_of_mem_digitsOf {n : Nat} {c : Char} (h : c ∈ digitsOf n) : c.isDigit = true :=
  Nat.isDigit_of_mem_toDigits (by decide) (by decide) h

theorem digitsOf_ne_nil (n : Nat) : digitsOf n ≠ [] :=
  List.ne_nil_of_length_pos Nat.length_toDigits_pos

theorem digitsValue_digitsOf (n : Nat) : digitsValue 0 (digitsOf n) = n := by
  rw [digitsValue_eq, digitsOf, Nat.ofDigitChars_ten_toDigits]

theorem length_of_head?_digitsOf {n : Nat} (h : (digitsOf n).head? = some '0') :
    (digitsOf n).length = 1 := by
  obtain ⟨digits, hdigits⟩ : ∃ digits, digitsOf n = '0' :: digits := by
    cases hn : digitsOf n with
    | nil => exact absurd hn (digitsOf_ne_nil n)
    | cons c digits =>
      rw [hn] at h
      exact ⟨digits, by rw [Option.some.inj h]⟩
  have hlt : n < 10 ^ digits.length := by
    have hvalue := digitsValue_digitsOf n
    rw [hdigits] at hvalue
    have hall : ∀ c ∈ digits, c.isDigit = true := fun c hc =>
      isDigit_of_mem_digitsOf (n := n) (hdigits ▸ List.mem_cons_of_mem _ hc)
    have := digitsValue_lt hall 0
    have hzero : digitsValue 0 ('0' :: digits) = digitsValue 0 digits := rfl
    omega
  by_contra hlong
  rw [hdigits, List.length_cons] at hlong
  have hle : (digitsOf n).length ≤ digits.length :=
    (Nat.length_toDigits_le_iff (by decide) (by omega)).mpr hlt
  rw [hdigits, List.length_cons] at hle
  omega

theorem head?_digitsOf {n : Nat} (hn : 0 < n) : (digitsOf n).head? ≠ some '0' := by
  intro h
  obtain ⟨c, hc⟩ := List.length_eq_one_iff.mp (length_of_head?_digitsOf h)
  have hvalue := digitsValue_digitsOf n
  rw [hc] at h hvalue
  obtain rfl := Option.some.inj h
  exact hn.ne hvalue

/-! ## What stands behind a value -/

/-- What can stand behind a value: nothing, or a sign that goes on with an array or an object. -/
def Follows (rest : List Char) : Prop := ∀ c, rest.head? = some c → c = ',' ∨ c = ']' ∨ c = '\x7d'

theorem follows_nil : Follows [] := fun _ h => by cases h

theorem follows_cons {c : Char} (h : c = ',' ∨ c = ']' ∨ c = '\x7d') (rest : List Char) :
    Follows (c :: rest) := fun _ h' => Option.some.inj h' ▸ h

/-- No digit goes on with a text. -/
def NoDigit (rest : List Char) : Prop := ∀ c, rest.head? = some c → c.isDigit = false

variable {rest digits : List Char}

theorem noDigit_of_follows (h : Follows rest) : NoDigit rest := fun c hc => by
  rcases h c hc with rfl | rfl | rfl <;> decide

theorem takeWhile_digits (h : ∀ c ∈ digits, c.isDigit = true) (hrest : NoDigit rest) :
    (digits ++ rest).takeWhile Char.isDigit = digits := by
  rw [List.takeWhile_append_of_pos h]
  cases rest with
  | nil => simp
  | cons c rest => simp [hrest c rfl]

theorem dropWhile_digits (h : ∀ c ∈ digits, c.isDigit = true) (hrest : NoDigit rest) :
    (digits ++ rest).dropWhile Char.isDigit = rest := by
  rw [List.dropWhile_append_of_pos h]
  cases rest with
  | nil => rfl
  | cons c rest => simp [hrest c rfl]

/-! ## Numerals -/

/-- The parts of the text of a number. Without digits behind the point there is no point. -/
structure Numeral where
  negative : Bool
  whole : List Char
  fraction : List Char
  exponent : Option Int

namespace Numeral

/-- The text of digits behind a point. -/
def pointText : List Char → List Char
  | [] => []
  | c :: digits => '.' :: c :: digits

theorem pointText_of_ne_nil {digits : List Char} (h : digits ≠ []) :
    pointText digits = '.' :: digits := by
  cases digits with
  | nil => exact absurd rfl h
  | cons c digits => rfl

/-- The text of an exponent. -/
def exponentText : Option Int → List Char
  | none => []
  | some e => 'e' :: (if e < 0 then '-' else '+') :: digitsOf e.natAbs

/-- The text of a number without its sign. -/
def magnitudeText (n : Numeral) : List Char :=
  n.whole ++ (pointText n.fraction ++ exponentText n.exponent)

/-- The text of a number. -/
def text (n : Numeral) : List Char :=
  if n.negative then '-' :: n.magnitudeText else n.magnitudeText

/-- The digits are digits, there is one in front of the point, and a zero is the only one there. -/
structure Proper (n : Numeral) : Prop where
  whole_isDigit : ∀ c ∈ n.whole, c.isDigit = true
  fraction_isDigit : ∀ c ∈ n.fraction, c.isDigit = true
  whole_ne_nil : n.whole ≠ []
  zero : n.whole.head? = some '0' → n.whole.length = 1

/-- The magnitude of the number. -/
def decimal (n : Numeral) : Decimal :=
  ⟨digitsValue (digitsValue 0 n.whole) n.fraction, n.exponent.getD 0 - n.fraction.length⟩

variable {n : Numeral}

theorem readSign_text (hn : n.Proper) (rest : List Char) :
    readSign (n.text ++ rest) = (n.negative, n.magnitudeText ++ rest) := by
  unfold text
  cases n.negative with
  | true => rfl
  | false =>
    obtain ⟨c, digits, hwhole⟩ := List.exists_cons_of_ne_nil hn.whole_ne_nil
    have hc : c ≠ '-' := by
      rintro rfl
      exact absurd (hn.whole_isDigit '-' (hwhole ▸ List.mem_cons_self)) (by decide)
    unfold magnitudeText
    rw [if_neg Bool.false_ne_true, hwhole]
    change readSign (c :: _) = _
    unfold readSign
    split
    · rename_i heq
      exact absurd (List.cons.inj heq).1 hc
    · rfl

theorem readWhole?_append (hn : n.Proper) (hrest : NoDigit rest) :
    readWhole? (n.whole ++ rest) = some (n.whole, rest) := by
  unfold readWhole?
  simp only [takeWhile_digits hn.whole_isDigit hrest, dropWhile_digits hn.whole_isDigit hrest]
  rw [if_neg]
  rw [Bool.or_eq_true, Bool.and_eq_true, beq_iff_eq, decide_eq_true_eq, List.isEmpty_iff]
  rintro (h | ⟨hzero, hlong⟩)
  · exact hn.whole_ne_nil h
  · have := hn.zero hzero
    omega

theorem readFraction?_append (hdigits : ∀ c ∈ digits, c.isDigit = true) (hrest : NoDigit rest)
    (hpoint : rest.head? ≠ some '.') :
    readFraction? (pointText digits ++ rest) = some (digits, rest) := by
  cases digits with
  | nil =>
    change readFraction? rest = _
    unfold readFraction?
    split
    · exact absurd rfl hpoint
    · rfl
  | cons c digits =>
    change readFraction? ('.' :: (c :: digits ++ rest)) = _
    simp only [readFraction?, takeWhile_digits hdigits hrest, dropWhile_digits hdigits hrest]
    rfl

theorem readExponent?_append (e : Int) (hrest : NoDigit rest) :
    readExponent? ((if e < 0 then '-' else '+') :: (digitsOf e.natAbs ++ rest)) = some (e, rest) := by
  have htake := takeWhile_digits (fun _ => isDigit_of_mem_digitsOf (n := e.natAbs)) hrest
  have hdrop := dropWhile_digits (fun _ => isDigit_of_mem_digitsOf (n := e.natAbs)) hrest
  have hne := List.isEmpty_eq_false_iff.mpr (digitsOf_ne_nil e.natAbs)
  unfold readExponent?
  split_ifs with hneg
  · simp only [htake, hdrop, hne, digitsValue_digitsOf, if_true, Bool.false_eq_true, if_false,
      Option.some.injEq, Prod.mk.injEq, and_true]
    omega
  · simp only [htake, hdrop, hne, digitsValue_digitsOf, Bool.false_eq_true, if_false,
      Option.some.injEq, Prod.mk.injEq, and_true]
    omega

theorem readScale?_append (e : Option Int) (hrest : Follows rest) :
    readScale? (exponentText e ++ rest) = some (e, rest) := by
  cases e with
  | none =>
    change readScale? rest = _
    unfold readScale?
    split
    · rcases hrest _ rfl with h | h | h <;> cases h
    · rcases hrest _ rfl with h | h | h <;> cases h
    · rfl
  | some e =>
    change (readExponent? ((if e < 0 then '-' else '+') :: (digitsOf e.natAbs ++ rest))).map _ = _
    rw [readExponent?_append e (noDigit_of_follows hrest)]
    rfl

theorem head?_exponentText (e : Option Int) (hrest : Follows rest) {c : Char}
    (h : (exponentText e ++ rest).head? = some c) : c.isDigit = false ∧ c ≠ '.' := by
  cases e with
  | none => rcases hrest c h with rfl | rfl | rfl <;> decide
  | some e =>
    obtain rfl := Option.some.inj h
    decide

end Numeral

/-- **A number is read by its parts.** -/
theorem readNumber?_text (real? : Bool → Decimal → Option Binary64) {n : Numeral} (hn : n.Proper)
    (hrest : Follows rest) : readNumber? real? (n.text ++ rest) =
      (numberOf? real? n.negative n.whole n.fraction n.exponent).map fun x => (x, rest) := by
  have hscale : NoDigit (Numeral.exponentText n.exponent ++ rest) := fun c hc =>
    (Numeral.head?_exponentText n.exponent hrest hc).1
  have hpoint : (Numeral.exponentText n.exponent ++ rest).head? ≠ some '.' := fun hc =>
    (Numeral.head?_exponentText n.exponent hrest hc).2 rfl
  have htail : NoDigit (Numeral.pointText n.fraction ++ (Numeral.exponentText n.exponent ++ rest)) := by
    cases n.fraction with
    | nil => exact hscale
    | cons c digits => exact fun c hc => Option.some.inj hc ▸ rfl
  unfold readNumber?
  rw [Numeral.readSign_text hn, Numeral.magnitudeText, List.append_assoc, List.append_assoc]
  simp only [Numeral.readWhole?_append hn htail,
    Numeral.readFraction?_append hn.fraction_isDigit hscale hpoint,
    Numeral.readScale?_append n.exponent hrest]

/-! ## Numbers -/

/-- The number is an integer of 64 bits, with or without sign, or a real in normal form. -/
def Number.IsValid : Number → Prop
  | .integer n => -9223372036854775808 ≤ n ∧ n ≤ 18446744073709551615
  | .real x => x.Canonical

/-- An integer as a numeral. -/
def integerNumeral (n : Int) : Numeral := ⟨decide (n < 0), digitsOf n.natAbs, [], none⟩

theorem proper_integerNumeral (n : Int) : (integerNumeral n).Proper where
  whole_isDigit _ := isDigit_of_mem_digitsOf
  fraction_isDigit _ h := absurd h List.not_mem_nil
  whole_ne_nil := digitsOf_ne_nil _
  zero := length_of_head?_digitsOf

theorem text_integerNumeral (n : Int) : (integerNumeral n).text = integerText n := by
  unfold Numeral.text Numeral.magnitudeText integerText integerNumeral
  by_cases h : n < 0 <;> simp [h, Numeral.pointText, Numeral.exponentText]

theorem numberOf?_integerNumeral (real? : Bool → Decimal → Option Binary64) {n : Int}
    (h : (Number.integer n).IsValid) :
    numberOf? real? (integerNumeral n).negative (integerNumeral n).whole (integerNumeral n).fraction
      (integerNumeral n).exponent = some (.integer n) := by
  obtain ⟨hlow, hhigh⟩ := h
  have hdigits : digitsValue (digitsValue 0 (digitsOf n.natAbs)) [] = n.natAbs :=
    digitsValue_digitsOf _
  have hvalue : (if decide (n < 0) = true then -(n.natAbs : Int) else n.natAbs) = n := by
    simp only [decide_eq_true_eq]
    split_ifs <;> omega
  have hzero : (decide (n < 0) && n.natAbs == 0) = false := by
    by_cases hneg : n < 0
    · simp [hneg]
      omega
    · simp [hneg]
  simp only [numberOf?, integerNumeral, hdigits, hvalue, hzero]
  simp [hlow, hhigh]

/-- The text stands for a decimal: it is a numeral with its value, which counts as a real. -/
structure Numeral.Means (n : Numeral) (text : List Char) (d : Decimal) : Prop where
  proper : n.Proper
  text_eq : n.magnitudeText = text
  isReal : n.fraction ≠ [] ∨ n.exponent ≠ none
  value : Binary64.ofDecimal? n.negative n.decimal = Binary64.ofDecimal? n.negative d

section Forms

variable (negative : Bool) (hall : ∀ c ∈ digits, c.isDigit = true) (hne : digits ≠ [])

include hall hne

theorem means_scaled (lead : Int) : ∃ n : Numeral, n.negative = negative ∧
    n.Means (pointed digits ++ (if lead < 0 then ['e', '-'] else ['e', '+']) ++ digitsOf lead.natAbs)
      ⟨digitsValue 0 digits, lead + 1 - digits.length⟩ := by
  obtain ⟨c, digits, rfl⟩ := List.exists_cons_of_ne_nil hne
  refine ⟨⟨negative, [c], digits, some lead⟩, rfl, ⟨?_, ?_, by simp, fun _ => rfl⟩, ?_,
    Or.inr (by simp), ?_⟩
  · exact fun c' hc' => hall c' (List.mem_singleton.mp hc' ▸ List.mem_cons_self)
  · exact fun c' hc' => hall c' (List.mem_cons_of_mem _ hc')
  · unfold Numeral.magnitudeText Numeral.exponentText
    by_cases hneg : lead < 0 <;> cases digits <;> simp [hneg, Numeral.pointText, pointed]
  · have hexponent : lead - digits.length = lead + 1 - (c :: digits).length := by
      simp only [List.length_cons]
      omega
    exact congrArg (fun e => Binary64.ofDecimal? negative ⟨digitsValue 0 (c :: digits), e⟩) hexponent

theorem means_small (k : Nat) : ∃ n : Numeral, n.negative = negative ∧
    n.Means ('0' :: '.' :: (List.replicate k '0' ++ digits))
      ⟨digitsValue 0 digits, -(k + digits.length : Nat)⟩ := by
  have hne' : List.replicate k '0' ++ digits ≠ [] := List.append_ne_nil_of_right_ne_nil _ hne
  refine ⟨⟨negative, ['0'], List.replicate k '0' ++ digits, none⟩, rfl,
    ⟨by simp, ?_, by simp, fun _ => rfl⟩, ?_, Or.inl hne', ?_⟩
  · intro c hc
    rcases List.mem_append.mp hc with h | h
    · exact List.eq_of_mem_replicate h ▸ rfl
    · exact hall c h
  · rw [Numeral.magnitudeText, Numeral.pointText_of_ne_nil hne']
    simp [Numeral.exponentText]
  · have hvalue : digitsValue (digitsValue 0 ['0']) (List.replicate k '0' ++ digits) =
        digitsValue 0 digits := by
      rw [digitsValue_append, digitsValue_zeros]
      exact congrArg (digitsValue · digits) (Nat.zero_mul _)
    simp [Numeral.decimal, hvalue]

theorem means_whole (hhead : digits.head? ≠ some '0') (hpos : 0 < digitsValue 0 digits) (k : Nat) :
    ∃ n : Numeral, n.negative = negative ∧
      n.Means (digits ++ List.replicate k '0' ++ ['.', '0']) ⟨digitsValue 0 digits, k⟩ := by
  refine ⟨⟨negative, digits ++ List.replicate k '0', ['0'], none⟩, rfl,
    ⟨?_, by simp, by simp [hne], ?_⟩, ?_, Or.inl (by simp), ?_⟩
  · intro c hc
    rcases List.mem_append.mp hc with h | h
    · exact hall c h
    · exact List.eq_of_mem_replicate h ▸ rfl
  · intro h
    rw [List.head?_append_of_ne_nil _ hne] at h
    exact absurd h hhead
  · simp [Numeral.magnitudeText, Numeral.pointText, Numeral.exponentText]
  · have hvalue : digitsValue (digitsValue 0 (digits ++ List.replicate k '0')) ['0'] =
        digitsValue 0 digits * 10 ^ (k + 1) := by
      rw [digitsValue_append, digitsValue_zeros, pow_succ, ← mul_assoc]
      rfl
    have hscale := Binary64.ofDecimal?_scale negative hpos (k + 1) (-1)
    have hexponent : (-1 : Int) + (k + 1 : Nat) = k := by omega
    rw [hexponent] at hscale
    simpa [Numeral.decimal, hvalue] using hscale

theorem means_point (hhead : digits.head? ≠ some '0') {k : Nat} (hk : k + 1 < digits.length) :
    ∃ n : Numeral, n.negative = negative ∧
      n.Means (digits.take (k + 1) ++ '.' :: digits.drop (k + 1))
        ⟨digitsValue 0 digits, k + 1 - digits.length⟩ := by
  have hdrop : digits.drop (k + 1) ≠ [] := by
    rw [ne_eq, List.drop_eq_nil_iff]
    omega
  refine ⟨⟨negative, digits.take (k + 1), digits.drop (k + 1), none⟩, rfl,
    ⟨fun c hc => hall c (List.mem_of_mem_take hc), fun c hc => hall c (List.mem_of_mem_drop hc),
      by simp [hne], ?_⟩, ?_, Or.inl hdrop, ?_⟩
  · intro h
    rw [List.head?_take, if_neg (by omega)] at h
    exact absurd h hhead
  · rw [Numeral.magnitudeText, Numeral.pointText_of_ne_nil hdrop]
    simp [Numeral.exponentText]
  · have hexponent : (0 : Int) - (digits.drop (k + 1)).length = k + 1 - digits.length := by
      rw [List.length_drop]
      omega
    rw [Numeral.decimal, ← digitsValue_append, List.take_append_drop]
    exact congrArg (fun e => Binary64.ofDecimal? negative ⟨digitsValue 0 digits, e⟩) hexponent

end Forms

/-- **The text of a decimal stands for it**, whichever form it has. -/
theorem means_decimalText (negative : Bool) {d : Decimal} (hd : 0 < d.digits) :
    ∃ n : Numeral, n.negative = negative ∧ n.Means (decimalText d) d := by
  have hall : ∀ c ∈ digitsOf d.digits, c.isDigit = true := fun _ => isDigit_of_mem_digitsOf
  have hne := digitsOf_ne_nil d.digits
  have hhead := head?_digitsOf hd
  have hvalue := digitsValue_digitsOf d.digits
  unfold decimalText
  simp only
  generalize digitsOf d.digits = digits at hall hne hhead hvalue
  obtain ⟨value, exponent⟩ := d
  obtain rfl : digitsValue 0 digits = value := hvalue
  obtain ⟨lead, hlead⟩ : ∃ lead : Int, exponent + digits.length - 1 = lead := ⟨_, rfl⟩
  obtain rfl : exponent = lead + 1 - digits.length := by omega
  simp only [hlead]
  by_cases hscaled : lead < positionalRange.1 ∨ positionalRange.2 < lead
  · rw [if_pos hscaled]
    exact means_scaled negative hall hne lead
  rw [if_neg hscaled]
  by_cases hsmall : lead < 0
  · rw [if_pos hsmall]
    have hexponent : lead + 1 - digits.length = -((lead.natAbs - 1 + digits.length : Nat) : Int) := by
      omega
    rw [hexponent]
    exact means_small negative hall hne _
  rw [if_neg hsmall]
  by_cases hwhole : digits.length ≤ lead.toNat + 1
  · rw [if_pos hwhole]
    have hexponent : lead + 1 - digits.length = ((lead.toNat + 1 - digits.length : Nat) : Int) := by
      omega
    rw [hexponent]
    exact means_whole negative hall hne hhead hd _
  · rw [if_neg hwhole]
    have hexponent : lead + 1 - digits.length = (lead.toNat : Int) + 1 - digits.length := by omega
    rw [hexponent]
    exact means_point negative hall hne hhead (by omega)

theorem numberOf?_of_real (real? : Bool → Decimal → Option Binary64) {n : Numeral}
    (h : n.fraction ≠ [] ∨ n.exponent ≠ none) :
    numberOf? real? n.negative n.whole n.fraction n.exponent =
      (real? n.negative n.decimal).map .real := by
  have hreal : (n.fraction.isEmpty && n.exponent.isNone) = false := by
    rw [Bool.and_eq_false_iff, List.isEmpty_eq_false_iff]
    refine h.imp_right fun h => ?_
    rwa [Option.isNone_eq_false_iff, Option.isSome_iff_ne_none]
  simp only [numberOf?, hreal, Bool.false_and, Bool.false_eq_true, if_false]
  rfl

theorem readNumber?_realText {x : Binary64} (hx : x.Canonical) (hrest : Follows rest) :
    readNumber? Binary64.ofDecimal? (realText x ++ rest) = some (.real x, rest) := by
  -- a numeral for the magnitude with the value of `x` is enough
  have key : ∀ n : Numeral, n.Proper → n.negative = x.negative →
      n.magnitudeText = (if x.mantissa = 0 then ['0', '.', '0'] else decimalText x.shortest) →
      (n.fraction ≠ [] ∨ n.exponent ≠ none) →
      Binary64.ofDecimal? n.negative n.decimal = some x →
      readNumber? Binary64.ofDecimal? (realText x ++ rest) = some (.real x, rest) := by
    intro n hproper hnegative hmagnitude hreal hvalue
    have htext : realText x = n.text := by
      rw [realText, Numeral.text, hmagnitude, hnegative]
    rw [htext, readNumber?_text _ hproper hrest, numberOf?_of_real _ hreal, hvalue]
    rfl
  by_cases hm : x.mantissa = 0
  · refine key ⟨x.negative, ['0'], ['0'], none⟩ ⟨by simp, by simp, by simp, fun _ => rfl⟩ rfl ?_
      (Or.inl (by simp)) ?_
    · rw [if_pos hm]
      rfl
    · rw [Binary64.ofDecimal?, if_pos (by rfl), Binary64.zero_of_canonical hx hm]
  · obtain ⟨n, hnegative, hmeans⟩ :=
      means_decimalText x.negative (Binary64.digits_shortest_pos hx hm)
    refine key n hmeans.proper hnegative ?_ hmeans.isReal ?_
    · rw [if_neg hm, hmeans.text_eq]
    · rw [hmeans.value, hnegative, Binary64.ofDecimal?_shortest hx hm]

/-- **A valid number is read back.** -/
theorem readNumber?_render {n : Number} (hn : n.IsValid) (hrest : Follows rest) :
    readNumber? Binary64.ofDecimal? (n.render ++ rest) = some (n, rest) := by
  cases n with
  | integer n =>
    rw [Number.render, ← text_integerNumeral, readNumber?_text _ (proper_integerNumeral n) hrest,
      numberOf?_integerNumeral _ hn]
    rfl
  | real x => exact readNumber?_realText hn hrest

end LogRouter.Json
