import LogRouter.Decimal.Shortest
import Mathlib.Algebra.Order.Ring.Nat
import Mathlib.Data.Nat.Log
import Mathlib.Tactic.NormNum
import Mathlib.Tactic.Positivity
import Mathlib.Tactic.Ring

/-!
# Rounding decimals to binary numbers

* `Binary64.Canonical`: the normal form of a finite number.
* `Binary64.IsExponent`: the exponent at which a quotient has 53 bits, or the smallest one; there is
  one such exponent (`isExponent_exponentOf`, `IsExponent.unique`).
* `ofQuotient?_scale`, **`ofDecimal?_scale`**: rounding depends on the value of a quotient or a
  decimal, not on how it is written.
* **`ofDecimal?_exactDecimal`**: the exact decimal of a number is rounded to the number.
* **`ofDecimal?_shortest`**: so is its shortest decimal.
-/

namespace LogRouter

/-! ## Division -/

theorem divNearestEven_mul_right {k : Nat} (hk : 0 < k) (num den : Nat) :
    divNearestEven (num * k) (den * k) = divNearestEven num den := by
  unfold divNearestEven
  have hlt : 2 * (num % den * k) < den * k ↔ 2 * (num % den) < den := by
    rw [← mul_assoc, Nat.mul_lt_mul_right hk]
  have hgt : den * k < 2 * (num % den * k) ↔ den < 2 * (num % den) := by
    rw [← mul_assoc, Nat.mul_lt_mul_right hk]
  simp only [Nat.mul_div_mul_right _ _ hk, Nat.mul_mod_mul_right, hlt, hgt]

theorem divNearestEven_mul_self (n : Nat) {den : Nat} (h : 0 < den) :
    divNearestEven (n * den) den = n := by
  unfold divNearestEven
  simp [Nat.mul_div_cancel _ h, h]

namespace Binary64

/-! ## Quotients of powers of two -/

variable {num den : Nat}

theorem scaledFloor_scale {k : Nat} (hk : 0 < k) (num den : Nat) (e : Int) :
    scaledFloor (num * k) (den * k) e = scaledFloor num den e := by
  unfold scaledFloor
  split_ifs
  · rw [mul_right_comm, Nat.mul_div_mul_right _ _ hk]
  · rw [mul_right_comm, Nat.mul_div_mul_right _ _ hk]

theorem scaledNearest_scale {k : Nat} (hk : 0 < k) (num den : Nat) (e : Int) :
    scaledNearest (num * k) (den * k) e = scaledNearest num den e := by
  unfold scaledNearest
  split_ifs
  · rw [mul_right_comm, divNearestEven_mul_right hk]
  · rw [mul_right_comm, divNearestEven_mul_right hk]

theorem scaledFloor_succ (num den : Nat) (e : Int) :
    scaledFloor num den (e + 1) = scaledFloor num den e / 2 := by
  unfold scaledFloor
  rcases lt_trichotomy e (-1) with hlt | rfl | hgt
  · obtain ⟨k, rfl⟩ : ∃ k : Nat, e = -(k + 2 : Nat) := ⟨(-e - 2).toNat, by omega⟩
    have hsucc : (-(-((k + 2 : Nat) : Int) + 1)).toNat = k + 1 := by omega
    have hself : (- -((k + 2 : Nat) : Int)).toNat = k + 2 := by omega
    rw [if_neg (by omega), if_neg (by omega), hsucc, hself, Nat.div_div_eq_div_mul, Nat.pow_eq,
      Nat.pow_eq, pow_succ 2 (k + 1), ← mul_assoc, Nat.mul_div_mul_right _ _ (by decide)]
  · rw [if_pos (by decide), if_neg (by decide), Nat.div_div_eq_div_mul]
    exact (Nat.mul_div_mul_right num (den * 1) (by decide : 0 < 2)).symm.trans (by simp)
  · obtain ⟨k, rfl⟩ : ∃ k : Nat, e = k := ⟨e.toNat, by omega⟩
    have hsucc : ((k : Int) + 1).toNat = k + 1 := by omega
    rw [if_pos (by omega), if_pos (by omega), hsucc, Int.toNat_natCast, Nat.div_div_eq_div_mul,
      Nat.pow_eq, Nat.pow_eq, pow_succ, mul_assoc]

theorem scaledFloor_antitone (num den : Nat) {e e' : Int} (h : e ≤ e') :
    scaledFloor num den e' ≤ scaledFloor num den e := by
  obtain ⟨k, rfl⟩ : ∃ k : Nat, e' = e + k := ⟨(e' - e).toNat, by omega⟩
  induction k with
  | zero => simp
  | succ k ih =>
    have hstep := scaledFloor_succ num den (e + k)
    have hcast : e + ((k + 1 : Nat) : Int) = e + k + 1 := by omega
    rw [hcast, hstep]
    exact (Nat.div_le_self _ _).trans (ih (by omega))

theorem scaledFloor_lt (hden : 0 < den) {e : Int} {n : Nat}
    (he : (num.log2 : Int) + 1 ≤ n + den.log2 + e) : scaledFloor num den e < 2 ^ n := by
  have hnum : num < 2 ^ (num.log2 + 1) := Nat.lt_log2_self
  have hlow : 2 ^ den.log2 ≤ den := Nat.log2_self_le hden.ne'
  unfold scaledFloor
  split_ifs with h
  · obtain ⟨k, rfl⟩ : ∃ k : Nat, e = k := ⟨e.toNat, by omega⟩
    rw [Int.toNat_natCast, Nat.pow_eq, Nat.div_lt_iff_lt_mul (by positivity)]
    calc num < 2 ^ (num.log2 + 1) := hnum
      _ ≤ 2 ^ (n + (den.log2 + k)) := Nat.pow_le_pow_right (by decide) (by omega)
      _ = 2 ^ n * (2 ^ den.log2 * 2 ^ k) := by rw [pow_add, pow_add]
      _ ≤ 2 ^ n * (den * 2 ^ k) := by gcongr
  · obtain ⟨k, rfl⟩ : ∃ k : Nat, e = -k := ⟨(-e).toNat, by omega⟩
    rw [neg_neg, Int.toNat_natCast, Nat.pow_eq, Nat.div_lt_iff_lt_mul hden]
    calc num * 2 ^ k < 2 ^ (num.log2 + 1) * 2 ^ k := by gcongr
      _ = 2 ^ (num.log2 + 1 + k) := (pow_add _ _ _).symm
      _ ≤ 2 ^ (n + den.log2) := Nat.pow_le_pow_right (by decide) (by omega)
      _ = 2 ^ n * 2 ^ den.log2 := pow_add _ _ _
      _ ≤ 2 ^ n * den := by gcongr

theorem le_scaledFloor (hnum : 0 < num) (hden : 0 < den) {e : Int} {n : Nat}
    (he : (n : Int) + den.log2 + 1 + e ≤ num.log2) : 2 ^ n ≤ scaledFloor num den e := by
  have hlow : 2 ^ num.log2 ≤ num := Nat.log2_self_le hnum.ne'
  have hhigh : den ≤ 2 ^ (den.log2 + 1) := Nat.lt_log2_self.le
  unfold scaledFloor
  split_ifs with h
  · obtain ⟨k, rfl⟩ : ∃ k : Nat, e = k := ⟨e.toNat, by omega⟩
    rw [Int.toNat_natCast, Nat.pow_eq, Nat.le_div_iff_mul_le (by positivity)]
    calc 2 ^ n * (den * 2 ^ k) ≤ 2 ^ n * (2 ^ (den.log2 + 1) * 2 ^ k) := by gcongr
      _ = 2 ^ (n + (den.log2 + 1 + k)) := by rw [pow_add 2 n, pow_add 2 (den.log2 + 1)]
      _ ≤ 2 ^ num.log2 := Nat.pow_le_pow_right (by decide) (by omega)
      _ ≤ num := hlow
  · obtain ⟨k, rfl⟩ : ∃ k : Nat, e = -k := ⟨(-e).toNat, by omega⟩
    rw [neg_neg, Int.toNat_natCast, Nat.pow_eq, Nat.le_div_iff_mul_le hden]
    calc 2 ^ n * den ≤ 2 ^ n * 2 ^ (den.log2 + 1) := by gcongr
      _ = 2 ^ (n + (den.log2 + 1)) := (pow_add _ _ _).symm
      _ ≤ 2 ^ (num.log2 + k) := Nat.pow_le_pow_right (by decide) (by omega)
      _ = 2 ^ num.log2 * 2 ^ k := pow_add _ _ _
      _ ≤ num * 2 ^ k := by gcongr

/-! ## The exponent of a quotient -/

/-- The exponent at which a quotient has 53 bits, or the smallest one if it has fewer. -/
structure IsExponent (num den : Nat) (e : Int) : Prop where
  min_le : minExponent ≤ e
  floor_lt : scaledFloor num den e < 2 ^ 53
  normal : e = minExponent ∨ 2 ^ 52 ≤ scaledFloor num den e

theorem IsExponent.le {e e' : Int} (h : IsExponent num den e) (h' : IsExponent num den e') :
    e' ≤ e := by
  by_contra hlt
  -- one step above `e` the quotient has lost its leading bit
  have hstep := scaledFloor_succ num den e
  have hmono := scaledFloor_antitone num den (show e + 1 ≤ e' by omega)
  have hfloor := h.floor_lt
  have hmin := h.min_le
  rcases h'.normal with hmin' | hfloor' <;> omega

/-- **A quotient has one exponent.** -/
theorem IsExponent.unique {e e' : Int} (h : IsExponent num den e) (h' : IsExponent num den e') :
    e = e' := le_antisymm (h'.le h) (h.le h')

/-- **`exponentOf` finds the exponent.** -/
theorem isExponent_exponentOf (hnum : 0 < num) (hden : 0 < den) :
    IsExponent num den (exponentOf num den) := by
  unfold exponentOf
  simp only [Nat.pow_eq]
  set low := max minExponent ((num.log2 : Int) - den.log2 - 53) with hlow
  have hge : (num.log2 : Int) - den.log2 - 53 ≤ low := le_max_right _ _
  have hmin : minExponent ≤ low := le_max_left _ _
  split_ifs with hfits
  · refine ⟨hmin, hfits, ?_⟩
    rcases max_choice minExponent ((num.log2 : Int) - den.log2 - 53) with h | h
    · exact Or.inl (hlow.trans h)
    · exact Or.inr (le_scaledFloor hnum hden (by omega))
  · have hstep := scaledFloor_succ num den low
    have hlt : scaledFloor num den low < 2 ^ 54 := scaledFloor_lt hden (by omega)
    exact ⟨by omega, by omega, Or.inr (by omega)⟩

theorem IsExponent.exponentOf_eq {e : Int} (hnum : 0 < num) (hden : 0 < den)
    (h : IsExponent num den e) : exponentOf num den = e :=
  (isExponent_exponentOf hnum hden).unique h

theorem exponentOf_scale {k : Nat} (hk : 0 < k) (hnum : 0 < num) (hden : 0 < den) :
    exponentOf (num * k) (den * k) = exponentOf num den := by
  have h := isExponent_exponentOf hnum hden
  refine IsExponent.exponentOf_eq (by positivity) (by positivity) ⟨h.min_le, ?_, ?_⟩
  · rw [scaledFloor_scale hk]
    exact h.floor_lt
  · rw [scaledFloor_scale hk]
    exact h.normal

/-- **Rounding a quotient depends on its value alone.** -/
theorem ofQuotient?_scale (negative : Bool) {k : Nat} (hk : 0 < k) (hnum : 0 < num)
    (hden : 0 < den) :
    ofQuotient? negative (num * k) (den * k) = ofQuotient? negative num den := by
  simp only [ofQuotient?, exponentOf_scale hk hnum hden, scaledNearest_scale hk]

/-! ## Numbers in normal form -/

/-- The normal form of a finite number. -/
structure Canonical (x : Binary64) : Prop where
  mantissa_lt : x.mantissa < 2 ^ 53
  normal : x.exponent = minExponent ∨ 2 ^ 52 ≤ x.mantissa
  min_le : minExponent ≤ x.exponent
  le_max : x.exponent ≤ maxExponent

instance (x : Binary64) : Decidable x.Canonical :=
  decidable_of_iff (x.mantissa < 2 ^ 53 ∧ (x.exponent = minExponent ∨ 2 ^ 52 ≤ x.mantissa) ∧
      minExponent ≤ x.exponent ∧ x.exponent ≤ maxExponent)
    ⟨fun ⟨h₁, h₂, h₃, h₄⟩ => ⟨h₁, h₂, h₃, h₄⟩, fun h => ⟨h.1, h.2, h.3, h.4⟩⟩

theorem zero_of_canonical {x : Binary64} (hx : x.Canonical) (hm : x.mantissa = 0) :
    zero x.negative = x := by
  have hnormal := hx.normal
  obtain ⟨negative, mantissa, exponent⟩ := x
  obtain rfl : mantissa = 0 := hm
  obtain rfl : exponent = minExponent := by simpa using hnormal
  rfl

theorem ofQuotient?_of_eq {x : Binary64} (hx : x.Canonical) (hnum : 0 < num) (hden : 0 < den)
    (hfloor : scaledFloor num den x.exponent = x.mantissa)
    (hnearest : scaledNearest num den x.exponent = x.mantissa) :
    ofQuotient? x.negative num den = some x := by
  have hexp : exponentOf num den = x.exponent := by
    refine IsExponent.exponentOf_eq hnum hden ⟨hx.min_le, ?_, ?_⟩
    · rw [hfloor]
      exact hx.mantissa_lt
    · rw [hfloor]
      exact hx.normal
  unfold ofQuotient?
  simp only [hexp, hnearest, Nat.pow_eq, if_pos hx.mantissa_lt]
  rw [if_neg (not_lt.mpr hx.le_max)]

end Binary64

/-! ## Decimals -/

theorem decimalLength_le_iff {n k : Nat} (hk : 0 < k) : decimalLength n ≤ k ↔ n < 10 ^ k :=
  Nat.length_toDigits_le_iff (by decide) hk

theorem decimalLength_pos (n : Nat) : 0 < decimalLength n := Nat.length_toDigits_pos

theorem lt_decimalLength_iff {n k : Nat} (hn : 0 < n) : k < decimalLength n ↔ 10 ^ k ≤ n := by
  cases k with
  | zero => exact iff_of_true (decimalLength_pos n) (by simp; omega)
  | succ k => rw [← not_le, decimalLength_le_iff (Nat.succ_pos k), not_lt]

theorem decimalLength_mul_ten {n : Nat} (hn : 0 < n) :
    decimalLength (n * 10) = decimalLength n + 1 := by
  have hpos := decimalLength_pos n
  have hlt : n < 10 ^ decimalLength n := (decimalLength_le_iff hpos).mp le_rfl
  have hle : 10 ^ (decimalLength n - 1) ≤ n := (lt_decimalLength_iff hn).mp (by omega)
  apply le_antisymm
  · rw [decimalLength_le_iff (by omega), pow_succ]
    omega
  · have hpow : 10 ^ decimalLength n = 10 ^ (decimalLength n - 1) * 10 := by
      rw [← pow_succ, Nat.sub_add_cancel hpos]
    rw [Nat.add_one_le_iff, lt_decimalLength_iff (by omega)]
    omega

namespace Binary64

theorem ofDecimal?_of_range (negative : Bool) {d : Decimal} (hd : d.digits ≠ 0)
    (hle : (decimalLength d.digits : Int) + d.exponent ≤ 310)
    (hge : -330 ≤ (decimalLength d.digits : Int) + d.exponent) : ofDecimal? negative d =
      if 0 ≤ d.exponent then ofQuotient? negative (d.digits * Nat.pow 10 d.exponent.toNat) 1
      else ofQuotient? negative d.digits (Nat.pow 10 (-d.exponent).toNat) := by
  unfold ofDecimal?
  simp only [if_neg hd, if_neg (not_lt.mpr hle), if_neg (not_lt.mpr hge)]

theorem ofDecimal?_mul_ten (negative : Bool) {n : Nat} (hn : 0 < n) (e : Int) :
    ofDecimal? negative ⟨n * 10, e⟩ = ofDecimal? negative ⟨n, e + 1⟩ := by
  have hlength := decimalLength_mul_ten hn
  have hmagnitude : (decimalLength (n * 10) : Int) + e = decimalLength n + (e + 1) := by omega
  by_cases hhigh : 310 < (decimalLength n : Int) + (e + 1)
  · simp [ofDecimal?, hmagnitude, hhigh, hn.ne']
  by_cases hlow : (decimalLength n : Int) + (e + 1) < -330
  · simp [ofDecimal?, hmagnitude, hhigh, hlow, hn.ne']
  rw [ofDecimal?_of_range negative (by simpa using hn.ne') (by simp only; omega) (by simp only; omega),
    ofDecimal?_of_range negative (by simpa using hn.ne') (by simp only; omega) (by simp only; omega)]
  simp only [Nat.pow_eq]
  rcases lt_trichotomy e (-1) with hlt | rfl | hgt
  · obtain ⟨k, rfl⟩ : ∃ k : Nat, e = -(k + 2 : Nat) := ⟨(-e - 2).toNat, by omega⟩
    have hself : (- -((k + 2 : Nat) : Int)).toNat = k + 2 := by omega
    have hsucc : (-(-((k + 2 : Nat) : Int) + 1)).toNat = k + 1 := by omega
    rw [if_neg (by omega), if_neg (by omega), hself, hsucc, pow_succ 10 (k + 1)]
    exact ofQuotient?_scale negative (by decide) hn (by positivity)
  · rw [if_neg (by decide), if_pos (by decide)]
    exact (ofQuotient?_scale negative (by decide : 0 < 10) hn (by decide : 0 < 1)).trans (by simp)
  · obtain ⟨k, rfl⟩ : ∃ k : Nat, e = k := ⟨e.toNat, by omega⟩
    have hsucc : ((k : Int) + 1).toNat = k + 1 := by omega
    rw [if_pos (by omega), if_pos (by omega), hsucc, Int.toNat_natCast, pow_succ', mul_assoc]

/-- **Rounding a decimal depends on its value alone**: zeros behind the digits count as powers of
ten. -/
theorem ofDecimal?_scale (negative : Bool) {n : Nat} (hn : 0 < n) (k : Nat) (e : Int) :
    ofDecimal? negative ⟨n * 10 ^ k, e⟩ = ofDecimal? negative ⟨n, e + k⟩ := by
  induction k generalizing e with
  | zero => simp
  | succ k ih =>
    rw [pow_succ, ← mul_assoc, ofDecimal?_mul_ten negative (by positivity), ih]
    congr 2
    omega

theorem decimalLength_whole_le {m k : Nat} (hm : m < 2 ^ 53) (hk : k ≤ 971) :
    decimalLength (m * 2 ^ k) ≤ 310 := by
  rw [decimalLength_le_iff (by decide)]
  calc m * 2 ^ k < 2 ^ 53 * 2 ^ k := by gcongr
    _ ≤ 2 ^ 53 * 2 ^ 971 := Nat.mul_le_mul_left _ (Nat.pow_le_pow_right (by decide) hk)
    _ ≤ 10 ^ 310 := by decide +kernel

theorem decimalLength_fraction {m k : Nat} (hpos : 0 < m) (hm : m < 2 ^ 53) (hk : k ≤ 1074) :
    k ≤ decimalLength (m * 5 ^ k) + 330 ∧ decimalLength (m * 5 ^ k) ≤ 310 + k := by
  constructor
  · by_contra hlow
    obtain ⟨j, rfl⟩ : ∃ j, k = j + 331 := ⟨k - 331, by omega⟩
    have hpow : ∀ i ≤ 743, 2 ^ i ≤ 5 ^ 331 := by decide +kernel
    have hle : 10 ^ j ≤ m * 5 ^ (j + 331) := by
      calc 10 ^ j = 2 ^ j * 5 ^ j := Nat.mul_pow 2 5 j
        _ ≤ 5 ^ 331 * 5 ^ j := Nat.mul_le_mul_right _ (hpow j (by omega))
        _ = 1 * 5 ^ (j + 331) := by rw [one_mul, pow_add, mul_comm]
        _ ≤ m * 5 ^ (j + 331) := Nat.mul_le_mul_right _ hpos
    have := (lt_decimalLength_iff (by positivity)).mpr hle
    omega
  · rw [decimalLength_le_iff (by omega), pow_add]
    calc m * 5 ^ k < 10 ^ 310 * 5 ^ k :=
          Nat.mul_lt_mul_of_pos_right (hm.trans (by decide +kernel)) (by positivity)
      _ ≤ 10 ^ 310 * 10 ^ k := Nat.mul_le_mul_left _ (Nat.pow_le_pow_left (by decide) k)

/-- **The exact decimal of a number is rounded to the number.** -/
theorem ofDecimal?_exactDecimal {x : Binary64} (hx : x.Canonical) (hm : x.mantissa ≠ 0) :
    ofDecimal? x.negative x.exactDecimal = some x := by
  have hpos : 0 < x.mantissa := Nat.pos_of_ne_zero hm
  have hmin := hx.min_le
  have hmax := hx.le_max
  unfold minExponent at hmin
  unfold maxExponent at hmax
  unfold exactDecimal
  by_cases h : 0 ≤ x.exponent
  · obtain ⟨k, hk⟩ : ∃ k : Nat, x.exponent = k := ⟨x.exponent.toNat, by omega⟩
    have hhigh := decimalLength_whole_le hx.mantissa_lt (show k ≤ 971 by omega)
    have hdigits : 0 < x.mantissa * 2 ^ k := by positivity
    rw [if_pos h, hk, Int.toNat_natCast, Nat.pow_eq,
      ofDecimal?_of_range _ hdigits.ne' (by simp only; omega) (by simp only; omega), if_pos le_rfl]
    refine ofQuotient?_of_eq hx (by simpa using hdigits) (by decide) ?_ ?_
    · rw [hk, scaledFloor, if_pos (by omega), Int.toNat_natCast, Nat.pow_eq]
      simp
    · rw [hk, scaledNearest, if_pos (by omega), Int.toNat_natCast, Nat.pow_eq]
      simpa using divNearestEven_mul_self x.mantissa (show 0 < 2 ^ k by positivity)
  · obtain ⟨k, hk⟩ : ∃ k : Nat, x.exponent = -k := ⟨(-x.exponent).toNat, by omega⟩
    obtain ⟨hlow, hhigh⟩ := decimalLength_fraction hpos hx.mantissa_lt (show k ≤ 1074 by omega)
    have hneg : (- -(k : Int)).toNat = k := by omega
    have hten : (10 : Nat) ^ k = 2 ^ k * 5 ^ k := Nat.mul_pow 2 5 k
    rw [if_neg h, hk, hneg, Nat.pow_eq,
      ofDecimal?_of_range _ (by positivity) (by simp only; omega) (by simp only; omega),
      if_neg (by simp only; omega), hneg, Nat.pow_eq, hten,
      ofQuotient?_scale _ (by positivity) hpos (by positivity)]
    refine ofQuotient?_of_eq hx hpos (by positivity) ?_ ?_
    · rw [hk, scaledFloor, if_neg (by omega), hneg, Nat.pow_eq,
        Nat.mul_div_cancel _ (by positivity)]
    · rw [hk, scaledNearest, if_neg (by omega), hneg, Nat.pow_eq]
      exact divNearestEven_mul_self x.mantissa (by positivity)

end Binary64

/-! ## Shortest decimals -/

namespace Binary64

theorem ofDecimal?_stripZeros (negative : Bool) (fuel : Nat) (d : Decimal) :
    ofDecimal? negative (d.stripZeros fuel) = ofDecimal? negative d := by
  induction fuel generalizing d with
  | zero => rfl
  | succ fuel ih =>
    unfold Decimal.stripZeros
    split_ifs with h
    · obtain ⟨hne, hmod⟩ := h
      have hdigits : d.digits / 10 * 10 = d.digits := by omega
      rw [ih, ← ofDecimal?_mul_ten negative (show 0 < d.digits / 10 by omega), hdigits]
    · rfl

variable {x : Binary64} {exact d : Decimal}

theorem readsBack_of_neighbour? {cut : Nat} (h : neighbour? x exact cut = some d) :
    readsBack x d = true := by
  unfold neighbour? at h
  simp only at h
  split at h
  case h_1 hbelow habove =>
    obtain rfl := Option.some.inj h
    split_ifs
    · exact hbelow
    · exact habove
  case h_2 hbelow _ => exact Option.some.inj h ▸ hbelow
  case h_3 habove => exact Option.some.inj h ▸ habove
  case h_4 => cases h

theorem readsBack_searchFrom (h : readsBack x exact = true) (total fuel length : Nat) :
    readsBack x (searchFrom x exact total fuel length) = true := by
  induction fuel generalizing length with
  | zero => exact h
  | succ fuel ih =>
    unfold searchFrom
    split_ifs
    · exact h
    · cases hneighbour : neighbour? x exact (total - length) with
      | none => exact ih (length + 1)
      | some d => exact readsBack_of_neighbour? hneighbour

/-- **The shortest decimal of a number is rounded to the number.** -/
theorem ofDecimal?_shortest (hx : x.Canonical) (hm : x.mantissa ≠ 0) :
    ofDecimal? x.negative x.shortest = some x := by
  have hexact : readsBack x x.exactDecimal = true := beq_iff_eq.mpr (ofDecimal?_exactDecimal hx hm)
  unfold shortest Decimal.normalize
  rw [ofDecimal?_stripZeros]
  exact beq_iff_eq.mp (readsBack_searchFrom hexact _ _ _)

theorem digits_shortest_pos (hx : x.Canonical) (hm : x.mantissa ≠ 0) : 0 < x.shortest.digits := by
  have hreads := ofDecimal?_shortest hx hm
  by_contra hzero
  -- no digits stand for zero, which has no mantissa
  rw [ofDecimal?, if_pos (by omega)] at hreads
  exact hm (congrArg mantissa (Option.some.inj hreads)).symm

end Binary64

end LogRouter
