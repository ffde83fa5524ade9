import LogRouter.Retention.Policy
import Mathlib.Algebra.Ring.Nat
import Mathlib.Tactic.Common

/-!
# Age limits

* `Instant.plus_eq_ofTotal`: outside of leap seconds, instants are moved exactly.
* `RetentionPolicy.exactCutoff`: the instant that lies as many units back as the age says.
* `RetentionPolicy.InRange`: the age is counted, and neither the span nor the instant is out of range.
* **`RetentionPolicy.cutoff?_eq`**: the cutoff is exact if it is in range, and there is none if not.
* **`RetentionPolicy.cutoff?_antitone`**: a larger age gives an earlier cutoff or none.
-/

namespace LogRouter

namespace Instant

theorem ofTotal_eq (n : Int) : ofTotal n = ⟨n / 1000000000, (n % 1000000000).toNat⟩ := by
  rw [ofTotal, carry, Int.fdiv_eq_ediv_of_nonneg n (by decide),
    Int.fmod_eq_emod_of_nonneg n (by decide), Int.zero_add]
  rfl

theorem total_ofTotal (n : Int) : (ofTotal n).total = n := by
  rw [ofTotal_eq]
  simp only [total, nanosPerSecond]
  omega

/-- **Outside of leap seconds** an instant is moved exactly. -/
theorem plus_eq_ofTotal {t : Instant} (h : t.isLeap = false) (nanos : Int) :
    t.plus nanos = ofTotal (t.total + nanos) := by
  have hsplit := Int.mul_tdiv_add_tmod nanos nanosPerSecond
  unfold plus
  rw [if_neg (by simp [h]), ofTotal_eq]
  simp only [carry, total, nanosPerSecond] at hsplit ⊢
  rw [Int.fdiv_eq_ediv_of_nonneg _ (by decide), Int.fmod_eq_emod_of_nonneg _ (by decide)]
  generalize nanos.tdiv ((1000000000 : Nat) : Int) = whole at hsplit ⊢
  generalize nanos.tmod ((1000000000 : Nat) : Int) = part at hsplit ⊢
  rw [Instant.mk.injEq]
  omega

end Instant

namespace RetentionPolicy

variable {policy : RetentionPolicy} {now : Instant}

/-- The instant that lies as many units back as the age says. -/
def exactCutoff (policy : RetentionPolicy) (now : Instant) : Instant :=
  .ofTotal (now.total - policy.unit.nanos * policy.maxAge.toNat)

/-- The age is a limit that is counted, and neither its span nor the cutoff is out of range. -/
def InRange (policy : RetentionPolicy) (now : Instant) : Prop :=
  1 ≤ policy.maxAge.toNat ∧ policy.maxAge.toNat ≤ 2 ^ 31 - 1 ∧
    (Span.mk (policy.unit.nanos * policy.maxAge.toNat)).Representable ∧
    (policy.exactCutoff now).Representable

instance (policy : RetentionPolicy) (now : Instant) : Decidable (policy.InRange now) :=
  inferInstanceAs (Decidable (_ ∧ _ ∧ _ ∧ _))

/-- **The cutoff is exact**, or there is none because something is out of range. -/
theorem cutoff?_eq (hleap : now.isLeap = false) :
    policy.cutoff? now = if policy.InRange now then some (policy.exactCutoff now) else none := by
  have hearlier : ∀ span : Span, now.minus? span =
      if (Instant.ofTotal (now.total - span.nanos)).Representable then
        some (Instant.ofTotal (now.total - span.nanos)) else none := fun span => by
    rw [Instant.minus?, Instant.plus_eq_ofTotal hleap, ← Int.sub_eq_add_neg]
  have hlargest : largestAge = 2 ^ 31 - 1 := rfl
  unfold cutoff? Span.times?
  simp only
  by_cases hage : policy.maxAge.toNat = 0 ∨ largestAge < policy.maxAge.toNat
  · rw [if_pos hage, if_neg fun ⟨hpos, hcounted, _⟩ => by omega]
  by_cases hspan : (Span.mk (policy.unit.nanos * policy.maxAge.toNat)).Representable
  · rw [if_neg hage, if_pos hspan, Option.bind_some, hearlier]
    refine if_congr ?_ rfl rfl
    exact ⟨fun h => ⟨by omega, by omega, hspan, h⟩, fun h => h.2.2.2⟩
  · rw [if_neg hage, if_neg hspan, Option.bind_none, if_neg fun h => hspan h.2.2.1]

theorem total_exactCutoff (policy : RetentionPolicy) (now : Instant) :
    (policy.exactCutoff now).total = now.total - policy.unit.nanos * policy.maxAge.toNat :=
  Instant.total_ofTotal _

/-- The same policy with another age limit. -/
def withAge (policy : RetentionPolicy) (age : UInt32) : RetentionPolicy := { policy with maxAge := age }

section Ages

variable {age age' : UInt32} (hunit : 0 < policy.unit.nanos) (hle : age ≤ age')
include hunit hle

theorem span_mono : 0 ≤ policy.unit.nanos * age.toNat ∧
    policy.unit.nanos * age.toNat ≤ policy.unit.nanos * age'.toNat :=
  ⟨Int.mul_nonneg (Int.le_of_lt hunit) (Int.natCast_nonneg _),
    Int.mul_le_mul_of_nonneg_left (Int.ofNat_le.mpr (UInt32.le_iff_toNat_le.mp hle))
      (Int.le_of_lt hunit)⟩

theorem inRange_of_le (hpos : 0 < age) (hnow : now.Representable) (hleap : now.isLeap = false)
    (h : (policy.withAge age').InRange now) : (policy.withAge age).InRange now := by
  obtain ⟨-, hlargest, hspan, hcutoff⟩ := h
  obtain ⟨hnonneg, hspans⟩ := span_mono hunit hle
  have hnanos : now.nanos < Instant.nanosPerSecond := Nat.lt_of_not_le (of_decide_eq_false hleap)
  refine ⟨UInt32.lt_iff_toNat_lt.mp hpos,
    Nat.le_trans (UInt32.le_iff_toNat_le.mp hle) hlargest, ?_, ?_⟩
  · simp only [withAge, Span.Representable] at hspan ⊢
    omega
  · simp only [withAge, Instant.Representable, exactCutoff, Instant.ofTotal_eq, Instant.total,
      Instant.nanosPerSecond] at hcutoff hnow hnanos ⊢
    omega

/-- **A larger age gives an earlier cutoff**, or none. -/
theorem cutoff?_antitone (hpos : 0 < age) (hnow : now.Representable) (hleap : now.isLeap = false)
    {cutoff' : Instant} (h : (policy.withAge age').cutoff? now = some cutoff') :
    ∃ cutoff, (policy.withAge age).cutoff? now = some cutoff ∧ cutoff'.total ≤ cutoff.total := by
  rw [cutoff?_eq hleap] at h
  split_ifs at h with hrange
  obtain rfl := Option.some.inj h
  refine ⟨(policy.withAge age).exactCutoff now, ?_, ?_⟩
  · rw [cutoff?_eq hleap, if_pos (inRange_of_le hunit hle hpos hnow hleap hrange)]
  · rw [total_exactCutoff, total_exactCutoff]
    exact Int.sub_le_sub_left (span_mono hunit hle).2 _

end Ages

end RetentionPolicy

end LogRouter
