import LogRouter.Calendar.Date
import Mathlib.Algebra.Ring.Nat
import Mathlib.Tactic.Common

/-!
# Days and dates

* `daysBeforeYear_succ`: a year begins after the days of the year before it.
* **`epochDay_ofEpochDay`**: every day has a date, and the date is that of the day.
* `monthDayFrom_spec`: the month and the day of the month count the days of the year.
* **`ofEpochDay_injective`**: year, month and day of the month tell the days apart.
-/

namespace LogRouter

/-! ## Years -/

theorem isLeapYear_iff {year : Int} :
    isLeapYear year = true ↔ year % 4 = 0 ∧ (year % 100 ≠ 0 ∨ year % 400 = 0) := by
  simp [isLeapYear]

theorem isLeapYear_of_natAbs {year year' : Int} (h : year.natAbs = year'.natAbs) :
    isLeapYear year = isLeapYear year' := by
  rw [Bool.eq_iff_iff, isLeapYear_iff, isLeapYear_iff]
  omega

theorem daysBeforeYear_succ (year : Int) :
    daysBeforeYear (year + 1) = daysBeforeYear year + yearLength year := by
  unfold daysBeforeYear yearLength
  by_cases hleap : isLeapYear year = true
  · rw [if_pos hleap]
    rw [isLeapYear_iff] at hleap
    omega
  · rw [if_neg hleap]
    rw [isLeapYear_iff] at hleap
    omega

namespace Date

theorem ofEpochDay_year (n : Int) : daysBeforeYear (ofEpochDay n).year ≤ n + epochOffset ∧
    n + epochOffset < daysBeforeYear ((ofEpochDay n).year + 1) := by
  unfold ofEpochDay
  generalize n + epochOffset = days
  -- the guess is off by one year at most
  have hguess : daysBeforeYear (days * 400 / 146097 + 1 - 1) ≤ days ∧
      days < daysBeforeYear (days * 400 / 146097 + 1 + 1 + 1) := by
    unfold daysBeforeYear
    omega
  simp only
  split_ifs with hlow hhigh
  · rw [Int.sub_add_cancel]
    exact ⟨hguess.1, hlow⟩
  · exact ⟨hhigh, hguess.2⟩
  · exact ⟨Int.not_lt.mp hlow, Int.not_le.mp hhigh⟩

/-- **The date of a day** is that of the day, and lies in its year. -/
theorem epochDay_ofEpochDay (n : Int) : (ofEpochDay n).epochDay = n ∧
    (ofEpochDay n).dayOfYear < yearLength (ofEpochDay n).year := by
  obtain ⟨hfirst, hlast⟩ := ofEpochDay_year n
  rw [daysBeforeYear_succ] at hlast
  have hday : (ofEpochDay n).dayOfYear =
      (n + epochOffset - daysBeforeYear (ofEpochDay n).year).toNat := rfl
  unfold epochDay
  omega

theorem natAbs_year_ofEpochDay_le {n : Int} (h : n.natAbs ≤ 100000000) :
    (ofEpochDay n).year.natAbs ≤ 999999 := by
  obtain ⟨hfirst, hlast⟩ := ofEpochDay_year n
  unfold daysBeforeYear epochOffset at *
  omega

end Date

/-! ## Months -/

theorem monthDayFrom_spec : ∀ {lengths : List Nat} (month : Nat) {n : Nat}, n < lengths.sum →
    ∃ i d, monthDayFrom month n lengths = (month + i, d + 1) ∧ i < lengths.length ∧
      d < lengths.getD i 0 ∧ n = (lengths.take i).sum + d
  | [], _, _, h => absurd h (Nat.not_lt_zero _)
  | length :: rest, month, n, h => by
    unfold monthDayFrom
    split_ifs with hn
    · exact ⟨0, n, rfl, Nat.zero_lt_succ _, hn, (Nat.zero_add n).symm⟩
    · rw [List.sum_cons] at h
      obtain ⟨i, d, heq, hi, hd, hsum⟩ := monthDayFrom_spec (month + 1)
        (show n - length < rest.sum by omega)
      refine ⟨i + 1, d, by rw [heq, Nat.add_assoc, Nat.add_comm 1 i], Nat.succ_lt_succ hi, hd, ?_⟩
      rw [List.take_succ_cons, List.sum_cons]
      omega

namespace Date

theorem sum_monthLengths (year : Int) : (monthLengths (isLeapYear year)).sum = yearLength year := by
  unfold yearLength
  cases isLeapYear year <;> rfl

theorem monthDay_spec {date : Date} (h : date.dayOfYear < yearLength date.year) :
    ∃ i d, date.month = i + 1 ∧ date.day = d + 1 ∧ i < 12 ∧ d < 31 ∧
      date.dayOfYear = ((monthLengths (isLeapYear date.year)).take i).sum + d := by
  rw [← sum_monthLengths] at h
  obtain ⟨i, d, heq, hi, hd, hsum⟩ := monthDayFrom_spec 1 h
  have hmonths : (monthLengths (isLeapYear date.year)).length = 12 := by
    cases isLeapYear date.year <;> rfl
  have hlength : ∀ leap, ∀ i < 12, (monthLengths leap).getD i 0 ≤ 31 := by decide
  refine ⟨i, d, ?_, ?_, hmonths ▸ hi, Nat.lt_of_lt_of_le hd (hlength _ i (hmonths ▸ hi)), hsum⟩
  · rw [month, monthDay, heq, Nat.add_comm]
  · rw [day, monthDay, heq]

/-- **Year, month and day of the month** tell the days apart. -/
theorem ofEpochDay_injective {n n' : Int} (hyear : (ofEpochDay n).year = (ofEpochDay n').year)
    (hmonth : (ofEpochDay n).month = (ofEpochDay n').month)
    (hday : (ofEpochDay n).day = (ofEpochDay n').day) : n = n' := by
  obtain ⟨hn, hlt⟩ := epochDay_ofEpochDay n
  obtain ⟨hn', hlt'⟩ := epochDay_ofEpochDay n'
  obtain ⟨i, d, hi, hd, _, _, hcount⟩ := monthDay_spec hlt
  obtain ⟨i', d', hi', hd', _, _, hcount'⟩ := monthDay_spec hlt'
  have hsame : i = i' ∧ d = d' := by omega
  rw [← hn, ← hn', epochDay, epochDay, hyear, hcount, hcount', hyear, hsame.1, hsame.2]

end Date

end LogRouter
