import Mathlib.Algebra.GroupWithZero.Nat
import Roster.Time.Calendar

/-!
# The calendar keeps the order of days

* `yearOf_spec` — the year found for a day is the one that contains it;
* `monthAndDay_mono` — within a year, a later day has a later month or a later
  day of the same month;
* `Date.ofDayNumber_mono` — a later day has a later date: by year, then month,
  then day;
* `Date.ofDayNumber_month_lt`, `Date.ofDayNumber_day_lt` — months and days have
  two digits.
-/

namespace Roster

/-- The dates are in order: by year, then month, then day. -/
def Date.Before (a b : Date) : Prop :=
  a.year < b.year ∨ a.year = b.year ∧ (a.month < b.month ∨ a.month = b.month ∧ a.day < b.day)

/-! ## Years -/

/-- The year found for a day begins by that day and ends after it. -/
theorem yearOf_spec (day : Int) :
    daysBeforeYear (yearOf day) ≤ day ∧ day < daysBeforeYear (yearOf day + 1) := by
  simp only [yearOf]
  generalize hguess : 400 * day / 146097 = guess
  -- the guess is off by one year at most
  by_cases hearly : day < daysBeforeYear guess
  · rw [if_pos hearly, Int.sub_add_cancel]
    refine ⟨?_, hearly⟩
    unfold daysBeforeYear
    omega
  · rw [if_neg hearly]
    by_cases hlate : daysBeforeYear (guess + 1) ≤ day
    · rw [if_pos hlate]
      refine ⟨hlate, ?_⟩
      unfold daysBeforeYear
      omega
    · rw [if_neg hlate]
      exact ⟨Int.not_lt.mp hearly, Int.not_le.mp hlate⟩

/-- Years begin in order. -/
theorem daysBeforeYear_mono {y z : Int} (h : y ≤ z) : daysBeforeYear y ≤ daysBeforeYear z := by
  unfold daysBeforeYear
  omega

theorem daysBeforeYear_succ_le (year : Int) :
    daysBeforeYear (year + 1) ≤ daysBeforeYear year + 366 := by
  unfold daysBeforeYear
  omega

theorem yearOf_mono {day later : Int} (h : day < later) : yearOf day ≤ yearOf later := by
  refine Int.not_lt.mp ?_
  intro hlt
  have hbegin := daysBeforeYear_mono (Int.add_one_le_of_lt hlt)
  have hday := (yearOf_spec day).1
  have hlater := (yearOf_spec later).2
  omega

/-! ## Months and days -/

theorem le_monthAndDay (month : Nat) (lengths : List Nat) (day : Nat) :
    month ≤ (monthAndDay month lengths day).1 := by
  induction lengths generalizing month day with
  | nil => exact Nat.le_refl month
  | cons length rest ih =>
    unfold monthAndDay
    split
    · exact Nat.le_refl month
    · exact Nat.le_trans (Nat.le_succ month) (ih (month + 1) (day - length))

theorem monthAndDay_le (month : Nat) (lengths : List Nat) (day : Nat) :
    (monthAndDay month lengths day).1 ≤ month + lengths.length := by
  induction lengths generalizing month day with
  | nil => exact Nat.le_refl month
  | cons length rest ih =>
    unfold monthAndDay
    rw [List.length_cons]
    split
    · exact Nat.le_add_right _ _
    · have := ih (month + 1) (day - length)
      omega

/-- A day of the month stays below a bound on the lengths, if the day of the year is not
far past their sum. -/
theorem monthAndDay_day_le {bound : Nat} (month : Nat) {lengths : List Nat} {day : Nat}
    (hlengths : ∀ length ∈ lengths, length ≤ bound) (hday : day < lengths.sum + bound) :
    (monthAndDay month lengths day).2 ≤ bound := by
  induction lengths generalizing month day with
  | nil =>
    rw [List.sum_nil, Nat.zero_add] at hday
    exact hday
  | cons length rest ih =>
    rw [List.forall_mem_cons] at hlengths
    rw [List.sum_cons] at hday
    unfold monthAndDay
    split
    · exact Nat.le_trans (by omega) hlengths.1
    · exact ih (month + 1) hlengths.2 (by omega)

/-- Within a year, months and days of the month keep the order of days. -/
theorem monthAndDay_mono (month : Nat) (lengths : List Nat) {day later : Nat} (h : day < later) :
    (monthAndDay month lengths day).1 < (monthAndDay month lengths later).1 ∨
      (monthAndDay month lengths day).1 = (monthAndDay month lengths later).1 ∧
        (monthAndDay month lengths day).2 < (monthAndDay month lengths later).2 := by
  induction lengths generalizing month day later with
  | nil => exact .inr ⟨rfl, Nat.succ_lt_succ h⟩
  | cons length rest ih =>
    unfold monthAndDay
    by_cases hlater : later < length
    · rw [if_pos hlater, if_pos (Nat.lt_trans h hlater)]
      exact .inr ⟨rfl, Nat.succ_lt_succ h⟩
    · rw [if_neg hlater]
      by_cases hday : day < length
      · rw [if_pos hday]
        exact .inl (le_monthAndDay (month + 1) rest (later - length))
      · rw [if_neg hday]
        exact ih (month + 1) (by omega)

/-! ## Dates -/

namespace Date

/-- A later day has a later date. -/
theorem ofDayNumber_mono {day later : Int} (h : day < later) :
    (ofDayNumber day).Before (ofDayNumber later) := by
  rcases Int.lt_or_eq_of_le (yearOf_mono h) with hyear | hyear
  · exact .inl hyear
  · -- within one year the days of the year decide
    refine .inr ⟨hyear, ?_⟩
    have hbegin := (yearOf_spec day).1
    simp only [ofDayNumber]
    rw [← hyear]
    exact monthAndDay_mono 1 _ (by omega)

theorem ofDayNumber_month_lt (day : Int) : (ofDayNumber day).month < 100 := by
  have hle := monthAndDay_le 1 (monthLengths (isLeapYear (yearOf day)))
    (day - daysBeforeYear (yearOf day)).toNat
  have hlength : (monthLengths (isLeapYear (yearOf day))).length = 12 := rfl
  simp only [ofDayNumber]
  omega

theorem ofDayNumber_day_lt (day : Int) : (ofDayNumber day).day < 100 := by
  have hlengths : ∀ leap, (∀ length ∈ monthLengths leap, length ≤ 31) ∧
      365 ≤ (monthLengths leap).sum := by decide
  obtain ⟨hbound, hsum⟩ := hlengths (isLeapYear (yearOf day))
  have hspec := yearOf_spec day
  have hyear := daysBeforeYear_succ_le (yearOf day)
  have hle : (monthAndDay 1 (monthLengths (isLeapYear (yearOf day)))
      (day - daysBeforeYear (yearOf day)).toNat).2 ≤ 31 :=
    monthAndDay_day_le 1 hbound (by omega)
  simp only [ofDayNumber]
  omega

end Date

end Roster
