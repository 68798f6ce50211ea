import Mathlib.Tactic.IntervalCases
import Mathlib.Data.Int.Notation
import Mathlib.Data.Nat.Notation

/-!
# The proleptic Gregorian calendar

Days counted from 1 January 1970, and the year, month and day of the month that each of them falls on.
Months are counted from zero, and there is a year zero.

`civil_inverse`: the year, month and day of a day number give that day number back.
-/

namespace Interledger.Calendar

/-- The first day of a year. -/
def dayFromYear (year : ℤ) : ℤ :=
  365 * (year - 1970) + (year - 1969) / 4 - (year - 1901) / 100 + (year - 1601) / 400

/-- The year has a 29 February. -/
def isLeapYear (year : ℤ) : Bool := year % 4 = 0 ∧ (year % 100 ≠ 0 ∨ year % 400 = 0)

/-- The days of a year before each of its months, in a year that is no leap year. -/
def daysBeforeMonth : ℕ → ℤ
  | 0 => 0
  | 1 => 31
  | 2 => 59
  | 3 => 90
  | 4 => 120
  | 5 => 151
  | 6 => 181
  | 7 => 212
  | 8 => 243
  | 9 => 273
  | 10 => 304
  | _ => 334

/-- The first day of a month within its year. -/
def dayFromMonth (leap : Bool) (month : ℕ) : ℤ :=
  daysBeforeMonth month + if leap && 2 ≤ month then 1 else 0

/-- The year that a day falls in: an estimate, put right where it is off by a year. -/
def yearFromDay (day : ℤ) : ℤ :=
  let estimate := 1970 + day * 400 / 146097
  if day < dayFromYear estimate then estimate - 1
  else if dayFromYear (estimate + 1) ≤ day then estimate + 1
  else estimate

/-- The number of a day within its year. -/
def dayWithinYear (day : ℤ) : ℤ := day - dayFromYear (yearFromDay day)

/-- The last of the first `n` months that begins by a day of the year. -/
def lastMonth (leap : Bool) (dayInYear : ℤ) : ℕ → ℕ
  | 0 => 0
  | n + 1 => if dayFromMonth leap n ≤ dayInYear then n else lastMonth leap dayInYear n

/-- The month that a day falls in. -/
def monthFromDay (day : ℤ) : ℕ := lastMonth (isLeapYear (yearFromDay day)) (dayWithinYear day) 12

/-- The day of the month, from 1 on. -/
def dateFromDay (day : ℤ) : ℤ :=
  dayWithinYear day - dayFromMonth (isLeapYear (yearFromDay day)) (monthFromDay day) + 1

/-- The day number of a day of the month, where months and days past the end run on into what follows. -/
def makeDay (year month date : ℤ) : ℤ :=
  dayFromYear (year + month / 12) +
    dayFromMonth (isLeapYear (year + month / 12)) (month % 12).toNat + date - 1

/-- A year has 365 days, or 366. -/
theorem dayFromYear_succ (year : ℤ) :
    dayFromYear (year + 1) = dayFromYear year + 365 + if isLeapYear year then 1 else 0 := by
  have h_leap : isLeapYear year = true ↔ year % 4 = 0 ∧ (year % 100 ≠ 0 ∨ year % 400 = 0) :=
    decide_eq_true_iff
  unfold dayFromYear
  split_ifs with h
  · have h_days := h_leap.mp h
    omega
  · have h_days := h_leap.not.mp h
    omega

/-- **The year of a day** is the one between whose first days it lies. -/
theorem dayFromYear_yearFromDay (day : ℤ) :
    dayFromYear (yearFromDay day) ≤ day ∧ day < dayFromYear (yearFromDay day + 1) := by
  unfold yearFromDay
  simp only
  generalize h_estimate : 1970 + day * 400 / 146097 = estimate
  -- the estimate is at most a year off
  have h_low : dayFromYear (estimate - 1) ≤ day := by
    unfold dayFromYear
    omega
  have h_high : day < dayFromYear (estimate + 1 + 1) := by
    unfold dayFromYear
    omega
  split_ifs with h_before h_after
  · rw [sub_add_cancel]
    exact ⟨h_low, h_before⟩
  · exact ⟨h_after, h_high⟩
  · exact ⟨not_lt.mp h_before, not_le.mp h_after⟩

/-- A day of the year. -/
theorem dayWithinYear_bounds (day : ℤ) : 0 ≤ dayWithinYear day ∧
    dayWithinYear day < 365 + if isLeapYear (yearFromDay day) then 1 else 0 := by
  obtain ⟨h_low, h_high⟩ := dayFromYear_yearFromDay day
  rw [dayFromYear_succ] at h_high
  unfold dayWithinYear
  omega

/-- The last month that begins by a day is followed by one that does not. -/
theorem lastMonth_spec {leap : Bool} {day : ℤ} (h_nonneg : 0 ≤ day) (n : ℕ) :
    lastMonth leap day (n + 1) ≤ n ∧ dayFromMonth leap (lastMonth leap day (n + 1)) ≤ day ∧
      ∀ m ≤ n, lastMonth leap day (n + 1) < m → day < dayFromMonth leap m := by
  induction n with
  | zero =>
    have h_first : dayFromMonth leap 0 = 0 := by cases leap <;> rfl
    rw [lastMonth, if_pos (by rw [h_first]; exact h_nonneg)]
    exact ⟨le_rfl, by rw [h_first]; exact h_nonneg, fun m hm h_after => by omega⟩
  | succ n ih =>
    obtain ⟨h_le, h_begun, h_after⟩ := ih
    rw [lastMonth]
    split
    · next h_last => exact ⟨le_rfl, h_last, fun m hm h_more => by omega⟩
    · next h_not =>
      refine ⟨by omega, h_begun, fun m hm h_more => ?_⟩
      rcases Nat.lt_or_ge n m with h_top | h_below
      · obtain rfl : m = n + 1 := by omega
        exact not_le.mp h_not
      · exact h_after m h_below h_more

/-- No month is longer than 31 days. -/
theorem dayFromMonth_succ_le :
    ∀ leap : Bool, ∀ m < 11, dayFromMonth leap (m + 1) ≤ dayFromMonth leap m + 31 := by
  decide

/-- **The month of a day of the year**: the day is at most the 31st of it. -/
theorem lastMonth_bounds {leap : Bool} {day : ℤ} (h_nonneg : 0 ≤ day)
    (h_lt : day < 365 + if leap then 1 else 0) :
    lastMonth leap day 12 < 12 ∧ dayFromMonth leap (lastMonth leap day 12) ≤ day ∧
      day < dayFromMonth leap (lastMonth leap day 12) + 31 := by
  obtain ⟨h_le, h_begun, h_after⟩ : lastMonth leap day 12 ≤ 11 ∧
      dayFromMonth leap (lastMonth leap day 12) ≤ day ∧
      ∀ m ≤ 11, lastMonth leap day 12 < m → day < dayFromMonth leap m := lastMonth_spec h_nonneg 11
  refine ⟨by omega, h_begun, ?_⟩
  by_cases h_december : lastMonth leap day 12 = 11
  · have h_end : (365 + if leap then 1 else 0) ≤ dayFromMonth leap 11 + 31 := by
      cases leap <;> decide
    rw [h_december]
    omega
  · have h_next := h_after (lastMonth leap day 12 + 1) (by omega) (Nat.lt_succ_self _)
    exact h_next.trans_le (dayFromMonth_succ_le leap _ (by omega))

theorem monthFromDay_lt (day : ℤ) : monthFromDay day < 12 := by
  obtain ⟨h_low, h_high⟩ := dayWithinYear_bounds day
  exact (lastMonth_bounds h_low h_high).1

theorem dateFromDay_bounds (day : ℤ) : 1 ≤ dateFromDay day ∧ dateFromDay day ≤ 31 := by
  obtain ⟨h_low, h_high⟩ := dayWithinYear_bounds day
  obtain ⟨-, h_first, h_last⟩ := lastMonth_bounds h_low h_high
  unfold dateFromDay monthFromDay
  omega

/-- **The calendar is a numbering of the days.** -/
theorem civil_inverse (day : ℤ) :
    makeDay (yearFromDay day) (monthFromDay day) (dateFromDay day) = day := by
  have h_month := monthFromDay_lt day
  have h_year : yearFromDay day + (monthFromDay day : ℤ) / 12 = yearFromDay day := by omega
  have h_same : ((monthFromDay day : ℤ) % 12).toNat = monthFromDay day := by omega
  rw [makeDay, h_year, h_same, dateFromDay, dayWithinYear]
  omega

example : (yearFromDay 19782, monthFromDay 19782, dateFromDay 19782) = (2024, 1, 29) := by decide

end Interledger.Calendar
