import Mathlib.Algebra.Order.Ring.Int
import Mathlib.Data.Int.Order.Basic
import Mathlib.Tactic.IntervalCases
import Mathlib.Tactic.Ring

/-!
# The proleptic Gregorian calendar

Days are counted from 1970-01-01.  `toEpochDay` counts the days before a date, and `ofEpochDay`
finds the date of a day; it reckons in years that begin on the first of March, so that a leap day is
the last day of its year.  `ofEpochDay_spec` says that it returns a date, and the one of that day.
-/

namespace Calendar

/-- A year with a leap day. -/
def isLeapYear (year : ℤ) : Bool := year % 4 = 0 && (year % 100 ≠ 0 || year % 400 = 0)

/-- The days of a month. -/
def lengthOfMonth (year month : ℤ) : ℤ :=
  if month = 2 then (if isLeapYear year then 29 else 28)
  else if month = 4 ∨ month = 6 ∨ month = 9 ∨ month = 11 then 30
  else 31

/-- There is such a date. -/
def ValidDate (year month day : ℤ) : Prop :=
  1 ≤ month ∧ month ≤ 12 ∧ 1 ≤ day ∧ day ≤ lengthOfMonth year month

instance (year month day : ℤ) : Decidable (ValidDate year month day) :=
  inferInstanceAs (Decidable (_ ∧ _))

/-- The days from 1970-01-01 to a date. -/
def toEpochDay (year month day : ℤ) : ℤ :=
  365 * year + (year + 3) / 4 - (year + 99) / 100 + (year + 399) / 400
    + (367 * month - 362) / 12 + (day - 1)
    - (if 2 < month then (if isLeapYear year then 1 else 2) else 0)
    - 719528

/-- The days from the first of March of year 0 to that of a year. -/
def marchDay (year : ℤ) : ℤ := 365 * year + year / 4 - year / 100 + year / 400

/-- The year, reckoned from March, that contains a day counted from the first of March of year 0. -/
def marchYear (day : ℤ) : ℤ :=
  if day < marchDay ((400 * day + 591) / 146097) then (400 * day + 591) / 146097 - 1
  else (400 * day + 591) / 146097

/-- The year, the month and the day of a day counted from 1970-01-01. -/
def ofEpochDay (epochDay : ℤ) : ℤ × ℤ × ℤ :=
  let zeroDay := epochDay + 719468
  let year := marchYear zeroDay
  let doy := zeroDay - marchDay year
  let marchMonth := (doy * 5 + 2) / 153
  (year + marchMonth / 10, (marchMonth + 2) % 12 + 1, doy - (marchMonth * 306 + 5) / 10 + 1)

lemma isLeapYear_iff (year : ℤ) :
    isLeapYear year = true ↔ year % 4 = 0 ∧ (year % 100 ≠ 0 ∨ year % 400 = 0) := by
  simp [isLeapYear]

/-- A year has 365 days, and one more if the next February has 29. -/
lemma marchDay_succ (year : ℤ) :
    marchDay (year + 1) = marchDay year + if isLeapYear (year + 1) then 366 else 365 := by
  have h := isLeapYear_iff (year + 1)
  unfold marchDay
  split_ifs with hleap
  · rw [hleap] at h
    simp only [true_iff] at h
    omega
  · have hno : ¬((year + 1) % 4 = 0 ∧ ((year + 1) % 100 ≠ 0 ∨ (year + 1) % 400 = 0)) :=
      fun hyes => hleap (h.mpr hyes)
    omega

/-- The estimate is the right year or the one after it. -/
lemma marchYear_spec (day : ℤ) :
    marchDay (marchYear day) ≤ day ∧ day < marchDay (marchYear day + 1) := by
  unfold marchYear
  generalize hest : (400 * day + 591) / 146097 = est
  have hlow : 146097 * est ≤ 400 * day + 591 := by omega
  have hhigh : 400 * day + 591 < 146097 * (est + 1) := by omega
  have hafter : day < marchDay (est + 1) := by
    unfold marchDay
    omega
  split_ifs with h
  · refine ⟨?_, by rwa [Int.sub_add_cancel]⟩
    unfold marchDay
    omega
  · exact ⟨not_lt.mp h, hafter⟩

/-- What `toEpochDay` counts for the years, in years that begin in March. -/
lemma marchDay_add (year : ℤ) :
    365 * year + (year + 3) / 4 - (year + 99) / 100 + (year + 399) / 400 =
      marchDay year + if isLeapYear year then 0 else 1 := by
  have h := isLeapYear_iff year
  unfold marchDay
  by_cases hleap : isLeapYear year = true
  · rw [if_pos hleap]
    have hyes := h.mp hleap
    omega
  · rw [if_neg hleap]
    have hno := h.not.mp hleap
    omega

/-- The days of the months from March to December. -/
lemma toEpochDay_of_march_le {year month day : ℤ} (h3 : 3 ≤ month) (h12 : month ≤ 12) :
    toEpochDay year month day =
      marchDay year + ((month - 3) * 306 + 5) / 10 + (day - 1) - 719468 := by
  have hmonth : (367 * month - 362) / 12 = ((month - 3) * 306 + 5) / 10 + 61 := by
    interval_cases month <;> rfl
  have h2 : 2 < month := by omega
  rw [toEpochDay, marchDay_add, hmonth]
  simp only [if_pos h2]
  split_ifs <;> ring

/-- Those of January and February, which belong to the year before. -/
lemma toEpochDay_of_le_february {year month day : ℤ} (h1 : 1 ≤ month) (h2 : month ≤ 2) :
    toEpochDay (year + 1) month day =
      marchDay year + ((month + 9) * 306 + 5) / 10 + (day - 1) - 719468 := by
  have hmonth : (367 * month - 362) / 12 = ((month + 9) * 306 + 5) / 10 - 306 := by
    interval_cases month <;> rfl
  have hyear : 365 * (year + 1) + (year + 1 + 3) / 4 - (year + 1 + 99) / 100
      + (year + 1 + 399) / 400 = marchDay year + 366 := by
    unfold marchDay
    omega
  rw [toEpochDay, hyear, hmonth, if_neg (by omega)]
  ring

/-- A month is as long as the days to the next one; only February is at the end. -/
lemma lengthOfMonth_eq (year : ℤ) {marchMonth : ℤ} (h0 : 0 ≤ marchMonth) (h10 : marchMonth ≤ 10) :
    lengthOfMonth year ((marchMonth + 2) % 12 + 1) =
      ((marchMonth + 1) * 306 + 5) / 10 - (marchMonth * 306 + 5) / 10 := by
  interval_cases marchMonth <;> rfl

lemma lengthOfMonth_february (year : ℤ) :
    lengthOfMonth year 2 = if isLeapYear year then 29 else 28 := rfl

/-- A day of a year that begins in March, as a date. -/
lemma ofEpochDay_march (year doy : ℤ) (h0 : 0 ≤ doy)
    (h : doy < if isLeapYear (year + 1) then 366 else 365) :
    let marchMonth := (doy * 5 + 2) / 153
    let date := (year + marchMonth / 10, (marchMonth + 2) % 12 + 1,
      doy - (marchMonth * 306 + 5) / 10 + 1)
    ValidDate date.1 date.2.1 date.2.2 ∧
      toEpochDay date.1 date.2.1 date.2.2 = marchDay year + doy - 719468 := by
  intro marchMonth
  have hle : doy ≤ 365 := by
    split_ifs at h <;> omega
  obtain ⟨hlow, hhigh⟩ : 0 ≤ marchMonth ∧ marchMonth ≤ 11 := by omega
  obtain ⟨hfst, hlst⟩ : (marchMonth * 306 + 5) / 10 ≤ doy ∧
      doy < ((marchMonth + 1) * 306 + 5) / 10 := by omega
  clear_value marchMonth
  rcases le_or_gt marchMonth 9 with h9 | h9
  · have hmonth : (marchMonth + 2) % 12 + 1 = marchMonth + 3 := by omega
    have hlength := lengthOfMonth_eq year hlow (h9.trans (by decide))
    have hyear : year + marchMonth / 10 = year := by omega
    simp only [hmonth, hyear] at hlength ⊢
    refine ⟨⟨by omega, by omega, by omega, by omega⟩, ?_⟩
    rw [toEpochDay_of_march_le (by omega) (by omega), Int.add_sub_cancel]
    ring
  · have hmonth : (marchMonth + 2) % 12 + 1 = marchMonth - 9 := by omega
    have hyear : year + marchMonth / 10 = year + 1 := by omega
    simp only [hmonth, hyear]
    refine ⟨⟨by omega, by omega, by omega, ?_⟩, ?_⟩
    · rcases (by omega : marchMonth = 10 ∨ marchMonth = 11) with rfl | rfl
      · have hjanuary : lengthOfMonth (year + 1) (10 - 9) = 31 := rfl
        omega
      · have hfebruary := lengthOfMonth_february (year + 1)
        rw [show (11 : ℤ) - 9 = 2 by rfl, hfebruary]
        split_ifs at h ⊢ <;> omega
    · rw [toEpochDay_of_le_february (by omega) (by omega), Int.sub_add_cancel]
      ring

/-- **Days and dates.** -/
theorem ofEpochDay_spec (epochDay : ℤ) :
    ValidDate (ofEpochDay epochDay).1 (ofEpochDay epochDay).2.1 (ofEpochDay epochDay).2.2 ∧
    toEpochDay (ofEpochDay epochDay).1 (ofEpochDay epochDay).2.1 (ofEpochDay epochDay).2.2 =
      epochDay := by
  obtain ⟨hlow, hhigh⟩ := marchYear_spec (epochDay + 719468)
  rw [marchDay_succ] at hhigh
  have hspec := ofEpochDay_march (marchYear (epochDay + 719468))
    (epochDay + 719468 - marchDay (marchYear (epochDay + 719468))) (by omega) (by omega)
  exact ⟨hspec.1, hspec.2.trans (by omega)⟩

end Calendar
