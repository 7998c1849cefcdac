import SpannerClient.Date
import SpannerClient.Library.DayNumbers
import SpannerClient.Library.Truncation

namespace SpannerClient

open Gregorian Truncation

theorem isLeapYear_iff (y : Int) : isLeapYear y = true ↔ IsLeap y := by
  simp only [isLeapYear, IsLeap, decide_eq_true_eq, ne_eq, ← Int.dvd_iff_tmod_eq_zero]

theorem daysPerMonth_eq (y m : Int) : daysPerMonth y m = monthLength y m := by
  rw [daysPerMonth, kDaysPerMonth, monthLength]
  simp only [isLeapYear_iff]
  by_cases hfebruary : m = 2
  · subst hfebruary
    by_cases hleap : IsLeap y
    · simp [hleap]
    · simp [hleap]
  · simp [hfebruary]

namespace Date

theorem isDay (d : Date) : IsDay d.year d.month d.day := by
  have hday := d.day_mem
  rw [daysPerMonth_eq] at hday
  exact ⟨d.month_mem, hday⟩

def number (d : Date) : Int := dayNumber d.year d.month d.day

theorem dayNumber_carry {year month day : Int} (hmonth : 1 ≤ month) :
    dayNumber year (month + 1) (day - daysPerMonth year month) = dayNumber year month day := by
  rw [daysPerMonth_eq, dayNumber, dayNumber, daysBeforeMonth_succ year hmonth]
  omega

theorem dayNumber_carryYear (year day : Int) :
    dayNumber (year + 1) 1 (day - daysPerMonth year 12) = dayNumber year 12 day := by
  have hend := daysBeforeMonth_succ year (show (1 : Int) ≤ 12 by decide)
  rw [show (12 : Int) + 1 = 13 from rfl, daysBeforeMonth_end] at hend
  rw [daysPerMonth_eq, dayNumber, dayNumber, daysBeforeYear_succ, daysBeforeMonth_january]
  omega

theorem daysBeforeYear_le {year day : Int} (h : daysPerMonth year 12 < day) :
    daysBeforeYear (year + 1) ≤ dayNumber year 12 day := by
  rw [← dayNumber_carryYear, dayNumber, daysBeforeMonth_january]
  omega

theorem carryDays_number (year month day : Int) (hy : int64Min ≤ year ∧ year ≤ int64Max)
    (hm : 1 ≤ month ∧ month ≤ 12) (hd : 1 ≤ day)
    (h : dayNumber year month day < daysBeforeYear (int64Max + 1)) :
    (carryDays year month day hy hm hd).number = dayNumber year month day := by
  fun_induction carryDays year month day hy hm hd with
  | case1 year month day hy hm hd hlast => rfl
  | case2 year month day hy hm hd hlong hdecember ih =>
    have hmonth : month = 12 := by omega
    subst hmonth
    -- the year after the last one would begin too late
    have hlater := Int.lt_of_le_of_lt (daysBeforeYear_le (Int.not_le.mp hlong)) h
    have hyear : year + 1 < int64Max + 1 := daysBeforeYear_lt_iff.mp hlater
    have hsame : dayNumber (toInt64 (year + 1)) 1 (day - daysPerMonth year 12) =
        dayNumber year 12 day := by
      rw [toInt64_of_mem (by omega), dayNumber_carryYear]
    rw [ih (hsame ▸ h), hsame]
  | case3 year month day hy hm hd hlong hearlier ih =>
    have hsame : dayNumber year (month + 1) (day - daysPerMonth year month) =
        dayNumber year month day := dayNumber_carry hm.1
    rw [ih (hsame ▸ h), hsame]

def carriedYear (year month : Int) : Int := year + (month - 1) / 12

def carriedMonth (month : Int) : Int := (month - 1) % 12 + 1

structure YearArithmetic (year month day : Int) : Prop where
  months : int64Min ≤ year + month.tdiv 12 ∧ year + month.tdiv 12 ≤ int64Max
  borrow : month.tmod 12 ≤ 0 → int64Min ≤ year + month.tdiv 12 - 1
  eras : int64Min ≤ carriedYear year month + day.tdiv 146097 * 400 ∧
    carriedYear year month + day.tdiv 146097 * 400 ≤ int64Max
  borrowEra : day.tmod 146097 ≤ 0 →
    int64Min ≤ carriedYear year month + day.tdiv 146097 * 400 - 400
  reached : dayNumber (carriedYear year month) (carriedMonth month) day <
    daysBeforeYear (int64Max + 1)

section Constructor

variable {year month day : Int}

theorem reduce_eq (n : Int) {k : Int} (h : 0 < k) : reduce n k = (n - 1) % k + 1 := positive_tmod h

theorem carriedYear_eq (h : YearArithmetic year month day) :
    (if month.tmod 12 ≤ 0 then toInt64 (toInt64 (year + month.tdiv 12) - 1)
      else toInt64 (year + month.tdiv 12)) = carriedYear year month := by
  have hquot := positive_tdiv (a := month) (show (0 : Int) < 12 by decide)
  have hmonths := h.months
  rw [toInt64_of_mem hmonths, carriedYear, ← hquot]
  split
  case isTrue hneg =>
    rw [toInt64_of_mem ⟨h.borrow hneg, by omega⟩]
    omega
  case isFalse => rfl

theorem reachedYear_eq (h : YearArithmetic year month day) :
    toInt64 (if day.tmod 146097 ≤ 0 then
        toInt64 (carriedYear year month + day.tdiv 146097 * 400) - 400
      else toInt64 (carriedYear year month + day.tdiv 146097 * 400)) =
      carriedYear year month + (day - 1) / 146097 * 400 := by
  have hquot := positive_tdiv (a := day) (show (0 : Int) < 146097 by decide)
  have heras := h.eras
  rw [toInt64_of_mem heras, ← hquot]
  split
  case isTrue hneg =>
    rw [toInt64_of_mem ⟨h.borrowEra hneg, by omega⟩]
    omega
  case isFalse => rw [toInt64_of_mem heras]

theorem ofFields_number (h : YearArithmetic year month day) :
    (ofFields year month day).number =
      dayNumber (carriedYear year month) (carriedMonth month) day := by
  have hsame : dayNumber (carriedYear year month + (day - 1) / 146097 * 400) (carriedMonth month)
      ((day - 1) % 146097 + 1) = dayNumber (carriedYear year month) (carriedMonth month) day := by
    rw [dayNumber_era, dayNumber, dayNumber]
    omega
  have hreached := h.reached
  rw [← hsame, carriedMonth, ← reduce_eq month (by decide), ← reduce_eq day (by decide),
    ← reachedYear_eq h, ← carriedYear_eq h] at hreached ⊢
  exact carryDays_number _ _ _ _ _ _ hreached

theorem ofFields_of_isDay (h : YearArithmetic year month day) (hday : IsDay year month day) :
    (ofFields year month day).year = year ∧ (ofFields year month day).month = month ∧
      (ofFields year month day).day = day := by
  have hmonth := hday.1
  have hyear : carriedYear year month = year := by
    rw [carriedYear]
    omega
  have hsame : carriedMonth month = month := by
    rw [carriedMonth]
    omega
  have hnumber := ofFields_number h
  rw [hyear, hsame] at hnumber
  exact dayNumber_inj (isDay _) hday hnumber

/-- The day is that of the first of the month carried into the year, moved on; its name is that of
the calendar, which is kept when it is normalised again. -/
theorem ofFields_normalises (h : YearArithmetic year month day) :
    IsDay (ofFields year month day).year (ofFields year month day).month
      (ofFields year month day).day ∧
    dayNumber (ofFields year month day).year (ofFields year month day).month
        (ofFields year month day).day =
      dayNumber (carriedYear year month) (carriedMonth month) 1 + (day - 1) ∧
    ofFields (ofFields year month day).year (ofFields year month day).month
      (ofFields year month day).day = ofFields year month day ∧
    (IsDay year month day → (ofFields year month day).year = year ∧
      (ofFields year month day).month = month ∧ (ofFields year month day).day = day) := by
  have hnumber := ofFields_number h
  refine ⟨isDay _, ?_, ofFields_self _, ofFields_of_isDay h⟩
  rw [number] at hnumber
  rw [hnumber, dayNumber, dayNumber]
  omega

end Constructor

theorem ofFields_normalises_borrowed :
    dayNumber (ofFields 2020 (-33) 0).year (ofFields 2020 (-33) 0).month
      (ofFields 2020 (-33) 0).day = dayNumber 2017 3 1 - 1 :=
  (ofFields_normalises ⟨by decide, by decide, by decide, by decide, by decide⟩).2.1

end Date

end SpannerClient
