import SpannerClient.Library.Gregorian
import Mathlib.Order.Monotone.Basic

/-! The days of the calendar counted year by year and month by month, and that every number is
that of one day at most. -/

namespace SpannerClient.Gregorian

def countYears (year : Int) : Nat → Int
  | 0 => 0
  | n + 1 => countYears year n + yearLength (year + n)

def countMonths (year : Int) : Nat → Int
  | 0 => 0
  | n + 1 => countMonths year n + monthLength year (n + 1)

def countDays (year month day : Int) : Int :=
  (if 1970 ≤ year then countYears 1970 (year - 1970).toNat
    else -countYears year (1970 - year).toNat) + countMonths year (month - 1).toNat + (day - 1)

theorem countYears_eq (year : Int) (n : Nat) :
    countYears year n = daysBeforeYear (year + n) - daysBeforeYear year := by
  induction n with
  | zero => simp [countYears]
  | succ n ih =>
    have hsucc := daysBeforeYear_succ (year + n)
    rw [countYears, ih, show year + ((n + 1 : Nat) : Int) = year + n + 1 by omega, hsucc]
    omega

theorem countMonths_eq (year : Int) (n : Nat) :
    countMonths year n = daysBeforeMonth year (n + 1) := by
  induction n with
  | zero => rfl
  | succ n ih =>
    have hsucc := daysBeforeMonth_succ year (show 1 ≤ (n : Int) + 1 by omega)
    rw [countMonths, ih, show ((n + 1 : Nat) : Int) = n + 1 by omega, hsucc]

theorem countDays_eq (year day : Int) {month : Int} (h : 1 ≤ month) :
    countDays year month day = dayNumber year month day := by
  have hmonth : (((month - 1).toNat : Nat) : Int) + 1 = month := by omega
  rw [countDays, dayNumber, countMonths_eq, hmonth]
  split
  case isTrue hlater =>
    have hyear : 1970 + (((year - 1970).toNat : Nat) : Int) = year := by omega
    rw [countYears_eq, hyear, daysBeforeYear_epoch]
    omega
  case isFalse hearlier =>
    have hyear : year + (((1970 - year).toNat : Nat) : Int) = 1970 := by omega
    rw [countYears_eq, hyear, daysBeforeYear_epoch]
    omega

theorem daysBeforeYear_era (year era : Int) :
    daysBeforeYear (year + era * 400) = daysBeforeYear year + era * 146097 := by
  simp only [daysBeforeYear, leapYears]
  omega

theorem isLeap_era (year era : Int) : IsLeap (year + era * 400) ↔ IsLeap year := by
  simp only [IsLeap]
  omega

theorem daysBeforeMonth_era (year era month : Int) :
    daysBeforeMonth (year + era * 400) month = daysBeforeMonth year month := by
  simp only [daysBeforeMonth, monthLength, isLeap_era]

theorem dayNumber_era (year era month day : Int) :
    dayNumber (year + era * 400) month day = dayNumber year month day + era * 146097 := by
  rw [dayNumber, dayNumber, daysBeforeYear_era, daysBeforeMonth_era]
  omega

theorem daysBeforeYear_lt_iff {year later : Int} :
    daysBeforeYear year < daysBeforeYear later ↔ year < later := by
  have hstep (year : Int) : daysBeforeYear year < daysBeforeYear (year + 1) := by
    rw [daysBeforeYear_succ, yearLength]
    split <;> omega
  exact (strictMono_int_of_lt_succ hstep).lt_iff_lt

theorem daysBeforeYear_le_iff {year later : Int} :
    daysBeforeYear year ≤ daysBeforeYear later ↔ year ≤ later := by
  rw [← Int.not_lt, ← Int.not_lt, daysBeforeYear_lt_iff]

theorem daysBeforeMonth_le (year : Int) {month later : Int} (h : 1 ≤ month) (hle : month ≤ later)
    (hlater : later ≤ 13) : daysBeforeMonth year month ≤ daysBeforeMonth year later := by
  rw [daysBeforeMonth_eq year ⟨h, by omega⟩, daysBeforeMonth_eq year ⟨by omega, hlater⟩]
  split_ifs <;> omega

variable {year month day year' month' day' : Int}

theorem IsDay.dayOfYear_mem (h : IsDay year month day) :
    0 ≤ daysBeforeMonth year month + (day - 1) ∧
      daysBeforeMonth year month + (day - 1) < yearLength year := by
  obtain ⟨hmonth, hday⟩ := h
  have hfirst := daysBeforeMonth_le year (show (1 : Int) ≤ 1 by decide) hmonth.1 (by omega)
  have hlast := daysBeforeMonth_le year (show 1 ≤ month + 1 by omega)
    (show month + 1 ≤ 13 by omega) (by decide)
  rw [daysBeforeMonth_january] at hfirst
  rw [daysBeforeMonth_succ year hmonth.1, daysBeforeMonth_end] at hlast
  omega

theorem IsDay.year_mem (h : IsDay year month day) :
    daysBeforeYear year ≤ dayNumber year month day ∧
      dayNumber year month day < daysBeforeYear (year + 1) := by
  have hmem := h.dayOfYear_mem
  rw [daysBeforeYear_succ, dayNumber]
  omega

theorem IsDay.year_le (h : IsDay year month day) (h' : IsDay year' month' day')
    (hle : dayNumber year month day ≤ dayNumber year' month' day') : year ≤ year' := by
  have hlt := Int.lt_of_le_of_lt (Int.le_trans h.year_mem.1 hle) h'.year_mem.2
  have hyear := daysBeforeYear_lt_iff.mp hlt
  omega

theorem IsDay.month_le (h : IsDay year month day) (h' : IsDay year month' day')
    (hle : dayNumber year month day ≤ dayNumber year month' day') : month ≤ month' := by
  by_contra hlt
  have hafter := daysBeforeMonth_le year (show 1 ≤ month' + 1 by have := h'.1.1; omega)
    (show month' + 1 ≤ month by omega) (by have := h.1.2; omega)
  rw [daysBeforeMonth_succ year h'.1.1] at hafter
  have hday := h.2.1
  have hday' := h'.2.2
  simp only [dayNumber] at hle
  omega

theorem dayNumber_inj (h : IsDay year month day) (h' : IsDay year' month' day')
    (heq : dayNumber year month day = dayNumber year' month' day') :
    year = year' ∧ month = month' ∧ day = day' := by
  have hyear : year = year' := Int.le_antisymm (h.year_le h' heq.le) (h'.year_le h heq.ge)
  subst hyear
  have hmonth : month = month' := Int.le_antisymm (h.month_le h' heq.le) (h'.month_le h heq.ge)
  subst hmonth
  simp only [dayNumber] at heq
  exact ⟨rfl, rfl, by omega⟩

end SpannerClient.Gregorian
