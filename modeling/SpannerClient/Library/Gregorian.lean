import Mathlib.Tactic.IntervalCases

/-! The proleptic Gregorian calendar, and its days counted from January 1st of 1970. -/

namespace SpannerClient.Gregorian

def IsLeap (year : Int) : Prop := 4 ∣ year ∧ (¬ 100 ∣ year ∨ 400 ∣ year)

instance (year : Int) : Decidable (IsLeap year) := inferInstanceAs (Decidable (_ ∧ _))

def yearLength (year : Int) : Int := if IsLeap year then 366 else 365

def monthLength (year month : Int) : Int :=
  if month = 2 then if IsLeap year then 29 else 28
  else if month = 4 ∨ month = 6 ∨ month = 9 ∨ month = 11 then 30 else 31

def IsDay (year month day : Int) : Prop :=
  (1 ≤ month ∧ month ≤ 12) ∧ 1 ≤ day ∧ day ≤ monthLength year month

instance (year month day : Int) : Decidable (IsDay year month day) :=
  inferInstanceAs (Decidable (_ ∧ _))

def leapYears (year : Int) : Int := year / 4 - year / 100 + year / 400

def daysBeforeYear (year : Int) : Int :=
  365 * (year - 1970) + (leapYears (year - 1) - leapYears 1969)

def daysBeforeMonth (year month : Int) : Int :=
  ((List.range (month - 1).toNat).map fun (i : Nat) => monthLength year (i + 1)).sum

def dayNumber (year month day : Int) : Int :=
  daysBeforeYear year + daysBeforeMonth year month + (day - 1)

def next (year month day : Int) : Int × Int × Int :=
  if day < monthLength year month then (year, month, day + 1)
  else if month < 12 then (year, month + 1, 1) else (year + 1, 1, 1)

theorem leapYears_pred (year : Int) :
    leapYears year = leapYears (year - 1) + if IsLeap year then 1 else 0 := by
  simp only [leapYears]
  by_cases h : IsLeap year
  · rw [if_pos h]
    rw [IsLeap] at h
    omega
  · rw [if_neg h]
    rw [IsLeap] at h
    omega

@[simp] theorem daysBeforeYear_epoch : daysBeforeYear 1970 = 0 := rfl

theorem daysBeforeYear_succ (year : Int) :
    daysBeforeYear (year + 1) = daysBeforeYear year + yearLength year := by
  have hleap := leapYears_pred year
  rw [daysBeforeYear, daysBeforeYear, yearLength, Int.add_sub_cancel, hleap]
  split <;> omega

@[simp] theorem daysBeforeMonth_january (year : Int) : daysBeforeMonth year 1 = 0 := rfl

theorem daysBeforeMonth_succ (year : Int) {month : Int} (h : 1 ≤ month) :
    daysBeforeMonth year (month + 1) = daysBeforeMonth year month + monthLength year month := by
  have hsucc : (month + 1 - 1).toNat = (month - 1).toNat + 1 := by omega
  have hlast : (((month - 1).toNat : Nat) : Int) + 1 = month := by omega
  rw [daysBeforeMonth, daysBeforeMonth, hsucc, List.range_succ, List.map_append, List.sum_append,
    List.map_singleton, List.sum_singleton, hlast]

theorem daysBeforeMonth_eq (year : Int) {month : Int} (h : 1 ≤ month ∧ month ≤ 13) :
    daysBeforeMonth year month =
      (if 2 < month then if IsLeap year then 1 else 0 else 0) +
        (367 * month - 362) / 12 - (if 2 < month then 2 else 0) := by
  by_cases hleap : IsLeap year <;> obtain ⟨hfirst, hlast⟩ := h <;> interval_cases month <;>
    simp [daysBeforeMonth, monthLength, List.range_succ, hleap]

theorem daysBeforeMonth_end (year : Int) : daysBeforeMonth year 13 = yearLength year := by
  rw [daysBeforeMonth_eq year (by decide), yearLength]
  by_cases hleap : IsLeap year <;> simp [hleap]

@[simp] theorem dayNumber_epoch : dayNumber 1970 1 1 = 0 := rfl

theorem dayNumber_next {year month day : Int} (h : IsDay year month day) :
    dayNumber (next year month day).1 (next year month day).2.1 (next year month day).2.2 =
      dayNumber year month day + 1 := by
  obtain ⟨hmonth, hday⟩ := h
  rw [next]
  split
  · simp only [dayNumber]
    omega
  · split
    · simp only [dayNumber, daysBeforeMonth_succ year hmonth.1]
      omega
    · have hend := daysBeforeMonth_succ year (show 1 ≤ month from hmonth.1)
      have hdecember : month = 12 := by omega
      subst hdecember
      rw [show (12 : Int) + 1 = 13 from rfl, daysBeforeMonth_end] at hend
      simp only [dayNumber, daysBeforeYear_succ, daysBeforeMonth_january]
      omega

end SpannerClient.Gregorian
