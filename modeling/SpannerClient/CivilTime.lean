import SpannerClient.TimestampOffset
import SpannerClient.Library.DayNumbers

namespace SpannerClient

open Internal Gregorian

structure Internal.Tm.Civil (tm : Tm) : Prop where
  year : intMin ≤ tm.year ∧ tm.year ≤ intMax
  day : IsDay (tm.year + 1900) (tm.mon + 1) tm.mday
  hour : 0 ≤ tm.hour ∧ tm.hour ≤ 23
  min : 0 ≤ tm.min ∧ tm.min ≤ 59
  sec : 0 ≤ tm.sec ∧ tm.sec ≤ 59

namespace Timestamp

def InYears (s : Int) : Prop :=
  86400 * countDays kYearMin 1 1 ≤ s ∧ s < 86400 * countDays (kYearMax + 1) 1 1

theorem inYears_iff {s : Int} : InYears s ↔ printableMin ≤ s ∧ s ≤ printableMax := by
  have hfirst : 86400 * dayNumber kYearMin 1 1 = printableMin := by decide
  have hlast : 86400 * dayNumber (kYearMax + 1) 1 1 = printableMax + 1 := by decide
  rw [InYears, countDays_eq _ _ (by decide), countDays_eq _ _ (by decide), hfirst, hlast,
    Int.lt_add_one_iff]

theorem isLeap_of_dayOfYear {doe : Int} (h : 0 ≤ doe ∧ doe ≤ 146096) (hlast : dayOfYear doe = 365) :
    IsLeap (yearOfEra doe + 1) := by
  by_cases hera : doe = 146096
  · subst hera
    decide
  · have hday : 0 ≤ doe ∧ doe < 146096 := by omega
    have hcentury := yearOfEra_century hday
    have hleaps := yearOfEra_leaps hday
    have hquot : doe / 146096 = 0 := by omega
    have hyear : yearOfEra doe = (doe - doe / 1460 + doe / 36524 - doe / 146096) / 365 := rfl
    rw [hquot] at hyear
    rw [dayOfYear] at hlast
    -- only a 366th day lies a leap day ahead of the years before it
    have hbehind : doe / 1460 = yearOfEra doe / 4 + 1 := by omega
    have hthird : yearOfEra doe = 4 * (yearOfEra doe / 4) + 3 := by omega
    have hend : yearOfEra doe ≠ 100 * (doe / 36524) + 99 := by omega
    rw [IsLeap]
    omega

theorem dayOfYear_february {doy : Int} (h : 0 ≤ doy ∧ doy ≤ 365) (hmonth : calendarMonth doy = 2)
    (hday : 28 < calendarDay doy) : doy = 365 := by
  have hmem := marchMonth_mem h
  rw [calendarMonth] at hmonth
  have hmarch : marchMonth doy = 11 := by split at hmonth <;> omega
  rw [calendarDay, hmarch] at hday
  omega

theorem isDay_civil (s : Int) : IsDay (civilYear s) (civilMonth s) (civilDay s) := by
  have hmonth := civilMonth_mem s
  have hday := civilDay_mem s
  have hdoy := dayOfYear_mem (dayOfEra_mem s)
  refine ⟨hmonth, hday.1, ?_⟩
  rw [monthLength]
  split
  case isTrue hfebruary =>
    rw [hfebruary] at hday
    split
    case isTrue => exact hday.2
    case isFalse hleap =>
      by_contra hlong
      have hlast := dayOfYear_february hdoy hfebruary (Int.not_le.mp hlong)
      have hera := isLeap_of_dayOfYear (dayOfEra_mem s) hlast
      have hyear : civilYear s = yearOfEra (dayOfEra s) + 1 + era s * 400 := by
        rw [civilYear, if_pos (by omega)]
        omega
      exact hleap (hyear ▸ (isLeap_era _ _).mpr hera)
  case isFalse hother =>
    rw [if_neg hother, Int.add_zero, kMonthDays, if_neg hother] at hday
    exact hday.2

theorem zTime_civil {s : Int} (h : InYears s) : (zTime s).Civil := by
  have hyear := civilYear_mem (inYears_iff.mp h)
  have hback : civilYear s - 1900 + 1900 = civilYear s := by omega
  have hmonth : civilMonth s - 1 + 1 = civilMonth s := by omega
  rw [zTime_eq, toInt32_of_mem hyear]
  refine ⟨hyear, ?_, ?_, ?_, ?_⟩ <;> dsimp only
  case refine_1 =>
    rw [hback, hmonth]
    exact isDay_civil s
  all_goals omega

def secondOfDay (tm : Tm) : Int := 3600 * tm.hour + 60 * tm.min + tm.sec

theorem secondOfDay_mem {tm : Tm} (h : tm.Civil) : 0 ≤ secondOfDay tm ∧ secondOfDay tm < 86400 := by
  have hhour := h.hour
  have hmin := h.min
  have hsec := h.sec
  rw [secondOfDay]
  omega

theorem timeZ_civil {tm : Tm} (h : tm.Civil) :
    timeZ tm = 86400 * dayNumber (tm.year + 1900) (tm.mon + 1) tm.mday + secondOfDay tm := by
  have hfields : (⟨tm.year + 1900 - 1900, tm.mon + 1 - 1, tm.mday, tm.hour, tm.min, tm.sec⟩ : Tm) =
      tm := by
    rw [Int.add_sub_cancel, Int.add_sub_cancel]
  rw [secondOfDay, ← timeZ_eq h.day.1, hfields]

theorem timeZ_inYears {tm : Tm} (h : tm.Civil) : InYears (timeZ tm) := by
  have hyear := h.day.year_mem
  have hmem := secondOfDay_mem h
  have hbounds := h.year
  have hfirst : daysBeforeYear kYearMin ≤ daysBeforeYear (tm.year + 1900) :=
    daysBeforeYear_le_iff.mpr (by rw [kYearMin]; omega)
  have hlast : daysBeforeYear (tm.year + 1900 + 1) ≤ daysBeforeYear (kYearMax + 1) :=
    daysBeforeYear_le_iff.mpr (by rw [kYearMax]; omega)
  have hjanuary (year : Int) : dayNumber year 1 1 = daysBeforeYear year := by
    rw [dayNumber, daysBeforeMonth_january]
    omega
  rw [InYears, countDays_eq _ _ (by decide), countDays_eq _ _ (by decide), timeZ_civil h,
    hjanuary, hjanuary]
  omega

theorem timeZ_inj {tm tm' : Tm} (h : tm.Civil) (h' : tm'.Civil) (heq : timeZ tm = timeZ tm') :
    tm = tm' := by
  have hmem := secondOfDay_mem h
  have hmem' := secondOfDay_mem h'
  rw [timeZ_civil h, timeZ_civil h'] at heq
  have hday := dayNumber_inj h.day h'.day (by omega)
  have hsecond : secondOfDay tm = secondOfDay tm' := by omega
  have hhour := h.hour
  have hmin := h.min
  have hsec := h.sec
  have hhour' := h'.hour
  have hmin' := h'.min
  have hsec' := h'.sec
  cases tm
  cases tm'
  simp only [secondOfDay, Tm.mk.injEq] at *
  omega

theorem zTime_timeZ {tm : Tm} (h : tm.Civil) : zTime (timeZ tm) = tm := by
  have hseconds := timeZ_inYears h
  exact timeZ_inj (zTime_civil hseconds) h (timeZ_zTime (inYears_iff.mp hseconds))

/-- `ZTime` and `TimeZ` are inverse to each other, and count the days of the calendar. -/
theorem civilTime_bijection :
    (∀ s, InYears s → (zTime s).Civil ∧ timeZ (zTime s) = s) ∧
    (∀ tm : Tm, tm.Civil →
      timeZ tm = 86400 * countDays (tm.year + 1900) (tm.mon + 1) tm.mday + 3600 * tm.hour +
        60 * tm.min + tm.sec ∧
      zTime (timeZ tm) = tm) := by
  constructor
  · intro s h
    exact ⟨zTime_civil h, timeZ_zTime (inYears_iff.mp h)⟩
  · intro tm h
    refine ⟨?_, zTime_timeZ h⟩
    rw [timeZ_civil h, countDays_eq _ _ h.day.1.1, secondOfDay]
    omega

end Timestamp

end SpannerClient
