import SpannerClient.Internal.TimeFormat
import SpannerClient.Library.Gregorian

namespace SpannerClient.Internal

open Decimal Gregorian

structure DateText where
  year : Int
  month : Int
  day : Int
  yearText : List Char
  monthText : List Char
  dayText : List Char
  year_denotes : Numeral yearText year
  month_denotes : Numeral monthText month
  day_denotes : Numeral dayText day
  year_mem : kYearMin ≤ year ∧ year ≤ kYearMax

structure TimeText where
  hour : Nat
  minute : Nat
  second : Nat
  hourText : List Char
  minuteText : List Char
  secondText : List Char
  hour_denotes : Denotes hourText hour
  minute_denotes : Denotes minuteText minute
  second_denotes : Denotes secondText second
  hour_le : hour ≤ 23
  minute_le : minute ≤ 59
  second_le : second ≤ 60

def TimeText.text (t : TimeText) : List Char :=
  t.hourText ++ ':' :: (t.minuteText ++ ':' :: t.secondText)

def DateText.text (d : DateText) (t : TimeText) : List Char :=
  d.yearText ++ '-' :: (d.monthText ++ '-' :: (d.dayText ++ 'T' :: t.text))

def DateText.tm (d : DateText) (t : TimeText) : Tm :=
  ⟨d.year - 1900, d.month - 1, d.day, t.hour, t.minute, t.second⟩

def DateText.Admitted (d : DateText) : Prop :=
  (1 ≤ d.month ∧ d.month ≤ 12) ∧ (1 ≤ d.day ∧ d.day ≤ 31) ∧
    validDay ⟨0, d.month, d.day, 0, 0, 0⟩ = true

instance (d : DateText) : Decidable d.Admitted := inferInstanceAs (Decidable (_ ∧ _))

theorem parseFields_text (d : DateText) (t : TimeText) {rest : List Char} (hrest : Ends rest) :
    parseFields (d.text t ++ rest) = if d.Admitted then some (d.tm t, rest) else none := by
  have dash (text : List Char) : Ends ('-' :: text) := by simp
  have tee (text : List Char) : Ends ('T' :: text) := by simp
  have colon (text : List Char) : Ends (':' :: text) := by simp
  have year (text : List Char) :
      parseInt int64Min kYearMin kYearMax (d.yearText ++ '-' :: text) =
        some (d.year, '-' :: text) :=
    parseInt_of_mem d.year_denotes (dash text) d.year_mem (by decide) (by decide)
  have month (text : List Char) : parseInt intMin 1 12 (d.monthText ++ '-' :: text) =
      if 1 ≤ d.month ∧ d.month ≤ 12 then some (d.month, '-' :: text) else none :=
    parseInt_text d.month_denotes (dash text) (by decide) (by decide) (by decide)
  have day (text : List Char) : parseInt intMin 1 31 (d.dayText ++ 'T' :: text) =
      if 1 ≤ d.day ∧ d.day ≤ 31 then some (d.day, 'T' :: text) else none :=
    parseInt_text d.day_denotes (tee text) (by decide) (by decide) (by decide)
  have hhour := t.hour_le
  have hminute := t.minute_le
  have hsecond := t.second_le
  have hour (text : List Char) :
      parseInt intMin 0 23 (t.hourText ++ ':' :: text) = some ((t.hour : Int), ':' :: text) :=
    parseInt_of_mem (.positive t.hour_denotes) (colon text) (by omega) (by decide) (by decide)
  have minute (text : List Char) :
      parseInt intMin 0 59 (t.minuteText ++ ':' :: text) = some ((t.minute : Int), ':' :: text) :=
    parseInt_of_mem (.positive t.minute_denotes) (colon text) (by omega) (by decide) (by decide)
  have second : parseInt intMin 0 60 (t.secondText ++ rest) = some ((t.second : Int), rest) :=
    parseInt_of_mem (.positive t.second_denotes) hrest (by omega) (by decide) (by decide)
  rw [parseFields, DateText.text, TimeText.text]
  simp only [List.append_assoc, List.cons_append, Option.bind_eq_bind]
  rw [year, Option.bind_some, expect_dash, Option.bind_some, month]
  by_cases hmonth : 1 ≤ d.month ∧ d.month ≤ 12
  · rw [if_pos hmonth, Option.bind_some, expect_dash, Option.bind_some, day]
    by_cases hday : 1 ≤ d.day ∧ d.day ≤ 31
    · rw [if_pos hday, Option.bind_some]
      by_cases hvalid : validDay ⟨0, d.month, d.day, 0, 0, 0⟩ = true
      · rw [if_pos hvalid, expect_T, Option.bind_some, hour, Option.bind_some, expect_colon,
          Option.bind_some, minute, Option.bind_some, expect_colon, Option.bind_some, second,
          Option.bind_some, if_pos ⟨hmonth, hday, hvalid⟩]
        rfl
      · rw [if_neg hvalid, Option.bind_none, if_neg fun h => hvalid h.2.2]
    · rw [if_neg hday, Option.bind_none, if_neg fun h => hday h.2.1]
  · rw [if_neg hmonth, Option.bind_none, if_neg fun h => hmonth h.1]

theorem DateText.admitted_iff (d : DateText) : d.Admitted ↔
    IsDay d.year d.month d.day ∨ d.month = 2 ∧ d.day = 29 ∧ ¬ IsLeap d.year := by
  have hvalid : validDay ⟨0, d.month, d.day, 0, 0, 0⟩ = true ↔
      d.day ≤ kMonthDays d.month + if d.month = 2 then 1 else 0 := by
    rw [validDay]
    by_cases hmonth : d.month = 2 <;> simp [hmonth, leapYear, kMonthDays]
  rw [DateText.Admitted, hvalid, IsDay, monthLength, kMonthDays]
  by_cases hleap : IsLeap d.year <;> simp only [hleap, if_true, if_false, not_true, not_false_iff,
    and_false, and_true, or_false] <;> split_ifs <;> omega

theorem DateText.nul_not_mem (d : DateText) (t : TimeText) : '\x00' ∉ d.text t := by
  have hour := (Numeral.positive t.hour_denotes).nul_not_mem
  have minute := (Numeral.positive t.minute_denotes).nul_not_mem
  have second := (Numeral.positive t.second_denotes).nul_not_mem
  simp [DateText.text, TimeText.text, d.year_denotes.nul_not_mem, d.month_denotes.nul_not_mem,
    d.day_denotes.nul_not_mem, hour, minute, second]

theorem parseTime_text (d : DateText) (t : TimeText) {rest : List Char} (hrest : Ends rest)
    (hnul : '\x00' ∉ rest) : parseTime (String.ofList (d.text t ++ rest)) =
      if d.Admitted then some (d.tm t, (d.text t).length) else none := by
  have htext : '\x00' ∉ d.text t ++ rest := by simp [d.nul_not_mem t, hnul]
  rw [parseTime, CString.ofString_ofList htext]
  simp only [parseFields_text d t hrest]
  split
  · simp
  · rfl

end SpannerClient.Internal
