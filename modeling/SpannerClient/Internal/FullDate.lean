import SpannerClient.DateNormalisation
import SpannerClient.Internal.Date
import SpannerClient.Internal.TimeFormat
import SpannerClient.Library.IntegerText

namespace SpannerClient

open Decimal CString Gregorian

namespace Date

def ofDay (year month day : Int) (hyear : int64Min ≤ year ∧ year ≤ int64Max)
    (hday : IsDay year month day) : Date :=
  ⟨year, month, day, hyear, hday.1, by rw [daysPerMonth_eq]; exact hday.2⟩

theorem ofFields_isDay {year month day : Int} (hyear : int64Min ≤ year ∧ year ≤ int64Max)
    (hday : IsDay year month day) :
    ofFields year month day = ofDay year month day hyear hday :=
  (ofDay year month day hyear hday).ofFields_self

theorem carryDays_long {year month day : Int} (hy : int64Min ≤ year ∧ year ≤ int64Max)
    (hm : 1 ≤ month ∧ month ≤ 12) (hd : 1 ≤ day) (hlong : daysPerMonth year month < day)
    (hday : day ≤ 31) :
    (carryDays year month day hy hm hd).day = day - daysPerMonth year month := by
  have hshort : ∀ y m, 28 ≤ daysPerMonth y m := by
    intro y m
    rw [daysPerMonth, kDaysPerMonth]
    split_ifs <;> decide
  have hnext : ∀ y m, day - daysPerMonth year month ≤ daysPerMonth y m := by
    intro y m
    have := hshort year month
    have := hshort y m
    omega
  rw [carryDays, dif_neg (by omega)]
  split <;> rw [carryDays, dif_pos (hnext _ _)]

theorem ofFields_year {year month day : Int} (hyear : int64Min ≤ year ∧ year ≤ int64Max)
    (hm : 1 ≤ month ∧ month ≤ 12) (hd : 1 ≤ day ∧ day ≤ 31) :
    ofFields year month day = carryDays year month day hyear hm hd.1 := by
  -- the first of the month has the same year and month
  have hfirst : IsDay year month 1 := by
    have := daysPerMonth_pos year month
    rw [daysPerMonth_eq] at this
    exact ⟨hm, by omega, by omega⟩
  have hmonth : (if month.tmod 12 ≤ 0 then toInt64 (toInt64 (year + month.tdiv 12) - 1)
      else toInt64 (year + month.tdiv 12)) = year :=
    (ofDay year month 1 hyear hfirst).carryMonth_self
  have hquot : day.tdiv 146097 = 0 := Int.tdiv_eq_zero_of_lt (by omega) (by omega)
  have hrem : day.tmod 146097 = day := Int.tmod_eq_of_lt (by omega) (by omega)
  have hsame := toInt64_of_mem hyear
  have hera : 1 ≤ day ∧ day ≤ 146097 := by omega
  simp only [ofFields, hmonth, hquot, hrem, Int.zero_mul, Int.add_zero, hsame,
    if_neg (show ¬ day ≤ 0 by omega), reduce_of_mem hm, reduce_of_mem hera]

theorem ofFields_kept_iff {year month day : Int} (hyear : int64Min ≤ year ∧ year ≤ int64Max) :
    ((ofFields year month day).month = month ∧ (ofFields year month day).day = day) ↔
      IsDay year month day := by
  constructor
  · rintro ⟨hmonth, hday⟩
    have hm := (ofFields year month day).month_mem
    have hd := (ofFields year month day).day_mem
    have hle := daysPerMonth_le (ofFields year month day).year (ofFields year month day).month
    rw [hmonth] at hm
    rw [hday] at hd
    by_contra hnot
    have hlong : daysPerMonth year month < day := by
      rw [daysPerMonth_eq]
      by_contra hshort
      exact hnot ⟨hm, hd.1, by omega⟩
    rw [ofFields_year hyear hm ⟨hd.1, by omega⟩, carryDays_long hyear hm hd.1 hlong (by omega)]
      at hday
    have hpos := daysPerMonth_pos year month
    omega
  · intro hday
    rw [ofFields_isDay hyear hday]
    exact ⟨rfl, rfl⟩

end Date

namespace Internal

theorem length_padded_le {w n k : Nat} (hw : w ≤ k) (hk : 0 < k) (hn : n < 10 ^ k) :
    (padded w n).length ≤ k := by
  have hdigits := (Nat.length_toDigits_le_iff (b := 10) (by decide) hk).mpr hn
  simp only [padded, List.leftpad, List.length_append, List.length_replicate]
  omega

theorem dateText_length_lt (d : Date) : (dateText d).length < 27 := by
  have hday := d.day_mem
  have hle := daysPerMonth_le d.year d.month
  have hmonth := d.month_mem
  have hyear := d.year_mem
  simp only [int64Min, int64Max] at hyear
  have hyearText : (formatYear d.year).length ≤ 20 := by
    rw [formatYear]
    split
    · have := length_padded_le (w := 3) (n := d.year.natAbs) (k := 19) (by decide) (by decide)
        (by omega)
      rw [List.length_cons]
      omega
    · exact length_padded_le (by decide) (by decide) (by omega)
  have hmonthText := length_padded_le (w := 2) (n := d.month.toNat) (k := 2) (by decide)
    (by decide) (by omega)
  have hdayText := length_padded_le (w := 2) (n := d.day.toNat) (k := 2) (by decide)
    (by decide) (by omega)
  simp only [dateText, List.length_append, List.length_cons]
  omega

inductive FullDate : List Char → Int → Int → Int → Prop
  | mk {yearText monthText dayText : List Char} {year month day : Int}
      (hyear : IntegerText yearText year) (hmonth : IntegerText monthText month)
      (hday : IntegerText dayText day) :
      FullDate (yearText ++ '-' :: (monthText ++ '-' :: dayText)) year month day

theorem FullDate.nul_not_mem {text : List Char} {year month day : Int}
    (h : FullDate text year month day) : '\x00' ∉ text := by
  obtain ⟨hyear, hmonth, hday⟩ := h
  simp [hyear.nul_not_mem, hmonth.nul_not_mem, hday.nul_not_mem]

def storedLong (n : Int) : Int := clamp int64Min int64Max n

def storedInt (n : Int) : Int := toInt32 (storedLong n)

theorem storedLong_mem (n : Int) : int64Min ≤ storedLong n ∧ storedLong n ≤ int64Max := by
  rw [storedLong, clamp]
  simp only [int64Min, int64Max]
  split_ifs <;> omega

theorem ends_dash (text : List Char) : Ends ('-' :: text) := by simp

theorem scanDate_text {text rest : List Char} {year month day : Int}
    (htext : FullDate text year month day) (hrest : Ends rest) :
    scanDate (text ++ rest) =
      some (storedLong year, storedInt month, storedInt day, !rest.isEmpty) := by
  obtain ⟨hyear, hmonth, hday⟩ := htext
  simp only [scanDate, List.append_assoc, List.cons_append]
  rw [scanInteger_text hyear (ends_dash _)]
  simp only [Option.bind_eq_bind, Option.bind_some, List.head?_cons, if_true, List.tail_cons]
  rw [scanInteger_text hmonth (ends_dash _)]
  simp only [Option.bind_some, List.head?_cons, if_true, List.tail_cons]
  rw [scanInteger_text hday hrest]
  rfl

theorem dash_sound {α : Type} {text : List Char} {read : List Char → Option α} {a : α}
    (h : (if text.head? = some '-' then (some text.tail).bind read else none.bind read) = some a) :
    ∃ rest, text = '-' :: rest ∧ read rest = some a := by
  cases text with
  | nil => cases h
  | cons c rest =>
    split at h
    case isTrue hdash =>
      cases hdash
      exact ⟨rest, rfl, h⟩
    case isFalse => cases h

theorem scanDate_sound {text : List Char} {year month day : Int} {more : Bool}
    (h : scanDate text = some (year, month, day, more)) :
    ∃ front rest y m d, FullDate front y m d ∧ text = front ++ rest ∧ storedLong y = year ∧
      storedInt m = month ∧ storedInt d = day ∧ more = !rest.isEmpty := by
  simp only [scanDate, Option.bind_eq_bind] at h
  obtain ⟨⟨y, afterYear⟩, hyear, hafter⟩ := Option.bind_eq_some_iff.mp h
  obtain ⟨monthOn, hdash, hmonthOn⟩ := dash_sound hafter
  obtain ⟨⟨m, afterMonth⟩, hmonth, hafter⟩ := Option.bind_eq_some_iff.mp hmonthOn
  obtain ⟨dayOn, hdash', hdayOn⟩ := dash_sound hafter
  obtain ⟨⟨d, rest⟩, hday, hstored⟩ := Option.bind_eq_some_iff.mp hdayOn
  obtain ⟨-, yearText, hyearText, rfl⟩ := scanInteger_sound hyear
  obtain ⟨-, monthText, hmonthText, rfl⟩ := scanInteger_sound hmonth
  obtain ⟨-, dayText, hdayText, rfl⟩ := scanInteger_sound hday
  cases hstored
  refine ⟨_, rest, y, m, d, .mk hyearText hmonthText hdayText, ?_, rfl, rfl, rfl, rfl⟩
  simp only at hdash hdash'
  simp only [hdash, hdash', List.append_assoc, List.cons_append]

/-- The text is one of the date, as far as the variables hold its integers. -/
def ReadsAs (text : List Char) (date : Date) : Prop :=
  ∃ year month day, FullDate text year month day ∧ storedLong year = date.year ∧
    storedInt month = date.month ∧ storedInt day = date.day

theorem ReadsAs.nul_not_mem {text : List Char} {date : Date} (h : ReadsAs text date) :
    '\x00' ∉ text := by
  obtain ⟨_, _, _, htext, -⟩ := h
  exact htext.nul_not_mem

theorem dateFromString_ok_iff {s : String} {date : Date} :
    dateFromString s = .ok date ↔ ReadsAs (CString.ofString s) date := by
  constructor
  · intro h
    rw [dateFromString] at h
    cases hscan : scanDate (CString.ofString s) with
    | none =>
      rw [hscan] at h
      cases h
    | some fields =>
      obtain ⟨year, month, day, more⟩ := fields
      rw [hscan] at h
      cases more with
      | true => cases h
      | false =>
        obtain ⟨front, rest, y, m, d, htext, hfront, rfl, rfl, rfl, hmore⟩ := scanDate_sound hscan
        have hnil : rest = [] := by simpa using hmore
        rw [hnil, List.append_nil] at hfront
        simp only at h
        split at h
        case isTrue => cases h
        case isFalse hkept =>
          rw [not_or, not_not, not_not, Date.ofFields_kept_iff (storedLong_mem y)] at hkept
          cases h
          rw [hfront, Date.ofFields_isDay (storedLong_mem y) hkept]
          exact ⟨y, m, d, htext, rfl, rfl, rfl⟩
  · rintro ⟨year, month, day, htext, hyear, hmonth, hday⟩
    have hscan := scanDate_text htext ends_nil
    rw [List.append_nil] at hscan
    simp [dateFromString, hscan, hyear, hmonth, hday, date.ofFields_self]

end Internal

end SpannerClient
