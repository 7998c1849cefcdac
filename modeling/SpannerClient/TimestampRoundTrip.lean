import SpannerClient.TimestampText
import SpannerClient.Library.Truncation
import Mathlib.Tactic.IntervalCases

namespace SpannerClient.Timestamp

open Internal Decimal Truncation

def dayOfEra (s : Int) : Int := (s / 86400 + 719468) % 146097

def era (s : Int) : Int := (s / 86400 + 719468) / 146097

def marchMonth (doy : Int) : Int := (5 * doy + 2) / 153

def calendarMonth (doy : Int) : Int := marchMonth doy + if marchMonth doy < 10 then 3 else -9

def calendarDay (doy : Int) : Int := doy - (153 * marchMonth doy + 2) / 5 + 1

def civilMonth (s : Int) : Int := calendarMonth (dayOfYear (dayOfEra s))

def civilDay (s : Int) : Int := calendarDay (dayOfYear (dayOfEra s))

def civilYear (s : Int) : Int :=
  yearOfEra (dayOfEra s) + era s * 400 + if civilMonth s ≤ 2 then 1 else 0

theorem dayOfEra_mem (s : Int) : 0 ≤ dayOfEra s ∧ dayOfEra s ≤ 146096 := by
  rw [dayOfEra]
  omega

theorem yearOfEra_mem {doe : Int} (h : 0 ≤ doe ∧ doe ≤ 146096) :
    0 ≤ yearOfEra doe ∧ yearOfEra doe ≤ 399 := by
  rw [yearOfEra]
  omega

theorem yearOfEra_century {doe : Int} (h : 0 ≤ doe ∧ doe < 146096) :
    yearOfEra doe / 100 = doe / 36524 := by
  have hcentury : doe / 36524 = 0 ∨ doe / 36524 = 1 ∨ doe / 36524 = 2 ∨ doe / 36524 = 3 := by
    omega
  have hlast : doe / 146096 = 0 := by omega
  rw [yearOfEra, hlast]
  obtain hc | hc | hc | hc := hcentury <;> rw [hc] <;> omega

theorem yearOfEra_leaps {doe : Int} (h : 0 ≤ doe ∧ doe < 146096) :
    yearOfEra doe / 4 ≤ doe / 1460 ∧ doe / 1460 ≤ yearOfEra doe / 4 + 1 := by
  have hcentury : doe / 36524 = 0 ∨ doe / 36524 = 1 ∨ doe / 36524 = 2 ∨ doe / 36524 = 3 := by
    omega
  have hlast : doe / 146096 = 0 := by omega
  rw [yearOfEra, hlast]
  obtain hc | hc | hc | hc := hcentury <;> rw [hc] <;> omega

theorem dayOfYear_mem {doe : Int} (h : 0 ≤ doe ∧ doe ≤ 146096) :
    0 ≤ dayOfYear doe ∧ dayOfYear doe ≤ 365 := by
  by_cases hlast : doe = 146096
  · rw [hlast]
    decide
  · have hday : 0 ≤ doe ∧ doe < 146096 := by omega
    have hcentury := yearOfEra_century hday
    have hleaps := yearOfEra_leaps hday
    have hlast : doe / 146096 = 0 := by omega
    have hyear : yearOfEra doe = (doe - doe / 1460 + doe / 36524 - doe / 146096) / 365 := rfl
    rw [dayOfYear]
    omega

theorem marchMonth_mem {doy : Int} (h : 0 ≤ doy ∧ doy ≤ 365) :
    0 ≤ marchMonth doy ∧ marchMonth doy ≤ 11 := by
  rw [marchMonth]
  omega

theorem calendarMonth_mem {doy : Int} (h : 0 ≤ doy ∧ doy ≤ 365) :
    1 ≤ calendarMonth doy ∧ calendarMonth doy ≤ 12 := by
  have hmp := marchMonth_mem h
  rw [calendarMonth]
  split <;> omega

theorem monthDay_mem {doy mp m : Int} (h : 0 ≤ doy ∧ doy ≤ 365) (hmp : mp = (5 * doy + 2) / 153)
    (hm : m = mp + if mp < 10 then 3 else -9) :
    1 ≤ doy - (153 * mp + 2) / 5 + 1 ∧
      doy - (153 * mp + 2) / 5 + 1 ≤ kMonthDays m + if m = 2 then 1 else 0 := by
  have hfirst : 0 ≤ mp := by omega
  have hlast : mp ≤ 11 := by omega
  subst hm
  interval_cases mp <;> norm_num [kMonthDays] <;> omega

theorem calendarDay_mem {doy : Int} (h : 0 ≤ doy ∧ doy ≤ 365) :
    1 ≤ calendarDay doy ∧ calendarDay doy ≤
      kMonthDays (calendarMonth doy) + if calendarMonth doy = 2 then 1 else 0 :=
  monthDay_mem h rfl rfl

theorem civilMonth_mem (s : Int) : 1 ≤ civilMonth s ∧ civilMonth s ≤ 12 :=
  calendarMonth_mem (dayOfYear_mem (dayOfEra_mem s))

theorem civilDay_mem (s : Int) :
    1 ≤ civilDay s ∧
      civilDay s ≤ kMonthDays (civilMonth s) + if civilMonth s = 2 then 1 else 0 :=
  calendarDay_mem (dayOfYear_mem (dayOfEra_mem s))

theorem zTime_eq (s : Int) :
    zTime s = ⟨toInt32 (civilYear s - 1900), civilMonth s - 1, civilDay s, s % 86400 / 3600,
      s % 86400 % 3600 / 60, s % 86400 % 3600 % 60⟩ := by
  have hday : kSecsPerDay = 86400 := rfl
  have hhour : kSecsPerHour = 3600 := rfl
  have hminute : kSecsPerMinute = 60 := rfl
  have hmod := borrowed_tmod (a := s) (k := 86400) (by decide)
  have hdiv := borrowed_tdiv (a := s) (k := 86400) (by decide)
  have hera := shifted_tdiv (a := s / 86400 + 719468) (k := 146097) (by decide)
  norm_num at hera
  have hdoe : s / 86400 + 719468 - (s / 86400 + 719468) / 146097 * 146097 = dayOfEra s := by
    rw [dayOfEra]
    omega
  have hdoe0 := dayOfEra_mem s
  have hyoe : (dayOfEra s - dayOfEra s / 1460 + dayOfEra s / 36524 - dayOfEra s / 146096).tdiv 365 =
      yearOfEra (dayOfEra s) := Int.tdiv_eq_ediv_of_nonneg (by omega)
  have hdoy : dayOfEra s - (365 * yearOfEra (dayOfEra s) + yearOfEra (dayOfEra s) / 4
      - yearOfEra (dayOfEra s) / 100) = dayOfYear (dayOfEra s) := rfl
  have hdoy0 := dayOfYear_mem hdoe0
  have hmp : (5 * dayOfYear (dayOfEra s) + 2).tdiv 153 = marchMonth (dayOfYear (dayOfEra s)) :=
    Int.tdiv_eq_ediv_of_nonneg (by omega)
  have hmp0 := marchMonth_mem hdoy0
  have hd : (153 * marchMonth (dayOfYear (dayOfEra s)) + 2).tdiv 5 =
      (153 * marchMonth (dayOfYear (dayOfEra s)) + 2) / 5 := Int.tdiv_eq_ediv_of_nonneg (by omega)
  have hsec : (s % 86400).tdiv 3600 = s % 86400 / 3600 := Int.tdiv_eq_ediv_of_nonneg (by omega)
  have hhours : s % 86400 - s % 86400 / 3600 * 3600 = s % 86400 % 3600 := by omega
  have hmin : (s % 86400 % 3600).tdiv 60 = s % 86400 % 3600 / 60 :=
    Int.tdiv_eq_ediv_of_nonneg (by omega)
  have hsecs : s % 86400 % 3600 - s % 86400 % 3600 / 60 * 60 = s % 86400 % 3600 % 60 := by omega
  simp only [zTime, hday, hhour, hminute, hmod, hdiv, hera, hdoe,
    Int.tdiv_eq_ediv_of_nonneg hdoe0.1, hyoe, Int.tdiv_eq_ediv_of_nonneg (yearOfEra_mem hdoe0).1,
    hdoy, hmp, hd, hsec, hhours, hmin, hsecs]
  have hyear : yearOfEra (dayOfEra s) + (s / 86400 + 719468) / 146097 * 400
      - (1900 - if civilMonth s ≤ 2 then 1 else 0) = civilYear s - 1900 := by
    rw [civilYear, era]
    omega
  rw [← hyear]
  rfl

def printableMin : Int := -67768040609740800

def printableMax : Int := 67768036191676799

theorem civilYear_mem {s : Int} (h : printableMin ≤ s ∧ s ≤ printableMax) :
    intMin ≤ civilYear s - 1900 ∧ civilYear s - 1900 ≤ intMax := by
  simp only [printableMin, printableMax] at h
  have hdoe := dayOfEra_mem s
  have hyoe := yearOfEra_mem hdoe
  have hdoy := dayOfYear_mem hdoe
  have hday : s / 86400 + 719468 = era s * 146097 + dayOfEra s := by
    rw [era, dayOfEra]
    omega
  have hmonth : civilMonth s ≤ 2 ↔ 306 ≤ dayOfYear (dayOfEra s) := by
    rw [civilMonth, calendarMonth, marchMonth]
    split <;> omega
  have hyear : yearOfEra (dayOfEra s) =
    (dayOfEra s - dayOfEra s / 1460 + dayOfEra s / 36524 - dayOfEra s / 146096) / 365 := rfl
  have hdoyeq : dayOfYear (dayOfEra s) = dayOfEra s - (365 * yearOfEra (dayOfEra s)
    + yearOfEra (dayOfEra s) / 4 - yearOfEra (dayOfEra s) / 100) := rfl
  rw [civilYear]
  simp only [intMin, intMax]
  by_cases hm : civilMonth s ≤ 2
  · rw [if_pos hm]
    omega
  · rw [if_neg hm]
    have hfirst : era s = -5368705 → 251 < yearOfEra (dayOfEra s) := by
      intro hera
      have hdoe : 91981 ≤ dayOfEra s := by omega
      have hyoe : 251 ≤ yearOfEra (dayOfEra s) := by omega
      by_contra hle
      have hlast : yearOfEra (dayOfEra s) = 251 := by omega
      rw [hlast] at hdoyeq
      omega
    omega

theorem timeZ_zTime {s : Int} (h : printableMin ≤ s ∧ s ≤ printableMax) :
    timeZ (zTime s) = s := by
  have hdoe := dayOfEra_mem s
  have hyoe := yearOfEra_mem hdoe
  have hdoy := dayOfYear_mem hdoe
  have hmp := marchMonth_mem hdoy
  have hyear : civilYear s - 1900 + 1900 = civilYear s := by omega
  have heyear : (if civilMonth s ≤ 2 then civilYear s - 1 else civilYear s) =
      yearOfEra (dayOfEra s) + era s * 400 := by
    rw [civilYear]
    split <;> omega
  have hera := shifted_tdiv (a := yearOfEra (dayOfEra s) + era s * 400) (k := 400) (by decide)
  have hquot : (yearOfEra (dayOfEra s) + era s * 400) / 400 = era s := by omega
  rw [hquot] at hera
  norm_num at hera
  have hmonth : civilMonth s - 1 + 1 = civilMonth s := by omega
  have hmarch : (civilMonth s + if 2 < civilMonth s then -3 else 9) =
      marchMonth (dayOfYear (dayOfEra s)) := by
    rw [civilMonth, calendarMonth]
    split_ifs <;> omega
  have hfive : (153 * marchMonth (dayOfYear (dayOfEra s)) + 2).tdiv 5 =
      (153 * marchMonth (dayOfYear (dayOfEra s)) + 2) / 5 := Int.tdiv_eq_ediv_of_nonneg (by omega)
  have hrest : yearOfEra (dayOfEra s) + era s * 400 - era s * 400 = yearOfEra (dayOfEra s) := by
    omega
  have hday : s / 86400 + 719468 = era s * 146097 + dayOfEra s := by
    rw [era, dayOfEra]
    omega
  have hdoyeq : dayOfYear (dayOfEra s) = dayOfEra s - (365 * yearOfEra (dayOfEra s)
    + yearOfEra (dayOfEra s) / 4 - yearOfEra (dayOfEra s) / 100) := rfl
  rw [zTime_eq, toInt32_of_mem (civilYear_mem h)]
  simp only [timeZ, hyear, hmonth, heyear, hera, hrest, hmarch, hfive,
    Int.tdiv_eq_ediv_of_nonneg hyoe.1, civilDay, calendarDay]
  simp only [kSecsPerDay, kSecsPerHour, kSecsPerMinute]
  omega

theorem zTime_printable {s : Int} (h : printableMin ≤ s ∧ s ≤ printableMax) :
    (zTime s).Printable := by
  have hyear := civilYear_mem h
  have hmonth := civilMonth_mem s
  have hday := civilDay_mem s
  have hsucc : civilMonth s - 1 + 1 = civilMonth s := by omega
  rw [zTime_eq, toInt32_of_mem hyear]
  refine ⟨hyear, ?_, ?_, ?_, ?_, ?_⟩ <;> simp only [hsucc] <;> omega

theorem length_padded {w n : Nat} (hw : 0 < w) (h : n < 10 ^ w) : (padded w n).length = w := by
  have hle : (Nat.toDigits 10 n).length ≤ w := (Nat.length_toDigits_le_iff (by decide) hw).mpr h
  simp only [padded, List.leftpad, List.length_append, List.length_replicate]
  omega

theorem parseFraction_eq {ds rest : List Char} (hds : ∀ c ∈ ds, c.isDigit) (hrest : Ends rest)
    (n k : Nat) : parseFraction n ((10 ^ k : Nat) : Int) (ds ++ rest) =
      (((Nat.ofDigitChars 10 (ds.take k) n : Nat) : Int), ((10 ^ (k - ds.length) : Nat) : Int),
        rest) := by
  induction ds generalizing n k with
  | nil =>
    cases rest with
    | nil => simp [parseFraction]
    | cons c cs => simp [parseFraction, ends_cons.mp hrest]
  | cons d ds ih =>
    have htail : ∀ c ∈ ds, c.isDigit := fun c hc => hds c (List.mem_cons_of_mem _ hc)
    rw [List.cons_append, parseFraction, if_pos (hds d List.mem_cons_self)]
    cases k with
    | zero =>
      have hzero := ih htail n 0
      rw [Nat.zero_sub] at hzero
      rw [if_pos (by simp), hzero, List.take_zero, List.take_zero, Nat.zero_sub]
    | succ k =>
      have hpos : 0 < 10 ^ k := Nat.pow_pos (by decide)
      have hscale : ((10 ^ (k + 1) : Nat) : Int).tdiv 10 = ((10 ^ k : Nat) : Int) := by
        rw [Nat.pow_succ, Nat.cast_mul]
        exact Int.mul_tdiv_cancel _ (by decide)
      have hvalue :
          (n : Int) * 10 + digitValue d = ((10 * n + (d.toNat - '0'.toNat) : Nat) : Int) := by
        rw [digitValue]
        omega
      rw [if_neg (by rw [Nat.pow_succ]; omega), hscale, hvalue, ih htail, List.take_succ_cons,
        Nat.ofDigitChars_cons, List.length_cons, Nat.add_sub_add_right]

theorem stripZeros_spec (width ss : Nat) (h : 0 < ss) (hlt : ss < 10 ^ width) :
    let r := stripZeros width ss
    0 < r.1 ∧ r.1 ≤ width ∧ r.2 < 10 ^ r.1 ∧ r.2 * 10 ^ (width - r.1) = ss := by
  induction width generalizing ss with
  | zero => omega
  | succ width ih =>
    rw [stripZeros]
    split
    case isTrue hzero =>
      rw [Nat.pow_succ] at hlt
      obtain ⟨hpos, hle, hsmall, heq⟩ := ih (ss / 10) (by omega) (by omega)
      refine ⟨hpos, by omega, hsmall, ?_⟩
      rw [Nat.succ_sub hle, Nat.pow_succ, ← Nat.mul_assoc, heq]
      omega
    case isFalse => simpa using hlt

theorem parseSecfrac_fractionText (ts : Timestamp) {rest : List Char}
    (hrest : Ends rest) (hpoint : rest.head? ≠ some '.') :
    parseSecfrac (fractionText ts.nsec ++ rest) = some (ts.nsec, rest) := by
  have hnsec := ts.normalized
  simp only [nanosPerSecond] at hnsec
  by_cases hzero : ts.nsec = 0
  · rw [fractionText, if_pos hzero, List.nil_append, hzero]
    cases rest with
    | nil => rfl
    | cons c cs =>
      unfold parseSecfrac
      split
      case h_1 text htext => simp [htext] at hpoint
      case h_2 => rfl
  · have hspec := stripZeros_spec 9 ts.nsec.toNat (by omega) (by omega)
    rw [fractionText, if_neg hzero]
    generalize stripZeros 9 ts.nsec.toNat = r at hspec ⊢
    obtain ⟨width, ss⟩ := r
    obtain ⟨hpos, hle, hsmall, hss⟩ := hspec
    simp only at hpos hle hsmall hss
    have hlen := length_padded hpos hsmall
    have hdigits : ∀ c ∈ padded width ss, c.isDigit := fun c => isDigit_of_mem_padded
    have hparse := parseFraction_eq hdigits hrest 0 9
    have hvalue : Nat.ofDigitChars 10 (padded width ss) 0 = ss := value_padded width ss
    rw [List.take_of_length_le (by omega), hlen, hvalue] at hparse
    have hnine : ((10 ^ 9 : Nat) : Int) = nanosPerSecond := rfl
    rw [hnine, Nat.cast_zero] at hparse
    have hcut : rest.length ≠ (padded width ss ++ rest).length := by
      rw [List.length_append]
      omega
    have hnanos : ((10 ^ (9 - width) : Nat) : Int) * ss = ts.nsec := by
      rw [← Nat.cast_mul, Nat.mul_comm, hss]
      omega
    simp only [List.cons_append, parseSecfrac, hparse, if_neg hcut, hnanos]

theorem nul_not_mem_formatTime (tm : Tm) : '\x00' ∉ formatTime tm := by
  have hyear := (numeral_formatTmYear (tm.year + 1900)).nul_not_mem
  have htwo (v : Nat) : '\x00' ∉ format02d v :=
    CString.nul_not_mem_of_digits isDigit_of_mem_format02d
  simp [formatTime, hyear, htwo]

theorem nul_not_mem_fractionText (nsec : Int) : '\x00' ∉ fractionText nsec := by
  rw [fractionText]
  split
  · exact List.not_mem_nil
  · simp [CString.nul_not_mem_of_digits fun c => isDigit_of_mem_padded]

theorem parseTime_toRFC3339 (ts : Timestamp) (h : printableMin ≤ ts.sec ∧ ts.sec ≤ printableMax) :
    parseTime ts.toRFC3339 = some (zTime ts.sec, (formatTime (zTime ts.sec)).length) := by
  have hnul : '\x00' ∉ formatTime (zTime ts.sec) ++ (fractionText ts.nsec ++ ['Z']) := by
    simp [nul_not_mem_formatTime, nul_not_mem_fractionText]
  have hends : Ends (fractionText ts.nsec ++ ['Z']) := by
    rw [fractionText]
    split <;> simp
  rw [parseTime, toRFC3339, CString.ofString_ofList hnul]
  simp only [parseFields_formatTime (zTime_printable h) hends, Option.map_some, List.length_append,
    Nat.add_sub_cancel]

theorem fromCounts_self (ts : Timestamp) : fromCounts ts.sec ts.nsec = .ok ts := by
  have hnsec := ts.normalized
  have hquot : ts.nsec.tdiv nanosPerSecond = 0 := Int.tdiv_eq_zero_of_lt hnsec.1 hnsec.2
  have hrem : ts.nsec.tmod nanosPerSecond = ts.nsec := Int.tmod_eq_of_lt hnsec.1 hnsec.2
  simp [fromCounts, hquot, hrem, not_lt.mpr hnsec.1]

theorem fromRFC3339_toRFC3339 (ts : Timestamp)
    (h : printableMin ≤ ts.sec ∧ ts.sec ≤ printableMax) :
    fromRFC3339 ts.toRFC3339 = .ok ts := by
  have hdrop : ts.toRFC3339.toList.drop (formatTime (zTime ts.sec)).length =
      fractionText ts.nsec ++ ['Z'] := by
    rw [toRFC3339, String.toList_ofList, List.drop_left]
  have hsecfrac : parseSecfrac (fractionText ts.nsec ++ ['Z']) = some (ts.nsec, ['Z']) :=
    parseSecfrac_fractionText ts (by simp) (by simp)
  have hoffset : parseOffset ['Z'] = some (0, []) := rfl
  have hsec := h
  simp only [printableMin, printableMax] at hsec
  rw [fromRFC3339, parseTime_toRFC3339 ts h]
  simp only [hdrop, hsecfrac, hoffset, timeZ_zTime h]
  rw [if_neg (by simp), if_neg (by simp only [int64Max]; omega), if_neg (by simp), Int.add_zero,
    fromCounts_self]

/-- The seconds are those of the years that an `int tm_year` of 32 bits can hold. -/
theorem timestamp_text_roundTrip (ts : Timestamp)
    (h : -67768040609740800 ≤ ts.sec ∧ ts.sec ≤ 67768036191676799) :
    timestampFromRFC3339 (timestampToRFC3339 ts) = .ok ts :=
  fromRFC3339_toRFC3339 ts h

def firstNanosecond : Timestamp := ⟨-67768040609740800, 1, by decide⟩

theorem timestamp_text_roundTrip_first :
    timestampFromRFC3339 (timestampToRFC3339 firstNanosecond) = .ok firstNanosecond :=
  timestamp_text_roundTrip firstNanosecond (by decide)

end SpannerClient.Timestamp
