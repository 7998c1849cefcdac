import SpannerClient.TimestampRoundTrip
import SpannerClient.Internal.DateTimeText

namespace SpannerClient.Timestamp

open Internal Decimal Truncation Gregorian CString

/-- `.` and any number of digits, with the whole nanoseconds that they denote. -/
inductive FractionText : List Char → Int → Prop
  | none : FractionText [] 0
  | digits {ds : List Char} {n : Nat} : Denotes ds n →
    FractionText ('.' :: ds) ((n * 10 ^ 9 / 10 ^ ds.length : Nat) : Int)

/-- `Z`, `+hh:mm` or `-hh:mm`, with the seconds by which the local time is ahead. -/
inductive OffsetText : List Char → Int → Prop
  | zulu : OffsetText ['Z'] 0
  | ahead {hours minutes : List Char} {h m : Nat} : Denotes hours h → Denotes minutes m →
    hours.length = 2 → minutes.length = 2 → h < 24 → m < 60 →
      OffsetText ('+' :: (hours ++ ':' :: minutes)) (3600 * h + 60 * m)
  | behind {hours minutes : List Char} {h m : Nat} : Denotes hours h → Denotes minutes m →
    hours.length = 2 → minutes.length = 2 → h < 24 → m < 60 →
      OffsetText ('-' :: (hours ++ ':' :: minutes)) (-(3600 * h + 60 * m))

def localSeconds (d : DateText) (t : TimeText) : Int :=
  86400 * dayNumber d.year d.month d.day + (3600 * t.hour + 60 * t.minute + t.second)

theorem daysBeforeMonth_march (year : Int) {month : Int} (h : 1 ≤ month ∧ month ≤ 12) :
    (153 * (month + if 2 < month then -3 else 9) + 2).tdiv 5 =
      daysBeforeMonth year month +
        if month ≤ 2 then 306 else -59 - if IsLeap year then 1 else 0 := by
  have hnonneg : 0 ≤ 153 * (month + if 2 < month then -3 else 9) + 2 := by split <;> omega
  rw [Int.tdiv_eq_ediv_of_nonneg hnonneg, daysBeforeMonth_eq year ⟨h.1, by omega⟩]
  obtain ⟨hfirst, hlast⟩ := h
  interval_cases month <;> norm_num <;> omega

theorem era_days (year : Int) : year / 400 * 146097 + ((year - year / 400 * 400) * 365 +
    (year - year / 400 * 400).tdiv 4 - (year - year / 400 * 400).tdiv 100) =
      365 * year + leapYears year := by
  rw [Int.tdiv_eq_ediv_of_nonneg (by omega), Int.tdiv_eq_ediv_of_nonneg (by omega), leapYears]
  omega

theorem timeZ_eq {year month day hour minute second : Int} (h : 1 ≤ month ∧ month ≤ 12) :
    timeZ ⟨year - 1900, month - 1, day, hour, minute, second⟩ =
      86400 * dayNumber year month day + (3600 * hour + 60 * minute + second) := by
  have hera := shifted_tdiv (k := 400) (a := if month ≤ 2 then year - 1 else year) (by decide)
  have hdays := era_days (if month ≤ 2 then year - 1 else year)
  have hleap := leapYears_pred year
  have hepoch : leapYears 1969 = 477 := rfl
  norm_num at hera
  simp only [timeZ, Int.sub_add_cancel, hera, kSecsPerDay, kSecsPerHour, kSecsPerMinute,
    daysBeforeMonth_march year h]
  rw [dayNumber, daysBeforeYear, hepoch]
  split at hleap <;> split_ifs at hdays ⊢ <;> omega

theorem value_lt {ds : List Char} (h : ∀ c ∈ ds, c.isDigit) : value ds < 10 ^ ds.length := by
  induction ds with
  | nil => decide
  | cons d ds ih =>
    have hd := h d List.mem_cons_self
    have hds := ih fun c hc => h c (List.mem_cons_of_mem _ hc)
    have hdigit : d.toNat - '0'.toNat ≤ 9 := by
      simp only [Char.isDigit, Bool.and_eq_true, decide_eq_true_eq] at hd
      have hnine : d.toNat ≤ 57 := hd.2
      have hzero : '0'.toNat = 48 := rfl
      omega
    have hvalue : value (d :: ds) = 10 ^ ds.length * (d.toNat - '0'.toNat) + value ds := by
      rw [value, Nat.ofDigitChars_cons, Nat.ofDigitChars_eq_ofDigitChars_zero, Nat.mul_zero,
        Nat.zero_add]
      rfl
    calc value (d :: ds)
        < 10 ^ ds.length * (d.toNat - '0'.toNat) + 10 ^ ds.length := by omega
      _ = 10 ^ ds.length * (d.toNat - '0'.toNat + 1) := (Nat.mul_succ _ _).symm
      _ ≤ 10 ^ ds.length * 10 := Nat.mul_le_mul_left _ (by omega)
      _ = 10 ^ (d :: ds).length := (Nat.pow_succ ..).symm

theorem nanos_eq {ds : List Char} {n : Nat} (h : Denotes ds n) :
    10 ^ (9 - ds.length) * value (ds.take 9) = n * 10 ^ 9 / 10 ^ ds.length := by
  have hpos : 0 < 10 ^ ds.length := Nat.pow_pos (by decide)
  rw [← h.value_eq]
  by_cases hlength : ds.length ≤ 9
  · have hnine : 10 ^ 9 = 10 ^ (9 - ds.length) * 10 ^ ds.length := by
      rw [← Nat.pow_add, Nat.sub_add_cancel hlength]
    rw [List.take_of_length_le hlength, hnine, ← Nat.mul_assoc, Nat.mul_div_cancel _ hpos,
      Nat.mul_comm]
  · have hsplit : 10 ^ ds.length = 10 ^ (ds.length - 9) * 10 ^ 9 := by
      rw [← Nat.pow_add, Nat.sub_add_cancel (by omega)]
    have hlow : value (ds.drop 9) < 10 ^ (ds.length - 9) := by
      rw [← List.length_drop]
      exact value_lt fun c hc => h.digit c (List.mem_of_mem_drop hc)
    have hvalue : value ds = 10 ^ (ds.length - 9) * value (ds.take 9) + value (ds.drop 9) := by
      rw [value, ← List.take_append_drop 9 ds, Nat.ofDigitChars_append,
        Nat.ofDigitChars_eq_ofDigitChars_zero, List.take_append_drop, List.length_drop]
      rfl
    rw [hsplit, Nat.mul_div_mul_right _ _ (by decide), hvalue,
      Nat.mul_add_div (Nat.pow_pos (by decide)), Nat.div_eq_of_lt hlow,
      Nat.sub_eq_zero_of_le (by omega), Nat.pow_zero, Nat.one_mul, Nat.add_zero]

theorem parseSecfrac_text {frac rest : List Char} {nanos : Int} (h : FractionText frac nanos)
    (hrest : Ends rest) (hpoint : rest.head? ≠ some '.') :
    parseSecfrac (frac ++ rest) = some (nanos, rest) := by
  cases h with
  | none =>
    rw [List.nil_append]
    unfold parseSecfrac
    split
    · simp at hpoint
    · rfl
  | @digits ds n hds =>
    have hparse := parseFraction_eq hds.digit hrest 0 9
    have hnanos := nanos_eq hds
    have hnine : ((10 ^ 9 : Nat) : Int) = nanosPerSecond := rfl
    rw [hnine, Nat.cast_zero] at hparse
    simp only [List.cons_append, parseSecfrac, hparse, if_neg (hds.length_ne rest)]
    rw [← hnanos, Nat.cast_mul]
    rfl

theorem FractionText.nanos_mem {frac : List Char} {nanos : Int} (h : FractionText frac nanos) :
    0 ≤ nanos ∧ nanos < nanosPerSecond := by
  cases h with
  | none => decide
  | @digits ds n hds =>
    have hpos : 0 < 10 ^ ds.length := Nat.pow_pos (by decide)
    have hlt : n * 10 ^ 9 / 10 ^ ds.length < 10 ^ 9 := by
      rw [Nat.div_lt_iff_lt_mul hpos, Nat.mul_comm (10 ^ 9)]
      exact Nat.mul_lt_mul_of_pos_right (hds.value_eq ▸ value_lt hds.digit) (by decide)
    have hnine : ((10 ^ 9 : Nat) : Int) = nanosPerSecond := rfl
    exact ⟨Int.natCast_nonneg _, hnine ▸ Int.ofNat_lt.mpr hlt⟩

theorem two_digits {ds : List Char} {n : Nat} (h : Denotes ds n) (hlength : ds.length = 2) :
    ∃ a b, ds = [a, b] ∧ (a.isDigit ∧ a ≠ ':') ∧ (b.isDigit ∧ b ≠ ':') ∧
      digitValue a * 10 + digitValue b = n ∧ digitValue a < 100 := by
  obtain ⟨a, b, rfl⟩ := List.length_eq_two.mp hlength
  have hcolon {c : Char} (hc : c.isDigit) : c ≠ ':' := by
    rintro rfl
    exact absurd hc (by decide)
  have ha := h.digit a (by simp)
  have hb := h.digit b (by simp)
  have hvalue := h.value_eq
  have hfirst : ∀ c ∈ [a], c.isDigit := by simpa using ha
  have hone : value [a] < 10 := value_lt hfirst
  simp only [value, Nat.ofDigitChars_cons, Nat.ofDigitChars_nil] at hvalue hone
  refine ⟨a, b, rfl, ⟨ha, hcolon ha⟩, ⟨hb, hcolon hb⟩, ?_, ?_⟩
  · simp only [digitValue]
    omega
  · simp only [digitValue]
    omega

theorem parseOffsetFields_text {hours minutes : List Char} {h m : Nat} (hhours : Denotes hours h)
    (hminutes : Denotes minutes m) (hh : hours.length = 2) (hm : minutes.length = 2)
    (hhour : h < 24) (hminute : m < 60) :
    parseOffsetFields 0 0 0 true (hours ++ ':' :: minutes) = ⟨1, h, m, false, []⟩ := by
  obtain ⟨a, b, rfl, ha, hb, hab, ha'⟩ := two_digits hhours hh
  obtain ⟨c, d, rfl, hc, hd, hcd, hc'⟩ := two_digits hminutes hm
  have hlarge : ¬ (100 : Int) ≤ h := by omega
  have hlarge' : ¬ (100 : Int) ≤ m := by omega
  simp [parseOffsetFields, ha, hb, hc, hd, hab, hcd, not_le.mpr ha', not_le.mpr hc', hlarge,
    hlarge']

theorem parseOffset_text {off : List Char} {offset : Int} (h : OffsetText off offset) :
    parseOffset off = some (offset, []) := by
  cases h with
  | zulu => rfl
  | ahead hhours hminutes hh hm hhour hminute =>
    have hfields := parseOffsetFields_text hhours hminutes hh hm hhour hminute
    simp only [parseOffset, hfields, kSecsPerHour, kSecsPerMinute]
    rw [if_neg (by decide), if_pos (by decide), if_neg (by simp; omega), if_neg (by decide)]
    congr 2
    omega
  | behind hhours hminutes hh hm hhour hminute =>
    have hfields := parseOffsetFields_text hhours hminutes hh hm hhour hminute
    simp only [parseOffset, hfields, kSecsPerHour, kSecsPerMinute]
    rw [if_neg (by decide), if_pos (by decide), if_neg (by simp; omega), if_pos (by decide)]
    congr 2
    omega

theorem OffsetText.mem {off : List Char} {offset : Int} (h : OffsetText off offset) :
    -86400 < offset ∧ offset < 86400 := by
  cases h <;> omega

theorem OffsetText.head {off : List Char} {offset : Int} (h : OffsetText off offset)
    (rest : List Char) : Ends (off ++ rest) ∧ (off ++ rest).head? ≠ some '.' := by
  cases h <;> simp

theorem OffsetText.nul_not_mem {off : List Char} {offset : Int} (h : OffsetText off offset) :
    '\x00' ∉ off := by
  cases h with
  | zulu => decide
  | ahead hhours hminutes =>
    simp [nul_not_mem_of_digits hhours.digit, nul_not_mem_of_digits hminutes.digit]
  | behind hhours hminutes =>
    simp [nul_not_mem_of_digits hhours.digit, nul_not_mem_of_digits hminutes.digit]

theorem FractionText.nul_not_mem {frac : List Char} {nanos : Int} (h : FractionText frac nanos) :
    '\x00' ∉ frac := by
  cases h with
  | none => exact List.not_mem_nil
  | digits hds => simp [nul_not_mem_of_digits hds.digit]

theorem FractionText.ends_append {frac rest : List Char} {nanos : Int}
    (h : FractionText frac nanos) (hrest : Ends rest) : Ends (frac ++ rest) := by
  cases h with
  | none => exact hrest
  | digits => simp

theorem fromCounts_of_mem (sec : Int) {nsec : Int} (h : 0 ≤ nsec ∧ nsec < nanosPerSecond) :
    fromCounts sec nsec = .ok ⟨sec, nsec, h⟩ :=
  fromCounts_self ⟨sec, nsec, h⟩

theorem localSeconds_mem (d : DateText) (t : TimeText) (h : d.Admitted) :
    int64Min + 86400 < localSeconds d t ∧ localSeconds d t < int64Max - 86400 := by
  obtain ⟨hmonth, hday, -⟩ := h
  have hyear := d.year_mem
  have hhour := t.hour_le
  have hminute := t.minute_le
  have hsecond := t.second_le
  simp only [kYearMin, kYearMax, intMin, intMax] at hyear
  simp only [localSeconds, dayNumber, daysBeforeYear, leapYears, int64Min, int64Max,
    daysBeforeMonth_eq d.year (show 1 ≤ d.month ∧ d.month ≤ 13 by omega)]
  split_ifs <;> omega

theorem fromRFC3339_text (d : DateText) (t : TimeText) {frac off : List Char} {nanos offset : Int}
    (hfrac : FractionText frac nanos) (hoff : OffsetText off offset) :
    fromRFC3339 (String.ofList (d.text t ++ (frac ++ off))) =
      if d.Admitted then .ok ⟨localSeconds d t + offset, nanos, hfrac.nanos_mem⟩
      else .error (invalidArgument (String.ofList (d.text t ++ (frac ++ off)) ++
        ": Failed to match RFC3339 date-time")) := by
  have hhead := hoff.head []
  rw [List.append_nil] at hhead
  have hends := hfrac.ends_append hhead.1
  have hnul : '\x00' ∉ frac ++ off := by simp [hfrac.nul_not_mem, hoff.nul_not_mem]
  rw [fromRFC3339, parseTime_text d t hends hnul]
  by_cases hadmitted : d.Admitted
  · have hlocal := localSeconds_mem d t hadmitted
    have hoffset := hoff.mem
    have hsecs : timeZ (d.tm t) = localSeconds d t := timeZ_eq hadmitted.1
    simp only [if_pos hadmitted, String.toList_ofList, List.drop_left,
      parseSecfrac_text hfrac hhead.1 hhead.2, parseOffset_text hoff, hsecs]
    rw [if_neg (by simp), if_neg (by omega), if_neg (by omega), fromCounts_of_mem]
  · simp only [if_neg hadmitted]

/-- The instant is that of the local time and its offset only if the offset is zero. -/
theorem timestampFromRFC3339_offset (d : DateText) (t : TimeText) {frac off : List Char}
    {nanos offset : Int} (hday : IsDay d.year d.month d.day) (hfrac : FractionText frac nanos)
    (hoff : OffsetText off offset) :
    (∃ ts, timestampFromRFC3339 (String.ofList (d.text t ++ (frac ++ off))) = .ok ts ∧
      ts.sec = 86400 * dayNumber d.year d.month d.day +
        (3600 * t.hour + 60 * t.minute + t.second) - offset ∧ ts.nsec = nanos) ↔ offset = 0 := by
  have hadmitted : d.Admitted := d.admitted_iff.mpr (.inl hday)
  have htext := fromRFC3339_text d t hfrac hoff
  rw [if_pos hadmitted] at htext
  constructor
  · rintro ⟨ts, hts, hsec, -⟩
    rw [timestampFromRFC3339, htext] at hts
    cases hts
    simp only [localSeconds] at hsec
    omega
  · rintro rfl
    exact ⟨_, htext, by simp [localSeconds], rfl⟩

theorem denotes_of_all {ds : List Char} (h : ds.all Char.isDigit) (hne : ds ≠ []) :
    Denotes ds (value ds) :=
  ⟨List.all_eq_true.mp h, hne, rfl⟩

def secondOfJanuary : DateText where
  year := 2019
  month := 1
  day := 2
  yearText := ['2', '0', '1', '9']
  monthText := ['0', '1']
  dayText := ['0', '2']
  year_denotes := .positive (n := 2019) (denotes_of_all rfl nofun)
  month_denotes := .positive (n := 1) (denotes_of_all rfl nofun)
  day_denotes := .positive (n := 2) (denotes_of_all rfl nofun)
  year_mem := by decide

def threeOClock : TimeText where
  hour := 3
  minute := 4
  second := 5
  hourText := ['0', '3']
  minuteText := ['0', '4']
  secondText := ['0', '5']
  hour_denotes := denotes_of_all rfl nofun
  minute_denotes := denotes_of_all rfl nofun
  second_denotes := denotes_of_all rfl nofun
  hour_le := by decide
  minute_le := by decide
  second_le := by decide

theorem ahead_one_two : OffsetText ['+', '0', '1', ':', '0', '2'] 3720 :=
  have hours : Denotes ['0', '1'] 1 := denotes_of_all rfl nofun
  have minutes : Denotes ['0', '2'] 2 := denotes_of_all rfl nofun
  .ahead hours minutes rfl rfl (by decide) (by decide)

theorem half_second : FractionText ['.', '5'] 500000000 :=
  .digits (n := 5) (denotes_of_all rfl nofun)

theorem timestampFromRFC3339_offset_zulu :
    ∃ ts, timestampFromRFC3339 "2019-01-02T03:04:05.5Z" = .ok ts ∧
      ts.sec = 86400 * dayNumber 2019 1 2 + (3600 * 3 + 60 * 4 + 5) - 0 ∧ ts.nsec = 500000000 :=
  (timestampFromRFC3339_offset secondOfJanuary threeOClock (by decide) half_second .zulu).mpr rfl

/-- The instant is two hours and four minutes late. -/
theorem timestampFromRFC3339_ahead :
    ¬ ∃ ts, timestampFromRFC3339 "2019-01-02T03:04:05+01:02" = .ok ts ∧
      ts.sec = 86400 * dayNumber 2019 1 2 + (3600 * 3 + 60 * 4 + 5) - 3720 ∧ ts.nsec = 0 := by
  rintro ⟨ts, hts, hsec, -⟩
  have htext := fromRFC3339_text secondOfJanuary threeOClock .none ahead_one_two
  rw [if_pos (by decide)] at htext
  cases hts.symm.trans htext
  exact absurd hsec (by decide)

/-- A February 29th of a year that has none passes for a date. -/
theorem parseTime_real_dates (d : DateText) (t : TimeText) :
    (((parseTime (String.ofList (d.text t))).isSome ↔ IsDay d.year d.month d.day) ∧
      (∀ tm pos, parseTime (String.ofList (d.text t)) = some (tm, pos) →
        tm = d.tm t ∧ pos = (d.text t).length) ∧
      ∀ frac off nanos offset, FractionText frac nanos → OffsetText off offset →
        ((∃ ts, timestampFromRFC3339 (String.ofList (d.text t ++ (frac ++ off))) = .ok ts) ↔
          IsDay d.year d.month d.day)) ↔
      ¬ (d.month = 2 ∧ d.day = 29 ∧ ¬ IsLeap d.year) := by
  have hparse := parseTime_text d t ends_nil List.not_mem_nil
  rw [List.append_nil] at hparse
  have hsome : (parseTime (String.ofList (d.text t))).isSome ↔ d.Admitted := by
    rw [hparse]
    split <;> simp [*]
  have hstamp {frac off : List Char} {nanos offset : Int} (hfrac : FractionText frac nanos)
      (hoff : OffsetText off offset) :
      (∃ ts, timestampFromRFC3339 (String.ofList (d.text t ++ (frac ++ off))) = .ok ts) ↔
        d.Admitted := by
    rw [timestampFromRFC3339, fromRFC3339_text d t hfrac hoff]
    split <;> simp [*]
  have hreal : (d.Admitted ↔ IsDay d.year d.month d.day) ↔
      ¬ (d.month = 2 ∧ d.day = 29 ∧ ¬ IsLeap d.year) := by
    rw [d.admitted_iff]
    constructor
    · rintro hiff ⟨hmonth, hday, hleap⟩
      have hlast := (hiff.mp (.inr ⟨hmonth, hday, hleap⟩)).2.2
      rw [monthLength, if_pos hmonth, if_neg hleap] at hlast
      omega
    · intro hnot
      simp only [hnot, or_false]
  constructor
  · rintro ⟨hiff, -, -⟩
    exact hreal.mp (hsome.symm.trans hiff)
  · intro hnot
    have hiff := hreal.mpr hnot
    refine ⟨hsome.trans hiff, ?_, fun _ _ _ _ hfrac hoff => (hstamp hfrac hoff).trans hiff⟩
    intro tm pos hpos
    rw [hparse] at hpos
    split at hpos
    · cases hpos
      exact ⟨rfl, rfl⟩
    · cases hpos

/-- 2019 has 28 days in its February. -/
theorem parseTime_february :
    ¬ ((parseTime "2019-02-29T00:00:00").isSome ↔ IsDay 2019 2 29) := by
  decide +kernel

end SpannerClient.Timestamp
