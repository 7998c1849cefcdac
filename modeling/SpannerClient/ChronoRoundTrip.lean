import SpannerClient.TimestampRatio

namespace SpannerClient.Timestamp

open NumericLimits

theorem toRatio_guard (ts : Timestamp) {min max den num : Int} (hsec : int64.Holds ts.sec)
    (hnum : 0 < num) :
    ts.toRatio min max num den =
      guardProduct (ts.sec.tdiv num) den (positiveOverflowOf timePointType)
        (negativeOverflowOf timePointType) (ts.toCount (ts.sec.tdiv num) min max num den) := by
  rw [toRatio, div_eq hsec hnum, Option.bind_eq_bind, Option.bind_some]

theorem toCount_eq {ts : Timestamp} {sec num den ncount : Int}
    (hproduct : int64.Holds (sec * den)) (hncount : subsecondCount ts.nsec num den = some ncount)
    (hnonneg : 0 ≤ ncount) (hsum : int64.Holds (sec * den + ncount)) :
    ts.toCount sec int64.min int64.max num den = some (.ok (sec * den + ncount)) := by
  have hroom : int64.sub int64Max ncount = some (int64Max - ncount) := by
    apply sub_eq
    rw [int64_holds] at hsum hproduct ⊢
    simp only [int64Max]
    omega
  have hfits : ¬ int64Max - ncount < sec * den := by
    have hmax : sec * den + ncount ≤ int64Max := hsum.2
    omega
  rw [toCount, mul_eq hproduct, hncount]
  simp only [Option.bind_eq_bind, Option.bind_some, hroom, if_neg hfits, add_eq hsum,
    if_neg (Int.not_lt.mpr hsum.2), if_neg (Int.not_lt.mpr hsum.1)]

theorem subsecondCount_zero {num : Int} (hnum : 0 < num) : subsecondCount 0 num 1 = some 0 := by
  have hcoarse : (1 : Int) < nanosPerSecond := by decide
  simp only [subsecondCount, zero_div_eq hnum, if_pos hcoarse, div_one_eq int64_nanosPerSecond,
    Option.bind_eq_bind, Option.bind_some, zero_div_eq nanosPerSecond_pos]

theorem toRatio_seconds {count num : Int} (hnum : 0 < num) (hcount : int64.Holds count)
    (hsec : int64.Holds (count * num)) :
    (⟨count * num, 0, normalized_zero⟩ : Timestamp).toRatio int64.min int64.max num 1 =
      some (.ok count) := by
  have hquot : (count * num).tdiv num = count := Int.mul_tdiv_cancel _ hnum.ne'
  have hcountOne : int64.Holds (count * 1) := by rwa [Int.mul_one]
  have hend : (⟨count * num, 0, normalized_zero⟩ : Timestamp).toCount count int64.min int64.max
      num 1 = some (.ok (count * 1 + 0)) :=
    toCount_eq hcountOne (subsecondCount_zero hnum) (by decide) (by rwa [Int.add_zero])
  rw [toRatio_guard _ hsec hnum, hquot, guardProduct_of_holds (by decide) _ _ _ hcountOne, hend,
    Int.mul_one, Int.add_zero]

section Fractions

variable {den unit count : Int}

theorem ofNanos_subsecond (hunit : nanosPerSecond = den * unit) (hden : 0 < den)
    (hpos : 0 < unit) (hcount : int64.Holds count) :
    ∃ h, ofNanos (count * nanosPerSecond / den) =
      .ok ⟨count / den, count % den * unit, h⟩ := by
  have hnonneg := Int.emod_nonneg count hden.ne'
  have hlt := Int.emod_lt_of_pos count hden
  have hnanos : 0 ≤ count % den * unit ∧ count % den * unit < nanosPerSecond := by
    rw [hunit]
    exact ⟨Int.mul_nonneg hnonneg hpos.le, Int.mul_lt_mul_of_pos_right hlt hpos⟩
  have htotal : count * nanosPerSecond / den =
      count / den * nanosPerSecond + count % den * unit := by
    calc count * nanosPerSecond / den
        = count * unit := by
          rw [hunit, Int.mul_comm den, ← Int.mul_assoc, Int.mul_ediv_cancel _ hden.ne']
      _ = (count / den * den + count % den) * unit := by rw [Int.ediv_mul_add_emod]
      _ = count / den * nanosPerSecond + count % den * unit := by
          rw [Int.add_mul, Int.mul_assoc, hunit]
  exact ⟨hnanos, htotal ▸ ofNanos_of_holds (hcount.ediv hden) hnanos⟩

theorem subsecondCount_eq (hunit : nanosPerSecond = den * unit) (hden : 0 < den)
    (hpos : 0 < unit) : subsecondCount (count % den * unit) 1 den = some (count % den) := by
  have hnonneg := Int.emod_nonneg count hden.ne'
  have hlt := Int.emod_lt_of_pos count hden
  have hnsec : int64.Holds (count % den * unit) := by
    have hlow := Int.mul_nonneg hnonneg hpos.le
    have hhigh := Int.mul_lt_mul_of_pos_right hlt hpos
    rw [← hunit] at hhigh
    simp only [nanosPerSecond] at hhigh
    exact int64_holds.mpr (by omega)
  rw [subsecondCount, div_one_eq hnsec, Option.bind_eq_bind, Option.bind_some]
  split
  case isTrue =>
    have hquot : int64.div nanosPerSecond den = some unit := by
      rw [div_eq int64_nanosPerSecond hden, hunit, Int.mul_tdiv_cancel_left _ hden.ne']
    rw [hquot, Option.bind_some, mul_div_eq hnsec hpos]
  case isFalse hfine =>
    have hone : unit = 1 := by nlinarith
    have hnano : den = nanosPerSecond := by rw [hunit, hone, Int.mul_one]
    subst hone
    have hquot : int64.div den nanosPerSecond = some 1 := by
      rw [hnano]
      decide
    rw [Int.mul_one] at hnsec
    rw [hquot, Option.bind_some, Int.mul_one, mul_one_eq hnsec]

theorem product_holds_iff (hden : 0 < den) (hcount : int64.Holds count) :
    int64.Holds (count / den * den) ↔ int64Min.tdiv den * den ≤ count := by
  have hguard : count / den < int64Min.tdiv den ↔ count / den * den < int64Min :=
    lt_min_tdiv (t := int64) hden
  have hle : count / den * den ≤ int64Max := Int.le_trans (Int.ediv_mul_le _ hden.ne') hcount.2
  rw [← Int.le_ediv_iff_mul_le hden]
  constructor
  · intro h
    exact Int.not_lt.mp fun hlt => Int.not_lt.mpr h.1 (hguard.mp hlt)
  · intro h
    exact ⟨Int.not_lt.mp fun hlt => Int.not_lt.mpr h (hguard.mpr hlt), hle⟩

theorem toRatio_subsecond (hunit : nanosPerSecond = den * unit) (hden : 0 < den)
    (hpos : 0 < unit) (hcount : int64.Holds count)
    (h : 0 ≤ count % den * unit ∧ count % den * unit < nanosPerSecond) :
    (⟨count / den, count % den * unit, h⟩ : Timestamp).toRatio int64.min int64.max 1 den =
      if int64Min.tdiv den * den ≤ count then some (.ok count)
      else some (.error (negativeOverflowOf timePointType)) := by
  have hsum : count / den * den + count % den = count := Int.ediv_mul_add_emod count den
  rw [toRatio_guard _ (hcount.ediv hden) (by decide), Int.tdiv_one]
  by_cases hproduct : int64.Holds (count / den * den)
  · have hend : (⟨count / den, count % den * unit, h⟩ : Timestamp).toCount (count / den) int64.min
        int64.max 1 den = some (.ok (count / den * den + count % den)) :=
      toCount_eq hproduct (subsecondCount_eq hunit hden hpos) (Int.emod_nonneg count hden.ne')
        (by rwa [hsum])
    rw [guardProduct_of_holds hden _ _ _ hproduct, hend, hsum,
      if_pos ((product_holds_iff hden hcount).mp hproduct)]
  · have hmax : ¬ int64Max < count / den * den :=
      Int.not_lt.mpr (Int.le_trans (Int.ediv_mul_le _ hden.ne') hcount.2)
    rw [guardProduct_eq hden, if_neg hmax, if_pos (lt_min_of_not_holds hproduct hmax),
      if_neg fun hle => hproduct ((product_holds_iff hden hcount).mpr hle)]

end Fractions

theorem makeTimestamp_eq {p : Period} (tp : SysTime p) :
    makeTimestamp tp = some (ofNanos (totalNanos p tp.count)) := by
  have hsub : int64.sub tp.count (unixEpoch p).count = some tp.count := sub_zero_eq tp.count_mem
  rw [makeTimestamp, hsub, Option.bind_eq_bind, Option.bind_some, fromRatio_eq p tp.count_mem]

theorem get_of_toRatio {ts : Timestamp} {p : Period} (tp : SysTime p)
    (h : ts.toRatio int64.min int64.max p.num p.den = some (.ok tp.count)) :
    ts.get p = some (.ok tp) := by
  have hadd : int64.add (unixEpoch p).count tp.count = some tp.count := zero_add_eq tp.count_mem
  simp only [get, convertTo, h, Option.bind_eq_bind, Option.bind_some, hadd, dif_pos tp.count_mem]

theorem get_of_overflow {ts : Timestamp} {p : Period} {failure : Failure}
    (h : ts.toRatio int64.min int64.max p.num p.den = some (.error failure)) :
    ts.get p = some (.error failure) := by
  simp only [get, convertTo, h, Option.bind_eq_bind, Option.bind_some]

theorem get_makeTimestamp_seconds {p : Period} (hone : p.den = 1) (tp : SysTime p)
    {ts : Timestamp} (h : makeTimestamp tp = some (.ok ts)) : ts.get p = some (.ok tp) := by
  have hnum : 0 < p.num := p.num_mem.1
  have htotal := ofNanos_add (tp.count * p.num) normalized_zero
  rw [makeTimestamp_eq, totalNanos, hone, Int.ediv_one, Option.some_inj] at h
  rw [Int.add_zero, h] at htotal
  split at htotal
  case isTrue => cases htotal
  case isFalse hmax =>
    split at htotal
    case isTrue => cases htotal
    case isFalse hmin =>
      cases htotal
      apply get_of_toRatio
      rw [hone]
      exact toRatio_seconds hnum tp.count_mem ⟨Int.not_lt.mp hmin, Int.not_lt.mp hmax⟩

theorem get_makeTimestamp_subsecond {p : Period} (hone : p.num = 1)
    (hnano : p.den ≤ nanosPerSecond) (tp : SysTime p) :
    ∃ ts, makeTimestamp tp = some (.ok ts) ∧
      ts.get p = some (if int64Min.tdiv p.den * p.den ≤ tp.count then .ok tp
        else .error (negativeOverflowOf timePointType)) := by
  obtain ⟨k, -, hden⟩ := p.den_pow
  have hpos : 0 < p.den := by
    rw [hden]
    exact Int.ofNat_lt.mpr (Nat.pow_pos (by decide))
  have hdvd : p.den ∣ nanosPerSecond := by
    rw [hden, nanosPerSecond_pow] at hnano ⊢
    exact pow_ten_dvd hnano
  obtain ⟨unit, hunit⟩ := hdvd
  have hunit_pos : 0 < unit := pos_of_mul_pos_right (hunit ▸ nanosPerSecond_pos) hpos.le
  obtain ⟨hnormal, hnanos⟩ := ofNanos_subsecond hunit hpos hunit_pos tp.count_mem
  have hback := toRatio_subsecond hunit hpos hunit_pos tp.count_mem hnormal
  refine ⟨_, by rw [makeTimestamp_eq, totalNanos, hone, Int.mul_one, hnanos], ?_⟩
  split
  case isTrue hlow =>
    rw [if_pos hlow, ← hone] at hback
    exact get_of_toRatio tp hback
  case isFalse hlow =>
    rw [if_neg hlow, ← hone] at hback
    exact get_of_overflow hback

/-- A time point is read back unless it lies in the last, incomplete second that its type has
before the epoch. -/
theorem get_makeTimestamp_iff {p : Period} (hnano : p.den ≤ nanosPerSecond) (tp : SysTime p) :
    (∀ ts, makeTimestamp tp = some (.ok ts) → ts.get p = some (.ok tp)) ↔
      int64Min.tdiv p.den * p.den ≤ tp.count := by
  obtain hnum | hone := p.designed
  · -- a fraction of a second always becomes a timestamp, so that only reading it back can fail
    obtain ⟨ts, hmake, hget⟩ := get_makeTimestamp_subsecond hnum hnano tp
    constructor
    · intro h
      by_contra hlow
      rw [h ts hmake, if_neg hlow] at hget
      cases hget
    · intro hlow other hother
      rw [hmake] at hother
      cases hother
      rw [hget, if_pos hlow]
  · have hlow : int64Min.tdiv p.den * p.den ≤ tp.count := by
      rw [hone]
      exact tp.count_mem.1
    exact ⟨fun _ => hlow, fun _ ts hts => get_makeTimestamp_seconds hone tp hts⟩

def leastSecond : SysTime nano := ⟨-9223372036000000000, by decide⟩

theorem get_makeTimestamp_leastSecond :
    (⟨-9223372036, 0, normalized_zero⟩ : Timestamp).get nano = some (.ok leastSecond) :=
  (get_makeTimestamp_iff (by decide) leastSecond).mpr (by decide) _ (by decide)

def leastNanosecond : SysTime nano := ⟨int64Min, by decide⟩

/-- The least time point becomes a timestamp that is then said to be out of range. -/
theorem get_makeTimestamp_leastNanosecond :
    ∃ ts, makeTimestamp leastNanosecond = some (.ok ts) ∧
      ts.get nano = some (.error (negativeOverflowOf timePointType)) ∧
      ts.get nano ≠ some (.ok leastNanosecond) :=
  ⟨⟨-9223372037, 145224192, by decide⟩, by decide, by decide, by decide⟩

end SpannerClient.Timestamp
