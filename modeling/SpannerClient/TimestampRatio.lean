import SpannerClient.TimestampChrono

namespace SpannerClient.Timestamp

open NumericLimits

theorem int64_holds {n : Int} :
    int64.Holds n ↔ -9223372036854775808 ≤ n ∧ n ≤ 9223372036854775807 := Iff.rfl

theorem int32_holds {n : Int} : int32.Holds n ↔ -2147483648 ≤ n ∧ n ≤ 2147483647 := Iff.rfl

theorem lt_min_of_not_holds {n : Int} (h : ¬ int64.Holds n) (hmax : ¬ int64Max < n) :
    n < int64Min := by
  by_contra hmin
  exact h ⟨Int.not_lt.mp hmin, Int.not_lt.mp hmax⟩

theorem int64_nanosPerSecond : int64.Holds nanosPerSecond := by decide

theorem nanosPerSecond_pos : 0 < nanosPerSecond := by decide

theorem withCarry_eq {sec carry nanos : Int} (hsum : int64.Holds (sec + carry))
    (h : 0 ≤ nanos ∧ nanos < nanosPerSecond) :
    withCarry sec carry nanos = some (.ok ⟨sec + carry, nanos, h⟩) := by
  simp [withCarry, add_eq hsum, ofNormalized, h]

def ofNanos (total : Int) : StatusOr Timestamp :=
  if int64Max < total / nanosPerSecond then .error positiveOverflow
  else if total / nanosPerSecond < int64Min then .error negativeOverflow
  else .ok ⟨total / nanosPerSecond, total % nanosPerSecond, Int.emod_nonneg _ (by decide),
    Int.emod_lt_of_pos _ nanosPerSecond_pos⟩

theorem ofNanos_add (sec : Int) {nanos : Int} (h : 0 ≤ nanos ∧ nanos < nanosPerSecond) :
    ofNanos (sec * nanosPerSecond + nanos) =
      if int64Max < sec then .error positiveOverflow
      else if sec < int64Min then .error negativeOverflow
      else .ok ⟨sec, nanos, h⟩ := by
  have hsec : (sec * nanosPerSecond + nanos) / nanosPerSecond = sec := by
    simp only [nanosPerSecond] at h ⊢
    omega
  have hnanos : (sec * nanosPerSecond + nanos) % nanosPerSecond = nanos := by
    simp only [nanosPerSecond] at h ⊢
    omega
  simp only [ofNanos, hsec, hnanos]

theorem ofNanos_of_holds {sec nanos : Int} (hsec : int64.Holds sec)
    (h : 0 ≤ nanos ∧ nanos < nanosPerSecond) :
    ofNanos (sec * nanosPerSecond + nanos) = .ok ⟨sec, nanos, h⟩ := by
  have hmax : ¬ int64Max < sec := Int.not_lt.mpr hsec.2
  have hmin : ¬ sec < int64Min := Int.not_lt.mpr hsec.1
  rw [ofNanos_add sec h, if_neg hmax, if_neg hmin]

theorem guardCarry_eq {sec carry nanos : Int} (hsec : int64.Holds sec)
    (hcarry : -int64Max ≤ carry ∧ carry ≤ int64Max) (h : 0 ≤ nanos ∧ nanos < nanosPerSecond) :
    guardCarry sec carry nanos = some (ofNanos ((sec + carry) * nanosPerSecond + nanos)) := by
  have hok : int64.Holds (sec + carry) →
      withCarry sec carry nanos = some (ofNanos ((sec + carry) * nanosPerSecond + nanos)) := by
    intro hsum
    rw [withCarry_eq hsum h, ofNanos_of_holds hsum]
  rw [int64_holds] at hsec
  simp only [int64_holds] at hok
  simp only [int64Max] at hcarry
  rw [guardCarry]
  split
  · have hlimit : int64.sub int64Max carry = some (int64Max - carry) :=
      sub_eq (int64_holds.mpr (by simp only [int64Max]; omega))
    rw [hlimit]
    by_cases hover : int64Max < sec + carry
    · have hguard : int64Max - carry < sec := by omega
      simp [hguard, ofNanos_add _ h, hover]
    · have hguard : ¬ int64Max - carry < sec := by omega
      simp only [int64Max] at hover
      simp [hguard, hok (by omega)]
  · split
    · have hlimit : int64.sub int64Min carry = some (int64Min - carry) :=
        sub_eq (int64_holds.mpr (by simp only [int64Min]; omega))
      rw [hlimit]
      by_cases hover : sec + carry < int64Min
      · have hguard : sec < int64Min - carry := by omega
        have hmax : ¬ int64Max < sec + carry := by simp only [int64Max]; omega
        simp [hguard, ofNanos_add _ h, hover, hmax]
      · have hguard : ¬ sec < int64Min - carry := by omega
        simp only [int64Min] at hover
        simp [hguard, hok (by omega)]
    · exact hok (by omega)

theorem fromIntmaxCounts_eq {sec nsec : Int} (hsec : int64.Holds sec) (hnsec : int64.Holds nsec) :
    fromIntmaxCounts sec nsec = some (ofNanos (sec * nanosPerSecond + nsec)) := by
  have hlt := Int.tmod_lt_of_pos nsec nanosPerSecond_pos
  have hgt := Int.lt_tmod_of_pos nsec nanosPerSecond_pos
  have hsum := Int.mul_tdiv_add_tmod nsec nanosPerSecond
  have hquot := div_eq hnsec nanosPerSecond_pos
  have hrem := mod_eq hnsec nanosPerSecond_pos
  generalize nsec.tdiv nanosPerSecond = quotient at *
  generalize nsec.tmod nanosPerSecond = remainder at *
  rw [int64_holds] at hnsec
  simp only [nanosPerSecond] at hlt hgt hsum
  rw [fromIntmaxCounts, hquot, hrem]
  simp only [Option.bind_eq_bind, Option.bind_some, toInt32_of_mem (n := remainder) (by omega)]
  split
  case isTrue hneg =>
    have hadd : int32.add remainder nanosPerSecond = some (remainder + nanosPerSecond) :=
      add_eq (int32_holds.mpr (by simp only [nanosPerSecond]; omega))
    have hcarry : int64.sub quotient 1 = some (quotient - 1) :=
      sub_eq (int64_holds.mpr (by omega))
    have htotal : (sec + (quotient - 1)) * nanosPerSecond + (remainder + nanosPerSecond) =
        sec * nanosPerSecond + nsec := by
      simp only [nanosPerSecond]
      omega
    rw [hadd, hcarry, Option.bind_some, Option.bind_some, ← htotal]
    exact guardCarry_eq hsec (by simp only [int64Max]; omega)
      (by simp only [nanosPerSecond]; omega)
  case isFalse hpos =>
    have htotal : (sec + quotient) * nanosPerSecond + remainder =
        sec * nanosPerSecond + nsec := by
      simp only [nanosPerSecond]
      omega
    rw [← htotal]
    exact guardCarry_eq hsec (by simp only [int64Max]; omega)
      (by simp only [nanosPerSecond]; omega)

theorem fromIntmaxCounts_fromCounts {sec nsec : Int} (hsec : int64.Holds sec)
    (hnsec : int64.Holds nsec) : fromIntmaxCounts sec nsec = some (fromCounts sec nsec) := by
  have hdiv := Truncation.borrowed_tdiv (a := nsec) nanosPerSecond_pos
  have hmod := Truncation.borrowed_tmod (a := nsec) nanosPerSecond_pos
  have hfloor : (sec * nanosPerSecond + nsec) / nanosPerSecond = sec + nsec / nanosPerSecond := by
    rw [Int.add_comm, Int.add_mul_ediv_right _ _ (by decide), Int.add_comm]
  have hcarry : -9223372037 ≤ nsec / nanosPerSecond ∧ nsec / nanosPerSecond ≤ 9223372037 := by
    rw [int64_holds] at hnsec
    simp only [nanosPerSecond]
    omega
  have hmaxval : int64Max = 9223372036854775807 := rfl
  have hminval : int64Min = -9223372036854775808 := rfl
  rw [fromIntmaxCounts_eq hsec hnsec, Option.some_inj]
  rw [int64_holds] at hsec
  simp only [fromCounts, hdiv, hmod, ofNanos, hfloor, Int.mul_add_emod_self_right]
  by_cases hmax : int64Max < sec + nsec / nanosPerSecond
  · rw [if_pos hmax, if_pos (by omega)]
  · rw [if_neg hmax, if_neg (show ¬ (0 ≤ sec ∧ _) by omega)]
    by_cases hmin : sec + nsec / nanosPerSecond < int64Min
    · rw [if_pos hmin, if_pos (by omega)]
    · rw [if_neg hmin, if_neg (by omega)]

theorem pow_ten_dvd {j k : Nat} (h : ((10 ^ j : Nat) : Int) ≤ ((10 ^ k : Nat) : Int)) :
    ((10 ^ j : Nat) : Int) ∣ ((10 ^ k : Nat) : Int) := by
  have hle : j ≤ k := (Nat.pow_le_pow_iff_right (by decide)).mp (Int.ofNat_le.mp h)
  exact Int.natCast_dvd_natCast.mpr (Nat.pow_dvd_pow 10 hle)

theorem nanosPerSecond_pow : nanosPerSecond = ((10 ^ 9 : Nat) : Int) := by decide

theorem floorCount_eq {sscount divider : Int} (hdivider : 0 < divider)
    (hlow : int64.Holds (sscount - divider)) (hholds : int64.Holds sscount) :
    floorCount sscount divider = some (sscount / divider) := by
  rw [int64_holds] at hlow hholds
  rw [floorCount]
  split
  · have hshift : int64.sub divider 1 = some (divider - 1) := sub_eq (int64_holds.mpr (by omega))
    have hlower : int64.Holds (sscount - (divider - 1)) := int64_holds.mpr (by omega)
    have hfloor := Truncation.shifted_tdiv (a := sscount) hdivider
    rw [if_neg (by omega)] at hfloor
    simp only [hshift, sub_eq hlower, Option.bind_eq_bind, Option.bind_some,
      div_eq hlower hdivider, hfloor]
  · rw [div_eq (int64_holds.mpr hholds) hdivider, Int.tdiv_eq_ediv_of_nonneg (by omega)]

theorem subsecondNanos_fine {sscount den : Int} (hfine : nanosPerSecond < den)
    (hdvd : nanosPerSecond ∣ den) (hden : den ≤ 1000000000000000000)
    (h : -den < sscount ∧ sscount < den) :
    subsecondNanos sscount 1 den = some (sscount * nanosPerSecond / den) := by
  obtain ⟨divider, hdivider⟩ := hdvd
  have hpos : 0 < divider ∧ divider ≤ den := by
    simp only [nanosPerSecond] at hdivider hfine
    omega
  have hquot : den.tdiv nanosPerSecond = divider := by
    rw [hdivider, Int.mul_tdiv_cancel_left _ nanosPerSecond_pos.ne']
  have hfloor : sscount * nanosPerSecond / den = sscount / divider := by
    rw [hdivider, Int.mul_comm nanosPerSecond, Int.mul_ediv_mul_of_pos_left _ _ nanosPerSecond_pos]
  have hbelow : -nanosPerSecond ≤ sscount / divider ∧ sscount / divider < nanosPerSecond := by
    rw [hdivider] at h
    constructor
    · rw [Int.le_ediv_iff_mul_le hpos.1, Int.neg_mul]
      exact h.1.le
    · rw [Int.ediv_lt_iff_lt_mul hpos.1]
      exact h.2
  have hcount : floorCount sscount divider = some (sscount / divider) :=
    floorCount_eq hpos.1 (int64_holds.mpr (by omega)) (int64_holds.mpr (by omega))
  have hnanos : int64.Holds (sscount / divider) := by
    simp only [nanosPerSecond] at hbelow
    exact int64_holds.mpr (by omega)
  have hholds : int64.Holds den := int64_holds.mpr (by omega)
  rw [subsecondNanos, if_pos hfine, div_eq hholds nanosPerSecond_pos, hquot, hfloor]
  simp only [Option.bind_eq_bind, Option.bind_some, hcount, mul_one_eq hnanos]

theorem subsecondNanos_coarse {sscount den : Int} (hpos : 0 < den) (hdvd : den ∣ nanosPerSecond)
    (h : -den < sscount ∧ sscount < den) :
    subsecondNanos sscount 1 den = some (sscount * nanosPerSecond / den) := by
  have hle : ¬ nanosPerSecond < den := Int.not_lt.mpr (Int.le_of_dvd nanosPerSecond_pos hdvd)
  obtain ⟨multiplier, hmultiplier⟩ := hdvd
  have hquot : nanosPerSecond.tdiv den = multiplier := by
    rw [hmultiplier, Int.mul_tdiv_cancel_left _ hpos.ne']
  have hexact : sscount * nanosPerSecond / den = sscount * multiplier := by
    rw [hmultiplier, Int.mul_comm den, ← Int.mul_assoc, Int.mul_ediv_cancel _ hpos.ne']
  have hmultiplier_pos : 0 < multiplier :=
    pos_of_mul_pos_right (hmultiplier ▸ nanosPerSecond_pos) hpos.le
  have hbelow : -nanosPerSecond < sscount * multiplier ∧ sscount * multiplier < nanosPerSecond := by
    rw [hmultiplier, ← Int.neg_mul]
    exact ⟨Int.mul_lt_mul_of_pos_right h.1 hmultiplier_pos,
      Int.mul_lt_mul_of_pos_right h.2 hmultiplier_pos⟩
  have hproduct : int64.Holds (sscount * multiplier) := by
    simp only [nanosPerSecond] at hbelow
    exact int64_holds.mpr (by omega)
  rw [subsecondNanos, if_neg hle, div_eq int64_nanosPerSecond hpos, hquot, hexact]
  simp only [Option.bind_eq_bind, Option.bind_some, mul_eq hproduct, mul_one_eq hproduct]

theorem pow_ten_mem {k : Nat} (hk : k ≤ 18) :
    0 < ((10 ^ k : Nat) : Int) ∧ ((10 ^ k : Nat) : Int) ≤ 1000000000000000000 := by
  have hpos : 0 < 10 ^ k := Nat.pow_pos (by decide)
  have hle : 10 ^ k ≤ 10 ^ 18 := Nat.pow_le_pow_right (by decide) hk
  exact ⟨Int.ofNat_lt.mpr hpos, Int.ofNat_le.mpr hle⟩

theorem subsecondNanos_eq {sscount : Int} {k : Nat} (hk : k ≤ 18)
    (h : -((10 ^ k : Nat) : Int) < sscount ∧ sscount < ((10 ^ k : Nat) : Int)) :
    subsecondNanos sscount 1 ((10 ^ k : Nat) : Int) =
      some (sscount * nanosPerSecond / ((10 ^ k : Nat) : Int)) := by
  obtain ⟨hpos, hle⟩ := pow_ten_mem hk
  by_cases hfine : nanosPerSecond < ((10 ^ k : Nat) : Int)
  · rw [nanosPerSecond_pow] at hfine
    exact subsecondNanos_fine hfine (pow_ten_dvd hfine.le) hle h
  · rw [nanosPerSecond_pow] at hfine
    exact subsecondNanos_coarse hpos (pow_ten_dvd (Int.not_lt.mp hfine)) h

def totalNanos (p : Period) (count : Int) : Int := count * p.num * nanosPerSecond / p.den

theorem guardProduct_eq {α : Type} {a b : Int} (hb : 0 < b) (positive negative : Failure)
    (rest : Option (StatusOr α)) :
    guardProduct a b positive negative rest =
      if int64Max < a * b then some (.error positive)
      else if a * b < int64Min then some (.error negative)
      else rest := by
  have hmax : int64Max.tdiv b < a ↔ int64Max < a * b := max_tdiv_lt (t := int64) hb
  have hmin : a < int64Min.tdiv b ↔ a * b < int64Min := lt_min_tdiv (t := int64) hb
  have hupper : int64.div int64Max b = some (int64Max.tdiv b) := div_eq (by decide) hb
  have hlower : int64.div int64Min b = some (int64Min.tdiv b) := div_eq (by decide) hb
  rw [guardProduct]
  split
  case isTrue hpos =>
    have hproduct := Int.mul_nonneg hpos hb.le
    have hinside : ¬ a * b < int64Min := by simp only [int64Min]; omega
    rw [hupper, Option.bind_eq_bind, Option.bind_some, if_neg hinside]
    simp only [hmax]
  case isFalse hneg =>
    have hproduct := Int.mul_neg_of_neg_of_pos (Int.not_le.mp hneg) hb
    have hinside : ¬ int64Max < a * b := by simp only [int64Max]; omega
    rw [hlower, Option.bind_eq_bind, Option.bind_some, if_neg hinside]
    simp only [hmin]

theorem guardProduct_of_holds {α : Type} {a b : Int} (hb : 0 < b) (positive negative : Failure)
    (rest : Option (StatusOr α)) (h : int64.Holds (a * b)) :
    guardProduct a b positive negative rest = rest := by
  rw [guardProduct_eq hb, if_neg (show ¬ int64Max < a * b from Int.not_lt.mpr h.2),
    if_neg (show ¬ a * b < int64Min from Int.not_lt.mpr h.1)]

theorem fromRatio_guard {count den : Int} (num : Int) (hcount : int64.Holds count)
    (hden : 0 < den) :
    fromRatio count num den = guardProduct (count.tdiv den) num positiveOverflow negativeOverflow
      (fromSeconds count (count.tdiv den) num den) := by
  rw [fromRatio, div_eq hcount hden, Option.bind_eq_bind, Option.bind_some]

theorem fromRatio_subsecond {count : Int} {k : Nat} (hk : k ≤ 18) (hcount : int64.Holds count) :
    fromRatio count 1 ((10 ^ k : Nat) : Int) =
      some (ofNanos (count * nanosPerSecond / ((10 ^ k : Nat) : Int))) := by
  obtain ⟨hpos, hle⟩ := pow_ten_mem hk
  have hgt := Int.lt_tmod_of_pos count hpos
  have hlt := Int.tmod_lt_of_pos count hpos
  have hrest := subsecondNanos_eq hk ⟨hgt, hlt⟩
  generalize ((10 ^ k : Nat) : Int) = den at *
  have hguard := fromRatio_guard 1 hcount hpos
  have hsum := Int.tdiv_mul_add_tmod count den
  have hsec := hcount.tdiv hpos
  have hscaled := hcount.tdiv_mul hpos
  generalize count.tdiv den = sec at *
  generalize count.tmod den = sscount at *
  have hleft : int64.sub count (sec * den) = some sscount :=
    sub_eq_of_eq (by omega) (int64_holds.mpr (by omega))
  have hnanos : -nanosPerSecond ≤ sscount * nanosPerSecond / den ∧
      sscount * nanosPerSecond / den ≤ nanosPerSecond := by
    simp only [nanosPerSecond]
    constructor
    · rw [Int.le_ediv_iff_mul_le hpos]
      omega
    · rw [← Int.lt_add_one_iff, Int.ediv_lt_iff_lt_mul hpos]
      omega
  -- whole seconds come out of the floor
  have htotal : sec * nanosPerSecond + sscount * nanosPerSecond / den =
      count * nanosPerSecond / den := by
    rw [← hsum, Int.add_mul, Int.mul_right_comm, Int.add_comm,
      Int.add_comm (_ * den), Int.add_mul_ediv_right _ _ hpos.ne']
  have hnsec : int64.Holds (sscount * nanosPerSecond / den) := by
    simp only [nanosPerSecond] at hnanos ⊢
    exact int64_holds.mpr (by omega)
  rw [hguard, guardProduct_of_holds (by decide) _ _ _ (by rwa [Int.mul_one]), fromSeconds,
    mul_one_eq hsec]
  simp only [Option.bind_eq_bind, Option.bind_some, mul_eq hscaled, div_one_eq hscaled, hleft,
    hrest, fromIntmaxCounts_eq hsec hnsec, htotal]

theorem subsecondNanos_zero {num : Int} : subsecondNanos 0 num 1 = some 0 := by
  have hcoarse : ¬ nanosPerSecond < 1 := by decide
  simp only [subsecondNanos, if_neg hcoarse, div_one_eq int64_nanosPerSecond,
    Option.bind_eq_bind, Option.bind_some, zero_mul_eq]

theorem fromRatio_seconds {count num : Int} (hnum : 0 < num) (hcount : int64.Holds count) :
    fromRatio count num 1 = some (ofNanos (count * num * nanosPerSecond)) := by
  have hguard := fromRatio_guard num hcount (show (0 : Int) < 1 by decide)
  have htotal := ofNanos_add (count * num) normalized_zero
  rw [Int.add_zero] at htotal
  rw [Int.tdiv_one] at hguard
  by_cases hproduct : int64.Holds (count * num)
  case neg =>
    rw [hguard, guardProduct_eq hnum, htotal]
    by_cases hmax : int64Max < count * num
    · rw [if_pos hmax, if_pos hmax]
    · have hmin := lt_min_of_not_holds hproduct hmax
      rw [if_neg hmax, if_pos hmin, if_neg hmax, if_pos hmin]
  case pos =>
    have hleft : int64.sub count count = some 0 := sub_eq_of_eq (Int.sub_self count) holds_zero
    rw [hguard, guardProduct_of_holds hnum _ _ _ hproduct, fromSeconds, mul_eq hproduct]
    simp only [Option.bind_eq_bind, Option.bind_some, mul_one_eq hproduct,
      mul_div_eq hproduct hnum, hleft, subsecondNanos_zero,
      fromIntmaxCounts_eq hproduct holds_zero, Int.add_zero]

theorem fromRatio_eq (p : Period) {count : Int} (hcount : int64.Holds count) :
    fromRatio count p.num p.den = some (ofNanos (totalNanos p count)) := by
  obtain ⟨k, hk, hden⟩ := p.den_pow
  obtain hnum | hone := p.designed
  · rw [totalNanos, hnum, Int.mul_one, hden]
    exact fromRatio_subsecond hk hcount
  · rw [totalNanos, hone, Int.ediv_one]
    exact fromRatio_seconds (by have := p.num_mem.1; omega) hcount

theorem ofNanos_sum {total : Int} (h : int64.Holds (total / nanosPerSecond)) :
    ∃ ts : Timestamp, ofNanos total = .ok ts ∧ int64.Holds ts.sec ∧
      ts.sec * nanosPerSecond + ts.nsec = total := by
  have hmax : ¬ int64Max < total / nanosPerSecond := Int.not_lt.mpr h.2
  have hmin : ¬ total / nanosPerSecond < int64Min := Int.not_lt.mpr h.1
  rw [ofNanos, if_neg hmax, if_neg hmin]
  exact ⟨_, rfl, h, Int.ediv_mul_add_emod total nanosPerSecond⟩

theorem ofNanos_outOfRange {total : Int} (h : ¬ int64.Holds (total / nanosPerSecond)) :
    ∃ failure : Failure, ofNanos total = .error failure ∧
      failure.status.code = .outOfRange := by
  rw [ofNanos]
  split
  case isTrue => exact ⟨_, rfl, rfl⟩
  case isFalse hmax =>
    rw [if_pos (lt_min_of_not_holds h hmax)]
    exact ⟨_, rfl, rfl⟩

/-- `FromRatio` is the floor of the count in nanoseconds, out of range where its seconds are. -/
theorem fromRatio_floor (p : Period) {count : Int} (hcount : int64.Holds count) :
    (int64.Holds (totalNanos p count / nanosPerSecond) →
      ∃ ts : Timestamp, fromRatio count p.num p.den = some (.ok ts) ∧ int64.Holds ts.sec ∧
        ts.sec * nanosPerSecond + ts.nsec = totalNanos p count) ∧
    (¬ int64.Holds (totalNanos p count / nanosPerSecond) →
      ∃ failure : Failure, fromRatio count p.num p.den = some (.error failure) ∧
        failure.status.code = .outOfRange) := by
  rw [fromRatio_eq p hcount]
  constructor
  · intro hsec
    obtain ⟨ts, hts, hbounds, hsum⟩ := ofNanos_sum hsec
    exact ⟨ts, by rw [hts], hbounds, hsum⟩
  · intro hsec
    obtain ⟨failure, hfailure, hcode⟩ := ofNanos_outOfRange hsec
    exact ⟨failure, by rw [hfailure], hcode⟩

theorem fromRatio_floor_atto :
    ∃ ts : Timestamp, fromRatio int64Min atto.num atto.den = some (.ok ts) ∧
      int64.Holds ts.sec ∧ ts.sec * nanosPerSecond + ts.nsec = -9223372037 :=
  (fromRatio_floor atto (by decide)).1 (by decide)

end SpannerClient.Timestamp
