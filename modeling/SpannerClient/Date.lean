import SpannerClient.Timestamp
import Mathlib.Algebra.Group.Nat.Defs

namespace SpannerClient

def toInt64 (n : Int) : Int := n.bmod (2 ^ 64)

def toInt32 (n : Int) : Int := n.bmod (2 ^ 32)

theorem toInt64_of_mem {n : Int} (h : int64Min ≤ n ∧ n ≤ int64Max) : toInt64 n = n := by
  simp only [int64Min, int64Max] at h
  rw [toInt64, Int.bmod_eq_of_le] <;> omega

theorem toInt32_of_mem {n : Int} (h : -2147483648 ≤ n ∧ n ≤ 2147483647) : toInt32 n = n := by
  rw [toInt32, Int.bmod_eq_of_le] <;> omega

theorem toInt64_mem (n : Int) : int64Min ≤ toInt64 n ∧ toInt64 n ≤ int64Max := by
  have hle := @Int.le_bmod n (2 ^ 64) (by decide)
  have hlt := @Int.bmod_lt n (2 ^ 64) (by decide)
  simp only [int64Min, int64Max, toInt64]
  omega

def isLeapYear (y : Int) : Bool := y.tmod 4 = 0 ∧ (y.tmod 100 ≠ 0 ∨ y.tmod 400 = 0)

def kDaysPerMonth (m : Int) : Int :=
  if m = 2 then 28 else if m = 4 ∨ m = 6 ∨ m = 9 ∨ m = 11 then 30 else 31

def daysPerMonth (y m : Int) : Int :=
  kDaysPerMonth m + if m = 2 ∧ isLeapYear y then 1 else 0

theorem daysPerMonth_pos (y m : Int) : 0 < daysPerMonth y m := by
  rw [daysPerMonth, kDaysPerMonth]
  split_ifs <;> decide

theorem daysPerMonth_le (y m : Int) : daysPerMonth y m ≤ 31 := by
  rw [daysPerMonth, kDaysPerMonth]
  split_ifs <;> omega

structure Date where
  year : Int
  month : Int
  day : Int
  year_mem : int64Min ≤ year ∧ year ≤ int64Max
  month_mem : 1 ≤ month ∧ month ≤ 12
  day_mem : 1 ≤ day ∧ day ≤ daysPerMonth year month
  deriving DecidableEq

namespace Date

def carryDays (year month day : Int) (hy : int64Min ≤ year ∧ year ≤ int64Max)
    (hm : 1 ≤ month ∧ month ≤ 12) (hd : 1 ≤ day) : Date :=
  if h : day ≤ daysPerMonth year month then ⟨year, month, day, hy, hm, hd, h⟩
  else if hmonth : 12 < month + 1 then
    carryDays (toInt64 (year + 1)) 1 (day - daysPerMonth year month) (toInt64_mem _) (by decide)
      (by omega)
  else
    carryDays year (month + 1) (day - daysPerMonth year month) hy (by omega) (by omega)
termination_by day.toNat
decreasing_by
  all_goals
    have hpos := daysPerMonth_pos year month
    omega

/-- `n %= k`, with `k` added again unless the result is positive. -/
def reduce (n k : Int) : Int := if n.tmod k ≤ 0 then n.tmod k + k else n.tmod k

theorem reduce_mem (n : Int) {k : Int} (h : 0 < k) : 1 ≤ reduce n k ∧ reduce n k ≤ k := by
  have hlt := Int.tmod_lt_of_pos n h
  have hgt := Int.lt_tmod_of_pos n h
  rw [reduce]
  split <;> omega

theorem reduce_of_mem {n k : Int} (h : 1 ≤ n ∧ n ≤ k) : reduce n k = n := by
  by_cases hlast : n = k
  · simp [reduce, hlast]
  · rw [reduce, Int.tmod_eq_of_lt (by omega) (by omega), if_neg (by omega)]

def ofFields (year month day : Int) : Date :=
  let year := toInt64 (year + month.tdiv 12)
  let year := if month.tmod 12 ≤ 0 then toInt64 (year - 1) else year
  let year := toInt64 (year + day.tdiv 146097 * 400)
  let year := toInt64 (if day.tmod 146097 ≤ 0 then year - 400 else year)
  carryDays year (reduce month 12) (reduce day 146097) (toInt64_mem _)
    (reduce_mem month (by decide)) (reduce_mem day (by decide)).1

def epoch : Date := ofFields 1970 1 1

theorem toInt64_succ_pred (d : Date) : toInt64 (toInt64 (d.year + 1) - 1) = d.year := by
  rw [toInt64, toInt64, Int.bmod_sub_bmod, Int.add_sub_cancel]
  exact toInt64_of_mem d.year_mem

theorem carryMonth_self (d : Date) :
    (if d.month.tmod 12 ≤ 0 then toInt64 (toInt64 (d.year + d.month.tdiv 12) - 1)
      else toInt64 (d.year + d.month.tdiv 12)) = d.year := by
  have hmonth := d.month_mem
  by_cases hlast : d.month = 12
  · rw [hlast, if_pos (by decide)]
    exact d.toInt64_succ_pred
  · rw [Int.tmod_eq_of_lt (by omega) (by omega), if_neg (by omega),
      Int.tdiv_eq_zero_of_lt (by omega) (by omega), Int.add_zero, toInt64_of_mem d.year_mem]

theorem ofFields_self (d : Date) : ofFields d.year d.month d.day = d := by
  have hday := d.day_mem
  have hle := daysPerMonth_le d.year d.month
  have hquot : d.day.tdiv 146097 = 0 := Int.tdiv_eq_zero_of_lt (by omega) (by omega)
  have hrem : d.day.tmod 146097 = d.day := Int.tmod_eq_of_lt (by omega) (by omega)
  have hyear := toInt64_of_mem d.year_mem
  simp only [ofFields, d.carryMonth_self, hquot, hrem, Int.zero_mul, Int.add_zero, hyear,
    if_neg (show ¬ d.day ≤ 0 by omega), reduce_of_mem d.month_mem,
    reduce_of_mem (n := d.day) (k := 146097) (by omega)]
  rw [carryDays, dif_pos hday.2]

end Date

end SpannerClient
