import Mathlib.Tactic.Linarith

/-! Floored division, computed with a division that truncates towards zero. -/

namespace SpannerClient.Truncation

variable {a k : Int}

theorem tdiv_of_neg (h : a < 0) : a.tdiv k = -(-a / k) := by
  rw [← Int.tdiv_eq_ediv_of_nonneg (by omega), Int.neg_tdiv, Int.neg_neg]

theorem shifted_tdiv (h : 0 < k) : (if 0 ≤ a then a else a - (k - 1)).tdiv k = a / k := by
  split
  case isTrue hpos => exact Int.tdiv_eq_ediv_of_nonneg hpos
  case isFalse hneg =>
    rw [tdiv_of_neg (by omega), eq_comm, Int.ediv_eq_iff_of_pos h]
    have hdiv := Int.mul_ediv_add_emod (-(a - (k - 1))) k
    have hnonneg := Int.emod_nonneg (-(a - (k - 1))) (show k ≠ 0 by omega)
    have hlt := Int.emod_lt_of_pos (-(a - (k - 1))) h
    constructor <;> linarith [Int.mul_comm (-(a - (k - 1)) / k) k,
      Int.neg_mul (-(a - (k - 1)) / k) k]

theorem borrowed_tmod (h : 0 < k) : (if a.tmod k < 0 then a.tmod k + k else a.tmod k) = a % k := by
  have heq : (a.tmod k) % k = a % k := by
    rw [Int.tmod_def, Int.sub_mul_emod_self_left]
  have hgt := Int.lt_tmod_of_pos a h
  have hlt := Int.tmod_lt_of_pos a h
  split
  case isTrue hneg => rw [← heq, ← Int.add_emod_right, Int.emod_eq_of_lt (by omega) (by omega)]
  case isFalse hpos => rw [← heq, Int.emod_eq_of_lt (by omega) hlt]

theorem borrowed_tdiv (h : 0 < k) :
    (if a.tmod k < 0 then a.tdiv k - 1 else a.tdiv k) = a / k := by
  rw [eq_comm, Int.ediv_eq_iff_of_pos h]
  have hdiv := Int.mul_tdiv_add_tmod a k
  have hgt := Int.lt_tmod_of_pos a h
  have hlt := Int.tmod_lt_of_pos a h
  split
  case isTrue hneg =>
    constructor <;> linarith [Int.mul_comm k (a.tdiv k), Int.sub_mul (a.tdiv k) 1 k]
  case isFalse hpos => constructor <;> linarith [Int.mul_comm k (a.tdiv k)]

theorem positive_tdiv (h : 0 < k) :
    (if a.tmod k ≤ 0 then a.tdiv k - 1 else a.tdiv k) = (a - 1) / k := by
  rw [eq_comm, Int.ediv_eq_iff_of_pos h]
  have hdiv := Int.mul_tdiv_add_tmod a k
  have hgt := Int.lt_tmod_of_pos a h
  have hlt := Int.tmod_lt_of_pos a h
  split
  case isTrue hneg =>
    constructor <;> linarith [Int.mul_comm k (a.tdiv k), Int.sub_mul (a.tdiv k) 1 k]
  case isFalse hpos => constructor <;> linarith [Int.mul_comm k (a.tdiv k)]

theorem positive_tmod (h : 0 < k) :
    (if a.tmod k ≤ 0 then a.tmod k + k else a.tmod k) = (a - 1) % k + 1 := by
  have hdiv := positive_tdiv (a := a) h
  have hsum := Int.mul_tdiv_add_tmod a k
  rw [Int.emod_def, ← hdiv]
  split <;> linarith [Int.mul_sub k (a.tdiv k) 1]

end SpannerClient.Truncation
