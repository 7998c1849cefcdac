import SpannerClient.Library.Truncation

/-! Signed integers of a machine whose operations have no result when it is out of range. -/

namespace SpannerClient

structure NumericLimits where
  min : Int
  max : Int
  zero_mem : min ≤ 0 ∧ 0 ≤ max

namespace NumericLimits

variable (t : NumericLimits)

def Holds (n : Int) : Prop := t.min ≤ n ∧ n ≤ t.max

instance (n : Int) : Decidable (t.Holds n) := inferInstanceAs (Decidable (_ ∧ _))

def ofInt (n : Int) : Option Int := if t.Holds n then some n else none

def add (a b : Int) : Option Int := t.ofInt (a + b)

def sub (a b : Int) : Option Int := t.ofInt (a - b)

def mul (a b : Int) : Option Int := t.ofInt (a * b)

def div (a b : Int) : Option Int := if b = 0 then none else t.ofInt (a.tdiv b)

def mod (a b : Int) : Option Int := (t.div a b).map fun _ => a.tmod b

variable {t} {a b c : Int}

theorem holds_zero : t.Holds 0 := t.zero_mem

theorem ofInt_eq (h : t.Holds a) : t.ofInt a = some a := if_pos h

theorem add_eq (h : t.Holds (a + b)) : t.add a b = some (a + b) := ofInt_eq h

theorem add_eq_none (h : ¬ t.Holds (a + b)) : t.add a b = none := if_neg h

theorem sub_eq (h : t.Holds (a - b)) : t.sub a b = some (a - b) := ofInt_eq h

theorem sub_eq_of_eq (hc : a - b = c) (h : t.Holds c) : t.sub a b = some c := by
  rw [sub, hc, ofInt_eq h]

theorem mul_eq (h : t.Holds (a * b)) : t.mul a b = some (a * b) := ofInt_eq h

theorem Holds.of_between (h : t.Holds a) (hb : 0 ≤ b ∧ b ≤ a ∨ a ≤ b ∧ b ≤ 0) : t.Holds b := by
  have hzero := t.zero_mem
  obtain ⟨hmin, hmax⟩ := h
  obtain hb | hb := hb <;> constructor <;> omega

theorem tdiv_between (hb : 0 < b) :
    0 ≤ a.tdiv b ∧ a.tdiv b ≤ a ∨ a ≤ a.tdiv b ∧ a.tdiv b ≤ 0 := by
  by_cases ha : 0 ≤ a
  · left
    rw [Int.tdiv_eq_ediv_of_nonneg ha]
    exact ⟨Int.ediv_nonneg ha hb.le, Int.ediv_le_self b ha⟩
  · right
    have hneg := Truncation.tdiv_of_neg (k := b) (show a < 0 by omega)
    have hnonneg := Int.ediv_nonneg (show 0 ≤ -a by omega) hb.le
    have hle := Int.ediv_le_self b (show 0 ≤ -a by omega)
    omega

theorem Holds.tdiv (h : t.Holds a) (hb : 0 < b) : t.Holds (a.tdiv b) :=
  h.of_between (tdiv_between hb)

theorem Holds.ediv (h : t.Holds a) (hb : 0 < b) : t.Holds (a / b) := by
  apply h.of_between
  by_cases ha : 0 ≤ a
  · exact .inl ⟨Int.ediv_nonneg ha hb.le, Int.ediv_le_self b ha⟩
  · have hmul : a * b ≤ a := by nlinarith
    exact .inr ⟨(Int.le_ediv_iff_mul_le hb).mpr hmul,
      (Int.ediv_neg_of_neg_of_pos (Int.not_le.mp ha) hb).le⟩

theorem Holds.tdiv_mul (h : t.Holds a) (hb : 0 < b) : t.Holds (a.tdiv b * b) := by
  have hsum := Int.tdiv_mul_add_tmod a b
  apply h.of_between
  by_cases ha : 0 ≤ a
  · have hrest := Int.tmod_nonneg b ha
    have hquot := Int.mul_nonneg (Int.tdiv_nonneg ha hb.le) hb.le
    omega
  · have hrest := Int.tmod_nonneg b (show 0 ≤ -a by omega)
    have hquot := Int.mul_nonneg (Int.tdiv_nonneg (show 0 ≤ -a by omega) hb.le) hb.le
    rw [Int.neg_tmod] at hrest
    rw [Int.neg_tdiv, Int.neg_mul] at hquot
    omega

theorem div_eq (h : t.Holds a) (hb : 0 < b) : t.div a b = some (a.tdiv b) := by
  rw [div, if_neg hb.ne', ofInt_eq (h.tdiv hb)]

theorem mod_eq (h : t.Holds a) (hb : 0 < b) : t.mod a b = some (a.tmod b) := by
  rw [mod, div_eq h hb, Option.map_some]

theorem zero_add_eq (h : t.Holds a) : t.add 0 a = some a := by
  rw [add, Int.zero_add, ofInt_eq h]

theorem sub_zero_eq (h : t.Holds a) : t.sub a 0 = some a := by
  rw [sub, Int.sub_zero, ofInt_eq h]

theorem zero_mul_eq (a : Int) : t.mul 0 a = some 0 := by
  rw [mul, Int.zero_mul, ofInt_eq holds_zero]

theorem zero_div_eq (hb : 0 < b) : t.div 0 b = some 0 := by
  rw [div_eq holds_zero hb, Int.zero_tdiv]

theorem mul_one_eq (h : t.Holds a) : t.mul a 1 = some a := by
  rw [mul, Int.mul_one, ofInt_eq h]

theorem div_one_eq (h : t.Holds a) : t.div a 1 = some a := by
  rw [div_eq h (by decide), Int.tdiv_one]

theorem mul_div_eq (h : t.Holds (a * b)) (hb : 0 < b) : t.div (a * b) b = some a := by
  rw [div_eq h hb, Int.mul_tdiv_cancel _ hb.ne']

theorem max_tdiv_lt (hb : 0 < b) : t.max.tdiv b < a ↔ t.max < a * b := by
  rw [Int.tdiv_eq_ediv_of_nonneg t.zero_mem.2, Int.ediv_lt_iff_lt_mul hb]

theorem lt_min_tdiv (hb : 0 < b) : a < t.min.tdiv b ↔ a * b < t.min := by
  have hmin := t.zero_mem.1
  have hneg : t.min.tdiv b = -(-t.min / b) := by
    rw [← Int.tdiv_eq_ediv_of_nonneg (by omega), Int.neg_tdiv, Int.neg_neg]
  have hguard : -t.min / b < -a ↔ -t.min < -a * b := Int.ediv_lt_iff_lt_mul hb
  rw [Int.neg_mul] at hguard
  omega

end NumericLimits

end SpannerClient
