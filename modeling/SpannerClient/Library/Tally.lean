import Mathlib.Algebra.BigOperators.Group.Finset.Basic
import Mathlib.Algebra.BigOperators.Pi
import Mathlib.Algebra.Order.BigOperators.Group.Finset
import Mathlib.Data.Fintype.BigOperators
import Mathlib.Algebra.Order.Group.Int
import Mathlib.Tactic.Ring

/-! What all threads contribute to an integer. -/

namespace SpannerClient

variable {ι κ : Type} [Fintype ι] {f : κ → ℤ}

def tally (f : κ → ℤ) (pc : ι → κ) : ℤ := ∑ v, f (pc v)

theorem tally_congr {pc pc' : ι → κ} (h : ∀ v, f (pc' v) = f (pc v)) :
    tally f pc' = tally f pc :=
  Finset.sum_congr rfl fun v _ => h v

theorem tally_eq_zero {pc : ι → κ} (h : ∀ v, f (pc v) = 0) : tally f pc = 0 :=
  Finset.sum_eq_zero fun v _ => h v

theorem tally_nonneg (h : ∀ k, 0 ≤ f k) (pc : ι → κ) : 0 ≤ tally f pc :=
  Finset.sum_nonneg fun v _ => h (pc v)

theorem le_tally (h : ∀ k, 0 ≤ f k) (pc : ι → κ) (v : ι) : f (pc v) ≤ tally f pc :=
  Finset.single_le_sum (f := fun w => f (pc w)) (fun w _ => h (pc w)) (Finset.mem_univ v)

theorem tally_update [DecidableEq ι] (f : κ → ℤ) (pc : ι → κ) (v : ι) (k : κ) :
    tally f (Function.update pc v k) = tally f pc - f (pc v) + f k := by
  have hsplit : ∀ pc : ι → κ, tally f pc = f (pc v) + ∑ w ∈ Finset.univ.erase v, f (pc w) :=
    fun pc => (Finset.add_sum_erase _ (fun w => f (pc w)) (Finset.mem_univ v)).symm
  rw [hsplit, hsplit pc, Function.update_self]
  have hrest : ∑ w ∈ Finset.univ.erase v, f (Function.update pc v k w) =
      ∑ w ∈ Finset.univ.erase v, f (pc w) := by
    apply Finset.sum_congr rfl
    intro w hw
    rw [Function.update_of_ne (Finset.ne_of_mem_erase hw)]
  rw [hrest]
  ring

end SpannerClient
