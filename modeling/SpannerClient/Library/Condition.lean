import Mathlib.Logic.Function.Basic

/-! Threads that sleep on one condition variable.  Where a thread stands is a value of `κ`. -/

namespace SpannerClient

theorem update_frame {ι κ α : Type} [DecidableEq ι] {f : κ → α} {pc : ι → κ} {v : ι} {k : κ}
    (h : f k = f (pc v)) (w : ι) : f (Function.update pc v k w) = f (pc w) := by
  by_cases hw : w = v
  · rw [hw, Function.update_self, h]
  · rw [Function.update_of_ne hw]

theorem update_frame_trans {ι κ α : Type} [DecidableEq ι] {f : κ → α} {pc pc' : ι → κ} {v : ι}
    {k : κ} (hpc : ∀ w, f (pc' w) = f (pc w)) (h : f k = f (pc v)) (w : ι) :
    f (Function.update pc' v k w) = f (pc w) :=
  (update_frame (h.trans (hpc v).symm) w).trans (hpc w)

theorem update_preserves {ι κ : Type} [DecidableEq ι] {f : κ → Bool} {pc : ι → κ} {v : ι} {k : κ}
    (h : f (pc v) = true → f k = true) {w : ι} (hw : f (pc w) = true) :
    f (Function.update pc v k w) = true := by
  by_cases hwv : w = v
  · subst hwv
    rw [Function.update_self]
    exact h hw
  · rwa [Function.update_of_ne hwv]

structure Condition (κ : Type) where
  Asleep : κ → Prop
  wake : κ → κ

namespace Condition

variable {ι κ α : Type} (C : Condition κ) {f : κ → α}

def notifyAll [DecidablePred C.Asleep] (pc : ι → κ) : ι → κ :=
  fun v => if C.Asleep (pc v) then C.wake (pc v) else pc v

theorem notifyAll_frame [DecidablePred C.Asleep] (hf : ∀ k, f (C.wake k) = f k) (pc : ι → κ)
    (w : ι) : f (C.notifyAll pc w) = f (pc w) := by
  rw [notifyAll]
  split
  · exact hf (pc w)
  · rfl

variable [DecidableEq ι]

/-- `notify_one()` wakes one sleeping thread, whichever it is, or none when none sleeps. -/
inductive NotifyOne (pc : ι → κ) : (ι → κ) → Prop
  | lost : (∀ v, ¬ C.Asleep (pc v)) → NotifyOne pc pc
  | wakes (v : ι) : C.Asleep (pc v) → NotifyOne pc (Function.update pc v (C.wake (pc v)))

variable {C}

theorem NotifyOne.frame (hf : ∀ k, f (C.wake k) = f k) {pc pc' : ι → κ} (h : C.NotifyOne pc pc')
    (w : ι) : f (pc' w) = f (pc w) := by
  cases h with
  | lost => rfl
  | wakes v _ => exact update_frame (hf (pc v)) w

end Condition

end SpannerClient
