import Mathlib.Data.Nat.Notation

/-! A loop without a bound is a function of a fuel argument that answers `none` when the fuel
runs out.  Such a function means the value it answers at every large enough amount of fuel. -/

namespace SpannerClient.Fuel

variable {α β : Type}

def Converges (f : Nat → Option α) (a : α) : Prop := ∃ n, ∀ m, n ≤ m → f m = some a

theorem Converges.const (a : α) : Converges (fun _ => some a) a := ⟨0, fun _ _ => rfl⟩

theorem Converges.unique {f : Nat → Option α} {a b : α}
    (ha : Converges f a) (hb : Converges f b) : a = b := by
  obtain ⟨n, hn⟩ := ha
  obtain ⟨k, hk⟩ := hb
  have h := (hn (max n k) (Nat.le_max_left n k)).symm.trans (hk (max n k) (Nat.le_max_right n k))
  exact Option.some.inj h

theorem Converges.of_succ {f g : Nat → Option α} {a : α}
    (h : ∀ n, f (n + 1) = g n) (hg : Converges g a) : Converges f a := by
  obtain ⟨n, hn⟩ := hg
  refine ⟨n + 1, fun m hm => ?_⟩
  cases m with
  | zero => omega
  | succ m => rw [h, hn m (by omega)]

theorem Converges.bind {f : Nat → Option α} {g : α → Nat → Option β} {a : α} {b : β}
    (hf : Converges f a) (hg : Converges (g a) b) :
    Converges (fun n => (f n).bind fun x => g x n) b := by
  obtain ⟨n, hn⟩ := hf
  obtain ⟨k, hk⟩ := hg
  refine ⟨max n k, fun m hm => ?_⟩
  have h := hn m (Nat.le_trans (Nat.le_max_left n k) hm)
  simp only [h, Option.bind_some]
  exact hk m (Nat.le_trans (Nat.le_max_right n k) hm)

theorem Converges.congr {f g : Nat → Option α} {a : α}
    (h : ∀ n, f n = g n) (hg : Converges g a) : Converges f a := by
  rwa [show f = g from funext h]

end SpannerClient.Fuel
