import Mathlib.Algebra.Ring.Nat
import Mathlib.Data.List.Basic

/-! Numbers as words of bits, the most significant bit first. -/

namespace SpannerClient.Bits

def word : Nat → Nat → List Bool
  | 0, _ => []
  | k + 1, n => n.testBit k :: word k n

def words (k : Nat) (ns : List Nat) : List Bool := ns.flatMap (word k)

@[simp] theorem length_word (k n : Nat) : (word k n).length = k := by
  induction k with
  | zero => rfl
  | succ k ih => simp [word, ih]

theorem word_append (j k n : Nat) : word (j + k) n = word j (n / 2 ^ k) ++ word k n := by
  induction j with
  | zero => simp [word]
  | succ j ih => simp [Nat.succ_add, word, ih, Nat.testBit_div_two_pow]

theorem word_mod {j k : Nat} (h : k ≤ j) (n : Nat) : word k (n % 2 ^ j) = word k n := by
  induction k with
  | zero => rfl
  | succ k ih =>
    have hk : k < j := h
    simp [word, ih (Nat.le_of_lt hk), hk]

@[simp] theorem word_zero (k : Nat) : word k 0 = List.replicate k false := by
  induction k with
  | zero => rfl
  | succ k ih => simp [word, ih, List.replicate_succ]

theorem word_inj {k a b : Nat} (ha : a < 2 ^ k) (hb : b < 2 ^ k) (h : word k a = word k b) :
    a = b := by
  have hlow : ∀ j ≤ k, word j a = word j b → ∀ i < j, a.testBit i = b.testBit i := by
    intro j hj hword
    induction j with
    | zero => simp
    | succ j ih =>
      obtain ⟨htop, hrest⟩ := List.cons.inj hword
      intro i hi
      by_cases hij : i = j
      · rwa [hij]
      · exact ih (Nat.le_of_succ_le hj) hrest i (by omega)
  apply Nat.eq_of_testBit_eq
  intro i
  by_cases hi : i < k
  · exact hlow k (Nat.le_refl k) h i hi
  · have hle : 2 ^ k ≤ 2 ^ i := Nat.pow_le_pow_right (by decide) (by omega)
    rw [Nat.testBit_lt_two_pow (by omega), Nat.testBit_lt_two_pow (by omega)]

@[simp] theorem words_nil (k : Nat) : words k [] = [] := rfl

@[simp] theorem words_cons (k n : Nat) (ns : List Nat) :
    words k (n :: ns) = word k n ++ words k ns := rfl

@[simp] theorem length_words (k : Nat) (ns : List Nat) : (words k ns).length = k * ns.length := by
  induction ns with
  | nil => rfl
  | cons n ns ih => simp [ih, Nat.mul_add, Nat.add_comm]

theorem words_append (k : Nat) (ms ns : List Nat) :
    words k (ms ++ ns) = words k ms ++ words k ns := List.flatMap_append

@[simp] theorem words_replicate_zero (k m : Nat) :
    words k (List.replicate m 0) = List.replicate (k * m) false := by
  induction m with
  | zero => rfl
  | succ m ih =>
    rw [List.replicate_succ, words_cons, word_zero, ih, List.replicate_append_replicate,
      Nat.mul_succ, Nat.add_comm]

theorem words_inj {k : Nat} (hk : 0 < k) {ms ns : List Nat} (hms : ∀ m ∈ ms, m < 2 ^ k)
    (hns : ∀ n ∈ ns, n < 2 ^ k) (h : words k ms = words k ns) : ms = ns := by
  have hlength : ms.length = ns.length := by
    have hbits := congrArg List.length h
    rw [length_words, length_words] at hbits
    exact Nat.eq_of_mul_eq_mul_left hk hbits
  induction ms generalizing ns with
  | nil => exact (List.length_eq_zero_iff.mp hlength.symm).symm
  | cons m ms ih =>
    cases ns with
    | nil => cases hlength
    | cons n ns =>
      obtain ⟨hword, hrest⟩ := List.append_inj h (by simp)
      rw [word_inj (hms m (by simp)) (hns n (by simp)) hword,
        ih (fun x hx => hms x (List.mem_cons_of_mem _ hx))
          (fun x hx => hns x (List.mem_cons_of_mem _ hx)) hrest (Nat.succ.inj hlength)]

end SpannerClient.Bits
