import Mathlib.Data.List.Basic

/-! Cutting a list into blocks of one length, with a rest that is too short for another block. -/

namespace SpannerClient

variable {α : Type}

structure Blocks (n : Nat) (xs : List α) (blocks : List (List α)) (rest : List α) : Prop where
  join : blocks.flatten ++ rest = xs
  each : ∀ b ∈ blocks, b.length = n
  short : rest.length < n

namespace Blocks

variable {n : Nat} {xs ys rest rest' : List α} {blocks blocks' : List (List α)} {b : List α}

theorem nil (h : xs.length < n) : Blocks n xs [] xs := ⟨rfl, nofun, h⟩

theorem cons (hb : b.length = n) (h : Blocks n xs blocks rest) :
    Blocks n (b ++ xs) (b :: blocks) rest where
  join := by simp [← h.join]
  each := by simpa [hb] using h.each
  short := h.short

theorem append (h : Blocks n xs blocks rest) (h' : Blocks n (rest ++ ys) blocks' rest') :
    Blocks n (xs ++ ys) (blocks ++ blocks') rest' where
  join := by
    rw [List.flatten_append, List.append_assoc, h'.join, ← List.append_assoc, h.join]
  each := by
    intro b hb
    rcases List.mem_append.mp hb with hb | hb
    · exact h.each b hb
    · exact h'.each b hb
  short := h'.short

theorem exists_of_pos (hn : 0 < n) (xs : List α) : ∃ blocks rest, Blocks n xs blocks rest := by
  induction hlen : xs.length using Nat.strongRecOn generalizing xs with
  | ind k ih =>
    by_cases h : xs.length < n
    · exact ⟨[], xs, nil h⟩
    · obtain ⟨blocks, rest, hblocks⟩ := ih (xs.drop n).length (by simp; omega) (xs.drop n) rfl
      refine ⟨xs.take n :: blocks, rest, ?_⟩
      have hcons := cons (b := xs.take n) (by simp; omega) hblocks
      rwa [List.take_append_drop] at hcons

theorem length_flatten (h : ∀ b ∈ blocks, b.length = n) :
    blocks.flatten.length = blocks.length * n := by
  induction blocks with
  | nil => simp
  | cons b blocks ih =>
    have hb := h b List.mem_cons_self
    have hrest := ih fun c hc => h c (List.mem_cons_of_mem b hc)
    simp [hb, hrest, Nat.succ_mul, Nat.add_comm]

theorem length_eq (h : Blocks n xs blocks rest) :
    xs.length = blocks.length * n + rest.length := by
  rw [← h.join, List.length_append, length_flatten h.each]

theorem getElem_eq (h : Blocks n xs blocks rest) (i : Nat) (hi : i < blocks.length) :
    blocks[i] = (xs.drop (i * n)).take n := by
  induction blocks generalizing xs i with
  | nil => simp at hi
  | cons b blocks ih =>
    have hb := h.each b List.mem_cons_self
    have htail : Blocks n (blocks.flatten ++ rest) blocks rest :=
      ⟨rfl, fun c hc => h.each c (List.mem_cons_of_mem b hc), h.short⟩
    have hxs : xs = b ++ (blocks.flatten ++ rest) := by
      rw [← h.join, List.flatten_cons, List.append_assoc]
    cases i with
    | zero => simp [hxs, ← hb]
    | succ i =>
      have hi' : i < blocks.length := by simpa using hi
      rw [List.getElem_cons_succ, ih htail i hi', hxs, Nat.succ_mul, Nat.add_comm,
        ← List.drop_drop, ← hb, List.drop_left]

theorem length_blocks_eq_div (h : Blocks n xs blocks rest) : blocks.length = xs.length / n := by
  have hlen := h.length_eq
  have hpos := Nat.zero_lt_of_lt h.short
  rw [hlen, Nat.add_comm, Nat.add_mul_div_right _ _ hpos, Nat.div_eq_of_lt h.short, Nat.zero_add]

theorem rest_eq_drop (h : Blocks n xs blocks rest) : rest = xs.drop (xs.length / n * n) := by
  rw [← h.length_blocks_eq_div, ← length_flatten h.each, ← h.join, List.drop_left]

end Blocks

end SpannerClient
