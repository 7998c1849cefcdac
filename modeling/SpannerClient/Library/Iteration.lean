import Mathlib.Data.List.Basic

/-! Iteration over a sequence that ends, or fails, at a place that is only known when it is
reached. -/

namespace SpannerClient.Iteration

variable {σ α β ε : Type}

inductive Visits (current : σ → Option β) (next : σ → Option σ) (first : σ) : List β → σ → Prop
  | start : Visits current next first [] first
  | advance {visited : List β} {s s' : σ} {b : β} :
    Visits current next first visited s → current s = some b → next s = some s' →
      Visits current next first (visited ++ [b]) s'

def Elements (position : Nat → Option (Except ε α) → Prop) (visited : List α) : Prop :=
  ∀ n a, visited[n]? = some a → position n (some (.ok a))

inductive Delivers (position : Nat → Option (Except ε α) → Prop) :
    List (Except ε α) → Option (Except ε α) → (read : Nat) → Prop
  | element {visited : List α} {b : Option (Except ε α)} :
    Elements position visited → position visited.length b →
      Delivers position (visited.map .ok) b (visited.length + 1)
  | error {visited : List α} {e : ε} :
    Elements position visited → position visited.length (some (.error e)) →
      Delivers position (visited.map .ok ++ [.error e]) none (visited.length + 1)

variable {position : Nat → Option (Except ε α) → Prop}

theorem elements_nil : Elements position [] := nofun

theorem Elements.concat {visited : List α} {a : α} (h : Elements position visited)
    (ha : position visited.length (some (.ok a))) : Elements position (visited ++ [a]) := by
  intro n b hb
  rcases Nat.lt_trichotomy n visited.length with hlt | rfl | hgt
  · rw [List.getElem?_append_left hlt] at hb
    exact h n b hb
  · rw [List.getElem?_concat_length] at hb
    cases hb
    exact ha
  · rw [List.getElem?_eq_none (by simp; omega)] at hb
    cases hb

variable {current : σ → Option (Except ε α)} {next : σ → Option σ} {read : σ → Nat}

structure Follows (position : Nat → Option (Except ε α) → Prop)
    (current : σ → Option (Except ε α)) (next : σ → Option σ) (read : σ → Nat)
    (P : Nat → σ → Prop) : Prop where
  place {n : Nat} {s : σ} : P n s → position n (current s)
  count {n : Nat} {s : σ} : P n s → read s = n + 1
  ok {n : Nat} {s s' : σ} {a : α} :
    P n s → current s = some (.ok a) → next s = some s' → P (n + 1) s'
  error {n : Nat} {s s' : σ} {e : ε} :
    P n s → current s = some (.error e) → next s = some s' → current s' = none ∧ read s' = read s

variable {P : Nat → σ → Prop} {first s : σ} {visited : List (Except ε α)}

theorem Follows.visits (hP : Follows position current next read P) (hfirst : P 0 first)
    (h : Visits current next first visited s) :
    (∃ elements : List α, visited = elements.map .ok ∧ P elements.length s ∧
        Elements position elements) ∨
      current s = none ∧ Delivers position visited none (read s) := by
  induction h with
  | start => exact .inl ⟨[], rfl, hfirst, elements_nil⟩
  | @advance visited s s' b _ hcurrent hnext ih =>
    rcases ih with ⟨elements, rfl, hs, helements⟩ | ⟨hnone, -⟩
    · have hplace := hP.place hs
      rw [hcurrent] at hplace
      cases b with
      | ok a =>
        refine .inl ⟨elements ++ [a], by simp, ?_, helements.concat hplace⟩
        rw [List.length_append, List.length_singleton]
        exact hP.ok hs hcurrent hnext
      | error e =>
        obtain ⟨hend, hsame⟩ := hP.error hs hcurrent hnext
        rw [hsame, hP.count hs]
        exact .inr ⟨hend, .error helements hplace⟩
    · rw [hnone] at hcurrent
      cases hcurrent

theorem Follows.delivers (hP : Follows position current next read P) (hfirst : P 0 first)
    (h : Visits current next first visited s) : Delivers position visited (current s) (read s) := by
  rcases hP.visits hfirst h with ⟨elements, rfl, hs, helements⟩ | ⟨hnone, hdelivers⟩
  · rw [hP.count hs]
    exact .element helements (hP.place hs)
  · rw [hnone]
    exact hdelivers

theorem Follows.on_place (hP : Follows position current next read P) (hfirst : P 0 first)
    (h : Visits current next first visited s) (hcurrent : current s ≠ none) : ∃ n, P n s := by
  rcases hP.visits hfirst h with ⟨elements, -, hs, -⟩ | ⟨hnone, -⟩
  · exact ⟨_, hs⟩
  · exact absurd hnone hcurrent

theorem Follows.reaches (hP : Follows position current next read P)
    (hposition : ∀ n b b', position n b → position n b' → b = b')
    (hnext : ∀ n s a b, P n s → current s = some (.ok a) → position (n + 1) b →
      ∃ s', next s = some s')
    (hfirst : P 0 first) {elements : List α} (helements : Elements position elements)
    (hend : position elements.length none) :
    ∃ s, Visits current next first (elements.map .ok) s ∧ current s = none ∧
      read s = elements.length + 1 := by
  have hplace : ∀ n ≤ elements.length, position n (elements[n]?.map .ok) := by
    intro n hn
    cases ha : elements[n]? with
    | none =>
      rw [List.getElem?_eq_none_iff] at ha
      exact Nat.le_antisymm hn ha ▸ hend
    | some a => exact helements n a ha
  have hreach : ∀ n ≤ elements.length,
      ∃ s, Visits current next first ((elements.take n).map .ok) s ∧ P n s := by
    intro n
    induction n with
    | zero => exact fun _ => ⟨first, .start, hfirst⟩
    | succ n ih =>
      intro hn
      obtain ⟨s, hvisits, hs⟩ := ih (by omega)
      have hcurrent := hposition n _ _ (hP.place hs) (hplace n (by omega))
      rw [List.getElem?_eq_getElem hn, Option.map_some] at hcurrent
      obtain ⟨s', hs'⟩ := hnext n s _ _ hs hcurrent (hplace (n + 1) hn)
      refine ⟨s', ?_, hP.ok hs hcurrent hs'⟩
      rw [List.take_succ_eq_append_getElem hn, List.map_append]
      exact .advance hvisits hcurrent hs'
  obtain ⟨s, hvisits, hs⟩ := hreach elements.length (Nat.le_refl _)
  rw [List.take_length] at hvisits
  exact ⟨s, hvisits, hposition _ _ _ (hP.place hs) hend, hP.count hs⟩

end SpannerClient.Iteration
