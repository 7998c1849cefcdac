import SpannerClient.Internal.PartialResultSetSource
import Mathlib.Algebra.GroupWithZero.Nat

namespace SpannerClient.Assembly

open Protobuf MergeChunk PartialResultSetSource

/-- From a pending chunk, the responses complete the values `vs` and leave a pending chunk. -/
inductive Assembles :
    Option Protobuf.Value → List PartialResultSet → List Protobuf.Value →
      Option Protobuf.Value → Prop
  | nil {c : Option Protobuf.Value} : Assembles c [] [] c
  | cons {c c' c'' : Option Protobuf.Value} {r : PartialResultSet} {rs : List PartialResultSet}
      {vs ws : List Protobuf.Value} :
    unchunk c r = .ok (vs, c') → Assembles c' rs ws c'' → Assembles c (r :: rs) (vs ++ ws) c''

theorem unchunk_merge {chunk v w : Protobuf.Value} {vs : List Protobuf.Value}
    {r : PartialResultSet} (hr : r.values = v :: vs) (h : mergeChunk chunk v = .ok w) :
    unchunk (some chunk) r = splitChunk r.chunkedValue (w :: vs) := by
  rw [unchunk, hr, mergePending, h]
  rfl

theorem splitChunk_cut (whole : List Protobuf.Value) (p : Protobuf.Value) :
    splitChunk true (whole ++ [p]) = .ok (whole, some p) := by
  simp [splitChunk]

/-- The response cannot be used where `c` is pending. -/
inductive Offends (c : Option Protobuf.Value) (r : PartialResultSet) : Prop
  | noValuesWhilePending : c ≠ none → r.values = [] → Offends c r
  | chunkedWithoutValues : r.chunkedValue = true → r.values = [] → Offends c r
  | rejectedPiece {chunk v : Protobuf.Value} {vs : List Protobuf.Value} {e : Failure} :
    c = some chunk → r.values = v :: vs → mergeChunk chunk v = .error e → Offends c r

theorem splitChunk_length {chunked : Bool} {newValues vs : List Protobuf.Value}
    {c : Option Protobuf.Value} (h : splitChunk chunked newValues = .ok (vs, c)) :
    vs.length + (if chunked then 1 else 0) = newValues.length ∧ c.isSome = chunked := by
  cases chunked with
  | false =>
    cases h
    simp
  | true =>
    rw [splitChunk, if_pos rfl] at h
    cases hlast : newValues.getLast? with
    | none =>
      rw [hlast] at h
      cases h
    | some last =>
      rw [hlast] at h
      cases h
      obtain ⟨whole, rfl⟩ := List.getLast?_eq_some_iff.mp hlast
      simp

theorem mergePending_length {c : Option Protobuf.Value} {newValues ws : List Protobuf.Value}
    (h : mergePending c newValues = .ok ws) : ws.length = newValues.length := by
  cases c with
  | none =>
    cases h
    rfl
  | some chunk =>
    cases newValues with
    | nil => cases h
    | cons front rest =>
      obtain ⟨w, -, hw⟩ := except_bind_eq_ok.mp h
      cases hw
      rfl

theorem unchunk_length {c c' : Option Protobuf.Value} {r : PartialResultSet}
    {vs : List Protobuf.Value} (h : unchunk c r = .ok (vs, c')) :
    vs.length + (if r.chunkedValue then 1 else 0) = r.values.length ∧
      c'.isSome = r.chunkedValue := by
  obtain ⟨newValues, hmerge, hsplit⟩ := except_bind_eq_ok.mp h
  rw [← mergePending_length hmerge]
  exact splitChunk_length hsplit

theorem offends_iff (c : Option Protobuf.Value) (r : PartialResultSet) :
    Offends c r ↔ ∃ e, unchunk c r = .error e := by
  constructor
  · intro h
    cases h with
    | noValuesWhilePending hc hvalues =>
      cases c with
      | none => exact absurd rfl hc
      | some chunk => exact ⟨_, by rw [unchunk, hvalues]; rfl⟩
    | chunkedWithoutValues hr hvalues =>
      cases c with
      | none => exact ⟨_, by rw [unchunk, hvalues, hr]; rfl⟩
      | some chunk => exact ⟨_, by rw [unchunk, hvalues]; rfl⟩
    | @rejectedPiece chunk v vs e hc hvalues hmerge =>
      exact ⟨e, by rw [unchunk, hc, hvalues, mergePending, hmerge]; rfl⟩
  · rintro ⟨e, he⟩
    cases hvalues : r.values with
    | nil =>
      cases hr : r.chunkedValue with
      | true => exact .chunkedWithoutValues hr hvalues
      | false =>
        apply Offends.noValuesWhilePending _ hvalues
        rintro rfl
        rw [unchunk, hvalues, hr] at he
        cases he
    | cons v vs =>
      have hsplit : ∀ w, ∃ p, splitChunk r.chunkedValue (w :: vs) = .ok p := by
        intro w
        cases r.chunkedValue with
        | true => exact ⟨((w :: vs).dropLast, some ((w :: vs).getLast (by simp))), by
            simp [splitChunk, List.getLast?_eq_some_getLast]⟩
        | false => exact ⟨(w :: vs, none), rfl⟩
      cases c with
      | none =>
        obtain ⟨p, hp⟩ := hsplit v
        rw [unchunk, hvalues, mergePending] at he
        exact absurd (hp.symm.trans he) nofun
      | some chunk =>
        cases hmerge : mergeChunk chunk v with
        | error e' => exact .rejectedPiece rfl hvalues hmerge
        | ok w =>
          obtain ⟨p, hp⟩ := hsplit w
          rw [unchunk_merge hvalues hmerge, hp] at he
          cases he

theorem Assembles.unique {c c₁ c₂ : Option Protobuf.Value} {rs : List PartialResultSet}
    {vs ws : List Protobuf.Value} (h : Assembles c rs vs c₁) (h' : Assembles c rs ws c₂) :
    vs = ws ∧ c₁ = c₂ := by
  induction h generalizing ws with
  | nil =>
    cases h'
    exact ⟨rfl, rfl⟩
  | cons hr _ ih =>
    cases h' with
    | cons hr' hrest' =>
      rw [hr] at hr'
      cases hr'
      obtain ⟨rfl, rfl⟩ := ih hrest'
      exact ⟨rfl, rfl⟩

theorem Assembles.split {c c' : Option Protobuf.Value} {pre post : List PartialResultSet}
    {vs : List Protobuf.Value} (h : Assembles c (pre ++ post) vs c') :
    ∃ c₁ ws us, Assembles c pre ws c₁ ∧ Assembles c₁ post us c' ∧ vs = ws ++ us := by
  induction pre generalizing c vs with
  | nil => exact ⟨c, [], vs, .nil, h, rfl⟩
  | cons r pre ih =>
    cases h with
    | @cons _ _ _ _ _ ws _ hr hrest =>
      obtain ⟨c₁, us, us', hpre, hpost, rfl⟩ := ih hrest
      exact ⟨c₁, ws ++ us, us', .cons hr hpre, hpost, (List.append_assoc ws us us').symm⟩

theorem Assembles.append {c c₁ c' : Option Protobuf.Value} {pre post : List PartialResultSet}
    {ws us : List Protobuf.Value} (hpre : Assembles c pre ws c₁)
    (hpost : Assembles c₁ post us c') : Assembles c (pre ++ post) (ws ++ us) c' := by
  induction hpre with
  | nil => exact hpost
  | cons hr _ ih =>
    rw [List.append_assoc]
    exact .cons hr (ih hpost)

theorem Assembles.length {c c' : Option Protobuf.Value} {rs : List PartialResultSet}
    {vs : List Protobuf.Value} (h : Assembles c rs vs c') :
    vs.length + rs.countP (fun r => r.chunkedValue) = (rs.map fun r => r.values.length).sum := by
  induction h with
  | nil => rfl
  | cons hr _ ih =>
    have hlen := (unchunk_length hr).1
    rw [List.length_append, List.countP_cons, List.map_cons, List.sum_cons, ← ih, ← hlen]
    omega

theorem Assembles.not_offends {c c' : Option Protobuf.Value} {pre post : List PartialResultSet}
    {r : PartialResultSet} {vs : List Protobuf.Value}
    (h : Assembles c (pre ++ r :: post) vs c') :
    ∃ c₁ c₂ ws us, Assembles c pre ws c₁ ∧ ¬ Offends c₁ r ∧ c₂.isSome = r.chunkedValue ∧
      Assembles c₂ post us c' := by
  obtain ⟨c₁, ws, us, hpre, hpost, -⟩ := Assembles.split h
  cases hpost with
  | @cons _ c₂ _ _ _ _ us hr hpost =>
    refine ⟨c₁, c₂, ws, us, hpre, ?_, (unchunk_length hr).2, hpost⟩
    intro hoff
    obtain ⟨e, he⟩ := (offends_iff c₁ r).mp hoff
    rw [hr] at he
    cases he

end SpannerClient.Assembly
