import SpannerClient.Internal.MergeChunk

namespace SpannerClient.MergeChunk

open Protobuf

def seam (left : List Protobuf.Value) : List Protobuf.Value :=
  match left.getLast? with
  | some (.stringValue _) => [.stringValue ""]
  | some (.listValue _) => [.listValue []]
  | _ => []

/-- A value is cut into a left and a right part. -/
inductive Splits : Protobuf.Value → Protobuf.Value → Protobuf.Value → Prop
  | string (s t : String) : Splits (.stringValue (s ++ t)) (.stringValue s) (.stringValue t)
  | between (left right : List Protobuf.Value) :
    Splits (.listValue (left ++ right)) (.listValue left) (.listValue (seam left ++ right))
  | inside {v a b : Protobuf.Value} (left right : List Protobuf.Value) : Splits v a b →
    Splits (.listValue (left ++ v :: right)) (.listValue (left ++ [a])) (.listValue (b :: right))
  | emptyLeft (values : List Protobuf.Value) :
    Splits (.listValue values) (.listValue []) (.listValue values)
  | emptyRight (values : List Protobuf.Value) :
    Splits (.listValue values) (.listValue values) (.listValue [])

inductive Shatters : Protobuf.Value → List Protobuf.Value → Prop
  | whole (v : Protobuf.Value) : Shatters v [v]
  | cut {v a b : Protobuf.Value} {ps qs : List Protobuf.Value} : Splits v a b → Shatters a ps →
    Shatters b qs → Shatters v (ps ++ qs)

theorem Splits.isMergeable {v a b : Protobuf.Value} (h : Splits v a b) : isMergeable a = true := by
  cases h <;> rfl

theorem mergeLists_append {last : Protobuf.Value} {chunkList merged : List Protobuf.Value}
    (h : mergeLists [last] chunkList = .ok merged) (left : List Protobuf.Value) :
    mergeLists (left ++ [last]) chunkList = .ok (left ++ merged) := by
  induction left with
  | nil => exact h
  | cons v left ih =>
    cases left with
    | nil =>
      rw [List.nil_append] at ih
      simp only [List.cons_append, List.nil_append, mergeLists, ih]
      rfl
    | cons w left =>
      simp only [List.cons_append] at ih ⊢
      rw [mergeLists, ih]
      rfl

theorem mergeLists_nil_right (values : List Protobuf.Value) :
    mergeLists values [] = .ok values := by
  rcases List.eq_nil_or_concat values with rfl | ⟨left, last, rfl⟩
  · rfl
  · rw [List.concat_eq_append]
    exact mergeLists_append rfl left

theorem mergeLists_inside {v a b : Protobuf.Value} (ha : isMergeable a = true)
    (h : mergeChunk a b = .ok v) (left right : List Protobuf.Value) :
    mergeLists (left ++ [a]) (b :: right) = .ok (left ++ v :: right) := by
  apply mergeLists_append
  rw [mergeLists, if_pos ha, h]
  rfl

theorem mergeLists_seam (left right : List Protobuf.Value) :
    mergeLists left (seam left ++ right) = .ok (left ++ right) := by
  rcases List.eq_nil_or_concat left with rfl | ⟨left, last, rfl⟩
  · rfl
  · rw [List.concat_eq_append, List.append_assoc, List.singleton_append]
    cases last with
    | stringValue s =>
      have hmerge : mergeChunk (.stringValue s) (.stringValue "") = .ok (.stringValue s) := by
        rw [mergeChunk, String.append_empty]
      simpa [seam] using mergeLists_inside rfl hmerge left right
    | listValue values =>
      have hmerge : mergeChunk (.listValue values) (.listValue []) = .ok (.listValue values) := by
        rw [mergeChunk, mergeLists_nil_right]
        rfl
      simpa [seam] using mergeLists_inside rfl hmerge left right
    | kindNotSet | nullValue | numberValue _ | boolValue _ | structValue _ =>
      simp only [seam, List.getLast?_append, List.getLast?_singleton, Option.some_or,
        List.nil_append]
      cases right with
      | nil => exact mergeLists_nil_right _
      | cons c right => exact mergeLists_append rfl left

theorem Splits.merges {v a b : Protobuf.Value} (h : Splits v a b) : mergeChunk a b = .ok v := by
  induction h with
  | string s t => rfl
  | between left right =>
    rw [mergeChunk, mergeLists_seam]
    rfl
  | inside left right h ih =>
    rw [mergeChunk, mergeLists_inside h.isMergeable ih]
    rfl
  | emptyLeft values => rfl
  | emptyRight values =>
    rw [mergeChunk, mergeLists_nil_right]
    rfl

theorem mergePieces_append {p q a b v : Protobuf.Value} {ps qs : List Protobuf.Value}
    (ha : mergePieces p ps = .ok a) (hb : mergePieces q qs = .ok b)
    (h : mergeChunk a b = .ok v) : mergePieces p (ps ++ q :: qs) = .ok v := by
  induction ps generalizing p a v with
  | nil =>
    cases ha
    exact mergePieces_cons_ok.mpr ⟨b, hb, h⟩
  | cons r ps ih =>
    obtain ⟨pr, hpr, ha⟩ := mergePieces_cons_inv ha
    rw [List.cons_append, mergePieces_cons, hpr]
    exact ih ha h

theorem Shatters.ne_nil {v : Protobuf.Value} {pieces : List Protobuf.Value}
    (h : Shatters v pieces) : ∃ p ps, pieces = p :: ps := by
  induction h with
  | whole v => exact ⟨v, [], rfl⟩
  | @cut v a b _ qs _ _ _ ihp =>
    obtain ⟨p, ps, rfl⟩ := ihp
    exact ⟨p, ps ++ qs, rfl⟩

theorem Shatters.merges {v p : Protobuf.Value} {ps : List Protobuf.Value}
    (h : Shatters v (p :: ps)) : mergePieces p ps = .ok v := by
  generalize hpieces : p :: ps = pieces at h
  induction h generalizing p ps with
  | whole v =>
    cases hpieces
    rfl
  | @cut v a b qs rs hsplit hqs hrs ihq ihr =>
    obtain ⟨q, qs, rfl⟩ := hqs.ne_nil
    obtain ⟨r, rs, rfl⟩ := hrs.ne_nil
    cases hpieces
    exact mergePieces_append (ihq rfl) (ihr rfl) hsplit.merges

theorem mergeChunk_undoes_splits (v : Protobuf.Value) :
    (∀ a b, Splits v a b → mergeChunk a b = .ok v) ∧
      ∀ p ps, Shatters v (p :: ps) → mergePieces p ps = .ok v :=
  ⟨fun _ _ => Splits.merges, fun _ _ => Shatters.merges⟩

theorem mergeChunk_undoes_splits_thrice :
    let v : Protobuf.Value :=
      .listValue [.boolValue true, .listValue [.stringValue "ab"], .stringValue "c", .nullValue]
    mergeChunk (.listValue [.boolValue true, .listValue [.stringValue "a"]])
      (.listValue [.listValue [.stringValue "b"], .stringValue "c", .nullValue]) = .ok v ∧
    mergePieces (.listValue [.boolValue true, .listValue [.stringValue "a"]])
      [.listValue [.listValue [.stringValue "b"], .stringValue "c"],
        .listValue [.stringValue "", .nullValue]] = .ok v := by
  intro v
  have hinner : Splits (.listValue [.stringValue "ab"]) (.listValue [.stringValue "a"])
      (.listValue [.stringValue "b"]) := .inside [] [] (.string "a" "b")
  have houter : Splits v (.listValue [.boolValue true, .listValue [.stringValue "a"]])
      (.listValue [.listValue [.stringValue "b"], .stringValue "c", .nullValue]) :=
    .inside [.boolValue true] [.stringValue "c", .nullValue] hinner
  refine ⟨(mergeChunk_undoes_splits v).1 _ _ houter, (mergeChunk_undoes_splits v).2 _ _ ?_⟩
  exact .cut houter (.whole _) (.cut
    (.between [.listValue [.stringValue "b"], .stringValue "c"] [.nullValue]) (.whole _) (.whole _))

end SpannerClient.MergeChunk
