import SpannerClient.Status
import SpannerClient.Protobuf.Value
import Mathlib.Data.List.Basic

namespace SpannerClient.MergeChunk

open Protobuf

def isMergeable (v : Protobuf.Value) : Bool :=
  v.kindCase == .stringValue || v.kindCase == .listValue

mutual

/-- `MergeChunk(value, chunk)`: the result is what it leaves in `value`, and a failure leaves
`value` as it was. -/
def mergeChunk : Protobuf.Value → Protobuf.Value → StatusOr Protobuf.Value
  | .stringValue s, .stringValue t => .ok (.stringValue (s ++ t))
  | .listValue valueList, .listValue chunkList =>
    return .listValue (← mergeLists valueList chunkList)
  | value, chunk =>
    if value.kindCase ≠ chunk.kindCase then
      .error (.of .invalidArgument "mismatched types" StatusCode.invalidArgument_ne_ok)
    else match value with
      | .kindNotSet => .error (.of .unknown "unknown Value type" StatusCode.unknown_ne_ok)
      | _ => .error (.of .invalidArgument "invalid type" StatusCode.invalidArgument_ne_ok)

/-- The `kListValue` branch, which walks to the last element of `valueList`. -/
def mergeLists : List Protobuf.Value → List Protobuf.Value → StatusOr (List Protobuf.Value)
  | [], chunkList => .ok chunkList
  | [last], [] => .ok [last]
  | [last], first :: rest =>
    if isMergeable last then
      return (← mergeChunk last first) :: rest
    else .ok (last :: first :: rest)
  | v :: w :: valueList, chunkList => return v :: (← mergeLists (w :: valueList) chunkList)

end

example : mergeChunk (.listValue [.boolValue true, .listValue [.stringValue "a"]])
    (.listValue [.listValue [.stringValue "b", .nullValue], .stringValue "c"]) =
      .ok (.listValue [.boolValue true, .listValue [.stringValue "ab", .nullValue],
        .stringValue "c"]) := by
  decide

def merged (value chunk : Protobuf.Value) : Option Protobuf.Value :=
  (mergeChunk value chunk).toOption

def mergedLists (valueList chunkList : List Protobuf.Value) : Option (List Protobuf.Value) :=
  (mergeLists valueList chunkList).toOption

theorem bind_map_right (x : Option α) (f : α → Option β) (g : β → γ) :
    (x.bind fun a => (f a).map g) = (x.bind f).map g := by
  cases x <;> rfl

theorem toOption_bind (x : StatusOr α) (f : α → StatusOr β) :
    (x >>= f).toOption = x.toOption.bind fun a => (f a).toOption := by
  cases x <;> rfl

@[simp] theorem merged_string (s t : String) :
    merged (.stringValue s) (.stringValue t) = some (.stringValue (s ++ t)) := by
  simp [merged, mergeChunk, Except.toOption]

@[simp] theorem merged_list (vs cs : List Protobuf.Value) :
    merged (.listValue vs) (.listValue cs) = (mergedLists vs cs).map .listValue := by
  rw [merged, mergeChunk, toOption_bind, mergedLists, Option.map_eq_bind]
  rfl

theorem merged_eq_none {value chunk : Protobuf.Value}
    (h : ¬ (isMergeable value = true ∧ chunk.kindCase = value.kindCase)) :
    merged value chunk = none := by
  cases value <;> cases chunk <;>
    simp_all [merged, mergeChunk, isMergeable, Protobuf.Value.kindCase, Except.toOption]

@[simp] theorem mergedLists_nil (cs : List Protobuf.Value) : mergedLists [] cs = some cs := by
  simp [mergedLists, mergeLists, Except.toOption]

@[simp] theorem mergedLists_singleton_nil (v : Protobuf.Value) : mergedLists [v] [] = some [v] := by
  simp [mergedLists, mergeLists, Except.toOption]

theorem mergedLists_seam {v : Protobuf.Value} (h : isMergeable v = true) (c : Protobuf.Value)
    (cs : List Protobuf.Value) :
    mergedLists [v] (c :: cs) = (merged v c).map (· :: cs) := by
  rw [mergedLists, mergeLists, if_pos h, toOption_bind, merged, Option.map_eq_bind]
  rfl

theorem mergedLists_append {v : Protobuf.Value} (h : isMergeable v = false) (c : Protobuf.Value)
    (cs : List Protobuf.Value) :
    mergedLists [v] (c :: cs) = some (v :: c :: cs) := by
  simp [mergedLists, mergeLists, h, Except.toOption]

theorem mergedLists_cons (v w : Protobuf.Value) (vs cs : List Protobuf.Value) :
    mergedLists (v :: w :: vs) cs = (mergedLists (w :: vs) cs).map (v :: ·) := by
  rw [mergedLists, mergeLists, toOption_bind, mergedLists, Option.map_eq_bind]
  rfl

theorem mergedLists_ne_nil {v : Protobuf.Value} {vs cs ws : List Protobuf.Value}
    (h : mergedLists (v :: vs) cs = some ws) : ∃ w ws', ws = w :: ws' := by
  cases vs with
  | nil =>
    cases cs with
    | nil => simp at h; exact ⟨v, [], h.symm⟩
    | cons c cs =>
      by_cases hv : isMergeable v = true
      · rw [mergedLists_seam hv] at h
        obtain ⟨w, -, rfl⟩ := Option.map_eq_some_iff.mp h
        exact ⟨w, cs, rfl⟩
      · rw [mergedLists_append (by simpa using hv)] at h
        cases h
        exact ⟨v, c :: cs, rfl⟩
  | cons w vs =>
    rw [mergedLists_cons] at h
    obtain ⟨ws', -, rfl⟩ := Option.map_eq_some_iff.mp h
    exact ⟨v, ws', rfl⟩

theorem merged_kindCase {v c w : Protobuf.Value} (h : merged v c = some w) :
    isMergeable v = true ∧ c.kindCase = v.kindCase ∧ w.kindCase = v.kindCase := by
  by_cases hk : isMergeable v = true ∧ c.kindCase = v.kindCase
  · refine ⟨hk.1, hk.2, ?_⟩
    cases v <;> cases c <;> simp_all [isMergeable, Protobuf.Value.kindCase]
    case stringValue => subst h; rfl
    case listValue => obtain ⟨ws, -, rfl⟩ := h; rfl
  · simp [merged_eq_none hk] at h

theorem isMergeable_congr {v w : Protobuf.Value} (h : w.kindCase = v.kindCase) :
    isMergeable w = isMergeable v := by
  simp [isMergeable, h]

theorem mergedLists_cons_of_ne_nil (v : Protobuf.Value) {ws : List Protobuf.Value}
    (h : ∃ w ws', ws = w :: ws') (cs : List Protobuf.Value) :
    mergedLists (v :: ws) cs = (mergedLists ws cs).map (v :: ·) := by
  obtain ⟨w, ws', rfl⟩ := h
  exact mergedLists_cons v w ws' cs

mutual

theorem merged_assoc (a b c : Protobuf.Value) :
    ((merged a b).bind fun ab => merged ab c) = (merged b c).bind fun bc => merged a bc := by
  by_cases hab : isMergeable a = true ∧ b.kindCase = a.kindCase
  · by_cases hbc : isMergeable b = true ∧ c.kindCase = b.kindCase
    · match a, b, c, hab, hbc with
      | .stringValue s, .stringValue t, .stringValue u, _, _ =>
        simp [String.append_assoc]
      | .listValue as, .listValue bs, .listValue cs, _, _ =>
        have h := mergedLists_assoc as bs cs
        simp only [merged_list, Option.bind_map, Function.comp_def]
        rw [bind_map_right, bind_map_right, h]
    · rw [merged_eq_none hbc]
      cases h : merged a b with
      | none => rfl
      | some ab =>
        obtain ⟨ha, hb, hk⟩ := merged_kindCase h
        have : ¬ (isMergeable ab = true ∧ c.kindCase = ab.kindCase) := by
          rwa [isMergeable_congr hk, ← isMergeable_congr hb, hk, ← hb]
        simp [merged_eq_none this]
  · rw [merged_eq_none hab]
    cases h : merged b c with
    | none => rfl
    | some bc =>
      obtain ⟨-, -, hk⟩ := merged_kindCase h
      rw [← hk] at hab
      simp [merged_eq_none hab]

theorem mergedLists_assoc (as bs cs : List Protobuf.Value) :
    ((mergedLists as bs).bind fun abs => mergedLists abs cs) =
      (mergedLists bs cs).bind fun bcs => mergedLists as bcs := by
  match as with
  | [] => simp
  | v :: w :: as =>
    have ih := mergedLists_assoc (w :: as) bs cs
    calc
      ((mergedLists (v :: w :: as) bs).bind fun abs => mergedLists abs cs)
          = (mergedLists (w :: as) bs).bind fun abs => (mergedLists abs cs).map (v :: ·) := by
        rw [mergedLists_cons, Option.bind_map]
        refine Option.bind_congr fun abs h => ?_
        exact mergedLists_cons_of_ne_nil v (mergedLists_ne_nil h) cs
      _ = ((mergedLists bs cs).bind fun bcs => mergedLists (w :: as) bcs).map (v :: ·) := by
        rw [bind_map_right, ih]
      _ = (mergedLists bs cs).bind fun bcs => mergedLists (v :: w :: as) bcs := by
        simp only [mergedLists_cons, bind_map_right]
  | [v] =>
    match bs with
    | [] => simp
    | b :: bs =>
      by_cases hv : isMergeable v = true
      · rw [mergedLists_seam hv, Option.bind_map]
        match bs, cs with
        | [], [] =>
          rw [mergedLists_singleton_nil, Option.bind_some, mergedLists_seam hv, Option.map_eq_bind]
          exact Option.bind_congr fun w _ => mergedLists_singleton_nil w
        | b' :: bs, cs =>
          simp only [mergedLists_cons, Option.bind_map, Function.comp_def, mergedLists_seam hv]
          cases merged v b <;> cases mergedLists (b' :: bs) cs <;> rfl
        | [], c :: cs =>
          by_cases hb : isMergeable b = true
          · rw [mergedLists_seam hb, Option.bind_map]
            have h := merged_assoc v b c
            calc
              ((merged v b).bind fun w => mergedLists [w] (c :: cs))
                  = ((merged v b).bind fun w => merged w c).map (· :: cs) := by
                rw [← bind_map_right]
                refine Option.bind_congr fun w hw => ?_
                obtain ⟨-, -, hk⟩ := merged_kindCase hw
                exact mergedLists_seam ((isMergeable_congr hk).trans hv) c cs
              _ = (merged b c).bind fun bc => mergedLists [v] (bc :: cs) := by
                rw [h, ← bind_map_right]
                exact Option.bind_congr fun bc _ => (mergedLists_seam hv bc cs).symm
          · have hvb : merged v b = none := by
              refine merged_eq_none fun hk => hb ?_
              rwa [isMergeable_congr hk.2]
            rw [mergedLists_append (by simpa using hb)]
            simp [mergedLists_seam hv, hvb]
      · have hv : isMergeable v = false := by simpa using hv
        rw [mergedLists_append hv, Option.bind_some, mergedLists_cons]
        rw [Option.map_eq_bind]
        refine Option.bind_congr fun bcs h => ?_
        obtain ⟨w, ws, rfl⟩ := mergedLists_ne_nil h
        exact (mergedLists_append hv w ws).symm

end

def mergePieces (piece : Protobuf.Value) (pieces : List Protobuf.Value) : StatusOr Protobuf.Value :=
  pieces.foldlM mergeChunk piece

theorem mergePieces_cons (p q : Protobuf.Value) (qs : List Protobuf.Value) :
    mergePieces p (q :: qs) = mergeChunk p q >>= fun pq => mergePieces pq qs := rfl

theorem mergePieces_cons_inv {p q v : Protobuf.Value} {qs : List Protobuf.Value}
    (h : mergePieces p (q :: qs) = .ok v) :
    ∃ pq, mergeChunk p q = .ok pq ∧ mergePieces pq qs = .ok v := by
  rw [mergePieces_cons] at h
  exact except_bind_eq_ok.mp h

theorem mergePieces_regroup (p q : Protobuf.Value) (qs : List Protobuf.Value) :
    (mergePieces p (q :: qs)).toOption = (mergePieces q qs).toOption.bind fun b => merged p b := by
  induction qs generalizing p q with
  | nil =>
    change _ = merged p q
    rw [mergePieces_cons, toOption_bind, merged]
    cases mergeChunk p q <;> rfl
  | cons r qs ih =>
    calc
      (mergePieces p (q :: r :: qs)).toOption
          = (merged p q).bind fun pq => (mergePieces r qs).toOption.bind fun b => merged pq b := by
        rw [mergePieces_cons, toOption_bind]
        exact Option.bind_congr fun pq _ => ih pq r
      _ = (mergePieces r qs).toOption.bind fun b => (merged q b).bind fun qb => merged p qb := by
        cases (mergePieces r qs).toOption with
        | none => cases merged p q <;> rfl
        | some b => exact merged_assoc p q b
      _ = (mergePieces q (r :: qs)).toOption.bind fun b => merged p b := by
        rw [ih q r, Option.bind_assoc]

theorem merged_eq_some {v c w : Protobuf.Value} : merged v c = some w ↔ mergeChunk v c = .ok w := by
  rw [merged]
  cases mergeChunk v c <;> simp [Except.toOption]

theorem mergePieces_toOption {p v : Protobuf.Value} {ps : List Protobuf.Value} :
    (mergePieces p ps).toOption = some v ↔ mergePieces p ps = .ok v := by
  cases mergePieces p ps <;> simp [Except.toOption]

theorem mergePieces_cons_ok {p q v : Protobuf.Value} {qs : List Protobuf.Value} :
    mergePieces p (q :: qs) = .ok v ↔
      ∃ b, mergePieces q qs = .ok b ∧ mergeChunk p b = .ok v := by
  simp only [← mergePieces_toOption, mergePieces_regroup, Option.bind_eq_some_iff,
    merged_eq_some]

/-- Merging is associative: what comes of three pieces, failure included, does not depend on which
two of them are merged first. -/
theorem mergeChunk_assoc (a b c v : Protobuf.Value) :
    (∃ ab, mergeChunk a b = .ok ab ∧ mergeChunk ab c = .ok v) ↔
      ∃ bc, mergeChunk b c = .ok bc ∧ mergeChunk a bc = .ok v := by
  have hassoc := merged_assoc a b c
  constructor
  · rintro ⟨ab, hab, habc⟩
    have hleft : ((merged a b).bind fun ab => merged ab c) = some v := by
      rw [merged_eq_some.mpr hab, Option.bind_some, merged_eq_some.mpr habc]
    rw [hassoc] at hleft
    simpa only [Option.bind_eq_some_iff, merged_eq_some] using hleft
  · rintro ⟨bc, hbc, habc⟩
    have hright : ((merged b c).bind fun bc => merged a bc) = some v := by
      rw [merged_eq_some.mpr hbc, Option.bind_some, merged_eq_some.mpr habc]
    rw [← hassoc] at hright
    simpa only [Option.bind_eq_some_iff, merged_eq_some] using hright

end SpannerClient.MergeChunk
