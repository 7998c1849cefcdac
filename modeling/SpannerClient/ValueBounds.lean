import SpannerClient.ValueTypes

namespace SpannerClient

open Protobuf (SpannerType TypeCode)

def UpToFailure (decodes inBounds : Protobuf.Value → Prop) : List Protobuf.Value → Prop
  | [] => True
  | e :: es => inBounds e ∧ (decodes e → UpToFailure decodes inBounds es)

mutual

def CppType.Decodes : (T : CppType) → Protobuf.Value → Prop
  | .scalar s, pv => ∃ t, s.getValue pv = .ok t
  | .optional T, pv => pv.kindCase = .nullValue ∨ T.Decodes pv
  | .vector T, pv => pv.kindCase = .listValue ∧ ∀ e ∈ pv.listField, T.Decodes e
  | .tuple Ts, pv => pv.kindCase = .listValue ∧ Ts.Decodes 0 pv.listField

def Members.Decodes : (Ts : Members) → (i : Nat) → List Protobuf.Value → Prop
  | .nil, _, _ => True
  | .plain T rest, i, values => (∃ e ∈ values[i]?, T.Decodes e) ∧ rest.Decodes (i + 1) values
  | .named T rest, i, values => (∃ e ∈ values[i]?, T.Decodes e) ∧ rest.Decodes (i + 1) values

end

mutual

/-- Every list that is reached is long enough for the struct it is read as, and the type that
is handed down has a field at the position of every named member that is reached. -/
def CppType.InBounds : (T : CppType) → Protobuf.Value → SpannerType → Prop
  | .scalar _, _, _ => True
  | .optional T, pv, pt => pv.kindCase ≠ .nullValue → T.InBounds pv pt
  | .vector T, pv, pt =>
    UpToFailure T.Decodes (fun e => T.InBounds e pt.arrayElementType) pv.listField
  | .tuple Ts, pv, pt => pv.kindCase = .listValue → Ts.InBounds 0 pv.listField pt

def Members.InBounds : (Ts : Members) → (i : Nat) → List Protobuf.Value → SpannerType → Prop
  | .nil, _, _, _ => True
  | .plain T rest, i, values, type =>
    (∃ e ∈ values[i]?, T.InBounds e type) ∧ rest.InBounds (i + 1) values type
  | .named T rest, i, values, type =>
    i < type.fields.length ∧ (∃ e ∈ values[i]?, T.InBounds e type) ∧
      rest.InBounds (i + 1) values type

end

structure Meets {α : Type} (result : Bounded (StatusOr α)) (inBounds decodes : Prop) : Prop where
  bounded : result.isSome ↔ inBounds
  ok : ∀ r ∈ result, (∃ t, r = .ok t) ↔ decodes

structure Extends {α : Type} (result : Bounded (α × Option Failure)) (status : Option Failure)
    (inBounds decodes : Prop) : Prop where
  bounded : result.isSome ↔ inBounds
  ok : ∀ r ∈ result, r.2 = none ↔ status = none ∧ decodes

theorem getElements_meets {α : Type} {getValue : Protobuf.Value → Bounded (StatusOr α)}
    {decodes inBounds : Protobuf.Value → Prop}
    (h : ∀ e, Meets (getValue e) (inBounds e) (decodes e))
    (values : List Protobuf.Value) :
    Meets (getElements getValue values) (UpToFailure decodes inBounds values)
      (∀ e ∈ values, decodes e) := by
  induction values with
  | nil => exact ⟨by simp [getElements, UpToFailure], by simp [getElements]⟩
  | cons e es ih =>
    have he := h e
    rw [getElements, UpToFailure, List.forall_mem_cons]
    cases hget : getValue e with
    | none =>
      have hout : ¬inBounds e := by simp [← he.bounded, hget]
      exact ⟨by simp [hout], by simp⟩
    | some value =>
      have hin : inBounds e := by simp [← he.bounded, hget]
      cases value with
      | error failure =>
        have hno : ¬decodes e := by simp [← he.ok _ hget]
        exact ⟨by simp [hin, hno], by simp [hno]⟩
      | ok t =>
        have hyes : decodes e := (he.ok _ hget).mp ⟨t, rfl⟩
        refine ⟨by simp [hin, hyes, ← ih.bounded], ?_⟩
        rintro r hr
        obtain ⟨v, hv, rfl⟩ := Option.mem_map.mp hr
        simp only [hyes, true_and, ← ih.ok v hv]
        cases v <;> simp [Except.map]

theorem extractMember_extends {α : Type} {getValue : Protobuf.Value → Bounded (StatusOr α)}
    {decodes inBounds : Protobuf.Value → Prop}
    (h : ∀ e, Meets (getValue e) (inBounds e) (decodes e))
    (member : α) (status : Option Failure) (i : Nat) (values : List Protobuf.Value) :
    Extends (extractMember getValue member status i values) status
      (∃ e ∈ values[i]?, inBounds e) (∃ e ∈ values[i]?, decodes e) := by
  rw [extractMember]
  cases values[i]? with
  | none => exact ⟨by simp, by simp⟩
  | some e =>
    have he := h e
    cases hget : getValue e with
    | none =>
      have hout : ¬inBounds e := by simp [← he.bounded, hget]
      exact ⟨by simp [hget, hout], by simp [hget]⟩
    | some value =>
      have hin : inBounds e := by simp [← he.bounded, hget]
      cases value with
      | error failure =>
        have hno : ¬decodes e := by simp [← he.ok _ hget]
        exact ⟨by simp [hget, hin], by simp [hget, hno]⟩
      | ok t =>
        have hyes : decodes e := (he.ok _ hget).mp ⟨t, rfl⟩
        exact ⟨by simp [hget, hin], by simp [hget, hyes]⟩

theorem Extends.bind {α β γ : Type} {result : Bounded (α × Option Failure)}
    {later : Option Failure → Bounded (β × Option Failure)} {f : α → β → γ}
    {status : Option Failure} {inBounds decodes laterInBounds laterDecodes : Prop}
    (h : Extends result status inBounds decodes)
    (hlater : ∀ status, Extends (later status) status laterInBounds laterDecodes) :
    Extends
      (result.bind fun (a, status) => (later status).bind fun (b, status) =>
        some (f a b, status))
      status (inBounds ∧ laterInBounds) (decodes ∧ laterDecodes) := by
  cases hresult : result with
  | none =>
    have hout : ¬inBounds := by simp [← h.bounded, hresult]
    exact ⟨by simp [hout], by simp⟩
  | some r =>
    have hin : inBounds := by simp [← h.bounded, hresult]
    have hok := h.ok r hresult
    have hnext := hlater r.2
    cases hrest : later r.2 with
    | none =>
      have hout : ¬laterInBounds := by simp [← hnext.bounded, hrest]
      exact ⟨by simp [hrest, hout], by simp [hrest]⟩
    | some rest =>
      have hlaterIn : laterInBounds := by simp [← hnext.bounded, hrest]
      have hlaterOk := hnext.ok rest hrest
      exact ⟨by simp [hrest, hin, hlaterIn], by simp [hrest, hlaterOk, hok, and_assoc]⟩

mutual

theorem CppType.getValue_meets : (T : CppType) → (pv : Protobuf.Value) → (pt : SpannerType) →
    Meets (T.getValue pv pt) (T.InBounds pv pt) (T.Decodes pv)
  | .scalar s, pv, pt => by
    refine ⟨by simp [CppType.getValue, CppType.InBounds], ?_⟩
    rintro r hr
    obtain rfl : s.getValue pv = r := by simpa [CppType.getValue] using hr
    rfl
  | .optional T, pv, pt => by
    have ih := T.getValue_meets pv pt
    rw [CppType.getValue, CppType.InBounds, CppType.Decodes]
    by_cases hnull : pv.kindCase = .nullValue
    · exact ⟨by simp [hnull], by simp [hnull]⟩
    · refine ⟨by simp [hnull, ← ih.bounded], ?_⟩
      rintro r hr
      rw [if_neg hnull] at hr
      obtain ⟨value, hvalue, rfl⟩ := Option.mem_map.mp hr
      simp only [hnull, false_or, ← ih.ok value hvalue]
      cases value <;> simp [Except.map]
  | .vector T, pv, pt => by
    have ih := getElements_meets fun e => T.getValue_meets e pt.arrayElementType
    cases pv with
    | listValue values =>
      rw [CppType.getValue, CppType.InBounds, CppType.Decodes]
      simpa [Protobuf.Value.kindCase, Protobuf.Value.listField] using ih values
    | _ =>
      exact ⟨by simp [CppType.getValue, CppType.InBounds, Protobuf.Value.listField, UpToFailure],
        by simp [CppType.getValue, CppType.Decodes, Protobuf.Value.kindCase]⟩
  | .tuple Ts, pv, pt => by
    cases pv with
    | listValue values =>
      have ih := Ts.extract_extends none 0 values pt
      refine ⟨?_, ?_⟩
      · simpa [CppType.getValue, CppType.InBounds, Protobuf.Value.kindCase,
          Protobuf.Value.listField] using ih.bounded
      · rintro r hr
        rw [CppType.getValue] at hr
        obtain ⟨result, hresult, rfl⟩ := Option.mem_map.mp hr
        obtain ⟨ts, status⟩ := result
        have hok := ih.ok _ hresult
        simp only [true_and] at hok
        simp only [CppType.Decodes, Protobuf.Value.kindCase, Protobuf.Value.listField, true_and,
          ← hok]
        cases status <;> simp
    | _ =>
      exact ⟨by simp [CppType.getValue, CppType.InBounds, Protobuf.Value.kindCase],
        by simp [CppType.getValue, CppType.Decodes, Protobuf.Value.kindCase]⟩

theorem Members.extract_extends : (Ts : Members) → (status : Option Failure) → (i : Nat) →
    (values : List Protobuf.Value) → (type : SpannerType) →
    Extends (Ts.extractTupleValues status i values type) status (Ts.InBounds i values type)
      (Ts.Decodes i values)
  | .nil, status, i, values, type =>
    ⟨by simp [Members.extractTupleValues, Members.InBounds],
      by simp [Members.extractTupleValues, Members.Decodes]⟩
  | .plain T rest, status, i, values, type => by
    have hmember := extractMember_extends (fun e => T.getValue_meets e type) T.default status i
      values
    rw [Members.extractTupleValues, Members.InBounds, Members.Decodes]
    exact hmember.bind fun status => rest.extract_extends status (i + 1) values type
  | .named T rest, status, i, values, type => by
    have hmember := extractMember_extends (fun e => T.getValue_meets e type) T.default status i
      values
    rw [Members.extractTupleValues, Members.InBounds, Members.Decodes]
    cases hfield : type.fields[i]? with
    | none =>
      have hout : ¬i < type.fields.length := by simpa using hfield
      exact ⟨by simp [hout], by simp⟩
    | some field =>
      obtain ⟨hin, -⟩ := List.getElem?_eq_some_iff.mp hfield
      have hall := hmember.bind (f := fun t ts => ((field.1, t), ts))
        fun status => rest.extract_extends status (i + 1) values type
      exact ⟨by simpa [hin] using hall.bounded, fun r hr => hall.ok r hr⟩

end

theorem fieldTypeIs_isSome {typeProtoIs : SpannerType → Bounded Bool} {ok : Bool}
    {field later : Nat} {fields : List (String × SpannerType)}
    (h : ∀ type, (typeProtoIs type).isSome)
    (hlength : ok = true → fields.length = field + (later + 1)) :
    ∃ next, fieldTypeIs typeProtoIs ok field fields = some next ∧
      (next = true → fields.length = field + 1 + later) := by
  cases ok with
  | false => exact ⟨false, rfl, nofun⟩
  | true =>
    have hfields := hlength rfl
    have hlt : field < fields.length := by omega
    obtain ⟨next, hnext⟩ := Option.isSome_iff_exists.mp (h fields[field].2)
    exact ⟨next, by simp [fieldTypeIs, List.getElem?_eq_getElem hlt, hnext], fun _ => by omega⟩

mutual

theorem CppType.typeProtoIs_isSome : (T : CppType) → (type : SpannerType) →
    (T.typeProtoIs type).isSome
  | .scalar _, _ => rfl
  | .optional T, type => T.typeProtoIs_isSome type
  | .vector T, type => by
    rw [CppType.typeProtoIs]
    split
    case isTrue => exact T.typeProtoIs_isSome _
    case isFalse => rfl
  | .tuple Ts, type => by
    rw [CppType.typeProtoIs]
    apply Ts.isStructTypeProto_isSome
    simp

theorem Members.isStructTypeProto_isSome : (Ts : Members) → (ok : Bool) → (field : Nat) →
    (fields : List (String × SpannerType)) → (ok = true → fields.length = field + Ts.size) →
    (Ts.isStructTypeProto ok field fields).isSome
  | .nil, _, _, _, _ => rfl
  | .plain T rest, ok, field, fields, h => by
    obtain ⟨next, hnext, hlength⟩ := fieldTypeIs_isSome T.typeProtoIs_isSome h
    rw [Members.isStructTypeProto, hnext, Option.bind_some]
    exact rest.isStructTypeProto_isSome _ _ _ hlength
  | .named T rest, ok, field, fields, h => by
    obtain ⟨next, hnext, hlength⟩ := fieldTypeIs_isSome T.typeProtoIs_isSome h
    rw [Members.isStructTypeProto, hnext, Option.bind_some]
    exact rest.isStructTypeProto_isSome _ _ _ hlength

end

/-- Exactly when the list and type below a value of the right type are as long as its C++ type
needs them, `get` reads every repeated field within its bounds. -/
theorem get_isSome_iff (v : Value) (T : CppType) :
    (v.get T).isSome ↔
      (T.typeProtoIs v.type = some true → v.value.kindCase ≠ .nullValue →
        T.InBounds v.value v.type) := by
  obtain ⟨ok, hok⟩ := Option.isSome_iff_exists.mp (T.typeProtoIs_isSome v.type)
  rw [Value.get, hok]
  cases ok with
  | false => simp
  | true =>
    by_cases hnull : v.value.kindCase = .nullValue
    · by_cases hopt : T.isOptional <;> simp [hnull, hopt]
    · simp [hnull, (T.getValue_meets v.value v.type).bounded]

def pairOfInts : CppType := .tuple (.plain (.scalar .int64) (.plain (.scalar .int64) .nil))

def pairType : SpannerType :=
  .mk .struct none [("", .mk .int64 none []), ("", .mk .int64 none [])]

/-- The second field of the struct has no value in the list. -/
theorem get_shortList :
    ¬((fromProto pairType (.listValue [.stringValue "1"])).get pairOfInts).isSome := by
  have hnone : (fromProto pairType (.listValue [.stringValue "1"])).get pairOfInts = none := rfl
  simp [hnone]

end SpannerClient
