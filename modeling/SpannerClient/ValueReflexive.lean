import SpannerClient.ValueDifference
import SpannerClient.ValueTypes

namespace SpannerClient

open Protobuf (SpannerType TypeCode)

def Scalar.NotNaN : (s : Scalar) → s.Val → Prop
  | .double, (d : Protobuf.Double) => d.isNaN = false
  | .bool, _ | .int64, _ | .string, _ | .bytes, _ | .timestamp, _ | .commitTimestamp, _
  | .date, _ => True

def CppType.HasMembers : CppType → Prop
  | .tuple Ts => Ts.size ≠ 0
  | .optional T => T.HasMembers
  | .scalar _ | .vector _ => False

mutual

/-- There is no null for a struct with fields, at any depth. -/
def CppType.NoNullStruct : (T : CppType) → T.Val → Prop
  | .scalar _, _ => True
  | .optional T, none => ¬T.HasMembers
  | .optional T, some t => T.NoNullStruct t
  | .vector T, (ts : List T.Val) => ∀ t ∈ ts, T.NoNullStruct t
  | .tuple Ts, ts => Ts.NoNullStruct ts

def Members.NoNullStruct : (Ts : Members) → Ts.Val → Prop
  | .nil, _ => True
  | .plain T rest, (t, ts) => T.NoNullStruct t ∧ rest.NoNullStruct ts
  | .named T rest, ((_, t), ts) => T.NoNullStruct t ∧ rest.NoNullStruct ts

end

theorem equal_self_iff {pt : SpannerType} {pv : Protobuf.Value} :
    equal pt pv pt pv = true ↔ ContentAgrees pt pv pt pv := by
  simp [equal_iff]

theorem equalElements_self {t : SpannerType} {vs : List Protobuf.Value} :
    equalElements t vs vs = true ↔ ∀ v ∈ vs, equal t v t v = true := by
  induction vs with
  | nil => simp [equalElements]
  | cons v vs ih => rw [equalElements, Bool.and_eq_true, ih, List.forall_mem_cons]

theorem equalDouble_doubleProto (d : Protobuf.Double) :
    equalDouble (Scalar.doubleProto d) (Scalar.doubleProto d) = true ↔ d.isNaN = false := by
  rw [Scalar.doubleProto]
  cases hnan : d.isNaN with
  | true => simp [equalDouble, Protobuf.Value.stringField]
  | false =>
    rw [if_neg (by simp)]
    split
    · have hzero : Protobuf.Double.zero.eq .zero = true := rfl
      split <;> simp [equalDouble, Protobuf.Value.stringField, Protobuf.Value.numberField, hzero]
    · simp [equalDouble, Protobuf.Value.stringField, Protobuf.Value.numberField,
        Protobuf.Double.eq_self hnan]

theorem Scalar.equal_self (s : Scalar) (t : s.Val) :
    equal s.makeTypeProto (s.makeValueProto t) s.makeTypeProto (s.makeValueProto t) = true ↔
      s.NotNaN t := by
  rw [equal_self_iff]
  cases s with
  | double => exact equalDouble_doubleProto t
  | _ => simp [ContentAgrees, makeTypeProto, typeCode, SpannerType.code, NotNaN]

theorem CppType.equal_null {pt : SpannerType} : (T : CppType) → {t : T.Val} →
    T.makeTypeProto t = .ok pt → (equal pt .nullValue pt .nullValue = true ↔ ¬T.HasMembers)
  | .scalar s, _, h => by
    cases h
    rw [equal_self_iff, HasMembers]
    cases s <;> simp [ContentAgrees, Scalar.makeTypeProto, Scalar.typeCode, SpannerType.code]
    rfl
  | .optional T, _, h => T.equal_null (t := T.default) h
  | .vector T, _, h => by
    obtain ⟨elementType, -, -, rfl⟩ := makeTypeProto_vector.mp h
    rw [equal_self_iff, HasMembers]
    simp [ContentAgrees, SpannerType.code, Protobuf.Value.listField, equalElements]
  | .tuple Ts, _, h => by
    obtain ⟨fields, hfields, rfl⟩ := makeTypeProto_tuple.mp h
    have hsize := (Ts.isStructTypeProto_addStructTypes (p := []) hfields).1
    rw [equal_self_iff, HasMembers]
    simp [ContentAgrees, SpannerType.code, SpannerType.fields, Protobuf.Value.listField,
      ← hsize, equalFields]

theorem Members.length_addStructValues : (Ts : Members) → (ts : Ts.Val) →
    (Ts.addStructValues ts).length = Ts.size
  | .nil, _ => rfl
  | .plain _ rest, (_, ts) => by
    rw [addStructValues, List.length_cons, rest.length_addStructValues, size]
  | .named _ rest, ((_, _), ts) => by
    rw [addStructValues, List.length_cons, rest.length_addStructValues, size]

mutual

theorem CppType.equal_self : (T : CppType) → {t t' : T.Val} → {pt : SpannerType} →
    T.makeTypeProto t' = .ok pt →
    (equal pt (T.makeValueProto t) pt (T.makeValueProto t) = true ↔
      T.All Scalar.NotNaN t ∧ T.NoNullStruct t)
  | .scalar s, t, _, _, h => by
    cases h
    rw [CppType.makeValueProto, s.equal_self, CppType.All, CppType.NoNullStruct, and_true]
  | .optional T, none, _, _, h => by
    rw [CppType.makeValueProto, T.equal_null (t := T.default) h, CppType.All, CppType.NoNullStruct]
    simp
  | .optional T, some t, _, _, h => by
    have ih := T.equal_self (t := t) h
    rw [CppType.makeValueProto, ih, CppType.All, CppType.NoNullStruct]
    simp
  | .vector T, ts, _, _, h => by
    obtain ⟨elementType, hhead, -, rfl⟩ := CppType.makeTypeProto_vector.mp h
    have ih : ∀ t, equal elementType (T.makeValueProto t) elementType (T.makeValueProto t) = true ↔
        T.All Scalar.NotNaN t ∧ T.NoNullStruct t := fun t => T.equal_self hhead
    rw [equal_self_iff, CppType.makeValueProto, CppType.All, CppType.NoNullStruct]
    simp [ContentAgrees, SpannerType.code, SpannerType.arrayElementType,
      Protobuf.Value.listField, equalElements_self, ih, forall_and]
  | .tuple Ts, ts, _, _, h => by
    obtain ⟨fields, hfields, rfl⟩ := CppType.makeTypeProto_tuple.mp h
    have hsize := (Ts.isStructTypeProto_addStructTypes (p := []) hfields).1
    have ih := Ts.equalFields_self (t := ts) hfields
    rw [equal_self_iff, CppType.makeValueProto, CppType.All, CppType.NoNullStruct]
    simp [ContentAgrees, SpannerType.code, SpannerType.fields, Protobuf.Value.listField, hsize,
      Ts.length_addStructValues, ih]

theorem Members.equalFields_self : (Ts : Members) → {t t' : Ts.Val} →
    {fields : List (String × SpannerType)} → Ts.addStructTypes t' = .ok fields →
    (equalFields fields (Ts.addStructValues t) fields (Ts.addStructValues t) = true ↔
      Ts.All Scalar.NotNaN t ∧ Ts.NoNullStruct t)
  | .nil, _, _, _, _ => by
    simp [Members.addStructValues, equalFields, Members.All, Members.NoNullStruct]
  | .plain T rest, (t, ts), (t', ts'), _, h => by
    obtain ⟨type, htype, later, hlater, rfl⟩ := Members.addStructTypes_plain.mp h
    have ih := T.equal_self (t := t) htype
    have ihs := rest.equalFields_self (t := ts) hlater
    simp only [Members.addStructValues, equalFields, beq_self_eq_true, Bool.true_and,
      Bool.and_eq_true, ih, ihs, Members.All, Members.NoNullStruct]
    exact and_and_and_comm
  | .named T rest, ((name, t), ts), ((name', t'), ts'), _, h => by
    obtain ⟨type, htype, later, hlater, rfl⟩ := Members.addStructTypes_named.mp h
    have ih := T.equal_self (t := t) htype
    have ihs := rest.equalFields_self (t := ts) hlater
    simp only [Members.addStructValues, equalFields, beq_self_eq_true, Bool.true_and,
      Bool.and_eq_true, ih, ihs, Members.All, Members.NoNullStruct]
    exact and_and_and_comm

end

theorem Value.of_eq_ok {T : CppType} {t : T.Val} {v : Value} :
    Value.of T t = .ok v ↔ T.makeTypeProto t = .ok v.type ∧ T.makeValueProto t = v.value := by
  obtain ⟨type, value⟩ := v
  simp only [Value.of, except_bind_eq_ok, except_pure_eq_ok, mk.injEq]
  constructor
  · rintro ⟨made, hmade, rfl, rfl⟩
    exact ⟨hmade, rfl⟩
  · rintro ⟨hmade, rfl⟩
    exact ⟨type, hmade, rfl, rfl⟩

theorem Value.eq_self_iff {T : CppType} {t : T.Val} {v : Value} (h : Value.of T t = .ok v) :
    v.eq v = true ↔ T.All Scalar.NotNaN t ∧ T.NoNullStruct t := by
  obtain ⟨htype, hvalue⟩ := Value.of_eq_ok.mp h
  rw [Value.eq, ← hvalue]
  exact T.equal_self htype

/-- A value, its copy and what comes back over the wire are equal exactly if no null is that of
a struct with fields. -/
theorem eq_copy_wire_iff {T : CppType} {t : T.Val} {v : Value} (h : Value.of T t = .ok v)
    (hnan : T.All Scalar.NotNaN t) :
    (v.eq v = true ∧ v.eq v.copy = true ∧
      (fromProto (toProto v).1 (toProto v).2).eq v = true) ↔ T.NoNullStruct t := by
  have hself := Value.eq_self_iff h
  simp only [hnan, true_and] at hself
  rw [← hself]
  exact ⟨fun heq => heq.1, fun heq => ⟨heq, heq, heq⟩⟩

theorem eq_copy_wire_nullArray :
    let v : Value := fromProto (.mk .array (some (.mk .int64 none [])) []) .nullValue
    v.eq v = true ∧ v.eq v.copy = true ∧
      (fromProto (toProto v).1 (toProto v).2).eq v = true := by
  have hof : Value.of (.optional (.vector (.scalar .int64))) none =
    .ok (fromProto (.mk .array (some (.mk .int64 none [])) []) .nullValue) := rfl
  exact (eq_copy_wire_iff hof (by simp [CppType.All])).mpr
    (by simp [CppType.NoNullStruct, CppType.HasMembers])

def singleInt : CppType := .tuple (.plain (.scalar .int64) .nil)

/-- A null `STRUCT` is not equal to itself: its list is shorter than its fields are many. -/
theorem nullStruct_not_eq :
    (CppType.optional singleInt).All Scalar.NotNaN none ∧
      ∃ v, Value.of (.optional singleInt) none = .ok v ∧ v.eq v = false :=
  ⟨by simp [CppType.All], _, rfl, by decide⟩

end SpannerClient
