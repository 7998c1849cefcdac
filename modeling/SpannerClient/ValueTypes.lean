import SpannerClient.ValueDecoding

namespace SpannerClient

open Protobuf (SpannerType TypeCode)

theorem checkElements_ok {α : Type} {make : α → Except InvalidArgument SpannerType}
    {elementType : SpannerType} {v : List α} {u : Unit} :
    checkElements make elementType v = .ok u ↔ ∀ e ∈ v, make e = .ok elementType := by
  induction v with
  | nil => simp [checkElements]
  | cons e v ih =>
    rw [checkElements, List.forall_mem_cons]
    cases make e with
    | error thrown => simp
    | ok type =>
      by_cases htype : type = elementType
      · simp [htype, ih]
      · simp [htype]

theorem except_pure_eq_ok {ε α : Type} {a b : α} :
    (pure a : Except ε α) = .ok b ↔ a = b := by
  simp [pure, Except.pure]

theorem CppType.makeTypeProto_vector {T : CppType} {v : List T.Val} {type : SpannerType} :
    (CppType.vector T).makeTypeProto v = .ok type ↔
      ∃ elementType, T.makeTypeProto (v.headD T.default) = .ok elementType ∧
        (∀ e ∈ v, T.makeTypeProto e = .ok elementType) ∧
          .mk .array (some elementType) [] = type := by
  simp only [CppType.makeTypeProto, except_bind_eq_ok, except_pure_eq_ok, checkElements_ok,
    exists_const]

theorem CppType.makeTypeProto_tuple {Ts : Members} {ts : Ts.Val} {type : SpannerType} :
    (CppType.tuple Ts).makeTypeProto ts = .ok type ↔
      ∃ fields, Ts.addStructTypes ts = .ok fields ∧ .mk .struct none fields = type := by
  simp only [CppType.makeTypeProto, except_bind_eq_ok, except_pure_eq_ok]

theorem Members.addStructTypes_plain {T : CppType} {rest : Members} {t : T.Val} {ts : rest.Val}
    {fields : List (String × SpannerType)} :
    (Members.plain T rest).addStructTypes (t, ts) = .ok fields ↔
      ∃ type, T.makeTypeProto t = .ok type ∧
        ∃ later, rest.addStructTypes ts = .ok later ∧ ("", type) :: later = fields := by
  simp only [Members.addStructTypes, except_bind_eq_ok, except_pure_eq_ok]

theorem Members.addStructTypes_named {T : CppType} {rest : Members} {name : String} {t : T.Val}
    {ts : rest.Val} {fields : List (String × SpannerType)} :
    (Members.named T rest).addStructTypes ((name, t), ts) = .ok fields ↔
      ∃ type, T.makeTypeProto t = .ok type ∧
        ∃ later, rest.addStructTypes ts = .ok later ∧ (name, type) :: later = fields := by
  simp only [Members.addStructTypes, except_bind_eq_ok, except_pure_eq_ok]

mutual

theorem CppType.makeTypeProto_default : (T : CppType) →
    ∃ type, T.makeTypeProto T.default = .ok type
  | .scalar s => ⟨_, rfl⟩
  | .optional T => T.makeTypeProto_default
  | .vector T => by
    obtain ⟨type, htype⟩ := T.makeTypeProto_default
    exact ⟨_, CppType.makeTypeProto_vector.mpr ⟨type, htype, by rintro e ⟨⟩, rfl⟩⟩
  | .tuple Ts => by
    obtain ⟨fields, hfields⟩ := Ts.addStructTypes_default
    exact ⟨_, CppType.makeTypeProto_tuple.mpr ⟨fields, hfields, rfl⟩⟩

theorem Members.addStructTypes_default : (Ts : Members) →
    ∃ fields, Ts.addStructTypes Ts.default = .ok fields
  | .nil => ⟨[], rfl⟩
  | .plain T rest => by
    obtain ⟨type, htype⟩ := T.makeTypeProto_default
    obtain ⟨fields, hfields⟩ := rest.addStructTypes_default
    exact ⟨_, Members.addStructTypes_plain.mpr ⟨type, htype, fields, hfields, rfl⟩⟩
  | .named T rest => by
    obtain ⟨type, htype⟩ := T.makeTypeProto_default
    obtain ⟨fields, hfields⟩ := rest.addStructTypes_default
    exact ⟨_, Members.addStructTypes_named.mpr ⟨type, htype, fields, hfields, rfl⟩⟩

end

mutual

theorem CppType.typeProtoIs_makeTypeProto : (T : CppType) → {t : T.Val} → {type : SpannerType} →
    T.makeTypeProto t = .ok type → T.typeProtoIs type = some true
  | .scalar s, t, type, h => by
    cases h
    simp [CppType.typeProtoIs, Scalar.typeProtoIs, Scalar.makeTypeProto, SpannerType.code]
  | .optional T, _, _, h => by
    rw [CppType.typeProtoIs]
    exact T.typeProtoIs_makeTypeProto h
  | .vector T, v, _, h => by
    obtain ⟨elementType, hhead, -, rfl⟩ := CppType.makeTypeProto_vector.mp h
    rw [CppType.typeProtoIs]
    exact T.typeProtoIs_makeTypeProto hhead
  | .tuple Ts, ts, _, h => by
    obtain ⟨fields, hfields, rfl⟩ := CppType.makeTypeProto_tuple.mp h
    obtain ⟨hsize, his⟩ := Ts.isStructTypeProto_addStructTypes (p := []) hfields
    simp only [CppType.typeProtoIs, SpannerType.code, SpannerType.fields, hsize]
    simpa using his

theorem Members.isStructTypeProto_addStructTypes : (Ts : Members) → {ts : Ts.Val} →
    {fields : List (String × SpannerType)} → {p : List (String × SpannerType)} →
    Ts.addStructTypes ts = .ok fields →
    fields.length = Ts.size ∧ Ts.isStructTypeProto true p.length (p ++ fields) = some true
  | .nil, _, _, p, h => by
    cases h
    exact ⟨rfl, rfl⟩
  | .plain T rest, (t, ts), _, p, h => by
    obtain ⟨type, htype, later, hlater, rfl⟩ := Members.addStructTypes_plain.mp h
    obtain ⟨hsize, his⟩ := rest.isStructTypeProto_addStructTypes (p := p ++ [("", type)]) hlater
    refine ⟨by simp [Members.size, hsize], ?_⟩
    simpa [Members.isStructTypeProto, fieldTypeIs, T.typeProtoIs_makeTypeProto htype] using his
  | .named T rest, ((name, t), ts), _, p, h => by
    obtain ⟨type, htype, later, hlater, rfl⟩ := Members.addStructTypes_named.mp h
    obtain ⟨hsize, his⟩ :=
      rest.isStructTypeProto_addStructTypes (p := p ++ [(name, type)]) hlater
    refine ⟨by simp [Members.size, hsize], ?_⟩
    simpa [Members.isStructTypeProto, fieldTypeIs, T.typeProtoIs_makeTypeProto htype] using his

end

mutual

def CppType.fieldNames : (T : CppType) → T.Val → List String
  | .scalar _, _ => []
  | .optional T, _ => T.fieldNames T.default
  | .vector T, (v : List T.Val) => T.fieldNames (v.headD T.default)
  | .tuple Ts, ts => Ts.fieldNames ts

def Members.fieldNames : (Ts : Members) → Ts.Val → List String
  | .nil, _ => []
  | .plain T rest, (t, ts) => "" :: (T.fieldNames t ++ rest.fieldNames ts)
  | .named T rest, ((name, t), ts) => name :: (T.fieldNames t ++ rest.fieldNames ts)

end

mutual

def CppType.ElementsAgree : (T : CppType) → T.Val → Prop
  | .scalar _, _ => True
  | .optional _, _ => True
  | .vector T, (v : List T.Val) =>
    ∀ e ∈ v, T.ElementsAgree e ∧ T.fieldNames e = T.fieldNames (v.headD T.default)
  | .tuple Ts, ts => Ts.ElementsAgree ts

def Members.ElementsAgree : (Ts : Members) → Ts.Val → Prop
  | .nil, _ => True
  | .plain T rest, (t, ts) => T.ElementsAgree t ∧ rest.ElementsAgree ts
  | .named T rest, ((_, t), ts) => T.ElementsAgree t ∧ rest.ElementsAgree ts

end

mutual

theorem CppType.length_fieldNames : (T : CppType) → (a b : T.Val) →
    (T.fieldNames a).length = (T.fieldNames b).length
  | .scalar _, _, _ => rfl
  | .optional _, _, _ => rfl
  | .vector T, _, _ => T.length_fieldNames _ _
  | .tuple Ts, a, b => Ts.length_fieldNames a b

theorem Members.length_fieldNames : (Ts : Members) → (a b : Ts.Val) →
    (Ts.fieldNames a).length = (Ts.fieldNames b).length
  | .nil, _, _ => rfl
  | .plain T rest, (a, as), (b, bs) => by
    simp [Members.fieldNames, T.length_fieldNames a b, rest.length_fieldNames as bs]
  | .named T rest, ((_, a), as), ((_, b), bs) => by
    simp [Members.fieldNames, T.length_fieldNames a b, rest.length_fieldNames as bs]

end

theorem append_eq_append_iff_of_length {α : Type} {s s' t t' : List α}
    (h : s.length = s'.length) : s ++ t = s' ++ t' ↔ s = s' ∧ t = t' :=
  ⟨fun heq => List.append_inj heq h, fun ⟨hs, ht⟩ => by rw [hs, ht]⟩

mutual

theorem CppType.makeTypeProto_inj : (T : CppType) → {a b : T.Val} → {p q : SpannerType} →
    T.makeTypeProto a = .ok p → T.makeTypeProto b = .ok q →
    (p = q ↔ T.fieldNames a = T.fieldNames b)
  | .scalar _, _, _, _, _, ha, hb => by
    cases ha
    cases hb
    simp [CppType.fieldNames]
  | .optional T, _, _, _, _, ha, hb => T.makeTypeProto_inj (a := T.default) (b := T.default) ha hb
  | .vector T, a, b, _, _, ha, hb => by
    obtain ⟨p, hp, -, rfl⟩ := CppType.makeTypeProto_vector.mp ha
    obtain ⟨q, hq, -, rfl⟩ := CppType.makeTypeProto_vector.mp hb
    rw [CppType.fieldNames, CppType.fieldNames, ← T.makeTypeProto_inj hp hq]
    simp
  | .tuple Ts, a, b, _, _, ha, hb => by
    obtain ⟨p, hp, rfl⟩ := CppType.makeTypeProto_tuple.mp ha
    obtain ⟨q, hq, rfl⟩ := CppType.makeTypeProto_tuple.mp hb
    rw [CppType.fieldNames, CppType.fieldNames, ← Ts.addStructTypes_inj hp hq]
    simp

theorem Members.addStructTypes_inj : (Ts : Members) → {a b : Ts.Val} →
    {p q : List (String × SpannerType)} →
    Ts.addStructTypes a = .ok p → Ts.addStructTypes b = .ok q →
    (p = q ↔ Ts.fieldNames a = Ts.fieldNames b)
  | .nil, _, _, _, _, ha, hb => by
    cases ha
    cases hb
    simp [Members.fieldNames]
  | .plain T rest, (a, as), (b, bs), _, _, ha, hb => by
    obtain ⟨p, hp, ps, hps, rfl⟩ := Members.addStructTypes_plain.mp ha
    obtain ⟨q, hq, qs, hqs, rfl⟩ := Members.addStructTypes_plain.mp hb
    simp only [Members.fieldNames, List.cons.injEq, Prod.mk.injEq, T.makeTypeProto_inj hp hq,
      rest.addStructTypes_inj hps hqs, append_eq_append_iff_of_length (T.length_fieldNames a b),
      and_assoc]
  | .named T rest, ((name, a), as), ((name', b), bs), _, _, ha, hb => by
    obtain ⟨p, hp, ps, hps, rfl⟩ := Members.addStructTypes_named.mp ha
    obtain ⟨q, hq, qs, hqs, rfl⟩ := Members.addStructTypes_named.mp hb
    simp only [Members.fieldNames, List.cons.injEq, Prod.mk.injEq, T.makeTypeProto_inj hp hq,
      rest.addStructTypes_inj hps hqs, append_eq_append_iff_of_length (T.length_fieldNames a b),
      and_assoc]

end

theorem exists_fields_iff {makes : SpannerType → Prop}
    {makesLater : List (String × SpannerType) → Prop} {name : String} :
    (∃ fields, ∃ type, makes type ∧ ∃ later, makesLater later ∧ (name, type) :: later = fields) ↔
      (∃ type, makes type) ∧ ∃ later, makesLater later := by
  constructor
  · rintro ⟨_, type, htype, later, hlater, -⟩
    exact ⟨⟨type, htype⟩, later, hlater⟩
  · rintro ⟨⟨type, htype⟩, later, hlater⟩
    exact ⟨_, type, htype, later, hlater, rfl⟩

mutual

theorem CppType.makeTypeProto_ok_iff : (T : CppType) → {t : T.Val} →
    ((∃ type, T.makeTypeProto t = .ok type) ↔ T.ElementsAgree t)
  | .scalar _, _ => by simp [CppType.makeTypeProto, CppType.ElementsAgree]
  | .optional T, _ => by
    simpa [CppType.makeTypeProto, CppType.ElementsAgree] using T.makeTypeProto_default
  | .vector T, v => by
    rw [CppType.ElementsAgree]
    constructor
    · rintro ⟨_, h⟩ e he
      obtain ⟨type, hhead, hall, -⟩ := CppType.makeTypeProto_vector.mp h
      have htype := hall e he
      exact ⟨T.makeTypeProto_ok_iff.mp ⟨type, htype⟩, (T.makeTypeProto_inj htype hhead).mp rfl⟩
    · intro h
      have hhead :
          ∃ type, T.makeTypeProto ((show List T.Val from v).headD T.default) = .ok type := by
        cases v with
        | nil => exact T.makeTypeProto_default
        | cons e es => exact T.makeTypeProto_ok_iff.mpr (h e List.mem_cons_self).1
      obtain ⟨type, hhead⟩ := hhead
      refine ⟨_, CppType.makeTypeProto_vector.mpr ⟨type, hhead, fun e he => ?_, rfl⟩⟩
      obtain ⟨etype, hetype⟩ := T.makeTypeProto_ok_iff.mpr (h e he).1
      rw [hetype, (T.makeTypeProto_inj hetype hhead).mpr (h e he).2]
  | .tuple Ts, ts => by
    rw [CppType.ElementsAgree, ← Ts.addStructTypes_ok_iff]
    simp only [CppType.makeTypeProto_tuple]
    constructor
    · rintro ⟨_, fields, hfields, -⟩
      exact ⟨fields, hfields⟩
    · rintro ⟨fields, hfields⟩
      exact ⟨_, fields, hfields, rfl⟩

theorem Members.addStructTypes_ok_iff : (Ts : Members) → {ts : Ts.Val} →
    ((∃ fields, Ts.addStructTypes ts = .ok fields) ↔ Ts.ElementsAgree ts)
  | .nil, _ => by simp [Members.addStructTypes, Members.ElementsAgree]
  | .plain T rest, (t, ts) => by
    rw [Members.ElementsAgree, ← T.makeTypeProto_ok_iff, ← rest.addStructTypes_ok_iff]
    simp only [Members.addStructTypes_plain, exists_fields_iff]
  | .named T rest, ((name, t), ts) => by
    rw [Members.ElementsAgree, ← T.makeTypeProto_ok_iff, ← rest.addStructTypes_ok_iff]
    simp only [Members.addStructTypes_named, exists_fields_iff]

end

end SpannerClient
