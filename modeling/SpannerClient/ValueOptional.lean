import SpannerClient.ValueReflexive

namespace SpannerClient

open Protobuf (SpannerType TypeCode)

mutual

inductive Context
  | hole
  | optional (C : Context)
  | vector (C : Context)
  | tuple (Cs : MemberContext)

inductive MemberContext
  | plain (C : Context) (rest : Members)
  | named (C : Context) (rest : Members)
  | afterPlain (T : CppType) (Cs : MemberContext)
  | afterNamed (T : CppType) (Cs : MemberContext)

end

mutual

@[reducible] def Context.fill : Context → CppType → CppType
  | .hole, T => T
  | .optional C, T => .optional (C.fill T)
  | .vector C, T => .vector (C.fill T)
  | .tuple Cs, T => .tuple (Cs.fill T)

@[reducible] def MemberContext.fill : MemberContext → CppType → Members
  | .plain C rest, T => .plain (C.fill T) rest
  | .named C rest, T => .named (C.fill T) rest
  | .afterPlain S Cs, T => .plain S (Cs.fill T)
  | .afterNamed S Cs, T => .named S (Cs.fill T)

end

mutual

def Context.wrap : (C : Context) → (T : CppType) → (C.fill T).Val → (C.fill (.optional T)).Val
  | .hole, _, t => some t
  | .optional C, T, t => (show Option (C.fill T).Val from t).map (C.wrap T)
  | .vector C, T, ts => (show List (C.fill T).Val from ts).map (C.wrap T)
  | .tuple Cs, T, ts => Cs.wrap T ts

def MemberContext.wrap : (Cs : MemberContext) → (T : CppType) → (Cs.fill T).Val →
    (Cs.fill (.optional T)).Val
  | .plain C _, T, (t, ts) => (C.wrap T t, ts)
  | .named C _, T, ((name, t), ts) => ((name, C.wrap T t), ts)
  | .afterPlain _ Cs, T, (t, ts) => (t, Cs.wrap T ts)
  | .afterNamed _ Cs, T, ((name, t), ts) => ((name, t), Cs.wrap T ts)

end

mutual

/-- No `T` in the value shows a field name in the type, but for those that are inside another
optional already. -/
def Context.Unnamed : (C : Context) → (T : CppType) → (C.fill T).Val → Prop
  | .hole, T, t => ∀ name ∈ T.fieldNames t, name = ""
  | .optional _, _, _ => True
  | .vector C, T, ts => ∀ t ∈ (show List (C.fill T).Val from ts), C.Unnamed T t
  | .tuple Cs, T, ts => Cs.Unnamed T ts

def MemberContext.Unnamed : (Cs : MemberContext) → (T : CppType) → (Cs.fill T).Val → Prop
  | .plain C _, T, (t, _) => C.Unnamed T t
  | .named C _, T, ((_, t), _) => C.Unnamed T t
  | .afterPlain _ Cs, T, (_, ts) => Cs.Unnamed T ts
  | .afterNamed _ Cs, T, ((_, _), ts) => Cs.Unnamed T ts

end

mutual

def Context.retype (d : SpannerType) : Context → SpannerType → SpannerType
  | .hole, _ => d
  | .optional _, p => p
  | .vector C, .mk code (some elementType) fields =>
    .mk code (some (C.retype d elementType)) fields
  | .vector _, .mk code none fields => .mk code none fields
  | .tuple Cs, .mk code elementType fields => .mk code elementType (Cs.retype d fields)

def MemberContext.retype (d : SpannerType) :
    MemberContext → List (String × SpannerType) → List (String × SpannerType)
  | _, [] => []
  | .plain C _, (name, p) :: fields => (name, C.retype d p) :: fields
  | .named C _, (name, p) :: fields => (name, C.retype d p) :: fields
  | .afterPlain _ Cs, field :: fields => field :: Cs.retype d fields
  | .afterNamed _ Cs, field :: fields => field :: Cs.retype d fields

end

mutual

theorem Context.makeValueProto_wrap : (C : Context) → (T : CppType) → (t : (C.fill T).Val) →
    (C.fill (.optional T)).makeValueProto (C.wrap T t) = (C.fill T).makeValueProto t
  | .hole, T, t => rfl
  | .optional C, T, none => rfl
  | .optional C, T, some t => C.makeValueProto_wrap T t
  | .vector C, T, ts => by
    have ih := C.makeValueProto_wrap T
    simp only [Context.wrap, CppType.makeValueProto, List.map_map]
    exact congrArg _ (List.map_congr_left fun t _ => ih t)
  | .tuple Cs, T, ts => congrArg _ (Cs.addStructValues_wrap T ts)

theorem MemberContext.addStructValues_wrap : (Cs : MemberContext) → (T : CppType) →
    (ts : (Cs.fill T).Val) →
    (Cs.fill (.optional T)).addStructValues (Cs.wrap T ts) = (Cs.fill T).addStructValues ts
  | .plain C _, T, (t, _) => congrArg (· :: _) (C.makeValueProto_wrap T t)
  | .named C _, T, ((_, t), _) => congrArg (· :: _) (C.makeValueProto_wrap T t)
  | .afterPlain _ Cs, T, (_, ts) => congrArg (_ :: ·) (Cs.addStructValues_wrap T ts)
  | .afterNamed _ Cs, T, ((_, _), ts) => congrArg (_ :: ·) (Cs.addStructValues_wrap T ts)

end

mutual

theorem Context.makeTypeProto_default : (C : Context) → (T : CppType) →
    (C.fill (.optional T)).makeTypeProto (C.fill (.optional T)).default =
      (C.fill T).makeTypeProto (C.fill T).default
  | .hole, _ => rfl
  | .optional C, T => C.makeTypeProto_default T
  | .vector C, T => by
    have ih := C.makeTypeProto_default T
    simp only [CppType.makeTypeProto, CppType.default, List.headD_nil, ih, checkElements]
  | .tuple Cs, T => by
    have ih := Cs.addStructTypes_default T
    simp only [CppType.makeTypeProto, CppType.default, ih]

theorem MemberContext.addStructTypes_default : (Cs : MemberContext) → (T : CppType) →
    (Cs.fill (.optional T)).addStructTypes (Cs.fill (.optional T)).default =
      (Cs.fill T).addStructTypes (Cs.fill T).default
  | .plain C _, T => by
    have ih := C.makeTypeProto_default T
    simp only [Members.addStructTypes, Members.default, ih]
  | .named C _, T => by
    have ih := C.makeTypeProto_default T
    simp only [Members.addStructTypes, Members.default, ih]
  | .afterPlain _ Cs, T => by
    have ih := Cs.addStructTypes_default T
    simp only [Members.addStructTypes, Members.default, ih]
  | .afterNamed _ Cs, T => by
    have ih := Cs.addStructTypes_default T
    simp only [Members.addStructTypes, Members.default, ih]

end

mutual

theorem Context.retype_default : (C : Context) → {T : CppType} → {d p : SpannerType} →
    T.makeTypeProto T.default = .ok d →
    (C.fill T).makeTypeProto (C.fill T).default = .ok p → C.retype d p = p
  | .hole, _, _, _, hd, hp => Except.ok.inj (hd.symm.trans hp)
  | .optional _, _, _, _, _, _ => rfl
  | .vector C, _, _, _, hd, hp => by
    obtain ⟨elementType, hhead, -, rfl⟩ := CppType.makeTypeProto_vector.mp hp
    rw [Context.retype, C.retype_default hd hhead]
  | .tuple Cs, _, _, _, hd, hp => by
    obtain ⟨fields, hfields, rfl⟩ := CppType.makeTypeProto_tuple.mp hp
    rw [Context.retype, Cs.retype_default hd hfields]

theorem MemberContext.retype_default : (Cs : MemberContext) → {T : CppType} → {d : SpannerType} →
    {fields : List (String × SpannerType)} → T.makeTypeProto T.default = .ok d →
    (Cs.fill T).addStructTypes (Cs.fill T).default = .ok fields → Cs.retype d fields = fields
  | .plain C _, _, _, _, hd, h => by
    obtain ⟨type, htype, later, -, rfl⟩ := Members.addStructTypes_plain.mp h
    rw [MemberContext.retype, C.retype_default hd htype]
  | .named C _, _, _, _, hd, h => by
    obtain ⟨type, htype, later, -, rfl⟩ := Members.addStructTypes_named.mp h
    rw [MemberContext.retype, C.retype_default hd htype]
  | .afterPlain _ Cs, _, _, _, hd, h => by
    obtain ⟨type, -, later, hlater, rfl⟩ := Members.addStructTypes_plain.mp h
    rw [MemberContext.retype, Cs.retype_default hd hlater]
  | .afterNamed _ Cs, _, _, _, hd, h => by
    obtain ⟨type, -, later, hlater, rfl⟩ := Members.addStructTypes_named.mp h
    rw [MemberContext.retype, Cs.retype_default hd hlater]

end

mutual

theorem Context.makeTypeProto_wrap : (C : Context) → {T : CppType} → {t : (C.fill T).Val} →
    {d p : SpannerType} → T.makeTypeProto T.default = .ok d →
    (C.fill T).makeTypeProto t = .ok p →
    (C.fill (.optional T)).makeTypeProto (C.wrap T t) = .ok (C.retype d p)
  | .hole, _, _, _, _, hd, _ => hd
  | .optional C, T, _, _, _, _, hp => (C.makeTypeProto_default T).trans hp
  | .vector C, T, ts, d, _, hd, hp => by
    obtain ⟨elementType, hhead, hall, rfl⟩ := CppType.makeTypeProto_vector.mp hp
    refine CppType.makeTypeProto_vector.mpr ⟨C.retype d elementType, ?_, ?_, rfl⟩
    · cases ts with
      | nil =>
        have hsame := C.retype_default hd hhead
        rw [hsame]
        exact (C.makeTypeProto_default T).trans hhead
      | cons t ts => exact C.makeTypeProto_wrap hd hhead
    · intro e he
      obtain ⟨t, ht, rfl⟩ := List.mem_map.mp he
      exact C.makeTypeProto_wrap hd (hall t ht)
  | .tuple Cs, _, _, _, _, hd, hp => by
    obtain ⟨fields, hfields, rfl⟩ := CppType.makeTypeProto_tuple.mp hp
    exact CppType.makeTypeProto_tuple.mpr ⟨_, Cs.addStructTypes_wrap hd hfields, rfl⟩

theorem MemberContext.addStructTypes_wrap : (Cs : MemberContext) → {T : CppType} →
    {ts : (Cs.fill T).Val} → {d : SpannerType} → {fields : List (String × SpannerType)} →
    T.makeTypeProto T.default = .ok d → (Cs.fill T).addStructTypes ts = .ok fields →
    (Cs.fill (.optional T)).addStructTypes (Cs.wrap T ts) = .ok (Cs.retype d fields)
  | .plain C _, _, (_, _), _, _, hd, h => by
    obtain ⟨type, htype, later, hlater, rfl⟩ := Members.addStructTypes_plain.mp h
    exact Members.addStructTypes_plain.mpr ⟨_, C.makeTypeProto_wrap hd htype, _, hlater, rfl⟩
  | .named C _, _, ((_, _), _), _, _, hd, h => by
    obtain ⟨type, htype, later, hlater, rfl⟩ := Members.addStructTypes_named.mp h
    exact Members.addStructTypes_named.mpr ⟨_, C.makeTypeProto_wrap hd htype, _, hlater, rfl⟩
  | .afterPlain _ Cs, _, (_, _), _, _, hd, h => by
    obtain ⟨type, htype, later, hlater, rfl⟩ := Members.addStructTypes_plain.mp h
    exact Members.addStructTypes_plain.mpr ⟨_, htype, _, Cs.addStructTypes_wrap hd hlater, rfl⟩
  | .afterNamed _ Cs, _, ((_, _), _), _, _, hd, h => by
    obtain ⟨type, htype, later, hlater, rfl⟩ := Members.addStructTypes_named.mp h
    exact Members.addStructTypes_named.mpr ⟨_, htype, _, Cs.addStructTypes_wrap hd hlater, rfl⟩

end

mutual

theorem CppType.fieldNames_default : (T : CppType) → ∀ name ∈ T.fieldNames T.default, name = ""
  | .scalar _ => by simp [CppType.fieldNames]
  | .optional T => T.fieldNames_default
  | .vector T => T.fieldNames_default
  | .tuple Ts => Ts.fieldNames_default

theorem Members.fieldNames_default : (Ts : Members) →
    ∀ name ∈ Ts.fieldNames Ts.default, name = ""
  | .nil => by simp [Members.fieldNames]
  | .plain T rest => by
    have ih := T.fieldNames_default
    have ihs := rest.fieldNames_default
    simp only [Members.default, Members.fieldNames, List.forall_mem_cons, List.forall_mem_append,
      true_and]
    exact ⟨ih, ihs⟩
  | .named T rest => by
    have ih := T.fieldNames_default
    have ihs := rest.fieldNames_default
    simp only [Members.default, Members.fieldNames, List.forall_mem_cons, List.forall_mem_append,
      true_and]
    exact ⟨ih, ihs⟩

end

theorem CppType.fieldNames_default_eq {T : CppType} {t : T.Val} :
    T.fieldNames T.default = T.fieldNames t ↔ ∀ name ∈ T.fieldNames t, name = "" := by
  have hdefault := T.fieldNames_default
  constructor
  · intro h
    rwa [← h]
  · intro h
    rw [List.eq_replicate_of_mem hdefault, List.eq_replicate_of_mem h, T.length_fieldNames _ t]

mutual

theorem Context.retype_eq_iff : (C : Context) → {T : CppType} → {t : (C.fill T).Val} →
    {d p : SpannerType} → T.makeTypeProto T.default = .ok d →
    (C.fill T).makeTypeProto t = .ok p → (C.retype d p = p ↔ C.Unnamed T t)
  | .hole, T, _, _, _, hd, hp => (T.makeTypeProto_inj hd hp).trans CppType.fieldNames_default_eq
  | .optional _, _, _, _, _, _, _ => by simp [Context.retype, Context.Unnamed]
  | .vector C, T, ts, d, _, hd, hp => by
    obtain ⟨elementType, hhead, hall, rfl⟩ := CppType.makeTypeProto_vector.mp hp
    have ih : ∀ t ∈ ts, (C.retype d elementType = elementType ↔ C.Unnamed T t) :=
      fun t ht => C.retype_eq_iff hd (hall t ht)
    simp only [Context.retype, Context.Unnamed, SpannerType.mk.injEq, Option.some.injEq, true_and,
      and_true]
    cases ts with
    | nil => simpa using C.retype_default hd hhead
    | cons t ts =>
      constructor
      · intro h t' ht'
        exact (ih t' ht').mp h
      · intro h
        exact (ih t List.mem_cons_self).mpr (h t List.mem_cons_self)
  | .tuple Cs, _, _, _, _, hd, hp => by
    obtain ⟨fields, hfields, rfl⟩ := CppType.makeTypeProto_tuple.mp hp
    have ih := Cs.retype_eq_iff hd hfields
    simpa [Context.retype, Context.Unnamed] using ih

theorem MemberContext.retype_eq_iff : (Cs : MemberContext) → {T : CppType} →
    {ts : (Cs.fill T).Val} → {d : SpannerType} → {fields : List (String × SpannerType)} →
    T.makeTypeProto T.default = .ok d → (Cs.fill T).addStructTypes ts = .ok fields →
    (Cs.retype d fields = fields ↔ Cs.Unnamed T ts)
  | .plain C _, _, (_, _), _, _, hd, h => by
    obtain ⟨type, htype, later, hlater, rfl⟩ := Members.addStructTypes_plain.mp h
    simpa [MemberContext.retype, MemberContext.Unnamed] using C.retype_eq_iff hd htype
  | .named C _, _, ((_, _), _), _, _, hd, h => by
    obtain ⟨type, htype, later, hlater, rfl⟩ := Members.addStructTypes_named.mp h
    simpa [MemberContext.retype, MemberContext.Unnamed] using C.retype_eq_iff hd htype
  | .afterPlain _ Cs, _, (_, _), _, _, hd, h => by
    obtain ⟨type, htype, later, hlater, rfl⟩ := Members.addStructTypes_plain.mp h
    simpa [MemberContext.retype, MemberContext.Unnamed] using Cs.retype_eq_iff hd hlater
  | .afterNamed _ Cs, _, ((_, _), _), _, _, hd, h => by
    obtain ⟨type, htype, later, hlater, rfl⟩ := Members.addStructTypes_named.mp h
    simpa [MemberContext.retype, MemberContext.Unnamed] using Cs.retype_eq_iff hd hlater

end

/-- A value and the same value with an optional put in carry the same protos, and compare equal,
exactly if no field name is lost and the value is equal to itself. -/
theorem Context.optional_transparent_iff (C : Context) (T : CppType) (t : (C.fill T).Val) :
    (∃ v w, Value.of (C.fill T) t = .ok v ∧ Value.of (C.fill (.optional T)) (C.wrap T t) = .ok w ∧
      w.type = v.type ∧ w.value = v.value ∧ w.eq v = true) ↔
    (C.fill T).ElementsAgree t ∧ C.Unnamed T t ∧
      (C.fill T).All Scalar.NotNaN t ∧ (C.fill T).NoNullStruct t := by
  obtain ⟨d, hd⟩ := T.makeTypeProto_default
  constructor
  · rintro ⟨v, w, hv, hw, htype, hvalue, heq⟩
    obtain ⟨hvtype, -⟩ := Value.of_eq_ok.mp hv
    obtain ⟨hwtype, -⟩ := Value.of_eq_ok.mp hw
    have hretype := Except.ok.inj ((C.makeTypeProto_wrap hd hvtype).symm.trans hwtype)
    rw [htype] at hretype
    have hsame : w = v := by
      obtain ⟨type, value⟩ := v
      obtain ⟨type', value'⟩ := w
      exact congrArg₂ Value.mk htype hvalue
    rw [hsame] at heq
    exact ⟨(C.fill T).makeTypeProto_ok_iff.mp ⟨_, hvtype⟩, (C.retype_eq_iff hd hvtype).mp hretype,
      (Value.eq_self_iff hv).mp heq⟩
  · rintro ⟨helements, hunnamed, hself⟩
    obtain ⟨p, hp⟩ := (C.fill T).makeTypeProto_ok_iff.mpr helements
    have hv : Value.of (C.fill T) t = .ok ⟨p, (C.fill T).makeValueProto t⟩ :=
      Value.of_eq_ok.mpr ⟨hp, rfl⟩
    have hwtype := C.makeTypeProto_wrap hd hp
    rw [(C.retype_eq_iff hd hp).mpr hunnamed] at hwtype
    exact ⟨_, _, hv, Value.of_eq_ok.mpr ⟨hwtype, C.makeValueProto_wrap T t⟩, rfl, rfl,
      (Value.eq_self_iff hv).mpr hself⟩

/-- The name of a field is lost in an optional struct, which is then not equal to the struct. -/
theorem optional_namedStruct_name_lost :
    ∃ v w, Value.of (.tuple (.named (.scalar .int64) .nil)) (("a", (1 : Int64)), ()) = .ok v ∧
      Value.of (.optional (.tuple (.named (.scalar .int64) .nil)))
        (some (("a", (1 : Int64)), ())) = .ok w ∧
      w.type ≠ v.type ∧ w.eq v = false :=
  ⟨_, _, rfl, rfl, by decide, by decide⟩

end SpannerClient
