import SpannerClient.ValueTypes
import SpannerClient.TimestampRoundTrip

namespace SpannerClient

open Protobuf (SpannerType)

namespace Scalar

def Encodable : (s : Scalar) → s.Val → Prop
  | .double, (d : Protobuf.Double) => d.isNaN = false
  | .timestamp, (ts : Timestamp) =>
    Timestamp.printableMin ≤ ts.sec ∧ ts.sec ≤ Timestamp.printableMax
  | .bool, _ | .int64, _ | .string, _ | .bytes, _ | .commitTimestamp, _ | .date, _ => True

theorem parseInt64_signed (i : Int64) :
    parseInt64 (String.ofList (Decimal.signed i.toInt)) = .ok i := by
  have hmin := i.le_toInt
  have hmax := i.toInt_lt
  have hrange : ¬(i.toInt < int64Min ∨ int64Max < i.toInt) := by
    rw [int64Min, int64Max]
    omega
  rw [parseInt64, CString.ofString_ofList (CString.nul_not_mem_signed _),
    CString.scanInteger_signed]
  simp only [hrange, if_false, ne_eq, not_true_eq_false, Int64.ofInt_toInt]

theorem getDouble_doubleProto {d : Protobuf.Double} (h : d.isNaN = false) :
    getDouble (doubleProto d) = .ok d := by
  rw [doubleProto, h, if_neg (by decide)]
  by_cases hneg : d = .negInfinity
  · subst hneg
    rfl
  · by_cases hinf : d = .infinity
    · subst hinf
      rfl
    · simp [Protobuf.Double.isInf, hneg, hinf, getDouble]

theorem stringOr_bind {α : Type} (message text : String) (f : String → StatusOr α) :
    (stringOr message (.stringValue text) >>= f) = f text := rfl

theorem getValue_makeValueProto (s : Scalar) {t : s.Val} (h : s.Encodable t) :
    s.getValue (s.makeValueProto t) = .ok t := by
  cases s with
  | bool => rfl
  | int64 => exact (stringOr_bind _ _ _).trans (parseInt64_signed t)
  | double => exact getDouble_doubleProto h
  | string => rfl
  | bytes => exact (stringOr_bind _ _ _).trans (bytesFromBase64_toBase64 t)
  | timestamp => exact (stringOr_bind _ _ _).trans (Timestamp.fromRFC3339_toRFC3339 t h)
  | commitTimestamp => rfl
  | date => exact (stringOr_bind _ _ _).trans (Internal.dateFromString_toString t)

end Scalar

theorem getElements_map {α : Type} (getValue : Protobuf.Value → Bounded (StatusOr α))
    (make : α → Protobuf.Value) (v : List α) :
    getElements getValue (v.map make) = some (.ok v) ↔
      ∀ t ∈ v, getValue (make t) = some (.ok t) := by
  induction v with
  | nil => simp [getElements]
  | cons t v ih =>
    rw [List.map_cons, getElements, List.forall_mem_cons, ← ih]
    cases hget : getValue (make t) with
    | none => simp
    | some value =>
      cases value with
      | error failure => simp
      | ok u =>
        cases getElements getValue (v.map make) with
        | none => simp
        | some rest => cases rest <;> simp [Except.map]

theorem extractMember_ok {α : Type} {getValue : Protobuf.Value → Bounded (StatusOr α)}
    {member t : α} {status : Option Failure} {i : Nat} {values : List Protobuf.Value} :
    extractMember getValue member status i values = some (t, none) ↔
      values[i]?.bind getValue = some (.ok t) ∧ status = none := by
  rw [extractMember]
  cases values[i]?.bind getValue with
  | none => simp
  | some value => cases value <;> simp

namespace Members

variable {T : CppType} {rest : Members} {status : Option Failure} {i : Nat}
  {values : List Protobuf.Value} {type : SpannerType} {t : T.Val} {ts : rest.Val} {name : String}

theorem extract_plain_iff :
    (Members.plain T rest).extractTupleValues status i values type = some ((t, ts), none) ↔
      ∃ later, extractMember (T.getValue · type) T.default status i values = some (t, later) ∧
        rest.extractTupleValues later (i + 1) values type = some (ts, none) := by
  simp only [extractTupleValues, Option.bind_eq_bind, Option.bind_eq_some_iff, Prod.exists,
    Option.some.injEq, Prod.mk.injEq]
  constructor
  · rintro ⟨_, later, hmember, _, _, hrest, ⟨rfl, rfl⟩, rfl⟩
    exact ⟨later, hmember, hrest⟩
  · rintro ⟨later, hmember, hrest⟩
    exact ⟨t, later, hmember, ts, none, hrest, ⟨rfl, rfl⟩, rfl⟩

theorem extract_named_iff :
    (Members.named T rest).extractTupleValues status i values type =
        some (((name, t), ts), none) ↔
      type.fields[i]?.map Prod.fst = some name ∧
      ∃ later, extractMember (T.getValue · type) T.default status i values = some (t, later) ∧
        rest.extractTupleValues later (i + 1) values type = some (ts, none) := by
  simp only [extractTupleValues, Option.bind_eq_bind, Option.bind_eq_some_iff, Prod.exists,
    Option.some.injEq, Prod.mk.injEq, Option.map_eq_some_iff, exists_and_right, exists_eq_right]
  constructor
  · rintro ⟨_, ⟨_, hname⟩, _, later, hmember, _, _, hrest, ⟨⟨rfl, rfl⟩, rfl⟩, rfl⟩
    exact ⟨⟨_, hname⟩, later, hmember, hrest⟩
  · rintro ⟨⟨_, hname⟩, later, hmember, hrest⟩
    exact ⟨name, ⟨_, hname⟩, t, later, hmember, ts, none, hrest, ⟨⟨rfl, rfl⟩, rfl⟩, rfl⟩

theorem status_of_extract : (Ts : Members) → {status : Option Failure} → {i : Nat} →
    {values : List Protobuf.Value} → {type : SpannerType} → {ts : Ts.Val} →
    Ts.extractTupleValues status i values type = some (ts, none) → status = none
  | .nil, _, _, _, _, _, h => by simpa [extractTupleValues] using h
  | .plain _ rest, _, _, _, _, (_, _), h => by
    obtain ⟨later, hmember, hrest⟩ := extract_plain_iff.mp h
    rw [status_of_extract rest hrest] at hmember
    exact (extractMember_ok.mp hmember).2
  | .named _ rest, _, _, _, _, ((_, _), _), h => by
    obtain ⟨-, later, hmember, hrest⟩ := extract_named_iff.mp h
    rw [status_of_extract rest hrest] at hmember
    exact (extractMember_ok.mp hmember).2

theorem extractMember_and_extract :
    (∃ later, extractMember (T.getValue · type) T.default none i values = some (t, later) ∧
      rest.extractTupleValues later (i + 1) values type = some (ts, none)) ↔
      values[i]?.bind (T.getValue · type) = some (.ok t) ∧
        rest.extractTupleValues none (i + 1) values type = some (ts, none) := by
  constructor
  · rintro ⟨later, hmember, hrest⟩
    obtain rfl := status_of_extract rest hrest
    exact ⟨(extractMember_ok.mp hmember).1, hrest⟩
  · rintro ⟨hmember, hrest⟩
    exact ⟨none, extractMember_ok.mpr ⟨hmember, rfl⟩, hrest⟩

end Members

mutual

def CppType.NamesRead : (T : CppType) → (names : List String) → T.Val → Prop
  | .scalar _, _, _ => True
  | .optional T, names, (o : Option T.Val) => ∀ t ∈ o, T.NamesRead names t
  | .vector T, _, (ts : List T.Val) => ∀ t ∈ ts, T.NamesRead [] t
  | .tuple Ts, names, ts => Ts.NamesRead names 0 ts

def Members.NamesRead : (Ts : Members) → (names : List String) → (i : Nat) → Ts.Val → Prop
  | .nil, _, _, _ => True
  | .plain T rest, names, i, (t, ts) => T.NamesRead names t ∧ rest.NamesRead names (i + 1) ts
  | .named T rest, names, i, ((name, t), ts) =>
    names[i]? = some name ∧ T.NamesRead names t ∧ rest.NamesRead names (i + 1) ts

end

def ownNames (type : SpannerType) : List String := type.fields.map Prod.fst

mutual

/-- The grammar of types for which values are meant to come back. -/
def CppType.Supported : CppType → Prop
  | .scalar _ => True
  | .optional T => T.isScalar
  | .vector T => T.isVector = false ∧ T.Supported
  | .tuple Ts => Ts.Supported

def Members.Supported : Members → Prop
  | .nil => True
  | .plain T rest | .named T rest => T.Supported ∧ rest.Supported

end

theorem Scalar.kindCase_makeValueProto (s : Scalar) (t : s.Val) :
    (s.makeValueProto t).kindCase ≠ .nullValue := by
  cases s with
  | double =>
    rw [makeValueProto, doubleProto]
    split_ifs <;> simp [Protobuf.Value.kindCase]
  | _ => simp [makeValueProto, Protobuf.Value.kindCase]

mutual

theorem CppType.getValue_makeValueProto : (T : CppType) → {type : SpannerType} → {t : T.Val} →
    T.Supported → T.All Scalar.Encodable t → type.arrayElementType = .unset →
    (T.getValue (T.makeValueProto t) type = some (.ok t) ↔ T.NamesRead (ownNames type) t)
  | .scalar s, type, t, _, h, _ => by
    simp [CppType.getValue, CppType.makeValueProto, CppType.NamesRead,
      s.getValue_makeValueProto h]
  | .optional (.scalar s), type, none, hT, h, _ => by
    simp [CppType.getValue, CppType.makeValueProto, CppType.NamesRead, Protobuf.Value.kindCase]
  | .optional (.scalar s), type, some t, hT, h, _ => by
    simp [CppType.getValue, CppType.makeValueProto, CppType.NamesRead,
      s.kindCase_makeValueProto, s.getValue_makeValueProto (h t rfl), Except.map]
  | .vector T, type, ts, hT, h, hunset => by
    have ih : ∀ t ∈ (show List T.Val from ts),
        (T.getValue (T.makeValueProto t) .unset = some (.ok t) ↔ T.NamesRead [] t) :=
      fun t ht => T.getValue_makeValueProto hT.2 (h t ht) rfl
    rw [CppType.makeValueProto, CppType.getValue, CppType.NamesRead, hunset, getElements_map]
    exact forall₂_congr ih
  | .tuple Ts, type, ts, hT, h, hunset => by
    have ih := Ts.extract_addStructValues (i := 0) hT h hunset rfl
    rw [CppType.NamesRead, ← ih, CppType.makeValueProto, CppType.getValue]
    cases Ts.extractTupleValues none 0 (Ts.addStructValues ts) type with
    | none => simp
    | some result =>
      obtain ⟨tup, status⟩ := result
      cases status <;> simp

theorem Members.extract_addStructValues : (Ts : Members) → {type : SpannerType} → {ts : Ts.Val} →
    {i : Nat} → {values : List Protobuf.Value} → Ts.Supported →
    Ts.All Scalar.Encodable ts → type.arrayElementType = .unset →
    values.drop i = Ts.addStructValues ts →
    (Ts.extractTupleValues none i values type = some (ts, none) ↔
      Ts.NamesRead (ownNames type) i ts)
  | .nil, type, ts, i, values, hT, h, hunset, hvalues => by
    simp [Members.extractTupleValues, Members.NamesRead]
  | .plain T rest, type, (t, ts), i, values, hT, h, hunset, hvalues => by
    have hhead : values[i]? = some (T.makeValueProto t) := by
      rw [← List.head?_drop, hvalues]
      rfl
    have htail : values.drop (i + 1) = rest.addStructValues ts := by
      rw [← List.tail_drop, hvalues]
      rfl
    rw [Members.extract_plain_iff, Members.extractMember_and_extract, hhead, Option.bind_some,
      T.getValue_makeValueProto hT.1 h.1 hunset, rest.extract_addStructValues hT.2 h.2 hunset htail,
      Members.NamesRead]
  | .named T rest, type, ((name, t), ts), i, values, hT, h, hunset, hvalues => by
    have hhead : values[i]? = some (T.makeValueProto t) := by
      rw [← List.head?_drop, hvalues]
      rfl
    have htail : values.drop (i + 1) = rest.addStructValues ts := by
      rw [← List.tail_drop, hvalues]
      rfl
    rw [Members.extract_named_iff, Members.extractMember_and_extract, hhead, Option.bind_some,
      T.getValue_makeValueProto hT.1 h.1 hunset, rest.extract_addStructValues hT.2 h.2 hunset htail,
      Members.NamesRead, ownNames, List.getElem?_map]

end

def Members.memberNames : (Ts : Members) → Ts.Val → List String
  | .nil, _ => []
  | .plain _ rest, (_, ts) => "" :: rest.memberNames ts
  | .named _ rest, ((name, _), ts) => name :: rest.memberNames ts

theorem Members.ownNames_addStructTypes : (Ts : Members) → {ts : Ts.Val} →
    {fields : List (String × SpannerType)} → Ts.addStructTypes ts = .ok fields →
    fields.map Prod.fst = Ts.memberNames ts
  | .nil, _, _, h => by
    cases h
    rfl
  | .plain T rest, (t, ts), _, h => by
    obtain ⟨type, htype, fields, hfields, rfl⟩ := Members.addStructTypes_plain.mp h
    rw [List.map_cons, rest.ownNames_addStructTypes hfields, Members.memberNames]
  | .named T rest, ((name, t), ts), _, h => by
    obtain ⟨type, htype, fields, hfields, rfl⟩ := Members.addStructTypes_named.mp h
    rw [List.map_cons, rest.ownNames_addStructTypes hfields, Members.memberNames]

namespace CppType

/-- A struct below this one finds its names here, at the same positions. -/
def ReadsOwnNames : (T : CppType) → T.Val → Prop
  | .tuple Ts, ts => Ts.NamesRead (Ts.memberNames ts) 0 ts
  | .scalar _, _ | .optional _, _ | .vector _, _ => True

/-- Every name comes back: where a struct lies in another one without a vector between them,
its members are named as those of the outermost struct are at the same positions; below a
vector in a struct, no member is named. -/
def KeepsNames : (T : CppType) → T.Val → Prop
  | .vector T, (v : List T.Val) => ∀ t ∈ v, T.ReadsOwnNames t
  | .tuple Ts, ts => (CppType.tuple Ts).ReadsOwnNames ts
  | .scalar _, _ | .optional _, _ => True

theorem getValue_own {T : CppType} {t : T.Val} {type : SpannerType} (hT : T.Supported)
    (hvector : T.isVector = false) (h : T.All Scalar.Encodable t)
    (htype : T.makeTypeProto t = .ok type) :
    T.getValue (T.makeValueProto t) type = some (.ok t) ↔ T.ReadsOwnNames t := by
  cases T with
  | scalar s =>
    cases htype
    rw [getValue_makeValueProto _ hT h rfl, NamesRead, ReadsOwnNames]
  | optional T =>
    cases T with
    | scalar s =>
      cases htype
      rw [getValue_makeValueProto _ hT h rfl]
      simp [NamesRead, ReadsOwnNames]
    | _ => exact absurd hT (by simp [Supported, isScalar])
  | vector T => exact absurd hvector (by simp [isVector])
  | tuple Ts =>
    obtain ⟨fields, hfields, rfl⟩ := makeTypeProto_tuple.mp htype
    rw [getValue_makeValueProto _ hT h rfl, NamesRead, ReadsOwnNames,
      ← Ts.ownNames_addStructTypes hfields]
    rfl

theorem kindCase_makeValueProto {T : CppType} (h : T.isOptional = false) (t : T.Val) :
    (T.makeValueProto t).kindCase ≠ .nullValue := by
  cases T with
  | scalar s => exact s.kindCase_makeValueProto t
  | optional T => exact absurd h (by simp [isOptional])
  | vector T => simp [makeValueProto, Protobuf.Value.kindCase]
  | tuple Ts => simp [makeValueProto, Protobuf.Value.kindCase]

theorem getValue_constructed {T : CppType} {t : T.Val} {type : SpannerType} (hT : T.Supported)
    (h : T.All Scalar.Encodable t) (htype : T.makeTypeProto t = .ok type) :
    T.getValue (T.makeValueProto t) type = some (.ok t) ↔ T.KeepsNames t := by
  cases T with
  | scalar s =>
    rw [getValue_own hT rfl h htype]
    rfl
  | optional T =>
    rw [getValue_own hT rfl h htype]
    rfl
  | vector T =>
    obtain ⟨elementType, -, hall, rfl⟩ := makeTypeProto_vector.mp htype
    rw [makeValueProto, getValue, getElements_map]
    exact forall₂_congr fun e he => getValue_own hT.2 hT.1 (h e he) (hall e he)
  | tuple Ts => exact getValue_own hT rfl h htype

theorem get_of_iff_keepsNames {T : CppType} (hT : T.Supported) {t : T.Val}
    (h : T.All Scalar.Encodable t) (hnames : T.ElementsAgree t) :
    (∃ v, Value.of T t = .ok v ∧ v.get T = some (.ok t)) ↔ T.KeepsNames t := by
  obtain ⟨type, htype⟩ := T.makeTypeProto_ok_iff.mpr hnames
  have hof : Value.of T t = .ok ⟨type, T.makeValueProto t⟩ := by
    rw [Value.of, htype]
    rfl
  have hget : (∃ v, Value.of T t = .ok v ∧ v.get T = some (.ok t)) ↔
      Value.get ⟨type, T.makeValueProto t⟩ T = some (.ok t) := by
    simp [hof]
  rw [hget, Value.get, T.typeProtoIs_makeTypeProto htype, ← getValue_constructed hT h htype]
  cases T with
  | optional T =>
    cases t with
    | none => simp [makeValueProto, Protobuf.Value.kindCase, isOptional, default, getValue]
    | some t =>
      cases T with
      | scalar s => simp [makeValueProto, s.kindCase_makeValueProto]
      | _ => exact absurd hT (by simp [Supported, isScalar])
  | scalar s => simp only [kindCase_makeValueProto (T := .scalar s) rfl, if_false]
  | vector T => simp only [kindCase_makeValueProto (T := .vector T) rfl, if_false]
  | tuple Ts => simp only [kindCase_makeValueProto (T := .tuple Ts) rfl, if_false]

def flatStruct : CppType :=
  .tuple (.plain (.scalar .bool) (.named (.scalar .int64) .nil))

def flatValue : flatStruct.Val := (true, ("Foo", (42 : Int64)), ())

theorem get_of_flatValue :
    ∃ v, Value.of flatStruct flatValue = .ok v ∧ v.get flatStruct = some (.ok flatValue) := by
  refine (get_of_iff_keepsNames ?_ ?_ ?_).mpr ?_
  · simp [flatStruct, Supported, Members.Supported]
  · simp [flatStruct, flatValue, All, Members.All, Scalar.Encodable]
  · simp [flatStruct, flatValue, ElementsAgree, Members.ElementsAgree]
  · simp [flatStruct, flatValue, KeepsNames, ReadsOwnNames, Members.NamesRead, NamesRead,
      Members.memberNames]

def nestedStruct : CppType := .tuple (.plain (.tuple (.named (.scalar .int64) .nil)) .nil)

def nestedValue : nestedStruct.Val := ((("Foo", (42 : Int64)), ()), ())

/-- The name of the outer member, which has none, is read in place of `Foo`. -/
theorem nestedValue_name_lost :
    nestedStruct.Supported ∧ nestedStruct.All Scalar.Encodable nestedValue ∧
      nestedStruct.ElementsAgree nestedValue ∧
      ¬∃ v, Value.of nestedStruct nestedValue = .ok v ∧
        v.get nestedStruct = some (.ok nestedValue) := by
  refine ⟨?_, ?_, ?_, ?_⟩
  · simp [nestedStruct, Supported, Members.Supported]
  · simp [nestedStruct, nestedValue, All, Members.All, Scalar.Encodable]
  · simp [nestedStruct, nestedValue, ElementsAgree, Members.ElementsAgree]
  · rintro ⟨v, hof, hget⟩
    have hread : v.get nestedStruct =
        some (.ok (((("", (42 : Int64)), ()), ()) : nestedStruct.Val)) := by
      cases hof
      rfl
    rw [hread] at hget
    have hname := congrArg (fun t : nestedStruct.Val => t.1.1.1)
      (Except.ok.inj (Option.some.inj hget))
    exact absurd hname (by decide)

end CppType

end SpannerClient
