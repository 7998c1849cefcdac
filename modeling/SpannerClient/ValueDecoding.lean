import SpannerClient.ValueEncoding

namespace SpannerClient

open Protobuf (SpannerType TypeCode)

/-- A result, or none when a repeated field is read outside its bounds, which has no defined
outcome. -/
abbrev Bounded (α : Type) := Option α

def unknownError (message : String) : Failure := .of .unknown message StatusCode.unknown_ne_ok

namespace Scalar

def typeProtoIs (s : Scalar) (type : SpannerType) : Bool := type.code == s.typeCode

def stringOr (message : String) : Protobuf.Value → StatusOr String
  | .stringValue s => .ok s
  | .kindNotSet | .nullValue | .numberValue _ | .boolValue _ | .structValue _ | .listValue _ =>
    .error (unknownError message)

def getBool : Protobuf.Value → StatusOr Bool
  | .boolValue b => .ok b
  | .kindNotSet | .nullValue | .numberValue _ | .stringValue _ | .structValue _ | .listValue _ =>
    .error (unknownError "missing BOOL")

def parseInt64 (s : String) : StatusOr Int64 :=
  match CString.scanInteger (CString.ofString s) with
  | none => .error (unknownError ("No numeric conversion: \"" ++ s ++ "\""))
  | some (x, rest) =>
    if x < int64Min ∨ int64Max < x then
      .error (unknownError ("Numerical result out of range: \"" ++ s ++ "\""))
    else if rest ≠ [] then .error (unknownError ("Trailing data: \"" ++ s ++ "\""))
    else .ok (Int64.ofInt x)

def getDouble : Protobuf.Value → StatusOr Protobuf.Double
  | .numberValue d => .ok d
  | .stringValue s =>
    if s = "-Infinity" then .ok .negInfinity
    else if s = "Infinity" then .ok .infinity
    else if s = "NaN" then .ok .nan
    else .error (unknownError ("bad FLOAT64 data: \"" ++ s ++ "\""))
  | .kindNotSet | .nullValue | .boolValue _ | .structValue _ | .listValue _ =>
    .error (unknownError "missing FLOAT64")

def getCommitTimestamp : Protobuf.Value → StatusOr Unit
  | .stringValue s =>
    if s = "spanner.commit_timestamp()" then .ok ()
    else .error (unknownError "invalid commit_timestamp")
  | .kindNotSet | .nullValue | .numberValue _ | .boolValue _ | .structValue _ | .listValue _ =>
    .error (unknownError "invalid commit_timestamp")

def getValue : (s : Scalar) → Protobuf.Value → StatusOr s.Val
  | .bool, pv => getBool pv
  | .int64, pv => stringOr "missing INT64" pv >>= parseInt64
  | .double, pv => getDouble pv
  | .string, pv => stringOr "missing STRING" pv
  | .bytes, pv => stringOr "missing BYTES" pv >>= bytesFromBase64
  | .timestamp, pv => stringOr "missing TIMESTAMP" pv >>= Internal.timestampFromRFC3339
  | .commitTimestamp, pv => getCommitTimestamp pv
  | .date, pv => stringOr "missing DATE" pv >>= Internal.dateFromString

end Scalar

def Members.size : Members → Nat
  | .nil => 0
  | .plain _ rest => rest.size + 1
  | .named _ rest => rest.size + 1

def fieldTypeIs (typeProtoIs : SpannerType → Bounded Bool) (ok : Bool) (field : Nat)
    (fields : List (String × SpannerType)) : Bounded Bool :=
  if ok then fields[field]?.bind fun (_, type) => typeProtoIs type else some false

mutual

def CppType.typeProtoIs : (T : CppType) → SpannerType → Bounded Bool
  | .scalar s, type => some (s.typeProtoIs type)
  | .optional T, type => T.typeProtoIs type
  | .vector T, type =>
    if type.code = .array then T.typeProtoIs type.arrayElementType else some false
  | .tuple Ts, type =>
    let ok := type.code == .struct && type.fields.length == Ts.size
    Ts.isStructTypeProto ok 0 type.fields

def Members.isStructTypeProto :
    (Ts : Members) → (ok : Bool) → (field : Nat) → List (String × SpannerType) → Bounded Bool
  | .nil, ok, _, _ => some ok
  | .plain T rest, ok, field, fields =>
    (fieldTypeIs T.typeProtoIs ok field fields).bind fun ok =>
      rest.isStructTypeProto ok (field + 1) fields
  | .named T rest, ok, field, fields =>
    (fieldTypeIs T.typeProtoIs ok field fields).bind fun ok =>
      rest.isStructTypeProto ok (field + 1) fields

end

def getElements (getValue : Protobuf.Value → Bounded (StatusOr α)) :
    List Protobuf.Value → Bounded (StatusOr (List α))
  | [] => some (.ok [])
  | e :: es =>
    match getValue e with
    | none => none
    | some (.error failure) => some (.error failure)
    | some (.ok value) => (getElements getValue es).map fun v => v.map (value :: ·)

/-- The member that `ExtractTupleValues` is at, with the status so far: an error replaces the
status and leaves the member as it was. -/
def extractMember (getValue : Protobuf.Value → Bounded (StatusOr α)) (member : α)
    (status : Option Failure) (i : Nat) (values : List Protobuf.Value) :
    Bounded (α × Option Failure) :=
  match values[i]?.bind getValue with
  | none => none
  | some (.error failure) => some (member, some failure)
  | some (.ok value) => some (value, status)

mutual

/-- `GetValue`. The type is only read for the element type of an array and for the names of
the fields of a struct; the members of a struct are handed the type of the struct itself. -/
def CppType.getValue : (T : CppType) → Protobuf.Value → SpannerType → Bounded (StatusOr T.Val)
  | .scalar s, pv, _ => some (s.getValue pv)
  | .optional T, pv, pt =>
    if pv.kindCase = .nullValue then some (.ok (none : Option T.Val))
    else (T.getValue pv pt).map fun value => value.map (some : T.Val → Option T.Val)
  | .vector T, .listValue values, pt =>
    getElements (fun e => T.getValue e pt.arrayElementType) values
  | .vector _, _, _ => some (.error (unknownError "missing ARRAY"))
  | .tuple Ts, .listValue values, pt =>
    (Ts.extractTupleValues none 0 values pt).map fun (tup, status) =>
      match status with
      | some failure => .error failure
      | none => .ok tup
  | .tuple _, _, _ => some (.error (unknownError "missing STRUCT"))

def Members.extractTupleValues :
    (Ts : Members) → (status : Option Failure) → (i : Nat) → List Protobuf.Value →
      (type : SpannerType) → Bounded (Ts.Val × Option Failure)
  | .nil, status, _, _, _ => some ((), status)
  | .plain T rest, status, i, values, type => do
    let (t, status) ← extractMember (T.getValue · type) T.default status i values
    let (ts, status) ← rest.extractTupleValues status (i + 1) values type
    some ((t, ts), status)
  | .named T rest, status, i, values, type => do
    let (name, _) ← type.fields[i]?
    let (t, status) ← extractMember (T.getValue · type) T.default status i values
    let (ts, status) ← rest.extractTupleValues status (i + 1) values type
    some (((name, t), ts), status)

end

def Value.get (v : Value) (T : CppType) : Bounded (StatusOr T.Val) :=
  match T.typeProtoIs v.type with
  | none => none
  | some false => some (.error (unknownError "wrong type"))
  | some true =>
    if v.value.kindCase = .nullValue then
      if T.isOptional then some (.ok T.default)
      else some (.error (unknownError "null value"))
    else T.getValue v.value v.type

end SpannerClient
