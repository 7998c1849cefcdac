import SpannerClient.CppType
import SpannerClient.Row
import SpannerClient.TimestampText
import SpannerClient.Internal.Date

namespace SpannerClient

open Protobuf (SpannerType TypeCode)

structure InvalidArgument where
  message : String
  deriving DecidableEq, Repr

namespace Scalar

def typeCode : Scalar → TypeCode
  | .bool => .bool
  | .int64 => .int64
  | .double => .float64
  | .string => .string
  | .bytes => .bytes
  | .timestamp => .timestamp
  | .commitTimestamp => .timestamp
  | .date => .date

def makeTypeProto (s : Scalar) : SpannerType := .mk s.typeCode none []

def doubleProto (d : Protobuf.Double) : Protobuf.Value :=
  if d.isNaN then .stringValue "NaN"
  else if d.isInf then .stringValue (if d = .negInfinity then "-Infinity" else "Infinity")
  else .numberValue d

def makeValueProto : (s : Scalar) → s.Val → Protobuf.Value
  | .bool, b => .boolValue b
  | .int64, (i : Int64) => .stringValue (String.ofList (Decimal.signed i.toInt))
  | .double, d => doubleProto d
  | .string, s => .stringValue s
  | .bytes, b => .stringValue (bytesToBase64 b)
  | .timestamp, ts => .stringValue (Internal.timestampToRFC3339 ts)
  | .commitTimestamp, _ => .stringValue "spanner.commit_timestamp()"
  | .date, d => .stringValue (Internal.dateToString d)

end Scalar

def mismatchedTypes : InvalidArgument := ⟨"Mismatched types"⟩

def checkElements (make : α → Except InvalidArgument SpannerType) (elementType : SpannerType) :
    List α → Except InvalidArgument Unit
  | [] => .ok ()
  | e :: es =>
    match make e with
    | .error thrown => .error thrown
    | .ok type =>
      if type = elementType then checkElements make elementType es else .error mismatchedTypes

mutual

def CppType.makeTypeProto : (T : CppType) → T.Val → Except InvalidArgument SpannerType
  | .scalar s, _ => .ok s.makeTypeProto
  | .optional T, _ => T.makeTypeProto T.default
  | .vector T, (v : List T.Val) => do
    let elementType ← T.makeTypeProto (v.headD T.default)
    checkElements T.makeTypeProto elementType v
    return .mk .array (some elementType) []
  | .tuple Ts, tup => return .mk .struct none (← Ts.addStructTypes tup)

def Members.addStructTypes :
    (Ts : Members) → Ts.Val → Except InvalidArgument (List (String × SpannerType))
  | .nil, _ => .ok []
  | .plain T rest, (t, ts) => return ("", ← T.makeTypeProto t) :: (← rest.addStructTypes ts)
  | .named T rest, ((name, t), ts) =>
    return (name, ← T.makeTypeProto t) :: (← rest.addStructTypes ts)

end

mutual

def CppType.makeValueProto : (T : CppType) → T.Val → Protobuf.Value
  | .scalar s, t => s.makeValueProto t
  | .optional T, (opt : Option T.Val) =>
    match opt with
    | none => .nullValue
    | some t => T.makeValueProto t
  | .vector T, (vec : List T.Val) => .listValue (vec.map T.makeValueProto)
  | .tuple Ts, tup => .listValue (Ts.addStructValues tup)

def Members.addStructValues : (Ts : Members) → Ts.Val → List Protobuf.Value
  | .nil, _ => []
  | .plain T rest, (t, ts) => T.makeValueProto t :: rest.addStructValues ts
  | .named T rest, ((_, t), ts) => T.makeValueProto t :: rest.addStructValues ts

end

def Value.of (T : CppType) (t : T.Val) : Except InvalidArgument Value :=
  return ⟨← T.makeTypeProto t, T.makeValueProto t⟩

def toProto (v : Value) : SpannerType × Protobuf.Value := (v.type, v.value)

end SpannerClient
