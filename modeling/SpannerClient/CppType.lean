import SpannerClient.Bytes
import SpannerClient.Date
import SpannerClient.Protobuf.Value

namespace SpannerClient

inductive Scalar
  | bool | int64 | double | string | bytes | timestamp | commitTimestamp | date
  deriving DecidableEq, Repr

namespace Scalar

@[reducible] def Val : Scalar → Type
  | .bool => Bool
  | .int64 => Int64
  | .double => Protobuf.Double
  | .string => String
  | .bytes => Bytes
  | .timestamp => Timestamp
  | .commitTimestamp => Unit
  | .date => Date

def default : (s : Scalar) → s.Val
  | .bool => false
  | .int64 => (0 : Int64)
  | .double => Protobuf.Double.zero
  | .string => ""
  | .bytes => Bytes.empty
  | .timestamp => (⟨0, 0, Timestamp.normalized_zero⟩ : Timestamp)
  | .commitTimestamp => ()
  | .date => Date.epoch

end Scalar

mutual

inductive CppType
  | scalar (s : Scalar)
  | optional (T : CppType)
  | vector (T : CppType)
  | tuple (Ts : Members)

/-- The members of a `tuple`. A named one is a `pair` of its name and its value. -/
inductive Members
  | nil
  | plain (T : CppType) (rest : Members)
  | named (T : CppType) (rest : Members)

end

mutual

@[reducible] def CppType.Val : CppType → Type
  | .scalar s => s.Val
  | .optional T => Option T.Val
  | .vector T => List T.Val
  | .tuple Ts => Ts.Val

@[reducible] def Members.Val : Members → Type
  | .nil => Unit
  | .plain T rest => T.Val × rest.Val
  | .named T rest => (String × T.Val) × rest.Val

end

mutual

def CppType.default : (T : CppType) → T.Val
  | .scalar s => s.default
  | .optional _ => none
  | .vector _ => []
  | .tuple Ts => Ts.default

def Members.default : (Ts : Members) → Ts.Val
  | .nil => ()
  | .plain T rest => (T.default, rest.default)
  | .named T rest => (("", T.default), rest.default)

end

mutual

def CppType.All (P : (s : Scalar) → s.Val → Prop) : (T : CppType) → T.Val → Prop
  | .scalar s, t => P s t
  | .optional T, o => ∀ t ∈ (show Option T.Val from o), T.All P t
  | .vector T, ts => ∀ t ∈ (show List T.Val from ts), T.All P t
  | .tuple Ts, ts => Ts.All P ts

def Members.All (P : (s : Scalar) → s.Val → Prop) : (Ts : Members) → Ts.Val → Prop
  | .nil, _ => True
  | .plain T rest, (t, ts) => T.All P t ∧ rest.All P ts
  | .named T rest, ((_, t), ts) => T.All P t ∧ rest.All P ts

end

namespace CppType

def isOptional : CppType → Bool
  | .optional _ => true
  | .scalar _ | .vector _ | .tuple _ => false

def isVector : CppType → Bool
  | .vector _ => true
  | .scalar _ | .optional _ | .tuple _ => false

def isScalar : CppType → Bool
  | .scalar _ => true
  | .optional _ | .vector _ | .tuple _ => false

end CppType

end SpannerClient
