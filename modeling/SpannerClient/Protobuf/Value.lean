import Mathlib.Logic.Basic

namespace SpannerClient.Protobuf

/-- A `double`, kept as its IEEE 754 bits. -/
structure Double where
  bits : UInt64
  deriving DecidableEq, Repr

namespace Double

def zero : Double := ⟨0⟩

def infinity : Double := ⟨0x7ff0000000000000⟩

def negInfinity : Double := ⟨0xfff0000000000000⟩

def nan : Double := ⟨0x7ff8000000000000⟩

def isZero (d : Double) : Bool := d.bits == 0 || d.bits == 0x8000000000000000

def isNaN (d : Double) : Bool := 0x7ff0000000000000 < d.bits &&& 0x7fffffffffffffff

def isInf (d : Double) : Bool := d == infinity || d == negInfinity

/-- `==` of C++: NaN equals nothing, and the two zeros are equal. -/
def eq (a b : Double) : Bool := !a.isNaN && !b.isNaN && (a == b || a.isZero && b.isZero)

theorem eq_comm (a b : Double) : a.eq b = b.eq a := by
  have hbeq : (a == b) = (b == a) := Bool.beq_comm
  rw [eq, eq, hbeq, Bool.and_comm a.isZero, Bool.and_comm (!a.isNaN)]

theorem eq_self {d : Double} (h : d.isNaN = false) : d.eq d = true := by simp [eq, h]

end Double

inductive Value
  | kindNotSet
  | nullValue
  | numberValue (number : Double)
  | stringValue (string : String)
  | boolValue (bool : Bool)
  | structValue (fields : List (String × Value))
  | listValue (values : List Value)
  deriving Repr

namespace Value

inductive Kind
  | kindNotSet | nullValue | numberValue | stringValue | boolValue | structValue | listValue
  deriving DecidableEq, Repr

def kindCase : Value → Kind
  | .kindNotSet => .kindNotSet
  | .nullValue => .nullValue
  | .numberValue _ => .numberValue
  | .stringValue _ => .stringValue
  | .boolValue _ => .boolValue
  | .structValue _ => .structValue
  | .listValue _ => .listValue

def boolField : Value → Bool
  | .boolValue b => b
  | .kindNotSet | .nullValue | .numberValue _ | .stringValue _ | .structValue _
  | .listValue _ => false

def stringField : Value → String
  | .stringValue s => s
  | .kindNotSet | .nullValue | .numberValue _ | .boolValue _ | .structValue _
  | .listValue _ => ""

def numberField : Value → Double
  | .numberValue d => d
  | .kindNotSet | .nullValue | .stringValue _ | .boolValue _ | .structValue _
  | .listValue _ => .zero

def listField : Value → List Value
  | .listValue vs => vs
  | .kindNotSet | .nullValue | .numberValue _ | .stringValue _ | .boolValue _
  | .structValue _ => []

mutual

def decEq : (v w : Value) → Decidable (v = w)
  | .kindNotSet, w => match w with
    | .kindNotSet => isTrue rfl
    | .nullValue | .numberValue _ | .stringValue _ | .boolValue _ | .structValue _
    | .listValue _ => isFalse nofun
  | .nullValue, w => match w with
    | .nullValue => isTrue rfl
    | .kindNotSet | .numberValue _ | .stringValue _ | .boolValue _ | .structValue _
    | .listValue _ => isFalse nofun
  | .numberValue a, w => match w with
    | .numberValue b => decidable_of_iff (a = b) (by simp)
    | .kindNotSet | .nullValue | .stringValue _ | .boolValue _ | .structValue _
    | .listValue _ => isFalse nofun
  | .stringValue a, w => match w with
    | .stringValue b => decidable_of_iff (a = b) (by simp)
    | .kindNotSet | .nullValue | .numberValue _ | .boolValue _ | .structValue _
    | .listValue _ => isFalse nofun
  | .boolValue a, w => match w with
    | .boolValue b => decidable_of_iff (a = b) (by simp)
    | .kindNotSet | .nullValue | .numberValue _ | .stringValue _ | .structValue _
    | .listValue _ => isFalse nofun
  | .structValue a, w => match w with
    | .structValue b =>
      haveI := decEqFields a b
      decidable_of_iff (a = b) (by simp)
    | .kindNotSet | .nullValue | .numberValue _ | .stringValue _ | .boolValue _
    | .listValue _ => isFalse nofun
  | .listValue a, w => match w with
    | .listValue b =>
      haveI := decEqValues a b
      decidable_of_iff (a = b) (by simp)
    | .kindNotSet | .nullValue | .numberValue _ | .stringValue _ | .boolValue _
    | .structValue _ => isFalse nofun

def decEqValues : (vs ws : List Value) → Decidable (vs = ws)
  | [], [] => isTrue rfl
  | [], _ :: _ | _ :: _, [] => isFalse nofun
  | v :: vs, w :: ws =>
    haveI := decEq v w
    haveI := decEqValues vs ws
    decidable_of_iff (v = w ∧ vs = ws) (by simp)

def decEqFields : (fs gs : List (String × Value)) → Decidable (fs = gs)
  | [], [] => isTrue rfl
  | [], _ :: _ | _ :: _, [] => isFalse nofun
  | (k, v) :: fs, (l, w) :: gs =>
    haveI := decEq v w
    haveI := decEqFields fs gs
    decidable_of_iff (k = l ∧ v = w ∧ fs = gs) (by simp [and_assoc])

end

instance : DecidableEq Value := decEq

end Value

end SpannerClient.Protobuf
