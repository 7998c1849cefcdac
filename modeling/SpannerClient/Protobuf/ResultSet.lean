import SpannerClient.Protobuf.Value
import SpannerClient.Protobuf.Transaction

namespace SpannerClient.Protobuf

/-- An open enumeration: a number without a name is kept as it is. -/
inductive TypeCode
  | unspecified | bool | int64 | float64 | timestamp | date | string | bytes | array | struct
  | unrecognized (number : Int)
  deriving DecidableEq, Repr

inductive SpannerType
  | mk (code : TypeCode) (arrayElementType : Option SpannerType)
      (fields : List (String × SpannerType))
  deriving Repr

namespace SpannerType

def code : SpannerType → TypeCode
  | .mk code _ _ => code

def fields : SpannerType → List (String × SpannerType)
  | .mk _ _ fields => fields

def unset : SpannerType := .mk .unspecified none []

def arrayElementType : SpannerType → SpannerType
  | .mk _ element _ => element.getD unset

mutual

def decEq : (t u : SpannerType) → Decidable (t = u)
  | .mk code element fields, .mk code' element' fields' =>
    haveI := decEqElement element element'
    haveI := decEqFields fields fields'
    decidable_of_iff (code = code' ∧ element = element' ∧ fields = fields') (by simp)

def decEqElement : (t u : Option SpannerType) → Decidable (t = u)
  | none, none => isTrue rfl
  | none, some _ | some _, none => isFalse nofun
  | some t, some u =>
    haveI := decEq t u
    decidable_of_iff (t = u) (by simp)

def decEqFields : (fs gs : List (String × SpannerType)) → Decidable (fs = gs)
  | [], [] => isTrue rfl
  | [], _ :: _ | _ :: _, [] => isFalse nofun
  | (name, t) :: fs, (name', u) :: gs =>
    haveI := decEq t u
    haveI := decEqFields fs gs
    decidable_of_iff (name = name' ∧ t = u ∧ fs = gs) (by simp [and_assoc])

end

instance : DecidableEq SpannerType := decEq

end SpannerType

structure Field where
  name : String
  type : SpannerType
  deriving Repr

structure ResultSetMetadata where
  rowType : List Field
  transaction : Option Transaction
  deriving Repr

/-- `metadata.transaction().id()`: an unset message reads as the default one. -/
def ResultSetMetadata.transactionId (m : ResultSetMetadata) : String :=
  (m.transaction.map Transaction.id).getD ""

structure QueryPlan where
  serialized : String
  deriving DecidableEq, Repr

inductive RowCount
  | notSet
  | exact (count : Int)
  | lowerBound (count : Int)
  deriving DecidableEq, Repr

structure ResultSetStats where
  queryPlan : Option QueryPlan
  queryStats : Option (List (String × Value))
  rowCount : RowCount
  deriving DecidableEq, Repr

def ResultSetStats.rowCountExact (s : ResultSetStats) : Int :=
  match s.rowCount with
  | .exact count => count
  | .notSet | .lowerBound _ => 0

def ResultSetStats.rowCountLowerBound (s : ResultSetStats) : Int :=
  match s.rowCount with
  | .lowerBound count => count
  | .notSet | .exact _ => 0

structure PartialResultSet where
  metadata : Option ResultSetMetadata
  values : List Value
  chunkedValue : Bool
  resumeToken : String
  stats : Option ResultSetStats
  deriving Repr

end SpannerClient.Protobuf
