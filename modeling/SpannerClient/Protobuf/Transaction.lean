import Mathlib.Data.Nat.Notation

namespace SpannerClient.Protobuf

structure Timestamp where
  seconds : Int
  nanos : Int
  deriving DecidableEq, Repr

structure Transaction where
  id : String
  readTimestamp : Option Timestamp
  deriving DecidableEq, Repr

structure Duration where
  seconds : Int
  nanos : Int
  deriving DecidableEq, Repr

inductive TimestampBound
  | notSet
  | strong (value : Bool)
  | minReadTimestamp (timestamp : Timestamp)
  | maxStaleness (staleness : Duration)
  | readTimestamp (timestamp : Timestamp)
  | exactStaleness (staleness : Duration)
  deriving DecidableEq, Repr

structure ReadOnly where
  timestampBound : TimestampBound
  returnReadTimestamp : Bool
  deriving DecidableEq, Repr

inductive TransactionOptions
  | notSet
  | readWrite
  | partitionedDml
  | readOnly (options : ReadOnly)
  deriving DecidableEq, Repr

inductive TransactionSelector
  | notSet
  | singleUse (options : TransactionOptions)
  | id (id : String)
  | begin (options : TransactionOptions)
  deriving DecidableEq, Repr

def TransactionSelector.hasBegin : TransactionSelector → Bool
  | .begin _ => true
  | .notSet | .singleUse _ | .id _ => false

def TransactionSelector.getId : TransactionSelector → String
  | .id transactionId => transactionId
  | .notSet | .singleUse _ | .begin _ => ""

def TransactionSelector.options : TransactionSelector → TransactionOptions
  | .begin options | .singleUse options => options
  | .notSet | .id _ => .notSet

@[simp] theorem TransactionSelector.hasBegin_begin (options : TransactionOptions) :
    (TransactionSelector.begin options).hasBegin = true := rfl

@[simp] theorem TransactionSelector.hasBegin_id (id : String) :
    (TransactionSelector.id id).hasBegin = false := rfl

end SpannerClient.Protobuf
