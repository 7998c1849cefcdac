import SpannerClient.Status
import SpannerClient.Protobuf.ResultSet

namespace SpannerClient.Protobuf

inductive KeyBound
  | closed (key : List Value)
  | opened (key : List Value)
  deriving DecidableEq, Repr

structure KeyRange where
  start : KeyBound
  stop : KeyBound
  deriving DecidableEq, Repr

structure KeySet where
  keys : List (List Value)
  ranges : List KeyRange
  all : Bool
  deriving DecidableEq, Repr

structure Write where
  table : String
  columns : List String
  values : List (List Value)
  deriving DecidableEq, Repr

inductive Mutation
  | notSet
  | insert (write : Write)
  | update (write : Write)
  | insertOrUpdate (write : Write)
  | replace (write : Write)
  | delete (table : String) (keySet : KeySet)
  deriving DecidableEq, Repr

structure ReadRequest where
  session : String
  transaction : TransactionSelector
  table : String
  index : String
  columns : List String
  keySet : KeySet
  limit : Int
  partitionToken : String
  deriving DecidableEq, Repr

structure PartitionOptions where
  partitionSizeBytes : Int
  maxPartitions : Int
  deriving DecidableEq, Repr

structure PartitionReadRequest where
  session : String
  transaction : TransactionSelector
  table : String
  index : String
  columns : List String
  keySet : KeySet
  partitionOptions : PartitionOptions

inductive QueryMode
  | normal | plan | profile
  deriving DecidableEq, Repr

structure Statement where
  sql : String
  params : List (String × Value)
  paramTypes : List (String × SpannerType)
  deriving DecidableEq, Repr

structure ExecuteSqlRequest where
  session : String
  transaction : TransactionSelector
  statement : Statement
  seqno : Nat
  queryMode : QueryMode
  partitionToken : String
  optimizerVersion : Option String
  deriving DecidableEq, Repr

structure PartitionQueryRequest where
  session : String
  transaction : TransactionSelector
  statement : Statement
  partitionOptions : PartitionOptions

structure ExecuteBatchDmlRequest where
  session : String
  transaction : TransactionSelector
  statements : List Statement
  seqno : Nat

structure BeginTransactionRequest where
  session : String
  options : TransactionOptions

structure CommitRequest where
  session : String
  transactionId : String
  mutations : List Mutation

structure RollbackRequest where
  session : String
  transactionId : String

structure PartitionResponse where
  partitions : List String
  transaction : Option Transaction

def PartitionResponse.transactionId (r : PartitionResponse) : String :=
  (r.transaction.map Transaction.id).getD ""

structure ResultSet where
  metadata : Option ResultSetMetadata
  stats : Option ResultSetStats

def ResultSet.transactionId (r : ResultSet) : String :=
  (r.metadata.map ResultSetMetadata.transactionId).getD ""

structure ExecuteBatchDmlResponse where
  resultSets : List ResultSet
  status : Status

structure CommitResponse where
  commitTimestamp : Timestamp

end SpannerClient.Protobuf
