import SpannerClient.Row
import SpannerClient.Timestamp
import SpannerClient.Protobuf.Spanner

/-! The parameters and results of a `Connection`.  The transaction is not among the parameters: an
operation is a visit to it. -/

namespace SpannerClient

structure ReadOptions where
  indexName : String
  limit : Int
  deriving DecidableEq, Repr

structure PartitionOptions where
  partitionSizeBytes : Option Int
  maxPartitions : Option Int
  deriving DecidableEq, Repr

def PartitionOptions.toProto (o : PartitionOptions) : Protobuf.PartitionOptions :=
  ⟨o.partitionSizeBytes.getD 0, o.maxPartitions.getD 0⟩

structure SqlStatement where
  statement : String
  params : List (String × Value)
  nodup : (params.map Prod.fst).Nodup

def SqlStatement.toProto (s : SqlStatement) : Protobuf.Statement where
  sql := s.statement
  params := s.params.map fun (name, value) => (name, value.value)
  paramTypes := s.params.map fun (name, value) => (name, value.type)

structure QueryOptions where
  optimizerVersion : Option String
  deriving DecidableEq, Repr

/-- A `KeySet` is its proto, and so is a `Mutation`. -/
structure ReadParams where
  table : String
  keys : Protobuf.KeySet
  columns : List String
  readOptions : ReadOptions
  partitionToken : Option String

structure PartitionReadParams where
  readParams : ReadParams
  partitionOptions : PartitionOptions

structure SqlParams where
  statement : SqlStatement
  queryOptions : QueryOptions
  partitionToken : Option String

structure PartitionQueryParams where
  statement : SqlStatement
  partitionOptions : PartitionOptions

structure ReadPartition where
  proto : Protobuf.ReadRequest

def makeReadPartition (transactionId sessionId partitionToken tableName : String)
    (keySet : Protobuf.KeySet) (columnNames : List String) (readOptions : ReadOptions) :
    ReadPartition where
  proto :=
    { session := sessionId
      transaction := .id transactionId
      table := tableName
      index := readOptions.indexName
      columns := columnNames
      keySet := keySet
      limit := readOptions.limit
      partitionToken := partitionToken }

structure QueryPartition where
  transactionId : String
  sessionId : String
  partitionToken : String
  sqlStatement : SqlStatement

structure CommitResult where
  commitTimestamp : Timestamp
  deriving DecidableEq, Repr

structure BatchDmlResult where
  stats : List Int
  status : Status
  deriving DecidableEq, Repr

structure PartitionedDmlResult where
  rowCountLowerBound : Int
  deriving DecidableEq, Repr

end SpannerClient
