import SpannerClient.Connection
import SpannerClient.Internal.PartialResultSetSource
import SpannerClient.Internal.SessionPool
import SpannerClient.Internal.Visit
import SpannerClient.Protobuf.Spanner

/-! The operations of `ConnectionImpl`, as the functors that `Visit()` runs. -/

namespace SpannerClient

open Protobuf Program

/-- A shared session, with the deleter that its last holder runs. -/
structure SessionHolder (χ : Type) where
  session : Session χ
  dissociated : Bool

def makeDissociatedSessionHolder {χ : Type} (object : Nat) (now : Int) (sessionName : String) :
    SessionHolder χ :=
  ⟨⟨object, sessionName, none, false, now⟩, true⟩

inductive Rpc
  | partitionRead (request : PartitionReadRequest)
  | partitionQuery (request : PartitionQueryRequest)
  | executeSql (request : ExecuteSqlRequest)
  | executeBatchDml (request : ExecuteBatchDmlRequest)
  | beginTransaction (request : BeginTransactionRequest)
  | commit (request : CommitRequest)

@[reducible] def Rpc.Response : Rpc → Type
  | .partitionRead _ | .partitionQuery _ => PartitionResponse
  | .executeSql _ => ResultSet
  | .executeBatchDml _ => ExecuteBatchDmlResponse
  | .beginTransaction _ => Protobuf.Transaction
  | .commit _ => CommitResponse

inductive ResultSource (σ : Type)
  | statusOnly (failure : Failure)
  | partialResultSet (source : PartialResultSetSource σ)
  | dml (resultSet : ResultSet)

namespace ResultSource

variable {σ : Type}

def metadata : ResultSource σ → Option ResultSetMetadata
  | .statusOnly _ => none
  | .partialResultSet source => source.metadata
  | .dml resultSet => resultSet.metadata

def stats : ResultSource σ → Option ResultSetStats
  | .statusOnly _ => none
  | .partialResultSet source => source.stats
  | .dml resultSet => resultSet.stats

def status : ResultSource σ → Status
  | .statusOnly failure => failure.status
  | .partialResultSet _ | .dml _ => .success

def executionPlan (s : ResultSource σ) : Option QueryPlan := s.stats.bind ResultSetStats.queryPlan

def transactionId (s : ResultSource σ) : String :=
  (s.metadata.map ResultSetMetadata.transactionId).getD ""

end ResultSource

/-- `reader` is a `PartialResultSetResume` with its policies, `print` the `operator<<` of `Status`;
`fuel` bounds each loop. -/
structure ConnectionImpl (σ : Type) where
  reader : PartialResultSetReader σ
  print : Status → String
  fuel : Nat

namespace ConnectionImpl

inductive Call
  | allocate (dissociateFromPool : Bool)
  | setBad (object : Nat)
  | streamingRead (request : ReadRequest)
  | executeStreamingSql (request : ExecuteSqlRequest)
  | rpc (rpc : Rpc)
  | rollback (request : RollbackRequest)
  | isExhausted
  | onFailure (status : Status)
  | onCompletion
  | sleepFor (delay : Nat)

@[reducible] def Reply (σ χ : Type) : Call → Type
  | .allocate _ => StatusOr (Session χ)
  | .streamingRead _ | .executeStreamingSql _ => σ
  | .rpc rpc => StatusOr rpc.Response
  | .rollback _ => Status
  | .isExhausted | .onFailure _ => Bool
  | .onCompletion => Nat
  | .setBad _ | .sleepFor _ => Unit

/-- The state is the transaction that is visited. -/
abbrev Op (σ χ α : Type) :=
  Program (ε := Call) (Reply σ χ) (TransactionImpl (SessionHolder χ)) Abort α

variable {σ χ : Type}

def policies : LoopPolicies (Reply σ χ) (TransactionImpl (SessionHolder χ)) where
  isExhausted := perform Call.isExhausted
  onFailure status := perform (Call.onFailure status)
  backoff := do
    let delay ← perform Call.onCompletion
    perform (Call.sleepFor delay)

def setId (id : String) : Op σ χ Unit := modify fun t => { t with selector := .id id }

def checkSession (holder : SessionHolder χ) (status : Status) : Op σ χ Unit :=
  if isSessionNotFound status then perform (Call.setBad holder.session.object) else return ()

def prepareSession (dissociateFromPool : Bool) : Op σ χ (StatusOr (SessionHolder χ)) := do
  let t ← get
  match t.session with
  | some holder => return .ok holder
  | none =>
    match ← perform (Call.allocate dissociateFromPool) with
    | .error e => return .error e
    | .ok session =>
      modify fun t => { t with session := some ⟨session, dissociateFromPool⟩ }
      return .ok ⟨session, dissociateFromPool⟩

variable (conn : ConnectionImpl σ)

def call (rpc : Rpc) (location : String) : Op σ χ (StatusOr rpc.Response) :=
  RetryLoop.retryLoop policies conn.print true (perform (Call.rpc rpc)) location conn.fuel

def createSource (rpc : σ) : Op σ χ (StatusOr (ResultSource σ)) :=
  match PartialResultSetSource.create conn.reader conn.fuel rpc with
  | none => throw .outOfFuel
  | some (.error e) => return .error e
  | some (.ok source) => return .ok (.partialResultSet source)

def readImpl (params : ReadParams) : Op σ χ (ResultSource σ) := do
  match ← prepareSession false with
  | .error e => return .statusOnly e
  | .ok holder =>
    let t ← get
    let rpc ← perform (Call.streamingRead
      { session := holder.session.name
        transaction := t.selector
        table := params.table
        index := params.readOptions.indexName
        columns := params.columns
        keySet := params.keys
        limit := params.readOptions.limit
        partitionToken := params.partitionToken.getD "" })
    match ← conn.createSource rpc with
    | .error e =>
      checkSession holder e.status
      return .statusOnly e
    | .ok reader =>
      if t.selector.hasBegin then
        if reader.transactionId = "" then
          return .statusOnly (.of .internal
            "Begin transaction requested but no transaction returned (in Read)."
            StatusCode.internal_ne_ok)
        setId reader.transactionId
      return reader

def partitionReadImpl (params : PartitionReadParams) : Op σ χ (StatusOr (List ReadPartition)) := do
  match ← prepareSession true with
  | .error e => return .error e
  | .ok holder =>
    let t ← get
    let request : PartitionReadRequest :=
      { session := holder.session.name
        transaction := t.selector
        table := params.readParams.table
        index := params.readParams.readOptions.indexName
        columns := params.readParams.columns
        keySet := params.readParams.keys
        partitionOptions := params.partitionOptions.toProto }
    match ← conn.call (.partitionRead request) "PartitionReadImpl" with
    | .error e =>
      checkSession holder e.status
      return .error e
    | .ok response =>
      if t.selector.hasBegin then setId response.transactionId
      return .ok (response.partitions.map fun partitionToken =>
        makeReadPartition response.transactionId holder.session.name partitionToken
          params.readParams.table params.readParams.keys params.readParams.columns
          params.readParams.readOptions)

def executeSqlImpl (holder : SessionHolder χ) (seqno : Nat) (params : SqlParams)
    (queryMode : QueryMode)
    (retryResumeFn : ExecuteSqlRequest → Op σ χ (StatusOr (ResultSource σ))) :
    Op σ χ (StatusOr (ResultSource σ)) := do
  let t ← get
  match ← retryResumeFn
      { session := holder.session.name
        transaction := t.selector
        statement := params.statement.toProto
        seqno := seqno
        queryMode := queryMode
        partitionToken := params.partitionToken.getD ""
        optimizerVersion := params.queryOptions.optimizerVersion } with
  | .error e => return .error e
  | .ok reader =>
    if t.selector.hasBegin then
      if reader.transactionId = "" then
        return .error (.of .internal
          "Begin transaction requested but no transaction returned." StatusCode.internal_ne_ok)
      setId reader.transactionId
    return .ok reader

def commonQueryImpl (seqno : Nat) (params : SqlParams) (queryMode : QueryMode) :
    Op σ χ (ResultSource σ) := do
  match ← prepareSession false with
  | .error e => return .statusOnly e
  | .ok holder =>
    let response ← executeSqlImpl holder seqno params queryMode fun request => do
      let rpc ← perform (Call.executeStreamingSql request)
      conn.createSource rpc
    match response with
    | .error e =>
      checkSession holder e.status
      return .statusOnly e
    | .ok reader => return reader

def executeQueryImpl (seqno : Nat) (params : SqlParams) : Op σ χ (ResultSource σ) :=
  conn.commonQueryImpl seqno params .normal

def profileQueryImpl (seqno : Nat) (params : SqlParams) : Op σ χ (ResultSource σ) :=
  conn.commonQueryImpl seqno params .profile

def commonDmlImpl (seqno : Nat) (params : SqlParams) (queryMode : QueryMode) :
    Op σ χ (StatusOr (ResultSource σ)) := do
  match ← prepareSession false with
  | .error e => return .error e
  | .ok holder =>
    executeSqlImpl holder seqno params queryMode fun request => do
      match ← conn.call (.executeSql request) "CommonDmlImpl" with
      | .error e =>
        checkSession holder e.status
        return .error e
      | .ok response => return .ok (.dml response)

def executeDmlImpl (seqno : Nat) (params : SqlParams) : Op σ χ (StatusOr (ResultSource σ)) :=
  conn.commonDmlImpl seqno params .normal

def profileDmlImpl (seqno : Nat) (params : SqlParams) : Op σ χ (StatusOr (ResultSource σ)) :=
  conn.commonDmlImpl seqno params .profile

/-- Returns no plan where the code dereferences an empty `optional`. -/
def analyzeSqlImpl (seqno : Nat) (params : SqlParams) : Op σ χ (StatusOr (Option QueryPlan)) := do
  match ← conn.commonDmlImpl seqno params .plan with
  | .error e => return .error e
  | .ok result => return .ok result.executionPlan

def partitionQueryImpl (params : PartitionQueryParams) :
    Op σ χ (StatusOr (List QueryPartition)) := do
  match ← prepareSession true with
  | .error e => return .error e
  | .ok holder =>
    let t ← get
    let request : PartitionQueryRequest :=
      { session := holder.session.name
        transaction := t.selector
        statement := params.statement.toProto
        partitionOptions := params.partitionOptions.toProto }
    match ← conn.call (.partitionQuery request) "PartitionQueryImpl" with
    | .error e =>
      checkSession holder e.status
      return .error e
    | .ok response =>
      if t.selector.hasBegin then setId response.transactionId
      return .ok (response.partitions.map fun partitionToken =>
        ⟨response.transactionId, holder.session.name, partitionToken, params.statement⟩)

def executeBatchDmlImpl (seqno : Nat) (statements : List SqlStatement) :
    Op σ χ (StatusOr BatchDmlResult) := do
  match ← prepareSession false with
  | .error e => return .error e
  | .ok holder =>
    let t ← get
    let request : ExecuteBatchDmlRequest :=
      { session := holder.session.name
        transaction := t.selector
        statements := statements.map SqlStatement.toProto
        seqno := seqno }
    match ← conn.call (.executeBatchDml request) "ExecuteBatchDmlImpl" with
    | .error e =>
      checkSession holder e.status
      return .error e
    | .ok response =>
      if t.selector.hasBegin then
        match response.resultSets with
        | [] => pure ()
        | resultSet :: _ => setId resultSet.transactionId
      return .ok
        { stats := response.resultSets.map fun resultSet =>
            (resultSet.stats.map ResultSetStats.rowCountExact).getD 0
          status := response.status }

def executePartitionedDmlImpl (seqno : Nat) (statement : SqlStatement) :
    Op σ χ (StatusOr PartitionedDmlResult) := do
  match ← prepareSession false with
  | .error e => return .error e
  | .ok holder =>
    match ← conn.call (.beginTransaction ⟨holder.session.name, .partitionedDml⟩)
        "ExecutePartitionedDmlImpl" with
    | .error e =>
      checkSession holder e.status
      return .error e
    | .ok beginResponse =>
      setId beginResponse.id
      let request : ExecuteSqlRequest :=
        { session := holder.session.name
          transaction := .id beginResponse.id
          statement := statement.toProto
          seqno := seqno
          queryMode := .normal
          partitionToken := ""
          optimizerVersion := none }
      match ← conn.call (.executeSql request) "ExecutePartitionedDmlImpl" with
      | .error e =>
        checkSession holder e.status
        return .error e
      | .ok response =>
        return .ok ⟨(response.stats.map ResultSetStats.rowCountLowerBound).getD 0⟩

def commitWithId (holder : SessionHolder χ) (mutations : List Mutation) (id : String) :
    Op σ χ (StatusOr CommitResult) := do
  match ← conn.call (.commit ⟨holder.session.name, id, mutations⟩) "CommitImpl" with
  | .error e =>
    checkSession holder e.status
    return .error e
  | .ok response => return .ok ⟨Timestamp.fromProto response.commitTimestamp⟩

def commitImpl (mutations : List Mutation) : Op σ χ (StatusOr CommitResult) := do
  match ← prepareSession false with
  | .error e => return .error e
  | .ok holder =>
    let t ← get
    match t.selector with
    | .id id => conn.commitWithId holder mutations id
    | .notSet | .singleUse _ | .begin _ =>
      match ← conn.call (.beginTransaction ⟨holder.session.name, t.selector.options⟩)
          "CommitImpl" with
      | .error e =>
        checkSession holder e.status
        return .error e
      | .ok response =>
        setId response.id
        conn.commitWithId holder mutations response.id

def rollbackImpl : Op σ χ Status := do
  match ← prepareSession false with
  | .error e => return e.status
  | .ok holder =>
    let t ← get
    match t.selector with
    | .singleUse _ => return ⟨.invalidArgument, "Cannot rollback a single-use transaction"⟩
    | .begin _ => return .success
    | .id _ | .notSet =>
      let status ← RetryLoop.retryLoop policies conn.print true
        (perform (Call.rollback ⟨holder.session.name, t.selector.getId⟩)) "RollbackImpl" conn.fuel
      checkSession holder status
      return status

end ConnectionImpl

inductive Operation
  | read (params : ReadParams)
  | partitionRead (params : PartitionReadParams)
  | executeQuery (params : SqlParams)
  | profileQuery (params : SqlParams)
  | executeDml (params : SqlParams)
  | profileDml (params : SqlParams)
  | analyzeSql (params : SqlParams)
  | partitionQuery (params : PartitionQueryParams)
  | executeBatchDml (statements : List SqlStatement)
  | executePartitionedDml (statement : SqlStatement)
  | commit (mutations : List Mutation)
  | rollback

namespace ConnectionImpl

variable {σ χ : Type} (conn : ConnectionImpl σ)

def functor : Operation → Nat → Op σ χ Status
  | .read params, _ => do return (← conn.readImpl params).status
  | .partitionRead params, _ => do return (← conn.partitionReadImpl params).status
  | .executeQuery params, seqno => do return (← conn.executeQueryImpl seqno params).status
  | .profileQuery params, seqno => do return (← conn.profileQueryImpl seqno params).status
  | .executeDml params, seqno => do return (← conn.executeDmlImpl seqno params).status
  | .profileDml params, seqno => do return (← conn.profileDmlImpl seqno params).status
  | .analyzeSql params, seqno => do return (← conn.analyzeSqlImpl seqno params).status
  | .partitionQuery params, _ => do return (← conn.partitionQueryImpl params).status
  | .executeBatchDml statements, seqno => do
    match ← conn.executeBatchDmlImpl seqno statements with
    | .error e => return e.status
    | .ok result => return result.status
  | .executePartitionedDml statement, seqno => do
    return (← conn.executePartitionedDmlImpl seqno statement).status
  | .commit mutations, _ => do return (← conn.commitImpl mutations).status
  | .rollback, _ => conn.rollbackImpl

def operate (op : Operation) : Op σ χ Status := TransactionImpl.visit (conn.functor op)

end ConnectionImpl

def Operation.dissociates : Operation → Bool
  | .partitionRead _ | .partitionQuery _ => true
  | .read _ | .executeQuery _ | .profileQuery _ | .executeDml _ | .profileDml _ | .analyzeSql _
  | .executeBatchDml _ | .executePartitionedDml _ | .commit _ | .rollback => false

inductive Partition
  | read (partition : ReadPartition)
  | query (partition : QueryPartition)

namespace Partition

def sessionId : Partition → String
  | .read partition => partition.proto.session
  | .query partition => partition.sessionId

def transactionId : Partition → String
  | .read partition => partition.proto.transaction.getId
  | .query partition => partition.transactionId

def partitionToken : Partition → String
  | .read partition => partition.proto.partitionToken
  | .query partition => partition.partitionToken

end Partition

/-- The status with which an operation itself ended, and the partitions it returned. -/
structure Report where
  status : Status
  partitions : List Partition

namespace ConnectionImpl

variable {σ χ : Type} (conn : ConnectionImpl σ)

def reporter : Operation → Nat → Op σ χ Report
  | .read params, _ => do return ⟨(← conn.readImpl params).status, []⟩
  | .partitionRead params, _ => do
    let result ← conn.partitionReadImpl params
    return ⟨result.status, (result.toOption.getD []).map .read⟩
  | .executeQuery params, seqno => do return ⟨(← conn.executeQueryImpl seqno params).status, []⟩
  | .profileQuery params, seqno => do return ⟨(← conn.profileQueryImpl seqno params).status, []⟩
  | .executeDml params, seqno => do return ⟨(← conn.executeDmlImpl seqno params).status, []⟩
  | .profileDml params, seqno => do return ⟨(← conn.profileDmlImpl seqno params).status, []⟩
  | .analyzeSql params, seqno => do return ⟨(← conn.analyzeSqlImpl seqno params).status, []⟩
  | .partitionQuery params, _ => do
    let result ← conn.partitionQueryImpl params
    return ⟨result.status, (result.toOption.getD []).map .query⟩
  | .executeBatchDml statements, seqno => do
    return ⟨(← conn.executeBatchDmlImpl seqno statements).status, []⟩
  | .executePartitionedDml statement, seqno => do
    return ⟨(← conn.executePartitionedDmlImpl seqno statement).status, []⟩
  | .commit mutations, _ => do return ⟨(← conn.commitImpl mutations).status, []⟩
  | .rollback, _ => do return ⟨← conn.rollbackImpl, []⟩

end ConnectionImpl

end SpannerClient
