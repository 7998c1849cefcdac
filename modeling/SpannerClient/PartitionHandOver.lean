import SpannerClient.Internal.PartitionTransaction
import SpannerClient.PartitionSerialization
import SpannerClient.Transaction

/-! Partitions that are read in another process than the one they were made in. -/

namespace SpannerClient

open Protobuf Program TransactionImpl

variable {σ χ : Type}

def makeTransactionFromIds (object sessionObject : Nat) (now : Int)
    (sessionId transactionId : String) : Transaction (SessionHolder χ) :=
  .ofIds object (makeDissociatedSessionHolder sessionObject now sessionId) transactionId

structure PartitionClient (σ : Type) where
  conn : ConnectionImpl σ
  queryOptions : QueryOptions
  environment : Option String

namespace PartitionClient

variable (client : PartitionClient σ)

def overlayQueryOptions (preferred : QueryOptions) : QueryOptions where
  optimizerVersion := match preferred.optimizerVersion with
    | some version => some version
    | none => match client.queryOptions.optimizerVersion with
      | some version => some version
      | none => client.environment

def read (partition : ReadPartition) : ConnectionImpl.Op σ χ Status :=
  client.conn.operate (.read (makeReadParams partition))

def executeQuery (partition : QueryPartition) (opts : QueryOptions) :
    ConnectionImpl.Op σ χ Status :=
  client.conn.operate (.executeQuery
    { makeSqlParams partition with queryOptions := client.overlayQueryOptions opts })

end PartitionClient

namespace Partition

section

variable (readWire : Wire ReadRequest) (sqlWire : Wire ExecuteSqlRequest)

def serialize : Partition → StatusOr String
  | .read partition => serializeReadPartition readWire partition
  | .query partition => serializeQueryPartition sqlWire partition

def deserialize (serialized : String) : Partition → StatusOr Partition
  | .read _ => (deserializeReadPartition readWire serialized).map .read
  | .query _ => (deserializeQueryPartition sqlWire serialized).map .query

variable {readWire sqlWire}

theorem deserialize_serialize (hread : readWire.Lossless) (hsql : sqlWire.Lossless)
    {partition : Partition} {serialized : String}
    (h : partition.serialize readWire sqlWire = .ok serialized) :
    partition.deserialize readWire sqlWire serialized = .ok partition := by
  cases partition with
  | read partition =>
    rw [deserialize, deserialize_serializeReadPartition hread h]
    rfl
  | query partition =>
    rw [deserialize, deserialize_serializeQueryPartition hsql h]
    rfl

end

def transaction (object sessionObject : Nat) (now : Int) (partition : Partition) :
    Transaction (SessionHolder χ) :=
  makeTransactionFromIds object sessionObject now partition.sessionId partition.transactionId

def execute (client : PartitionClient σ) (opts : QueryOptions) :
    Partition → ConnectionImpl.Op σ χ Status
  | .read partition => client.read partition
  | .query partition => client.executeQuery partition opts

end Partition

def Operation.Requests (partition : Partition) : Operation → ConnectionImpl.Call → Prop
  | .partitionRead params, .streamingRead request =>
    request = {
      session := partition.sessionId
      transaction := .id partition.transactionId
      table := params.readParams.table
      index := params.readParams.readOptions.indexName
      columns := params.readParams.columns
      keySet := params.readParams.keys
      limit := params.readParams.readOptions.limit
      partitionToken := partition.partitionToken }
  | .partitionQuery params, .executeStreamingSql request =>
    request.session = partition.sessionId ∧ request.transaction = .id partition.transactionId ∧
      request.partitionToken = partition.partitionToken ∧
      request.statement.sql = params.statement.statement ∧
      request.statement.params =
        params.statement.params.map (fun (name, value) => (name, value.value)) ∧
      request.statement.paramTypes =
        params.statement.params.map fun (name, value) => (name, value.type)
  | _, _ => False

namespace ConnectionImpl

variable {conn : ConnectionImpl σ} {tr : List (Exchange σ χ)}
  {t t' : TransactionImpl (SessionHolder χ)} {holder : SessionHolder χ}

theorem Prepares.of_session {dissociate : Bool} {prepared : StatusOr (SessionHolder χ)}
    (hsession : t.session = some holder) (h : Prepares dissociate t tr prepared t') :
    tr = [] ∧ prepared = .ok holder ∧ t' = t := by
  cases h with
  | held hheld =>
    cases hsession.symm.trans hheld
    exact ⟨rfl, rfl, rfl⟩
  | allocated _ hnone | failed _ hnone => cases hsession.symm.trans hnone

def OnlyMarks (tr : List (Exchange σ χ)) : Prop := ∀ c ∈ tr, ∃ object, c.1 = .setBad object

theorem Marks.onlyMarks {status : Status} (h : Marks holder status tr) : OnlyMarks tr := by
  rw [Marks] at h
  split at h <;> simp [h, OnlyMarks]

theorem request_of_readImpl {params : ReadParams} {result : Except Abort (ResultSource σ)}
    (hsession : t.session = some holder)
    (h : (conn.readImpl params : Op σ χ _).Runs t tr result t') :
    ∃ rpc rest, tr = ⟨.streamingRead
      { session := holder.session.name
        transaction := t.selector
        table := params.table
        index := params.readOptions.indexName
        columns := params.columns
        keySet := params.keys
        limit := params.readOptions.limit
        partitionToken := params.partitionToken.getD "" }, rpc⟩ :: rest ∧ OnlyMarks rest := by
  rcases runs_prepared h with ⟨e, -, hprepares⟩ | ⟨holder', t₁, tr₁, tr₂, rfl, hprepares, hbody⟩
  · cases (hprepares.of_session hsession).2.1
  · obtain ⟨rfl, hprepared, rfl⟩ := hprepares.of_session hsession
    cases hprepared
    simp only [runs_get_bind, runs_perform_bind] at hbody
    obtain ⟨rpc, tr₃, rfl, hbody⟩ := hbody
    refine ⟨rpc, tr₃, rfl, ?_⟩
    rw [runs_bind] at hbody
    rcases hbody with ⟨response, tr₄, tr₅, t₂, rfl, hcreate, hrest⟩ | ⟨x, rfl, hcreate⟩
    · obtain ⟨rfl, rfl, -⟩ := runs_createSource hcreate
      rw [List.nil_append]
      cases response with
      | error e => exact (runs_checkSession_then hrest).1.onlyMarks
      | ok reader =>
        obtain ⟨rfl, -⟩ := runs_accept hrest
        simp [OnlyMarks]
    · obtain ⟨rfl, -⟩ := runs_createSource hcreate
      simp [OnlyMarks]

theorem request_of_commonQueryImpl {seqno : Nat} {params : SqlParams} {queryMode : QueryMode}
    {result : Except Abort (ResultSource σ)} (hsession : t.session = some holder)
    (h : (conn.commonQueryImpl seqno params queryMode : Op σ χ _).Runs t tr result t') :
    ∃ rpc rest, tr = ⟨.executeStreamingSql (executeSqlRequest holder t seqno params queryMode),
      rpc⟩ :: rest ∧ OnlyMarks rest := by
  rcases runs_prepared h with ⟨e, -, hprepares⟩ | ⟨holder', t₁, tr₁, tr₂, rfl, hprepares, hbody⟩
  · cases (hprepares.of_session hsession).2.1
  · obtain ⟨rfl, hprepared, rfl⟩ := hprepares.of_session hsession
    cases hprepared
    have hsql : ∀ {tr response t'}, (executeSqlImpl holder seqno params queryMode fun request => do
          let rpc ← perform (Call.executeStreamingSql request)
          conn.createSource rpc : Op σ χ _).Runs t₁ tr response t' →
        ∃ rpc, tr = [⟨.executeStreamingSql (executeSqlRequest holder t₁ seqno params queryMode),
          rpc⟩] := by
      intro tr response t' h
      cases runs_executeSqlImpl (fun h => (runs_executeStreamingSql h).1) h with
      | aborted hfn | failed hfn | fetched hfn _ => exact (runs_executeStreamingSql hfn).2.1
    rw [runs_bind] at hbody
    rcases hbody with ⟨response, tr₃, tr₄, t₂, rfl, hrun, hrest⟩ | ⟨x, rfl, hrun⟩
    · obtain ⟨rpc, rfl⟩ := hsql hrun
      refine ⟨rpc, tr₄, rfl, ?_⟩
      cases response with
      | error e => exact (runs_checkSession_then hrest).1.onlyMarks
      | ok reader =>
        obtain ⟨rfl, -⟩ := runs_pure.mp hrest
        simp [OnlyMarks]
    · obtain ⟨rpc, rfl⟩ := hsql hrun
      exact ⟨rpc, [], rfl, by simp [OnlyMarks]⟩

theorem runs_functor_of_visit {functor : Nat → Op σ χ Status} {outcome : Except Abort Status}
    (hstate : t.state = .done) (h : (visit functor).Runs t tr outcome t') :
    (functor (t.seqno + 1)).Runs { t with seqno := t.seqno + 1 } tr outcome t' := by
  simpa only [visit, runs_modify_bind, runs_get_bind, hstate] using h

theorem request_of_execute {op : Operation} {session : String} {response : PartitionResponse}
    {partition : Partition} (hpartition : partition ∈ op.partitions session response)
    {client : PartitionClient σ} {opts : QueryOptions} {object sessionObject : Nat} {now : Int}
    {outcome : Except Abort Status}
    (h : (partition.execute client opts : Op σ χ Status).Runs
      (partition.transaction object sessionObject now).impl tr outcome t') :
    ∃ c rest, tr = c :: rest ∧ op.Requests partition c.1 ∧ OnlyMarks rest := by
  cases op with
  | partitionRead params =>
    obtain ⟨partitionToken, -, rfl⟩ := List.mem_map.mp hpartition
    obtain ⟨result, hrun⟩ := runs_of_bind_pure (fun result => ⟨_, rfl⟩)
      (runs_functor_of_visit rfl h)
    obtain ⟨rpc, rest, rfl, hrest⟩ := request_of_readImpl rfl hrun
    exact ⟨_, rest, rfl, rfl, hrest⟩
  | partitionQuery params =>
    obtain ⟨partitionToken, -, rfl⟩ := List.mem_map.mp hpartition
    obtain ⟨result, hrun⟩ := runs_of_bind_pure (fun result => ⟨_, rfl⟩)
      (runs_functor_of_visit rfl h)
    obtain ⟨rpc, rest, rfl, hrest⟩ := request_of_commonQueryImpl rfl hrun
    exact ⟨_, rest, rfl, ⟨rfl, rfl, rfl, rfl, rfl, rfl⟩, hrest⟩
  | read _ | executeQuery _ | profileQuery _ | executeDml _ | profileDml _ | analyzeSql _
  | executeBatchDml _ | executePartitionedDml _ | commit _ | rollback => cases hpartition

/-- A partition that was serialized in one process is deserialized in another, and there asks for
what the partitioned operation would have asked for. -/
theorem partition_handed_over {readWire : Wire ReadRequest} {sqlWire : Wire ExecuteSqlRequest}
    (hread : readWire.Lossless) (hsql : sqlWire.Lossless) {op : Operation} {report : Report}
    (h : (visit (conn.reporter op) : Op σ χ Report).Runs t tr (.ok report) t')
    {partition : Partition} (hpartition : partition ∈ report.partitions) {serialized : String}
    (hserialized : partition.serialize readWire sqlWire = .ok serialized) :
    ∃ received, partition.deserialize readWire sqlWire serialized = .ok received ∧
      ∀ {σ' χ' : Type} (client : PartitionClient σ') (opts : QueryOptions)
        (object sessionObject : Nat) (now : Int) {tr : List (Exchange σ' χ')}
        {outcome : Except Abort Status} {t' : TransactionImpl (SessionHolder χ')},
        (received.execute client opts : Op σ' χ' Status).Runs
            (received.transaction object sessionObject now).impl tr outcome t' →
          ∃ c rest, tr = c :: rest ∧ op.Requests partition c.1 ∧ OnlyMarks rest := by
  refine ⟨partition, Partition.deserialize_serialize hread hsql hserialized, ?_⟩
  intro σ' χ' client opts object sessionObject now tr' outcome t'' hexecute
  cases runs_visit h with
  | blocked _ hblocked => cases hblocked
  | ran hrun =>
    have hpartitioned := partitioned_of_reporter hrun
    generalize report.partitions = partitions at hpartitioned hpartition
    cases hpartitioned with
    | none => cases hpartition
    | made holder response => exact request_of_execute hpartition hexecute

def oneMessage {μ : Type} [DecidableEq μ] (message : μ) (serialized : String) : Wire μ where
  serializeToString m := if m = message then some serialized else none
  parseFromString s := if s = serialized then some message else none

theorem oneMessage_lossless {μ : Type} [DecidableEq μ] (message : μ) (serialized : String) :
    (oneMessage message serialized).Lossless := by
  intro m s h
  obtain ⟨rfl, rfl⟩ : m = message ∧ serialized = s := by simpa [oneMessage] using h
  simp [oneMessage]

def readWire : Wire ReadRequest :=
  oneMessage ⟨"session", .id "txn", "Singers", "", ["SingerId"], ⟨[], [], true⟩, 0, "token"⟩
    "\n\x07session\x12\x05\x12\x03txn\x1a\x07Singers*\x08SingerId2\x02\x18\x01R\x05token"

def sqlBytes : String :=
  "\n\x07session\x12\x05\x12\x03txn\x1a\tSELECT @n" ++
    "\"\n\n\x08\n\x01n\x12\x03\x1a\x017*\x07\n\x01n\x12\x02\x08\x02B\x05token"

def sqlWire : Wire ExecuteSqlRequest :=
  oneMessage ⟨"session", .id "txn",
    ⟨"SELECT @n", [("n", .stringValue "7")], [("n", .mk .int64 none [])]⟩, 0, .normal, "token",
    none⟩ sqlBytes

def selection : SqlStatement :=
  ⟨"SELECT @n", [("n", ⟨.mk .int64 none [], .stringValue "7"⟩)], by simp⟩

def queryPartition : Partition := .query ⟨"txn", "session", "token", selection⟩

def firstPartitionQuery : Reported ServerStream Unit where
  op := .partitionQuery ⟨selection, ⟨none, none⟩⟩
  before := newTransaction
  trace := [⟨.allocate true, .ok session⟩, ⟨.isExhausted, false⟩,
    ⟨.rpc (.partitionQuery ⟨"session", .begin .readWrite, selection.toProto, ⟨0, 0⟩⟩),
      .ok ⟨["token"], some ⟨"txn", none⟩⟩⟩]
  report := ⟨.success, [queryPartition]⟩
  after := ⟨.done, some ⟨session, true⟩, .id "txn", 1⟩

theorem firstPartitionQuery_reports :
    serverConn.Reports newTransaction firstPartitionQuery firstPartitionQuery.after :=
  ⟨rfl, .call (.call (.call .ret)), rfl⟩

/-- The partition is received, and whoever visits its transaction asks for it as `op` would. -/
def HandedOver (op : Operation) (partition : Partition) (serialized : String) : Prop :=
  ∃ received, partition.deserialize readWire sqlWire serialized = .ok received ∧
    ∀ {σ' χ' : Type} (client : PartitionClient σ') (opts : QueryOptions)
      (object sessionObject : Nat) (now : Int) {tr : List (Exchange σ' χ')}
      {outcome : Except Abort Status} {t' : TransactionImpl (SessionHolder χ')},
      (received.execute client opts : Op σ' χ' Status).Runs
          (received.transaction object sessionObject now).impl tr outcome t' →
        ∃ c rest, tr = c :: rest ∧ op.Requests partition c.1 ∧ OnlyMarks rest

theorem partitions_handed_over :
    HandedOver (.partitionRead partitionReadParams) (partition "txn")
      "\n\x07session\x12\x05\x12\x03txn\x1a\x07Singers*\x08SingerId2\x02\x18\x01R\x05token" ∧
    HandedOver (.partitionQuery ⟨selection, ⟨none, none⟩⟩) queryPartition sqlBytes :=
  ⟨partition_handed_over (oneMessage_lossless _ _) (oneMessage_lossless _ _)
      firstPartitionRead_reports.runs (List.mem_singleton_self _) (by decide),
    partition_handed_over (oneMessage_lossless _ _) (oneMessage_lossless _ _)
      firstPartitionQuery_reports.runs (List.mem_singleton_self _) (by decide)⟩

end ConnectionImpl

end SpannerClient
