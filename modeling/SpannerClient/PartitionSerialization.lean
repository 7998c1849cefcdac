import SpannerClient.Connection

namespace SpannerClient

structure Wire (μ : Type) where
  serializeToString : μ → Option String
  parseFromString : String → Option μ

def Wire.Lossless {μ : Type} (wire : Wire μ) : Prop :=
  ∀ m serialized, wire.serializeToString m = some serialized →
    wire.parseFromString serialized = some m

/-- `ParamType::insert`, which leaves a parameter that is there. -/
def insertParam (params : List (String × Value)) (name : String) (value : Value) :
    List (String × Value) :=
  if name ∈ params.map Prod.fst then params else params ++ [(name, value)]

/-- The body of the loop of `DeserializeQueryPartition()`: a parameter without a type is dropped. -/
def addParam (paramTypes : List (String × Protobuf.SpannerType)) (params : List (String × Value))
    (param : String × Protobuf.Value) : List (String × Value) :=
  match paramTypes.lookup param.1 with
  | some type => insertParam params param.1 (fromProto type param.2)
  | none => params

theorem nodup_insertParam {params : List (String × Value)} (name : String) (value : Value)
    (h : (params.map Prod.fst).Nodup) : ((insertParam params name value).map Prod.fst).Nodup := by
  rw [insertParam]
  split
  · exact h
  · next hname =>
    rw [List.map_append, List.nodup_append]
    refine ⟨h, by simp, fun other hother name' hname' heq => ?_⟩
    rw [List.map_singleton, List.mem_singleton] at hname'
    subst hname' heq
    exact hname hother

theorem nodup_addParams {paramTypes : List (String × Protobuf.SpannerType)}
    {values : List (String × Protobuf.Value)} {params : List (String × Value)}
    (h : (params.map Prod.fst).Nodup) :
    ((values.foldl (addParam paramTypes) params).map Prod.fst).Nodup := by
  induction values generalizing params with
  | nil => exact h
  | cons param values ih =>
    apply ih
    rw [addParam]
    split
    · exact nodup_insertParam _ _ h
    · exact h

def SqlStatement.fromProto (proto : Protobuf.Statement) : SqlStatement where
  statement := proto.sql
  params := proto.params.foldl (addParam proto.paramTypes) []
  nodup := nodup_addParams (by simp)

theorem lookup_of_nodup {α β : Type} [DecidableEq α] {l : List (α × β)} {a : α} {b : β}
    (hnodup : (l.map Prod.fst).Nodup) (h : (a, b) ∈ l) : l.lookup a = some b := by
  obtain ⟨l₁, l₂, rfl⟩ := List.append_of_mem h
  refine List.lookup_eq_some_iff.mpr ⟨l₁, l₂, rfl, fun p hp => ?_⟩
  simp only [List.map_append, List.map_cons, List.nodup_append, List.mem_map] at hnodup
  have hne := hnodup.2.2 _ ⟨p, hp, rfl⟩ a (by simp)
  simpa using hne.symm

theorem foldl_addParam {paramTypes : List (String × Protobuf.SpannerType)}
    {params left : List (String × Value)} (hnodup : ((params ++ left).map Prod.fst).Nodup)
    (htypes : ∀ param ∈ left, paramTypes.lookup param.1 = some param.2.type) :
    (left.map fun (name, value) => (name, value.value)).foldl (addParam paramTypes) params =
      params ++ left := by
  induction left generalizing params with
  | nil => simp
  | cons param left ih =>
    have hlookup := htypes param List.mem_cons_self
    have hnew : param.1 ∉ params.map Prod.fst := by
      intro hmem
      rw [List.map_append, List.nodup_append] at hnodup
      exact hnodup.2.2 _ hmem _ (by simp) rfl
    have hadd : addParam paramTypes params (param.1, param.2.value) = params ++ [param] := by
      simp [addParam, hlookup, insertParam, hnew, SpannerClient.fromProto]
    rw [List.map_cons, List.foldl_cons, hadd, ih (by simpa using hnodup)
      fun param hparam => htypes param (List.mem_cons_of_mem _ hparam)]
    simp

theorem SqlStatement.fromProto_toProto (statement : SqlStatement) :
    SqlStatement.fromProto statement.toProto = statement := by
  obtain ⟨sql, params, hnodup⟩ := statement
  have htypes : ∀ param ∈ params,
      (params.map fun (name, value) => (name, value.type)).lookup param.1 =
        some param.2.type := by
    intro param hparam
    apply lookup_of_nodup
    · rwa [List.map_map]
    · exact List.mem_map_of_mem (f := fun (name, value) => (name, value.type)) hparam
  have hparams := @foldl_addParam _ [] _ hnodup htypes
  simp only [fromProto, toProto, SqlStatement.mk.injEq, true_and]
  exact hparams

section

variable (wire : Wire Protobuf.ExecuteSqlRequest)

/-- The request that carries a `QueryPartition`; the other fields have their defaults. -/
def QueryPartition.toProto (queryPartition : QueryPartition) : Protobuf.ExecuteSqlRequest where
  session := queryPartition.sessionId
  transaction := .id queryPartition.transactionId
  statement := queryPartition.sqlStatement.toProto
  seqno := 0
  queryMode := .normal
  partitionToken := queryPartition.partitionToken
  optimizerVersion := none

def serializeQueryPartition (queryPartition : QueryPartition) : StatusOr String :=
  match wire.serializeToString queryPartition.toProto with
  | some serializedProto => .ok serializedProto
  | none => .error (.of .invalidArgument "Failed to serialize QueryPartition"
      StatusCode.invalidArgument_ne_ok)

def deserializeQueryPartition (serializedQueryPartition : String) : StatusOr QueryPartition :=
  match wire.parseFromString serializedQueryPartition with
  | none => .error (.of .invalidArgument "Failed to deserialize into QueryPartition"
      StatusCode.invalidArgument_ne_ok)
  | some proto =>
    .ok ⟨proto.transaction.getId, proto.session, proto.partitionToken, .fromProto proto.statement⟩

variable {wire}

theorem deserialize_serializeQueryPartition (hwire : wire.Lossless)
    {queryPartition : QueryPartition} {serialized : String}
    (h : serializeQueryPartition wire queryPartition = .ok serialized) :
    deserializeQueryPartition wire serialized = .ok queryPartition := by
  rw [serializeQueryPartition] at h
  split at h
  · next hserialized =>
    cases h
    rw [deserializeQueryPartition, hwire _ _ hserialized]
    simp [QueryPartition.toProto, Protobuf.TransactionSelector.getId,
      SqlStatement.fromProto_toProto]
  · cases h

end

section

variable (wire : Wire Protobuf.ReadRequest)

def serializeReadPartition (readPartition : ReadPartition) : StatusOr String :=
  match wire.serializeToString readPartition.proto with
  | some serializedProto => .ok serializedProto
  | none => .error (.of .invalidArgument "Failed to serialize SqlPartition"
      StatusCode.invalidArgument_ne_ok)

def deserializeReadPartition (serializedReadPartition : String) : StatusOr ReadPartition :=
  match wire.parseFromString serializedReadPartition with
  | none => .error (.of .invalidArgument "Failed to deserialize into SqlPartition"
      StatusCode.invalidArgument_ne_ok)
  | some proto => .ok ⟨proto⟩

variable {wire}

theorem deserialize_serializeReadPartition (hwire : wire.Lossless) {readPartition : ReadPartition}
    {serialized : String} (h : serializeReadPartition wire readPartition = .ok serialized) :
    deserializeReadPartition wire serialized = .ok readPartition := by
  rw [serializeReadPartition] at h
  split at h
  · next hserialized =>
    cases h
    rw [deserializeReadPartition, hwire _ _ hserialized]
  · cases h

end

def makeReadParams (readPartition : ReadPartition) : ReadParams where
  table := readPartition.proto.table
  keys := readPartition.proto.keySet
  columns := readPartition.proto.columns
  readOptions := ⟨readPartition.proto.index, readPartition.proto.limit⟩
  partitionToken := some readPartition.proto.partitionToken

def makeSqlParams (queryPartition : QueryPartition) : SqlParams where
  statement := queryPartition.sqlStatement
  queryOptions := ⟨none⟩
  partitionToken := some queryPartition.partitionToken

end SpannerClient
