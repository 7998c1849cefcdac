import SpannerClient.AdminClient
import SpannerClient.ChronoRoundTrip
import SpannerClient.Internal.PollingLoop
import SpannerClient.Library.Embedding
import SpannerClient.Protobuf.InstanceAdmin
import SpannerClient.TimestampProto

namespace SpannerClient

open Program

namespace Internal

theorem makeTimestamp_isSome {p : Period} (tp : SysTime p) :
    (Timestamp.makeTimestamp tp).isSome := by
  rw [Timestamp.makeTimestamp_eq]
  rfl

def convertTimePointToProtoTimestamp {p : Period} (tp : SysTime p) : StatusOr Protobuf.Timestamp :=
  match (Timestamp.makeTimestamp tp).get (makeTimestamp_isSome tp) with
  | .error e => .error e
  | .ok ts => .ok ts.toProto

end Internal

structure Backup where
  inst : Instance
  backupId : String
  deriving DecidableEq

def Backup.fullName (b : Backup) : String := b.inst.fullName ++ "/backups/" ++ b.backupId

namespace Admin

structure CreateInstanceRequest where
  parent : String
  instanceId : String
  config : String
  inst : Protobuf.Instance

inductive Request
  | createDatabase (parent createStatement : String) (extraStatements : List String)
  | updateDatabaseDdl (database : String) (statements : List String)
  | restoreDatabase (parent databaseId backup : String)
  | createBackup (parent backupId database : String) (expireTime : Protobuf.Timestamp)
  | createInstance (request : CreateInstanceRequest)
  | updateInstance (request : Protobuf.UpdateInstanceRequest)

inductive Call
  | start (request : Request)
  | isExhausted
  | onFailure (status : Status)
  | onCompletion
  | sleepFor (delay : Nat)
  | poll (call : PollCall)

@[reducible] def Reply : Call → Type
  | .start _ => StatusOr Protobuf.Operation
  | .isExhausted | .onFailure _ => Bool
  | .onCompletion => Nat
  | .sleepFor _ => Unit
  | .poll call => call.Reply

abbrev Op (α : Type) := Program (ε := Call) Reply Unit Abort α

def policies : LoopPolicies (ε := Call) Reply Unit where
  isExhausted := perform Call.isExhausted
  onFailure status := perform (Call.onFailure status)
  backoff := do
    let delay ← perform Call.onCompletion
    perform (Call.sleepFor delay)

def polling : @Embedding PollCall Call PollCall.Reply Reply where
  call := .poll
  reply _ r := r

structure Connection extends Iam.AdminConnection where
  makeStatusFromRpcError : Protobuf.RpcStatus → Status

structure Invocation (α : Type) where
  location : String
  isIdempotent : Bool
  /-- The request, unless it cannot be made. -/
  request : StatusOr Request
  awaitLocation : String
  extract : Protobuf.Operation → String → StatusOr α

namespace Connection

variable {α : Type} (conn : Connection)

def start (isIdempotent : Bool) (location : String) (request : Request) :
    Op (StatusOr Protobuf.Operation) :=
  RetryLoop.retryLoop policies conn.print isIdempotent (perform (Call.start request)) location
    conn.fuel

def await (location : String) (extract : Protobuf.Operation → String → StatusOr α)
    (operation : Protobuf.Operation) : Op (StatusOr α) :=
  (PollingLoop.pollingLoop conn.makeStatusFromRpcError extract location conn.fuel operation).embed
    polling

/-- The body of the methods; what their future is set to is what it returns. -/
def run (m : Invocation α) : Op (StatusOr α) :=
  match m.request with
  | .error e => return .error e
  | .ok request => do
    match ← conn.start m.isIdempotent m.location request with
    | .error e => return .error e
    | .ok operation => conn.await m.awaitLocation m.extract operation

end Connection

end Admin

open Admin

variable {α : Type} (packing : Packing α)

namespace DatabaseAdminConnectionImpl

def createDatabase (database : Database) (extraStatements : List String) : Invocation α where
  location := "CreateDatabase"
  isIdempotent := false
  request := .ok (.createDatabase database.inst.fullName
    ("CREATE DATABASE `" ++ database.databaseId ++ "`") extraStatements)
  awaitLocation := "AwaitDatabase"
  extract := extractResponse packing

def updateDatabase (database : Database) (statements : List String) : Invocation α where
  location := "UpdateDatabase"
  isIdempotent := false
  request := .ok (.updateDatabaseDdl database.fullName statements)
  awaitLocation := "AwaitUpdateDatabase"
  extract := extractMetadata packing

def restoreDatabase (database : Database) (backupFullName : String) : Invocation α where
  location := "RestoreDatabase"
  isIdempotent := false
  request := .ok (.restoreDatabase database.inst.fullName database.databaseId backupFullName)
  awaitLocation := "AwaitDatabase"
  extract := extractResponse packing

def createBackup (database : Database) (backupId : String) {p : Period} (expireTime : SysTime p) :
    Invocation α where
  location := "CreateBackup"
  isIdempotent := false
  request := (Internal.convertTimePointToProtoTimestamp expireTime).map
    (.createBackup database.inst.fullName backupId database.fullName)
  awaitLocation := "AwaitCreateBackup"
  extract := extractResponse packing

end DatabaseAdminConnectionImpl

namespace InstanceAdminConnectionImpl

def createInstance (request : CreateInstanceRequest) : Invocation α where
  location := "CreateInstance"
  isIdempotent := false
  request := .ok (.createInstance request)
  awaitLocation := "AwaitCreateOrUpdateInstance"
  extract := extractResponse packing

/-- The one method that is retried. -/
def updateInstance (request : Protobuf.UpdateInstanceRequest) : Invocation α where
  location := "UpdateInstance"
  isIdempotent := true
  request := .ok (.updateInstance request)
  awaitLocation := "AwaitCreateOrUpdateInstance"
  extract := extractResponse packing

end InstanceAdminConnectionImpl

end SpannerClient
