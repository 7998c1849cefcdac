import SpannerClient.Internal.RetryLoop

namespace SpannerClient

open Program

structure Instance where
  projectId : String
  instanceId : String
  deriving DecidableEq

def Instance.fullName (i : Instance) : String :=
  "projects/" ++ i.projectId ++ "/instances/" ++ i.instanceId

structure Database where
  inst : Instance
  databaseId : String
  deriving DecidableEq

def Database.fullName (db : Database) : String :=
  db.inst.fullName ++ "/databases/" ++ db.databaseId

namespace Iam

variable {β : Type}

structure Policy (β : Type) where
  bindings : β
  etag : String
  deriving DecidableEq

inductive Request (β : Type)
  | getIamPolicy (resource : String)
  | setIamPolicy (resource : String) (policy : Policy β)

inductive LoopKind
  | retry | rerun
  deriving DecidableEq

inductive Call (β : Type)
  | rpc (request : Request β)
  | updater (current : Policy β)
  | isExhausted (loop : LoopKind)
  | onFailure (loop : LoopKind) (status : Status)
  | onCompletion (loop : LoopKind)
  | sleepFor (delay : Nat)

@[reducible] def Reply : Call β → Type
  | .rpc _ => StatusOr (Policy β)
  | .updater _ => Option (Policy β)
  | .isExhausted _ | .onFailure _ _ => Bool
  | .onCompletion _ => Nat
  | .sleepFor _ => Unit

abbrev Op (β α : Type) := Program (ε := Call β) Reply Unit Abort α

def policies : LoopPolicies (Reply (β := β)) Unit where
  isExhausted := perform (Call.isExhausted .retry)
  onFailure status := perform (Call.onFailure .retry status)
  backoff := do
    let delay ← perform (Call.onCompletion .retry)
    perform (Call.sleepFor delay)

structure AdminConnection where
  print : Status → String
  fuel : Nat

namespace AdminConnection

variable (conn : AdminConnection)

def getIamPolicy (resource : String) : Op β (StatusOr (Policy β)) :=
  RetryLoop.retryLoop policies conn.print true (perform (Call.rpc (.getIamPolicy resource)))
    "GetIamPolicy" conn.fuel

def setIamPolicy (resource : String) (policy : Policy β) : Op β (StatusOr (Policy β)) :=
  let isIdempotent := policy.etag ≠ ""
  RetryLoop.retryLoop policies conn.print isIdempotent
    (perform (Call.rpc (.setIamPolicy resource policy))) "SetIamPolicy" conn.fuel

end AdminConnection

def attempt (get : Op β (StatusOr (Policy β))) (set : Policy β → Op β (StatusOr (Policy β))) :
    Op β (StatusOr (Policy β) ⊕ Status) := do
  match ← get with
  | .error e => return .inr e.status
  | .ok currentPolicy =>
    match ← perform (Call.updater currentPolicy) with
    | none => return .inl (.ok currentPolicy)
    | some desired =>
      let result ← set { desired with etag := currentPolicy.etag }
      if SafeTransactionRerun.isOk (StatusOr.status result) then return .inl result
      return .inr (StatusOr.status result)

def setWithUpdater (get : Op β (StatusOr (Policy β)))
    (set : Policy β → Op β (StatusOr (Policy β))) : Nat → Op β (StatusOr (Policy β))
  | 0 => throw .outOfFuel
  | fuel + 1 => do
    match ← attempt get set with
    | .inl result => return result
    | .inr lastStatus =>
      if !(← perform (Call.onFailure .rerun lastStatus)) then
        RetryLoop.returnStatus lastStatus
      else
        let delay ← perform (Call.onCompletion .rerun)
        perform (Call.sleepFor delay)
        if ← perform (Call.isExhausted .rerun) then RetryLoop.returnStatus lastStatus
        else setWithUpdater get set fuel

end Iam

open Iam

variable {β : Type}

namespace InstanceAdminConnectionImpl

def getIamPolicy (conn : AdminConnection) (instanceName : String) : Op β (StatusOr (Policy β)) :=
  conn.getIamPolicy instanceName

def setIamPolicy (conn : AdminConnection) (instanceName : String) (policy : Policy β) :
    Op β (StatusOr (Policy β)) :=
  conn.setIamPolicy instanceName policy

end InstanceAdminConnectionImpl

namespace DatabaseAdminConnectionImpl

def getIamPolicy (conn : AdminConnection) (database : Database) : Op β (StatusOr (Policy β)) :=
  conn.getIamPolicy database.fullName

def setIamPolicy (conn : AdminConnection) (database : Database) (policy : Policy β) :
    Op β (StatusOr (Policy β)) :=
  conn.setIamPolicy database.fullName policy

end DatabaseAdminConnectionImpl

namespace InstanceAdminClient

def getIamPolicy (conn : AdminConnection) (i : Instance) : Op β (StatusOr (Policy β)) :=
  InstanceAdminConnectionImpl.getIamPolicy conn i.fullName

def setIamPolicy (conn : AdminConnection) (i : Instance) (policy : Policy β) :
    Op β (StatusOr (Policy β)) :=
  InstanceAdminConnectionImpl.setIamPolicy conn i.fullName policy

def setIamPolicyWithUpdater (conn : AdminConnection) (i : Instance) (fuel : Nat) :
    Op β (StatusOr (Policy β)) :=
  setWithUpdater (getIamPolicy conn i) (setIamPolicy conn i) fuel

end InstanceAdminClient

namespace DatabaseAdminClient

def getIamPolicy (conn : AdminConnection) (db : Database) : Op β (StatusOr (Policy β)) :=
  DatabaseAdminConnectionImpl.getIamPolicy conn db

def setIamPolicy (conn : AdminConnection) (db : Database) (policy : Policy β) :
    Op β (StatusOr (Policy β)) :=
  DatabaseAdminConnectionImpl.setIamPolicy conn db policy

def setIamPolicyWithUpdater (conn : AdminConnection) (db : Database) (fuel : Nat) :
    Op β (StatusOr (Policy β)) :=
  setWithUpdater (getIamPolicy conn db) (setIamPolicy conn db) fuel

end DatabaseAdminClient

end SpannerClient
