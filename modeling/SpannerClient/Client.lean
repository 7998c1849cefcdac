import SpannerClient.Connection
import SpannerClient.Library.Program
import SpannerClient.Transaction

namespace SpannerClient

open Program

namespace Client

variable {ς μ ξ : Type}

/-- How a call to the mutator ends; a `ξ` is any exception but a `RuntimeStatusError`. -/
inductive Mutated (μ ξ : Type)
  | returned (mutations : StatusOr μ)
  | threwStatus (status : Status)
  | threw (exception : ξ)

inductive Call (ς μ : Type)
  | mutator (txn : Transaction ς)
  | commit (txn : Transaction ς) (mutations : μ)
  | rollback (txn : Transaction ς)
  | onFailure (status : Status)
  | setBad (session : ς)
  | onCompletion
  | sleepFor (delay : Nat)
  | log (message : String)

/-- A call that is given the transaction may use it, and leaves it in some other state. -/
@[reducible] def Reply (ξ : Type) : Call ς μ → Type
  | .mutator _ => Mutated μ ξ × TransactionImpl ς
  | .commit _ _ => StatusOr CommitResult × TransactionImpl ς
  | .rollback _ => Status
  | .onFailure _ => Bool
  | .onCompletion => Nat
  | .setBad _ | .sleepFor _ | .log _ => Unit

abbrev Body (ς μ ξ α : Type) := Program (ε := Call ς μ) (Reply ξ) (Transaction ς) ξ α

def okThrown : Failure := .of .unknown "OK Status thrown from mutator" StatusCode.unknown_ne_ok

/-- A `RuntimeStatusError` counts as a bad status that the mutator returned. -/
def caught (status : Status) : Failure :=
  if h : status.ok = false then ⟨status, h⟩ else okThrown

def rollback : Body ς μ ξ Unit := do
  let txn ← get
  let rbStatus ← perform (Call.rollback txn)
  if SafeTransactionRerun.isOk rbStatus then return ()
  perform (Call.log ("Rollback() failure in Client::Commit(): " ++ rbStatus.message))

def mutate : Body ς μ ξ (StatusOr μ) := do
  let txn ← get
  let (mutated, impl) ← perform (Call.mutator txn)
  modify fun txn => { txn with impl }
  match mutated with
  | .returned mutations => return mutations
  | .threwStatus status => return .error (caught status)
  | .threw exception =>
    rollback
    throw exception

def considerRerun (e : Failure) : Body ς μ ξ (Option (StatusOr CommitResult)) := do
  let rerun ← perform (Call.onFailure e.status)
  if !rerun then return some (.error e)
  let txn ← get
  if isSessionNotFound e.status then
    match txn.impl.session with
    | some session => perform (Call.setBad session)
    | none => pure ()
    modify fun txn => .readWrite (txn.object + 1)
  else
    modify fun txn => .readWriteAfter (txn.object + 1) txn
  let delay ← perform Call.onCompletion
  perform (Call.sleepFor delay)
  return none

def attempt : Body ς μ ξ (Option (StatusOr CommitResult)) := do
  match ← mutate with
  | .ok mutations =>
    let txn ← get
    let (result, impl) ← perform (Call.commit txn mutations)
    modify fun txn => { txn with impl }
    match result with
    | .ok result => return some (.ok result)
    | .error e =>
      if SafeTransactionRerun.isTransientFailure e.status then considerRerun e
      else return some (.error e)
  | .error e =>
    if SafeTransactionRerun.isTransientFailure e.status then considerRerun e
    else
      rollback
      return some (.error e)

def commit : Nat → Body ς μ ξ (Option (StatusOr CommitResult))
  | 0 => return none
  | fuel + 1 => do
    match ← attempt with
    | some result => return some result
    | none => commit fuel

end Client

end SpannerClient
