import SpannerClient.Internal.RetryOutcome
import SpannerClient.Protobuf.Operation

namespace SpannerClient

open Protobuf Program

theorem StatusCode.deadlineExceeded_ne_ok : StatusCode.deadlineExceeded ≠ .ok := by decide

/-- How protobuf recognises a packed message of type `α`, and what it unpacks. -/
structure Packing (α : Type) where
  is : Any → Bool
  unpackTo : Any → α

def extractField (field : Operation → Option Any) (kind : String) {α : Type} (packing : Packing α)
    (operation : Operation) (location : String) : StatusOr α :=
  match field operation with
  | none => .error (.of .internal (location ++ "() operation completed without error or " ++ kind ++
      ", name=" ++ operation.name) StatusCode.internal_ne_ok)
  | some any =>
    if packing.is any then .ok (packing.unpackTo any)
    else .error (.of .internal (location ++ "() operation completed with an invalid " ++ kind ++
      " type, name=" ++ operation.name) StatusCode.internal_ne_ok)

def extractResponse {α : Type} : Packing α → Operation → String → StatusOr α :=
  extractField Operation.getResponse "response"

def extractMetadata {α : Type} : Packing α → Operation → String → StatusOr α :=
  extractField Operation.metadata "metadata"

theorem extractField_error {field : Operation → Option Any} {kind location : String} {α : Type}
    {packing : Packing α} {operation : Operation} {e : Failure}
    (h : extractField field kind packing operation location = .error e) :
    e.status.code = .internal ∧
      ∃ problem, e.status.message = location ++ problem ++ operation.name := by
  rw [extractField] at h
  split at h
  · cases h
    refine ⟨rfl, "() operation completed without error or " ++ kind ++ ", name=", ?_⟩
    simp only [Failure.of, String.append_assoc]
  · split at h
    · cases h
    · cases h
      refine ⟨rfl, "() operation completed with an invalid " ++ kind ++ " type, name=", ?_⟩
      simp only [Failure.of, String.append_assoc]

inductive PollCall
  | waitPeriod
  | sleep (milliseconds : Nat)
  | getOperation (name : String)
  | onFailure (status : Status)
  deriving DecidableEq, Repr

abbrev PollCall.Reply : PollCall → Type
  | .waitPeriod => Nat
  | .sleep _ => Unit
  | .getOperation _ => StatusOr Operation
  | .onFailure _ => Bool

namespace PollingLoop

abbrev Trace := List (Sigma PollCall.Reply)

def exhausted : Failure :=
  .of .deadlineExceeded "exhausted polling policy with no previous error"
    StatusCode.deadlineExceeded_ne_ok

def isDone : StatusOr Operation → Bool
  | .ok operation => operation.done
  | .error _ => false

def after (operation : Operation) : StatusOr Operation → Operation
  | .ok update => update
  | .error _ => operation

def refusal : StatusOr Operation → Failure
  | .ok _ => exhausted
  | .error e => e

variable {α : Type} (makeStatusFromRpcError : RpcStatus → Status)
  (extract : Operation → String → StatusOr α) (location : String)

def complete (operation : Operation) : Program PollCall.Reply Unit Abort (StatusOr α) :=
  match operation.getError with
  | some error => RetryLoop.returnStatus (makeStatusFromRpcError error)
  | none => return extract operation location

def pollingLoop : Nat → Operation → Program PollCall.Reply Unit Abort (StatusOr α)
  | 0, _ => throw .outOfFuel
  | fuel + 1, operation => do
    if operation.done then complete makeStatusFromRpcError extract location operation
    else
      let period ← perform PollCall.waitPeriod
      perform (PollCall.sleep period)
      let update ← perform (PollCall.getOperation operation.name)
      if isDone update then
        complete makeStatusFromRpcError extract location (after operation update)
      else if ← perform (PollCall.onFailure update.status) then
        pollingLoop fuel (after operation update)
      else return .error (refusal update)

/-- What a completed operation comes to: its error, unless that is OK, or what is extracted. -/
def outcome (operation : Operation) : Except Abort (StatusOr α) :=
  match operation.getError with
  | some error =>
    if h : (makeStatusFromRpcError error).ok = false then .ok (.error ⟨_, h⟩)
    else .error .invalidArgument
  | none => .ok (extract operation location)

def Returns (operation : Operation) (tr : Trace) (result : Except Abort (StatusOr α)) : Prop :=
  ∃ fuel,
    (pollingLoop makeStatusFromRpcError extract location fuel operation).Runs () tr result () ∧
    result ≠ .error .outOfFuel

def poll (operation : Operation) (period : Nat) (reply : StatusOr Operation) : Trace :=
  [⟨.waitPeriod, period⟩, ⟨.sleep period, ()⟩, ⟨.getOperation operation.name, reply⟩]

def polls : Operation → List (Nat × StatusOr Operation) → Trace
  | _, [] => []
  | operation, (period, .ok update) :: rounds =>
    poll operation period (.ok update) ++ ⟨.onFailure .success, true⟩ :: polls update rounds
  | operation, (period, .error e) :: rounds =>
    poll operation period (.error e) ++ ⟨.onFailure e.status, true⟩ :: polls operation rounds

def current : Operation → List (Nat × StatusOr Operation) → Operation
  | operation, [] => operation
  | _, (_, .ok update) :: rounds => current update rounds
  | operation, (_, .error _) :: rounds => current operation rounds

def Unfinished (rounds : List (Nat × StatusOr Operation)) : Prop :=
  ∀ period update, (period, .ok update) ∈ rounds → update.done = false

/-- How the loop comes to its end: without a poll, with the first reply that is done, or with the
first refusal. -/
inductive Ends (operation : Operation) : Trace → Except Abort (StatusOr α) → Prop
  | done :
    operation.done = true →
      Ends operation [] (outcome makeStatusFromRpcError extract location operation)
  | completed {rounds : List (Nat × StatusOr Operation)} {period : Nat} {final : Operation} :
    operation.done = false → Unfinished rounds → final.done = true →
      Ends operation (polls operation rounds ++ poll (current operation rounds) period (.ok final))
        (outcome makeStatusFromRpcError extract location final)
  | refusedFailure {rounds : List (Nat × StatusOr Operation)} {period : Nat} {e : Failure} :
    operation.done = false → Unfinished rounds →
      Ends operation
        (polls operation rounds ++ poll (current operation rounds) period (.error e) ++
          [⟨.onFailure e.status, false⟩])
        (.ok (.error e))
  | refusedPending {rounds : List (Nat × StatusOr Operation)} {period : Nat} {update : Operation} :
    operation.done = false → Unfinished rounds → update.done = false →
      Ends operation
        (polls operation rounds ++ poll (current operation rounds) period (.ok update) ++
          [⟨.onFailure .success, false⟩])
        (.ok (.error (.of .deadlineExceeded "exhausted polling policy with no previous error"
          StatusCode.deadlineExceeded_ne_ok)))

variable {makeStatusFromRpcError extract location} {operation : Operation} {tr : Trace}
  {result : Except Abort (StatusOr α)} {fuel : Nat}

theorem after_done {update : StatusOr Operation} (hdone : operation.done = false)
    (h : isDone update = false) : (after operation update).done = false := by
  cases update with
  | ok update => exact h
  | error _ => exact hdone

theorem outcome_of_error {error : RpcStatus} (h : operation.getError = some error) :
    outcome makeStatusFromRpcError extract location operation =
      RetryResult.ofStatus (makeStatusFromRpcError error) := by
  rw [outcome, h]
  rfl

theorem outcome_of_none (h : operation.getError = none) :
    outcome makeStatusFromRpcError extract location operation =
      .ok (extract operation location) := by
  rw [outcome, h]

theorem runs_complete {operation : Operation} :
    (complete makeStatusFromRpcError extract location operation).Runs () tr result () ↔
      tr = [] ∧ result = outcome makeStatusFromRpcError extract location operation := by
  rw [complete]
  cases herror : operation.getError with
  | none => simp [outcome_of_none herror]
  | some error =>
    rw [outcome_of_error herror]
    simp only [RetryLoop.returnStatus]
    cases RetryResult.ofStatus (α := StatusOr α) (makeStatusFromRpcError error) <;> simp

theorem polls_cons_append (operation : Operation) (period : Nat) (reply : StatusOr Operation)
    (rounds : List (Nat × StatusOr Operation)) (tr : Trace) :
    polls operation ((period, reply) :: rounds) ++ tr =
      poll operation period reply ++ ⟨.onFailure reply.status, true⟩ ::
        (polls (after operation reply) rounds ++ tr) := by
  cases reply <;> simp [polls, after, StatusOr.status]

theorem current_cons (operation : Operation) (period : Nat) (reply : StatusOr Operation)
    (rounds : List (Nat × StatusOr Operation)) :
    current operation ((period, reply) :: rounds) = current (after operation reply) rounds := by
  cases reply <;> rfl

theorem unfinished_nil : Unfinished [] := nofun

theorem unfinished_cons {period : Nat} {reply : StatusOr Operation}
    {rounds : List (Nat × StatusOr Operation)} :
    Unfinished ((period, reply) :: rounds) ↔ isDone reply = false ∧ Unfinished rounds := by
  simp only [Unfinished, List.mem_cons]
  constructor
  · intro h
    refine ⟨?_, fun period update hmem => h period update (.inr hmem)⟩
    cases reply with
    | ok update => exact h period update (.inl rfl)
    | error _ => rfl
  · rintro ⟨hreply, hrounds⟩ period' update (heq | hmem)
    · cases heq
      exact hreply
    · exact hrounds period' update hmem

theorem Ends.pending {period : Nat} {reply : StatusOr Operation} (hdone : operation.done = false)
    (hreply : isDone reply = false)
    (h : Ends makeStatusFromRpcError extract location (after operation reply) tr result) :
    Ends makeStatusFromRpcError extract location operation
      (poll operation period reply ++ ⟨.onFailure reply.status, true⟩ :: tr) result := by
  cases h with
  | done h =>
    rw [after_done hdone hreply] at h
    cases h
  | completed _ hrounds hfinal =>
    rw [← polls_cons_append, ← current_cons operation period]
    exact .completed hdone (unfinished_cons.mpr ⟨hreply, hrounds⟩) hfinal
  | refusedFailure _ hrounds =>
    rw [List.append_assoc, ← polls_cons_append, ← List.append_assoc,
      ← current_cons operation period]
    exact .refusedFailure hdone (unfinished_cons.mpr ⟨hreply, hrounds⟩)
  | refusedPending _ hrounds hlast =>
    rw [List.append_assoc, ← polls_cons_append, ← List.append_assoc,
      ← current_cons operation period]
    exact .refusedPending hdone (unfinished_cons.mpr ⟨hreply, hrounds⟩) hlast

theorem Ends.refused {period : Nat} {reply : StatusOr Operation} (hdone : operation.done = false)
    (hreply : isDone reply = false) :
    Ends makeStatusFromRpcError extract location operation
      (poll operation period reply ++ [⟨.onFailure reply.status, false⟩])
      (.ok (.error (refusal reply))) := by
  cases reply with
  | ok update => exact .refusedPending hdone unfinished_nil hreply
  | error e => exact .refusedFailure hdone unfinished_nil

theorem runs_reply {reply : StatusOr Operation}
    {again : Program PollCall.Reply Unit Abort (StatusOr α)} :
    (if isDone reply then
        complete makeStatusFromRpcError extract location (after operation reply)
      else do
        if ← perform (PollCall.onFailure reply.status) then again
        else return .error (refusal reply)).Runs () tr result () ↔
      (isDone reply = true ∧ tr = [] ∧
          result = outcome makeStatusFromRpcError extract location (after operation reply)) ∨
        isDone reply = false ∧
          (tr = [⟨.onFailure reply.status, false⟩] ∧ result = .ok (.error (refusal reply)) ∨
            ∃ tail, tr = ⟨.onFailure reply.status, true⟩ :: tail ∧
              again.Runs () tail result ()) := by
  cases hreply : isDone reply with
  | true => simp [runs_complete]
  | false =>
    simp only [Bool.false_eq_true, if_false, runs_perform_bind, false_and, false_or, true_and]
    constructor
    · rintro ⟨accepted, tail, rfl, h⟩
      cases accepted with
      | true => exact .inr ⟨tail, rfl, h⟩
      | false =>
        obtain ⟨rfl, rfl, -⟩ := runs_pure.mp h
        exact .inl ⟨rfl, rfl⟩
    · rintro (⟨rfl, rfl⟩ | ⟨tail, rfl, h⟩)
      · exact ⟨false, [], rfl, runs_pure.mpr ⟨rfl, rfl, rfl⟩⟩
      · exact ⟨true, tail, rfl, h⟩

theorem runs_pollingLoop_succ :
    (pollingLoop makeStatusFromRpcError extract location (fuel + 1) operation).Runs () tr result
        () ↔
      (operation.done = true ∧ tr = [] ∧
          result = outcome makeStatusFromRpcError extract location operation) ∨
      operation.done = false ∧ ∃ period reply tr', tr = poll operation period reply ++ tr' ∧
        ((isDone reply = true ∧ tr' = [] ∧
            result = outcome makeStatusFromRpcError extract location (after operation reply)) ∨
          isDone reply = false ∧
            (tr' = [⟨.onFailure reply.status, false⟩] ∧ result = .ok (.error (refusal reply)) ∨
              ∃ tail, tr' = ⟨.onFailure reply.status, true⟩ :: tail ∧
                (pollingLoop makeStatusFromRpcError extract location fuel
                  (after operation reply)).Runs () tail result ())) := by
  rw [pollingLoop]
  cases hdone : operation.done with
  | true =>
    simp [runs_complete]
  | false =>
    simp only [Bool.false_eq_true, if_false, runs_perform_bind, false_and, false_or, true_and]
    constructor
    · rintro ⟨period, _, rfl, _, _, rfl, reply, tr', rfl, h⟩
      exact ⟨period, reply, tr', rfl, runs_reply.mp h⟩
    · rintro ⟨period, reply, tr', rfl, h⟩
      exact ⟨period, _, rfl, (), _, rfl, reply, tr', rfl, runs_reply.mpr h⟩

theorem outcome_value {a : α}
    (h : outcome makeStatusFromRpcError extract location operation = .ok (.ok a)) :
    operation.getError = none ∧ extract operation location = .ok a := by
  cases herror : operation.getError with
  | none =>
    rw [outcome_of_none herror] at h
    exact ⟨rfl, Except.ok.inj h⟩
  | some error =>
    simp only [outcome_of_error herror, RetryResult.ofStatus] at h
    split at h <;> cases h

end PollingLoop

def textPacking : Packing String := ⟨fun any => any.typeUrl == "text", fun _ => "42"⟩

def pendingOperation : Operation := ⟨"test-operation", none, false, .notSet⟩

def finishedOperation : Operation :=
  ⟨"test-operation", none, true, .response ⟨"text", []⟩⟩

def permissionDenied : Failure := .of .permissionDenied "uh oh" (by decide)

end SpannerClient
