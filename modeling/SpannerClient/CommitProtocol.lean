import SpannerClient.Client
import Mathlib.Data.List.Range

namespace SpannerClient.Client

open Program

variable {ς μ ξ : Type}

abbrev Trace (ς μ ξ : Type) := List ((c : Call ς μ) × Reply ξ c)

namespace Trace

def mutators : Trace ς μ ξ → List (Transaction ς) :=
  List.filterMap fun
    | ⟨.mutator txn, _⟩ => some txn
    | _ => none

def commits : Trace ς μ ξ → List (Transaction ς × μ × StatusOr CommitResult × TransactionImpl ς) :=
  List.filterMap fun
    | ⟨.commit txn mutations, reply⟩ => some (txn, mutations, reply)
    | _ => none

def rollbacks : Trace ς μ ξ → List (Transaction ς) :=
  List.filterMap fun
    | ⟨.rollback txn, _⟩ => some txn
    | _ => none

def verdicts : Trace ς μ ξ → List (Status × Bool) :=
  List.filterMap fun
    | ⟨.onFailure status, rerun⟩ => some (status, rerun)
    | _ => none

def setBads : Trace ς μ ξ → List ς :=
  List.filterMap fun
    | ⟨.setBad session, _⟩ => some session
    | _ => none

end Trace

structure Attempt (ς μ ξ : Type) where
  txn : Transaction ς
  mutated : Mutated μ ξ
  impl : TransactionImpl ς
  rest : Trace ς μ ξ

namespace Mutated

def value : Mutated μ ξ → Except ξ (StatusOr μ)
  | .returned mutations => .ok mutations
  | .threwStatus status =>
    if h : status.ok = false then .ok (.error ⟨status, h⟩)
    else .ok (.error (.of .unknown "OK Status thrown from mutator" StatusCode.unknown_ne_ok))
  | .threw exception => .error exception

theorem value_threwStatus (status : Status) :
    (threwStatus status : Mutated μ ξ).value = .ok (.error (caught status)) := by
  rw [value, caught]
  split <;> rfl

def isPermanent (mutated : Mutated μ ξ) : Bool :=
  match mutated.value with
  | .ok (.ok _) => false
  | .ok (.error e) => !SafeTransactionRerun.isTransientFailure e.status
  | .error _ => true

end Mutated

namespace Attempt

def trace (a : Attempt ς μ ξ) : Trace ς μ ξ := ⟨.mutator a.txn, (a.mutated, a.impl)⟩ :: a.rest

def left (a : Attempt ς μ ξ) : Transaction ς := ⟨a.txn.object, a.impl⟩

def final (a : Attempt ς μ ξ) : TransactionImpl ς :=
  match a.rest.commits with
  | [] => a.impl
  | (_, _, _, impl) :: _ => impl

def result (a : Attempt ς μ ξ) : Option (Except ξ (StatusOr CommitResult)) :=
  match a.mutated.value with
  | .ok (.ok _) => a.rest.commits.head?.map fun (_, _, result, _) => .ok result
  | .ok (.error e) => some (.ok (.error e))
  | .error exception => some (.error exception)

structure Obeys (a : Attempt ς μ ξ) : Prop where
  begin : a.txn.impl.selector = .begin .readWrite
  mutator : a.rest.mutators = []
  commit : a.rest.commits.map (fun (txn, mutations, _) => (txn, mutations)) =
    match a.mutated.value with
    | .ok (.ok mutations) => [(a.left, mutations)]
    | _ => []
  rollback : a.rest.rollbacks = if a.mutated.isPermanent then [a.left] else []

def Reruns (a : Attempt ς μ ξ) (next : Transaction ς) : Prop :=
  ∃ e, a.result = some (.ok (.error e)) ∧
    SafeTransactionRerun.isTransientFailure e.status = true ∧
    a.rest.verdicts = [(e.status, true)] ∧
    if isSessionNotFound e.status then
      next.impl.session = none ∧ a.rest.setBads = a.final.session.toList
    else next.impl.session = a.final.session ∧ a.rest.setBads = []

def Ends (a : Attempt ς μ ξ) (result : Except ξ (StatusOr CommitResult)) : Prop :=
  a.result = some result ∧ a.rest.setBads = [] ∧
    a.rest.verdicts =
      match result with
      | .ok (.error e) =>
        if SafeTransactionRerun.isTransientFailure e.status then [(e.status, false)] else []
      | _ => []

def Concludes (a : Attempt ς μ ξ) :
    Except ξ (Option (StatusOr CommitResult)) → Transaction ς → Prop
  | .ok none, next => a.Reruns next ∧ next.object = a.txn.object + 1 ∧
      next.impl.selector = .begin .readWrite
  | .ok (some result), _ => a.Ends (.ok result)
  | .error exception, _ => a.Ends (.error exception)

end Attempt

def badSessions (txn : Transaction ς) (status : Status) : List ς :=
  if isSessionNotFound status then txn.impl.session.toList else []

def successor (txn : Transaction ς) (status : Status) : Transaction ς :=
  if isSessionNotFound status then .readWrite (txn.object + 1)
  else .readWriteAfter (txn.object + 1) txn

structure Trace.Quiet (tr : Trace ς μ ξ) : Prop where
  mutators : tr.mutators = []
  commits : tr.commits = []
  rollbacks : tr.rollbacks = []

structure Trace.RollsBack (tr : Trace ς μ ξ) (txn : Transaction ς) : Prop where
  mutators : tr.mutators = []
  commits : tr.commits = []
  rollbacks : tr.rollbacks = [txn]
  verdicts : tr.verdicts = []
  setBads : tr.setBads = []

variable {txn txn' : Transaction ς} {tr : Trace ς μ ξ}

theorem runs_rollback {result : Except ξ Unit}
    (h : (rollback : Body ς μ ξ Unit).Runs txn tr result txn') :
    result = .ok () ∧ txn' = txn ∧ tr.RollsBack txn := by
  simp only [rollback, runs_get_bind, runs_perform_bind] at h
  obtain ⟨status, rest, rfl, h⟩ := h
  split at h
  · simp only [runs_pure] at h
    obtain ⟨rfl, rfl, rfl⟩ := h
    exact ⟨rfl, rfl, rfl, rfl, rfl, rfl, rfl⟩
  · simp only [runs_perform] at h
    obtain ⟨_, rfl, rfl, rfl⟩ := h
    exact ⟨rfl, rfl, rfl, rfl, rfl, rfl, rfl⟩

theorem runs_considerRerun {e : Failure} {result : Except ξ (Option (StatusOr CommitResult))}
    (h : (considerRerun e : Body ς μ ξ _).Runs txn tr result txn') :
    tr.Quiet ∧
      (result = .ok (some (.error e)) ∧ tr.verdicts = [(e.status, false)] ∧ tr.setBads = [] ∨
        result = .ok none ∧ tr.verdicts = [(e.status, true)] ∧
          tr.setBads = badSessions txn e.status ∧ txn' = successor txn e.status) := by
  simp only [considerRerun, runs_perform_bind] at h
  obtain ⟨rerun, rest, rfl, h⟩ := h
  cases rerun with
  | false =>
    simp only [Bool.not_false, if_true, runs_pure] at h
    obtain ⟨rfl, rfl, rfl⟩ := h
    exact ⟨⟨rfl, rfl, rfl⟩, .inl ⟨rfl, rfl, rfl⟩⟩
  | true =>
    simp only [Bool.not_true, Bool.false_eq_true, if_false, runs_get_bind] at h
    rw [badSessions, successor]
    split at h
    · next hfound =>
      simp only [hfound, if_true]
      cases hsession : txn.impl.session with
      | some session =>
        simp [hsession] at h
        obtain ⟨⟨_, delay, _, rfl⟩, rfl, rfl⟩ := h
        exact ⟨⟨rfl, rfl, rfl⟩, .inr ⟨rfl, rfl, rfl, rfl⟩⟩
      | none =>
        simp [hsession] at h
        obtain ⟨⟨delay, _, rfl⟩, rfl, rfl⟩ := h
        exact ⟨⟨rfl, rfl, rfl⟩, .inr ⟨rfl, rfl, rfl, rfl⟩⟩
    · next hfound =>
      simp only [hfound, Bool.false_eq_true, if_false]
      simp at h
      obtain ⟨⟨delay, _, rfl⟩, rfl, rfl⟩ := h
      exact ⟨⟨rfl, rfl, rfl⟩, .inr ⟨rfl, rfl, rfl, rfl⟩⟩

theorem runs_mutate {result : Except ξ (StatusOr μ)}
    (h : (mutate : Body ς μ ξ _).Runs txn tr result txn') :
    ∃ mutated impl, ∃ rest : Trace ς μ ξ, tr = ⟨.mutator txn, (mutated, impl)⟩ :: rest ∧
      result = mutated.value ∧ txn' = ⟨txn.object, impl⟩ ∧
      match mutated.value with
      | .ok _ => rest = []
      | .error _ => rest.RollsBack txn' := by
  simp only [mutate, runs_get_bind, runs_perform_bind] at h
  obtain ⟨⟨mutated, impl⟩, rest, rfl, h⟩ := h
  refine ⟨mutated, impl, rest, rfl, ?_⟩
  simp only [runs_modify_bind] at h
  cases mutated with
  | returned mutations =>
    simp only [runs_pure] at h
    obtain ⟨rfl, rfl, rfl⟩ := h
    exact ⟨rfl, rfl, rfl⟩
  | threwStatus status =>
    simp only [runs_pure] at h
    obtain ⟨rfl, rfl, rfl⟩ := h
    rw [Mutated.value_threwStatus]
    exact ⟨rfl, rfl, rfl⟩
  | threw exception =>
    simp only [runs_bind, runs_throw] at h
    rcases h with ⟨_, logs, _, _, rfl, hrollback, rfl, rfl, rfl⟩ | ⟨_, rfl, hrollback⟩
    · obtain ⟨-, rfl, hrest⟩ := runs_rollback hrollback
      rw [List.append_nil]
      exact ⟨rfl, rfl, hrest⟩
    · cases (runs_rollback hrollback).1

theorem Attempt.concludes_of_considerRerun {a : Attempt ς μ ξ} {e : Failure}
    {result : Except ξ (Option (StatusOr CommitResult))}
    (h : (considerRerun e : Body ς μ ξ _).Runs ⟨a.txn.object, a.final⟩ tr result txn')
    (hresult : a.result = some (.ok (.error e)))
    (htransient : SafeTransactionRerun.isTransientFailure e.status = true)
    (hverdicts : a.rest.verdicts = tr.verdicts) (hsetBads : a.rest.setBads = tr.setBads) :
    a.Concludes result txn' := by
  rcases (runs_considerRerun h).2 with ⟨rfl, hno, hnone⟩ | ⟨rfl, hyes, hbad, rfl⟩
  · refine ⟨hresult, hsetBads.trans hnone, ?_⟩
    simp only [htransient, if_true]
    exact hverdicts.trans hno
  · refine ⟨⟨e, hresult, htransient, hverdicts.trans hyes, ?_⟩, ?_⟩
    · rw [hsetBads, hbad, badSessions, successor]
      split
      · exact ⟨rfl, rfl⟩
      · exact ⟨rfl, rfl⟩
    · rw [successor]
      split
      · exact ⟨rfl, rfl⟩
      · exact ⟨rfl, rfl⟩

namespace Attempt

variable {a : Attempt ς μ ξ}

theorem obeys_of_commit {mutations : μ} {reply : StatusOr CommitResult × TransactionImpl ς}
    (hbegin : a.txn.impl.selector = .begin .readWrite)
    (hvalue : a.mutated.value = .ok (.ok mutations))
    (hrest : a.rest = ⟨.commit a.left mutations, reply⟩ :: tr) (hquiet : tr.Quiet) : a.Obeys where
  begin := hbegin
  mutator := by
    rw [hrest]
    exact hquiet.mutators
  commit := by
    rw [hrest, hvalue]
    exact congrArg (List.cons _) (List.map_eq_nil_iff.mpr hquiet.commits)
  rollback := by
    rw [hrest, Mutated.isPermanent, hvalue]
    exact hquiet.rollbacks

theorem obeys_of_quiet {e : Failure} (hbegin : a.txn.impl.selector = .begin .readWrite)
    (hvalue : a.mutated.value = .ok (.error e))
    (htransient : SafeTransactionRerun.isTransientFailure e.status = true)
    (hquiet : a.rest.Quiet) : a.Obeys where
  begin := hbegin
  mutator := hquiet.mutators
  commit := by
    rw [hvalue, hquiet.commits]
    rfl
  rollback := by
    simp [Mutated.isPermanent, hvalue, htransient, hquiet.rollbacks]

theorem obeys_of_rollsBack (hbegin : a.txn.impl.selector = .begin .readWrite)
    (hpermanent : a.mutated.isPermanent = true) (hrest : a.rest.RollsBack a.left) :
    a.Obeys where
  begin := hbegin
  mutator := hrest.mutators
  commit := by
    rw [hrest.commits]
    split
    · next hvalue => simp [Mutated.isPermanent, hvalue] at hpermanent
    · rfl
  rollback := by simp [hpermanent, hrest.rollbacks]

end Attempt

theorem runs_attempt {result : Except ξ (Option (StatusOr CommitResult))}
    (hbegin : txn.impl.selector = .begin .readWrite)
    (h : (attempt : Body ς μ ξ _).Runs txn tr result txn') :
    ∃ a : Attempt ς μ ξ, a.txn = txn ∧ tr = a.trace ∧ a.Obeys ∧ a.Concludes result txn' := by
  simp only [attempt, runs_bind] at h
  rcases h with ⟨mutations, _, rest, _, rfl, hmutate, h⟩ | ⟨exception, rfl, hmutate⟩
  · obtain ⟨mutated, impl, _, rfl, hvalue, rfl, hnil⟩ := runs_mutate hmutate
    rw [← hvalue] at hnil
    subst hnil
    refine ⟨⟨txn, mutated, impl, rest⟩, rfl, rfl, ?_⟩
    cases mutations with
    | ok mutations =>
      simp only [runs_get_bind, runs_perform_bind] at h
      obtain ⟨⟨committed, impl'⟩, tail, rfl, h⟩ := h
      simp only [runs_modify_bind] at h
      have hresult : Attempt.result ⟨txn, mutated, impl,
          ⟨.commit ⟨txn.object, impl⟩ mutations, (committed, impl')⟩ :: tail⟩ =
            some (.ok committed) := by
        simp [Attempt.result, ← hvalue, Trace.commits]
      cases committed with
      | ok committed =>
        simp only [runs_pure] at h
        obtain ⟨rfl, rfl, rfl⟩ := h
        refine ⟨Attempt.obeys_of_commit hbegin hvalue.symm rfl ⟨rfl, rfl, rfl⟩, ?_⟩
        exact ⟨hresult, rfl, rfl⟩
      | error e =>
        simp only at h
        split at h
        · next htransient =>
          refine ⟨Attempt.obeys_of_commit hbegin hvalue.symm rfl (runs_considerRerun h).1, ?_⟩
          exact Attempt.concludes_of_considerRerun h hresult htransient rfl rfl
        · next hpermanent =>
          simp only [runs_pure] at h
          obtain ⟨rfl, rfl, rfl⟩ := h
          refine ⟨Attempt.obeys_of_commit hbegin hvalue.symm rfl ⟨rfl, rfl, rfl⟩, hresult, rfl, ?_⟩
          simp only [hpermanent]
          rfl
    | error e =>
      have hresult : Attempt.result ⟨txn, mutated, impl, rest⟩ = some (.ok (.error e)) := by
        simp [Attempt.result, ← hvalue]
      simp only at h
      split at h
      · next htransient =>
        have hquiet := (runs_considerRerun h).1
        refine ⟨Attempt.obeys_of_quiet hbegin hvalue.symm htransient hquiet, ?_⟩
        refine Attempt.concludes_of_considerRerun ?_ hresult htransient rfl rfl
        simpa only [Attempt.final, hquiet.commits] using h
      · next hpermanent =>
        simp only [runs_bind, runs_pure] at h
        rcases h with ⟨_, logs, _, _, rfl, hrollback, rfl, rfl, rfl⟩ | ⟨_, rfl, hrollback⟩
        · obtain ⟨-, rfl, hrest⟩ := runs_rollback hrollback
          rw [List.append_nil] at hresult ⊢
          refine ⟨Attempt.obeys_of_rollsBack hbegin ?_ hrest, hresult, hrest.setBads, ?_⟩
          · simp [Mutated.isPermanent, ← hvalue, hpermanent]
          · simp [hpermanent, hrest.verdicts]
        · cases (runs_rollback hrollback).1
  · obtain ⟨mutated, impl, rest, rfl, hvalue, rfl, hrest⟩ := runs_mutate hmutate
    rw [← hvalue] at hrest
    refine ⟨⟨txn, mutated, impl, rest⟩, rfl, rfl, ?_, ?_, hrest.setBads, hrest.verdicts⟩
    · apply Attempt.obeys_of_rollsBack hbegin _ hrest
      simp [Mutated.isPermanent, ← hvalue]
    · simp [Attempt.result, ← hvalue]

/-- How the last of the attempts ends the run; `fuel` says how many there may be. -/
def Finishes (attempts : List (Attempt ς μ ξ)) (fuel : Nat) (txn : Transaction ς) :
    Except ξ (Option (StatusOr CommitResult)) → Prop
  | .ok none => attempts.length = fuel ∧ ∀ a ∈ attempts.getLast?, a.Reruns txn
  | .ok (some result) => ∃ a ∈ attempts.getLast?, a.Ends (.ok result)
  | .error exception => ∃ a ∈ attempts.getLast?, a.Ends (.error exception)

theorem Finishes.cons {a : Attempt ς μ ξ} {attempts : List (Attempt ς μ ξ)} {fuel : Nat}
    {result : Except ξ (Option (StatusOr CommitResult))} (h : Finishes attempts fuel txn result)
    (ha : attempts = [] → a.Reruns txn) : Finishes (a :: attempts) (fuel + 1) txn result := by
  have hlast : ∀ b ∈ attempts.getLast?, b ∈ (a :: attempts).getLast? := by
    cases attempts with
    | nil => simp
    | cons b attempts => simp [List.getLast?_cons_cons]
  match result, h with
  | .ok none, ⟨hlength, hreruns⟩ =>
    refine ⟨congrArg (· + 1) hlength, ?_⟩
    cases attempts with
    | nil => simpa using ha rfl
    | cons b attempts => simpa [List.getLast?_cons_cons] using hreruns
  | .ok (some _), ⟨b, hb, hends⟩ | .error _, ⟨b, hb, hends⟩ => exact ⟨b, hlast b hb, hends⟩

theorem runs_commit {result : Except ξ (Option (StatusOr CommitResult))} {fuel : Nat}
    (hbegin : txn.impl.selector = .begin .readWrite)
    (h : (commit fuel : Body ς μ ξ _).Runs txn tr result txn') :
    ∃ attempts : List (Attempt ς μ ξ), tr = attempts.flatMap Attempt.trace ∧
      attempts.map (fun a => a.txn.object) = List.range' txn.object attempts.length ∧
      (∀ a ∈ attempts.head?, a.txn = txn) ∧ (attempts = [] → txn' = txn) ∧
      (∀ a ∈ attempts, a.Obeys) ∧ attempts.IsChain (fun a b => a.Reruns b.txn) ∧
        Finishes attempts fuel txn' result := by
  induction fuel generalizing txn tr with
  | zero =>
    simp only [commit, runs_pure] at h
    obtain ⟨rfl, rfl, rfl⟩ := h
    exact ⟨[], rfl, rfl, by simp, fun _ => rfl, by simp, .nil, rfl, by simp⟩
  | succ fuel ih =>
    rw [commit, runs_bind] at h
    rcases h with ⟨first, _, rest, txn₁, rfl, hattempt, h⟩ | ⟨exception, rfl, hattempt⟩
    · obtain ⟨a, rfl, rfl, hobeys, hconcludes⟩ := runs_attempt hbegin hattempt
      cases first with
      | none =>
        obtain ⟨hreruns, hobject, hbegin'⟩ := hconcludes
        obtain ⟨attempts, rfl, hobjects, hhead, hnil, hall, hchain, hfinishes⟩ := ih hbegin' h
        refine ⟨a :: attempts, rfl, ?_, by simp, by simp, ?_, ?_, ?_⟩
        · simp [List.range'_succ, hobjects, hobject]
        · simpa using ⟨hobeys, hall⟩
        · refine List.isChain_cons.mpr ⟨fun b hb => ?_, hchain⟩
          rwa [hhead b hb]
        · apply hfinishes.cons
          intro hattempts
          rwa [hnil hattempts]
      | some result' =>
        simp only [runs_pure] at h
        obtain ⟨rfl, rfl, rfl⟩ := h
        exact ⟨[a], by simp, rfl, by simp, by simp, by simpa, .singleton a, a, rfl, hconcludes⟩
    · obtain ⟨a, rfl, rfl, hobeys, hends⟩ := runs_attempt hbegin hattempt
      exact ⟨[a], by simp, rfl, by simp, by simp, by simpa, .singleton a, a, rfl, hends⟩

/-- Every run of `Client::Commit()` is a sequence of attempts that obey the protocol, each on a
transaction of its own, and all but the last of them are rerun. -/
theorem commit_protocol {result : Except ξ (Option (StatusOr CommitResult))} {fuel : Nat}
    (h : (commit fuel : Body ς μ ξ _).Runs (.readWrite 0) tr result txn) :
    ∃ attempts : List (Attempt ς μ ξ), tr = attempts.flatMap Attempt.trace ∧
      (attempts.map fun a => a.txn.object).Nodup ∧ (∀ a ∈ attempts, a.Obeys) ∧
      attempts.IsChain (fun a b => a.Reruns b.txn) ∧ Finishes attempts fuel txn result := by
  obtain ⟨attempts, htrace, hobjects, -, -, hobeys, hchain, hfinishes⟩ := runs_commit rfl h
  refine ⟨attempts, htrace, ?_, hobeys, hchain, hfinishes⟩
  rw [hobjects]
  exact List.nodup_range'

def aborted : Failure := .of .aborted "aborted" StatusCode.aborted_ne_ok

def epoch : CommitResult := ⟨⟨0, 0, Timestamp.normalized_zero⟩⟩

def abortTrace : Trace Unit Unit Unit :=
  let first := Transaction.readWrite 0
  let second := Transaction.readWriteAfter 1 first
  [⟨.mutator first, (.returned (.ok ()), first.impl)⟩,
    ⟨.commit first (), (.error aborted, first.impl)⟩, ⟨.onFailure aborted.status, true⟩,
    ⟨.onCompletion, 100⟩, ⟨.sleepFor 100, ()⟩,
    ⟨.mutator second, (.returned (.ok ()), second.impl)⟩,
    ⟨.commit second (), (.ok epoch, second.impl)⟩]

theorem commit_protocol_abort :
    (commit 2).Runs (.readWrite 0) abortTrace (.ok (some (.ok epoch)))
      (.readWriteAfter 1 (.readWrite 0)) ∧
    ∃ attempts : List (Attempt Unit Unit Unit), abortTrace = attempts.flatMap Attempt.trace ∧
      (attempts.map fun a => a.txn.object).Nodup ∧ (∀ a ∈ attempts, a.Obeys) ∧
      attempts.IsChain (fun a b => a.Reruns b.txn) ∧
      Finishes attempts 2 (.readWriteAfter 1 (.readWrite 0)) (.ok (some (.ok epoch))) := by
  have h : (commit 2).Runs (.readWrite 0) abortTrace (.ok (some (.ok epoch)))
      (.readWriteAfter 1 (.readWrite 0)) :=
    .call (.call (.call (.call (.call (.call (.call .ret))))))
  exact ⟨h, commit_protocol h⟩

end SpannerClient.Client
