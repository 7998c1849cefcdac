import SpannerClient.Internal.RetryLoop

namespace SpannerClient

open Program

inductive RetryCall
  | isExhausted
  | functor
  | onFailure (status : Status)
  | onCompletion
  deriving DecidableEq, Repr

abbrev RetryCall.Reply (α : Type) : RetryCall → Type
  | .isExhausted => Bool
  | .functor => α
  | .onFailure _ => Bool
  | .onCompletion => Unit

/-- The conversion from a status that is not OK keeps it, and no other conversion alters one. -/
class LawfulRetryResult (α : Type) [RetryResult α] : Prop where
  status_eq {status : Status} {a : α} :
    RetryResult.ofStatus status = .ok a → getResultStatus a = status
  returns {status : Status} :
    status.ok = false → ∃ a : α, RetryResult.ofStatus status = .ok a
  throws (status : Status) :
    (RetryResult.ofStatus status : Except Abort α) ≠ .error .outOfFuel

instance : LawfulRetryResult Status where
  status_eq h := (Except.ok.inj h).symm
  returns _ := ⟨_, rfl⟩
  throws _ := nofun

instance {α : Type} : LawfulRetryResult (StatusOr α) where
  status_eq {status} a h := by
    simp only [RetryResult.ofStatus] at h
    split at h <;> cases h
    rfl
  returns h := ⟨.error ⟨_, h⟩, dif_pos h⟩
  throws status := by
    simp only [RetryResult.ofStatus]
    split <;> exact nofun

namespace RetryLoop

abbrev Trace (α : Type) := List (Sigma (RetryCall.Reply α))

variable {α : Type}

def anyPolicies (α : Type) : LoopPolicies (RetryCall.Reply α) Unit where
  isExhausted := perform RetryCall.isExhausted
  onFailure status := perform (RetryCall.onFailure status)
  backoff := perform RetryCall.onCompletion

def results : Trace α → List α
  | [] => []
  | ⟨.functor, r⟩ :: tr => r :: results tr
  | ⟨.isExhausted, _⟩ :: tr | ⟨.onFailure _, _⟩ :: tr | ⟨.onCompletion, _⟩ :: tr => results tr

variable [RetryResult α] {print : Status → String} {isIdempotent : Bool} {location : String}

def retryLoopImpl (print : Status → String) (isIdempotent : Bool) (location : String)
    (fuel : Nat) : Program (RetryCall.Reply α) Unit Abort α :=
  retryLoop (anyPolicies α) print isIdempotent (perform RetryCall.functor) location fuel

inductive Round (print : Status → String) (isIdempotent : Bool) (location : String) (fuel : Nat)
    (lastStatus : Status) : Trace α → Except Abort α → Prop
  | exhausted {message : String} {b : Bool} {result : Except Abort α} :
    result = RetryResult.ofStatus (retryLoopError print message location lastStatus) →
      Round print isIdempotent location fuel lastStatus [⟨.isExhausted, true⟩, ⟨.isExhausted, b⟩]
        result
  | succeeded {r : α} :
    (getResultStatus r).ok = true →
      Round print isIdempotent location fuel lastStatus [⟨.isExhausted, false⟩, ⟨.functor, r⟩]
        (.ok r)
  | notIdempotent {r : α} {message : String} {result : Except Abort α} :
    (getResultStatus r).ok = false → isIdempotent = false →
      result = RetryResult.ofStatus (retryLoopError print message location (getResultStatus r)) →
        Round print isIdempotent location fuel lastStatus
          [⟨.isExhausted, false⟩, ⟨.functor, r⟩] result
  | refused {r : α} {message : String} {b : Bool} {result : Except Abort α} :
    (getResultStatus r).ok = false → isIdempotent = true →
      result = RetryResult.ofStatus (retryLoopError print message location (getResultStatus r)) →
        Round print isIdempotent location fuel lastStatus
          [⟨.isExhausted, false⟩, ⟨.functor, r⟩, ⟨.onFailure (getResultStatus r), false⟩,
            ⟨.isExhausted, b⟩] result
  | retried {r : α} {tr : Trace α} {result : Except Abort α} :
    (getResultStatus r).ok = false → isIdempotent = true →
      (loop (anyPolicies α) print isIdempotent (perform RetryCall.functor) location fuel
        (getResultStatus r)).Runs () tr result () →
        Round print isIdempotent location fuel lastStatus
          (⟨.isExhausted, false⟩ :: ⟨.functor, r⟩ :: ⟨.onFailure (getResultStatus r), true⟩ ::
            ⟨.onCompletion, ()⟩ :: tr) result

theorem runs_giveUp_any {lastStatus : Status} {tr : Trace α} {result : Except Abort α}
    (h : (giveUp (anyPolicies α) print location lastStatus).Runs () tr result ()) :
    ∃ message b, tr = [⟨.isExhausted, b⟩] ∧
      result = RetryResult.ofStatus (retryLoopError print message location lastStatus) := by
  simp only [giveUp, anyPolicies, runs_perform_bind] at h
  obtain ⟨b, tr, rfl, h⟩ := h
  cases b with
  | true | false =>
    obtain ⟨-, rfl, hresult⟩ := runs_returnStatus h
    exact ⟨_, _, rfl, hresult⟩

theorem round {fuel : Nat} {lastStatus : Status} {tr : Trace α} {result : Except Abort α}
    (h : (loop (anyPolicies α) print isIdempotent (perform RetryCall.functor) location (fuel + 1)
      lastStatus).Runs () tr result ()) :
    Round print isIdempotent location fuel lastStatus tr result := by
  simp only [loop, anyPolicies, runs_perform_bind] at h
  obtain ⟨exhausted, tr, rfl, h⟩ := h
  cases exhausted with
  | true =>
    obtain ⟨message, b, rfl, hresult⟩ := runs_giveUp_any h
    exact .exhausted hresult
  | false =>
    simp only [Bool.false_eq_true, if_false, runs_perform_bind] at h
    obtain ⟨r, tr, rfl, h⟩ := h
    cases hok : (getResultStatus r).ok with
    | true =>
      simp only [hok, if_true, runs_pure] at h
      obtain ⟨rfl, rfl, -⟩ := h
      exact .succeeded hok
    | false =>
      simp only [hok, Bool.false_eq_true, if_false] at h
      cases isIdempotent with
      | false =>
        obtain ⟨-, rfl, hresult⟩ := runs_returnStatus h
        exact .notIdempotent hok rfl hresult
      | true =>
        simp only [Bool.not_true, Bool.false_eq_true, if_false, runs_perform_bind] at h
        obtain ⟨retry, tr, rfl, h⟩ := h
        cases retry with
        | true =>
          simp only [if_true, runs_perform_bind] at h
          obtain ⟨_, tr, rfl, h⟩ := h
          exact .retried hok rfl h
        | false =>
          obtain ⟨message, b, rfl, hresult⟩ := runs_giveUp_any h
          exact .refused hok rfl hresult

def Final : Sigma (RetryCall.Reply α) → Prop
  | ⟨.functor, r⟩ => (getResultStatus r).ok = true
  | ⟨.onFailure _, accepted⟩ => accepted = false
  | ⟨.isExhausted, _⟩ | ⟨.onCompletion, _⟩ => False

@[simp] theorem final_functor {r : α} :
    Final (⟨.functor, r⟩ : Sigma (RetryCall.Reply α)) ↔ (getResultStatus r).ok = true := Iff.rfl

@[simp] theorem final_onFailure {status : Status} {accepted : Bool} :
    Final (⟨.onFailure status, accepted⟩ : Sigma (RetryCall.Reply α)) ↔ accepted = false := Iff.rfl

@[simp] theorem not_final_isExhausted {b : Bool} :
    ¬ Final (⟨.isExhausted, b⟩ : Sigma (RetryCall.Reply α)) := id

@[simp] theorem not_final_onCompletion :
    ¬ Final (⟨.onCompletion, ()⟩ : Sigma (RetryCall.Reply α)) := id

structure Reported (isIdempotent : Bool) (tr : Trace α) (result : Except Abort α) : Prop where
  success {r : α} : result = .ok r → (getResultStatus r).ok = true →
    (results tr).getLast? = some r
  returns : result ≠ .error .outOfFuel → ∃ r, result = .ok r
  code {r last : α} : result = .ok r → (getResultStatus r).ok = false →
    (results tr).getLast? = some last → (getResultStatus r).code = (getResultStatus last).code
  once : isIdempotent = false → (results tr).length ≤ 1
  final : tr.Pairwise fun c c' => Final c → c'.1 ≠ .functor

structure ReportedAfter (lastStatus : Status) (tr : Trace α) (result : Except Abort α) : Prop where
  success {r : α} : result = .ok r → (getResultStatus r).ok = true →
    (results tr).getLast? = some r
  returns : result ≠ .error .outOfFuel → ∃ r, result = .ok r
  code {r : α} : result = .ok r → (getResultStatus r).ok = false →
    (getResultStatus r).code = (((results tr).getLast?.map getResultStatus).getD lastStatus).code
  final : tr.Pairwise fun c c' => Final c → c'.1 ≠ .functor

variable {tr : Trace α} {result : Except Abort α} {status : Status} {message : String}

theorem length_results_le_one {fuel : Nat} {lastStatus : Status}
    (h : (loop (anyPolicies α) print false (perform RetryCall.functor) location fuel
      lastStatus).Runs () tr result ()) : (results tr).length ≤ 1 := by
  cases fuel with
  | zero =>
    simp only [loop, runs_throw] at h
    obtain ⟨rfl, -, -⟩ := h
    exact Nat.zero_le 1
  | succ fuel =>
    cases round h with
    | exhausted _ => exact Nat.zero_le 1
    | succeeded _ | notIdempotent _ _ _ => exact le_rfl
    | refused _ hidempotent _ | retried _ hidempotent _ => cases hidempotent

theorem ReportedAfter.retried {lastStatus : Status} {r : α}
    (h : ReportedAfter (getResultStatus r) tr result) (hfail : (getResultStatus r).ok = false) :
    ReportedAfter lastStatus
      (⟨.isExhausted, false⟩ :: ⟨.functor, r⟩ :: ⟨.onFailure (getResultStatus r), true⟩ ::
        ⟨.onCompletion, ()⟩ :: tr) result where
  success hr hok := by
    rw [results, results, results, results, List.getLast?_cons, h.success hr hok]
    rfl
  returns := h.returns
  code hr hnot := by
    rw [h.code hr hnot, results, results, results, results, List.getLast?_cons]
    cases (results tr).getLast? <;> rfl
  final := by simp [hfail, h.final]

theorem reportedAfter_outOfFuel {lastStatus : Status} :
    ReportedAfter lastStatus [] (.error .outOfFuel : Except Abort α) where
  success hr := by cases hr
  returns hfuel := absurd rfl hfuel
  code hr := by cases hr
  final := List.Pairwise.nil

variable [LawfulRetryResult α]

theorem code_of_retryLoopError {r : α}
    (h : RetryResult.ofStatus (retryLoopError print message location status) = .ok r) :
    (getResultStatus r).code = status.code := by
  rw [LawfulRetryResult.status_eq h]
  rfl

theorem ok_of_retryLoopError {r : α}
    (h : RetryResult.ofStatus (retryLoopError print message location status) = .ok r) :
    (getResultStatus r).ok = status.ok := by
  rw [Status.ok, code_of_retryLoopError h]
  rfl

theorem reportedAfter_failure {lastStatus : Status} (hfail : status.ok = false)
    (hresult : result = RetryResult.ofStatus (retryLoopError print message location status))
    (hlast : ((results tr).getLast?.map getResultStatus).getD lastStatus = status)
    (hfinal : tr.Pairwise fun c c' => Final c → c'.1 ≠ .functor) :
    ReportedAfter lastStatus tr result where
  success hr hok := by
    rw [ok_of_retryLoopError (hresult.symm.trans hr), hfail] at hok
    cases hok
  returns _ := by
    rw [hresult]
    exact LawfulRetryResult.returns hfail
  code hr _ := by rw [hlast, code_of_retryLoopError (hresult.symm.trans hr)]
  final := hfinal

theorem Round.reportedAfter {fuel : Nat} {lastStatus : Status}
    (h : Round print isIdempotent location fuel lastStatus tr result)
    (hrest : ∀ {status : Status} {tr : Trace α}, status.ok = false →
      (loop (anyPolicies α) print isIdempotent (perform RetryCall.functor) location fuel
        status).Runs () tr result () → ReportedAfter status tr result)
    (hlast : lastStatus.ok = true → ∀ tail, tr ≠ ⟨.isExhausted, true⟩ :: tail) :
    ReportedAfter lastStatus tr result := by
  cases h with
  | exhausted hresult =>
    cases hok : lastStatus.ok with
    | true => exact absurd rfl (hlast hok _)
    | false => exact reportedAfter_failure hok hresult rfl (by simp)
  | succeeded hok =>
    refine ⟨fun hr _ => ?_, fun _ => ⟨_, rfl⟩, fun hr hnot => ?_, by simp⟩
    · cases hr
      rfl
    · cases hr
      rw [hok] at hnot
      cases hnot
  | notIdempotent hfail _ hresult =>
    exact reportedAfter_failure hfail hresult rfl (by simp [hfail])
  | refused hfail _ hresult =>
    exact reportedAfter_failure hfail hresult rfl (by simp [hfail])
  | retried hfail _ hrun => exact (hrest hfail hrun).retried hfail

theorem reportedAfter_loop {fuel : Nat} {lastStatus : Status} (hlast : lastStatus.ok = false)
    (h : (loop (anyPolicies α) print isIdempotent (perform RetryCall.functor) location fuel
      lastStatus).Runs () tr result ()) : ReportedAfter lastStatus tr result := by
  induction fuel generalizing lastStatus tr with
  | zero =>
    simp only [loop, runs_throw] at h
    obtain ⟨rfl, rfl, -⟩ := h
    exact reportedAfter_outOfFuel
  | succ fuel ih =>
    refine (round h).reportedAfter ih fun hok => ?_
    rw [hlast] at hok
    cases hok

/-- The loop reports what its last attempt came to exactly when its policy lets it make one. -/
theorem reported_iff {fuel : Nat}
    (h : (retryLoopImpl print isIdempotent location fuel).Runs () tr result ()) :
    Reported isIdempotent tr result ↔ ¬ ∃ tail, tr = ⟨.isExhausted, true⟩ :: tail := by
  constructor
  · rintro hreported ⟨tail, rfl⟩
    cases fuel with
    | zero =>
      simp only [retryLoopImpl, retryLoop, loop, runs_throw] at h
      cases h.1
    | succ fuel =>
      cases round h with
      | exhausted hresult =>
        obtain ⟨r, hr⟩ := hreported.returns (by
          rw [hresult]
          exact LawfulRetryResult.throws _)
        -- no attempt has set the last status, which is OK from the start
        have hok := ok_of_retryLoopError (hresult.symm.trans hr)
        cases hreported.success hr hok
  · intro hattempt
    have hafter : ReportedAfter .success tr result := by
      cases fuel with
      | zero =>
        simp only [retryLoopImpl, retryLoop, loop, runs_throw] at h
        obtain ⟨rfl, rfl, -⟩ := h
        exact reportedAfter_outOfFuel
      | succ fuel =>
        exact (round h).reportedAfter reportedAfter_loop fun _ tail htr => hattempt ⟨tail, htr⟩
    refine ⟨hafter.success, hafter.returns, fun hr hnot hlast => ?_, ?_, hafter.final⟩
    · rw [hafter.code hr hnot, hlast]
      rfl
    · rintro rfl
      exact length_results_le_one h

theorem length_results_of_outOfFuel {fuel : Nat} {lastStatus : Status}
    (h : (loop (anyPolicies α) print isIdempotent (perform RetryCall.functor) location fuel
      lastStatus).Runs () tr (.error .outOfFuel) ()) : (results tr).length = fuel := by
  induction fuel generalizing lastStatus tr with
  | zero =>
    simp only [loop, runs_throw] at h
    rw [h.1]
    rfl
  | succ fuel ih =>
    cases round h with
    | exhausted hresult | notIdempotent _ _ hresult | refused _ _ hresult =>
      exact absurd hresult.symm (LawfulRetryResult.throws _)
    | retried _ _ hrun =>
      rw [results, results, results, results, List.length_cons, ih hrun]

end RetryLoop

def exhaustedTrace : RetryLoop.Trace Status := [⟨.isExhausted, true⟩, ⟨.isExhausted, true⟩]

/-- What `RollbackImpl()` gets when its policy is exhausted from the start. -/
theorem rollback_not_reported :
    ∃ result : Except Abort Status,
      (RetryLoop.retryLoopImpl Status.message true "RollbackImpl" 1).Runs () exhaustedTrace result
        () ∧
      ¬ RetryLoop.Reported true exhaustedTrace result :=
  ⟨.ok ⟨.ok, "Retry policy exhausted in RollbackImpl: "⟩, .call (.call .ret),
    fun h => nomatch h.success rfl rfl⟩

def unavailable : Status := ⟨.unavailable, "try again"⟩

def retriedTrace : RetryLoop.Trace Status :=
  [⟨.isExhausted, false⟩, ⟨.functor, unavailable⟩, ⟨.onFailure unavailable, true⟩,
    ⟨.onCompletion, ()⟩, ⟨.isExhausted, false⟩, ⟨.functor, .success⟩]

theorem runs_retried :
    (RetryLoop.retryLoopImpl Status.message true "RollbackImpl" 2).Runs () retriedTrace
      (.ok .success) () :=
  .call (.call (.call (.call (.call (.call .ret)))))

theorem reported_iff_retried :
    RetryLoop.Reported true retriedTrace (.ok .success) ↔
      ¬ ∃ tail, retriedTrace = ⟨.isExhausted, true⟩ :: tail :=
  RetryLoop.reported_iff runs_retried

end SpannerClient
