import SpannerClient.Library.Program
import SpannerClient.Status

namespace SpannerClient

open Program

inductive Abort
  | invalidArgument
  | outOfFuel
  deriving DecidableEq, Repr

/-- The results that `RetryLoop()` treats alike.  `ofStatus` is the implicit conversion that its
`return` statements use, which may throw. -/
class RetryResult (α : Type) where
  getResultStatus : α → Status
  ofStatus : Status → Except Abort α

export RetryResult (getResultStatus)

instance : RetryResult Status where
  getResultStatus status := status
  ofStatus status := .ok status

instance {α : Type} : RetryResult (StatusOr α) where
  getResultStatus := StatusOr.status
  ofStatus status :=
    if h : status.ok = false then .ok (.error ⟨status, h⟩) else .error .invalidArgument

structure LoopPolicies {ε : Type} (ρ : ε → Type) (σ : Type) where
  isExhausted : Program ρ σ Abort Bool
  onFailure : Status → Program ρ σ Abort Bool
  /-- Sleeps for as long as `OnCompletion()` says. -/
  backoff : Program ρ σ Abort Unit

namespace RetryLoop

variable {ε : Type} {ρ : ε → Type} {σ α : Type} [RetryResult α]

def returnStatus (status : Status) : Program ρ σ Abort α :=
  match RetryResult.ofStatus status with
  | .ok a => return a
  | .error x => throw x

def retryLoopError (print : Status → String) (loopMessage location : String)
    (lastStatus : Status) : Status :=
  ⟨lastStatus.code, loopMessage ++ " " ++ location ++ ": " ++ print lastStatus⟩

theorem isSessionNotFound_retryLoopError {print : Status → String} {status : Status}
    (hprint : status.message.toList <:+: (print status).toList) (loopMessage location : String)
    (h : isSessionNotFound status = true) :
    isSessionNotFound (retryLoopError print loopMessage location status) = true := by
  simp only [isSessionNotFound, Bool.and_eq_true, decide_eq_true_eq] at h ⊢
  refine ⟨h.1, (h.2.trans hprint).trans ?_⟩
  rw [retryLoopError, String.toList_append]
  exact (List.suffix_append _ _).isInfix

variable (policies : LoopPolicies ρ σ) (print : Status → String) (isIdempotent : Bool)
  (functor : Program ρ σ Abort α) (location : String)

def giveUp (lastStatus : Status) : Program ρ σ Abort α := do
  if ← policies.isExhausted then
    returnStatus (retryLoopError print "Retry policy exhausted in" location lastStatus)
  else returnStatus (retryLoopError print "Permanent error in" location lastStatus)

def loop : Nat → Status → Program ρ σ Abort α
  | 0, _ => throw .outOfFuel
  | fuel + 1, lastStatus => do
    if ← policies.isExhausted then giveUp policies print location lastStatus
    else
      let result ← functor
      let status := getResultStatus result
      if status.ok then return result
      if !isIdempotent then
        returnStatus (retryLoopError print "Error in non-idempotent operation" location status)
      else if ← policies.onFailure status then
        policies.backoff
        loop fuel status
      else giveUp policies print location status

def retryLoop (fuel : Nat) : Program ρ σ Abort α :=
  loop policies print isIdempotent functor location fuel .success

end RetryLoop

structure LoopPolicies.Within {ε : Type} {ρ : ε → Type} {σ : Type} (policies : LoopPolicies ρ σ)
    (Q : Sigma ρ → Prop) : Prop where
  isExhausted {s s' : σ} {tr : List (Sigma ρ)} {result : Except Abort Bool} :
    policies.isExhausted.Runs s tr result s' → (∃ b, result = .ok b) ∧ s' = s ∧ ∀ c ∈ tr, Q c
  onFailure {status : Status} {s s' : σ} {tr : List (Sigma ρ)} {result : Except Abort Bool} :
    (policies.onFailure status).Runs s tr result s' →
      (∃ b, result = .ok b) ∧ s' = s ∧ ∀ c ∈ tr, Q c
  backoff {s s' : σ} {tr : List (Sigma ρ)} {result : Except Abort Unit} :
    policies.backoff.Runs s tr result s' → result = .ok () ∧ s' = s ∧ ∀ c ∈ tr, Q c

namespace RetryLoop

variable {ε : Type} {ρ : ε → Type} {σ : Type} {policies : LoopPolicies ρ σ}
  {print : Status → String} {isIdempotent : Bool} {location : String} {Q : Sigma ρ → Prop}
  {e : ε} [RetryResult (ρ e)] {s s' : σ} {tr : List (Sigma ρ)} {result : Except Abort (ρ e)}

theorem runs_returnStatus {α : Type} [RetryResult α] {status : Status}
    {result : Except Abort α}
    (h : (returnStatus status : Program ρ σ Abort α).Runs s tr result s') :
    s' = s ∧ tr = [] ∧ result = RetryResult.ofStatus status := by
  rw [returnStatus] at h
  split at h
  · next hstatus =>
    rw [runs_pure] at h
    exact ⟨h.2.2, h.1, h.2.1.trans hstatus.symm⟩
  · next hstatus =>
    rw [runs_throw] at h
    exact ⟨h.2.2, h.1, h.2.1.trans hstatus.symm⟩

structure Reports (Q : Sigma ρ → Prop) (e : ε) [RetryResult (ρ e)] (tr : List (Sigma ρ))
    (result : Except Abort (ρ e)) : Prop where
  calls : ∀ c ∈ tr, Q c ∨ c.1 = e
  answer : ∀ r, ⟨e, r⟩ ∈ tr → (getResultStatus r).ok = true → result = .ok r
  success : ∀ r, result = .ok r → (getResultStatus r).ok = true →
    ⟨e, r⟩ ∈ tr ∨ ∃ status, RetryResult.ofStatus status = .ok r

theorem Reports.of_answer (r : ρ e) : Reports Q e [⟨e, r⟩] (.ok r) where
  calls c hc := by
    rw [List.mem_singleton.mp hc]
    exact .inr rfl
  answer r' hr' _ := by
    cases List.mem_singleton.mp hr'
    rfl
  success r' hr' _ := by
    cases hr'
    exact .inl (List.mem_singleton_self _)

section

variable (hquiet : ∀ r, ¬ Q ⟨e, r⟩) (hpolicies : policies.Within Q)

include hquiet

theorem Reports.prepend {tr₁ : List (Sigma ρ)} (h : Reports Q e tr result)
    (hcalls : ∀ c ∈ tr₁, Q c ∨ ∃ r, c = ⟨e, r⟩ ∧ (getResultStatus r).ok = false) :
    Reports Q e (tr₁ ++ tr) result where
  calls c hc := by
    rcases List.mem_append.mp hc with hc | hc
    · refine (hcalls c hc).imp_right ?_
      rintro ⟨r, rfl, -⟩
      rfl
    · exact h.calls c hc
  answer r hr hok := by
    rcases List.mem_append.mp hr with hr | hr
    · rcases hcalls _ hr with hQ | ⟨r', heq, hfail⟩
      · exact absurd hQ (hquiet r)
      · cases heq
        rw [hok] at hfail
        cases hfail
    · exact h.answer r hr hok
  success r hr hok := (h.success r hr hok).imp_left (List.mem_append_right _)

theorem Reports.of_quiet {status : Status} (hcalls : ∀ c ∈ tr, Q c)
    (hresult : result = RetryResult.ofStatus status) : Reports Q e tr result where
  calls c hc := .inl (hcalls c hc)
  answer r hr _ := absurd (hcalls _ hr) (hquiet r)
  success _ hr _ := .inr ⟨status, hresult.symm.trans hr⟩

include hpolicies

theorem runs_giveUp {lastStatus : Status}
    (h : (giveUp policies print location lastStatus : Program ρ σ Abort (ρ e)).Runs
      s tr result s') : s' = s ∧ Reports Q e tr result := by
  rw [giveUp, runs_bind] at h
  rcases h with ⟨exhausted, tr₁, tr₂, s₁, rfl, hexhausted, h⟩ | ⟨x, rfl, hexhausted⟩
  · obtain ⟨-, rfl, hcalls⟩ := hpolicies.isExhausted hexhausted
    cases exhausted with
    | true | false =>
      obtain ⟨rfl, rfl, hresult⟩ := runs_returnStatus h
      refine ⟨rfl, .of_quiet hquiet ?_ hresult⟩
      simpa using hcalls
  · obtain ⟨⟨_, hresult⟩, -⟩ := hpolicies.isExhausted hexhausted
    cases hresult

theorem runs_afterFailure {again : Program ρ σ Abort (ρ e)} {status : Status}
    (hagain : ∀ {s : σ} {tr : List (Sigma ρ)}, again.Runs s tr result s' →
      s' = s ∧ Reports Q e tr result)
    (h : (do
      if ← policies.onFailure status then
        policies.backoff
        again
      else giveUp policies print location status : Program ρ σ Abort (ρ e)).Runs s tr result s') :
    s' = s ∧ Reports Q e tr result := by
  rw [runs_bind] at h
  rcases h with ⟨retry, tr₁, tr₂, s₁, rfl, honFailure, h⟩ | ⟨x, rfl, honFailure⟩
  · obtain ⟨-, rfl, hpolicy⟩ := hpolicies.onFailure honFailure
    suffices hrest : s' = s₁ ∧ Reports Q e tr₂ result from
      ⟨hrest.1, hrest.2.prepend hquiet fun c hc => .inl (hpolicy c hc)⟩
    cases retry with
    | true =>
      simp only [if_true, runs_bind] at h
      rcases h with ⟨_, tr₃, tr₄, s₂, rfl, hbackoff, h⟩ | ⟨x, rfl, hbackoff⟩
      · obtain ⟨-, rfl, hsleep⟩ := hpolicies.backoff hbackoff
        obtain ⟨rfl, hreports⟩ := hagain h
        exact ⟨rfl, hreports.prepend hquiet fun c hc => .inl (hsleep c hc)⟩
      · cases (hpolicies.backoff hbackoff).1
    | false => exact runs_giveUp hquiet hpolicies h
  · obtain ⟨⟨_, hresult⟩, -⟩ := hpolicies.onFailure honFailure
    cases hresult

theorem runs_loop {fuel : Nat} {lastStatus : Status}
    (h : (loop policies print isIdempotent (perform e) location fuel lastStatus).Runs
      s tr result s') : s' = s ∧ Reports Q e tr result := by
  induction fuel generalizing s tr lastStatus with
  | zero =>
    rw [loop, runs_throw] at h
    obtain ⟨rfl, rfl, rfl⟩ := h
    exact ⟨rfl, nofun, nofun, nofun⟩
  | succ fuel ih =>
    rw [loop, runs_bind] at h
    rcases h with ⟨exhausted, tr₁, tr₂, s₁, rfl, hexhausted, h⟩ | ⟨x, rfl, hexhausted⟩
    · obtain ⟨-, rfl, hpolicy⟩ := hpolicies.isExhausted hexhausted
      suffices hrest : s' = s₁ ∧ Reports Q e tr₂ result from
        ⟨hrest.1, hrest.2.prepend hquiet fun c hc => .inl (hpolicy c hc)⟩
      cases exhausted with
      | true => exact runs_giveUp hquiet hpolicies h
      | false =>
        simp only [Bool.false_eq_true, if_false, runs_perform_bind] at h
        obtain ⟨r, tr₃, rfl, h⟩ := h
        cases hok : (getResultStatus r).ok with
        | true =>
          simp only [hok, if_true, runs_pure] at h
          obtain ⟨rfl, rfl, rfl⟩ := h
          exact ⟨rfl, .of_answer r⟩
        | false =>
          simp only [hok, Bool.false_eq_true, if_false] at h
          have hfail : ∀ c ∈ [(⟨e, r⟩ : Sigma ρ)],
              Q c ∨ ∃ r, c = ⟨e, r⟩ ∧ (getResultStatus r).ok = false := by
            simpa using .inr hok
          suffices hrest : s' = s₁ ∧ Reports Q e tr₃ result from
            ⟨hrest.1, hrest.2.prepend hquiet hfail⟩
          split at h
          · obtain ⟨rfl, rfl, hresult⟩ := runs_returnStatus h
            exact ⟨rfl, .of_quiet hquiet (by simp) hresult⟩
          · exact runs_afterFailure hquiet hpolicies ih h
    · obtain ⟨⟨_, hresult⟩, -⟩ := hpolicies.isExhausted hexhausted
      cases hresult

end

end RetryLoop

end SpannerClient
