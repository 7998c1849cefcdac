import SpannerClient.Internal.RetryLoop
import SpannerClient.Library.Contract

namespace SpannerClient

open Program

variable {ε : Type} {ρ : ε → Type} {σ γ α : Type} {policies : LoopPolicies ρ σ}
  {c : Contract ρ γ} {I : σ → γ → Prop} {s : σ} {g : γ}

structure LoopPolicies.Keeps (policies : LoopPolicies ρ σ) (c : Contract ρ γ)
    (I : σ → γ → Prop) : Prop where
  isExhausted {s : σ} {g : γ} : I s g → policies.isExhausted.Keeps c (fun _ => I) s g
  onFailure {s : σ} {g : γ} (status : Status) :
    I s g → (policies.onFailure status).Keeps c (fun _ => I) s g
  backoff {s : σ} {g : γ} : I s g → policies.backoff.Keeps c (fun _ => I) s g

namespace RetryLoop

variable {print : Status → String} {isIdempotent : Bool} {location : String}
  {functor : Program ρ σ Abort (StatusOr α)} {P : α → σ → γ → Prop}

def Succeeds (P : α → σ → γ → Prop) (result : Except Abort (StatusOr α)) (s : σ) (g : γ) : Prop :=
  ∀ a, result = .ok (.ok a) → P a s g

theorem succeeds_error {x : Abort} : Succeeds P (.error x) s g :=
  fun _ hresult => nomatch hresult

theorem keeps_returnStatus {status : Status} :
    (returnStatus status : Program ρ σ Abort (StatusOr α)).Keeps c (Succeeds P) s g := by
  rw [returnStatus]
  split
  · next result hstatus =>
    rintro a hresult
    cases hresult
    rw [RetryResult.ofStatus] at hstatus
    simp only [instRetryResultStatusOr] at hstatus
    split at hstatus <;> cases hstatus
  · exact succeeds_error

variable (hpolicies : policies.Keeps c I)

include hpolicies

theorem keeps_giveUp {lastStatus : Status} (h : I s g) :
    (giveUp policies print location lastStatus : Program ρ σ Abort (StatusOr α)).Keeps c
      (Succeeds P) s g := by
  refine (hpolicies.isExhausted h).bind ?_ fun _ _ _ _ => succeeds_error
  intro exhausted _ _ _
  split <;> exact keeps_returnStatus

theorem keeps_loop (hfunctor : ∀ s g, I s g →
    functor.Keeps c (fun result s g => I s g ∧ Succeeds P result s g) s g)
    {fuel : Nat} {lastStatus : Status} (h : I s g) :
    (loop policies print isIdempotent functor location fuel lastStatus).Keeps c (Succeeds P) s
      g := by
  induction fuel generalizing s g lastStatus with
  | zero => exact succeeds_error
  | succ fuel ih =>
    refine (hpolicies.isExhausted h).bind ?_ fun _ _ _ _ => succeeds_error
    intro exhausted s g h
    cases exhausted with
    | true => exact keeps_giveUp hpolicies h
    | false =>
      refine (hfunctor s g h).bind ?_ fun _ _ _ _ => succeeds_error
      rintro result s g ⟨h, hsucceeds⟩
      cases hok : (getResultStatus result).ok with
      | true =>
        simp only [hok, if_true]
        rintro a hresult
        cases hresult
        exact hsucceeds a rfl
      | false =>
        simp only [hok, Bool.false_eq_true, if_false]
        split
        · exact keeps_returnStatus
        · refine (hpolicies.onFailure _ h).bind ?_ fun _ _ _ _ => succeeds_error
          intro retry s g h
          cases retry with
          | true =>
            refine (hpolicies.backoff h).bind ?_ fun _ _ _ _ => succeeds_error
            exact fun _ s g h => ih h
          | false => exact keeps_giveUp hpolicies h

end RetryLoop

namespace RetryLoop

variable {print : Status → String} {isIdempotent : Bool} {location : String} [RetryResult α]
  {functor : Program ρ σ Abort α} {P : α → σ → γ → Prop}

def Settles (I : σ → γ → Prop) (P : α → σ → γ → Prop) : Except Abort α → σ → γ → Prop
  | .ok a, s, g => if (getResultStatus a).ok = true then P a s g else I s g
  | .error _, s, g => I s g

theorem settles_failure {β : Type} {P : StatusOr β → σ → γ → Prop} {e : Failure} :
    Settles I P (.ok (.error e)) s g ↔ I s g := by
  have hfail : (getResultStatus (.error e : StatusOr β)).ok = false := e.not_ok
  simp [Settles, hfail]

theorem settles_returnStatus {status : Status}
    (hgiven : ∀ a s g, RetryResult.ofStatus status = .ok a → I s g → Settles I P (.ok a) s g)
    (h : I s g) : (returnStatus status : Program ρ σ Abort α).Keeps c (Settles I P) s g := by
  rw [returnStatus]
  split
  · next hstatus => exact hgiven _ s g hstatus h
  · exact h

theorem settles_loop (hpolicies : policies.Keeps c I)
    (hgiven : ∀ status a s g, RetryResult.ofStatus status = .ok a → I s g →
      Settles I P (.ok a) s g)
    (hfunctor : ∀ s g, I s g → functor.Keeps c (Settles I P) s g) {fuel : Nat}
    {lastStatus : Status} (h : I s g) :
    (loop policies print isIdempotent functor location fuel lastStatus).Keeps c (Settles I P) s
      g := by
  have hgiveUp {status : Status} {s : σ} {g : γ} (h : I s g) :
      (giveUp policies print location status : Program ρ σ Abort α).Keeps c (Settles I P) s g := by
    refine (hpolicies.isExhausted h).bind ?_ fun _ _ _ h => h
    intro exhausted s g h
    cases exhausted with
    | true | false => exact settles_returnStatus (hgiven _) h
  induction fuel generalizing s g lastStatus with
  | zero => exact h
  | succ fuel ih =>
    refine (hpolicies.isExhausted h).bind ?_ fun _ _ _ h => h
    intro exhausted s g h
    cases exhausted with
    | true => exact hgiveUp h
    | false =>
      refine (hfunctor s g h).bind ?_ fun _ _ _ h => h
      intro result s g hsettles
      cases hok : (getResultStatus result).ok with
      | true =>
        simp only [hok, if_true]
        exact hsettles
      | false =>
        have h : I s g := by simpa [Settles, hok] using hsettles
        simp only [hok, Bool.false_eq_true, if_false]
        cases isIdempotent with
        | false => exact settles_returnStatus (hgiven _) h
        | true =>
          refine (hpolicies.onFailure _ h).bind ?_ fun _ _ _ h => h
          intro retry s g h
          cases retry with
          | true => exact (hpolicies.backoff h).bind (fun _ s g h => ih h) fun _ _ _ h => h
          | false => exact hgiveUp h

end RetryLoop

namespace RetryLoop

variable {print : Status → String} {isIdempotent : Bool} {location : String}
  {functor : Program ρ σ Abort (StatusOr α)} {I : StatusCode → σ → γ → Prop}

def Carries (I : StatusCode → σ → γ → Prop) (result : Except Abort (StatusOr α)) (s : σ) (g : γ) :
    Prop :=
  ∀ e : Failure, result = .ok (.error e) → I e.status.code s g

theorem carries_throw {x : Abort} :
    Carries I (.error x : Except Abort (StatusOr α)) s g := fun _ h => by cases h

theorem carries_returnStatus {status : Status} (h : I status.code s g) :
    (returnStatus status : Program ρ σ Abort (StatusOr α)).Keeps c (Carries I) s g := by
  rw [returnStatus]
  split
  · next hstatus =>
    rintro e he
    cases he
    simp only [RetryResult.ofStatus] at hstatus
    split at hstatus
    · cases hstatus
      exact h
    · cases hstatus
  · exact carries_throw

theorem carries_loop (hpolicies : ∀ code, policies.Keeps c (I code))
    (hfunctor : ∀ code s g, I code s g → functor.Keeps c (Carries I) s g) {fuel : Nat}
    {lastStatus : Status} (h : I lastStatus.code s g) :
    (loop policies print isIdempotent functor location fuel lastStatus).Keeps c (Carries I) s
      g := by
  have hgiveUp {status : Status} {s : σ} {g : γ} (h : I status.code s g) :
      (giveUp policies print location status : Program ρ σ Abort (StatusOr α)).Keeps c (Carries I)
        s g := by
    refine ((hpolicies _).isExhausted h).bind ?_ fun _ _ _ _ => carries_throw
    intro exhausted s g h
    cases exhausted with
    | true | false => exact carries_returnStatus h
  induction fuel generalizing s g lastStatus with
  | zero => exact carries_throw
  | succ fuel ih =>
    refine ((hpolicies _).isExhausted h).bind ?_ fun _ _ _ _ => carries_throw
    intro exhausted s g h
    cases exhausted with
    | true => exact hgiveUp h
    | false =>
      refine (hfunctor _ s g h).bind ?_ fun _ _ _ _ => carries_throw
      rintro (e | a) s g hcarries
      · have hfail : (getResultStatus (.error e : StatusOr α)).ok = false := e.not_ok
        have h : I e.status.code s g := hcarries e rfl
        simp only [hfail, Bool.false_eq_true, if_false]
        split
        · exact carries_returnStatus h
        · refine ((hpolicies _).onFailure _ h).bind ?_ fun _ _ _ _ => carries_throw
          intro retry s g h
          cases retry with
          | true =>
            exact ((hpolicies _).backoff h).bind (fun _ s g h => ih h) fun _ _ _ _ => carries_throw
          | false => exact hgiveUp h
      · exact fun e he => by cases he

end RetryLoop

end SpannerClient
