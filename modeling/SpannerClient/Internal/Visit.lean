import SpannerClient.Internal.RetryLoop
import SpannerClient.Internal.TransactionImpl

namespace SpannerClient.TransactionImpl

open Program

variable {ε ς α : Type} {ρ : ε → Type}

/-- A call to `Visit()` while there is no other one.  The functor works on the session and the
selector of the state. -/
def visit (functor : Nat → Program ρ (TransactionImpl ς) Abort α) :
    Program ρ (TransactionImpl ς) Abort α := do
  modify fun t => { t with seqno := t.seqno + 1 }
  let t ← get
  match t.state with
  | .pending => throw .outOfFuel
  | .done => functor t.seqno
  | .begin =>
    modify fun t => { t with state := .pending }
    recover (do
        let result ← functor t.seqno
        modify settle
        return result)
      fun
      | .invalidArgument => do
        modify abandon
        throw .invalidArgument
      | .outOfFuel => throw .outOfFuel

variable {functor : Nat → Program ρ (TransactionImpl ς) Abort α} {t t' : TransactionImpl ς}
  {tr : List (Sigma ρ)} {outcome : Except Abort α}

inductive Visits (functor : Nat → Program ρ (TransactionImpl ς) Abort α) (t : TransactionImpl ς)
    (tr : List (Sigma ρ)) (outcome : Except Abort α) (t' : TransactionImpl ς) : Prop
  | blocked : tr = [] → outcome = .error .outOfFuel → t'.selector = t.selector →
    t'.session = t.session → Visits functor t tr outcome t'
  | ran {t₁ t₂ : TransactionImpl ς} : (functor (t.seqno + 1)).Runs t₁ tr outcome t₂ →
    t₁.selector = t.selector → t₁.session = t.session → t'.selector = t₂.selector →
      t'.session = t₂.session → Visits functor t tr outcome t'

theorem runs_visit (h : (visit functor).Runs t tr outcome t') : Visits functor t tr outcome t' := by
  simp only [visit, runs_modify_bind, runs_get_bind] at h
  split at h
  · obtain ⟨rfl, rfl, rfl⟩ := runs_throw.mp h
    exact .blocked rfl rfl rfl rfl
  · exact .ran h rfl rfl rfl rfl
  · rw [runs_modify_bind] at h
    rcases runs_recover.mp h with ⟨a, rfl, hreturn⟩ | ⟨x, tr₁, tr₂, t₁, rfl, hthrow, hhandler⟩
    · rcases runs_bind.mp hreturn with ⟨b, tr₁, tr₂, t₁, rfl, hrun, hrest⟩ | ⟨x, hx, -⟩
      · rw [runs_modify_bind] at hrest
        obtain ⟨rfl, hresult, rfl⟩ := runs_pure.mp hrest
        cases hresult
        rw [List.append_nil]
        exact .ran hrun rfl rfl rfl rfl
      · cases hx
    · have hthrew : (functor (t.seqno + 1)).Runs
          { t with seqno := t.seqno + 1, state := .pending } tr₁ (.error x) t₁ := by
        rcases runs_bind.mp hthrow with ⟨b, tr₃, tr₄, t₂, rfl, hrun, hrest⟩ | ⟨x, hx, hrun⟩
        · rw [runs_modify_bind] at hrest
          cases (runs_pure.mp hrest).2.1
        · cases hx
          exact hrun
      cases x with
      | invalidArgument =>
        rw [runs_modify_bind] at hhandler
        obtain ⟨rfl, rfl, rfl⟩ := runs_throw.mp hhandler
        rw [List.append_nil]
        exact .ran hthrew rfl rfl rfl rfl
      | outOfFuel =>
        obtain ⟨rfl, rfl, rfl⟩ := runs_throw.mp hhandler
        rw [List.append_nil]
        exact .ran hthrew rfl rfl rfl rfl

end SpannerClient.TransactionImpl
