import SpannerClient.Internal.PartialResultSetResume
import SpannerClient.Internal.RetryLoop
import SpannerClient.Library.Transition

namespace SpannerClient.ResumeCalls

open Protobuf Program

inductive Call
  | factory (resumeToken : String)
  | read
  | tryCancel
  | finish
  | onFailure (status : Status)
  | onCompletion
  | sleepFor (delay : Nat)
  | isExhausted
  deriving DecidableEq

namespace Call

abbrev Reply : Call → Type
  | .factory _ | .tryCancel | .sleepFor _ => Unit
  | .read => Option PartialResultSet
  | .finish => Status
  | .onFailure _ | .isExhausted => Bool
  | .onCompletion => Nat

def isFactory : Call → Bool
  | .factory _ => true
  | _ => false

end Call

abbrev Exchange := Sigma Call.Reply

structure State where
  lastResumeToken : String
  lastStatus : Option Status

abbrev ResumeProgram (α : Type) := Program Call.Reply State Abort α

def tryCancel : ResumeProgram Unit := perform Call.tryCancel

def finish : ResumeProgram Status := do
  match (← get).lastStatus with
  | some status => return status
  | none =>
    let status ← perform Call.finish
    modify fun s => { s with lastStatus := some status }
    return status

def read (isIdempotent : Idempotency) : Nat → ResumeProgram (Option PartialResultSet)
  | 0 => throw .outOfFuel
  | fuel + 1 => do
    match ← perform Call.read with
    | some r =>
      modify fun s => { s with lastResumeToken := r.resumeToken }
      return some r
    | none =>
      let status ← finish
      if status.ok then return none
      if isIdempotent = .notIdempotent then return none
      if !(← perform (Call.onFailure status)) then return none
      perform (Call.sleepFor (← perform Call.onCompletion))
      modify fun s => { s with lastStatus := none }
      perform (Call.factory (← get).lastResumeToken)
      if ← perform Call.isExhausted then return none
      read isIdempotent fuel

def readFromStream (isIdempotent : Idempotency) (fuel : Nat) :
    ResumeProgram (PartialResultSet ⊕ Status) := do
  match ← read isIdempotent fuel with
  | some r => return .inl r
  | none => return .inr (← finish)

def destroy : ResumeProgram Status := do
  tryCancel
  finish

variable {isIdempotent : Idempotency} {s s' : State} {tr : List Exchange}

theorem runs_finish {result : Except Abort Status} (h : finish.Runs s tr result s') :
    (∃ status, s.lastStatus = some status ∧ tr = [] ∧ result = .ok status ∧ s' = s) ∨
      ∃ status, s.lastStatus = none ∧ tr = [⟨.finish, status⟩] ∧ result = .ok status ∧
        s' = { s with lastStatus := some status } := by
  rw [finish, runs_get_bind] at h
  split at h
  · next status hstatus =>
    obtain ⟨rfl, rfl, rfl⟩ := runs_pure.mp h
    exact .inl ⟨status, hstatus, rfl, rfl, rfl⟩
  · next hstatus =>
    rw [runs_perform_bind] at h
    obtain ⟨status, tr', rfl, h⟩ := h
    rw [runs_modify_bind] at h
    obtain ⟨rfl, rfl, rfl⟩ := runs_pure.mp h
    exact .inr ⟨status, hstatus, rfl, rfl, rfl⟩

theorem runs_finish_bind {α : Type} {f : Status → ResumeProgram α} {result : Except Abort α}
    (h : (finish >>= f).Runs s tr result s') : ∃ status tr₁ tr₂ s₁, tr = tr₁ ++ tr₂ ∧
      finish.Runs s tr₁ (.ok status) s₁ ∧ (f status).Runs s₁ tr₂ result s' := by
  rcases runs_bind.mp h with ⟨status, tr₁, tr₂, s₁, rfl, hfinish, h⟩ | ⟨x, rfl, hfinish⟩
  · exact ⟨status, tr₁, tr₂, s₁, rfl, hfinish, h⟩
  · rcases runs_finish hfinish with ⟨_, -, -, hresult, -⟩ | ⟨_, -, -, hresult, -⟩ <;> cases hresult

def restarting (status : Status) (delay : Nat) (token : String) (exhausted : Bool) :
    List Exchange :=
  [⟨.onFailure status, true⟩, ⟨.onCompletion, delay⟩, ⟨.sleepFor delay, ()⟩,
    ⟨.factory token, ()⟩, ⟨.isExhausted, exhausted⟩]

inductive Attempt (again : ResumeProgram (Option PartialResultSet)) (s : State) :
    List Exchange → Except Abort (Option PartialResultSet) → State → Prop
  | value (r : PartialResultSet) :
    Attempt again s [⟨.read, some r⟩] (.ok (some r)) { s with lastResumeToken := r.resumeToken }
  | stop {tr quiet : List Exchange} {status : Status} {s₁ : State} :
    finish.Runs s tr (.ok status) s₁ → (∀ x ∈ quiet, ∃ retry, x = ⟨.onFailure status, retry⟩) →
      Attempt again s (⟨.read, none⟩ :: tr ++ quiet) (.ok none) s₁
  | exhausted {tr : List Exchange} {status : Status} {s₁ : State} (delay : Nat) :
    finish.Runs s tr (.ok status) s₁ →
      Attempt again s (⟨.read, none⟩ :: tr ++ restarting status delay s₁.lastResumeToken true)
        (.ok none) { s₁ with lastStatus := none }
  | retry {tr tr' : List Exchange} {status : Status} {s₁ s' : State} (delay : Nat)
    {result : Except Abort (Option PartialResultSet)} :
    finish.Runs s tr (.ok status) s₁ → again.Runs { s₁ with lastStatus := none } tr' result s' →
      Attempt again s
        (⟨.read, none⟩ :: tr ++ restarting status delay s₁.lastResumeToken false ++ tr') result s'

theorem runs_read_succ {fuel : Nat} {result : Except Abort (Option PartialResultSet)}
    (h : (read isIdempotent (fuel + 1)).Runs s tr result s') :
    Attempt (read isIdempotent fuel) s tr result s' := by
  rw [read, runs_perform_bind] at h
  obtain ⟨reply, tr, rfl, h⟩ := h
  cases reply with
  | some r =>
    simp only [runs_modify_bind, runs_pure] at h
    obtain ⟨rfl, rfl, rfl⟩ := h
    exact .value r
  | none =>
    obtain ⟨status, tr₁, tr₂, s₁, rfl, hfinish, hrest⟩ := runs_finish_bind h
    rw [← List.cons_append]
    split at hrest
    · obtain ⟨rfl, rfl, rfl⟩ := runs_pure.mp hrest
      exact .stop hfinish (by simp)
    split at hrest
    · obtain ⟨rfl, rfl, rfl⟩ := runs_pure.mp hrest
      exact .stop hfinish (by simp)
    rw [runs_perform_bind] at hrest
    obtain ⟨retry, tr₂, rfl, hrest⟩ := hrest
    cases retry with
    | false =>
      obtain ⟨rfl, rfl, rfl⟩ := runs_pure.mp hrest
      exact .stop hfinish (by simp)
    | true =>
      simp only [Bool.not_true, Bool.false_eq_true, if_false, runs_perform_bind, runs_modify_bind,
        runs_get_bind] at hrest
      obtain ⟨delay, _, rfl, _, _, rfl, _, _, rfl, exhausted, tr₂, rfl, hrest⟩ := hrest
      cases exhausted with
      | true =>
        obtain ⟨rfl, rfl, rfl⟩ := runs_pure.mp hrest
        exact .exhausted delay hfinish
      | false => simpa [restarting] using Attempt.retry delay hfinish hrest

structure Environment (ρ ω π β : Type) where
  child : ρ
  world : ω
  retryState : π
  backoffState : β

variable {ρ ω π β : Type} {R : PartialResultSetResume ρ ω π β}

inductive Answers (R : PartialResultSetResume ρ ω π β) :
    Environment ρ ω π β → Exchange → Environment ρ ω π β → Prop
  | factory {E : Environment ρ ω π β} {token : String} {child : ρ} {world : ω} :
    R.factory token E.world = (child, world) →
      Answers R E ⟨.factory token, ()⟩ { E with child, world }
  | read {E : Environment ρ ω π β} {fuel : Nat} {result : Option PartialResultSet} {child : ρ} :
    R.childReader.read fuel E.child = some (result, child) →
      Answers R E ⟨.read, result⟩ { E with child }
  | tryCancel {E : Environment ρ ω π β} :
    Answers R E ⟨.tryCancel, ()⟩ { E with child := R.childReader.tryCancel E.child }
  | finish {E : Environment ρ ω π β} {status : Status} {child : ρ} :
    R.childReader.finish E.child = (status, child) →
      Answers R E ⟨.finish, status⟩ { E with child }
  | onFailure {E : Environment ρ ω π β} {status : Status} {retry : Bool} {retryState : π} :
    R.retryPolicy.onFailure status E.retryState = (retry, retryState) →
      Answers R E ⟨.onFailure status, retry⟩ { E with retryState }
  | onCompletion {E : Environment ρ ω π β} {delay : Nat} {backoffState : β} :
    R.backoffPolicy.onCompletion E.backoffState = (delay, backoffState) →
      Answers R E ⟨.onCompletion, delay⟩ { E with backoffState }
  | sleepFor {E : Environment ρ ω π β} {delay : Nat} : Answers R E ⟨.sleepFor delay, ()⟩ E
  | isExhausted {E : Environment ρ ω π β} {exhausted : Bool} {retryState : π} :
    R.retryPolicy.isExhausted E.retryState = (exhausted, retryState) →
      Answers R E ⟨.isExhausted, exhausted⟩ { E with retryState }

def members (s : PartialResultSetResume.State ρ ω π β) : State := ⟨s.lastResumeToken, s.lastStatus⟩

def environment (s : PartialResultSetResume.State ρ ω π β) : Environment ρ ω π β :=
  ⟨s.child, s.world, s.retryState, s.backoffState⟩

def RunsOn (R : PartialResultSetResume ρ ω π β) {α : Type} (m : ResumeProgram α)
    (s : PartialResultSetResume.State ρ ω π β) (a : α)
    (s' : PartialResultSetResume.State ρ ω π β) : Prop :=
  ∃ tr, m.Runs (members s) tr (.ok a) (members s') ∧
    Run (Answers R) (environment s) tr (environment s')

variable {s s' : PartialResultSetResume.State ρ ω π β}

namespace RunsOn

theorem pure {α : Type} (a : α) : RunsOn R (pure a) s a s := ⟨[], by simp, .nil⟩

theorem bind {α β' : Type} {m : ResumeProgram α} {f : α → ResumeProgram β'} {a : α} {b : β'}
    {s₁ : PartialResultSetResume.State ρ ω π β} (hm : RunsOn R m s a s₁)
    (hf : RunsOn R (f a) s₁ b s') : RunsOn R (m >>= f) s b s' := by
  obtain ⟨tr₁, hm, hanswers₁⟩ := hm
  obtain ⟨tr₂, hf, hanswers₂⟩ := hf
  exact ⟨tr₁ ++ tr₂, runs_bind.mpr (.inl ⟨a, tr₁, tr₂, _, rfl, hm, hf⟩),
    hanswers₁.append hanswers₂⟩

theorem perform {e : Call} {r : e.Reply}
    (s' : PartialResultSetResume.State ρ ω π β)
    (h : Answers R (environment s) ⟨e, r⟩ (environment s'))
    (hs : members s' = members s) : RunsOn R (perform e) s r s' :=
  ⟨[⟨e, r⟩], by simp [hs], .single h⟩

theorem get : RunsOn R get s (members s) s := ⟨[], by simp, .nil⟩

theorem modify {f : State → State} (s' : PartialResultSetResume.State ρ ω π β)
    (hmembers : members s' = f (members s))
    (henvironment : environment s' = environment s) : RunsOn R (modify f) s () s' :=
  ⟨[], by simp [hmembers], henvironment ▸ .nil⟩

theorem tryCancel : RunsOn R tryCancel s () (R.tryCancel s) := .perform _ .tryCancel rfl

theorem finish {status : Status} (h : R.finish s = (status, s')) :
    RunsOn R finish s status s' := by
  refine .bind .get ?_
  cases hstatus : s.lastStatus with
  | some last =>
    simp only [PartialResultSetResume.finish, hstatus] at h
    cases h
    simp only [members, hstatus]
    exact .pure status
  | none =>
    rcases hfinish : R.childReader.finish s.child with ⟨last, child⟩
    simp only [PartialResultSetResume.finish, hstatus, hfinish] at h
    cases h
    simp only [members, hstatus]
    refine .bind (.perform { s with child } (.finish hfinish) rfl) ?_
    exact .bind (.modify { s with child, lastStatus := some status } rfl rfl) (.pure status)

theorem read {fuel : Nat} {result : Option PartialResultSet}
    (h : R.read fuel s = some (result, s')) :
    RunsOn R (read R.isIdempotent fuel) s result s' := by
  induction fuel generalizing s with
  | zero => cases h
  | succ fuel ih =>
    rw [PartialResultSetResume.read] at h
    obtain ⟨⟨answer, child⟩, hread, hrest⟩ := Option.bind_eq_some_iff.mp h
    refine .bind (.perform { s with child } (.read hread) rfl) ?_
    cases answer with
    | some r =>
      cases hrest
      exact .bind (.modify { s with child, lastResumeToken := r.resumeToken } rfl rfl) (.pure _)
    | none =>
      rcases hfinish : R.finish { s with child } with ⟨status, s₁⟩
      refine .bind (.finish hfinish) ?_
      by_cases hok : status.ok = true
      · simp only [hfinish, hok, if_true] at hrest
        cases hrest
        rw [if_pos hok]
        exact .pure none
      rw [if_neg hok]
      by_cases hidem : R.isIdempotent = .notIdempotent
      · simp only [hfinish, hok, hidem, if_true] at hrest
        cases hrest
        rw [if_pos hidem]
        exact .pure none
      rw [if_neg hidem]
      rcases honFailure : R.retryPolicy.onFailure status s₁.retryState with ⟨retry, retryState⟩
      simp only [hfinish, hok, hidem, honFailure, if_false] at hrest
      refine .bind (.perform { s₁ with retryState } (.onFailure honFailure) rfl) ?_
      cases retry with
      | false =>
        cases hrest
        exact .pure none
      | true =>
        rcases hdelay : R.backoffPolicy.onCompletion s₁.backoffState with ⟨delay, backoffState⟩
        rcases hfactory : R.factory s₁.lastResumeToken s₁.world with ⟨child, world⟩
        rcases hexhausted : R.retryPolicy.isExhausted retryState with ⟨exhausted, retryState'⟩
        simp only [PartialResultSetResume.restart, hdelay, hfactory, hexhausted] at hrest
        refine .bind (.perform { s₁ with retryState, backoffState } (.onCompletion hdelay) rfl) ?_
        refine .bind (.perform _ .sleepFor rfl) ?_
        refine .bind (.modify { s₁ with retryState, backoffState, lastStatus := none } rfl rfl) ?_
        refine .bind .get (.bind (.perform { s₁ with
          retryState, backoffState, lastStatus := none, child, world } (.factory hfactory) rfl) ?_)
        refine .bind (.perform { s₁ with
          retryState := retryState', backoffState, lastStatus := none, child, world }
          (.isExhausted hexhausted) rfl) ?_
        cases exhausted with
        | true =>
          cases hrest
          exact .pure none
        | false => exact ih hrest

end RunsOn

end SpannerClient.ResumeCalls
