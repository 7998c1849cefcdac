import SpannerClient.Internal.ResumeStatus
import SpannerClient.Internal.ResumedRows

namespace SpannerClient.ResumeCalls

open Protobuf Program

inductive Child
  | running | finished
  deriving DecidableEq

namespace Child

def after : Child → Call → Option Child
  | .finished, .factory _ => some .running
  | .running, .factory _ => none
  | .running, .read | .running, .tryCancel => some .running
  | .running, .finish => some .finished
  | .finished, .read | .finished, .tryCancel | .finished, .finish => none
  | child, .onFailure _ | child, .onCompletion | child, .sleepFor _ | child, .isExhausted =>
    some child

def afterAll (child : Child) (tr : List Exchange) : Option Child :=
  tr.foldlM (fun child x => child.after x.1) child

variable {child child' : Child} {tr tr' : List Exchange}

theorem afterAll_append (h : child.afterAll tr = some child') :
    child.afterAll (tr ++ tr') = child'.afterAll tr' := by
  rw [afterAll, List.foldlM_append, ← afterAll, h]
  rfl

theorem afterAll_cons {x : Exchange} (h : child.after x.1 = some child') :
    child.afterAll (x :: tr) = child'.afterAll tr := by
  rw [afterAll, List.foldlM_cons, h]
  rfl

theorem afterAll_onFailure {status : Status}
    (h : ∀ x ∈ tr, ∃ retry, x = ⟨.onFailure status, retry⟩) : child.afterAll tr = some child := by
  induction tr with
  | nil => rfl
  | cons x tr ih =>
    obtain ⟨retry, rfl⟩ := h x List.mem_cons_self
    have hsame : child.after (.onFailure status) = some child := by cases child <;> rfl
    calc child.afterAll (⟨.onFailure status, retry⟩ :: tr) = child.afterAll tr :=
          afterAll_cons hsame
      _ = some child := ih fun y hy => h y (List.mem_cons_of_mem _ hy)

theorem afterAll_restarting (status : Status) (delay : Nat) (token : String) (exhausted : Bool) :
    finished.afterAll (restarting status delay token exhausted) = some running := rfl

end Child

def State.child (s : State) : Child := if s.lastStatus.isSome then .finished else .running

theorem State.child_running {s : State} (h : s.lastStatus = none) : s.child = .running := by
  rw [State.child, h]
  rfl

theorem State.child_finished {s : State} {status : Status} (h : s.lastStatus = some status) :
    s.child = .finished := by
  rw [State.child, h]
  rfl

variable {isIdempotent : Idempotency} {s s' : State} {tr tr' : List Exchange}

theorem afterAll_finish {status : Status} (h : finish.Runs s tr (.ok status) s') :
    s.child.afterAll tr = some .finished ∧ s'.lastStatus = some status := by
  rcases runs_finish h with ⟨_, hsome, rfl, hresult, rfl⟩ | ⟨_, hnone, rfl, hresult, rfl⟩
  · cases hresult
    exact ⟨congrArg some (State.child_finished hsome), hsome⟩
  · cases hresult
    rw [State.child_running hnone]
    exact ⟨rfl, rfl⟩

theorem afterAll_read {fuel : Nat} {answer : Option PartialResultSet} (hs : s.lastStatus = none)
    (h : (read isIdempotent fuel).Runs s tr (.ok answer) s') :
    Child.running.afterAll tr = some s'.child ∧ (answer.isSome → s'.lastStatus = none) := by
  induction fuel generalizing s tr with
  | zero =>
    rw [read, runs_throw] at h
    cases h.2.1
  | succ fuel ih =>
    have hdrain {tr₁ : List Exchange} {status : Status} {s₁ : State}
        (hfinish : finish.Runs s tr₁ (.ok status) s₁) :
        Child.running.afterAll (⟨.read, none⟩ :: tr₁) = some .finished ∧
          s₁.lastStatus = some status := by
      obtain ⟨hafter, hstatus⟩ := afterAll_finish hfinish
      rw [State.child_running hs] at hafter
      exact ⟨(Child.afterAll_cons rfl).trans hafter, hstatus⟩
    cases runs_read_succ h with
    | value r =>
      refine ⟨?_, fun _ => hs⟩
      rw [State.child_running (s := { s with lastResumeToken := r.resumeToken }) hs]
      rfl
    | stop hfinish hquiet =>
      obtain ⟨hafter, hstatus⟩ := hdrain hfinish
      rw [Child.afterAll_append hafter, Child.afterAll_onFailure hquiet,
        State.child_finished hstatus]
      exact ⟨rfl, fun hsome => absurd hsome Bool.false_ne_true⟩
    | exhausted delay hfinish =>
      obtain ⟨hafter, -⟩ := hdrain hfinish
      rw [Child.afterAll_append hafter, Child.afterAll_restarting]
      exact ⟨rfl, fun hsome => absurd hsome Bool.false_ne_true⟩
    | @retry _ _ status s₁ _ delay _ hfinish hagain =>
      obtain ⟨hafter, -⟩ := hdrain hfinish
      rw [List.append_assoc, Child.afterAll_append hafter,
        Child.afterAll_append (Child.afterAll_restarting status delay s₁.lastResumeToken false)]
      exact ih rfl hagain

theorem afterAll_readFromStream {fuel : Nat} {answer : PartialResultSet ⊕ Status}
    (hs : s.lastStatus = none)
    (h : (readFromStream isIdempotent fuel).Runs s tr (.ok answer) s') :
    Child.running.afterAll tr = some s'.child ∧ s'.lastStatus.isSome = answer.isRight := by
  rw [readFromStream] at h
  rcases runs_bind.mp h with ⟨result, tr₁, tr₂, s₁, rfl, hread, hrest⟩ | ⟨x, hx, -⟩
  · obtain ⟨hafter, hnone⟩ := afterAll_read hs hread
    cases result with
    | some r =>
      obtain ⟨rfl, hanswer, rfl⟩ := runs_pure.mp hrest
      cases hanswer
      rw [List.append_nil, hnone rfl]
      exact ⟨hafter, rfl⟩
    | none =>
      obtain ⟨status, tr₂, tr₃, s₂, rfl, hfinish, hrest⟩ := runs_finish_bind hrest
      obtain ⟨rfl, hanswer, rfl⟩ := runs_pure.mp hrest
      cases hanswer
      obtain ⟨hfinished, hstatus⟩ := afterAll_finish hfinish
      rw [List.append_nil, Child.afterAll_append hafter, hfinished, State.child_finished hstatus,
        hstatus]
      exact ⟨rfl, rfl⟩
  · cases hx

theorem afterAll_destroy {status : Status} (hs : s.lastStatus = none)
    (h : destroy.Runs s tr (.ok status) s') : Child.running.afterAll tr = some .finished := by
  rw [destroy, tryCancel, runs_perform_bind] at h
  obtain ⟨_, tr, rfl, hfinish⟩ := h
  have hcancel : Child.running.after .tryCancel = some .running := rfl
  refine (Child.afterAll_cons hcancel).trans ?_
  rw [← State.child_running hs]
  exact (afterAll_finish hfinish).1

/-- The calls for a result set, from its first read to its destructor, which calls nothing when the
stream has ended. -/
inductive Lives (isIdempotent : Idempotency) : State → List Exchange → State → Prop
  | ended {s s' : State} {tr : List Exchange} {fuel : Nat} {status : Status} :
    (readFromStream isIdempotent fuel).Runs s tr (.ok (.inr status)) s' → Lives isIdempotent s tr s'
  | destroyed {s s' : State} {tr : List Exchange} {status : Status} :
    destroy.Runs s tr (.ok status) s' → Lives isIdempotent s tr s'
  | response {s s₁ s' : State} {tr tr' : List Exchange} {fuel : Nat} {r : PartialResultSet} :
    (readFromStream isIdempotent fuel).Runs s tr (.ok (.inl r)) s₁ → Lives isIdempotent s₁ tr' s' →
      Lives isIdempotent s (tr ++ tr') s'

theorem Lives.afterAll (h : Lives isIdempotent s tr s') (hs : s.lastStatus = none) :
    Child.running.afterAll tr = some .finished := by
  induction h with
  | ended hrun =>
    obtain ⟨hafter, hstatus⟩ := afterAll_readFromStream hs hrun
    obtain ⟨status, hstatus⟩ := Option.isSome_iff_exists.mp hstatus
    rw [hafter, State.child_finished hstatus]
  | destroyed hrun => exact afterAll_destroy hs hrun
  | response hrun _ ih =>
    obtain ⟨hafter, hstatus⟩ := afterAll_readFromStream hs hrun
    have hnone := Option.isSome_eq_false_iff.mp hstatus
    rw [Option.isNone_iff_eq_none] at hnone
    rw [State.child_running hnone] at hafter
    rw [Child.afterAll_append hafter]
    exact ih hnone

open PartialResultSetSource RowAssembly

variable {ρ ω π β : Type} {R : PartialResultSetResume ρ ω π β}
  {S S₁ S' : PartialResultSetSource (PartialResultSetResume.State ρ ω π β)}
  {last : PartialResultSetResume.State ρ ω π β}

theorem absorb_frame {σ : Type} (s : PartialResultSetSource σ) (r : PartialResultSet) :
    (s.absorb r).2.reader = s.reader ∧ (s.absorb r).2.finished = s.finished := by
  have hmetadata : ((s.setMetadata r).setStats r).reader = s.reader ∧
      ((s.setMetadata r).setStats r).finished = s.finished := by
    rw [setStats, setMetadata]
    cases s.metadata <;> cases r.stats <;> exact ⟨rfl, rfl⟩
  rw [absorb]
  split
  · exact hmetadata
  · exact hmetadata

theorem runsOn_readFromStream {fuel : Nat} {status : StatusOr Unit} (hS : S.finished = false)
    (h : S.readFromStream R.reader fuel = some (status, S')) :
    ∃ answer, RunsOn R (ResumeCalls.readFromStream R.isIdempotent fuel) S.reader answer S'.reader ∧
      S'.finished = answer.isRight := by
  obtain ⟨⟨result, reader⟩, hread, hrest⟩ := Option.bind_eq_some_iff.mp h
  cases result with
  | some r =>
    have hsource : S' = ({ S with reader }.absorb r).2 :=
      congrArg Prod.snd (Option.some.inj hrest).symm
    obtain ⟨hreader, hfinished⟩ := absorb_frame { S with reader } r
    rw [hsource]
    refine ⟨.inl r, ?_, hfinished.trans hS⟩
    rw [hreader]
    exact .bind (.read hread) (.pure _)
  | none =>
    rcases hfinish : R.finish reader with ⟨last, reader'⟩
    have hsource : S' = { S with reader := reader', finished := true } := by
      have hrest := Option.some.inj hrest
      simp only [PartialResultSetResume.reader, hfinish] at hrest
      exact (Prod.mk.inj hrest).2.symm
    subst hsource
    exact ⟨.inr last, .bind (.read hread) (.bind (.finish hfinish) (.pure _)), rfl⟩

def Leaves (R : PartialResultSetResume ρ ω π β)
    (S : PartialResultSetSource (PartialResultSetResume.State ρ ω π β))
    (last : PartialResultSetResume.State ρ ω π β) : Prop :=
  if S.finished then last = S.reader
  else ∃ tr, Lives R.isIdempotent (members S.reader) tr (members last) ∧
    Run (Answers R) (environment S.reader) tr (environment last)

theorem leaves_destroy : Leaves R S (S.destroy R.reader) := by
  rw [Leaves, PartialResultSetSource.destroy]
  split
  · rfl
  · rcases hfinish : R.finish (R.tryCancel S.reader) with ⟨status, reader⟩
    have hdestroy : RunsOn R ResumeCalls.destroy S.reader status reader :=
      .bind .tryCancel (.finish hfinish)
    obtain ⟨tr, hrun, hanswers⟩ := hdestroy
    exact ⟨tr, .destroyed (by simpa [PartialResultSetResume.reader, hfinish] using hrun),
      by simpa [PartialResultSetResume.reader, hfinish] using hanswers⟩

theorem Leaves.of_readFromStream {fuel : Nat} {status : StatusOr Unit} (hS : S.finished = false)
    (h : S.readFromStream R.reader fuel = some (status, S₁)) (hleaves : Leaves R S₁ last) :
    Leaves R S last := by
  obtain ⟨answer, ⟨tr, hrun, hanswers⟩, hfinished⟩ := runsOn_readFromStream hS h
  rw [Leaves, hfinished] at hleaves
  rw [Leaves, if_neg (by simp [hS])]
  cases answer with
  | inl r =>
    obtain ⟨tr', hlives, hanswers'⟩ := hleaves
    exact ⟨tr ++ tr', .response hrun hlives, hanswers.append hanswers'⟩
  | inr status =>
    cases hleaves
    exact ⟨tr, .ended hrun, hanswers⟩

theorem Leaves.of_nextRowLoop {fuel : Nat} {result : StatusOr Row} (hS : S.finished = false)
    (h : S.nextRowLoop R.reader fuel = some (result, S')) (hleaves : Leaves R S' last) :
    Leaves R S last := by
  induction fuel generalizing S with
  | zero => cases h
  | succ fuel ih =>
    by_cases hneed : S.NeedsRead
    · rw [nextRowLoop_read hneed] at h
      obtain ⟨⟨status, S₁⟩, hread, hrest⟩ := Option.bind_eq_some_iff.mp h
      refine .of_readFromStream hS hread ?_
      cases status with
      | error e =>
        cases hrest
        exact hleaves
      | ok _ =>
        cases hfinished : S₁.finished with
        | true =>
          simp only [hfinished, if_true] at hrest
          cases hrest
          exact hleaves
        | false =>
          simp only [hfinished, Bool.false_eq_true, if_false] at hrest
          exact ih hfinished hrest
    · rw [nextRowLoop, dif_neg hneed] at h
      split at h
      · cases h
        exact hleaves
      · cases h
        exact hleaves

theorem Leaves.of_returns {results : List (StatusOr Row)} (h : Returns R.reader S results S')
    (hleaves : Leaves R S' last) : Leaves R S last := by
  induction h with
  | nil => exact hleaves
  | @cons S S₁ _ result _ hnext _ ih =>
    obtain ⟨fuel, hfuel⟩ := hnext
    have hrow := hfuel fuel (Nat.le_refl _)
    simp only [nextRow] at hrow
    cases hfinished : S.finished with
    | true =>
      simp only [hfinished, if_true] at hrow
      cases hrow
      exact ih hleaves
    | false =>
      simp only [hfinished, Bool.false_eq_true, if_false] at hrow
      exact .of_nextRowLoop hfinished hrow (ih hleaves)

/-- Whatever becomes of a result set, each of its streams is used until it is finished, it is
finished before the next one takes its place, and the last one by the end of the destructor. -/
theorem streams_finished {world : ω} {retryState : π} {backoffState : β} {fuel : Nat}
    {status : StatusOr Unit} {results : List (StatusOr Row)}
    (hfirst : (ofReader (R.make world retryState backoffState)).readFromStream R.reader fuel =
      some (status, S₁))
    (hrows : Returns R.reader S₁ results S) :
    ∃ tr, Lives R.isIdempotent .initial tr (members (S.destroy R.reader)) ∧
      Run (Answers R) (environment (R.make world retryState backoffState)) tr
        (environment (S.destroy R.reader)) ∧
      Child.finished.afterAll (⟨.factory "", ()⟩ :: tr) = some .finished := by
  have hleaves : Leaves R (ofReader (R.make world retryState backoffState))
      (S.destroy R.reader) :=
    .of_readFromStream rfl hfirst (.of_returns hrows leaves_destroy)
  obtain ⟨tr, hlives, hanswers⟩ := hleaves
  refine ⟨tr, hlives, hanswers, ?_⟩
  exact (Child.afterAll_cons rfl).trans (hlives.afterAll rfl)

def cutRowReader : PartialResultSetResume ServerStream Resumption.Schedule Nat Nat :=
  ResumedRows.cutRowServer.resume (limitedErrorCount 3) (exponentialBackoff 60000)

theorem streams_finished_cut :
    ∃ tr last, Lives .idempotent .initial tr last ∧
      Child.finished.afterAll (⟨.factory "", ()⟩ :: tr) = some .finished := by
  have hfirst : ∃ status S, (ofReader (cutRowReader.make ⟨0, [⟨0, .of .unavailable "try-again"
      StatusCode.unavailable_ne_ok⟩]⟩ 0 100)).readFromStream cutRowReader.reader 5 =
        some (status, S) :=
    ⟨_, _, rfl⟩
  obtain ⟨status, S, hfirst⟩ := hfirst
  obtain ⟨tr, hlives, -, hafter⟩ := streams_finished hfirst .nil
  exact ⟨tr, _, hlives, hafter⟩

end SpannerClient.ResumeCalls
