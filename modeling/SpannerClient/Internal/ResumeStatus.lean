import Mathlib.Data.List.DropRight
import SpannerClient.Internal.ResumeCalls

namespace SpannerClient.ResumeCalls

open Protobuf Program

variable {isIdempotent : Idempotency} {s s' : State} {tr : List Exchange}

def current (tr : List Exchange) : List Exchange := tr.rtakeWhile fun x => !x.1.isFactory

/-- `Finish()` is called once at most on each child, and only when `Read()` has returned no value
on it or it has been cancelled. -/
def FinishesWell (tr : List Exchange) : Prop :=
  ∀ before after status, tr = before ++ ⟨.finish, status⟩ :: after →
    (∀ status', ⟨.finish, status'⟩ ∉ current before) ∧
      (⟨.read, none⟩ ∈ current before ∨ ⟨.tryCancel, ()⟩ ∈ current before)

def EndedWith (tr : List Exchange) (status : Status) : Prop :=
  ∃ child after, tr = child ++ after ∧ ⟨.read, none⟩ ∈ current child ∧
    ⟨.finish, status⟩ ∈ current child

@[simp] theorem current_factory (tr : List Exchange) (token : String) :
    current (tr ++ [⟨.factory token, ()⟩]) = [] :=
  List.rtakeWhile_concat_neg _ _ _ (by simp [Call.isFactory])

theorem current_append {tr tr' : List Exchange} (h : ∀ x ∈ tr', x.1.isFactory = false) :
    current (tr ++ tr') = current tr ++ tr' := by
  induction tr' using List.reverseRecOn with
  | nil => simp
  | append_singleton tr' x ih =>
    rw [← List.append_assoc, current, List.rtakeWhile_concat_pos _ _ _ (by simp [h x]), ← current,
      ih fun y hy => h y (List.mem_append_left _ hy), List.append_assoc]

structure Tidy (tr : List Exchange) (s : State) : Prop where
  finishes : FinishesWell tr
  fresh : s.lastStatus = none → ∀ status, ⟨.finish, status⟩ ∉ current tr
  cached : ∀ status, s.lastStatus = some status → ⟨.finish, status⟩ ∈ current tr

namespace FinishesWell

theorem nil : FinishesWell [] := by
  intro before after status htr
  cases before <;> cases htr

theorem snoc {x : Exchange} (h : FinishesWell tr) (hx : ∀ status, x = ⟨.finish, status⟩ →
    (∀ status', ⟨.finish, status'⟩ ∉ current tr) ∧
      (⟨.read, none⟩ ∈ current tr ∨ ⟨.tryCancel, ()⟩ ∈ current tr)) : FinishesWell (tr ++ [x]) := by
  intro before after status htr
  rcases List.eq_nil_or_concat after with rfl | ⟨after, last, rfl⟩
  · obtain ⟨rfl, he⟩ := List.append_inj' htr rfl
    exact hx status (List.singleton_inj.mp he)
  · rw [List.concat_eq_append, ← List.cons_append, ← List.append_assoc] at htr
    obtain ⟨rfl, -⟩ := List.append_inj' htr rfl
    exact h before after status rfl

theorem append {tr' : List Exchange} (h : FinishesWell tr) (hx : ∀ x ∈ tr', x.1 ≠ .finish) :
    FinishesWell (tr ++ tr') := by
  induction tr' using List.reverseRecOn with
  | nil => simpa using h
  | append_singleton tr' x ih =>
    rw [← List.append_assoc]
    refine snoc (ih fun y hy => hx y (List.mem_append_left _ hy)) ?_
    rintro status rfl
    exact absurd rfl (hx _ (List.mem_append_right _ (List.mem_singleton_self _)))

end FinishesWell

@[simp] theorem current_restarting (tr : List Exchange) (status : Status) (delay : Nat)
    (token : String) (exhausted : Bool) :
    current (tr ++ restarting status delay token exhausted) = [⟨.isExhausted, exhausted⟩] := by
  have h := current_factory (tr ++ [⟨.onFailure status, true⟩, ⟨.onCompletion, delay⟩,
    ⟨.sleepFor delay, ()⟩]) token
  rw [show restarting status delay token exhausted = [⟨.onFailure status, true⟩,
    ⟨.onCompletion, delay⟩, ⟨.sleepFor delay, ()⟩] ++ [⟨.factory token, ()⟩] ++
    [⟨.isExhausted, exhausted⟩] from rfl, ← List.append_assoc, ← List.append_assoc,
    current_append (by simp [Call.isFactory]), h, List.nil_append]

namespace Tidy

variable {tr' : List Exchange} {status : Status}

theorem append (h : Tidy tr s) (hfactory : ∀ x ∈ tr', x.1.isFactory = false)
    (hfinish : ∀ x ∈ tr', x.1 ≠ .finish) (hs : s'.lastStatus = s.lastStatus) :
    Tidy (tr ++ tr') s' where
  finishes := h.finishes.append hfinish
  fresh hnone status hmem := by
    rw [current_append hfactory] at hmem
    rcases List.mem_append.mp hmem with hmem | hmem
    · exact h.fresh (hs ▸ hnone) status hmem
    · exact hfinish _ hmem rfl
  cached status hsome := by
    rw [current_append hfactory]
    exact List.mem_append_left _ (h.cached status (hs ▸ hsome))

theorem finish (h : Tidy tr s)
    (hdone : ⟨.read, none⟩ ∈ current tr ∨ ⟨.tryCancel, ()⟩ ∈ current tr)
    (hrun : finish.Runs s tr' (.ok status) s') :
    Tidy (tr ++ tr') s' ∧ s'.lastStatus = some status ∧ ∀ x ∈ tr', x.1.isFactory = false := by
  rcases runs_finish hrun with ⟨_, hsome, rfl, hresult, rfl⟩ | ⟨_, hnone, rfl, hresult, rfl⟩
  · cases hresult
    exact ⟨by rwa [List.append_nil], hsome, by simp⟩
  · cases hresult
    have hfactory : ∀ x ∈ [(⟨.finish, status⟩ : Exchange)], x.1.isFactory = false := by
      simp [Call.isFactory]
    refine ⟨⟨h.finishes.snoc ?_, nofun, ?_⟩, rfl, hfactory⟩
    · intro _ _
      exact ⟨h.fresh hnone, hdone⟩
    · rintro _ ⟨⟩
      rw [current_append hfactory]
      exact List.mem_append_right _ (List.mem_singleton_self _)

theorem restart (h : Tidy tr s) (status : Status) (delay : Nat) (token : String)
    (exhausted : Bool) :
    Tidy (tr ++ restarting status delay token exhausted) { s with lastStatus := none } where
  finishes := h.finishes.append (by simp [restarting])
  fresh _ status hmem := by simp at hmem
  cached _ := nofun

theorem drain (h : Tidy tr s) (hrun : ResumeCalls.finish.Runs s tr' (.ok status) s') :
    Tidy (tr ++ ⟨.read, none⟩ :: tr') s' ∧ s'.lastStatus = some status ∧
      ⟨.read, none⟩ ∈ current (tr ++ ⟨.read, none⟩ :: tr') := by
  have hread : ∀ x ∈ [(⟨.read, none⟩ : Exchange)], x.1.isFactory = false := by
    simp [Call.isFactory]
  have hmem : ⟨.read, none⟩ ∈ current (tr ++ [⟨.read, none⟩]) := by
    rw [current_append hread]
    exact List.mem_append_right _ (List.mem_singleton_self _)
  obtain ⟨htidy, hstatus, hfactory⟩ :=
    (h.append hread (by simp) rfl).finish (.inl hmem) hrun
  rw [← List.append_cons] at htidy
  refine ⟨htidy, hstatus, ?_⟩
  rw [List.append_cons, current_append hfactory]
  exact List.mem_append_left _ hmem

theorem read {fuel : Nat} {result : Except Abort (Option PartialResultSet)} (h : Tidy tr s)
    (hrun : (read isIdempotent fuel).Runs s tr' result s') (hne : ⟨.isExhausted, true⟩ ∉ tr') :
    Tidy (tr ++ tr') s' ∧ (result = .ok none → ∃ status, s'.lastStatus = some status ∧
      ⟨.read, none⟩ ∈ current (tr ++ tr')) := by
  induction fuel generalizing tr s tr' with
  | zero =>
    rw [ResumeCalls.read, runs_throw] at hrun
    obtain ⟨rfl, rfl, rfl⟩ := hrun
    refine ⟨by rwa [List.append_nil], fun hnone => ?_⟩
    cases hnone
  | succ fuel ih =>
    cases runs_read_succ hrun with
    | value r =>
      refine ⟨h.append (by simp [Call.isFactory]) (by simp) rfl, fun hnone => ?_⟩
      cases hnone
    | @stop tr₁ quiet status _ hfinish hquiet =>
      obtain ⟨htidy, hstatus, hread⟩ := h.drain hfinish
      have hfactory : ∀ x ∈ quiet, x.1.isFactory = false := by
        intro x hx
        obtain ⟨retry, rfl⟩ := hquiet x hx
        rfl
      rw [← List.append_assoc]
      refine ⟨htidy.append hfactory ?_ rfl, fun _ => ⟨status, hstatus, ?_⟩⟩
      · intro x hx
        obtain ⟨retry, rfl⟩ := hquiet x hx
        simp
      · rw [current_append hfactory]
        exact List.mem_append_left _ hread
    | exhausted delay hfinish =>
      exact absurd (by simp [restarting]) hne
    | @retry _ _ status s₁ _ delay _ hfinish hagain =>
      have htidy := (h.drain hfinish).1.restart status delay s₁.lastResumeToken false
      rw [← List.append_assoc, ← List.append_assoc]
      exact ih htidy hagain fun hmem => hne (List.mem_append_right _ hmem)

end Tidy

theorem read_exhausted {fuel : Nat} {result : Except Abort (Option PartialResultSet)}
    (hrun : (read isIdempotent fuel).Runs s tr result s') (hmem : ⟨.isExhausted, true⟩ ∈ tr) :
    result = .ok none ∧ s'.lastStatus = none ∧
      ∃ tr₁ status delay token, tr = tr₁ ++ restarting status delay token true := by
  induction fuel generalizing s tr with
  | zero =>
    rw [read, runs_throw] at hrun
    obtain ⟨rfl, -, -⟩ := hrun
    cases hmem
  | succ fuel ih =>
    cases runs_read_succ hrun with
    | value r => simp at hmem
    | stop hfinish hquiet =>
      rcases List.mem_append.mp hmem with hmem | hmem
      · rcases runs_finish hfinish with ⟨_, -, rfl, -⟩ | ⟨_, -, rfl, -⟩ <;> simp at hmem
      · obtain ⟨retry, hretry⟩ := hquiet _ hmem
        cases hretry
    | exhausted delay hfinish => exact ⟨rfl, rfl, _, _, _, _, rfl⟩
    | retry delay hfinish hagain =>
      rcases List.mem_append.mp hmem with hmem | hmem
      · rcases runs_finish hfinish with ⟨_, -, rfl, -⟩ | ⟨_, -, rfl, -⟩ <;>
          simp [restarting] at hmem
      · obtain ⟨hresult, hstatus, tr₁, status, delay', token, rfl⟩ := ih hagain hmem
        exact ⟨hresult, hstatus, _ ++ tr₁, status, delay', token, (List.append_assoc _ _ _).symm⟩

inductive Use
  | readFromStream (result : Except Abort (PartialResultSet ⊕ Status))
  | destroy (result : Except Abort Status)

inductive UseStep (isIdempotent : Idempotency) : State → Use × List Exchange → State → Prop
  | readFromStream {s s' : State} {tr : List Exchange} {fuel : Nat}
    {result : Except Abort (PartialResultSet ⊕ Status)} :
    (readFromStream isIdempotent fuel).Runs s tr result s' →
      UseStep isIdempotent s (.readFromStream result, tr) s'
  | destroy {s s' : State} {tr : List Exchange} {result : Except Abort Status} :
    destroy.Runs s tr result s' → UseStep isIdempotent s (.destroy result, tr) s'

def State.initial : State := ⟨"", none⟩

def calls (uses : List (Use × List Exchange)) : List Exchange :=
  ⟨.factory "", ()⟩ :: uses.flatMap Prod.snd

/-- Whenever `Read()` returned no value, the `Finish()` after it returned the status of a child
that had ended. -/
def EndsWell (uses : List (Use × List Exchange)) : Prop :=
  ∀ before after status tr, uses = before ++ (.readFromStream (.ok (.inr status)), tr) :: after →
    EndedWith (calls before ++ tr) status

theorem calls_snoc (uses : List (Use × List Exchange)) (use : Use) (tr : List Exchange) :
    calls (uses ++ [(use, tr)]) = calls uses ++ tr := by
  simp [calls]

theorem runs_readFromStream {fuel : Nat} {result : Except Abort (PartialResultSet ⊕ Status)}
    (h : (readFromStream isIdempotent fuel).Runs s tr result s') :
    (∃ answer, (read isIdempotent fuel).Runs s tr answer s' ∧ answer ≠ .ok none ∧
      ∀ status, result ≠ .ok (.inr status)) ∨
    ∃ status tr₁ tr₂ s₁, tr = tr₁ ++ tr₂ ∧ (read isIdempotent fuel).Runs s tr₁ (.ok none) s₁ ∧
      finish.Runs s₁ tr₂ (.ok status) s' ∧ result = .ok (.inr status) := by
  rw [readFromStream] at h
  rcases runs_bind.mp h with ⟨answer, tr₁, tr₂, s₁, rfl, hread, hrest⟩ | ⟨x, rfl, hread⟩
  · cases answer with
    | some r =>
      obtain ⟨rfl, rfl, rfl⟩ := runs_pure.mp hrest
      rw [List.append_nil]
      exact .inl ⟨_, hread, nofun, nofun⟩
    | none =>
      obtain ⟨status, tr₂, tr₃, s₂, rfl, hfinish, hrest⟩ := runs_finish_bind hrest
      obtain ⟨rfl, rfl, rfl⟩ := runs_pure.mp hrest
      rw [List.append_nil]
      exact .inr ⟨status, tr₁, tr₂, s₁, rfl, hread, hfinish, rfl⟩
  · exact .inl ⟨_, hread, nofun, nofun⟩

theorem Tidy.use {use : Use} {tr' : List Exchange} (h : Tidy tr s)
    (hstep : UseStep isIdempotent s (use, tr') s') (hne : ⟨.isExhausted, true⟩ ∉ tr') :
    Tidy (tr ++ tr') s' ∧
      ∀ status, use = .readFromStream (.ok (.inr status)) → EndedWith (tr ++ tr') status := by
  cases hstep with
  | readFromStream hrun =>
    rcases runs_readFromStream hrun with ⟨answer, hread, -, hresult⟩ |
      ⟨status, tr₁, tr₂, s₁, rfl, hread, hfinish, rfl⟩
    · refine ⟨(h.read hread hne).1, ?_⟩
      rintro status ⟨⟩
      exact absurd rfl (hresult status)
    · obtain ⟨htidy, hended⟩ := h.read hread fun hmem => hne (List.mem_append_left _ hmem)
      obtain ⟨cached, hcached, hdone⟩ := hended rfl
      rcases runs_finish hfinish with ⟨_, hsome, rfl, hstatus, rfl⟩ | ⟨_, hnone, -⟩
      · cases hstatus
        rw [List.append_nil]
        refine ⟨htidy, ?_⟩
        rintro _ ⟨⟩
        exact ⟨tr ++ tr₁, [], (List.append_nil _).symm, hdone, htidy.cached status hsome⟩
      · rw [hcached] at hnone
        cases hnone
  | destroy hrun =>
    rw [destroy, tryCancel, runs_perform_bind] at hrun
    obtain ⟨_, tr', rfl, hfinish⟩ := hrun
    have hcancel : ∀ x ∈ [(⟨.tryCancel, ()⟩ : Exchange)], x.1.isFactory = false := by
      simp [Call.isFactory]
    have hmem : ⟨.tryCancel, ()⟩ ∈ current (tr ++ [⟨.tryCancel, ()⟩]) := by
      rw [current_append hcancel]
      exact List.mem_append_right _ (List.mem_singleton_self _)
    have htidy := h.append hcancel (by simp) rfl
    refine ⟨?_, fun _ => nofun⟩
    rw [List.append_cons]
    rcases runs_finish hfinish with ⟨_, -, -, rfl, -⟩ | ⟨_, -, -, rfl, -⟩ <;>
      exact (htidy.finish (.inr hmem) hfinish).1

theorem UseStep.not_finishesWell {use : Use} {tr' : List Exchange}
    (hstep : UseStep isIdempotent s (use, tr') s') (hmem : ⟨.isExhausted, true⟩ ∈ tr') :
    ¬ FinishesWell (tr ++ tr') := by
  intro hwell
  cases hstep with
  | readFromStream hrun =>
    rcases runs_readFromStream hrun with ⟨answer, hread, hne, -⟩ |
      ⟨status, tr₁, tr₂, s₁, rfl, hread, hfinish, -⟩
    · exact hne (read_exhausted hread hmem).1
    · have hmem : ⟨.isExhausted, true⟩ ∈ tr₁ := by
        rcases List.mem_append.mp hmem with hmem | hmem
        · exact hmem
        · rcases runs_finish hfinish with ⟨_, -, rfl, -⟩ | ⟨_, -, rfl, -⟩ <;> simp at hmem
      obtain ⟨-, hnone, tr₃, failure, delay, token, rfl⟩ := read_exhausted hread hmem
      rcases runs_finish hfinish with ⟨_, hsome, -⟩ | ⟨last, -, rfl, -⟩
      · rw [hnone] at hsome
        cases hsome
      · have hdone := (hwell (tr ++ tr₃ ++ restarting failure delay token true) [] last
          (by simp)).2
        rw [List.append_assoc, ← List.append_assoc, current_restarting] at hdone
        simp at hdone
  | destroy hrun =>
    rw [ResumeCalls.destroy, tryCancel, runs_perform_bind] at hrun
    obtain ⟨_, tr', rfl, hfinish⟩ := hrun
    rcases runs_finish hfinish with ⟨_, -, rfl, -⟩ | ⟨_, -, rfl, -⟩ <;> simp at hmem

theorem FinishesWell.of_append {tr' : List Exchange} (h : FinishesWell (tr ++ tr')) :
    FinishesWell tr := by
  rintro before after status rfl
  exact h before (after ++ tr') status (by simp)

variable {uses : List (Use × List Exchange)}

theorem Tidy.of_uses (hrun : Run (UseStep isIdempotent) .initial uses s)
    (hne : ⟨.isExhausted, true⟩ ∉ calls uses) : Tidy (calls uses) s ∧ EndsWell uses := by
  induction hrun with
  | nil =>
    refine ⟨⟨?_, fun _ _ => ?_, nofun⟩, ?_⟩
    · have hconstructor : ∀ x ∈ [(⟨.factory "", ()⟩ : Exchange)], x.1 ≠ .finish := by simp
      exact FinishesWell.nil.append hconstructor
    · rw [show calls [] = [] ++ [⟨.factory "", ()⟩] from rfl, current_factory]
      exact List.not_mem_nil
    · intro before _ _ _ huses
      cases before <;> cases huses
  | @snoc _ _ uses use hbefore hstep ih =>
    obtain ⟨use, tr'⟩ := use
    rw [calls_snoc] at hne ⊢
    obtain ⟨htidy, hends⟩ := ih fun hmem => hne (List.mem_append_left _ hmem)
    obtain ⟨htidy', hended⟩ := htidy.use hstep fun hmem => hne (List.mem_append_right _ hmem)
    refine ⟨htidy', ?_⟩
    intro before after status tr huses
    rcases List.eq_nil_or_concat after with rfl | ⟨after, last, rfl⟩
    · obtain ⟨rfl, huse⟩ := List.append_inj' huses rfl
      cases huse
      exact hended status rfl
    · rw [List.concat_eq_append, ← List.cons_append, ← List.append_assoc] at huses
      obtain ⟨rfl, -⟩ := List.append_inj' huses rfl
      exact hends before after status tr rfl

theorem not_finishesWell_of_exhausted (hrun : Run (UseStep isIdempotent) .initial uses s)
    (hmem : ⟨.isExhausted, true⟩ ∈ calls uses) : ¬ FinishesWell (calls uses) := by
  induction hrun with
  | nil => simp [calls] at hmem
  | @snoc _ _ uses use hbefore hstep ih =>
    obtain ⟨use, tr'⟩ := use
    rw [calls_snoc] at hmem ⊢
    rcases List.mem_append.mp hmem with hmem | hmem
    · exact fun hwell => ih hmem hwell.of_append
    · exact hstep.not_finishesWell hmem

/-- Every `Read()` without a value is followed by the status of a child that has ended, and every
`Finish()` is the first on a child that has ended or was cancelled, in exactly those runs in which
no restart exhausts the policy. -/
theorem status_of_ended_child (h : Run (UseStep isIdempotent) .initial uses s) :
    (EndsWell uses ∧ FinishesWell (calls uses)) ↔ ⟨.isExhausted, true⟩ ∉ calls uses := by
  constructor
  · rintro ⟨-, hwell⟩ hmem
    exact not_finishesWell_of_exhausted h hmem hwell
  · intro hne
    obtain ⟨htidy, hends⟩ := Tidy.of_uses h hne
    exact ⟨hends, htidy.finishes⟩

def exhaustedUses : List (Use × List Exchange) :=
  [(.readFromStream (.ok (.inr .success)),
    [⟨.read, none⟩, ⟨.finish, ⟨.unavailable, ""⟩⟩, ⟨.onFailure ⟨.unavailable, ""⟩, true⟩,
      ⟨.onCompletion, 0⟩, ⟨.sleepFor 0, ()⟩, ⟨.factory "", ()⟩, ⟨.isExhausted, true⟩,
      ⟨.finish, .success⟩])]

theorem exhausted_run : ∃ s, Run (UseStep .idempotent) .initial exhaustedUses s := by
  refine ⟨_, .single (@UseStep.readFromStream _ _ ⟨"", some .success⟩ _ 1 _ ?_)⟩
  refine .call (.call (.call (.call (.call (.call (.call (.call ?_)))))))
  exact .ret

theorem exhausted_status : ∃ s, Run (UseStep .idempotent) .initial exhaustedUses s ∧
    ¬ EndsWell exhaustedUses ∧ ¬ FinishesWell (calls exhaustedUses) := by
  obtain ⟨s, hrun⟩ := exhausted_run
  refine ⟨s, hrun, ?_, not_finishesWell_of_exhausted hrun (by simp [calls, exhaustedUses])⟩
  intro hends
  obtain ⟨child, after, hchild, hread, hfinish⟩ := hends [] [] _ _ rfl
  rcases List.eq_nil_or_concat after with rfl | ⟨after, last, rfl⟩
  · rw [List.append_nil] at hchild
    subst hchild
    simp [calls, current, List.rtakeWhile, Call.isFactory] at hread
  · rw [List.concat_eq_append, ← List.append_assoc] at hchild
    have hbefore := congrArg List.dropLast hchild
    rw [List.dropLast_concat] at hbefore
    have hmem : ⟨.finish, .success⟩ ∈ child ++ after :=
      List.mem_append_left _ ((List.rtakeWhile_suffix _ _).subset hfinish)
    rw [← hbefore] at hmem
    simp [calls, Status.success] at hmem

def restartedUses : List (Use × List Exchange) :=
  [(.readFromStream (.ok (.inr .success)),
    [⟨.read, none⟩, ⟨.finish, ⟨.unavailable, ""⟩⟩, ⟨.onFailure ⟨.unavailable, ""⟩, true⟩,
      ⟨.onCompletion, 0⟩, ⟨.sleepFor 0, ()⟩, ⟨.factory "", ()⟩, ⟨.isExhausted, false⟩,
      ⟨.read, none⟩, ⟨.finish, .success⟩])]

theorem status_of_ended_child_restarted :
    (∃ s, Run (UseStep .idempotent) .initial restartedUses s) ∧ EndsWell restartedUses ∧
      FinishesWell (calls restartedUses) := by
  have hrun : ∃ s, Run (UseStep .idempotent) .initial restartedUses s := by
    refine ⟨_, .single (@UseStep.readFromStream _ _ ⟨"", some .success⟩ _ 2 _ ?_)⟩
    refine .call (.call (.call (.call (.call (.call (.call (.call (.call ?_))))))))
    exact .ret
  obtain ⟨s, hrun⟩ := hrun
  exact ⟨⟨s, hrun⟩, (status_of_ended_child hrun).mpr (by simp [calls, restartedUses])⟩

end SpannerClient.ResumeCalls
