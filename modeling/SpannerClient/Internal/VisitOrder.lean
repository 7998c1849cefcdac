import SpannerClient.Internal.BeginOnce

namespace SpannerClient.TransactionImpl

open Protobuf

variable {ι ς : Type}

namespace Visitor

/-- The number that a visitor has drawn and has not called its functor with.  A visitor that has
left the lock calls its functor some time later. -/
def awaiting (called : Bool) : Visitor → Option Nat
  | .asleep seqno | .woken seqno => some seqno
  | .running _ seqno => if called then none else some seqno
  | .outside | .leaving _ | .notifying _ | .finished => none

def calling (called : Bool) : Visitor → Option Nat
  | .running _ seqno => if called then some seqno else none
  | .outside | .asleep _ | .woken _ | .leaving _ | .notifying _ | .finished => none

def hasReturned : Visitor → Bool
  | .leaving _ | .notifying _ | .finished => true
  | .outside | .asleep _ | .woken _ | .running _ _ => false

def hasEntered : Visitor → Bool
  | .running _ _ | .leaving _ | .notifying _ | .finished => true
  | .outside | .asleep _ | .woken _ => false

inductive Moves (returns : Prop) (seqno seqno' : Nat) : Visitor → Visitor → Prop
  | stay {v : Visitor} : Moves returns seqno seqno' v v
  | wake {n : Nat} : Moves returns seqno seqno' (.asleep n) (.woken n)
  | wait : seqno' = seqno + 1 → Moves returns seqno seqno' .outside (.asleep (seqno + 1))
  | waitAgain {n : Nat} : Moves returns seqno seqno' (.woken n) (.asleep n)
  | start {pending : Bool} : seqno' = seqno + 1 →
    Moves returns seqno seqno' .outside (.running pending (seqno + 1))
  | resume {pending : Bool} {n : Nat} :
    Moves returns seqno seqno' (.woken n) (.running pending n)
  | finish {pending : Bool} {n : Nat} {v : Visitor} : returns → v.hasReturned = true →
    Moves returns seqno seqno' (.running pending n) v
  | leave {v v' : Visitor} : v.hasReturned = true → v'.hasReturned = true →
    Moves returns seqno seqno' v v'

variable {v v' : Visitor} {m : Nat} {called : Bool}

theorem moves_wake {returns : Prop} {seqno seqno' : Nat} (h : v.isAsleep = true) :
    Moves returns seqno seqno' v v.wake := by
  cases v with
  | asleep n => exact .wake
  | outside | woken | running | leaving | notifying | finished => cases h

theorem hasEntered_of_hasReturned (h : v.hasReturned = true) : v.hasEntered = true := by
  cases v <;> simp_all [hasReturned, hasEntered]

theorem awaiting_of_hasReturned (h : v.hasReturned = true) : v.awaiting called = none := by
  cases v <;> simp_all [hasReturned, awaiting]

theorem calling_of_hasReturned (h : v.hasReturned = true) : v.calling called = none := by
  cases v <;> simp_all [hasReturned, calling]

theorem called_of_calling (h : v.calling called = some m) : called = true := by
  cases called with
  | true => rfl
  | false => cases v <;> cases h

namespace Moves

variable {returns : Prop} {seqno seqno' : Nat}

theorem update {ι : Type} [DecidableEq ι] {visitor visitor' : ι → Visitor} {w : ι} {k : Visitor}
    {u : ι} (h : u = w → Moves returns seqno seqno' (visitor w) k)
    (hother : Moves returns seqno seqno' (visitor u) (visitor' u)) :
    Moves returns seqno seqno' (visitor u) (Function.update visitor' w k u) := by
  by_cases huw : u = w
  · subst huw
    rw [Function.update_self]
    exact h rfl
  · rwa [Function.update_of_ne huw]

theorem drawn (h : Moves returns seqno seqno' v v') (hm : v'.awaiting called = some m) :
    v.awaiting called = some m ∨ m = seqno + 1 ∧ seqno' = seqno + 1 := by
  cases h with
  | stay | wake | waitAgain => exact .inl hm
  | wait hseqno =>
    cases hm
    exact .inr ⟨rfl, hseqno⟩
  | start hseqno =>
    cases called with
    | true => cases hm
    | false =>
      cases hm
      exact .inr ⟨rfl, hseqno⟩
  | resume =>
    cases called with
    | true => cases hm
    | false => exact .inl hm
  | finish _ hreturned | leave _ hreturned =>
    rw [awaiting_of_hasReturned hreturned] at hm
    cases hm

theorem hasReturned (h : Moves returns seqno seqno' v v') (hv : v.hasReturned = true) :
    v'.hasReturned = true := by
  cases h with
  | stay => exact hv
  | leave _ hreturned => exact hreturned
  | wake | wait | waitAgain | start | resume | finish => cases hv

theorem hasEntered (h : Moves returns seqno seqno' v v') (hv : v.hasEntered = true) :
    v'.hasEntered = true := by
  cases h with
  | stay => exact hv
  | finish _ hreturned | leave _ hreturned => exact hasEntered_of_hasReturned hreturned
  | wake | wait | waitAgain | start | resume => cases hv

theorem calls (h : Moves returns seqno seqno' v v') (hm : v.calling called = some m) :
    v'.calling called = some m ∨ v'.hasReturned = true := by
  cases h with
  | stay => exact .inl hm
  | finish _ hreturned | leave _ hreturned => exact .inr hreturned
  | wake | wait | waitAgain | start | resume => cases hm

variable (hentered : called = true → v.hasEntered = true)

include hentered

theorem awaits (h : Moves returns seqno seqno' v v') (hreturns : returns → called = true)
    (hm : v.awaiting called = some m) : v'.awaiting called = some m := by
  cases h with
  | stay | wake | waitAgain => exact hm
  | wait | start => cases hm
  | resume =>
    cases called with
    | true => cases hentered rfl
    | false => exact hm
  | finish hreturn =>
    rw [hreturns hreturn] at hm
    cases hm
  | leave hreturned =>
    rw [awaiting_of_hasReturned hreturned] at hm
    cases hm

theorem calling_before (h : Moves returns seqno seqno' v v') (hm : v'.calling called = some m) :
    v.calling called = some m := by
  cases h with
  | stay => exact hm
  | start | resume =>
    cases called with
    | true => cases hentered rfl
    | false => cases hm
  | finish _ hreturned | leave _ hreturned =>
    rw [calling_of_hasReturned hreturned] at hm
    cases hm
  | wake | wait | waitAgain => cases hm

end Moves

end Visitor

structure Calls (ι ς : Type) where
  config : Config ι ς
  called : ι → Bool

namespace Calls

def initial (session : Option ς) (selector : TransactionSelector) : Calls ι ς :=
  ⟨Config.initial session selector, fun _ => false⟩

def awaiting (c : Calls ι ς) (v : ι) : Option Nat := (c.config.visitor v).awaiting (c.called v)

def calling (c : Calls ι ς) (v : ι) : Option Nat := (c.config.visitor v).calling (c.called v)

end Calls

def Event.functor : Event ι ς → Option ι
  | .assignSession v _ | .setId v _ | .finish v _ => some v
  | .wait _ | .start _ _ _ | .leave _ | .notify _ | .wake _ => none

inductive CallEvent (ι ς : Type)
  | visit (e : Event ι ς)
  | call (v : ι) (seqno : Nat)

def Ordered (tr : List (CallEvent ι ς)) : Prop :=
  ∀ before after v n, tr = before ++ .call v n :: after → ∀ u m threw,
    .call u m ∈ before → .visit (.finish u threw) ∈ before → m < n

/-- No visitor that has yet to call its functor has a smaller number than one whose functor
finishes. -/
def InTurn (c : Calls ι ς) (e : CallEvent ι ς) : Prop :=
  ∀ v threw, e = .visit (.finish v threw) → ∀ n, c.calling v = some n →
    ∀ w m, c.awaiting w = some m → n < m

structure Numbered (tr : List (CallEvent ι ς)) (c : Calls ι ς) : Prop where
  entered : ∀ v, c.called v = true → (c.config.visitor v).hasEntered = true
  awaiting : ∀ v n, c.awaiting v = some n → n ≤ c.config.impl.seqno
  called : ∀ v n, .call v n ∈ tr → n ≤ c.config.impl.seqno ∧
    (c.calling v = some n ∨ (c.config.visitor v).hasReturned = true)
  calling : ∀ v n, c.calling v = some n → .call v n ∈ tr
  finished : ∀ v threw, .visit (.finish v threw) ∈ tr → (c.config.visitor v).hasReturned = true

theorem Numbered.initial (session : Option ς) (selector : TransactionSelector) :
    Numbered [] (Calls.initial session selector : Calls ι ς) where
  entered _ hv := by cases hv
  awaiting _ _ hv := by cases hv
  called _ _ hv := by cases hv
  calling _ _ hv := by cases hv
  finished _ _ hv := by cases hv

/-- Nobody has yet to call a functor with a smaller number than that of a functor that has
finished. -/
def NotOvertaken (tr : List (CallEvent ι ς)) (c : Calls ι ς) : Prop :=
  ∀ u m threw, .call u m ∈ tr → .visit (.finish u threw) ∈ tr →
    ∀ w n, c.awaiting w = some n → m < n

variable [DecidableEq ι] {spurious : Prop}

section Step

variable {c c' : Config ι ς} {e : Event ι ς}

theorem Step.seqno_le (h : Step spurious c e c') : c.impl.seqno ≤ c'.impl.seqno := by
  have harrives : ∀ {v seqno} {impl : TransactionImpl ς}, c.Arrives v seqno impl →
      c.impl.seqno ≤ impl.seqno := by
    intro v seqno impl harr
    cases harr with
    | call => exact Nat.le_succ _
    | resume => exact Nat.le_refl _
  cases h with
  | wait harr _ => exact harrives harr
  | start harr hadm =>
    have hle := harrives harr
    cases hadm with
    | done | begin => exact hle
  | @leave _ threw _ _ himpl =>
    subst himpl
    cases threw <;> exact Nat.le_refl _
  | assignSession | setId | finish | notifyAll | notifyOne | wake => exact Nat.le_refl _

theorem Step.moves (h : Step spurious c e c') (w : ι) :
    Visitor.Moves (∃ threw, e = .finish w threw) c.impl.seqno c'.impl.seqno (c.visitor w)
      (c'.visitor w) := by
  cases h with
  | wait harr _ =>
    refine .update (fun _ => ?_) .stay
    cases harr with
    | call hv =>
      rw [hv]
      exact .wait rfl
    | resume hv =>
      rw [hv]
      exact .waitAgain
  | start harr hadm =>
    refine .update (fun _ => ?_) .stay
    cases harr with
    | call hv =>
      rw [hv]
      cases hadm with
      | done | begin => exact .start rfl
    | resume hv =>
      rw [hv]
      exact .resume
  | assignSession | setId => exact .stay
  | @finish _ pending threw _ hv =>
    refine .update (fun hw => ?_) .stay
    rw [hv]
    refine .finish ⟨threw, by rw [hw]⟩ ?_
    cases pending <;> rfl
  | leave hv _ =>
    refine .update (fun _ => ?_) .stay
    rw [hv]
    exact .leave rfl rfl
  | notifyAll hv =>
    refine .update (fun _ => ?_) ?_
    · rw [hv]
      exact .leave rfl rfl
    · rw [Condition.notifyAll]
      split
      · next hasleep => exact Visitor.moves_wake hasleep
      · exact .stay
  | notifyOne hv hnotify =>
    refine .update (fun _ => ?_) ?_
    · rw [hv]
      exact .leave rfl rfl
    · cases hnotify with
      | lost _ => exact .stay
      | wakes u hu => exact .update (fun _ => Visitor.moves_wake hu) .stay
  | wake _ hv => exact .update (fun _ => Visitor.moves_wake hv) .stay

end Step

/-- A functor is called outside the lock, with the number that the visitor has drawn under it. -/
inductive CallStep (spurious : Prop) : Calls ι ς → CallEvent ι ς → Calls ι ς → Prop
  | visit {c : Calls ι ς} {e : Event ι ς} {config : Config ι ς} :
    Step spurious c.config e config → (∀ v, e.functor = some v → c.called v = true) →
      CallStep spurious c (.visit e) { c with config := config }
  | call {c : Calls ι ς} {v : ι} {pending : Bool} {seqno : Nat} :
    c.config.visitor v = .running pending seqno → c.called v = false →
      CallStep spurious c (.call v seqno) { c with called := Function.update c.called v true }

def StepInTurn (spurious : Prop) (c : Calls ι ς) (e : CallEvent ι ς) (c' : Calls ι ς) : Prop :=
  CallStep spurious c e c' ∧ InTurn c e

namespace CallStep

variable {c c' : Calls ι ς} {e : CallEvent ι ς} {v : ι} {m : Nat}

theorem awaits (h : CallStep spurious c e c')
    (hentered : c.called v = true → (c.config.visitor v).hasEntered = true)
    (hm : c.awaiting v = some m) : c'.awaiting v = some m ∨ e = .call v m := by
  cases h with
  | visit hstep hfunctor =>
    left
    refine (hstep.moves v).awaits hentered ?_ hm
    rintro ⟨threw, rfl⟩
    exact hfunctor v rfl
  | @call w _ seqno hw hcalled =>
    by_cases hvw : v = w
    · subst hvw
      rw [Calls.awaiting, hw, hcalled] at hm
      cases hm
      exact .inr rfl
    · left
      simpa [Calls.awaiting, hvw] using hm

theorem drawn (h : CallStep spurious c e c') (hm : c'.awaiting v = some m) :
    c.awaiting v = some m ∨ m = c.config.impl.seqno + 1 ∧ c'.config.impl.seqno = m := by
  cases h with
  | visit hstep _ =>
    rcases (hstep.moves v).drawn hm with hm | ⟨rfl, hseqno⟩
    · exact .inl hm
    · exact .inr ⟨rfl, hseqno⟩
  | @call w _ seqno hw _ =>
    left
    by_cases hvw : v = w
    · subst hvw
      simp [Calls.awaiting, hw, Visitor.awaiting] at hm
    · simpa [Calls.awaiting, hvw] using hm

theorem seqno_le (h : CallStep spurious c e c') : c.config.impl.seqno ≤ c'.config.impl.seqno := by
  cases h with
  | visit hstep _ => exact hstep.seqno_le
  | call => exact Nat.le_refl _

theorem hasReturned (h : CallStep spurious c e c')
    (hv : (c.config.visitor v).hasReturned = true) : (c'.config.visitor v).hasReturned = true := by
  cases h with
  | visit hstep _ => exact (hstep.moves v).hasReturned hv
  | call => exact hv

theorem calls (h : CallStep spurious c e c') (hm : c.calling v = some m) :
    c'.calling v = some m ∨ (c'.config.visitor v).hasReturned = true := by
  cases h with
  | visit hstep _ => exact (hstep.moves v).calls hm
  | @call w _ _ _ hcalled =>
    by_cases hvw : v = w
    · subst hvw
      left
      have htrue := Visitor.called_of_calling hm
      rw [hcalled] at htrue
      cases htrue
    · left
      simpa [Calls.calling, hvw] using hm

theorem calling_before (h : CallStep spurious c e c')
    (hentered : c.called v = true → (c.config.visitor v).hasEntered = true)
    (hm : c'.calling v = some m) : c.calling v = some m ∨ e = .call v m := by
  cases h with
  | visit hstep _ => exact .inl ((hstep.moves v).calling_before hentered hm)
  | @call w _ seqno hw _ =>
    by_cases hvw : v = w
    · subst hvw
      simp only [Calls.calling, hw, Visitor.calling, Function.update_self] at hm
      cases hm
      exact .inr rfl
    · left
      simpa [Calls.calling, hvw] using hm

theorem call_inv (h : CallStep spurious c (.call v m) c') :
    c.awaiting v = some m ∧ c'.calling v = some m ∧
      (c.config.visitor v).hasReturned = false := by
  cases h with
  | call hv hcalled =>
    refine ⟨?_, ?_, ?_⟩
    · rw [Calls.awaiting, hv, hcalled]
      rfl
    · simp [Calls.calling, hv, Visitor.calling]
    · rw [hv]
      rfl

theorem finish_inv {threw : Bool} (h : CallStep spurious c (.visit (.finish v threw)) c') :
    (∃ n, c.calling v = some n) ∧ (c'.config.visitor v).hasReturned = true := by
  cases h with
  | visit hstep hfunctor =>
    cases hstep with
    | @finish _ pending _ seqno hv =>
      refine ⟨⟨seqno, ?_⟩, ?_⟩
      · rw [Calls.calling, hv, hfunctor v rfl]
        rfl
      · cases pending <;> simp [Visitor.hasReturned]

end CallStep

namespace Numbered

variable {tr : List (CallEvent ι ς)} {c c' : Calls ι ς} {e : CallEvent ι ς}

theorem step (h : Numbered tr c) (hstep : CallStep spurious c e c') :
    Numbered (tr ++ [e]) c' where
  entered v hv := by
    cases hstep with
    | visit hvisit _ => exact (hvisit.moves v).hasEntered (h.entered v hv)
    | @call w _ _ hw _ =>
      by_cases hvw : v = w
      · rw [hvw, hw]
        rfl
      · exact h.entered v (by simpa [hvw] using hv)
  awaiting v n hv := by
    rcases hstep.drawn hv with hv | ⟨-, hseqno⟩
    · exact Nat.le_trans (h.awaiting v n hv) hstep.seqno_le
    · exact Nat.le_of_eq hseqno.symm
  called v n hv := by
    rcases List.mem_append.mp hv with hv | hv
    · obtain ⟨hle, hcalling | hreturned⟩ := h.called v n hv
      · exact ⟨Nat.le_trans hle hstep.seqno_le, hstep.calls hcalling⟩
      · exact ⟨Nat.le_trans hle hstep.seqno_le, .inr (hstep.hasReturned hreturned)⟩
    · rw [List.mem_singleton] at hv
      subst hv
      obtain ⟨hawaiting, hcalling, -⟩ := hstep.call_inv
      exact ⟨Nat.le_trans (h.awaiting v n hawaiting) hstep.seqno_le, .inl hcalling⟩
  calling v n hv := by
    rcases hstep.calling_before (h.entered v) hv with hv | rfl
    · exact List.mem_append_left _ (h.calling v n hv)
    · exact List.mem_append_right _ (List.mem_singleton_self _)
  finished v threw hv := by
    rcases List.mem_append.mp hv with hv | hv
    · exact hstep.hasReturned (h.finished v threw hv)
    · rw [List.mem_singleton] at hv
      subst hv
      exact hstep.finish_inv.2

theorem run (h : Numbered [] c) (hrun : Run (CallStep spurious) c tr c') : Numbered tr c' :=
  hrun.history h fun _ _ _ _ => step

end Numbered

section Run

variable {tr tr' : List (CallEvent ι ς)} {c c' : Calls ι ς} {e : CallEvent ι ς}

theorem StepInTurn.notOvertaken (h : NotOvertaken tr c) (hnumbered : Numbered tr c)
    (hstep : StepInTurn spurious c e c') : NotOvertaken (tr ++ [e]) c' := by
  obtain ⟨hcall, hturn⟩ := hstep
  intro u m threw hu hfinish w n hw
  rcases List.mem_append.mp hfinish with hfinished | hfinish
  · have hu : .call u m ∈ tr := by
      rcases List.mem_append.mp hu with hu | hu
      · exact hu
      · rw [List.mem_singleton] at hu
        subst hu
        have hreturned := hnumbered.finished u threw hfinished
        rw [hcall.call_inv.2.2] at hreturned
        cases hreturned
    rcases hcall.drawn hw with hw | ⟨rfl, -⟩
    · exact h u m threw hu hfinished w n hw
    · exact Nat.lt_succ_of_le (hnumbered.called u m hu).1
  · rw [List.mem_singleton] at hfinish
    subst hfinish
    obtain ⟨⟨k, hk⟩, -⟩ := hcall.finish_inv
    have hu : .call u m ∈ tr := by
      rcases List.mem_append.mp hu with hu | hu
      · exact hu
      · cases List.mem_singleton.mp hu
    have hkm : k = m := by
      rcases (hnumbered.called u m hu).2 with hm | hreturned
      · exact Option.some.inj (hk.symm.trans hm)
      · rw [Calls.calling, Visitor.calling_of_hasReturned hreturned] at hk
        cases hk
    subst hkm
    rcases hcall.drawn hw with hw | ⟨rfl, -⟩
    · exact hturn u threw rfl k hk w n hw
    · exact Nat.lt_succ_of_le (hnumbered.called u k hu).1

theorem Ordered.snoc (h : Ordered tr) (hnumbered : Numbered tr c) (hturn : NotOvertaken tr c)
    (hstep : CallStep spurious c e c') : Ordered (tr ++ [e]) := by
  intro before after v n htr u m threw hu hfinish
  rcases List.eq_nil_or_concat after with rfl | ⟨after, last, rfl⟩
  · obtain ⟨rfl, he⟩ := List.append_inj' htr rfl
    cases he
    exact hturn u m threw hu hfinish v n hstep.call_inv.1
  · rw [List.concat_eq_append, ← List.cons_append, ← List.append_assoc] at htr
    obtain ⟨rfl, -⟩ := List.append_inj' htr rfl
    exact h before after v n rfl u m threw hu hfinish

theorem ordered_of_inTurn (hrun : Run (StepInTurn spurious) c tr c') (hc : Numbered [] c) :
    Ordered tr := by
  have h : Numbered tr c' ∧ NotOvertaken tr c' ∧ Ordered tr := by
    apply hrun.history (P := fun tr c => Numbered tr c ∧ NotOvertaken tr c ∧ Ordered tr)
    · refine ⟨hc, ?_, ?_⟩
      · intro u m threw hu
        cases hu
      · intro before after v n htr
        cases before <;> cases htr
    · rintro tr c e c' ⟨hnumbered, hturn, hordered⟩ hstep
      exact ⟨hnumbered.step hstep.1, hstep.notOvertaken hturn hnumbered,
        hordered.snoc hnumbered hturn hstep.1⟩
  exact h.2.2

theorem Run.awaits {v : ι} {n : Nat} (hrun : Run (CallStep spurious) c tr' c')
    (hc : Numbered tr c) (hv : c.awaiting v = some n) :
    c'.awaiting v = some n ∨ .call v n ∈ tr' := by
  have h : Numbered (tr ++ tr') c' ∧ (c'.awaiting v = some n ∨ .call v n ∈ tr') := by
    apply hrun.history (P := fun tr' c' => Numbered (tr ++ tr') c' ∧
      (c'.awaiting v = some n ∨ .call v n ∈ tr'))
    · exact ⟨by rwa [List.append_nil], .inl hv⟩
    · rintro tr' c e c' ⟨hnumbered, hwaits⟩ hstep
      refine ⟨by rw [← List.append_assoc]; exact hnumbered.step hstep, ?_⟩
      rcases hwaits with hwaits | hcalled
      · rcases hstep.awaits (hnumbered.entered v) hwaits with hwaits | rfl
        · exact .inl hwaits
        · exact .inr (List.mem_append_right _ (List.mem_singleton_self _))
      · exact .inr (List.mem_append_left _ hcalled)
  exact h.2

theorem inTurn_of_ordered {c₀ : Calls ι ς} (hrun : Run (CallStep spurious) c₀ tr c)
    (hc : Numbered [] c₀) (hrest : Run (CallStep spurious) c tr' c')
    (hend : ∀ v, c'.awaiting v = none) (hordered : Ordered (tr ++ tr')) :
    Run (StepInTurn spurious) c₀ tr c := by
  induction hrun generalizing tr' with
  | nil => exact .nil
  | @snoc c₁ _ tr₁ e hbefore hstep ih =>
    rw [List.append_assoc] at hordered
    refine .snoc (ih (.cons hstep hrest) hordered) ⟨hstep, ?_⟩
    have hnumbered : Numbered tr₁ c₁ := hc.run hbefore
    rintro v threw rfl n hn w m hm
    have hcalled : .call w m ∈ tr' := by
      have hrun' : Run (CallStep spurious) c₁ (.visit (.finish v threw) :: tr') c' :=
        .cons hstep hrest
      rcases Run.awaits hrun' hnumbered hm with hawaits | hcalled
      · rw [hend w] at hawaits
        cases hawaits
      · simpa using hcalled
    obtain ⟨before, after, rfl⟩ := List.append_of_mem hcalled
    refine hordered (tr₁ ++ .visit (.finish v threw) :: before) after w m ?_ v n threw ?_ ?_
    · simp
    · simp [hnumbered.calling v n hn]
    · simp

end Run

/-- The numbers that functors are given never go backwards in a run in which no functor finishes
before one with a smaller number has been called, and in no other run that uses all numbers. -/
theorem seqno_ordered {session : Option ς} {selector : TransactionSelector}
    {tr : List (CallEvent ι ς)} {c : Calls ι ς}
    (h : Run (CallStep spurious) (Calls.initial session selector) tr c) :
    (Run (StepInTurn spurious) (Calls.initial session selector) tr c → Ordered tr) ∧
    ((∀ v, c.awaiting v = none) → Ordered tr →
      Run (StepInTurn spurious) (Calls.initial session selector) tr c) := by
  constructor
  · intro hturn
    exact ordered_of_inTurn hturn (.initial session selector)
  · intro hend hordered
    exact inTurn_of_ordered h (.initial session selector) .nil hend
      (by rwa [List.append_nil])

def overtakingTrace : List (CallEvent (Fin 3) Unit) :=
  [.visit (.start 0 1 (.begin .readWrite)), .visit (.wait 1), .call 0 1, .visit (.setId 0 "txn"),
    .visit (.finish 0 false), .visit (.leave 0), .visit (.start 2 3 (.id "txn")), .call 2 3,
    .visit (.finish 2 false), .visit (.notify 0), .visit (.start 1 2 (.id "txn")), .call 1 2]

theorem overtaking_run : ∃ c : Calls (Fin 3) Unit,
    Run (CallStep False) (Calls.initial none (.begin .readWrite)) overtakingTrace c := by
  have hfunctor : ∀ {v : Fin 3} {called : Fin 3 → Bool}, called v = true →
      ∀ w, some v = some w → called w = true := by
    rintro v called hcalled w ⟨⟩
    exact hcalled
  refine ⟨_, .cons (.visit (.start (.call rfl) (.begin rfl)) nofun) (.cons (.visit (.wait
    (.call rfl) rfl) nofun) (.cons (.call rfl rfl) (.cons (.visit (.setId rfl rfl) (hfunctor rfl))
    (.cons (.visit (.finish rfl) (hfunctor rfl)) (.cons (.visit (.leave rfl rfl) nofun)
    (.cons (.visit (.start (.call rfl) (.done rfl)) nofun) (.cons (.call rfl rfl)
    (.cons (.visit (.finish rfl) (hfunctor rfl)) (.cons (.visit (.notifyAll rfl) nofun)
    (.cons (.visit (.start (.resume rfl) (.done rfl)) nofun) (.single (.call rfl rfl))))))))))))⟩

theorem seqno_overtaken : ∃ c : Calls (Fin 3) Unit,
    Run (CallStep False) (Calls.initial none (.begin .readWrite)) overtakingTrace c ∧
      ¬ Ordered overtakingTrace := by
  obtain ⟨c, hrun⟩ := overtaking_run
  refine ⟨c, hrun, fun hordered => ?_⟩
  have hlt := hordered (overtakingTrace.dropLast) [] 1 2 rfl 2 3 false
    (by simp [overtakingTrace]) (by simp [overtakingTrace])
  simp at hlt

def inTurnTrace : List (CallEvent (Fin 2) Unit) :=
  [.visit (.start 0 1 (.begin .readWrite)), .visit (.wait 1), .call 0 1, .visit (.setId 0 "txn"),
    .visit (.finish 0 false), .visit (.leave 0), .visit (.notify 0),
    .visit (.start 1 2 (.id "txn")), .call 1 2, .visit (.finish 1 false)]

theorem seqno_ordered_inTurn : ∃ c : Calls (Fin 2) Unit,
    Run (StepInTurn False) (Calls.initial none (.begin .readWrite)) inTurnTrace c ∧
      Ordered inTurnTrace ∧ (∀ v, c.awaiting v = none) ∧
      ((∀ v, c.awaiting v = none) → Ordered inTurnTrace →
        Run (StepInTurn False) (Calls.initial none (.begin .readWrite)) inTurnTrace c) := by
  have hfunctor : ∀ {v : Fin 2} {called : Fin 2 → Bool}, called v = true →
      ∀ w, some v = some w → called w = true := by
    rintro v called hcalled w ⟨⟩
    exact hcalled
  have hother {c : Calls (Fin 2) Unit} {e : CallEvent (Fin 2) Unit}
      (h : ∀ v threw, e ≠ .visit (.finish v threw)) : InTurn c e :=
    fun v threw he => absurd he (h v threw)
  have hrun : ∃ c : Calls (Fin 2) Unit, (∀ v, c.awaiting v = none) ∧
      Run (StepInTurn False) (Calls.initial none (.begin .readWrite)) inTurnTrace c := by
    refine ⟨_, ?_, .cons ⟨.visit (.start (.call rfl) (.begin rfl)) nofun, hother nofun⟩
      (.cons ⟨.visit (.wait (.call rfl) rfl) nofun, hother nofun⟩
      (.cons ⟨.call rfl rfl, hother nofun⟩
      (.cons ⟨.visit (.setId rfl rfl) (hfunctor rfl), hother nofun⟩
      (.cons ⟨.visit (.finish rfl) (hfunctor rfl), ?_⟩
      (.cons ⟨.visit (.leave rfl rfl) nofun, hother nofun⟩
      (.cons ⟨.visit (.notifyAll rfl) nofun, hother nofun⟩
      (.cons ⟨.visit (.start (.resume rfl) (.done rfl)) nofun, hother nofun⟩
      (.cons ⟨.call rfl rfl, hother nofun⟩
      (.single ⟨.visit (.finish rfl) (hfunctor rfl), ?_⟩)))))))))⟩
    · intro v
      match v with
      | 0 | 1 => rfl
    · rintro v threw ⟨⟩ n hn w m hm
      match w with
      | 0 => cases hm
      | 1 =>
        cases hn
        cases hm
        decide
    · rintro v threw ⟨⟩ n hn w m hm
      match w with
      | 0 | 1 => cases hm
  obtain ⟨c, hawaiting, hturn⟩ := hrun
  obtain ⟨hordered, hconverse⟩ := seqno_ordered (hturn.mono fun _ _ _ h => h.1)
  exact ⟨c, hturn, hordered hturn, hawaiting, hconverse⟩

end SpannerClient.TransactionImpl
