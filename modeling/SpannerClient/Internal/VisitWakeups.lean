import SpannerClient.Internal.BeginOnce

namespace SpannerClient.TransactionImpl

open Protobuf

variable {ι ς : Type}

namespace Visitor

def heeds : Visitor → Bool
  | .woken _ | .notifying _ => true
  | .outside | .asleep _ | .running _ _ | .leaving _ | .finished => false

def isActive : Visitor → Bool
  | .woken _ | .running _ _ | .leaving _ | .notifying _ => true
  | .outside | .asleep _ | .finished => false

theorem isActive_of_heeds {v : Visitor} (h : v.heeds = true) : v.isActive = true := by
  cases v <;> simp_all [heeds, isActive]

theorem isActive_of_isPending {v : Visitor} (h : v.isPending = true) : v.isActive = true := by
  cases v <;> simp_all [isPending, isActive]

@[simp] theorem isAsleep_wake (v : Visitor) : v.wake.isAsleep = false := by
  cases v <;> rfl

theorem heeds_wake {v : Visitor} (h : v.isAsleep = true) : v.wake.heeds = true := by
  cases v <;> simp_all [isAsleep, wake, heeds]

end Visitor

namespace Event

def visitor : Event ι ς → ι
  | .wait v | .start v _ _ | .assignSession v _ | .setId v _ | .finish v _ | .leave v
  | .notify v | .wake v => v

end Event

def Config.Strands [DecidableEq ι] (spurious : Prop) (c : Config ι ς) : Prop :=
  (∃ v, (c.visitor v).isAsleep = true) ∧
    ∀ e c', Step spurious c e c' → c.visitor e.visitor = .outside

structure Watched (state : State) (visitor : ι → Visitor) : Prop where
  pending : state = .pending → ∃ v, (visitor v).isPending = true
  begin : state = .begin → ∀ v, (visitor v).isAsleep = true → ∃ w, (visitor w).heeds = true
  done : state = .done → ∀ v, (visitor v).isAsleep = true → ∃ w, visitor w = .notifying true

namespace Watched

variable {state : State} {visitor visitor' : ι → Visitor} {v : ι}

theorem initial (selector : TransactionSelector) :
    Watched (stateOf selector) fun _ : ι => .outside where
  pending h := by
    rw [stateOf] at h
    split at h <;> cases h
  begin _ _ h := by cases h
  done _ _ h := by cases h

theorem of_nobody_asleep (hpending : state = .pending → ∃ v, (visitor v).isPending = true)
    (hasleep : ∀ v, (visitor v).isAsleep = false) : Watched state visitor where
  pending := hpending
  begin _ v hv := by simp [hasleep v] at hv
  done _ v hv := by simp [hasleep v] at hv

theorem exists_active (h : Watched state visitor) (hv : (visitor v).isAsleep = true) :
    ∃ w, (visitor w).isActive = true := by
  cases hstate : state with
  | begin =>
    obtain ⟨w, hw⟩ := h.begin hstate v hv
    exact ⟨w, Visitor.isActive_of_heeds hw⟩
  | pending =>
    obtain ⟨w, hw⟩ := h.pending hstate
    exact ⟨w, Visitor.isActive_of_isPending hw⟩
  | done =>
    obtain ⟨w, hw⟩ := h.done hstate v hv
    exact ⟨w, by rw [hw]; rfl⟩

variable [DecidableEq ι]

theorem asleep_of_update {k : Visitor} (hasleep : k.isAsleep = false) {u : ι}
    (hu : (Function.update visitor v k u).isAsleep = true) :
    u ≠ v ∧ (visitor u).isAsleep = true := by
  by_cases huv : u = v
  · rw [huv, Function.update_self, hasleep] at hu
    cases hu
  · rw [Function.update_of_ne huv] at hu
    exact ⟨huv, hu⟩

theorem update (h : Watched state visitor) {k : Visitor} (hasleep : k.isAsleep = false)
    (hpending : k.isPending = (visitor v).isPending) (hheeds : (visitor v).heeds = false) :
    Watched state (Function.update visitor v k) := by
  have hother : ∀ w, (visitor w).heeds = true → Function.update visitor v k w = visitor w := by
    intro w hw
    rw [Function.update_of_ne]
    rintro rfl
    rw [hheeds] at hw
    cases hw
  constructor
  · intro hstate
    obtain ⟨w, hw⟩ := h.pending hstate
    exact ⟨w, by rwa [update_frame (f := Visitor.isPending) hpending]⟩
  · intro hstate u hu
    obtain ⟨w, hw⟩ := h.begin hstate u (asleep_of_update hasleep hu).2
    exact ⟨w, by rwa [hother w hw]⟩
  · intro hstate u hu
    obtain ⟨w, hw⟩ := h.done hstate u (asleep_of_update hasleep hu).2
    exact ⟨w, by rwa [hother w (by rw [hw]; rfl)]⟩

theorem wait (h : Watched .pending visitor) (hv : (visitor v).isPending = false) {seqno : Nat} :
    Watched .pending (Function.update visitor v (.asleep seqno)) where
  pending hstate := by
    obtain ⟨w, hw⟩ := h.pending hstate
    exact ⟨w, by rwa [update_frame (f := Visitor.isPending) (by rw [hv]; rfl)]⟩
  begin hstate := by cases hstate
  done hstate := by cases hstate

theorem runs (h : Watched .done visitor) (hv : visitor v ≠ .notifying true) {pending : Bool}
    {seqno : Nat} : Watched .done (Function.update visitor v (.running pending seqno)) where
  pending hstate := by cases hstate
  begin hstate := by cases hstate
  done hstate u hu := by
    obtain ⟨w, hw⟩ := h.done hstate u (asleep_of_update rfl hu).2
    have hwv : w ≠ v := by
      rintro rfl
      exact hv hw
    exact ⟨w, by rwa [Function.update_of_ne hwv]⟩

theorem begins {seqno : Nat} :
    Watched .pending (Function.update visitor v (.running true seqno)) where
  pending _ := ⟨v, by rw [Function.update_self]; rfl⟩
  begin hstate := by cases hstate
  done hstate := by cases hstate

theorem leave (hstate : state ≠ .pending) :
    Watched state (Function.update visitor v (.notifying (decide (state = .done)))) where
  pending hpending := absurd hpending hstate
  begin _ _ _ := ⟨v, by rw [Function.update_self]; rfl⟩
  done hdone _ _ := ⟨v, by rw [Function.update_self]; simpa using hdone⟩

theorem notifyAll (h : Watched state visitor) (hv : visitor v = .notifying true) :
    Watched state (Function.update (cond.notifyAll visitor) v .finished) := by
  apply of_nobody_asleep
  · intro hpending
    obtain ⟨w, hw⟩ := h.pending hpending
    refine ⟨w, ?_⟩
    rwa [update_frame_trans (cond.notifyAll_frame Visitor.isPending_wake _) (by rw [hv]; rfl)]
  · intro u
    by_cases huv : u = v
    · rw [huv, Function.update_self]
      rfl
    · rw [Function.update_of_ne huv, Condition.notifyAll]
      split
      · exact Visitor.isAsleep_wake _
      · next hu => simpa [cond] using hu

theorem notifyOne (h : Watched state visitor) (hv : visitor v = .notifying false)
    (hnotify : cond.NotifyOne visitor visitor') :
    Watched state (Function.update visitor' v .finished) := by
  have hpending : state = .pending →
      ∃ w, (Function.update visitor' v .finished w).isPending = true := by
    intro hpending
    obtain ⟨w, hw⟩ := h.pending hpending
    refine ⟨w, ?_⟩
    rwa [update_frame_trans (hnotify.frame Visitor.isPending_wake) (by rw [hv]; rfl)]
  cases hnotify with
  | lost hnobody =>
    apply of_nobody_asleep hpending
    intro u
    by_cases huv : u = v
    · rw [huv, Function.update_self]
      rfl
    · rw [Function.update_of_ne huv]
      simpa [cond] using hnobody u
  | wakes w hw =>
    have hwv : w ≠ v := by
      rintro rfl
      rw [hv] at hw
      cases hw
    refine ⟨hpending, fun _ _ _ => ⟨w, ?_⟩, fun hdone _ _ => ?_⟩
    · rw [Function.update_of_ne hwv, Function.update_self]
      exact Visitor.heeds_wake hw
    · obtain ⟨x, hx⟩ := h.done hdone w hw
      have hxv : x ≠ v := by
        rintro rfl
        cases hx.symm.trans hv
      have hxw : x ≠ w := by
        rintro rfl
        rw [hx] at hw
        cases hw
      exact ⟨x, by rwa [Function.update_of_ne hxv, Function.update_of_ne hxw]⟩

theorem step {spurious : Prop} {c c' : Config ι ς} {e : Event ι ς}
    (h : Watched c.impl.state c.visitor) (hstep : Step spurious c e c') :
    Watched c'.impl.state c'.visitor := by
  cases hstep with
  | wait harr hpending =>
    obtain ⟨hstate, -, hnot, -⟩ := harr.frame
    rw [← hstate, hpending] at h
    rw [hpending]
    exact h.wait hnot
  | start harr hadm =>
    cases hadm with
    | begin => exact begins
    | done hdone =>
      rw [← harr.frame.1, hdone] at h
      rw [hdone]
      apply h.runs
      cases harr with
      | call hv | resume hv => simp [hv]
  | assignSession | setId => exact h
  | @finish v pending _ _ hv =>
    cases pending with
    | true | false => exact h.update rfl (by rw [hv]; rfl) (by rw [hv]; rfl)
  | leave _ himpl =>
    apply leave
    rw [himpl]
    split
    · simp [abandon]
    · simp only [settle, stateOf]
      split <;> simp
  | notifyAll hv => exact h.notifyAll hv
  | notifyOne hv hnotify => exact h.notifyOne hv hnotify
  | @wake v _ hv =>
    refine h.update (Visitor.isAsleep_wake _) (Visitor.isPending_wake _) ?_
    cases hvisitor : c.visitor v <;> simp_all [Visitor.isAsleep, Visitor.heeds]

end Watched

variable [DecidableEq ι] {spurious : Prop} {c : Config ι ς}

theorem Visitor.isActive.step {w : ι} (h : (c.visitor w).isActive = true) :
    ∃ e c', Step spurious c e c' ∧ e.visitor = w := by
  cases hw : c.visitor w with
  | outside | asleep _ | finished =>
    rw [hw] at h
    cases h
  | woken seqno =>
    have harr : c.Arrives w seqno c.impl := .resume hw
    cases hstate : c.impl.state with
    | begin => exact ⟨_, _, .start harr (.begin hstate), rfl⟩
    | pending => exact ⟨_, _, .wait harr hstate, rfl⟩
    | done => exact ⟨_, _, .start harr (.done hstate), rfl⟩
  | running pending seqno => exact ⟨.finish w false, _, .finish hw, rfl⟩
  | leaving threw => exact ⟨_, _, .leave hw rfl, rfl⟩
  | notifying all =>
    cases all with
    | true => exact ⟨_, _, .notifyAll hw, rfl⟩
    | false =>
      by_cases hasleep : ∃ v, (c.visitor v).isAsleep = true
      · obtain ⟨v, hv⟩ := hasleep
        exact ⟨_, _, .notifyOne hw (.wakes v hv), rfl⟩
      · exact ⟨_, _, .notifyOne hw (.lost fun v hv => hasleep ⟨v, hv⟩), rfl⟩

/-- In no interleaving do visitors sleep in `cond_.wait` with nobody left to wake them. -/
theorem visit_never_strands {session : Option ς} {selector : TransactionSelector}
    {tr : List (Event ι ς)} (h : Run (Step spurious) (Config.initial session selector) tr c) :
    ¬ c.Strands spurious := by
  rintro ⟨⟨v, hv⟩, hstuck⟩
  have hwatched : Watched c.impl.state c.visitor :=
    h.invariant (P := fun c => Watched c.impl.state c.visitor) (.initial selector)
      fun _ _ _ => Watched.step
  obtain ⟨w, hw⟩ := hwatched.exists_active hv
  have hgoesOn : ∃ e c', Step spurious c e c' ∧ e.visitor = w := Visitor.isActive.step hw
  obtain ⟨e, c', hstep, rfl⟩ := hgoesOn
  rw [hstuck e c' hstep] at hw
  cases hw

theorem visit_never_strands_asleep :
    ∃ c : Config Bool Unit, Run (Step False) (Config.initial none (.begin .readWrite))
      [.start true 1 (.begin .readWrite), .wait false] c ∧ ¬ c.Strands False := by
  have h : ∃ c : Config Bool Unit, Run (Step False) (Config.initial none (.begin .readWrite))
      [.start true 1 (.begin .readWrite), .wait false] c :=
    ⟨_, .cons (.start (.call rfl) (.begin rfl)) (.single (.wait (.call rfl) rfl))⟩
  obtain ⟨c, h⟩ := h
  exact ⟨c, h, visit_never_strands h⟩

end SpannerClient.TransactionImpl
