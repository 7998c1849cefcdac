import SpannerClient.Internal.BeginSelector
import SpannerClient.Internal.PoolAccounting
import SpannerClient.Internal.PoolTransfers
import SpannerClient.Internal.SessionUse

/-! A transaction and the session pool it draws on, which others use too: other transactions are
among the threads of the pool. -/

namespace SpannerClient

open Protobuf Program SessionPool ConnectionImpl

structure Visiting (σ χ : Type) where
  op : Operation
  before : TransactionImpl (SessionHolder χ)
  trace : List (Exchange σ χ)
  report : Except Abort Report
  after : TransactionImpl (SessionHolder χ)

def Visiting.Runs {σ χ : Type} (conn : ConnectionImpl σ) (v : Visiting σ χ) : Prop :=
  (TransactionImpl.visit (conn.reporter v.op)).Runs v.before v.trace v.report v.after

/-- Where the transaction stands: `left` are the calls that a visit has yet to make, `held` is the
session that it has by now. -/
inductive Phase (σ χ : Type)
  | absent
  | ready (t : TransactionImpl (SessionHolder χ))
  | visiting (v : Visiting σ χ) (left : List (Exchange σ χ)) (held : Option (SessionHolder χ))

def Phase.held {σ χ : Type} : Phase σ χ → Option (SessionHolder χ)
  | .absent => none
  | .ready t => t.session
  | .visiting _ _ held => held

namespace Lifetime

variable {σ χ : Type}

inductive Follows (v : Visiting σ χ) : List (Exchange σ χ) → Option (SessionHolder χ) → Prop
  | unserved {left : List (Exchange σ χ)} : v.after.session = none →
    (∀ c ∈ left, ∃ dissociate e, c = ⟨.allocate dissociate, .error e⟩) → Follows v left none
  | unallocated {session : Session χ} {left : List (Exchange σ χ)} :
    v.after.session = some ⟨session, v.op.dissociates⟩ →
    (∀ c ∈ left, c.1.Keeps ⟨session, v.op.dissociates⟩) →
      Follows v (⟨.allocate v.op.dissociates, .ok session⟩ :: left) none
  | served {holder : SessionHolder χ} {left : List (Exchange σ χ)} :
    v.after.session = some holder → (∀ c ∈ left, c.1.Keeps holder) → Follows v left (some holder)

theorem Follows.held_of_nil {v : Visiting σ χ} {held : Option (SessionHolder χ)}
    (h : Follows v [] held) : v.after.session = held := by
  cases h with
  | unserved hafter _ | served hafter _ => exact hafter

variable {conn : ConnectionImpl σ} {v : Visiting σ χ}

theorem Visiting.uses (h : v.Runs conn) :
    (v.trace = [] ∧ v.report = .error .outOfFuel ∧ v.after.session = v.before.session) ∨
    ∃ t t' : TransactionImpl (SessionHolder χ), UsesSession v.op.dissociates t v.trace
      (v.report.map Report.status) t' ∧ t.session = v.before.session ∧
        v.after.session = t'.session := by
  cases TransactionImpl.runs_visit h with
  | blocked htrace hreport _ hsession => exact .inl ⟨htrace, hreport, hsession⟩
  | ran hrun _ hbefore _ hafter => exact .inr ⟨_, _, uses_reporter hrun, hbefore, hafter⟩

theorem Visiting.follows (h : v.Runs conn) : Follows v v.trace v.before.session := by
  rcases Visiting.uses h with ⟨htrace, -, hafter⟩ | ⟨t, t', huses, hbefore, hafter⟩
  · rw [htrace, ← hafter]
    cases hsession : v.after.session with
    | none => exact .unserved hsession (by simp)
    | some holder => exact .served hsession (by simp)
  · rw [← hbefore]
    generalize v.trace = tr at huses ⊢
    cases huses with
    | failed hprepares =>
      cases hprepares with
      | failed e hnone =>
        rw [hnone] at hafter ⊢
        exact .unserved hafter (by simp)
    | served hprepares hserves =>
      cases hprepares with
      | held hsession =>
        rw [hserves.session, hsession] at hafter
        rw [hsession]
        exact .served hafter hserves.calls
      | allocated session hnone =>
        rw [hserves.session] at hafter
        rw [hnone]
        exact .unallocated hafter hserves.calls

end Lifetime

structure Lifetime (ι σ χ : Type) where
  system : System ι χ
  phase : Phase σ χ

namespace Lifetime

variable {ι σ χ : Type}

def make (now : Int) : Lifetime ι σ χ := ⟨System.make now, .absent⟩

def Holds (s : System ι χ) (holder : SessionHolder χ) : Prop :=
  if holder.dissociated = true then s.Absent holder.session.object
  else s.HasOut holder.session.object

theorem Holds.step [DecidableEq χ] {s s' : System ι χ} {holder : SessionHolder χ}
    {e : SessionPool.Event ι χ}
    (hholds : Holds s holder) (h : Transfers s e s')
    (hrelease : ∀ v session, e = .release v session → session.object ≠ holder.session.object) :
    Holds s' holder := by
  rw [Holds] at hholds ⊢
  by_cases hdissociated : holder.dissociated = true
  · rw [if_pos hdissociated] at hholds ⊢
    exact hholds.step h
  · rw [if_neg hdissociated] at hholds ⊢
    exact hholds.step h hrelease

structure Inv (conn : ConnectionImpl σ) (l : Lifetime ι σ χ) : Prop where
  distinct : l.system.Distinct
  held : ∀ holder, l.phase.held = some holder → Holds l.system holder
  visiting : ∀ v left held, l.phase = .visiting v left held → v.Runs conn ∧ Follows v left held

theorem inv_make {conn : ConnectionImpl σ} (now : Int) : Inv conn (make now : Lifetime ι σ χ) where
  distinct := ⟨List.nodup_nil, by simp [make, System.make, System.sessions, SessionPool.make]⟩
  held holder hholder := by cases hholder
  visiting v left held hphase := by cases hphase

inductive Event (ι σ χ : Type)
  | pool (e : SessionPool.Event ι χ)
  | begin (selector : TransactionSelector)
  | beginFromIds (sessionId transactionId : String)
  | renew (selector : TransactionSelector)
  | visit (v : Visiting σ χ)
  | call (c : Exchange σ χ)
  | finish (v : Visiting σ χ)
  | destroy

def Event.handedOut : Event ι σ χ → Option (Session χ)
  | .pool e => e.handedOut
  | .call ⟨.allocate _, .ok session⟩ => some session
  | _ => none

def Event.namesCreated : Event ι σ χ → List String
  | .pool e => e.namesCreated
  | _ => []

variable [DecidableEq ι] [Fintype χ] [DecidableEq χ]

inductive Effect (options : SessionPoolOptions) (spurious : Prop) (s : System ι χ)
    (held : Option (SessionHolder χ)) :
    Exchange σ χ → System ι χ → Option (SessionHolder χ) → Prop
  | allocated {v : ι} {dissociate : Bool} {session : Session χ} {s' : System ι χ} :
    SessionPool.Step options spurious s (.allocate v dissociate (.allocated session)) s' →
      Effect options spurious s held ⟨.allocate dissociate, .ok session⟩ s'
        (some ⟨session, dissociate⟩)
  | failed {dissociate : Bool} {e : Failure} :
    Effect options spurious s held ⟨.allocate dissociate, .error e⟩ s held
  | marked {holder : SessionHolder χ} {session : Session χ} {s' : System ι χ} :
    held = some holder → holder.dissociated = false →
    SessionPool.Step options spurious s (.setBad session) s' →
      Effect options spurious s held ⟨.setBad session.object, ()⟩ s' held
  | markedApart {holder : SessionHolder χ} {object : Nat} :
    held = some holder → holder.dissociated = true →
      Effect options spurious s held ⟨.setBad object, ()⟩ s held
  | service {c : Exchange σ χ} : (∀ dissociate, c.1 ≠ .allocate dissociate) →
    (∀ object, c.1 ≠ .setBad object) → Effect options spurious s held c s held

/-- A session is released by the deleter of its last holder, so not while a transaction has it. -/
inductive Step (conn : ConnectionImpl σ) (options : SessionPoolOptions) (spurious : Prop) :
    Lifetime ι σ χ → Event ι σ χ → Lifetime ι σ χ → Prop
  | pool {l : Lifetime ι σ χ} {e : SessionPool.Event ι χ} {s : System ι χ} :
    SessionPool.Step options spurious l.system e s →
    (∀ v session holder, e = .release v session → l.phase.held = some holder →
      session.object ≠ holder.session.object) →
      Step conn options spurious l (.pool e) { l with system := s }
  | begin {l : Lifetime ι σ χ} {selector : TransactionSelector} : l.phase = .absent →
    Step conn options spurious l (.begin selector) { l with phase := .ready (.make none selector) }
  | beginFromIds {l : Lifetime ι σ χ} {sessionId transactionId : String} : l.phase = .absent →
    Step conn options spurious l (.beginFromIds sessionId transactionId)
      { system := { l.system with objects := l.system.objects + 1 }
        phase := .ready (.make
          (some (makeDissociatedSessionHolder l.system.objects l.system.clock sessionId))
          (.id transactionId)) }
  | renew {l : Lifetime ι σ χ} {t : TransactionImpl (SessionHolder χ)}
      {selector : TransactionSelector} : l.phase = .ready t →
    Step conn options spurious l (.renew selector)
      { l with phase := .ready (.make t.session selector) }
  | visit {l : Lifetime ι σ χ} {v : Visiting σ χ} : l.phase = .ready v.before → v.Runs conn →
      Step conn options spurious l (.visit v)
        { l with phase := .visiting v v.trace v.before.session }
  | call {l : Lifetime ι σ χ} {v : Visiting σ χ} {c : Exchange σ χ} {left : List (Exchange σ χ)}
      {held held' : Option (SessionHolder χ)} {s : System ι χ} :
    l.phase = .visiting v (c :: left) held → Effect options spurious l.system held c s held' →
      Step conn options spurious l (.call c) ⟨s, .visiting v left held'⟩
  | finish {l : Lifetime ι σ χ} {v : Visiting σ χ} {held : Option (SessionHolder χ)} :
    l.phase = .visiting v [] held →
      Step conn options spurious l (.finish v) { l with phase := .ready v.after }
  | destroy {l : Lifetime ι σ χ} {t : TransactionImpl (SessionHolder χ)} : l.phase = .ready t →
    Step conn options spurious l .destroy { l with phase := .absent }

variable {conn : ConnectionImpl σ} {options : SessionPoolOptions} {spurious : Prop}
  {l l' : Lifetime ι σ χ} {e : Event ι σ χ}

theorem Step.transfers (h : Step conn options spurious l e l') :
    ∃ e', Transfers l.system e' l'.system ∧ e'.handedOut = e.handedOut ∧
      e'.namesCreated = e.namesCreated ∧ ∀ v session holder, e' = .release v session →
        l.phase.held = some holder → session.object ≠ holder.session.object := by
  have hsame : ∀ {e : Event ι σ χ}, e.handedOut = none → e.namesCreated = [] →
      l.system.pool.sessions = l'.system.pool.sessions →
      l.system.checkedOut = l'.system.checkedOut →
      l.system.objects ≤ l'.system.objects →
      ∃ e', Transfers l.system e' l'.system ∧ e'.handedOut = e.handedOut ∧
        e'.namesCreated = e.namesCreated ∧ ∀ v session holder, e' = .release v session →
          l.phase.held = some holder → session.object ≠ holder.session.object := by
    intro e hout hnames hsessions hchecked hobjects
    refine ⟨.tick 0, .of_eq rfl hsessions.symm hchecked.symm hobjects, hout.symm, hnames.symm, ?_⟩
    nofun
  cases h with
  | pool hstep hrelease => exact ⟨_, hstep.transfers, rfl, rfl, hrelease⟩
  | begin | renew | visit | finish | destroy => exact hsame rfl rfl rfl rfl le_rfl
  | beginFromIds => exact hsame rfl rfl rfl rfl (Nat.le_succ _)
  | @call _ c _ _ _ _ _ heffect =>
    cases heffect with
    | allocated hstep => exact ⟨_, hstep.transfers, rfl, rfl, nofun⟩
    | failed | markedApart => exact hsame rfl rfl rfl rfl le_rfl
    | marked _ _ hstep => exact ⟨_, hstep.transfers, rfl, rfl, nofun⟩
    | service hallocate _ =>
      refine hsame ?_ rfl rfl rfl le_rfl
      obtain ⟨c, reply⟩ := c
      cases c with
      | allocate dissociate => exact absurd rfl (hallocate dissociate)
      | _ => rfl

theorem Follows.call {s s' : System ι χ} {v : Visiting σ χ} {c : Exchange σ χ}
    {left : List (Exchange σ χ)} {held held' : Option (SessionHolder χ)}
    (hfollows : Follows v (c :: left) held) (h : Effect options spurious s held c s' held') :
    Follows v left held' := by
  cases hfollows with
  | unserved hafter hleft =>
    obtain ⟨dissociate, e, rfl⟩ := hleft c List.mem_cons_self
    cases h with
    | failed => exact .unserved hafter fun c hc => hleft c (List.mem_cons_of_mem _ hc)
    | service hallocate _ => exact absurd rfl (hallocate dissociate)
  | unallocated hafter hleft =>
    cases h with
    | allocated _ => exact .served hafter hleft
    | service hallocate _ => exact absurd rfl (hallocate _)
  | served hafter hleft =>
    have hcall := hleft c List.mem_cons_self
    have hrest : ∀ c ∈ left, c.1.Keeps _ := fun c hc => hleft c (List.mem_cons_of_mem _ hc)
    cases h with
    | allocated _ | failed => exact hcall.elim
    | marked _ _ _ | markedApart _ _ | service _ _ => exact .served hafter hrest

theorem Inv.held_step (hinv : Inv conn l) (h : Step conn options spurious l e l') :
    ∀ holder, l'.phase.held = some holder → Holds l'.system holder := by
  have hheld := hinv.held
  cases h with
  | pool hstep hrelease =>
    intro holder hholder
    exact (hheld holder hholder).step hstep.transfers fun v session he =>
      hrelease v session holder he hholder
  | begin | destroy =>
    intro holder hholder
    cases hholder
  | beginFromIds =>
    intro holder hholder
    cases hholder
    refine ⟨Nat.lt_succ_self _, fun session hsession => ?_⟩
    exact (hinv.distinct.lt session hsession).ne
  | renew hphase | visit hphase =>
    rw [hphase] at hheld
    exact hheld
  | call hphase heffect =>
    rw [hphase] at hheld
    cases heffect with
    | @allocated _ dissociate _ _ hstep =>
      intro holder hholder
      cases hholder
      cases dissociate with
      | true => exact hinv.distinct.absent hstep.transfers
      | false => exact System.hasOut_of_transfers hstep.transfers
    | failed | markedApart _ _ | service _ _ => exact hheld
    | marked _ _ hstep =>
      intro holder hholder
      exact (hheld holder hholder).step hstep.transfers nofun
  | finish hphase =>
    rw [hphase] at hheld
    intro holder hholder
    exact hheld holder ((hinv.visiting _ _ _ hphase).2.held_of_nil ▸ hholder)

theorem Inv.visiting_step (hinv : Inv conn l) (h : Step conn options spurious l e l') :
    ∀ v left held, l'.phase = .visiting v left held → v.Runs conn ∧ Follows v left held := by
  cases h with
  | pool => exact hinv.visiting
  | begin | beginFromIds | renew | finish | destroy =>
    intro v left held hphase
    cases hphase
  | visit _ hruns =>
    intro v left held hvisiting
    cases hvisiting
    exact ⟨hruns, Visiting.follows hruns⟩
  | call hphase heffect =>
    intro v left held hvisiting
    cases hvisiting
    obtain ⟨hruns, hfollows⟩ := hinv.visiting _ _ _ hphase
    exact ⟨hruns, hfollows.call heffect⟩

theorem Inv.step (hinv : Inv conn l) (h : Step conn options spurious l e l') : Inv conn l' where
  distinct := by
    obtain ⟨_, htransfers, -⟩ := h.transfers
    exact hinv.distinct.step htransfers
  held := hinv.held_step h
  visiting := hinv.visiting_step h

theorem runs_of_finish {tr : List (Event ι σ χ)} (hinv : Inv conn l)
    (h : Run (Step conn options spurious) l tr l') : ∀ v, .finish v ∈ tr → v.Runs conn := by
  have hhistory : Inv conn l' ∧ ∀ v, .finish v ∈ tr → v.Runs conn := by
    refine h.history (P := fun tr l => Inv conn l ∧ ∀ v, .finish v ∈ tr → v.Runs conn)
      ⟨hinv, by simp⟩ ?_
    rintro tr l e l' ⟨hinv, htr⟩ hstep
    refine ⟨hinv.step hstep, fun v hv => ?_⟩
    rcases List.mem_append.mp hv with hv | hv
    · exact htr v hv
    · cases List.mem_singleton.mp hv
      cases hstep with
      | finish hphase => exact (hinv.visiting _ _ _ hphase).1
  exact hhistory.2

theorem Step.other {s : System ι χ} {e : SessionPool.Event ι χ}
    (h : SessionPool.Step options spurious l.system e s)
    (hrelease : ∀ v session, e ≠ .release v session) :
    Step conn options spurious l (.pool e) { l with system := s } :=
  .pool h fun v session _ he => absurd he (hrelease v session)

def growing (dissociate : Bool) : List (Event Bool ServerStream Unit) :=
  [.pool (.call true dissociate), .pool (.allocate true dissociate (.create [⟨(), 1⟩])),
    .pool (.created true ⟨(), 1⟩ (.ok ["session"])), .pool (.notify true)]

end Lifetime

end SpannerClient
