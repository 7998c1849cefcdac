import SpannerClient.Internal.TransactionImpl

namespace SpannerClient.TransactionImpl

open Protobuf

variable {ι ς : Type}

namespace Visitor

@[simp] theorem isPending_wake (v : Visitor) : v.wake.isPending = v.isPending := by
  cases v <;> rfl

@[simp] theorem isRunning_wake (v : Visitor) : v.wake.isRunning = v.isRunning := by
  cases v <;> rfl

def hasHeld : Visitor → Bool
  | .running pending _ => pending
  | .leaving _ | .notifying _ | .finished => true
  | .outside | .asleep _ | .woken _ => false

@[simp] theorem hasHeld_wake (v : Visitor) : v.wake.hasHeld = v.hasHeld := by
  cases v <;> rfl

theorem hasHeld_of_isPending {v : Visitor} (h : v.isPending = true) : v.hasHeld = true := by
  cases v <;> simp_all [isPending, hasHeld]

end Visitor

/-- A pending visitor is the only one, and others run only once the selector has left `begin`. -/
structure Config.Inv (c : Config ι ς) : Prop where
  pending : ∀ v, (c.visitor v).isPending = true → c.impl.state = .pending
  unique : ∀ u v, (c.visitor u).isPending = true → (c.visitor v).isPending = true → u = v
  running : ∀ v, (c.visitor v).isRunning = true → (c.visitor v).isPending = false →
    c.impl.state = .done
  done : c.impl.state = .done → c.impl.selector.hasBegin = false

namespace Config.Inv

variable {c c' : Config ι ς}

theorem initial (session : Option ς) (selector : TransactionSelector) :
    (Config.initial session selector : Config ι ς).Inv where
  pending := nofun
  unique := nofun
  running := nofun
  done := by
    simp only [Config.initial, make, stateOf]
    split <;> simp_all

theorem frame (h : c.Inv) (hstate : c'.impl.state = c.impl.state)
    (hselector : c.impl.selector.hasBegin = false → c'.impl.selector.hasBegin = false)
    (hpending : ∀ w, (c'.visitor w).isPending = (c.visitor w).isPending)
    (hrunning : ∀ w, (c'.visitor w).isRunning = (c.visitor w).isRunning) : c'.Inv where
  pending v := by rw [hpending, hstate]; exact h.pending v
  unique u v := by rw [hpending, hpending]; exact h.unique u v
  running v := by rw [hrunning, hpending, hstate]; exact h.running v
  done := by rw [hstate]; exact fun hdone => hselector (h.done hdone)

theorem of_idle (hidle : ∀ v, (c.visitor v).isPending = false ∧ (c.visitor v).isRunning = false)
    (hdone : c.impl.state = .done → c.impl.selector.hasBegin = false) : c.Inv where
  pending v hv := by simp [(hidle v).1] at hv
  unique u _ hu := by simp [(hidle u).1] at hu
  running v hv := by simp [(hidle v).2] at hv
  done := hdone

theorem idle_of_begin (h : c.Inv) (hstate : c.impl.state = .begin) (v : ι) :
    (c.visitor v).isPending = false ∧ (c.visitor v).isRunning = false := by
  have hpending : (c.visitor v).isPending = false := by
    by_contra hv
    have := h.pending v (by simpa using hv)
    simp [hstate] at this
  refine ⟨hpending, ?_⟩
  by_contra hv
  have := h.running v (by simpa using hv) hpending
  simp [hstate] at this

theorem idle_of_pending (h : c.Inv) {v : ι} (hv : (c.visitor v).isPending = true) {w : ι}
    (hw : w ≠ v) : (c.visitor w).isPending = false ∧ (c.visitor w).isRunning = false := by
  have hpending : (c.visitor w).isPending = false := by
    by_contra hw'
    exact hw (h.unique w v (by simpa using hw') hv)
  refine ⟨hpending, ?_⟩
  by_contra hw'
  have := h.running w (by simpa using hw') hpending
  simp [h.pending v hv] at this

end Config.Inv

theorem Config.Arrives.frame {c : Config ι ς} {v : ι} {seqno : Nat} {impl : TransactionImpl ς}
    (h : c.Arrives v seqno impl) : impl.state = c.impl.state ∧ impl.selector = c.impl.selector ∧
      (c.visitor v).isPending = false ∧ (c.visitor v).isRunning = false := by
  cases h with
  | call hv => simp [hv, Visitor.isPending, Visitor.isRunning]
  | resume hv => simp [hv, Visitor.isPending, Visitor.isRunning]

theorem Config.Arrives.not_hasHeld {c : Config ι ς} {v : ι} {seqno : Nat} {impl : TransactionImpl ς}
    (h : c.Arrives v seqno impl) : (c.visitor v).hasHeld = false := by
  cases h with
  | call hv => simp [hv, Visitor.hasHeld]
  | resume hv => simp [hv, Visitor.hasHeld]

variable [DecidableEq ι] {spurious : Prop} {c c' : Config ι ς}

namespace Config.Inv

theorem start (h : c.Inv) {v : ι} {seqno : Nat} {pending : Bool} {impl impl' : TransactionImpl ς}
    (harr : c.Arrives v seqno impl) (hadm : impl.Admits pending impl') :
    Config.Inv ⟨impl', Function.update c.visitor v (.running pending seqno)⟩ := by
  obtain ⟨hstate, hselector, hpending, -⟩ := harr.frame
  cases hadm with
  | done hdone =>
    have hframe := update_frame (f := Visitor.isPending) (k := .running false seqno) hpending.symm
    constructor
    · intro w hw
      rw [hframe] at hw
      exact hstate.trans (h.pending w hw)
    · intro u w hu hw
      rw [hframe] at hu hw
      exact h.unique u w hu hw
    · intro w _ _
      exact hdone
    · intro _
      rw [hselector]
      exact h.done (hstate.symm.trans hdone)
  | begin hbegin =>
    have hidle := h.idle_of_begin (hstate.symm.trans hbegin)
    have honly : ∀ w, (Function.update c.visitor v (.running true seqno) w).isPending = true →
        w = v := by
      intro w hw
      by_contra hne
      rw [Function.update_of_ne hne, (hidle w).1] at hw
      cases hw
    constructor
    · intro _ _
      rfl
    · intro u w hu hw
      rw [honly u hu, honly w hw]
    · intro w hw hnot
      by_cases hwv : w = v
      · simp [hwv, Visitor.isPending] at hnot
      · simp [hwv, (hidle w).2] at hw
    · intro hdone
      cases hdone

theorem finish (h : c.Inv) {v : ι} {pending threw : Bool} {seqno : Nat}
    (hv : c.visitor v = .running pending seqno) :
    Config.Inv { c with
      visitor := Function.update c.visitor v (if pending then .leaving threw else .finished) } := by
  have hframe : ∀ w, (Function.update c.visitor v
      (if pending then .leaving threw else .finished) w).isPending = (c.visitor w).isPending := by
    apply update_frame
    cases pending <;> simp [hv, Visitor.isPending]
  constructor
  · intro w hw
    rw [hframe] at hw
    exact h.pending w hw
  · intro u w hu hw
    rw [hframe] at hu hw
    exact h.unique u w hu hw
  · intro w hw hnot
    rw [hframe] at hnot
    by_cases hwv : w = v
    · cases pending <;> simp [hwv, Visitor.isRunning] at hw
    · simp only [ne_eq, hwv, not_false_eq_true, Function.update_of_ne] at hw
      exact h.running w hw hnot
  · exact h.done

theorem leave (h : c.Inv) {v : ι} {threw all : Bool} {impl : TransactionImpl ς}
    (hv : c.visitor v = .leaving threw)
    (himpl : impl = if threw then c.impl.abandon else c.impl.settle) :
    Config.Inv ⟨impl, Function.update c.visitor v (.notifying all)⟩ := by
  apply of_idle
  · intro w
    by_cases hwv : w = v
    · simp [hwv, Visitor.isPending, Visitor.isRunning]
    · simpa [hwv] using h.idle_of_pending (by simp [hv, Visitor.isPending]) hwv
  · intro hdone
    subst himpl
    cases threw with
    | true => cases hdone
    | false =>
      simp only [settle, stateOf] at hdone ⊢
      split at hdone
      · cases hdone
      · simp_all

theorem step {e : Event ι ς} (h : c.Inv) (hstep : Step spurious c e c') : c'.Inv := by
  cases hstep with
  | wait harr _ =>
    obtain ⟨hstate, hselector, hpending, hrunning⟩ := harr.frame
    exact h.frame hstate (by simp [hselector]) (update_frame hpending.symm)
      (update_frame hrunning.symm)
  | start harr hadm => exact h.start harr hadm
  | assignSession _ _ => exact h.frame rfl id (fun _ => rfl) fun _ => rfl
  | setId _ _ => exact h.frame rfl (fun _ => rfl) (fun _ => rfl) fun _ => rfl
  | finish hv => exact h.finish hv
  | leave hv himpl => exact h.leave hv himpl
  | notifyAll hv =>
    refine h.frame rfl id (update_frame_trans (cond.notifyAll_frame Visitor.isPending_wake _) ?_)
      (update_frame_trans (cond.notifyAll_frame Visitor.isRunning_wake _) ?_) <;> rw [hv] <;> rfl
  | notifyOne hv hnotify =>
    refine h.frame rfl id (update_frame_trans (hnotify.frame Visitor.isPending_wake) ?_)
      (update_frame_trans (hnotify.frame Visitor.isRunning_wake) ?_) <;> rw [hv] <;> rfl
  | wake _ hv =>
    exact h.frame rfl id (update_frame (Visitor.isPending_wake _))
      (update_frame (Visitor.isRunning_wake _))

end Config.Inv

theorem Config.Inv.run {tr : List (Event ι ς)} (h : c.Inv) (hrun : Run (Step spurious) c tr c') :
    c'.Inv :=
  hrun.invariant h fun _ _ _ => step

def Event.idSet : Event ι ς → Option String
  | .setId _ id => some id
  | _ => none

def idsSet (tr : List (Event ι ς)) : List String := tr.filterMap Event.idSet

theorem Step.selector {e : Event ι ς} (hstep : Step spurious c e c') :
    (e.idSet = none ∧ c'.impl.selector = c.impl.selector) ∨
      ∃ id, e.idSet = some id ∧ c.impl.selector.hasBegin = true ∧ c'.impl.selector = .id id := by
  cases hstep with
  | wait harr _ => exact .inl ⟨rfl, harr.frame.2.1⟩
  | start harr hadm =>
    refine .inl ⟨rfl, ?_⟩
    rw [← harr.frame.2.1]
    cases hadm <;> rfl
  | setId _ hbegin => exact .inr ⟨_, rfl, hbegin, rfl⟩
  | leave _ himpl =>
    refine .inl ⟨rfl, ?_⟩
    subst himpl
    split <;> rfl
  | assignSession | finish | notifyAll | notifyOne | wake => exact .inl ⟨rfl, rfl⟩

def Recorded (options : TransactionOptions) (tr : List (Event ι ς)) (c : Config ι ς) : Prop :=
  (idsSet tr = [] ∧ c.impl.selector = .begin options) ∨
    ∃ id, idsSet tr = [id] ∧ c.impl.selector = .id id

theorem Recorded.step {options : TransactionOptions} {tr : List (Event ι ς)} {e : Event ι ς}
    (h : Recorded options tr c) (hstep : Step spurious c e c') :
    Recorded options (tr ++ [e]) c' := by
  rw [Recorded, idsSet, List.filterMap_append, ← idsSet]
  rcases hstep.selector with ⟨he, hselector⟩ | ⟨id, he, hbegin, hselector⟩
  · rw [hselector]
    simpa [he, Recorded] using h
  · rcases h with ⟨hnone, -⟩ | ⟨id', -, hid⟩
    · exact .inr ⟨id, by simp [hnone, he], hselector⟩
    · simp [hid] at hbegin

theorem recorded_of_run {session : Option ς} {options : TransactionOptions}
    {tr : List (Event ι ς)}
    (hrun : Run (Step spurious) (Config.initial session (.begin options)) tr c) :
    Recorded options tr c :=
  hrun.history (.inl ⟨rfl, rfl⟩) fun _ _ _ _ => Recorded.step

theorem frozen {tr : List (Event ι ς)} (hrun : Run (Step spurious) c tr c')
    (h : c.impl.selector.hasBegin = false) :
    c'.impl.selector = c.impl.selector ∧ (∀ e ∈ tr, e.idSet = none) ∧
      ∀ v seqno selector, .start v seqno selector ∈ tr → selector = c.impl.selector := by
  apply hrun.history (P := fun tr c' => c'.impl.selector = c.impl.selector ∧
    (∀ e ∈ tr, e.idSet = none) ∧
      ∀ v seqno selector, .start v seqno selector ∈ tr → selector = c.impl.selector)
  · exact ⟨rfl, by simp, by simp⟩
  · rintro tr s e s' ⟨hselector, hnone, hstart⟩ hstep
    rcases hstep.selector with ⟨he, hs'⟩ | ⟨id, -, hbegin, -⟩
    · refine ⟨hs'.trans hselector, ?_, ?_⟩
      · intro e' he'
        rcases List.mem_append.mp he' with he' | he'
        · exact hnone e' he'
        · rwa [List.mem_singleton.mp he']
      · intro v seqno selector hv
        rcases List.mem_append.mp hv with hv | hv
        · exact hstart v seqno selector hv
        · rw [List.mem_singleton] at hv
          subst hv
          cases hstep with
          | start => exact hs'.trans hselector
    · rw [hselector, h] at hbegin
      cases hbegin

theorem Step.hasHeld {e : Event ι ς} (hstep : Step spurious c e c') {w : ι}
    (hw : (c.visitor w).hasHeld = true) : (c'.visitor w).hasHeld = true := by
  cases hstep with
  | wait harr _ =>
    exact update_preserves (f := Visitor.hasHeld) (by simp [harr.not_hasHeld]) hw
  | start harr _ =>
    exact update_preserves (f := Visitor.hasHeld) (by simp [harr.not_hasHeld]) hw
  | assignSession | setId => exact hw
  | finish hv =>
    apply update_preserves (f := Visitor.hasHeld) _ hw
    intro hheld
    rw [hv] at hheld
    split <;> simp_all [Visitor.hasHeld]
  | leave _ _ => exact update_preserves (f := Visitor.hasHeld) (fun _ => rfl) hw
  | notifyAll _ =>
    apply update_preserves (f := Visitor.hasHeld) (fun _ => rfl)
    rwa [cond.notifyAll_frame Visitor.hasHeld_wake]
  | notifyOne _ hnotify =>
    apply update_preserves (f := Visitor.hasHeld) (fun _ => rfl)
    rwa [hnotify.frame Visitor.hasHeld_wake]
  | wake _ _ => exact update_preserves (f := Visitor.hasHeld) (by simp) hw

def SetWhileHeld (tr : List (Event ι ς)) (c : Config ι ς) : Prop :=
  ∀ v id, .setId v id ∈ tr → (c.visitor v).hasHeld = true

theorem Config.Inv.setWhileHeld {tr : List (Event ι ς)} (h : c.Inv)
    (hrun : Run (Step spurious) c tr c') : SetWhileHeld tr c' := by
  have hboth : c'.Inv ∧ SetWhileHeld tr c' := by
    apply hrun.history (P := fun tr c' => c'.Inv ∧ SetWhileHeld tr c') ⟨h, nofun⟩
    rintro tr s e s' ⟨hs, hset⟩ hstep
    refine ⟨hs.step hstep, fun v id hv => ?_⟩
    rcases List.mem_append.mp hv with hv | hv
    · exact hstep.hasHeld (hset v id hv)
    · rw [List.mem_singleton] at hv
      subst hv
      apply hstep.hasHeld
      cases hstep with
      | setId hrunning hbegin =>
        apply Visitor.hasHeld_of_isPending
        by_contra hnot
        have hdone := hs.running v hrunning (by simpa using hnot)
        rw [hs.done hdone] at hbegin
        cases hbegin
  exact hboth.2

/-- From any state of any interleaving on: while the selector is `begin` one functor runs at most;
of two functors that run at one time neither is the one that sets the id; one id is set at most;
and a functor that starts after that is given it. -/
theorem begun_once (session : Option ς) (options : TransactionOptions)
    {tr tr' : List (Event ι ς)}
    (h : Run (Step spurious) (Config.initial session (.begin options)) tr c)
    (h' : Run (Step spurious) c tr' c') :
    (c.impl.selector.hasBegin = true → ∀ u v, (c.visitor u).isRunning = true →
      (c.visitor v).isRunning = true → u = v) ∧
    (∀ u v, u ≠ v → (c.visitor u).isRunning = true → (c.visitor v).isRunning = true →
      ∀ id, Event.setId v id ∉ tr ++ tr') ∧
    (idsSet (tr ++ tr')).length ≤ 1 ∧
    ∀ u id, .setId u id ∈ tr → ∀ v seqno selector, .start v seqno selector ∈ tr' →
      selector = .id id := by
  have hinv : c.Inv := (Config.Inv.initial session (.begin options)).run h
  refine ⟨?_, ?_, ?_, ?_⟩
  · intro hbegin u v hu hv
    have hpending : ∀ w, (c.visitor w).isRunning = true → (c.visitor w).isPending = true := by
      intro w hw
      by_contra hnot
      rw [hinv.done (hinv.running w hw (by simpa using hnot))] at hbegin
      cases hbegin
    exact hinv.unique u v (hpending u hu) (hpending v hv)
  · intro u v huv hu hv id hid
    have hnot : (c.visitor v).isPending = false := by
      by_contra hpending
      have := hinv.idle_of_pending (by simpa using hpending) huv
      rw [hu] at this
      cases this.2
    rcases List.mem_append.mp hid with hid | hid
    · have hheld := (Config.Inv.initial session (.begin options)).setWhileHeld h v id hid
      cases hv' : c.visitor v <;> simp_all [Visitor.isRunning, Visitor.isPending, Visitor.hasHeld]
    · have := (frozen h' (hinv.done (hinv.running v hv hnot))).2.1 _ hid
      cases this
  · rcases recorded_of_run (h.append h') with ⟨hnone, -⟩ | ⟨id, hone, -⟩
    · simp [hnone]
    · simp [hone]
  · intro u id hid v seqno selector hv
    have hmem : id ∈ idsSet tr := List.mem_filterMap.mpr ⟨_, hid, rfl⟩
    rcases recorded_of_run h with ⟨hnone, -⟩ | ⟨id', hone, hselector⟩
    · rw [hnone] at hmem
      cases hmem
    · rw [hone, List.mem_singleton] at hmem
      have hgiven := (frozen h' (by simp [hselector])).2.2 v seqno selector hv
      rw [hgiven, hselector, hmem]

def beginTrace : List (Event Bool Unit) :=
  [.start true 1 (.begin .readWrite), .setId true "txn"]

def throwTrace : List (Event Bool Unit) :=
  [.finish true true, .leave true, .start false 2 (.id "txn")]

theorem begun_once_throw :
    ∃ c c' : Config Bool Unit,
      Run (Step False) (Config.initial none (.begin .readWrite)) beginTrace c ∧
      Run (Step False) c throwTrace c' ∧
      (c.impl.selector.hasBegin = true → ∀ u v, (c.visitor u).isRunning = true →
        (c.visitor v).isRunning = true → u = v) ∧
      (∀ u v, u ≠ v → (c.visitor u).isRunning = true → (c.visitor v).isRunning = true →
        ∀ id, Event.setId v id ∉ beginTrace ++ throwTrace) ∧
      (idsSet (beginTrace ++ throwTrace)).length ≤ 1 ∧
      ∀ u id, .setId u id ∈ beginTrace → ∀ v seqno selector,
        .start v seqno selector ∈ throwTrace → selector = .id id := by
  have h : ∃ c : Config Bool Unit,
      Run (Step False) (Config.initial none (.begin .readWrite)) beginTrace c ∧
      ∃ c', Run (Step False) c throwTrace c' := by
    refine ⟨_, .cons (.start (.call rfl) (.begin rfl)) (.cons (.setId rfl rfl) .nil), ?_⟩
    exact ⟨_, .cons (.finish rfl) (.cons (.leave rfl rfl)
      (.cons (.start (.call rfl) (.begin rfl)) .nil))⟩
  obtain ⟨c, h, c', h'⟩ := h
  exact ⟨c, c', h, h', begun_once none .readWrite h h'⟩

end SpannerClient.TransactionImpl
