import SpannerClient.Internal.PoolAccounting

namespace SpannerClient.SessionPool

variable {ι χ : Type}

def Thread.timeRead : Thread χ → Option Int
  | .refreshing now => some now
  | .outside | .allocating _ | .asleep _ _ | .woken _ _ | .creating _ | .announcing _
  | .handingOver => none

@[simp] theorem Thread.timeRead_wake (t : Thread χ) : t.wake.timeRead = t.timeRead := by
  cases t <;> rfl

@[simp] theorem Thread.timeRead_resume (growth : Option (Growth χ)) :
    (resume growth).timeRead = none := by
  cases growth <;> rfl

@[simp] theorem Allocation.timeRead_next (dissociate : Bool) (result : Allocation χ) :
    (result.next dissociate).timeRead = none := by
  cases result <;> rfl

def scanned (limit bound : Int) (session : Session χ) : Int :=
  if session.lastUseTime ≤ limit then bound
  else if session.lastUseTime < bound then session.lastUseTime else bound

theorem scanned_le (limit bound : Int) (session : Session χ) :
    scanned limit bound session ≤ bound := by
  rw [scanned]
  split_ifs <;> omega

theorem scanned_le_lastUseTime {limit : Int} {session : Session χ}
    (h : limit < session.lastUseTime) (bound : Int) :
    scanned limit bound session ≤ session.lastUseTime := by
  rw [scanned, if_neg h.not_ge]
  split_ifs <;> omega

theorem scan_le (limit bound : Int) (sessions : List (Session χ)) :
    sessions.foldl (scanned limit) bound ≤ bound := by
  induction sessions generalizing bound with
  | nil => exact le_rfl
  | cons session sessions ih => exact (ih _).trans (scanned_le limit bound session)

theorem scan_le_lastUseTime {limit : Int} {sessions : List (Session χ)} {session : Session χ}
    (hmem : session ∈ sessions) (h : limit < session.lastUseTime) (bound : Int) :
    sessions.foldl (scanned limit) bound ≤ session.lastUseTime := by
  induction sessions generalizing bound with
  | nil => cases hmem
  | cons head sessions ih =>
    rw [List.foldl_cons]
    rcases List.mem_cons.mp hmem with rfl | hmem
    · exact (scan_le limit _ sessions).trans (scanned_le_lastUseTime h bound)
    · exact ih hmem _

def UsedSince (p : SessionPool χ) : Prop :=
  ∀ session ∈ p.sessions, p.lastUseTimeLowerBound ≤ session.lastUseTime

variable {p p' : SessionPool χ} {options : SessionPoolOptions} {now clock : Int}

theorem refresh_bound_le (hbound : p.lastUseTimeLowerBound ≤ clock) (hnow : now ≤ clock) :
    (p.refreshExpiringSessions options now clock).2.lastUseTimeLowerBound ≤ clock := by
  rw [refreshExpiringSessions]
  split
  · exact (scan_le _ _ p.sessions).trans hnow
  · exact hbound

namespace UsedSince

theorem mono (h : p.UsedSince) (hsessions : p'.sessions ⊆ p.sessions)
    (hbound : p'.lastUseTimeLowerBound = p.lastUseTimeLowerBound) : p'.UsedSince := by
  intro session hsession
  rw [hbound]
  exact h session (hsessions hsession)

theorem refreshed_eq (h : p.UsedSince) :
    (p.refreshExpiringSessions options now clock).1 =
      p.sessions.filter fun session => session.lastUseTime ≤ now - options.keepAliveInterval := by
  rw [refreshExpiringSessions]
  split
  · rfl
  · next hrecent =>
    symm
    rw [List.filter_eq_nil_iff]
    intro session hsession
    have hused := h session hsession
    rw [decide_eq_true_eq]
    omega

theorem refreshed_sessions (h : p.UsedSince) :
    (p.refreshExpiringSessions options now clock).2.sessions =
      p.sessions.map fun session =>
        if session.lastUseTime ≤ now - options.keepAliveInterval
        then { session with lastUseTime := clock } else session := by
  rw [refreshExpiringSessions]
  split
  · rfl
  · next hrecent =>
    calc
      p.sessions = p.sessions.map id := (List.map_id _).symm
      _ = _ := by
        refine List.map_congr_left fun session hsession => ?_
        have hused := h session hsession
        rw [id, if_neg (by omega)]

theorem refresh (h : p.UsedSince) (hnow : now ≤ clock) :
    (p.refreshExpiringSessions options now clock).2.UsedSince := by
  rw [refreshExpiringSessions]
  split
  · intro session hsession
    obtain ⟨session, hmem, rfl⟩ := List.mem_map.mp hsession
    change p.sessions.foldl (scanned (now - options.keepAliveInterval)) now ≤ _
    split
    · exact (scan_le _ _ _).trans hnow
    · next hlate => exact scan_le_lastUseTime hmem (not_le.mp hlate) _
  · exact h

end UsedSince

theorem Allocates.idle [Fintype χ] [DecidableEq χ] {options : SessionPoolOptions}
    {channels : List χ} {p p' : SessionPool χ} {dissociate : Bool} {result : Allocation χ}
    (h : Allocates options channels p dissociate result p') :
    p'.sessions ⊆ p.sessions ∧ p'.lastUseTimeLowerBound = p.lastUseTimeLowerBound := by
  cases h with
  | checkOut hsessions | dissociate hsessions =>
    refine ⟨?_, rfl⟩
    rw [hsessions]
    exact List.subset_append_left _ _
  | fail _ => exact ⟨List.Subset.refl _, rfl⟩
  | wait _ _ => exact ⟨List.Subset.refl _, rfl⟩
  | create _ _ _ hgrow =>
    obtain ⟨-, -, rfl⟩ := grow_eq_ok hgrow
    exact ⟨List.Subset.refl _, rfl⟩

theorem newSessions_lastUseTime {object : Nat} {channel : χ} {now : Int} {names : List String}
    {session : Session χ} (h : session ∈ newSessions object channel now names) :
    session.lastUseTime = now := by
  obtain ⟨_, -, rfl⟩ := List.mem_map.mp h
  rfl

namespace System

structure Timely (s : System ι χ) : Prop where
  used : s.pool.UsedSince
  bound : s.pool.lastUseTimeLowerBound ≤ s.clock
  read : ∀ v now, (s.thread v).timeRead = some now → now ≤ s.clock

theorem timely_make (now : Int) : (make now : System ι χ).Timely :=
  ⟨nofun, le_rfl, nofun⟩

theorem Arrives.idle [Fintype χ] [DecidableEq χ] {options : SessionPoolOptions} {s : System ι χ}
    {v : ι} {dissociate : Bool} {pool : SessionPool χ} (h : s.Arrives options v dissociate pool) :
    pool.sessions = s.pool.sessions ∧
      pool.lastUseTimeLowerBound = s.pool.lastUseTimeLowerBound := by
  cases h <;> exact ⟨rfl, rfl⟩

variable [DecidableEq ι] {s s' : System ι χ} {v : ι}

namespace Timely

theorem read_update (h : s.Timely) {thread : ι → Thread χ} {t : Thread χ}
    (hthread : ∀ w, (thread w).timeRead = (s.thread w).timeRead)
    (ht : ∀ now, t.timeRead = some now → now ≤ s.clock) (w : ι) (now : Int)
    (hw : (Function.update thread v t w).timeRead = some now) : now ≤ s.clock := by
  by_cases hwv : w = v
  · subst hwv
    rw [Function.update_self] at hw
    exact ht now hw
  · rw [Function.update_of_ne hwv, hthread] at hw
    exact h.read w now hw

theorem move (h : s.Timely) {pool : SessionPool χ} {objects : Nat} {thread : ι → Thread χ}
    {t : Thread χ} {checkedOut : List (Session χ)} {asyncCalls : List (CreateCount χ)}
    (hused : pool.UsedSince) (hbound : pool.lastUseTimeLowerBound = s.pool.lastUseTimeLowerBound)
    (hthread : ∀ w, (thread w).timeRead = (s.thread w).timeRead) (ht : t.timeRead = none) :
    Timely ⟨pool, s.clock, objects, Function.update thread v t, checkedOut, asyncCalls⟩ where
  used := hused
  bound := hbound.le.trans h.bound
  read := h.read_update hthread (by simp [ht])

variable [Fintype χ] [DecidableEq χ] {options : SessionPoolOptions} {spurious : Prop}

theorem step {e : Event ι χ} (h : s.Timely) (hstep : Step options spurious s e s')
    (hclock : s.clock ≤ s'.clock) : s'.Timely := by
  cases hstep with
  | tick now => exact ⟨h.used, h.bound.trans hclock, fun v now hv => (h.read v now hv).trans hclock⟩
  | call _ => exact h.move h.used rfl (fun _ => rfl) rfl
  | allocate harr _ halloc =>
    have hidle := (allocates halloc).idle
    have harrives := harr.idle
    refine h.move (h.used.mono ?_ ?_) ?_ (fun _ => rfl) (Allocation.timeRead_next _ _)
    · exact harrives.1 ▸ hidle.1
    · exact hidle.2.trans harrives.2
    · exact hidle.2.trans harrives.2
  | recheck _ _ => exact h.move h.used rfl (fun _ => rfl) rfl
  | initializePool _ _ _ hgrow =>
    obtain ⟨-, -, rfl⟩ := grow_eq_ok hgrow
    exact h.move h.used rfl (fun _ => rfl) rfl
  | maintain _ _ _ _ hgrow =>
    obtain ⟨-, -, rfl⟩ := grow_eq_ok hgrow
    exact ⟨h.used, h.bound, h.read⟩
  | created _ hperm =>
    refine h.move (fun session hsession => ?_) rfl (fun _ => rfl) rfl
    rcases List.mem_append.mp (hperm.mem_iff.mp hsession) with hold | hnew
    · exact h.used session hold
    · rw [newSessions_lastUseTime hnew]
      exact h.bound
  | createFailed _ => exact h.move h.used rfl (fun _ => rfl) (Thread.timeRead_resume _)
  | finishGrow _ _ _ => exact h.move h.used rfl (fun _ => rfl) rfl
  | release _ _ hrelease =>
    rw [SessionPool.release] at hrelease
    split at hrelease
    · cases hrelease
      exact h.move h.used rfl (fun _ => rfl) rfl
    · cases hrelease
      refine h.move (fun session hsession => ?_) rfl (fun _ => rfl) (by split <;> rfl)
      rcases List.mem_append.mp hsession with hold | hnew
      · exact h.used session hold
      · rw [List.mem_singleton.mp hnew]
        exact h.bound
  | setBad _ => exact ⟨h.used, h.bound, h.read⟩
  | notifyAll _ =>
    exact h.move h.used rfl (cond.notifyAll_frame Thread.timeRead_wake _)
      (Thread.timeRead_resume _)
  | notifyOne _ hnotify =>
    exact h.move h.used rfl (hnotify.frame Thread.timeRead_wake) rfl
  | readClock _ =>
    refine ⟨h.used, h.bound, h.read_update (fun _ => rfl) fun now hnow => ?_⟩
    exact (Option.some.inj hnow).ge
  | @refresh v now _ _ hv hrefresh =>
    have hnow := h.read v now (by rw [hv]; rfl)
    have hpool : (s.pool.refreshExpiringSessions options now s.clock).2 = _ :=
      congrArg Prod.snd hrefresh
    subst hpool
    exact ⟨h.used.refresh hnow, refresh_bound_le h.bound hnow,
      h.read_update (fun _ => rfl) fun _ hnone => by cases hnone⟩
  | @wake v _ _ =>
    refine ⟨h.used, h.bound, h.read_update (fun _ => rfl) fun now hnow => ?_⟩
    rw [Thread.timeRead_wake] at hnow
    exact h.read v now hnow

end Timely

variable [Fintype χ] [DecidableEq χ] {options : SessionPoolOptions} {spurious : Prop}

def ForwardStep (options : SessionPoolOptions) (spurious : Prop) (s : System ι χ) (e : Event ι χ)
    (s' : System ι χ) : Prop :=
  Step options spurious s e s' ∧ s.clock ≤ s'.clock

theorem Timely.run {tr : List (Event ι χ)} (h : s.Timely)
    (hrun : Run (ForwardStep options spurious) s tr s') : s'.Timely :=
  hrun.invariant h fun _ _ _ hs hstep => hs.step hstep.1 hstep.2

/-- In every state of every interleaving, the bound is a lower bound, and a refresh is that of a
full scan. -/
theorem refresh_misses_nothing (now : Int) {tr : List (Event ι χ)}
    (h : Run (ForwardStep options spurious) (make now) tr s) :
    (∀ session ∈ s.pool.sessions, s.pool.lastUseTimeLowerBound ≤ session.lastUseTime) ∧
      ∀ (v : ι) (time : Int) (sessions : List (Session χ)) (s' : System ι χ),
        s.thread v = .refreshing time → Step options spurious s (.refresh v sessions) s' →
          sessions = s.pool.sessions.filter (fun session =>
            session.lastUseTime ≤ time - options.keepAliveInterval) ∧
          s'.pool.sessions = s.pool.sessions.map fun session =>
            if session.lastUseTime ≤ time - options.keepAliveInterval
            then { session with lastUseTime := s.clock } else session := by
  have htimely := (timely_make now).run h
  refine ⟨htimely.used, fun v time sessions s' hv hstep => ?_⟩
  cases hstep with
  | @refresh _ time' _ _ hv' hrefresh =>
    cases hv.symm.trans hv'
    rw [← htimely.used.refreshed_eq, ← htimely.used.refreshed_sessions, hrefresh]
    exact ⟨rfl, rfl⟩

end System

def idleTrace : List (Event Bool Unit) :=
  checkOutTrace ++ [.release true theSession, .tick 3600, .readClock false]

theorem run_idle :
    ∃ s, Run (System.ForwardStep oneSession False) (System.make 0) idleTrace s ∧
      s.thread false = .refreshing 3600 ∧ s.pool.sessions = [theSession] := by
  refine ⟨_, .cons ⟨.call rfl, le_rfl⟩
    (.cons ⟨.allocate (.call rfl) (sortedByCount_unit _) rfl, le_rfl⟩
    (.cons ⟨.created (.sync rfl) (.refl _), le_rfl⟩ (.cons ⟨.notifyAll rfl, le_rfl⟩
    (.cons ⟨.allocate (.grown rfl rfl) (sortedByCount_unit _) rfl, le_rfl⟩
    (.cons ⟨.release rfl (List.mem_singleton_self _) rfl, le_rfl⟩
    (.cons ⟨.tick 3600, by decide⟩ (.cons ⟨.readClock rfl, le_rfl⟩ .nil))))))), ?_⟩
  exact ⟨rfl, rfl⟩

theorem refresh_misses_nothing_idle :
    ∃ s : System Bool Unit, Run (System.ForwardStep oneSession False) (System.make 0) idleTrace s ∧
      s.thread false = .refreshing 3600 ∧ s.pool.sessions = [theSession] ∧
      (∀ session ∈ s.pool.sessions, s.pool.lastUseTimeLowerBound ≤ session.lastUseTime) ∧
      ∀ (v : Bool) (time : Int) (sessions : List (Session Unit)) (s' : System Bool Unit),
        s.thread v = .refreshing time → Step oneSession False s (.refresh v sessions) s' →
          sessions = s.pool.sessions.filter (fun session =>
            session.lastUseTime ≤ time - oneSession.keepAliveInterval) ∧
          s'.pool.sessions = s.pool.sessions.map fun session =>
            if session.lastUseTime ≤ time - oneSession.keepAliveInterval
            then { session with lastUseTime := s.clock } else session := by
  obtain ⟨s, h, hthread, hsessions⟩ := run_idle
  exact ⟨s, h, hthread, hsessions, System.refresh_misses_nothing 0 h⟩

end SpannerClient.SessionPool
