import SpannerClient.Internal.PoolSystem

namespace SpannerClient.SessionPool

variable {ι χ : Type}

theorem newSessions_channel (object : Nat) (channel : χ) (now : Int) (names : List String) :
    (newSessions object channel now names).map Session.channel =
      List.replicate names.length (some channel) := by
  induction names generalizing object with
  | nil => rfl
  | cons name names ih =>
    simp only [newSessions, List.map_map] at ih
    simp [newSessions, List.zipIdx_cons, List.replicate_succ, ih]

namespace Thread

def calls : Thread χ → List (CreateCount χ)
  | .creating growth | .announcing (some growth) => growth.calls
  | .outside | .allocating _ | .asleep _ _ | .woken _ _ | .announcing none | .handingOver
  | .refreshing _ => []

def callsLeft (t : Thread χ) : ℤ := t.calls.length

@[simp] theorem calls_wake (t : Thread χ) : t.wake.calls = t.calls := by
  cases t <;> rfl

@[simp] theorem calls_announcing_map (growth : Option (Growth χ)) (status : Status) :
    (announcing (growth.map fun growth => { growth with status })).calls =
      (announcing growth).calls := by
  cases growth <;> rfl

@[simp] theorem calls_resume (growth : Option (Growth χ)) :
    (resume growth).calls = (announcing growth).calls := by
  cases growth <;> rfl

end Thread

structure SameBooks (p p' : SessionPool χ) : Prop where
  sessions : p'.sessions = p.sessions
  total : p'.totalSessions = p.totalSessions
  count : p'.sessionCount = p.sessionCount
  calls : p'.createCallsInProgress = p.createCallsInProgress

theorem System.Arrives.sameBooks [Fintype χ] {options : SessionPoolOptions} {s : System ι χ} {v : ι}
    {dissociate : Bool} {pool : SessionPool χ}
    (h : s.Arrives options v dissociate pool) : SameBooks s.pool pool := by
  cases h <;> exact ⟨rfl, rfl, rfl, rfl⟩

theorem System.Arrives.calls [Fintype χ] {options : SessionPoolOptions} {s : System ι χ} {v : ι}
    {dissociate : Bool} {pool : SessionPool χ} (h : s.Arrives options v dissociate pool) :
    (s.thread v).calls = [] := by
  cases h with
  | call hv | grown hv _ | woken hv _ => rw [hv]; rfl

variable [DecidableEq χ]

structure Accounts (p : SessionPool χ) (held : List (Option χ)) : Prop where
  total : p.totalSessions = held.length
  count : ∀ channel, p.sessionCount channel = held.count (some channel)
  channel : none ∉ held

namespace Accounts

variable {p p' : SessionPool χ} {held held' : List (Option χ)}

theorem of_counters (h : Accounts p held) (htotal : p'.totalSessions = p.totalSessions)
    (hcount : p'.sessionCount = p.sessionCount) (hperm : held'.Perm held) :
    Accounts p' held' where
  total := by rw [htotal, h.total, hperm.length_eq]
  count channel := by rw [hcount, h.count, hperm.count_eq]
  channel hnone := h.channel (hperm.mem_iff.mp hnone)

theorem discount {session : Session χ} (h : Accounts p (session.channel :: held)) :
    Accounts (p.discount session) held where
  total := by simp [SessionPool.discount, h.total]
  count channel := by
    cases hchannel : session.channel with
    | none => exact absurd (hchannel ▸ List.mem_cons_self) h.channel
    | some c =>
      have hcount := h.count channel
      rw [hchannel, List.count_cons] at hcount
      by_cases hc : c = channel
      · subst hc
        simp [SessionPool.discount, hchannel, hcount]
      · simp_all [SessionPool.discount, Function.update_of_ne (Ne.symm hc)]
  channel hnone := h.channel (List.mem_cons_of_mem _ hnone)

theorem created (h : Accounts p held) (channel : χ) (n : Nat) (shuffled : List (Session χ)) :
    Accounts (p.created channel n shuffled) (held ++ List.replicate n (some channel)) where
  total := by simp [SessionPool.created, h.total]
  count c := by
    rw [List.count_append, List.count_replicate]
    by_cases hc : channel = c
    · subst hc
      simp [SessionPool.created, h.count]
    · simp [SessionPool.created, h.count, hc, Function.update_of_ne (Ne.symm hc)]
  channel hnone := by
    rcases List.mem_append.mp hnone with hnone | hnone
    · exact h.channel hnone
    · cases List.eq_of_mem_replicate hnone

theorem sum_count [Fintype χ] (h : Accounts p held) :
    ∑ channel, p.sessionCount channel = p.totalSessions := by
  rw [h.total, Finset.sum_congr rfl fun channel _ => h.count channel]
  have hnone := h.channel
  clear h
  induction held with
  | nil => simp
  | cons c held ih =>
    cases c with
    | none => exact absurd List.mem_cons_self hnone
    | some c =>
      have ih := ih fun hmem => hnone (List.mem_cons_of_mem _ hmem)
      simp only [List.count_cons, List.length_cons, Nat.cast_add, Nat.cast_one,
        Finset.sum_add_distrib, ih]
      simp

theorem allocate [Fintype χ] {options : SessionPoolOptions} {channels : List χ}
    {dissociate : Bool} {result : Allocation χ} {checkedOut : List (Session χ)}
    (h : Accounts p ((p.sessions ++ checkedOut).map Session.channel))
    (halloc : Allocates options channels p dissociate result p') :
    Accounts p' ((p'.sessions ++ result.checkOut dissociate checkedOut).map Session.channel) := by
  cases halloc with
  | checkOut hsessions =>
    refine h.of_counters rfl rfl ?_
    simp [hsessions, Allocation.checkOut]
  | @dissociate sessions session hsessions =>
    rw [hsessions] at h
    apply discount
    refine h.of_counters rfl rfl ?_
    simp only [Allocation.checkOut, SessionPool.discount, List.map_append, List.map_cons,
      List.append_assoc]
    exact List.perm_middle.symm
  | fail _ => exact h
  | wait _ _ => exact h.of_counters rfl rfl .rfl
  | create _ _ _ hgrow =>
    obtain ⟨-, -, rfl⟩ := grow_eq_ok hgrow
    exact h.of_counters rfl rfl .rfl

end Accounts

theorem Allocates.calls [Fintype χ] {options : SessionPoolOptions} {channels : List χ}
    {p p' : SessionPool χ} {dissociate : Bool} {result : Allocation χ}
    (h : Allocates options channels p dissociate result p') :
    p'.createCallsInProgress = p.createCallsInProgress + (result.next dissociate).callsLeft := by
  cases h with
  | checkOut _ | dissociate _ | fail _ | wait _ _ =>
    simp [Allocation.next, Thread.callsLeft, Thread.calls, SessionPool.discount]
  | create _ _ _ hgrow =>
    obtain ⟨-, -, rfl⟩ := grow_eq_ok hgrow
    rfl

namespace System

def outstanding [Fintype ι] (s : System ι χ) : ℤ :=
  tally Thread.callsLeft s.thread + s.asyncCalls.length

def held (s : System ι χ) : List (Option χ) :=
  (s.pool.sessions ++ s.checkedOut).map Session.channel

theorem held_erase {s : System ι χ} {session : Session χ} (h : session ∈ s.checkedOut) :
    List.Perm
      (session.channel :: (s.pool.sessions ++ s.checkedOut.erase session).map Session.channel)
      s.held := by
  rw [← List.map_cons, held]
  apply List.Perm.map
  exact List.perm_middle.symm.trans ((List.perm_cons_erase h).symm.append_left _)

structure Balanced [Fintype ι] (s : System ι χ) : Prop where
  accounts : Accounts s.pool s.held
  calls : s.pool.createCallsInProgress = s.outstanding

variable {s s' : System ι χ} {v : ι}

theorem Completes.callsLeft {call : CreateCount χ} {growth : Option (Growth χ)}
    {asyncCalls : List (CreateCount χ)} (h : s.Completes v call growth asyncCalls) :
    (s.thread v).callsLeft + s.asyncCalls.length =
      (Thread.announcing growth).callsLeft + asyncCalls.length + 1 := by
  cases h with
  | sync hv =>
    simp only [hv, Thread.callsLeft, Thread.calls, List.length_cons]
    push_cast
    ring
  | async hv hmem =>
    have hlen := List.length_erase_add_one hmem
    rw [← hlen]
    simp [hv, Thread.callsLeft, Thread.calls]

variable [Fintype ι]

theorem balanced_make (now : Int) : (make now : System ι χ).Balanced where
  accounts := ⟨rfl, fun _ => rfl, nofun⟩
  calls := (add_eq_right.mpr (tally_eq_zero fun _ => rfl)).symm

variable [DecidableEq ι]

namespace Balanced

theorem move (h : s.Balanced) {pool : SessionPool χ} {clock : Int} {objects : Nat} {t : Thread χ}
    {checkedOut : List (Session χ)} {asyncCalls : List (CreateCount χ)}
    (haccounts : Accounts pool ((pool.sessions ++ checkedOut).map Session.channel))
    (hcalls : pool.createCallsInProgress + (s.thread v).callsLeft + s.asyncCalls.length =
      s.pool.createCallsInProgress + t.callsLeft + asyncCalls.length) :
    Balanced ⟨pool, clock, objects, Function.update s.thread v t, checkedOut, asyncCalls⟩ where
  accounts := haccounts
  calls := by
    have hs := h.calls
    simp only [outstanding, tally_update] at hs ⊢
    omega

theorem notify (h : s.Balanced) {thread : ι → Thread χ} {t : Thread χ}
    (hthread : ∀ w, (thread w).calls = (s.thread w).calls)
    (ht : t.calls = (s.thread v).calls) :
    Balanced { s with thread := Function.update thread v t } where
  accounts := h.accounts
  calls := by
    have hcalls : ∀ w, (Function.update thread v t w).callsLeft = (s.thread w).callsLeft :=
      fun w => congrArg (fun calls : List (CreateCount χ) => (calls.length : ℤ))
        (update_frame_trans hthread ht w)
    rw [outstanding, tally_congr hcalls]
    exact h.calls

variable [Fintype χ] {options : SessionPoolOptions} {spurious : Prop}

theorem step {e : Event ι χ} (h : s.Balanced) (hstep : Step options spurious s e s') :
    s'.Balanced := by
  cases hstep with
  | tick now => exact ⟨h.accounts, h.calls⟩
  | call hv => exact h.move h.accounts (by simp [hv, Thread.callsLeft, Thread.calls])
  | allocate harr _ halloc =>
    have hbooks := harr.sameBooks
    have halloc := allocates halloc
    apply h.move
    · refine Accounts.allocate ?_ halloc
      exact h.accounts.of_counters hbooks.total hbooks.count (by rw [hbooks.sessions]; rfl)
    · have hleft : (s.thread _).callsLeft = 0 := congrArg (fun l => (l.length : ℤ)) harr.calls
      rw [halloc.calls, hleft, hbooks.calls]
      ring
  | recheck hv _ => exact h.move h.accounts (by simp [hv, Thread.callsLeft, Thread.calls])
  | initializePool hv _ _ hgrow =>
    obtain ⟨-, -, rfl⟩ := grow_eq_ok hgrow
    exact h.move (h.accounts.of_counters rfl rfl .rfl)
      (by simp [hv, Thread.callsLeft, Thread.calls])
  | maintain _ _ _ _ hgrow =>
    obtain ⟨-, -, rfl⟩ := grow_eq_ok hgrow
    refine ⟨h.accounts.of_counters rfl rfl .rfl, ?_⟩
    have hcalls := h.calls
    simp only [outstanding, List.length_append] at hcalls ⊢
    push_cast
    omega
  | @created v call growth _ names shuffled hdone hperm =>
    apply h.move
    · refine (h.accounts.created call.channel names.length shuffled).of_counters rfl rfl ?_
      rw [← newSessions_channel s.objects call.channel s.clock names, held, ← List.map_append]
      apply List.Perm.map
      refine (hperm.append_right s.checkedOut).trans ?_
      rw [List.append_assoc, List.append_assoc]
      exact List.perm_append_comm.append_left s.pool.sessions
    · have hleft := hdone.callsLeft
      simp only [SessionPool.created]
      omega
  | createFailed hdone =>
    apply h.move
    · exact h.accounts.of_counters rfl rfl .rfl
    · have hleft := hdone.callsLeft
      simp only [SessionPool.createFailed, Thread.callsLeft, Thread.calls_resume,
        Thread.calls_announcing_map] at hleft ⊢
      omega
  | finishGrow hv hnil _ =>
    exact h.move h.accounts (by simp [hv, Thread.callsLeft, Thread.calls, hnil])
  | release hv hmem hrelease =>
    rw [SessionPool.release] at hrelease
    split at hrelease
    · cases hrelease
      refine h.move ?_ (by simp [hv, Thread.callsLeft, Thread.calls, SessionPool.discount])
      apply Accounts.discount
      exact h.accounts.of_counters rfl rfl (held_erase hmem)
    · cases hrelease
      refine h.move ?_ ?_
      · refine h.accounts.of_counters rfl rfl (List.Perm.trans ?_ (held_erase hmem))
        simp
      · split <;> simp [hv, Thread.callsLeft, Thread.calls]
  | setBad hmem =>
    refine ⟨h.accounts.of_counters rfl rfl ?_, h.calls⟩
    have hperm := (List.perm_cons_erase hmem).map Session.channel
    simp only [held, List.map_append]
    exact hperm.symm.append_left _
  | notifyAll hv =>
    exact h.notify (cond.notifyAll_frame Thread.calls_wake _) (by simp [hv])
  | notifyOne hv hnotify =>
    exact h.notify (hnotify.frame Thread.calls_wake) (by rw [hv]; rfl)
  | readClock hv => exact h.move h.accounts (by simp [hv, Thread.callsLeft, Thread.calls])
  | @refresh v now _ _ hv hrefresh =>
    obtain ⟨bound, time, hpool⟩ := refreshExpiringSessions_pool options now s.clock s.pool
    rw [hrefresh] at hpool
    subst hpool
    refine h.move (h.accounts.of_counters rfl rfl ?_) (by simp [hv, Thread.callsLeft, Thread.calls])
    simp [held, Function.comp_def]
  | wake _ hv => exact h.move h.accounts (by simp [Thread.callsLeft])

theorem run {tr : List (Event ι χ)} (h : s.Balanced) (hrun : Run (Step options spurious) s tr s') :
    s'.Balanced :=
  hrun.invariant h fun _ _ _ => step

end Balanced

variable [Fintype χ] {options : SessionPoolOptions} {spurious : Prop}

/-- In every state of every interleaving the counters are exact. -/
theorem pool_accounting (now : Int) {tr : List (Event ι χ)}
    (h : Run (Step options spurious) (make now) tr s) :
    s.pool.totalSessions = s.pool.sessions.length + s.checkedOut.length ∧
      (∀ channel, s.pool.sessionCount channel =
        (s.pool.sessions ++ s.checkedOut).countP fun session => session.channel = some channel) ∧
      ∑ channel, s.pool.sessionCount channel = s.pool.totalSessions ∧
      (∀ channel, 0 ≤ s.pool.sessionCount channel) ∧
      s.pool.createCallsInProgress = s.outstanding := by
  obtain ⟨haccounts, hcalls⟩ := (balanced_make now).run h
  refine ⟨?_, ?_, haccounts.sum_count, ?_, hcalls⟩
  · rw [haccounts.total]
    simp [held]
  · intro channel
    rw [haccounts.count, held, List.count, List.countP_map]
    simp only [Function.comp_def, beq_eq_decide]
  · intro channel
    rw [haccounts.count]
    exact Int.natCast_nonneg _

end System

def oneSession : SessionPoolOptions := ⟨0, 1, 1, .block, 3300⟩

theorem sortedByCount_unit (p : SessionPool Unit) : p.SortedByCount [()] where
  nodup := List.nodup_singleton ()
  mem _ := List.mem_singleton_self ()
  sorted := List.pairwise_singleton _ ()

def theSession : Session Unit := ⟨0, "session", some (), false, 0⟩

def checkOutTrace : List (Event Bool Unit) :=
  [.call true false, .allocate true false (.create [⟨(), 1⟩]),
    .created true ⟨(), 1⟩ (.ok ["session"]),
    .notify true, .allocate true false (.allocated theSession)]

theorem run_checkOut :
    ∃ s, Run (Step oneSession False) (System.make 0) checkOutTrace s ∧
      s.checkedOut = [theSession] := by
  refine ⟨_, .cons (.call rfl) (.cons (.allocate (.call rfl) (sortedByCount_unit _) rfl)
    (.cons (.created (.sync rfl) (.refl _)) (.cons (.notifyAll rfl)
      (.cons (.allocate (.grown rfl rfl) (sortedByCount_unit _) rfl) .nil)))), ?_⟩
  rfl

theorem pool_accounting_checkOut :
    ∃ s : System Bool Unit, Run (Step oneSession False) (System.make 0) checkOutTrace s ∧
      s.pool.totalSessions = s.pool.sessions.length + s.checkedOut.length ∧
      (∀ channel, s.pool.sessionCount channel =
        (s.pool.sessions ++ s.checkedOut).countP fun session => session.channel = some channel) ∧
      ∑ channel, s.pool.sessionCount channel = s.pool.totalSessions ∧
      (∀ channel, 0 ≤ s.pool.sessionCount channel) ∧
      s.pool.createCallsInProgress = s.outstanding := by
  obtain ⟨s, h, -⟩ := run_checkOut
  exact ⟨s, h, System.pool_accounting 0 h⟩

end SpannerClient.SessionPool
