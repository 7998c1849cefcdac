import SpannerClient.Internal.PoolAccounting

namespace SpannerClient.SessionPool

variable {ι χ : Type}

namespace Thread

def waits : Thread χ → ℤ
  | .asleep _ _ | .woken _ _ => 1
  | .outside | .allocating _ | .creating _ | .announcing _ | .handingOver | .refreshing _ => 0

/-- The thread will look at the pool for a session, or make a sleeping thread do so. -/
def heeds : Thread χ → ℤ
  | .woken _ _ | .handingOver => 1
  | .outside | .allocating _ | .asleep _ _ | .creating _ | .announcing _ | .refreshing _ => 0

def isAnnouncing : Thread χ → Bool
  | .announcing _ => true
  | _ => false

@[simp] theorem waits_wake (t : Thread χ) : t.wake.waits = t.waits := by
  cases t <;> rfl

@[simp] theorem isAsleep_wake (t : Thread χ) : t.wake.isAsleep = false := by
  cases t <;> rfl

@[simp] theorem isAnnouncing_wake (t : Thread χ) : t.wake.isAnnouncing = t.isAnnouncing := by
  cases t <;> rfl

theorem waits_nonneg (t : Thread χ) : 0 ≤ t.waits := by
  cases t <;> simp [waits]

theorem heeds_nonneg (t : Thread χ) : 0 ≤ t.heeds := by
  cases t <;> simp [heeds]

@[simp] theorem waits_resume (growth : Option (Growth χ)) : (resume growth).waits = 0 := by
  cases growth <;> rfl

@[simp] theorem isAsleep_resume (growth : Option (Growth χ)) :
    (resume growth).isAsleep = false := by
  cases growth <;> rfl

theorem isAsleep_iff {t : Thread χ} :
    t.isAsleep = true ↔ ∃ dissociate reason, t = .asleep dissociate reason := by
  cases t <;> simp [isAsleep]

theorem heeds_le_one (t : Thread χ) : t.heeds ≤ 1 := by
  cases t <;> simp [heeds]

def isApart : Thread χ → Bool
  | .outside | .allocating _ | .creating _ | .refreshing _ => true
  | .asleep _ _ | .woken _ _ | .announcing _ | .handingOver => false

theorem of_isApart {t : Thread χ} (h : t.isApart = true) :
    t.waits = 0 ∧ t.heeds = 0 ∧ t.isAsleep = false ∧ t.isAnnouncing = false := by
  cases t <;> simp_all [isApart, waits, heeds, isAsleep, isAnnouncing]

@[simp] theorem isApart_resume (growth : Option (Growth χ)) : (resume growth).isApart = true := by
  cases growth <;> rfl

end Thread

theorem SameBooks.waitPredicate [Fintype χ] {options : SessionPoolOptions} {p p' : SessionPool χ}
    (h : SameBooks p p') (reason : Reason) :
    p'.waitPredicate options reason = p.waitPredicate options reason := by
  cases reason <;> simp [SessionPool.waitPredicate, h.sessions, h.total, h.calls]

namespace System

theorem Arrives.waiting [Fintype χ] {options : SessionPoolOptions} {s : System ι χ} {v : ι}
    {dissociate : Bool} {pool : SessionPool χ} (h : s.Arrives options v dissociate pool) :
    (s.thread v).isAnnouncing = false ∧
      pool.numWaitingForSession + (s.thread v).waits = s.pool.numWaitingForSession := by
  cases h with
  | call hv | grown hv _ => rw [hv]; exact ⟨rfl, add_zero _⟩
  | woken hv _ => rw [hv]; exact ⟨rfl, sub_add_cancel _ _⟩

theorem Completes.isApart [DecidableEq χ] {s : System ι χ} {v : ι} {call : CreateCount χ}
    {growth : Option (Growth χ)} {asyncCalls : List (CreateCount χ)}
    (h : s.Completes v call growth asyncCalls) : (s.thread v).isApart = true := by
  cases h with
  | sync hv | async hv _ => rw [hv]; rfl

def Announcing (s : System ι χ) : Prop := ∃ v, (s.thread v).isAnnouncing = true

def Blocked (s : System ι χ) (reason : Reason) : Prop :=
  (∃ v dissociate, s.thread v = .asleep dissociate reason) ∧ ¬ s.Announcing

theorem Announcing.update [DecidableEq ι] {s : System ι χ} {v : ι} (h : s.Announcing)
    (hv : (s.thread v).isAnnouncing = false)
    (t : Thread χ) : ∃ w, (Function.update s.thread v t w).isAnnouncing = true := by
  obtain ⟨w, hw⟩ := h
  refine ⟨w, ?_⟩
  rw [Function.update_of_ne]
  · exact hw
  · rintro rfl
    rw [hv] at hw
    cases hw

theorem Blocked.of_update [DecidableEq ι] {s : System ι χ} {v : ι}
    {pool : SessionPool χ} {clock : Int} {objects : Nat} {t : Thread χ}
    {checkedOut : List (Session χ)}
    {asyncCalls : List (CreateCount χ)} {reason : Reason}
    (h : Blocked ⟨pool, clock, objects, Function.update s.thread v t, checkedOut, asyncCalls⟩
      reason)
    (hv : (s.thread v).isAnnouncing = false) (ht : ∀ dissociate, t ≠ .asleep dissociate reason) :
    s.Blocked reason := by
  obtain ⟨⟨w, dissociate, hw⟩, hnone⟩ := h
  refine ⟨⟨w, dissociate, ?_⟩, fun hs => hnone (hs.update hv t)⟩
  by_cases hwv : w = v
  · subst hwv
    simp only [Function.update_self] at hw
    exact absurd hw (ht dissociate)
  · simpa [hwv] using hw

variable [Fintype χ]

/-- The steps that make the predicate of a sleeping thread true and wake none: a bad session is
released or a session dissociated from a full pool, or the last call in progress fails. -/
def Misses (options : SessionPoolOptions) (s : System ι χ) : Event ι χ → Prop
  | .release _ session =>
    session.isBad = true ∧ s.Blocked .exhaustion ∧ s.pool.totalSessions ≤ maxPoolSize χ options
  | .allocate _ true (.allocated _) =>
    s.Blocked .exhaustion ∧ s.pool.totalSessions ≤ maxPoolSize χ options
  | .created _ _ (.error _) => s.Blocked .creation ∧ s.pool.createCallsInProgress = 1
  | _ => False

def Stranded [Fintype ι] (options : SessionPoolOptions) (s : System ι χ) : Prop :=
  (∀ v, (s.thread v).isAsleep = false → s.thread v = .outside) ∧ s.outstanding = 0 ∧
    ∃ v dissociate reason, s.thread v = .asleep dissociate reason ∧
      s.pool.waitPredicate options reason = true

/-- While threads sleep, idle sessions are heeded, and a predicate is false unless a `notify_all()`
is on its way. -/
structure Awake [Fintype ι] (options : SessionPoolOptions) (s : System ι χ) : Prop where
  waiting : s.pool.numWaitingForSession = tally Thread.waits s.thread
  idle : (∃ v, (s.thread v).isAsleep = true) →
    s.Announcing ∨ (s.pool.sessions.length : ℤ) ≤ tally Thread.heeds s.thread
  exhaustion : s.Blocked .exhaustion → maxPoolSize χ options ≤ s.pool.totalSessions
  creation : s.Blocked .creation → 0 < s.pool.createCallsInProgress

variable [Fintype ι] {options : SessionPoolOptions} {s s' : System ι χ} {v : ι}

theorem awake_make (now : Int) : (make now : System ι χ).Awake options := by
  refine ⟨(tally_eq_zero fun _ => rfl).symm, ?_, ?_, ?_⟩
  · rintro ⟨v, hv⟩
    cases hv
  · rintro ⟨⟨v, _, hv⟩, -⟩
    cases hv
  · rintro ⟨⟨v, _, hv⟩, -⟩
    cases hv

theorem Awake.of_nobody_asleep
    (hwaiting : s.pool.numWaitingForSession = tally Thread.waits s.thread)
    (hnobody : ∀ v, (s.thread v).isAsleep = false) : s.Awake options := by
  have hnone : ∀ reason, ¬ s.Blocked reason := by
    rintro reason ⟨⟨v, dissociate, hv⟩, -⟩
    have := hnobody v
    rw [hv] at this
    cases this
  refine ⟨hwaiting, ?_, fun h => absurd h (hnone _), fun h => absurd h (hnone _)⟩
  rintro ⟨v, hv⟩
  rw [hnobody v] at hv
  cases hv

theorem Awake.not_stranded [DecidableEq χ] (h : s.Awake options) (hbalanced : s.Balanced) :
    ¬ s.Stranded options := by
  rintro ⟨hrest, houtstanding, v, dissociate, reason, hv, hpredicate⟩
  have hquiet : ∀ w, (s.thread w).isAnnouncing = false ∧ (s.thread w).heeds = 0 := by
    intro w
    cases hw : (s.thread w).isAsleep with
    | true =>
      obtain ⟨_, _, hw⟩ := Thread.isAsleep_iff.mp hw
      rw [hw]
      exact ⟨rfl, rfl⟩
    | false =>
      rw [hrest w hw]
      exact ⟨rfl, rfl⟩
  have hnone : ¬ s.Announcing := by
    rintro ⟨w, hw⟩
    rw [(hquiet w).1] at hw
    cases hw
  have hnil : s.pool.sessions = [] := by
    have hidle := (h.idle ⟨v, Thread.isAsleep_iff.mpr ⟨dissociate, reason, hv⟩⟩).resolve_left hnone
    rw [tally_eq_zero fun w => (hquiet w).2] at hidle
    exact List.length_eq_zero_iff.mp (by omega)
  have hblocked : s.Blocked reason := ⟨⟨v, dissociate, hv⟩, hnone⟩
  cases reason with
  | exhaustion =>
    have hfull := h.exhaustion hblocked
    simp [waitPredicate, hnil] at hpredicate
    omega
  | creation =>
    have hcalls := h.creation hblocked
    rw [hbalanced.calls, houtstanding] at hcalls
    exact lt_irrefl 0 hcalls

variable [DecidableEq ι]

namespace Awake

theorem move (h : s.Awake options) {pool : SessionPool χ} {clock : Int} {objects : Nat}
    {t : Thread χ} {checkedOut : List (Session χ)} {asyncCalls : List (CreateCount χ)}
    (hv : (s.thread v).isAnnouncing = false) (ht : t.isAsleep = false)
    (hwaiting : pool.numWaitingForSession + (s.thread v).waits =
      s.pool.numWaitingForSession + t.waits)
    (hidle : (∃ w, (s.thread w).isAsleep = true) → pool.sessions = [] ∨
      (pool.sessions.length : ℤ) + (s.thread v).heeds ≤ s.pool.sessions.length + t.heeds)
    (hexhaustion : s.Blocked .exhaustion → maxPoolSize χ options ≤ s.pool.totalSessions →
      maxPoolSize χ options ≤ pool.totalSessions)
    (hcreation : s.Blocked .creation → 0 < s.pool.createCallsInProgress →
      0 < pool.createCallsInProgress) :
    Awake options
      ⟨pool, clock, objects, Function.update s.thread v t, checkedOut, asyncCalls⟩ := by
  have hne : ∀ dissociate reason, t ≠ .asleep dissociate reason := by
    rintro dissociate reason rfl
    cases ht
  refine ⟨?_, ?_, ?_, ?_⟩
  · have hs := h.waiting
    simp only [tally_update]
    omega
  · rintro ⟨w, hw⟩
    have hasleep : ∃ w, (s.thread w).isAsleep = true := by
      refine ⟨w, ?_⟩
      by_cases hwv : w = v
      · subst hwv
        simp [ht] at hw
      · simpa [hwv] using hw
    rcases h.idle hasleep with hs | hs
    · exact .inl (hs.update hv t)
    · right
      simp only [tally_update]
      rcases hidle hasleep with hnil | hle
      · have hnonneg := le_tally Thread.heeds_nonneg s.thread v
        have ht := t.heeds_nonneg
        rw [hnil, List.length_nil]
        omega
      · omega
  · intro hblocked
    have hs := hblocked.of_update hv (hne · _)
    exact hexhaustion hs (h.exhaustion hs)
  · intro hblocked
    have hs := hblocked.of_update hv (hne · _)
    exact hcreation hs (h.creation hs)

theorem announce (h : s.Awake options) {pool : SessionPool χ} {clock : Int} {objects : Nat}
    {growth : Option (Growth χ)} {checkedOut : List (Session χ)}
    {asyncCalls : List (CreateCount χ)}
    (hwaiting : pool.numWaitingForSession + (s.thread v).waits =
      s.pool.numWaitingForSession) :
    Awake options ⟨pool, clock, objects, Function.update s.thread v (.announcing growth),
      checkedOut, asyncCalls⟩ := by
  have hannouncing : Announcing ⟨pool, clock, objects,
      Function.update s.thread v (.announcing growth), checkedOut, asyncCalls⟩ :=
    ⟨v, by simp [Thread.isAnnouncing]⟩
  refine ⟨?_, fun _ => .inl hannouncing, fun h => absurd hannouncing h.2,
    fun h => absurd hannouncing h.2⟩
  have hs := h.waiting
  have hnew : (Thread.announcing growth).waits = 0 := rfl
  simp only [tally_update]
  omega

theorem sleep (h : s.Awake options) {pool : SessionPool χ} {dissociate : Bool} {reason : Reason}
    (hv : (s.thread v).isAnnouncing = false)
    (hwaiting : pool.numWaitingForSession + (s.thread v).waits =
      s.pool.numWaitingForSession + 1)
    (hbooks : SameBooks s.pool pool) (hcalls : 0 ≤ s.pool.createCallsInProgress)
    (hpredicate : s.pool.waitPredicate options reason = false) :
    Awake options { s with
      pool := pool, thread := Function.update s.thread v (.asleep dissociate reason) } := by
  have hother : ∀ reason', reason' ≠ reason → Blocked { s with
      pool := pool, thread := Function.update s.thread v (.asleep dissociate reason) } reason' →
        s.Blocked reason' := by
    intro reason' hne hblocked
    apply hblocked.of_update hv
    rintro dissociate' heq
    cases heq
    exact hne rfl
  refine ⟨?_, fun _ => .inr ?_, ?_, ?_⟩
  · have hs := h.waiting
    have hnew : (Thread.asleep dissociate reason : Thread χ).waits = 1 := rfl
    simp only [tally_update]
    omega
  · have hnil : s.pool.sessions = [] := by
      cases reason <;> simp_all [waitPredicate]
    simp only [hbooks.sessions, hnil, List.length_nil]
    exact tally_nonneg Thread.heeds_nonneg _
  · intro hblocked
    rw [hbooks.total]
    cases reason with
    | exhaustion => simpa [waitPredicate] using (Bool.or_eq_false_iff.mp hpredicate).2
    | creation => exact h.exhaustion (hother _ (by simp) hblocked)
  · intro hblocked
    rw [hbooks.calls]
    cases reason with
    | exhaustion => exact h.creation (hother _ (by simp) hblocked)
    | creation =>
      have hne : s.pool.createCallsInProgress ≠ 0 := by
        simpa [waitPredicate] using (Bool.or_eq_false_iff.mp hpredicate).2
      omega

theorem notifyOne (h : s.Awake options) {thread : ι → Thread χ}
    (hv : s.thread v = .handingOver) (hnotify : cond.NotifyOne s.thread thread) :
    Awake options { s with thread := Function.update thread v .outside } := by
  have hwaits : ∀ w, (Function.update thread v .outside w).waits = (s.thread w).waits :=
    update_frame_trans (hnotify.frame Thread.waits_wake) (by rw [hv]; rfl)
  have hwaiting := h.waiting
  rw [← tally_congr hwaits] at hwaiting
  cases hnotify with
  | lost hnobody =>
    apply of_nobody_asleep hwaiting
    intro w
    by_cases hwv : w = v
    · subst hwv
      simp [Thread.isAsleep]
    · simpa [hwv, cond] using hnobody w
  | wakes u hu =>
    have huv : u ≠ v := by
      rintro rfl
      simp [hv, cond, Thread.isAsleep] at hu
    have hannouncing : ∀ w, (Function.update (Function.update s.thread u (s.thread u).wake) v
        .outside w).isAnnouncing = (s.thread w).isAnnouncing :=
      update_frame_trans (update_frame (Thread.isAnnouncing_wake _)) (by rw [hv]; rfl)
    have hasleep : ∀ w, (Function.update (Function.update s.thread u (s.thread u).wake) v
        .outside w).isAsleep = true →
          Function.update (Function.update s.thread u (s.thread u).wake) v .outside w =
            s.thread w := by
      intro w hw
      by_cases hwv : w = v
      · simp [hwv, Thread.isAsleep] at hw
      · by_cases hwu : w = u
        · simp [hwu, huv] at hw
        · simp [hwv, hwu]
    have hblocked : ∀ reason, Blocked { s with
        thread := Function.update (Function.update s.thread u (s.thread u).wake) v .outside }
          reason → s.Blocked reason := by
      rintro reason ⟨⟨w, dissociate, hw⟩, hnone⟩
      refine ⟨⟨w, dissociate, ?_⟩, ?_⟩
      · exact (hasleep w (Thread.isAsleep_iff.mpr ⟨dissociate, reason, hw⟩)).symm.trans hw
      · rintro ⟨a, ha⟩
        exact hnone ⟨a, (hannouncing a).trans ha⟩
    refine ⟨hwaiting, ?_, fun h' => h.exhaustion (hblocked _ h'),
      fun h' => h.creation (hblocked _ h')⟩
    rintro ⟨w, hw⟩
    rcases h.idle ⟨u, hu⟩ with ⟨a, ha⟩ | hle
    · exact .inl ⟨a, (hannouncing a).trans ha⟩
    · right
      obtain ⟨dissociate, reason, hu⟩ := Thread.isAsleep_iff.mp hu
      simp only [tally_update, Function.update_of_ne huv.symm, hv, hu]
      have hasleep : (Thread.asleep dissociate reason : Thread χ).heeds = 0 := rfl
      have hwoken : (cond.wake (Thread.asleep dissociate reason : Thread χ)).heeds = 1 := rfl
      have hhanding : (Thread.handingOver : Thread χ).heeds = 1 := rfl
      have houtside : (Thread.outside : Thread χ).heeds = 0 := rfl
      omega

theorem notifyAll (h : s.Awake options) {growth : Option (Growth χ)}
    (hv : s.thread v = .announcing growth) :
    Awake options
      { s with thread := Function.update (cond.notifyAll s.thread) v (.resume growth) } := by
  apply of_nobody_asleep
  · rw [tally_congr (update_frame_trans (cond.notifyAll_frame Thread.waits_wake _) _)]
    · exact h.waiting
    · rw [hv, Thread.waits_resume]
      rfl
  · intro w
    by_cases hwv : w = v
    · subst hwv
      simp
    · simp only [ne_eq, hwv, not_false_eq_true, Function.update_of_ne, Condition.notifyAll]
      split
      · exact Thread.isAsleep_wake _
      · next hw => simpa [cond] using hw

theorem keep (h : s.Awake options) {pool : SessionPool χ} {clock : Int} {objects : Nat}
    {t : Thread χ} {checkedOut : List (Session χ)} {asyncCalls : List (CreateCount χ)}
    (hv : (s.thread v).isApart = true) (ht : t.isApart = true)
    (hwaiting : pool.numWaitingForSession = s.pool.numWaitingForSession)
    (hsessions : pool.sessions.length = s.pool.sessions.length)
    (hexhaustion : s.Blocked .exhaustion → maxPoolSize χ options ≤ s.pool.totalSessions →
      maxPoolSize χ options ≤ pool.totalSessions)
    (hcreation : s.Blocked .creation → 0 < s.pool.createCallsInProgress →
      0 < pool.createCallsInProgress) :
    Awake options
      ⟨pool, clock, objects, Function.update s.thread v t, checkedOut, asyncCalls⟩ := by
  obtain ⟨hvwaits, hvheeds, -, hvann⟩ := Thread.of_isApart hv
  obtain ⟨htwaits, htheeds, htasleep, -⟩ := Thread.of_isApart ht
  apply h.move hvann htasleep _ _ hexhaustion hcreation
  · rw [hvwaits, htwaits, hwaiting]
  · intro _
    rw [hvheeds, htheeds, hsessions]
    exact .inr le_rfl

theorem allocate (h : s.Awake options) [DecidableEq χ]
    (hcalls : 0 ≤ s.pool.createCallsInProgress) {dissociate : Bool} {pool pool' : SessionPool χ}
    {channels : List χ} {result : Allocation χ} (harr : s.Arrives options v dissociate pool)
    (halloc : pool.Allocates options channels dissociate result pool')
    (hmisses : ¬ s.Misses options (.allocate v dissociate result)) :
    Awake options { s with
      pool := pool'
      thread := Function.update s.thread v (result.next dissociate)
      checkedOut := result.checkOut dissociate s.checkedOut } := by
  have hbooks := harr.sameBooks
  obtain ⟨hann, hwaiting⟩ := harr.waiting
  have hone := (s.thread v).heeds_le_one
  cases halloc with
  | @checkOut sessions _ hsessions =>
    apply h.move hann rfl
    · exact hwaiting.trans (add_zero _).symm
    · intro _
      right
      rw [← hbooks.sessions, hsessions, List.length_append]
      exact add_le_add_right hone _
    · exact fun _ htotal => hbooks.total ▸ htotal
    · exact fun _ hpos => hbooks.calls ▸ hpos
  | @dissociate sessions _ hsessions =>
    apply h.move hann rfl
    · exact hwaiting.trans (add_zero _).symm
    · intro _
      right
      rw [← hbooks.sessions, hsessions, List.length_append]
      exact add_le_add_right hone _
    · intro hblocked _
      have hfull : ¬ s.pool.totalSessions ≤ maxPoolSize χ options :=
        fun hle => hmisses ⟨hblocked, hle⟩
      simp only [discount, hbooks.total]
      omega
    · exact fun _ hpos => hbooks.calls ▸ hpos
  | fail hnil =>
    apply h.move hann rfl
    · exact hwaiting.trans (add_zero _).symm
    · exact fun _ => .inl hnil
    · exact fun _ htotal => hbooks.total ▸ htotal
    · exact fun _ hpos => hbooks.calls ▸ hpos
  | wait hnil hpredicate =>
    refine h.sleep hann ?_ ⟨hbooks.sessions, hbooks.total, hbooks.count, hbooks.calls⟩ hcalls ?_
    · dsimp only
      omega
    · rwa [← hbooks.waitPredicate]
  | create hnil _ _ hgrow =>
    obtain ⟨-, -, rfl⟩ := grow_eq_ok hgrow
    apply h.move hann rfl
    · exact hwaiting.trans (add_zero _).symm
    · exact fun _ => .inl hnil
    · exact fun _ htotal => hbooks.total ▸ htotal
    · intro _ hpos
      rw [hbooks.calls]
      exact Int.add_pos_of_pos_of_nonneg hpos (Int.natCast_nonneg _)

theorem release (h : s.Awake options) [DecidableEq χ] {session : Session χ} {notify : Bool}
    {pool : SessionPool χ} (hv : s.thread v = .outside)
    (hrelease : s.pool.release s.clock session = (notify, pool))
    (hmisses : ¬ s.Misses options (.release v session)) :
    Awake options { s with
      pool := pool
      thread := Function.update s.thread v (if notify then .handingOver else .outside)
      checkedOut := s.checkedOut.erase session } := by
  rw [SessionPool.release] at hrelease
  split at hrelease
  · next hbad =>
    cases hrelease
    refine h.keep (by rw [hv]; rfl) rfl rfl rfl ?_ ?_
    · intro hblocked _
      have hfull : ¬ s.pool.totalSessions ≤ maxPoolSize χ options :=
        fun hle => hmisses ⟨hbad, hblocked, hle⟩
      simp only [discount]
      omega
    · exact fun _ => id
  · cases hrelease
    apply h.move (by rw [hv]; rfl)
    · split <;> rfl
    · rw [hv]
      split <;> rfl
    · rintro ⟨w, hw⟩
      right
      rw [hv, List.length_append]
      split
      · simp [Thread.heeds]
      · next hnobody =>
        -- a sleeping thread is counted, and the count is positive
        have hcounted := le_tally Thread.waits_nonneg s.thread w
        rw [← h.waiting] at hcounted
        obtain ⟨_, _, hw⟩ := Thread.isAsleep_iff.mp hw
        rw [hw] at hcounted
        simp only [decide_eq_true_eq] at hnobody
        simp only [Thread.waits] at hcounted
        omega
    · exact fun _ => id
    · exact fun _ => id

theorem step {spurious : Prop} [DecidableEq χ] (h : s.Awake options) (hbalanced : s.Balanced)
    {e : Event ι χ} (hmisses : ¬ s.Misses options e) (hstep : Step options spurious s e s') :
    s'.Awake options := by
  have hcalls : 0 ≤ s.pool.createCallsInProgress := by
    rw [hbalanced.calls]
    exact add_nonneg (tally_nonneg (fun _ => Int.natCast_nonneg _) _) (Int.natCast_nonneg _)
  cases hstep with
  | tick now => exact ⟨h.waiting, h.idle, h.exhaustion, h.creation⟩
  | call hv => exact h.keep (by rw [hv]; rfl) rfl rfl rfl (fun _ => id) fun _ => id
  | allocate harr _ halloc => exact h.allocate hcalls harr (allocates halloc) hmisses
  | recheck hv hpredicate =>
    exact h.sleep (by rw [hv]; rfl) (by rw [hv]; rfl) ⟨rfl, rfl, rfl, rfl⟩ hcalls hpredicate
  | initializePool hv _ _ hgrow =>
    obtain ⟨-, -, rfl⟩ := grow_eq_ok hgrow
    refine h.keep (by rw [hv]; rfl) rfl rfl rfl (fun _ => id) fun _ hpos => ?_
    exact Int.add_pos_of_pos_of_nonneg hpos (Int.natCast_nonneg _)
  | maintain hv _ _ _ hgrow =>
    obtain ⟨-, -, rfl⟩ := grow_eq_ok hgrow
    refine ⟨h.waiting, h.idle, h.exhaustion, fun hblocked => ?_⟩
    exact Int.add_pos_of_pos_of_nonneg (h.creation hblocked) (Int.natCast_nonneg _)
  | created hdone _ =>
    apply h.announce
    rw [(Thread.of_isApart hdone.isApart).1]
    exact add_zero _
  | createFailed hdone =>
    refine h.keep hdone.isApart (by simp) rfl rfl (fun _ => id) fun hblocked hpos => ?_
    have hlast : s.pool.createCallsInProgress ≠ 1 := fun hone => hmisses ⟨hblocked, hone⟩
    simp only [createFailed]
    omega
  | finishGrow hv _ _ => exact h.keep (by rw [hv]; rfl) rfl rfl rfl (fun _ => id) fun _ => id
  | release hv _ hrelease => exact h.release hv hrelease hmisses
  | setBad _ => exact ⟨h.waiting, h.idle, h.exhaustion, h.creation⟩
  | notifyAll hv => exact h.notifyAll hv
  | notifyOne hv hnotify => exact h.notifyOne hv hnotify
  | readClock hv => exact h.keep (by rw [hv]; rfl) rfl rfl rfl (fun _ => id) fun _ => id
  | @refresh v now _ _ hv hrefresh =>
    obtain ⟨bound, time, hpool⟩ := refreshExpiringSessions_pool options now s.clock s.pool
    rw [hrefresh] at hpool
    subst hpool
    exact h.keep (by rw [hv]; rfl) rfl rfl (List.length_map _) (fun _ => id) fun _ => id
  | wake _ hv =>
    obtain ⟨dissociate, reason, hv⟩ := Thread.isAsleep_iff.mp hv
    rw [hv]
    refine h.move (by rw [hv]; rfl) rfl (by rw [hv]; rfl) ?_ (fun _ => id) fun _ => id
    intro _
    right
    rw [hv]
    simp [Thread.heeds, Thread.wake]

theorem run {spurious : Prop} [DecidableEq χ] {tr : List (Event ι χ)} (h : s.Awake options)
    (hbalanced : s.Balanced)
    (hrun : Run (fun s e s' => Step options spurious s e s' ∧ ¬ s.Misses options e) s tr s') :
    s'.Balanced ∧ s'.Awake options := by
  apply hrun.invariant (P := fun s => s.Balanced ∧ s.Awake options) ⟨hbalanced, h⟩
  rintro s e s' ⟨hbalanced, h⟩ ⟨hstep, hmisses⟩
  exact ⟨hbalanced.step hstep, h.step hbalanced hmisses hstep⟩

end Awake

/-- As long as no step makes a predicate true behind the back of a sleeping thread, none that could
proceed is left asleep. -/
theorem never_stranded {spurious : Prop} [DecidableEq χ] (now : Int) {tr : List (Event ι χ)}
    (h : Run (fun s e s' => Step options spurious s e s' ∧ ¬ s.Misses options e) (make now) tr s) :
    ¬ s.Stranded options := by
  obtain ⟨hbalanced, hawake⟩ := (awake_make now).run (balanced_make now) h
  exact hawake.not_stranded hbalanced

end System

def handOverTrace : List (Event Bool Unit) :=
  checkOutTrace ++ [.call false false, .allocate false false (.wait .exhaustion),
    .release true theSession, .notify true, .allocate false false (.allocated theSession)]

theorem never_stranded_handOver :
    ∃ s : System Bool Unit, Run (fun s e s' =>
        Step oneSession False s e s' ∧ ¬ s.Misses oneSession e) (System.make 0) handOverTrace s ∧
      ¬ s.Stranded oneSession := by
  have hrun : ∃ s : System Bool Unit, Run (fun s e s' =>
      Step oneSession False s e s' ∧ ¬ s.Misses oneSession e) (System.make 0) handOverTrace s := by
    refine ⟨_, .cons ⟨.call rfl, id⟩ (.cons ⟨.allocate (.call rfl) (sortedByCount_unit _) rfl, id⟩
      (.cons ⟨.created (.sync rfl) (.refl _), id⟩ (.cons ⟨.notifyAll rfl, id⟩
      (.cons ⟨.allocate (.grown rfl rfl) (sortedByCount_unit _) rfl, id⟩
      (.cons ⟨.call rfl, id⟩ (.cons ⟨.allocate (.call rfl) (sortedByCount_unit _) rfl, id⟩
      (.cons ⟨.release rfl (List.mem_singleton_self _) rfl, nofun⟩
      (.cons ⟨.notifyOne rfl (.wakes false rfl), id⟩
      (.cons ⟨.allocate (.woken rfl rfl) (sortedByCount_unit _) rfl, id⟩ .nil)))))))))⟩
  obtain ⟨s, h⟩ := hrun
  exact ⟨s, h, System.never_stranded 0 h⟩

def badReleaseTrace : List (Event Bool Unit) :=
  checkOutTrace ++ [.call false false, .allocate false false (.wait .exhaustion),
    .setBad theSession, .release true { theSession with isBad := true }]

theorem stranded_badRelease :
    ∃ s : System Bool Unit, Run (Step oneSession False) (System.make 0) badReleaseTrace s ∧
      s.Stranded oneSession := by
  refine ⟨_, .cons (.call rfl) (.cons (.allocate (.call rfl) (sortedByCount_unit _) rfl)
    (.cons (.created (.sync rfl) (.refl _)) (.cons (.notifyAll rfl)
    (.cons (.allocate (.grown rfl rfl) (sortedByCount_unit _) rfl)
    (.cons (.call rfl) (.cons (.allocate (.call rfl) (sortedByCount_unit _) rfl)
    (.cons (.setBad (List.mem_singleton_self _))
    (.cons (.release rfl (List.mem_singleton_self _) rfl) .nil)))))))), ?_, rfl, ?_⟩
  · intro v hv
    cases v with
    | true => rfl
    | false => cases hv
  · exact ⟨false, false, .exhaustion, rfl, rfl⟩

end SpannerClient.SessionPool
