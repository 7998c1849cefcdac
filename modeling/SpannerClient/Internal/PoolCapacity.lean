import SpannerClient.Internal.PoolAccounting
import Mathlib.Tactic.Linarith

namespace SpannerClient.SessionPool

variable {ι χ : Type}

theorem mem_createCounts {sessionCount : χ → Int} {channels : List χ} {remaining k : Int}
    {call : CreateCount χ} (h : call ∈ createCounts sessionCount channels remaining k) :
    0 < call.sessionCount ∧ call.channel ∈ channels := by
  induction channels generalizing remaining k with
  | nil => cases h
  | cons channel channels ih =>
    simp only [createCounts] at h
    split at h
    · next hlt =>
      rcases List.mem_cons.mp h with rfl | h
      · exact ⟨Int.sub_pos_of_lt hlt, List.mem_cons_self⟩
      · exact ⟨(ih h).1, List.mem_cons_of_mem _ (ih h).2⟩
    · exact ⟨(ih h).1, List.mem_cons_of_mem _ (ih h).2⟩

variable [DecidableEq χ]

def requested (channel : χ) (calls : List (CreateCount χ)) : ℤ :=
  (calls.map fun call => if call.channel = channel then call.sessionCount else 0).sum

@[simp] theorem requested_nil (channel : χ) : requested channel [] = 0 := rfl

@[simp] theorem requested_cons (channel : χ) (call : CreateCount χ)
    (calls : List (CreateCount χ)) : requested channel (call :: calls) =
      (if call.channel = channel then call.sessionCount else 0) + requested channel calls := by
  simp [requested]

theorem requested_eq_zero {channel : χ} {calls : List (CreateCount χ)}
    (h : ∀ call ∈ calls, call.channel ≠ channel) : requested channel calls = 0 := by
  induction calls with
  | nil => rfl
  | cons call calls ih =>
    rw [requested_cons, if_neg (h call List.mem_cons_self),
      ih fun call hcall => h call (List.mem_cons_of_mem _ hcall)]
    rfl

theorem requested_erase {channel : χ} {call : CreateCount χ} {calls : List (CreateCount χ)}
    (h : call ∈ calls) : requested channel calls =
      (if call.channel = channel then call.sessionCount else 0) +
        requested channel (calls.erase call) := by
  rw [← requested_cons]
  exact ((List.perm_cons_erase h).map _).sum_eq

theorem target_le {remaining channels limit : Int} (hchannels : 0 < channels)
    (hremaining : remaining ≤ limit * channels) (hlimit : 0 ≤ limit) :
    (remaining + channels - 1).tdiv channels ≤ limit := by
  have hdiv := Int.mul_tdiv_add_tmod (remaining + channels - 1) channels
  apply Int.le_of_lt_add_one
  apply Int.lt_of_mul_lt_mul_left _ hchannels.le
  have hmul : channels * (limit + 1) = limit * channels + channels := by ring
  rw [hmul]
  rcases lt_or_ge (remaining + channels - 1) 0 with hneg | hpos
  · have hmod := Int.lt_tmod_of_pos (remaining + channels - 1) hchannels
    have hnonneg := mul_nonneg hlimit hchannels.le
    omega
  · have hmod := Int.tmod_nonneg channels hpos
    omega

theorem le_target {remaining channels : Int} (hchannels : 0 < channels) :
    remaining ≤ channels * (remaining + channels - 1).tdiv channels := by
  have hdiv := Int.mul_tdiv_add_tmod (remaining + channels - 1) channels
  have hmod := Int.tmod_lt_of_pos (remaining + channels - 1) hchannels
  omega

theorem remaining_le {remaining channels limit : Int} (hchannels : 0 ≤ channels)
    (hremaining : remaining ≤ limit * (channels + 1)) (hlimit : 0 ≤ limit) :
    remaining - (remaining + (channels + 1) - 1).tdiv (channels + 1) ≤ limit * channels := by
  have htarget := target_le (by omega) hremaining hlimit
  have hle : remaining ≤ (channels + 1) * (remaining + (channels + 1) - 1).tdiv (channels + 1) :=
    le_target (by omega)
  have hmul := mul_le_mul_of_nonneg_right htarget hchannels
  linarith

theorem createCounts_le {sessionCount : χ → Int} {limit : Int} (hlimit : 0 ≤ limit)
    {channels : List χ} (hnodup : channels.Nodup) {remaining : Int}
    (hremaining : remaining ≤ limit * channels.length) {channel : χ}
    (hcount : sessionCount channel ≤ limit) :
    sessionCount channel +
      requested channel (createCounts sessionCount channels remaining channels.length) ≤
        limit := by
  induction channels generalizing remaining with
  | nil => simpa [createCounts] using hcount
  | cons c channels ih =>
    obtain ⟨hnotin, hnodup⟩ := List.nodup_cons.mp hnodup
    rw [List.length_cons, Nat.cast_succ] at hremaining
    have hlen := Int.natCast_nonneg channels.length
    have htarget := target_le (by omega) hremaining hlimit
    have hrest := remaining_le hlen hremaining hlimit
    simp only [createCounts, List.length_cons, Nat.cast_succ, add_sub_cancel_right]
    split
    · next hlt =>
      rw [requested_cons]
      by_cases hc : c = channel
      · -- the channels behind this one do not name it again
        subst hc
        rw [if_pos rfl, requested_eq_zero]
        · dsimp only
          omega
        · rintro call hcall rfl
          exact hnotin (mem_createCounts hcall).2
      · rw [if_neg hc, zero_add]
        apply ih hnodup
        simpa using hrest
    · next hge =>
      apply ih hnodup
      have hge := not_lt.mp hge
      linarith

theorem SortedByCount.length_eq_card [Fintype χ] {p : SessionPool χ} {channels : List χ}
    (h : p.SortedByCount channels) : channels.length = Fintype.card χ := by
  rw [← List.toFinset_card_of_nodup h.nodup, Finset.card_eq_iff_eq_univ]
  ext channel
  simp [h.mem channel]

theorem grow_le [Fintype χ] {options : SessionPoolOptions} {p p' : SessionPool χ}
    {channels : List χ} {sessionsToCreate : Int} {counts : List (CreateCount χ)}
    (hlimit : 0 ≤ options.maxSessionsPerChannel) (hsorted : p.SortedByCount channels)
    (h : p.grow options channels sessionsToCreate = (.ok counts, p')) {channel : χ}
    (hcount : p.sessionCount channel ≤ options.maxSessionsPerChannel) :
    p.sessionCount channel + requested channel counts ≤ options.maxSessionsPerChannel := by
  obtain ⟨-, rfl, -⟩ := grow_eq_ok h
  rw [← hsorted.length_eq_card]
  apply createCounts_le hlimit hsorted.nodup _ hcount
  rw [hsorted.length_eq_card]
  exact min_le_right _ _

namespace System

def inFlight [Fintype ι] (s : System ι χ) (channel : χ) : ℤ :=
  tally (fun t => requested channel t.calls) s.thread + requested channel s.asyncCalls

structure Within [Fintype ι] (limit : Int) (s : System ι χ) : Prop where
  positive : ∀ v, ∀ call ∈ (s.thread v).calls, 0 < call.sessionCount
  positive_async : ∀ call ∈ s.asyncCalls, 0 < call.sessionCount
  bound : ∀ channel, s.pool.sessionCount channel + s.inFlight channel ≤ limit

theorem Completes.requested {s : System ι χ} {v : ι} {call : CreateCount χ}
    {growth : Option (Growth χ)}
    {asyncCalls : List (CreateCount χ)} (h : s.Completes v call growth asyncCalls) (channel : χ) :
    requested channel (s.thread v).calls + requested channel s.asyncCalls =
      (if call.channel = channel then call.sessionCount else 0) +
        requested channel (Thread.announcing growth).calls + requested channel asyncCalls := by
  cases h with
  | sync hv =>
    rw [hv]
    simp [Thread.calls]
  | async hv hmem =>
    rw [hv, requested_erase hmem]
    simp [Thread.calls]

theorem discount_le (p : SessionPool χ) (session : Session χ) (channel : χ) :
    (p.discount session).sessionCount channel ≤ p.sessionCount channel := by
  cases hchannel : session.channel with
  | none => simp [SessionPool.discount, hchannel]
  | some c =>
    by_cases hc : channel = c
    · simp [SessionPool.discount, hchannel, hc]
    · simp [SessionPool.discount, hchannel, hc]

/-- The server creates no more sessions than it is asked for. -/
def Honest : Event ι χ → Prop
  | .created _ call (.ok names) => (names.length : Int) ≤ call.sessionCount
  | _ => True

def Untouched (tr : List (Event ι χ)) : Prop := ∀ e ∈ tr, ∃ now, e = .tick now

def InitializedFirst (tr : List (Event ι χ)) : Prop :=
  ∀ pre v counts post, tr = pre ++ .initializePool v counts :: post → Untouched pre

variable [Fintype ι] {s s' : System ι χ} {v : ι} {limit : Int}

theorem Balanced.idle (h : s.Balanced) (hcalls : s.pool.createCallsInProgress ≤ 0) :
    (∀ v, (s.thread v).calls = []) ∧ s.asyncCalls = [] := by
  have htotal := h.calls
  rw [outstanding] at htotal
  have hnonneg : ∀ t : Thread χ, 0 ≤ t.callsLeft := fun t => Int.natCast_nonneg _
  have htally := tally_nonneg hnonneg s.thread
  constructor
  · intro v
    have hv := le_tally hnonneg s.thread v
    rw [← List.length_eq_zero_iff]
    simp only [Thread.callsLeft] at hv htotal
    omega
  · rw [← List.length_eq_zero_iff]
    omega

theorem inFlight_eq_zero (hidle : (∀ v, (s.thread v).calls = []) ∧ s.asyncCalls = [])
    (channel : χ) : s.inFlight channel = 0 := by
  rw [inFlight, hidle.2, tally_eq_zero]
  · rfl
  · intro v
    rw [hidle.1 v]
    rfl

theorem Within.completes (h : s.Within limit) {call : CreateCount χ}
    {growth : Option (Growth χ)} {asyncCalls : List (CreateCount χ)}
    (hdone : s.Completes v call growth asyncCalls) :
    0 < call.sessionCount ∧
      (∀ call ∈ (Thread.announcing growth).calls, 0 < call.sessionCount) ∧
      ∀ call ∈ asyncCalls, 0 < call.sessionCount := by
  cases hdone with
  | sync hv =>
    have hpositive := h.positive v
    rw [hv] at hpositive
    refine ⟨hpositive call List.mem_cons_self, ?_, h.positive_async⟩
    exact fun call hcall => hpositive call (List.mem_cons_of_mem _ hcall)
  | async _ hmem =>
    refine ⟨h.positive_async call hmem, nofun, ?_⟩
    exact fun call hcall => h.positive_async call (List.mem_of_mem_erase hcall)

theorem Within.grow [Fintype χ] {options : SessionPoolOptions}
    (h : s.Within options.maxSessionsPerChannel)
    (hlimit : 0 ≤ options.maxSessionsPerChannel)
    (hidle : (∀ v, (s.thread v).calls = []) ∧ s.asyncCalls = []) {channels : List χ}
    {pool pool' : SessionPool χ} (hbooks : SameBooks s.pool pool)
    (hsorted : pool.SortedByCount channels) {sessionsToCreate : Int}
    {counts : List (CreateCount χ)}
    (hgrow : pool.grow options channels sessionsToCreate = (.ok counts, pool')) :
    (∀ call ∈ counts, 0 < call.sessionCount) ∧ ∀ channel,
      pool'.sessionCount channel + requested channel counts ≤ options.maxSessionsPerChannel := by
  constructor
  · obtain ⟨-, rfl, -⟩ := grow_eq_ok hgrow
    exact fun call hcall => (mem_createCounts hcall).1
  · intro channel
    have hbound := h.bound channel
    rw [inFlight_eq_zero hidle, add_zero, ← hbooks.count] at hbound
    have hle := grow_le hlimit hsorted hgrow hbound
    obtain ⟨-, -, rfl⟩ := grow_eq_ok hgrow
    exact hle

theorem within_make (now : Int) {limit : Int} (hlimit : 0 ≤ limit) :
    (make now : System ι χ).Within limit where
  positive := nofun
  positive_async := nofun
  bound channel := by
    rw [inFlight_eq_zero ⟨fun _ => rfl, rfl⟩]
    simpa [make, SessionPool.make] using hlimit

variable [DecidableEq ι]

namespace Within

theorem move (h : s.Within limit) {pool : SessionPool χ} {clock : Int} {objects : Nat}
    {t : Thread χ} {checkedOut : List (Session χ)} {asyncCalls : List (CreateCount χ)}
    (hpositive : ∀ call ∈ t.calls, 0 < call.sessionCount)
    (hasync : ∀ call ∈ asyncCalls, 0 < call.sessionCount)
    (hbound : ∀ channel, pool.sessionCount channel + s.inFlight channel -
      requested channel (s.thread v).calls - requested channel s.asyncCalls +
        requested channel t.calls + requested channel asyncCalls ≤ limit) :
    Within limit
      ⟨pool, clock, objects, Function.update s.thread v t, checkedOut, asyncCalls⟩ where
  positive w := by
    by_cases hw : w = v
    · subst hw
      simpa using hpositive
    · simpa [hw] using h.positive w
  positive_async := hasync
  bound channel := by
    have hs := hbound channel
    simp only [inFlight, tally_update] at hs ⊢
    omega

theorem notify (h : s.Within limit) {thread : ι → Thread χ} {t : Thread χ}
    (hthread : ∀ w, (thread w).calls = (s.thread w).calls)
    (ht : t.calls = (s.thread v).calls) :
    Within limit { s with thread := Function.update thread v t } := by
  have hframe := update_frame_trans hthread ht
  refine ⟨fun w => ?_, h.positive_async, fun channel => ?_⟩
  · rw [hframe w]
    exact h.positive w
  · have hbound := h.bound channel
    rw [inFlight] at hbound ⊢
    have htally : tally (fun u => requested channel u.calls) (Function.update thread v t) =
        tally (fun u => requested channel u.calls) s.thread :=
      tally_congr fun w => congrArg (requested channel) (hframe w)
    rwa [htally]

theorem keep (h : s.Within limit) {pool : SessionPool χ} {clock : Int} {objects : Nat}
    {t : Thread χ} {checkedOut : List (Session χ)}
    (hcount : ∀ channel, pool.sessionCount channel ≤ s.pool.sessionCount channel)
    (hcalls : t.calls = (s.thread v).calls) :
    Within limit
      ⟨pool, clock, objects, Function.update s.thread v t, checkedOut, s.asyncCalls⟩ := by
  apply h.move _ h.positive_async
  · intro channel
    have hbound := h.bound channel
    have hle := hcount channel
    rw [hcalls]
    omega
  · rw [hcalls]
    exact h.positive v

end Within

variable [Fintype χ] {options : SessionPoolOptions} {spurious : Prop}

namespace Within

theorem create (h : s.Within options.maxSessionsPerChannel)
    (hlimit : 0 ≤ options.maxSessionsPerChannel)
    (hidle : (∀ v, (s.thread v).calls = []) ∧ s.asyncCalls = []) {channels : List χ}
    {pool pool' : SessionPool χ} (hbooks : SameBooks s.pool pool)
    (hsorted : pool.SortedByCount channels) {sessionsToCreate : Int}
    {counts : List (CreateCount χ)}
    (hgrow : pool.grow options channels sessionsToCreate = (.ok counts, pool'))
    (caller : Caller) :
    Within options.maxSessionsPerChannel { s with
      pool := pool'
      thread := Function.update s.thread v (.creating ⟨caller, counts, .success⟩) } := by
  obtain ⟨hpositive, hbound⟩ := h.grow hlimit hidle hbooks hsorted hgrow
  apply h.move (t := .creating ⟨caller, counts, .success⟩) hpositive h.positive_async
  intro channel
  have hchannel := hbound channel
  rw [inFlight_eq_zero hidle, hidle.1 v, hidle.2]
  simpa [Thread.calls] using hchannel

theorem step (h : s.Within options.maxSessionsPerChannel)
    (hlimit : 0 ≤ options.maxSessionsPerChannel) (hbalanced : s.Balanced) {e : Event ι χ}
    (hhonest : Honest e)
    (hinit : ∀ v counts, e = .initializePool v counts → s.pool.createCallsInProgress ≤ 0)
    (hstep : Step options spurious s e s') : s'.Within options.maxSessionsPerChannel := by
  cases hstep with
  | tick now => exact ⟨h.positive, h.positive_async, h.bound⟩
  | call hv => exact h.keep (fun _ => le_rfl) (by rw [hv]; rfl)
  | allocate harr hsorted halloc =>
    have hbooks := harr.sameBooks
    have hcalls := harr.calls
    have hcount : ∀ channel, _ ≤ s.pool.sessionCount channel := fun channel =>
      (congrFun hbooks.count channel).le
    cases allocates halloc with
    | checkOut _ | fail _ | wait _ _ => exact h.keep hcount hcalls.symm
    | dissociate _ =>
      exact h.keep (fun channel => (discount_le _ _ channel).trans (hcount channel)) hcalls.symm
    | create _ _ hidle hgrow =>
      have hidle := hbalanced.idle (hbooks.calls ▸ hidle)
      exact h.create hlimit hidle hbooks hsorted hgrow _
  | recheck hv _ => exact h.keep (fun _ => le_rfl) (by rw [hv]; rfl)
  | initializePool hv _ hsorted hgrow =>
    have hidle := hbalanced.idle (hinit _ _ rfl)
    exact h.create hlimit hidle ⟨rfl, rfl, rfl, rfl⟩ hsorted hgrow _
  | maintain hv hcalls _ hsorted hgrow =>
    have hidle := hbalanced.idle hcalls.le
    obtain ⟨hpositive, hbound⟩ := h.grow hlimit hidle ⟨rfl, rfl, rfl, rfl⟩ hsorted hgrow
    refine ⟨h.positive, ?_, fun channel => ?_⟩
    · simpa [hidle.2] using hpositive
    · have hzero := inFlight_eq_zero hidle channel
      have hchannel := hbound channel
      simp only [inFlight, hidle.2, requested_nil, List.nil_append] at hzero ⊢
      omega
  | @created v call growth _ names shuffled hdone hperm =>
    obtain ⟨hcall, hgrowth, hasync⟩ := h.completes hdone
    apply h.move hgrowth hasync
    intro channel
    have hbound := h.bound channel
    have hrequested := hdone.requested channel
    have hnames : (names.length : Int) ≤ call.sessionCount := hhonest
    by_cases hc : call.channel = channel
    · subst hc
      simp only [SessionPool.created, Function.update_self, if_true] at hrequested ⊢
      omega
    · simp only [SessionPool.created, Function.update_of_ne (Ne.symm hc), if_neg hc] at hrequested ⊢
      omega
  | @createFailed v call growth _ _ hdone =>
    obtain ⟨hcall, hgrowth, hasync⟩ := h.completes hdone
    apply h.move _ hasync
    · intro channel
      have hbound := h.bound channel
      have hrequested := hdone.requested channel
      simp only [SessionPool.createFailed, Thread.calls_resume, Thread.calls_announcing_map]
      split at hrequested <;> omega
    · simpa using hgrowth
  | finishGrow hv hnil _ => exact h.keep (fun _ => le_rfl) (by rw [hv]; exact hnil.symm)
  | release hv _ hrelease =>
    rw [SessionPool.release] at hrelease
    split at hrelease
    · cases hrelease
      exact h.keep (discount_le _ _) (by rw [hv]; rfl)
    · cases hrelease
      exact h.keep (fun _ => le_rfl) (by rw [hv]; split <;> rfl)
  | setBad _ => exact ⟨h.positive, h.positive_async, h.bound⟩
  | notifyAll hv => exact h.notify (cond.notifyAll_frame Thread.calls_wake _) (by simp [hv])
  | notifyOne hv hnotify => exact h.notify (hnotify.frame Thread.calls_wake) (by rw [hv]; rfl)
  | readClock hv => exact h.keep (fun _ => le_rfl) (by rw [hv]; rfl)
  | @refresh v now _ _ hv hrefresh =>
    obtain ⟨bound, time, hpool⟩ := refreshExpiringSessions_pool options now s.clock s.pool
    rw [hrefresh] at hpool
    subst hpool
    exact h.keep (fun _ => le_rfl) (by rw [hv]; rfl)
  | wake _ _ => exact h.keep (fun _ => le_rfl) (by simp)

theorem run (hlimit : 0 ≤ options.maxSessionsPerChannel) {s₀ : System ι χ}
    (h : s₀.Within options.maxSessionsPerChannel) (hbalanced : s₀.Balanced)
    (hcalls : s₀.pool.createCallsInProgress ≤ 0) {tr : List (Event ι χ)}
    (hrun : Run (Step options spurious) s₀ tr s) (hhonest : ∀ e ∈ tr, Honest e)
    (hinit : InitializedFirst tr) : s.Within options.maxSessionsPerChannel := by
  have hall : s.Balanced ∧ (Untouched tr → s.pool.createCallsInProgress ≤ 0) ∧
      ((∀ e ∈ tr, Honest e) → InitializedFirst tr → s.Within options.maxSessionsPerChannel) := by
    apply hrun.history (P := fun tr s => s.Balanced ∧
      (Untouched tr → s.pool.createCallsInProgress ≤ 0) ∧ ((∀ e ∈ tr, Honest e) →
        InitializedFirst tr → s.Within options.maxSessionsPerChannel))
    · exact ⟨hbalanced, fun _ => hcalls, fun _ _ => h⟩
    · rintro tr s e s' ⟨hbalanced, huntouched, hwithin⟩ hstep
      refine ⟨hbalanced.step hstep, fun htr => ?_, fun hhonest hinit => ?_⟩
      · obtain ⟨now, rfl⟩ := htr e (by simp)
        cases hstep with
        | tick => exact huntouched fun e he => htr e (List.mem_append_left _ he)
      · have hs : s.Within options.maxSessionsPerChannel := by
          apply hwithin fun e' he' => hhonest e' (List.mem_append_left _ he')
          rintro pre v counts post rfl
          exact hinit pre v counts (post ++ [e]) (by simp)
        apply hs.step hlimit hbalanced (hhonest e (by simp)) _ hstep
        rintro v counts rfl
        exact huntouched (hinit tr v counts [] rfl)
  exact hall.2.2 hhonest hinit

end Within

/-- Sessions and requests in flight stay within the limits of the pool and of each channel, where
`Initialize()` is called right after the construction of the pool, if at all. -/
theorem pool_capacity (o : SessionPoolOptions) (now : Int) {tr : List (Event ι χ)}
    (h : Run (Step (o.enforceConstraints (Fintype.card χ)) spurious) (make now) tr s)
    (hhonest : ∀ e ∈ tr, Honest e)
    (hinit : InitializedFirst tr) :
    s.pool.totalSessions + ∑ channel, s.inFlight channel ≤
        maxPoolSize χ (o.enforceConstraints (Fintype.card χ)) ∧
      ∀ channel, s.pool.sessionCount channel + s.inFlight channel ≤
        (o.enforceConstraints (Fintype.card χ)).maxSessionsPerChannel := by
  have hlimit : 0 ≤ (o.enforceConstraints (Fintype.card χ)).maxSessionsPerChannel :=
    zero_le_one.trans (o.one_le_maxSessionsPerChannel _)
  have hwithin := (within_make now hlimit).run hlimit (balanced_make now) le_rfl h hhonest hinit
  refine ⟨?_, hwithin.bound⟩
  calc
    s.pool.totalSessions + ∑ channel, s.inFlight channel
        = ∑ channel, (s.pool.sessionCount channel + s.inFlight channel) := by
      rw [Finset.sum_add_distrib, ((balanced_make now).run h).accounts.sum_count]
    _ ≤ ∑ _channel : χ, (o.enforceConstraints (Fintype.card χ)).maxSessionsPerChannel :=
      Finset.sum_le_sum fun channel _ => hwithin.bound channel
    _ = maxPoolSize χ (o.enforceConstraints (Fintype.card χ)) := by
      rw [Finset.sum_const, maxPoolSize, Finset.card_univ, nsmul_eq_mul, mul_comm]

end System

theorem pool_capacity_checkOut :
    ∃ s : System Bool Unit,
      Run (Step (oneSession.enforceConstraints (Fintype.card Unit)) False) (System.make 0)
        checkOutTrace s ∧
      s.pool.totalSessions + ∑ channel, s.inFlight channel ≤
        maxPoolSize Unit (oneSession.enforceConstraints (Fintype.card Unit)) ∧
      ∀ channel, s.pool.sessionCount channel + s.inFlight channel ≤
        (oneSession.enforceConstraints (Fintype.card Unit)).maxSessionsPerChannel := by
  obtain ⟨s, h, -⟩ := run_checkOut
  refine ⟨s, h, System.pool_capacity oneSession 0 h (by simp [checkOutTrace, System.Honest]) ?_⟩
  intro pre v counts post htr
  have hmem : Event.initializePool v counts ∈ checkOutTrace := by simp [htr]
  simp [checkOutTrace] at hmem

end SpannerClient.SessionPool
