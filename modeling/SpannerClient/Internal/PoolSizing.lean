import SpannerClient.Internal.PoolMaintenance
import SpannerClient.TimestampChrono

namespace SpannerClient

open NumericLimits

def SessionPoolOptions.enforceConstraintsOf (o : SessionPoolOptions) (numChannels : Int) :
    Option SessionPoolOptions := do
  let maxSessionsPerChannel := max o.maxSessionsPerChannel 1
  let limit ← int32.mul maxSessionsPerChannel numChannels
  some { o with
    minSessions := min (max o.minSessions 0) limit
    maxSessionsPerChannel
    maxIdleSessions := max o.maxIdleSessions 0 }

namespace SessionPool

variable {χ : Type}

def sizes (χ : Type) [Fintype χ] (o : SessionPoolOptions) : Option (SessionPoolOptions × Int) := do
  let options ← o.enforceConstraintsOf (Fintype.card χ)
  let size ← int32.mul options.maxSessionsPerChannel (Fintype.card χ)
  some (options, size)

def createCountsOf (sessionCount : χ → Int) :
    List χ → Int → Int → Option (List (CreateCount χ))
  | [], _, _ => some []
  | channel :: channels, sessionsRemaining, channelsRemaining => do
    let sum ← int32.add sessionsRemaining channelsRemaining
    let dividend ← int32.sub sum 1
    let target ← int32.div dividend channelsRemaining
    let channelsRemaining ← int32.sub channelsRemaining 1
    if sessionCount channel < target then do
      let sessionsToCreate ← int32.sub target (sessionCount channel)
      let sessionsRemaining ← int32.sub sessionsRemaining target
      let counts ← createCountsOf sessionCount channels sessionsRemaining channelsRemaining
      some (⟨channel, sessionsToCreate⟩ :: counts)
    else do
      let sessionsRemaining ← int32.sub sessionsRemaining (sessionCount channel)
      createCountsOf sessionCount channels sessionsRemaining channelsRemaining

variable [Fintype χ]

def computeCreateCountsOf (size : Int) (channelsByCount : List χ) (sessionsToCreate : Int)
    (p : SessionPool χ) : Option (StatusOr (List (CreateCount χ))) :=
  if p.totalSessions = size then some (.error exhausted)
  else do
    let sum ← int32.add p.totalSessions sessionsToCreate
    let counts ← createCountsOf p.sessionCount channelsByCount (min sum size) (Fintype.card χ)
    some (.ok counts)

def growOf (size : Int) (channelsByCount : List χ) (sessionsToCreate : Int) (p : SessionPool χ) :
    Option (StatusOr (List (CreateCount χ)) × SessionPool χ) := do
  match ← p.computeCreateCountsOf size channelsByCount sessionsToCreate with
  | .error e => some (.error e, p)
  | .ok counts => do
    let calls ← int32.add p.createCallsInProgress counts.length
    some (.ok counts, { p with createCallsInProgress := calls })

def allocateOf [DecidableEq χ] (options : SessionPoolOptions) (size : Int)
    (channelsByCount : List χ) (dissociate : Bool) (p : SessionPool χ) :
    Option (Allocation χ × SessionPool χ) :=
  match p.sessions.getLast? with
  | some session =>
    let p := { p with sessions := p.sessions.dropLast }
    some (.allocated session, if dissociate then p.discount session else p)
  | none =>
    if size ≤ p.totalSessions then
      match options.actionOnExhaustion with
      | .fail => some (.failed exhausted, p)
      | .block =>
        some (.wait .exhaustion, { p with numWaitingForSession := p.numWaitingForSession + 1 })
    else if 0 < p.createCallsInProgress then
      some (.wait .creation, { p with numWaitingForSession := p.numWaitingForSession + 1 })
    else do
      let sessionsToCreate ← int32.add options.minSessions 1
      match ← p.growOf size channelsByCount sessionsToCreate with
      | (.error e, p) => some (.failed e, p)
      | (.ok counts, p) => some (.create counts, p)

def maintainPoolSizeOf (options : SessionPoolOptions) (size : Int) (channelsByCount : List χ)
    (p : SessionPool χ) : Option (List (CreateCount χ) × SessionPool χ) :=
  if p.createCallsInProgress = 0 ∧ p.totalSessions < options.minSessions then do
    let sessionsToCreate ← int32.sub p.totalSessions options.minSessions
    match ← p.growOf size channelsByCount sessionsToCreate with
    | (.error _, p) => some ([], p)
    | (.ok counts, p) => some (counts, p)
  else some ([], p)

theorem int_holds {n : Int} (h : -2147483647 ≤ n ∧ n ≤ 2147483647) : int32.Holds n :=
  ⟨Int.le_trans (by decide) h.1, h.2⟩

omit [Fintype χ] in
theorem target_le_remaining {remaining channels : Int} (hchannels : 0 < channels) :
    (remaining + channels - 1).tdiv channels ≤ max remaining 0 := by
  apply target_le hchannels _ (le_max_right _ _)
  have hone : max remaining 0 * 1 ≤ max remaining 0 * channels :=
    mul_le_mul_of_nonneg_left hchannels (le_max_right _ _)
  have hle := le_max_left remaining 0
  omega

omit [Fintype χ] in
theorem createCountsOf_eq {sessionCount : χ → Int} {channels : List χ} {remaining : Int}
    (hcount : ∀ channel ∈ channels, 0 ≤ sessionCount channel)
    (hsum : (channels.map sessionCount).sum ≤ 2147483647)
    (hlow : (channels.map sessionCount).sum ≤ remaining + 2147483647)
    (hhigh : remaining + channels.length ≤ 2147483647)
    (hlength : (channels.length : Int) ≤ 2147483647) :
    createCountsOf sessionCount channels remaining channels.length =
      some (createCounts sessionCount channels remaining channels.length) := by
  induction channels generalizing remaining with
  | nil => rfl
  | cons channel channels ih =>
    have hcounts : ∀ c ∈ channels, 0 ≤ sessionCount c :=
      fun c hc => hcount c (List.mem_cons_of_mem _ hc)
    have hnonneg := hcount channel List.mem_cons_self
    have hrest : 0 ≤ (channels.map sessionCount).sum := by
      apply List.sum_nonneg
      simpa using hcounts
    rw [List.map_cons, List.sum_cons] at hsum hlow
    rw [List.length_cons, Nat.cast_succ] at hhigh hlength ⊢
    have hk := Int.natCast_nonneg channels.length
    generalize (channels.length : Int) = k at hhigh hlength hk ih ⊢
    have hadd : int32.add remaining (k + 1) = some (remaining + (k + 1)) :=
      add_eq (int_holds (by omega))
    have hdividend : int32.sub (remaining + (k + 1)) 1 = some (remaining + (k + 1) - 1) :=
      sub_eq (int_holds (by omega))
    have hdiv : int32.div (remaining + (k + 1) - 1) (k + 1) =
        some ((remaining + (k + 1) - 1).tdiv (k + 1)) :=
      div_eq (int_holds (by omega)) (by omega)
    have hpred : int32.sub (k + 1) 1 = some k := sub_eq_of_eq (by omega) (int_holds (by omega))
    have htarget : (remaining + (k + 1) - 1).tdiv (k + 1) ≤ max remaining 0 :=
      target_le_remaining (by omega)
    rw [createCountsOf, createCounts]
    simp only [hadd, hdividend, hdiv, hpred, Option.bind_eq_bind, Option.bind_some,
      add_sub_cancel_right]
    generalize (remaining + (k + 1) - 1).tdiv (k + 1) = target at htarget
    by_cases hless : sessionCount channel < target
    · have hcreate : int32.sub target (sessionCount channel) =
          some (target - sessionCount channel) := sub_eq (int_holds (by omega))
      have hremaining : int32.sub remaining target = some (remaining - target) :=
        sub_eq (int_holds (by omega))
      have hcounts := ih hcounts (by omega) (show _ ≤ remaining - target + _ by omega) (by omega)
        (by omega)
      simp only [if_pos hless, hcreate, hremaining, hcounts, Option.bind_some]
    · have hremaining : int32.sub remaining (sessionCount channel) =
          some (remaining - sessionCount channel) := sub_eq (int_holds (by omega))
      have hcounts := ih hcounts (by omega)
        (show _ ≤ remaining - sessionCount channel + _ by omega) (by omega) (by omega)
      simp only [if_neg hless, hremaining, hcounts, Option.bind_some]

omit [Fintype χ] in
theorem length_createCounts_le (sessionCount : χ → Int) (channels : List χ) (remaining k : Int) :
    (createCounts sessionCount channels remaining k).length ≤ channels.length := by
  induction channels generalizing remaining k with
  | nil => exact le_rfl
  | cons channel channels ih =>
    simp only [createCounts]
    split
    · exact Nat.succ_le_succ (ih _ _)
    · exact (ih _ _).trans (Nat.le_succ _)

section Growth

variable {options : SessionPoolOptions} {p : SessionPool χ} {channels : List χ}

structure Counted (options : SessionPoolOptions) (p : SessionPool χ) : Prop where
  count : ∀ channel, 0 ≤ p.sessionCount channel
  sum : ∑ channel, p.sessionCount channel = p.totalSessions
  total_le : p.totalSessions ≤ maxPoolSize χ options
  idle : p.createCallsInProgress = 0

theorem Counted.of_sameBooks {p' : SessionPool χ} (h : p.Counted options)
    (hbooks : SameBooks p p') : p'.Counted options where
  count channel := by rw [hbooks.count]; exact h.count channel
  sum := by rw [hbooks.count, hbooks.total]; exact h.sum
  total_le := by rw [hbooks.total]; exact h.total_le
  idle := hbooks.calls.trans h.idle

theorem Counted.total_nonneg (h : p.Counted options) : 0 ≤ p.totalSessions := by
  rw [← h.sum]
  exact Finset.sum_nonneg fun channel _ => h.count channel

theorem growOf_eq [DecidableEq χ] (h : p.Counted options) (hsorted : p.SortedByCount channels)
    (hfits : maxPoolSize χ options + Fintype.card χ ≤ 2147483647) {sessionsToCreate : Int}
    (hcreate : -2147483647 ≤ sessionsToCreate)
    (hadd : p.totalSessions ≠ maxPoolSize χ options →
      p.totalSessions + sessionsToCreate ≤ 2147483647) :
    p.growOf (maxPoolSize χ options) channels sessionsToCreate =
      some (p.grow options channels sessionsToCreate) := by
  have htotal := h.total_le
  have hnonneg := h.total_nonneg
  have hlength := hsorted.length_eq_card
  have hcard := Int.natCast_nonneg (Fintype.card χ)
  rw [growOf, computeCreateCountsOf, grow, computeCreateCounts]
  by_cases hfull : p.totalSessions = maxPoolSize χ options
  · simp [hfull]
  · have hsum : int32.add p.totalSessions sessionsToCreate =
        some (p.totalSessions + sessionsToCreate) :=
      add_eq (int_holds (by have := hadd hfull; omega))
    have hcounted : (channels.map p.sessionCount).sum = p.totalSessions :=
      hsorted.sum_eq.trans h.sum
    generalize htarget :
      min (p.totalSessions + sessionsToCreate) (maxPoolSize χ options) = target
    have hcounts := @createCountsOf_eq χ p.sessionCount channels target
      (fun channel _ => h.count channel) (by omega) (by omega) (by omega) (by omega)
    rw [hlength] at hcounts
    have hcalls : int32.add p.createCallsInProgress
        (createCounts p.sessionCount channels target (Fintype.card χ)).length =
          some (p.createCallsInProgress +
            (createCounts p.sessionCount channels target (Fintype.card χ)).length) := by
      have hle := length_createCounts_le p.sessionCount channels target (Fintype.card χ)
      have hidle := h.idle
      exact add_eq (int_holds (by omega))
    simp only [if_neg hfull, hsum, htarget, hcounts, hcalls, Option.bind_eq_bind, Option.bind_some]

variable [DecidableEq χ]

/-- Room for the largest sums: the pool is one short of full, and grows by one more than the
minimum, over all its channels. -/
structure Room (χ : Type) [Fintype χ] (options : SessionPoolOptions) : Prop where
  min_nonneg : 0 ≤ options.minSessions
  channels : maxPoolSize χ options + Fintype.card χ ≤ 2147483647
  sessions : maxPoolSize χ options + options.minSessions ≤ 2147483647

theorem allocateOf_eq (h : p.createCallsInProgress ≤ 0 → p.Counted options)
    (hsorted : p.SortedByCount channels) (hroom : Room χ options) (dissociate : Bool) :
    p.allocateOf options (maxPoolSize χ options) channels dissociate =
      some (p.allocate options channels dissociate) := by
  have hmin := hroom.min_nonneg
  have hsessions := hroom.sessions
  rw [allocateOf, allocate]
  cases p.sessions.getLast? with
  | some session => rfl
  | none =>
    by_cases hfull : maxPoolSize χ options ≤ p.totalSessions
    · simp only [if_pos hfull]
      cases options.actionOnExhaustion <;> rfl
    · by_cases hcalls : 0 < p.createCallsInProgress
      · simp only [if_neg hfull, if_pos hcalls]
      · have hcounted := h (by omega)
        have hnonneg := hcounted.total_nonneg
        have hcreate : int32.add options.minSessions 1 = some (options.minSessions + 1) :=
          add_eq (int_holds (by omega))
        have hgrow : p.growOf (maxPoolSize χ options) channels (options.minSessions + 1) =
            some (p.grow options channels (options.minSessions + 1)) :=
          growOf_eq hcounted hsorted hroom.channels (by omega) (by omega)
        simp only [if_neg hfull, if_neg hcalls, hcreate, hgrow, Option.bind_eq_bind,
          Option.bind_some]
        cases p.grow options channels (options.minSessions + 1) with
        | mk counts p' => cases counts <;> rfl

theorem maintainPoolSizeOf_eq (h : p.createCallsInProgress ≤ 0 → p.Counted options)
    (hsorted : p.SortedByCount channels) (hroom : Room χ options) :
    p.maintainPoolSizeOf options (maxPoolSize χ options) channels =
      some (p.maintainPoolSize options channels) := by
  have hmin := hroom.min_nonneg
  have hsessions := hroom.sessions
  rw [maintainPoolSizeOf, maintainPoolSize]
  by_cases hshort : p.createCallsInProgress = 0 ∧ p.totalSessions < options.minSessions
  · have hcounted := h hshort.1.le
    have hnonneg := hcounted.total_nonneg
    have hle := hcounted.total_le
    have hcreate : int32.sub p.totalSessions options.minSessions =
        some (p.totalSessions - options.minSessions) := sub_eq (int_holds (by omega))
    have hgrow : p.growOf (maxPoolSize χ options) channels
        (p.totalSessions - options.minSessions) =
          some (p.grow options channels (p.totalSessions - options.minSessions)) :=
      growOf_eq hcounted hsorted hroom.channels (by omega) (by omega)
    simp only [if_pos hshort, hcreate, hgrow, Option.bind_eq_bind, Option.bind_some]
    cases p.grow options channels (p.totalSessions - options.minSessions) with
    | mk counts p' => cases counts <;> rfl
  · simp only [if_neg hshort]

end Growth

namespace System

variable {ι : Type} [DecidableEq ι] [Fintype ι] [DecidableEq χ]

/-- The critical sections that grow the pool do in an `int` what they do over the integers. -/
structure GrowsExactly (options : SessionPoolOptions) (size : Int) (tr : List (Event ι χ))
    (s : System ι χ) : Prop where
  initializePool : Untouched tr → 0 < options.minSessions → ∀ channels,
    s.pool.SortedByCount channels → s.pool.growOf size channels options.minSessions =
      some (s.pool.grow options channels options.minSessions)
  allocate : ∀ v dissociate pool channels, s.Arrives options v dissociate pool →
    pool.SortedByCount channels → pool.allocateOf options size channels dissociate =
      some (pool.allocate options channels dissociate)
  maintain : ∀ channels, s.pool.SortedByCount channels →
    s.pool.maintainPoolSizeOf options size channels =
      some (s.pool.maintainPoolSize options channels)

variable {o : SessionPoolOptions} {options : SessionPoolOptions} {spurious : Prop} {now : Int}
  {tr : List (Event ι χ)} {s : System ι χ}

omit [Fintype ι] in
theorem calls_of_untouched (h : Run (Step options spurious) (make now) tr s)
    (huntouched : Untouched tr) : s.pool.createCallsInProgress = 0 := by
  apply h.history (P := fun tr s => Untouched tr → s.pool.createCallsInProgress = 0)
    (fun _ => rfl) _ huntouched
  rintro tr s e s' ih hstep htr
  obtain ⟨now, rfl⟩ := htr e (by simp)
  cases hstep with
  | tick => exact ih fun e he => htr e (List.mem_append_left _ he)

theorem counted_of_idle
    (h : Run (Step (o.enforceConstraints (Fintype.card χ)) spurious) (make now) tr s)
    (hhonest : ∀ e ∈ tr, Honest e) (hinit : InitializedFirst tr)
    (hidle : s.pool.createCallsInProgress ≤ 0) :
    s.pool.Counted (o.enforceConstraints (Fintype.card χ)) := by
  have hbalanced := (balanced_make now).run h
  obtain ⟨-, -, hsum, hcount, hcalls⟩ := pool_accounting now h
  obtain ⟨hcapacity, -⟩ := pool_capacity o now h hhonest hinit
  have hzero := inFlight_eq_zero (hbalanced.idle hidle)
  refine ⟨hcount, hsum, ?_, ?_⟩
  · simpa [hzero] using hcapacity
  · have htally : 0 ≤ s.outstanding := by
      have hthreads : 0 ≤ tally Thread.callsLeft s.thread :=
        tally_nonneg (fun _ => Int.natCast_nonneg _) s.thread
      rw [outstanding]
      omega
    omega

theorem growsExactly
    (hroom : Room χ (o.enforceConstraints (Fintype.card χ)))
    (h : Run (Step (o.enforceConstraints (Fintype.card χ)) spurious) (make now) tr s)
    (hhonest : ∀ e ∈ tr, Honest e) (hinit : InitializedFirst tr) :
    GrowsExactly (o.enforceConstraints (Fintype.card χ))
      (maxPoolSize χ (o.enforceConstraints (Fintype.card χ))) tr s := by
  have hcounted := counted_of_idle h hhonest hinit
  have hmin := hroom.min_nonneg
  have hsessions := hroom.sessions
  refine ⟨?_, ?_, fun channels hsorted => maintainPoolSizeOf_eq hcounted hsorted hroom⟩
  · intro huntouched _ channels hsorted
    have hstart := hcounted (calls_of_untouched h huntouched).le
    have hle := hstart.total_le
    exact growOf_eq hstart hsorted hroom.channels (by omega) (by omega)
  · intro v dissociate pool channels harrives hsorted
    have hbooks := harrives.sameBooks
    exact allocateOf_eq (fun hidle => (hcounted (hbooks.calls ▸ hidle)).of_sameBooks hbooks) hsorted
      hroom dissociate

end System

variable [DecidableEq χ]

structure Sized (χ : Type) [Fintype χ] [DecidableEq χ] (o : SessionPoolOptions) : Prop where
  sizes_eq : sizes χ o = some (o.enforceConstraints (Fintype.card χ),
    maxPoolSize χ (o.enforceConstraints (Fintype.card χ)))
  min_nonneg : 0 ≤ (o.enforceConstraints (Fintype.card χ)).minSessions
  min_le : (o.enforceConstraints (Fintype.card χ)).minSessions ≤
    maxPoolSize χ (o.enforceConstraints (Fintype.card χ))
  size_pos : 1 ≤ maxPoolSize χ (o.enforceConstraints (Fintype.card χ))
  grows : ∀ (ι : Type) [DecidableEq ι] [Fintype ι] (spurious : Prop) (now : Int)
    (tr : List (Event ι χ)) (s : System ι χ),
    Run (Step (o.enforceConstraints (Fintype.card χ)) spurious) (System.make now) tr s →
      (∀ e ∈ tr, System.Honest e) → System.InitializedFirst tr →
        s.GrowsExactly (o.enforceConstraints (Fintype.card χ))
          (maxPoolSize χ (o.enforceConstraints (Fintype.card χ))) tr

section Options

variable {o : SessionPoolOptions}

omit [DecidableEq χ] in
theorem size_pos [Nonempty χ] : 1 ≤ maxPoolSize χ (o.enforceConstraints (Fintype.card χ)) := by
  have hcard : (0 : Int) < Fintype.card χ := by exact_mod_cast Fintype.card_pos
  have hmax := o.one_le_maxSessionsPerChannel (Fintype.card χ)
  exact Int.mul_pos (by omega) hcard

omit [DecidableEq χ] in
theorem min_nonneg_of_size
    (h : 0 ≤ maxPoolSize χ (o.enforceConstraints (Fintype.card χ))) :
    0 ≤ (o.enforceConstraints (Fintype.card χ)).minSessions :=
  le_min (le_max_right _ _) h

omit [DecidableEq χ] in
theorem min_le_size : (o.enforceConstraints (Fintype.card χ)).minSessions ≤
    maxPoolSize χ (o.enforceConstraints (Fintype.card χ)) :=
  min_le_right _ _

omit [DecidableEq χ] in
theorem sizes_eq_some
    (h : int32.Holds (maxPoolSize χ (o.enforceConstraints (Fintype.card χ)))) :
    sizes χ o = some (o.enforceConstraints (Fintype.card χ),
      maxPoolSize χ (o.enforceConstraints (Fintype.card χ))) := by
  have hmul : int32.mul (max o.maxSessionsPerChannel 1) (Fintype.card χ) =
      some (max o.maxSessionsPerChannel 1 * Fintype.card χ) := mul_eq h
  simp only [sizes, SessionPoolOptions.enforceConstraintsOf, hmul, Option.bind_eq_bind,
    Option.bind_some]
  rfl

theorem sized_of_room [Nonempty χ]
    (h : Room χ (o.enforceConstraints (Fintype.card χ))) : Sized χ o where
  sizes_eq := sizes_eq_some (int_holds (by
    have hchannels := h.channels
    have hpos := @size_pos χ _ o _
    omega))
  min_nonneg := h.min_nonneg
  min_le := min_le_size
  size_pos := size_pos
  grows _ _ _ _ _ _ _ hrun hhonest hinit := System.growsExactly h hrun hhonest hinit

end Options

end SessionPool

end SpannerClient
