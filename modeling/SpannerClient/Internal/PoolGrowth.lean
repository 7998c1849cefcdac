import SpannerClient.Internal.PoolCapacity

namespace SpannerClient.SessionPool

variable {χ : Type} {sessionCount : χ → Int}

def sessionsRequested (calls : List (CreateCount χ)) : Int :=
  (calls.map CreateCount.sessionCount).sum

@[simp] theorem sessionsRequested_nil : sessionsRequested ([] : List (CreateCount χ)) = 0 := rfl

@[simp] theorem sessionsRequested_cons (call : CreateCount χ) (calls : List (CreateCount χ)) :
    sessionsRequested (call :: calls) = call.sessionCount + sessionsRequested calls := by
  simp [sessionsRequested]

def Descending (sessionCount : χ → Int) (channels : List χ) : Prop :=
  channels.Pairwise fun a b => sessionCount b ≤ sessionCount a

theorem mul_target_lt {remaining channels : Int} (hchannels : 0 < channels)
    (hremaining : 0 ≤ remaining) :
    channels * ((remaining + channels - 1).tdiv channels - 1) < remaining := by
  have hdiv := Int.mul_tdiv_add_tmod (remaining + channels - 1) channels
  have hmod := Int.tmod_nonneg channels (show 0 ≤ remaining + channels - 1 by omega)
  rw [mul_sub, mul_one]
  omega

theorem createCounts_round (sessionCount : χ → Int) (channel : χ) (channels : List χ)
    {remaining : Int} (hremaining : 0 ≤ remaining) :
    ∃ target : Int, (target - 1) * (channels.length + 1) < remaining ∧
      remaining ≤ target * (channels.length + 1) ∧
      (sessionCount channel < target ∧
          createCounts sessionCount (channel :: channels) remaining (channel :: channels).length =
            ⟨channel, target - sessionCount channel⟩ ::
              createCounts sessionCount channels (remaining - target) channels.length ∨
        target ≤ sessionCount channel ∧
          createCounts sessionCount (channel :: channels) remaining (channel :: channels).length =
            createCounts sessionCount channels (remaining - sessionCount channel)
              channels.length) := by
  have hlen : (0 : Int) < channels.length + 1 := by omega
  refine ⟨(remaining + (channels.length + 1) - 1).tdiv (channels.length + 1), ?_, ?_, ?_⟩
  · rw [mul_comm]
    exact mul_target_lt hlen hremaining
  · rw [mul_comm]
    exact le_target hlen
  · simp only [createCounts, List.length_cons, Nat.cast_succ, add_sub_cancel_right]
    split
    · next hlt => exact .inl ⟨hlt, rfl⟩
    · next hge => exact .inr ⟨not_lt.mp hge, rfl⟩

theorem createCounts_nodup {channels : List χ} (h : channels.Nodup) {remaining k : Int} :
    ((createCounts sessionCount channels remaining k).map CreateCount.channel).Nodup := by
  induction channels generalizing remaining k with
  | nil => exact List.nodup_nil
  | cons channel channels ih =>
    obtain ⟨hnotin, hnodup⟩ := List.nodup_cons.mp h
    simp only [createCounts]
    split
    · refine List.nodup_cons.mpr ⟨fun hmem => ?_, ih hnodup⟩
      obtain ⟨call, hcall, rfl⟩ := List.mem_map.mp hmem
      exact hnotin (mem_createCounts hcall).2
    · exact ih hnodup

theorem sum_le_mul {channels : List χ} {bound : Int}
    (h : ∀ channel ∈ channels, sessionCount channel ≤ bound) :
    (channels.map sessionCount).sum ≤ bound * channels.length := by
  have hsum := List.sum_le_card_nsmul (channels.map sessionCount) bound (by simpa using h)
  rw [List.length_map, nsmul_eq_mul] at hsum
  linarith

theorem createCounts_sum {channels : List χ} (hsorted : Descending sessionCount channels)
    (hcount : ∀ channel ∈ channels, 0 ≤ sessionCount channel) {remaining : Int}
    (hremaining : (channels.map sessionCount).sum ≤ remaining)
    (hnil : channels = [] → remaining = 0) :
    sessionsRequested (createCounts sessionCount channels remaining channels.length) =
      remaining - (channels.map sessionCount).sum := by
  induction channels generalizing remaining with
  | nil => simp [createCounts, hnil rfl]
  | cons channel channels ih =>
    obtain ⟨hhead, hsorted⟩ := List.pairwise_cons.mp hsorted
    obtain ⟨hchannel, hrest⟩ := List.forall_mem_cons.mp hcount
    have hnonneg : 0 ≤ (channels.map sessionCount).sum := List.sum_nonneg (by simpa using hrest)
    rw [List.map_cons, List.sum_cons] at hremaining ⊢
    obtain ⟨target, hlow, hup, ⟨hlt, hround⟩ | ⟨hge, hround⟩⟩ :=
      createCounts_round sessionCount channel channels (show 0 ≤ remaining by omega)
    · rw [hround, sessionsRequested_cons, ih hsorted hrest]
      · ring
      · -- the channels behind this one are below its target as well
        have hbound : (channels.map sessionCount).sum ≤ (target - 1) * channels.length :=
          sum_le_mul fun c hc => (hhead c hc).trans (by omega)
        linarith
      · rintro rfl
        simp only [List.length_nil, Nat.cast_zero, zero_add, mul_one] at hlow hup
        omega
    · rw [hround, ih hsorted hrest (by omega)]
      · ring
      · rintro rfl
        simp only [List.length_nil, Nat.cast_zero, zero_add, mul_one, List.map_nil,
          List.sum_nil] at hup hremaining
        omega

theorem createCounts_eq_nil {channels : List χ} (hsorted : Descending sessionCount channels)
    (hcount : ∀ channel ∈ channels, 0 ≤ sessionCount channel) {remaining : Int}
    (hremaining : remaining ≤ (channels.map sessionCount).sum) :
    createCounts sessionCount channels remaining channels.length = [] := by
  induction channels generalizing remaining with
  | nil => rfl
  | cons channel channels ih =>
    obtain ⟨hhead, hsorted⟩ := List.pairwise_cons.mp hsorted
    obtain ⟨hchannel, hrest⟩ := List.forall_mem_cons.mp hcount
    rw [List.map_cons, List.sum_cons] at hremaining
    have hbound := sum_le_mul hhead
    have htarget : (remaining + (channels.length + 1) - 1).tdiv (channels.length + 1) ≤
        sessionCount channel :=
      target_le (by omega) (by linarith) hchannel
    simp only [createCounts, List.length_cons, Nat.cast_succ, add_sub_cancel_right]
    rw [if_neg htarget.not_gt]
    exact ih hsorted hrest (by omega)

section

variable [Fintype χ] {options : SessionPoolOptions} {p : SessionPool χ} {channels : List χ}

theorem SortedByCount.sum_eq (h : p.SortedByCount channels) :
    (channels.map p.sessionCount).sum = ∑ channel, p.sessionCount channel := by
  classical
  rw [← List.sum_toFinset _ h.nodup]
  congr 1
  ext channel
  simp [h.mem channel]

theorem SortedByCount.createCounts_sum (h : p.SortedByCount channels)
    (hcount : ∀ channel, 0 ≤ p.sessionCount channel)
    (hsum : ∑ channel, p.sessionCount channel = p.totalSessions)
    (hroom : p.totalSessions < maxPoolSize χ options) {target : Int}
    (htarget : p.totalSessions ≤ target) :
    sessionsRequested (createCounts p.sessionCount channels target (Fintype.card χ)) =
      target - p.totalSessions := by
  classical
  rw [← h.length_eq_card,
    SessionPool.createCounts_sum h.sorted (fun channel _ => hcount channel), h.sum_eq, hsum]
  · rw [h.sum_eq, hsum]
    exact htarget
  · -- without channels there is no room
    rintro rfl
    rw [maxPoolSize, ← h.length_eq_card, ← hsum, ← h.sum_eq] at hroom
    simp at hroom

end

variable [DecidableEq χ]

def grownCount (sessionCount : χ → Int) (calls : List (CreateCount χ)) (channel : χ) : Int :=
  sessionCount channel + requested channel calls

theorem grownCount_of_not_mem {channel : χ} {channels : List χ} (h : channel ∉ channels)
    (remaining k : Int) :
    grownCount sessionCount (createCounts sessionCount channels remaining k) channel =
      sessionCount channel := by
  rw [grownCount, requested_eq_zero, add_zero]
  rintro call hcall rfl
  exact h (mem_createCounts hcall).2

theorem grownCount_cons (channel c : χ) (n : Int) (calls : List (CreateCount χ)) :
    grownCount sessionCount (⟨c, n⟩ :: calls) channel =
      (if c = channel then n else 0) + grownCount sessionCount calls channel := by
  rw [grownCount, grownCount, requested_cons]
  ring

theorem le_createCounts {bound : Int} (hbound : 0 ≤ bound) {channels : List χ}
    (hnodup : channels.Nodup) (hcount : ∀ channel ∈ channels, sessionCount channel ≤ bound)
    {remaining : Int} (hremaining : bound * channels.length ≤ remaining)
    {channel : χ} (hmem : channel ∈ channels) :
    bound ≤ grownCount sessionCount
      (createCounts sessionCount channels remaining channels.length) channel := by
  induction channels generalizing remaining with
  | nil => cases hmem
  | cons c channels ih =>
    obtain ⟨hnotin, hnodup⟩ := List.nodup_cons.mp hnodup
    obtain ⟨hc, hrest⟩ := List.forall_mem_cons.mp hcount
    have hlen := Int.natCast_nonneg channels.length
    have hzero := mul_nonneg hbound hlen
    rw [List.length_cons, Nat.cast_succ] at hremaining
    obtain ⟨target, hlow, hup, hround⟩ :=
      createCounts_round sessionCount c channels (show 0 ≤ remaining by linarith)
    have htarget : bound ≤ target := by
      have hmul : bound * (channels.length + 1) ≤ target * (channels.length + 1) := by
        linarith
      exact le_of_mul_le_mul_right hmul (by omega)
    rcases hround with ⟨hlt, hround⟩ | ⟨hge, hround⟩
    · rw [hround, grownCount_cons]
      by_cases heq : c = channel
      · subst heq
        rw [if_pos rfl, grownCount_of_not_mem hnotin]
        omega
      · rw [if_neg heq, zero_add]
        refine ih hnodup hrest ?_ ((List.mem_cons.mp hmem).resolve_left (Ne.symm heq))
        have hmul := mul_le_mul_of_nonneg_right htarget hlen
        rcases htarget.eq_or_lt with rfl | hlt
        · linarith
        · have hmul := mul_le_mul_of_nonneg_right (show bound ≤ target - 1 by omega) hlen
          linarith
    · rw [hround]
      by_cases heq : c = channel
      · subst heq
        rw [grownCount_of_not_mem hnotin]
        omega
      · refine ih hnodup hrest ?_ ((List.mem_cons.mp hmem).resolve_left (Ne.symm heq))
        linarith

theorem createCounts_level {channels : List χ} (hnodup : channels.Nodup)
    (hsorted : Descending sessionCount channels)
    (hcount : ∀ channel ∈ channels, 0 ≤ sessionCount channel) {remaining : Int}
    (hremaining : (channels.map sessionCount).sum ≤ remaining) {call : CreateCount χ}
    (hcall : call ∈ createCounts sessionCount channels remaining channels.length) {channel : χ}
    (hmem : channel ∈ channels) :
    grownCount sessionCount (createCounts sessionCount channels remaining channels.length)
        call.channel ≤
      grownCount sessionCount (createCounts sessionCount channels remaining channels.length)
        channel + 1 := by
  induction channels generalizing remaining with
  | nil => cases hmem
  | cons c channels ih =>
    obtain ⟨hnotin, hnodup'⟩ := List.nodup_cons.mp hnodup
    obtain ⟨hhead, hsorted⟩ := List.pairwise_cons.mp hsorted
    obtain ⟨hc, hrest⟩ := List.forall_mem_cons.mp hcount
    have hnonneg : 0 ≤ (channels.map sessionCount).sum := List.sum_nonneg (by simpa using hrest)
    rw [List.map_cons, List.sum_cons] at hremaining
    have hbelow : ∀ c' ∈ c :: channels, sessionCount c' ≤ sessionCount c :=
      List.forall_mem_cons.mpr ⟨le_rfl, hhead⟩
    -- no channel goes beyond a bound on the average that the first channel keeps to
    have hle : ∀ {bound : Int}, sessionCount c ≤ bound →
        remaining ≤ bound * (channels.length + 1) → grownCount sessionCount
          (createCounts sessionCount (c :: channels) remaining (c :: channels).length)
            call.channel ≤ bound := by
      intro bound hbound hremaining
      apply createCounts_le (hc.trans hbound) hnodup (by simpa using hremaining)
      exact (hbelow _ (mem_createCounts hcall).2).trans hbound
    obtain ⟨target, hlow, hup, ⟨hlt, hround⟩ | ⟨hge, hround⟩⟩ :=
      createCounts_round sessionCount c channels (show 0 ≤ remaining by omega)
    · have hceil := hle hlt.le hup
      have hfloor : target - 1 ≤ grownCount sessionCount
          (createCounts sessionCount (c :: channels) remaining (c :: channels).length) channel :=
        le_createCounts (by omega) hnodup (fun c' hc' => (hbelow c' hc').trans (by omega))
          (by simpa using hlow.le) hmem
      omega
    · have hceil := hle le_rfl
        (hup.trans (mul_le_mul_of_nonneg_right hge (by omega)))
      rw [hround] at hcall hceil ⊢
      rcases List.mem_cons.mp hmem with rfl | hmem
      · rw [grownCount_of_not_mem hnotin]
        omega
      · exact ih hnodup' hsorted hrest (by omega) hcall hmem

/-- Growth is exact and balanced. -/
theorem growth_balanced [Fintype χ] {options : SessionPoolOptions} {p : SessionPool χ}
    {channels : List χ} {sessionsToCreate : Int} (hsorted : p.SortedByCount channels)
    (hcount : ∀ channel, 0 ≤ p.sessionCount channel)
    (hsum : ∑ channel, p.sessionCount channel = p.totalSessions)
    (hroom : p.totalSessions < maxPoolSize χ options) (hcreate : 1 ≤ sessionsToCreate) :
    ∃ counts, p.computeCreateCounts options channels sessionsToCreate = .ok counts ∧
      (counts.map CreateCount.channel).Nodup ∧
      (∀ call ∈ counts, 0 < call.sessionCount) ∧
      sessionsRequested counts =
        min (p.totalSessions + sessionsToCreate) (maxPoolSize χ options) - p.totalSessions ∧
      ∀ call ∈ counts, ∀ channel,
        grownCount p.sessionCount counts call.channel ≤
          grownCount p.sessionCount counts channel + 1 := by
  rw [computeCreateCounts, if_neg hroom.ne]
  refine ⟨_, rfl, createCounts_nodup hsorted.nodup, fun call hcall => (mem_createCounts hcall).1,
    ?_, fun call hcall channel => ?_⟩
  · exact hsorted.createCounts_sum hcount hsum hroom (by omega)
  · rw [← hsorted.length_eq_card] at hcall ⊢
    refine createCounts_level hsorted.nodup hsorted.sorted (fun channel _ => hcount channel) ?_
      hcall (hsorted.mem channel)
    rw [hsorted.sum_eq, hsum]
    omega

def fourEach : SessionPoolOptions := ⟨0, 4, 1, .block, 3300⟩

def twoAndNone : SessionPool Bool := ⟨[], 2, 0, 0, 0, fun channel => if channel then 2 else 0⟩

theorem sortedByCount_twoAndNone : twoAndNone.SortedByCount [true, false] where
  nodup := by decide
  mem := by decide
  sorted := by simp [twoAndNone]

theorem growth_balanced_twoAndNone :
    ∃ counts, twoAndNone.computeCreateCounts fourEach [true, false] 3 = .ok counts ∧
      (counts.map CreateCount.channel).Nodup ∧
      (∀ call ∈ counts, 0 < call.sessionCount) ∧
      sessionsRequested counts =
        min (twoAndNone.totalSessions + 3) (maxPoolSize Bool fourEach) -
          twoAndNone.totalSessions ∧
      ∀ call ∈ counts, ∀ channel,
        grownCount twoAndNone.sessionCount counts call.channel ≤
          grownCount twoAndNone.sessionCount counts channel + 1 :=
  growth_balanced sortedByCount_twoAndNone (by decide) rfl (by decide) (by decide)

end SpannerClient.SessionPool
