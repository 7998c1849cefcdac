import SpannerClient.Internal.PoolGrowth

namespace SpannerClient.SessionPool

variable {ι χ : Type} {options : SessionPoolOptions} {p : SessionPool χ}

def Short (options : SessionPoolOptions) (p : SessionPool χ) : Prop :=
  p.createCallsInProgress = 0 ∧ p.totalSessions < options.minSessions

structure Restores (options : SessionPoolOptions) (p : SessionPool χ)
    (calls : List (CreateCount χ)) : Prop where
  positive : p.Short options → ∀ call ∈ calls, 0 < call.sessionCount
  restores : p.Short options → sessionsRequested calls = options.minSessions - p.totalSessions
  otherwise : ¬ p.Short options → calls = []

theorem restores_nil : p.Restores options [] ↔ ¬ p.Short options := by
  constructor
  · intro hrestores hshort
    have hmissing := hrestores.restores hshort
    have hless := hshort.2
    rw [sessionsRequested_nil] at hmissing
    omega
  · intro hshort
    exact ⟨fun h => absurd h hshort, fun h => absurd h hshort, fun _ => rfl⟩

variable [Fintype χ] {channels : List χ}

def maintainPoolSize (options : SessionPoolOptions) (channelsByCount : List χ)
    (p : SessionPool χ) : List (CreateCount χ) × SessionPool χ :=
  if p.createCallsInProgress = 0 ∧ p.totalSessions < options.minSessions then
    match p.grow options channelsByCount (p.totalSessions - options.minSessions) with
    | (.error _, p) => ([], p)
    | (.ok counts, p) => (counts, p)
  else ([], p)

theorem maintainPoolSize_of_short (h : p.Short options) :
    p.maintainPoolSize options channels =
      match p.grow options channels (p.totalSessions - options.minSessions) with
      | (.error _, p) => ([], p)
      | (.ok counts, p) => (counts, p) :=
  if_pos h

theorem maintainPoolSize_of_not_short (h : ¬ p.Short options) :
    p.maintainPoolSize options channels = ([], p) :=
  if_neg h

theorem restores_grow {p' : SessionPool χ} {calls : List (CreateCount χ)}
    (hsorted : p.SortedByCount channels) (hcount : ∀ channel, 0 ≤ p.sessionCount channel)
    (hsum : ∑ channel, p.sessionCount channel = p.totalSessions) (hshort : p.Short options)
    (hmin : options.minSessions ≤ maxPoolSize χ options)
    (h : p.grow options channels (options.minSessions - p.totalSessions) = (.ok calls, p')) :
    p.Restores options calls := by
  obtain ⟨-, rfl, -⟩ := grow_eq_ok h
  refine ⟨fun _ call hcall => (mem_createCounts hcall).1, fun _ => ?_,
    fun hnot => absurd hshort hnot⟩
  have htarget : min (p.totalSessions + (options.minSessions - p.totalSessions))
      (maxPoolSize χ options) = options.minSessions := by
    rw [add_sub_cancel, min_eq_left hmin]
  rw [htarget]
  exact hsorted.createCounts_sum hcount hsum (hshort.2.trans_le hmin) hshort.2.le

theorem maintainPoolSize_eq_nil (hsorted : p.SortedByCount channels)
    (hcount : ∀ channel, 0 ≤ p.sessionCount channel)
    (hsum : ∑ channel, p.sessionCount channel = p.totalSessions) :
    (p.maintainPoolSize options channels).1 = [] := by
  classical
  by_cases hshort : p.Short options
  · rw [maintainPoolSize_of_short hshort, grow, computeCreateCounts]
    by_cases hfull : p.totalSessions = maxPoolSize χ options
    · simp only [if_pos hfull]
    · simp only [if_neg hfull]
      rw [← hsorted.length_eq_card]
      apply createCounts_eq_nil hsorted.sorted fun channel _ => hcount channel
      have hmissing := hshort.2
      rw [hsorted.sum_eq, hsum]
      omega
  · rw [maintainPoolSize_of_not_short hshort]

namespace System

variable [DecidableEq χ] [DecidableEq ι] {s s' : System ι χ} {v : ι} {spurious : Prop}

theorem maintain_calls {calls : List (CreateCount χ)}
    (h : Step options spurious s (.maintain v calls) s') :
    ∃ channels, s.pool.SortedByCount channels ∧
      s.pool.maintainPoolSize options channels = (calls, s'.pool) := by
  cases h with
  | maintain _ hcalls htotal hsorted hgrow =>
    refine ⟨_, hsorted, ?_⟩
    rw [maintainPoolSize_of_short ⟨hcalls, htotal⟩, hgrow]

variable [Fintype ι]

theorem maintenance_calls_nil {now : Int} {tr : List (Event ι χ)}
    (h : Run (Step options spurious) (make now) tr s) (hsorted : s.pool.SortedByCount channels) :
    (s.pool.maintainPoolSize options channels).1 = [] := by
  have haccounts := ((balanced_make now).run h).accounts
  apply maintainPoolSize_eq_nil hsorted _ haccounts.sum_count
  intro channel
  rw [haccounts.count]
  exact Int.natCast_nonneg _

/-- In every state of every interleaving, maintenance does its job exactly where there is nothing
to be done. -/
theorem maintenance_restores_iff (now : Int) {tr : List (Event ι χ)}
    (h : Run (Step options spurious) (make now) tr s) (hsorted : s.pool.SortedByCount channels) :
    s.pool.Restores options (s.pool.maintainPoolSize options channels).1 ↔
      ¬ s.pool.Short options := by
  rw [maintenance_calls_nil h hsorted]
  exact restores_nil

end System

def alwaysOne : SessionPoolOptions := ⟨1, 1, 1, .block, 3300⟩

def badSessionTrace : List (Event Bool Unit) :=
  [.initializePool true [⟨(), 1⟩], .created true ⟨(), 1⟩ (.ok ["session"]), .notify true,
    .finishGrow true ⟨.initializePool, [], .success⟩, .call true false,
    .allocate true false (.allocated theSession), .setBad theSession,
    .release true { theSession with isBad := true }]

theorem run_badSession :
    ∃ s, Run (Step alwaysOne False) (System.make 0) badSessionTrace s ∧
      s.pool.Short alwaysOne := by
  refine ⟨_, .cons (.initializePool rfl (by decide) (sortedByCount_unit _) rfl)
    (.cons (.created (.sync rfl) (.refl _)) (.cons (.notifyAll rfl)
      (.cons (.finishGrow rfl rfl (.inl rfl)) (.cons (.call rfl)
        (.cons (.allocate (.call rfl) (sortedByCount_unit _) rfl)
          (.cons (.setBad (List.mem_singleton_self _))
            (.cons (.release rfl (List.mem_singleton_self _) rfl) .nil))))))), ?_⟩
  exact ⟨rfl, by decide⟩

theorem maintenance_badSession :
    ∃ s : System Bool Unit, Run (Step alwaysOne False) (System.make 0) badSessionTrace s ∧
      s.pool.SortedByCount [()] ∧
      ¬ s.pool.Restores alwaysOne (s.pool.maintainPoolSize alwaysOne [()]).1 := by
  obtain ⟨s, h, hshort⟩ := run_badSession
  refine ⟨s, h, sortedByCount_unit _, ?_⟩
  rw [System.maintenance_calls_nil h (sortedByCount_unit _), restores_nil]
  exact not_not_intro hshort

theorem maintenance_restores_iff_badSession :
    ∃ s : System Bool Unit, Run (Step alwaysOne False) (System.make 0) badSessionTrace s ∧
      (s.pool.Restores alwaysOne (s.pool.maintainPoolSize alwaysOne [()]).1 ↔
        ¬ s.pool.Short alwaysOne) := by
  obtain ⟨s, h, -⟩ := run_badSession
  exact ⟨s, h, System.maintenance_restores_iff 0 h (sortedByCount_unit _)⟩

end SpannerClient.SessionPool
