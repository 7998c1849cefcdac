import SpannerClient.Internal.PoolSizing
import Mathlib.Data.List.Sort

namespace SpannerClient.SessionPool

open NumericLimits

variable {χ : Type} [Fintype χ] [DecidableEq χ] (options : SessionPoolOptions) (spurious : Prop)

omit [DecidableEq χ] in
theorem exists_sortedByCount (p : SessionPool χ) : ∃ channels, p.SortedByCount channels := by
  let le (a b : χ) : Bool := decide (p.sessionCount b ≤ p.sessionCount a)
  have hperm := List.mergeSort_perm (Finset.univ : Finset χ).toList le
  refine ⟨(Finset.univ : Finset χ).toList.mergeSort le, ?_, ?_, ?_⟩
  · exact hperm.nodup_iff.mpr (Finset.nodup_toList _)
  · intro channel
    simp [hperm.mem_iff]
  · have htrans : ∀ a b c : χ, le a b = true → le b c = true → le a c = true := by
      simp only [le, decide_eq_true_eq]
      intro a b c hab hbc
      omega
    have htotal : ∀ a b : χ, (le a b || le b a) = true := by
      simp only [le, Bool.or_eq_true, decide_eq_true_eq]
      intro a b
      omega
    have hsorted := List.pairwise_mergeSort htrans htotal (Finset.univ : Finset χ).toList
    exact hsorted.imp fun h => of_decide_eq_true h

namespace System

def Later (e : Event Unit χ) : Prop := Honest e ∧ ∀ v counts, e ≠ .initializePool v counts

abbrev Continues : System Unit χ → System Unit χ → Prop :=
  Relation.ReflTransGen fun s s' => ∃ e, Later e ∧ Step options spurious s e s'

def Started (s : System Unit χ) : Prop :=
  ∃ tr, Run (Step options spurious) (make 0) tr s ∧ (∀ e ∈ tr, Honest e) ∧ InitializedFirst tr

omit [Fintype χ] [DecidableEq χ] in
theorem InitializedFirst.concat {tr : List (Event Unit χ)} {e : Event Unit χ}
    (h : InitializedFirst tr) (he : Later e) : InitializedFirst (tr ++ [e]) := by
  intro pre v counts post heq
  obtain rfl | ⟨post, last, rfl⟩ := post.eq_nil_or_concat
  · obtain ⟨-, hlast⟩ := List.append_inj' heq rfl
    exact absurd (List.singleton_inj.mp hlast) (he.2 v counts)
  · rw [List.concat_eq_append, ← List.cons_append, ← List.append_assoc] at heq
    exact h pre v counts post (List.append_inj' heq rfl).1

section Runs

variable {options spurious} {s s' : System Unit χ} {e : Event Unit χ}

theorem continues_of_step (hstep : Step options spurious s e s') (he : Later e) :
    Continues options spurious s s' := .single ⟨e, he, hstep⟩

theorem Started.next (h : Started options spurious s) (hstep : Step options spurious s e s')
    (he : Later e) : Started options spurious s' := by
  obtain ⟨tr, hrun, hhonest, hinit⟩ := h
  refine ⟨tr ++ [e], hrun.append (.single hstep), ?_, hinit.concat he⟩
  intro event hevent
  obtain hevent | hevent := List.mem_append.mp hevent
  · exact hhonest event hevent
  · rw [List.mem_singleton.mp hevent]
    exact he.1

theorem Started.continues (h : Started options spurious s) (hs : Continues options spurious s s') :
    Started options spurious s' := by
  induction hs with
  | refl => exact h
  | tail _ hstep ih =>
    obtain ⟨e, he, hstep⟩ := hstep
    exact ih.next hstep he

theorem started_initializePool {counts : List (CreateCount χ)}
    (hstep : Step options spurious (make 0) (.initializePool () counts) s) :
    Started options spurious s := by
  refine ⟨[_], .single hstep, fun e he => ?_, ?_⟩
  · rw [List.mem_singleton.mp he]
    trivial
  · intro pre v counts' post heq
    cases pre with
    | nil => simp [Untouched]
    | cons e pre => simp at heq

end Runs

theorem answer {s : System Unit χ} {caller : Caller} {call : CreateCount χ}
    {calls : List (CreateCount χ)} {status : Status} (names : List String)
    (hv : s.thread () = .creating ⟨caller, call :: calls, status⟩)
    (hhonest : (names.length : Int) ≤ call.sessionCount) :
    ∃ s', Continues options spurious s s' ∧
      s'.thread () = .creating ⟨caller, calls, status⟩ ∧
      s'.pool = s.pool.created call.channel names.length
        (s.pool.sessions ++ newSessions s.objects call.channel s.clock names) := by
  let growth : Growth χ := ⟨caller, calls, status⟩
  let pool := s.pool.created call.channel names.length
    (s.pool.sessions ++ newSessions s.objects call.channel s.clock names)
  let announcing : System Unit χ :=
    { s with
      pool
      objects := s.objects + names.length
      thread := Function.update s.thread () (.announcing (some growth)) }
  have hcreated : Step options spurious s (.created () call (.ok names)) announcing :=
    .created (.sync hv) (.refl _)
  have hthread : announcing.thread () = .announcing (some growth) := by simp [announcing]
  have hnotify : Step options spurious announcing (.notify ()) _ := .notifyAll hthread
  have hannounced : Continues options spurious s announcing :=
    continues_of_step hcreated ⟨hhonest, by simp⟩
  have hnotified := hannounced.trans (continues_of_step hnotify ⟨trivial, by simp⟩)
  refine ⟨_, hnotified, ?_, rfl⟩
  simp [Thread.resume, growth]

theorem answer_nothing {s : System Unit χ} {caller : Caller} {calls : List (CreateCount χ)}
    {status : Status} (hv : s.thread () = .creating ⟨caller, calls, status⟩)
    (hpositive : ∀ call ∈ calls, 0 < call.sessionCount) :
    ∃ s', Continues options spurious s s' ∧
      s'.thread () = .creating ⟨caller, [], status⟩ ∧
      s'.pool = { s.pool with
        createCallsInProgress := s.pool.createCallsInProgress - calls.length } := by
  induction calls generalizing s with
  | nil => exact ⟨s, .refl, hv, by simp⟩
  | cons call calls ih =>
    have hcall := hpositive call List.mem_cons_self
    obtain ⟨s', hs, hthread, hpool⟩ := answer options spurious [] hv hcall.le
    obtain ⟨s'', hs', hthread', hpool'⟩ :=
      ih hthread fun call hcall => hpositive call (List.mem_cons_of_mem _ hcall)
    refine ⟨s'', hs.trans hs', hthread', ?_⟩
    rw [hpool', hpool]
    simp only [SessionPool.created, newSessions, List.length_nil, Nat.cast_zero, add_zero,
      Function.update_eq_self, List.zipIdx_nil, List.map_nil, List.append_nil, List.length_cons,
      Nat.cast_succ, SessionPool.mk.injEq, and_true, true_and]
    omega

structure Drained (k : Nat) (s : System Unit χ) : Prop where
  thread : s.thread () = .outside
  sessions : s.pool.sessions = []
  total : s.pool.totalSessions = k
  calls : s.pool.createCallsInProgress = 0

variable {options spurious}

theorem Drained.allocate {s : System Unit χ} {k : Nat} (h : Drained k s)
    (hcount : ∀ channel, 0 ≤ s.pool.sessionCount channel)
    (hsum : ∑ channel, s.pool.sessionCount channel = s.pool.totalSessions)
    (hmin : 0 ≤ options.minSessions) (hroom : (k : Int) < maxPoolSize χ options)
    {channels : List χ} (hsorted : s.pool.SortedByCount channels) :
    ∃ call calls, (∀ c ∈ call :: calls, 0 < c.sessionCount) ∧
      s.pool.allocate options channels false = (.create (call :: calls),
        { s.pool with createCallsInProgress := (call :: calls).length }) := by
  have htotal := h.total
  have hmissing : s.pool.totalSessions < maxPoolSize χ options := by omega
  generalize htarget : min (s.pool.totalSessions + (options.minSessions + 1))
    (maxPoolSize χ options) = target
  generalize hcounts :
    createCounts s.pool.sessionCount channels target (Fintype.card χ) = counts
  have hrequested := hsorted.createCounts_sum hcount hsum hmissing
    (show s.pool.totalSessions ≤ target by omega)
  rw [hcounts] at hrequested
  have hpositive : ∀ c ∈ counts, 0 < c.sessionCount :=
    fun c hc => (mem_createCounts (hcounts ▸ hc)).1
  cases counts with
  | nil =>
    rw [sessionsRequested_nil] at hrequested
    omega
  | cons call calls =>
    refine ⟨call, calls, hpositive, ?_⟩
    have hfull : ¬ maxPoolSize χ options ≤ s.pool.totalSessions := not_le.mpr hmissing
    simp [SessionPool.allocate, h.sessions, hfull, h.calls, grow, computeCreateCounts,
      hmissing.ne, htarget, hcounts]

theorem Drained.next {s : System Unit χ} {k : Nat} (h : Drained k s)
    (hcount : ∀ channel, 0 ≤ s.pool.sessionCount channel)
    (hsum : ∑ channel, s.pool.sessionCount channel = s.pool.totalSessions)
    (hmin : 0 ≤ options.minSessions) (hroom : (k : Int) < maxPoolSize χ options) :
    ∃ s', Continues options spurious s s' ∧ Drained (k + 1) s' := by
  obtain ⟨channels, hsorted⟩ := exists_sortedByCount s.pool
  obtain ⟨call, calls, hpositive, hallocate⟩ := h.allocate hcount hsum hmin hroom hsorted
  have hcall : 0 < call.sessionCount := hpositive call List.mem_cons_self
  let allocating : System Unit χ :=
    { s with thread := Function.update s.thread () (.allocating false) }
  have hstart : Step options spurious s (.call () false) allocating := .call h.thread
  have harrives : allocating.Arrives options () false s.pool := .call (by simp [allocating])
  let growth : Growth χ := ⟨.allocate false, call :: calls, .success⟩
  let creating : System Unit χ :=
    { allocating with
      pool := { s.pool with createCallsInProgress := (call :: calls).length }
      thread := Function.update allocating.thread () (.creating growth)
      checkedOut := s.checkedOut }
  have hgrow : Step options spurious allocating (.allocate () false (.create (call :: calls)))
      creating := .allocate harrives hsorted hallocate
  have hcreating : creating.thread () = .creating growth := by simp [creating]
  obtain ⟨s₁, hanswer, hthread, hpool⟩ := answer options spurious ["session"] hcreating hcall
  obtain ⟨s₂, hnothing, hthread', hpool'⟩ := answer_nothing options spurious hthread
    fun c hc => hpositive c (List.mem_cons_of_mem _ hc)
  let session : Session χ := ⟨s.objects, "session", some call.channel, false, s.clock⟩
  have hsessions : s₂.pool.sessions = [session] := by
    rw [hpool', hpool]
    simp [SessionPool.created, newSessions, creating, allocating, h.sessions, session]
  have htotal : s₂.pool.totalSessions = k + 1 := by
    rw [hpool', hpool]
    simp [SessionPool.created, creating, h.total]
  have hcalls : s₂.pool.createCallsInProgress = 0 := by
    rw [hpool', hpool]
    simp [SessionPool.created, creating]
  obtain ⟨channels', hsorted'⟩ := exists_sortedByCount s₂.pool
  have htake : s₂.pool.allocate options channels' false =
      (.allocated session, { s₂.pool with sessions := [] }) := by
    simp [SessionPool.allocate, hsessions]
  have htaken : Step options spurious s₂ (.allocate () false (.allocated session)) _ :=
    .allocate (.grown hthread' rfl) hsorted' htake
  have hcreates : Continues options spurious s creating :=
    (continues_of_step hstart ⟨trivial, by simp⟩).trans
      (continues_of_step hgrow ⟨trivial, by simp⟩)
  have hdone : Continues options spurious s s₂ := (hcreates.trans hanswer).trans hnothing
  have hholds := hdone.trans (continues_of_step htaken ⟨trivial, by simp⟩)
  exact ⟨_, hholds, ⟨by simp [Allocation.next], rfl, htotal, hcalls⟩⟩

theorem exists_initialized (hsize : 0 < maxPoolSize χ options) :
    ∃ s : System Unit χ, Started options spurious s ∧ Drained 0 s := by
  by_cases hinit : 0 < options.minSessions
  · obtain ⟨channels, hsorted⟩ := exists_sortedByCount (make 0 : System Unit χ).pool
    have hroom : (make 0 : System Unit χ).pool.totalSessions ≠ maxPoolSize χ options := hsize.ne
    generalize hcounts : createCounts (make 0 : System Unit χ).pool.sessionCount channels
      (min ((make 0 : System Unit χ).pool.totalSessions + options.minSessions)
        (maxPoolSize χ options)) (Fintype.card χ) = counts
    have hpositive : ∀ c ∈ counts, 0 < c.sessionCount :=
      fun c hc => (mem_createCounts (hcounts ▸ hc)).1
    have hgrow : (make 0 : System Unit χ).pool.grow options channels options.minSessions =
        (.ok counts, { (make 0 : System Unit χ).pool with
          createCallsInProgress := counts.length }) := by
      simp only [grow, computeCreateCounts, if_neg hroom, hcounts]
      simp [make, SessionPool.make]
    let growth : Growth χ := ⟨.initializePool, counts, .success⟩
    let creating : System Unit χ :=
      { (make 0 : System Unit χ) with
        pool := { (make 0 : System Unit χ).pool with createCallsInProgress := counts.length }
        thread := Function.update (make 0 : System Unit χ).thread () (.creating growth) }
    have hstart : Step options spurious (make 0) (.initializePool () counts) creating :=
      .initializePool rfl hinit hsorted hgrow
    have hcreating : creating.thread () = .creating growth := by simp [creating]
    obtain ⟨s, hs, hthread, hpool⟩ := answer_nothing options spurious hcreating hpositive
    have hfinish : Step options spurious s (.finishGrow () ⟨.initializePool, [], .success⟩) _ :=
      .finishGrow hthread rfl (.inl rfl)
    have hstarted := (started_initializePool hstart).continues hs
    refine ⟨_, hstarted.next hfinish ⟨trivial, by simp⟩, ⟨by simp, ?_, ?_, ?_⟩⟩
    · rw [hpool]
      rfl
    · rw [hpool]
      rfl
    · rw [hpool]
      simp [creating]
  · exact ⟨make 0, ⟨[], .nil, by simp, by simp [InitializedFirst]⟩, ⟨rfl, rfl, rfl, rfl⟩⟩

theorem exists_drained (hmin : 0 ≤ options.minSessions) (hsize : 0 < maxPoolSize χ options)
    (k : Nat) (hk : (k : Int) ≤ maxPoolSize χ options) :
    ∃ s : System Unit χ, Started options spurious s ∧ Drained k s := by
  induction k with
  | zero => exact exists_initialized hsize
  | succ k ih =>
    rw [Nat.cast_succ] at hk
    obtain ⟨s, hstarted, hdrained⟩ := ih (by omega)
    obtain ⟨tr, hrun, -, -⟩ := id hstarted
    obtain ⟨-, -, hsum, hcount, -⟩ := pool_accounting 0 hrun
    obtain ⟨s', hs, hdrained'⟩ : ∃ s', Continues options spurious s s' ∧ Drained (k + 1) s' :=
      hdrained.next hcount hsum hmin (by omega)
    exact ⟨s', hstarted.continues hs, hdrained'⟩

end System

variable {options}

theorem allocateOf_eq_none {p : SessionPool χ} {channels : List χ} {size : Int}
    (hsorted : p.SortedByCount channels) (hcard : 0 < Fintype.card χ) (hsessions : p.sessions = [])
    (htotal : p.totalSessions = size - 1) (hcalls : p.createCallsInProgress = 0)
    (hmin : 0 ≤ options.minSessions)
    (hlarge : 2147483647 < size + max options.minSessions (Fintype.card χ)) :
    p.allocateOf options size channels false = none := by
  have hroom : ¬ size ≤ p.totalSessions := by omega
  have hidle : ¬ 0 < p.createCallsInProgress := by omega
  rw [allocateOf, hsessions]
  simp only [List.getLast?_nil, if_neg hroom, if_neg hidle]
  by_cases hone : int32.Holds (options.minSessions + 1)
  · suffices hcounts : p.computeCreateCountsOf size channels (options.minSessions + 1) = none by
      simp only [add_eq hone, growOf, hcounts, Option.bind_eq_bind, Option.bind_some,
        Option.bind_none]
    have hfull : p.totalSessions ≠ size := by omega
    rw [computeCreateCountsOf, if_neg hfull, htotal]
    have hsum : size - 1 + (options.minSessions + 1) = size + options.minSessions := by omega
    by_cases htarget : int32.Holds (size + options.minSessions)
    · rw [add_eq (hsum ▸ htarget), hsum]
      simp only [Option.bind_eq_bind, Option.bind_some, min_eq_right (show size ≤
        size + options.minSessions by omega)]
      have hlength := hsorted.length_eq_card
      cases channels with
      | nil =>
        simp only [List.length_nil] at hlength
        omega
      | cons channel channels =>
        have hadd : int32.add size (Fintype.card χ) = none := by
          apply add_eq_none
          rintro ⟨-, hle⟩
          have hle : size + (Fintype.card χ : Int) ≤ 2147483647 := hle
          have hle' : size + options.minSessions ≤ 2147483647 := htarget.2
          omega
        rw [createCountsOf, hadd]
        rfl
    · rw [add_eq_none (hsum ▸ htarget)]
      rfl
  · rw [add_eq_none hone]
    rfl

/-- The sizes never overflow just when the full pool leaves room for the minimum and for the
channels. -/
theorem sized_iff [Nonempty χ] (o : SessionPoolOptions) :
    let size := max o.maxSessionsPerChannel 1 * Fintype.card χ
    Sized χ o ↔ size + max (min (max o.minSessions 0) size) (Fintype.card χ) ≤ 2147483647 := by
  intro size
  have hsize : maxPoolSize χ (o.enforceConstraints (Fintype.card χ)) = size := rfl
  have hmin : (o.enforceConstraints (Fintype.card χ)).minSessions =
      min (max o.minSessions 0) size := rfl
  have hpos := @size_pos χ _ o _
  have hcard : 0 < Fintype.card χ := Fintype.card_pos
  constructor
  · intro hsized
    by_contra hlarge
    have hnonneg := hsized.min_nonneg
    obtain ⟨s, hstarted, hdrained⟩ : ∃ s : System Unit χ,
        System.Started (o.enforceConstraints (Fintype.card χ)) False s ∧
          System.Drained (size - 1).toNat s :=
      System.exists_drained hnonneg (by omega) _ (by omega)
    let allocating : System Unit χ :=
      { s with thread := Function.update s.thread () (.allocating false) }
    have hstart : Step (o.enforceConstraints (Fintype.card χ)) False s (.call () false)
        allocating := .call hdrained.thread
    obtain ⟨channels, hsorted⟩ := exists_sortedByCount s.pool
    obtain ⟨tr, hrun, hhonest, hinit⟩ := hstarted.next hstart ⟨trivial, by simp⟩
    have hgrows := hsized.grows Unit False 0 _ _ hrun hhonest hinit
    have hexact := hgrows.allocate () false s.pool channels (.call (by simp [allocating])) hsorted
    have htotal := hdrained.total
    have hoverflow : s.pool.allocateOf (o.enforceConstraints (Fintype.card χ)) size channels
        false = none :=
      allocateOf_eq_none hsorted hcard hdrained.sessions (by omega) hdrained.calls hnonneg
        (by omega)
    rw [hsize, hoverflow] at hexact
    cases hexact
  · intro hroom
    apply sized_of_room
    exact ⟨min_nonneg_of_size (by omega), by omega, by omega⟩

def unlimited : SessionPoolOptions := ⟨0, 2147483647, 2147483647, .block, 3300⟩

theorem not_sized_unlimited : sizes Bool unlimited = none ∧ ¬ Sized Bool unlimited := by
  have hsizes : sizes Bool unlimited = none := by decide
  refine ⟨hsizes, ?_⟩
  intro hsized
  have hsome := hsized.sizes_eq
  rw [hsizes] at hsome
  cases hsome

theorem sized_iff_fewHundred : Sized Bool ⟨25, 100, 50, .block, 3300⟩ :=
  (sized_iff _).mpr (by decide)

end SpannerClient.SessionPool
