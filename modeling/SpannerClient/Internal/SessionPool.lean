import SpannerClient.Status
import SpannerClient.SessionPoolOptions
import Mathlib.Data.Fintype.Card

/-! The critical sections of `SessionPool`, as functions of what `mu_` guards.  The pool is over a
finite type `χ` of channels. -/

namespace SpannerClient

/-- `object` tells two `Session` objects apart. -/
structure Session (χ : Type) where
  object : Nat
  name : String
  channel : Option χ
  isBad : Bool
  lastUseTime : Int
  deriving DecidableEq

/-- `sessions` is `sessions_` with its back at the end. -/
structure SessionPool (χ : Type) where
  sessions : List (Session χ)
  totalSessions : Int
  createCallsInProgress : Int
  numWaitingForSession : Int
  lastUseTimeLowerBound : Int
  sessionCount : χ → Int

structure CreateCount (χ : Type) where
  channel : χ
  sessionCount : Int
  deriving DecidableEq

namespace SessionPool

variable {χ : Type}

def make (now : Int) : SessionPool χ := ⟨[], 0, 0, 0, now, fun _ => 0⟩

def maxPoolSize (χ : Type) [Fintype χ] (options : SessionPoolOptions) : Int :=
  options.maxSessionsPerChannel * Fintype.card χ

def exhausted : Failure :=
  .of .resourceExhausted "session pool exhausted" StatusCode.resourceExhausted_ne_ok

def createCounts (sessionCount : χ → Int) : List χ → Int → Int → List (CreateCount χ)
  | [], _, _ => []
  | channel :: channels, sessionsRemaining, channelsRemaining =>
    let target := (sessionsRemaining + channelsRemaining - 1).tdiv channelsRemaining
    if sessionCount channel < target then
      ⟨channel, target - sessionCount channel⟩ ::
        createCounts sessionCount channels (sessionsRemaining - target) (channelsRemaining - 1)
    else
      createCounts sessionCount channels (sessionsRemaining - sessionCount channel)
        (channelsRemaining - 1)

/-- A result of sorting `channels_`, which may order channels with equal counts in any way. -/
structure SortedByCount (p : SessionPool χ) (channels : List χ) : Prop where
  nodup : channels.Nodup
  mem : ∀ channel, channel ∈ channels
  sorted : channels.Pairwise fun a b => p.sessionCount b ≤ p.sessionCount a

/-- The critical section of `RefreshExpiringSessions()`: `now` is the time read before it, `clock`
the time during it.  Returns the sessions to refresh. -/
def refreshExpiringSessions (options : SessionPoolOptions) (now clock : Int)
    (p : SessionPool χ) : List (Session χ) × SessionPool χ :=
  let refreshLimit := now - options.keepAliveInterval
  if p.lastUseTimeLowerBound ≤ refreshLimit then
    (p.sessions.filter fun session => session.lastUseTime ≤ refreshLimit,
      { p with
        lastUseTimeLowerBound := p.sessions.foldl (fun bound session =>
          if session.lastUseTime ≤ refreshLimit then bound
          else if session.lastUseTime < bound then session.lastUseTime else bound) now
        sessions := p.sessions.map fun session =>
          if session.lastUseTime ≤ refreshLimit then { session with lastUseTime := clock }
          else session })
  else ([], p)

theorem refreshExpiringSessions_pool (options : SessionPoolOptions) (now clock : Int)
    (p : SessionPool χ) :
    ∃ bound, ∃ time : Session χ → Int, (p.refreshExpiringSessions options now clock).2 =
      { p with
        lastUseTimeLowerBound := bound
        sessions := p.sessions.map fun session =>
          { session with lastUseTime := time session } } := by
  rw [refreshExpiringSessions]
  split
  · refine ⟨_, fun session => if session.lastUseTime ≤ now - options.keepAliveInterval then clock
      else session.lastUseTime, SessionPool.mk.injEq .. |>.mpr ⟨?_, rfl, rfl, rfl, rfl, rfl⟩⟩
    refine List.map_congr_left fun session _ => ?_
    by_cases h : session.lastUseTime ≤ now - options.keepAliveInterval
    · simp only [h, if_true]
    · simp only [h, if_false]
  · exact ⟨p.lastUseTimeLowerBound, Session.lastUseTime, by simp⟩

variable [Fintype χ]

def computeCreateCounts (options : SessionPoolOptions) (channelsByCount : List χ)
    (sessionsToCreate : Int) (p : SessionPool χ) : StatusOr (List (CreateCount χ)) :=
  if p.totalSessions = maxPoolSize χ options then .error exhausted
  else
    let targetTotalSessions := min (p.totalSessions + sessionsToCreate) (maxPoolSize χ options)
    .ok (createCounts p.sessionCount channelsByCount targetTotalSessions (Fintype.card χ))

def grow (options : SessionPoolOptions) (channelsByCount : List χ) (sessionsToCreate : Int)
    (p : SessionPool χ) : StatusOr (List (CreateCount χ)) × SessionPool χ :=
  match p.computeCreateCounts options channelsByCount sessionsToCreate with
  | .error e => (.error e, p)
  | .ok counts =>
    (.ok counts, { p with createCallsInProgress := p.createCallsInProgress + counts.length })

theorem grow_eq_ok {options : SessionPoolOptions} {channels : List χ} {sessionsToCreate : Int}
    {p p' : SessionPool χ} {counts : List (CreateCount χ)}
    (h : p.grow options channels sessionsToCreate = (.ok counts, p')) :
    p.totalSessions ≠ maxPoolSize χ options ∧
      counts = createCounts p.sessionCount channels
        (min (p.totalSessions + sessionsToCreate) (maxPoolSize χ options)) (Fintype.card χ) ∧
      p' = { p with createCallsInProgress := p.createCallsInProgress + counts.length } := by
  simp only [grow, computeCreateCounts] at h
  by_cases hfull : p.totalSessions = maxPoolSize χ options
  · simp [hfull] at h
  · simp only [hfull, if_false, Prod.mk.injEq, Except.ok.injEq] at h
    obtain ⟨rfl, rfl⟩ := h
    exact ⟨hfull, rfl, rfl⟩

variable [DecidableEq χ]

def discount (p : SessionPool χ) (session : Session χ) : SessionPool χ :=
  { p with
    totalSessions := p.totalSessions - 1
    sessionCount := match session.channel with
      | some channel => Function.update p.sessionCount channel (p.sessionCount channel - 1)
      | none => p.sessionCount }

inductive Reason
  | exhaustion | creation
  deriving DecidableEq, Repr

def waitPredicate (options : SessionPoolOptions) (p : SessionPool χ) : Reason → Bool
  | .exhaustion => !p.sessions.isEmpty || decide (p.totalSessions < maxPoolSize χ options)
  | .creation => !p.sessions.isEmpty || decide (p.createCallsInProgress = 0)

inductive Allocation (χ : Type)
  | allocated (session : Session χ)
  | failed (failure : Failure)
  | wait (reason : Reason)
  | create (counts : List (CreateCount χ))

def allocate (options : SessionPoolOptions) (channelsByCount : List χ) (dissociate : Bool)
    (p : SessionPool χ) : Allocation χ × SessionPool χ :=
  match p.sessions.getLast? with
  | some session =>
    let p := { p with sessions := p.sessions.dropLast }
    (.allocated session, if dissociate then p.discount session else p)
  | none =>
    if maxPoolSize χ options ≤ p.totalSessions then
      match options.actionOnExhaustion with
      | .fail => (.failed exhausted, p)
      | .block =>
        (.wait .exhaustion, { p with numWaitingForSession := p.numWaitingForSession + 1 })
    else if 0 < p.createCallsInProgress then
      (.wait .creation, { p with numWaitingForSession := p.numWaitingForSession + 1 })
    else
      match p.grow options channelsByCount (options.minSessions + 1) with
      | (.error e, p) => (.failed e, p)
      | (.ok counts, p) => (.create counts, p)

inductive Allocates (options : SessionPoolOptions) (channels : List χ) (p : SessionPool χ) :
    Bool → Allocation χ → SessionPool χ → Prop
  | checkOut {sessions : List (Session χ)} {session : Session χ} :
    p.sessions = sessions ++ [session] →
      Allocates options channels p false (.allocated session) { p with sessions }
  | dissociate {sessions : List (Session χ)} {session : Session χ} :
    p.sessions = sessions ++ [session] →
      Allocates options channels p true (.allocated session)
        ({ p with sessions }.discount session)
  | fail {dissociate : Bool} {failure : Failure} :
    p.sessions = [] → Allocates options channels p dissociate (.failed failure) p
  | wait {dissociate : Bool} {reason : Reason} :
    p.sessions = [] → p.waitPredicate options reason = false →
      Allocates options channels p dissociate (.wait reason)
        { p with numWaitingForSession := p.numWaitingForSession + 1 }
  | create {dissociate : Bool} {counts : List (CreateCount χ)} {p' : SessionPool χ} :
    p.sessions = [] → p.totalSessions < maxPoolSize χ options → p.createCallsInProgress ≤ 0 →
      p.grow options channels (options.minSessions + 1) = (.ok counts, p') →
        Allocates options channels p dissociate (.create counts) p'

theorem allocates {options : SessionPoolOptions} {channels : List χ} {dissociate : Bool}
    {p p' : SessionPool χ} {result : Allocation χ}
    (h : p.allocate options channels dissociate = (result, p')) :
    Allocates options channels p dissociate result p' := by
  rw [allocate] at h
  cases hlast : p.sessions.getLast? with
  | some session =>
    obtain ⟨sessions, hsessions⟩ := List.getLast?_eq_some_iff.mp hlast
    simp only [hsessions, List.getLast?_append, List.getLast?_singleton, Option.some_or,
      List.dropLast_concat] at h
    cases dissociate with
    | true =>
      cases h
      exact .dissociate hsessions
    | false =>
      cases h
      exact .checkOut hsessions
  | none =>
    have hnil := List.getLast?_eq_none_iff.mp hlast
    simp only [hlast] at h
    split at h
    · next hfull =>
      cases haction : options.actionOnExhaustion with
      | fail =>
        rw [haction] at h
        cases h
        exact .fail hnil
      | block =>
        rw [haction] at h
        cases h
        exact .wait hnil (by simp [waitPredicate, hnil, hfull])
    · next hroom =>
      split at h
      · next hcalls =>
        cases h
        exact .wait hnil (by simp [waitPredicate, hnil, hcalls.ne'])
      · next hcalls =>
        split at h
        · next hgrow =>
          cases h
          simp only [grow] at hgrow
          split at hgrow
          · cases hgrow
            exact .fail hnil
          · cases hgrow
        · next hgrow =>
          cases h
          exact .create hnil (by simpa using hroom) (by simpa using hcalls) hgrow

/-- The flag says whether `cond_.notify_one()` is called after the lock is released. -/
def release (now : Int) (session : Session χ) (p : SessionPool χ) : Bool × SessionPool χ :=
  if session.isBad then (false, p.discount session)
  else
    (decide (0 < p.numWaitingForSession),
      { p with sessions := p.sessions ++ [{ session with lastUseTime := now }] })

def newSessions (object : Nat) (channel : χ) (now : Int) (names : List String) :
    List (Session χ) :=
  (names.zipIdx object).map fun (name, object) => ⟨object, name, some channel, false, now⟩

def createFailed (p : SessionPool χ) : SessionPool χ :=
  { p with createCallsInProgress := p.createCallsInProgress - 1 }

/-- `HandleBatchCreateSessionsDone()` with a response, where `shuffled` are the old and the new
sessions. -/
def created (channel : χ) (sessionsCreated : Int) (shuffled : List (Session χ))
    (p : SessionPool χ) : SessionPool χ :=
  { p with
    createCallsInProgress := p.createCallsInProgress - 1
    sessionCount :=
      Function.update p.sessionCount channel (p.sessionCount channel + sessionsCreated)
    totalSessions := p.totalSessions + sessionsCreated
    sessions := shuffled }

end SessionPool

end SpannerClient
