import SpannerClient.Internal.SessionPool
import SpannerClient.Library.Condition
import SpannerClient.Library.Tally
import SpannerClient.Library.Transition

/-! The threads that use one `SessionPool`, interleaved at its critical sections. -/

namespace SpannerClient.SessionPool

variable {ι χ : Type} [DecidableEq ι] [Fintype χ] [DecidableEq χ]

inductive Caller
  | initializePool
  | allocate (dissociate : Bool)
  deriving DecidableEq, Repr

/-- A call to `Grow()` that waits for its sessions: the calls it has yet to complete, in order, and
the last failure among the completed ones. -/
structure Growth (χ : Type) where
  caller : Caller
  calls : List (CreateCount χ)
  status : Status

/-- Where a thread stands.  `announcing` is about to call `notify_all()`, `handingOver` to call
`notify_one()`. -/
inductive Thread (χ : Type)
  | outside
  | allocating (dissociate : Bool)
  | asleep (dissociate : Bool) (reason : Reason)
  | woken (dissociate : Bool) (reason : Reason)
  | creating (growth : Growth χ)
  | announcing (growth : Option (Growth χ))
  | handingOver
  | refreshing (now : Int)

namespace Thread

def isAsleep : Thread χ → Bool
  | .asleep _ _ => true
  | _ => false

def wake : Thread χ → Thread χ
  | .asleep dissociate reason => .woken dissociate reason
  | t => t

def resume : Option (Growth χ) → Thread χ
  | some growth => .creating growth
  | none => .outside

end Thread

def cond : Condition (Thread χ) where
  Asleep t := t.isAsleep = true
  wake := Thread.wake

instance : DecidablePred (cond (χ := χ)).Asleep :=
  fun t => inferInstanceAs (Decidable (t.isAsleep = true))

def Allocation.next (dissociate : Bool) : Allocation χ → Thread χ
  | .allocated _ | .failed _ => .outside
  | .wait reason => .asleep dissociate reason
  | .create counts => .creating ⟨.allocate dissociate, counts, .success⟩

def Allocation.checkOut (dissociate : Bool) (checkedOut : List (Session χ)) :
    Allocation χ → List (Session χ)
  | .allocated session => if dissociate then checkedOut else session :: checkedOut
  | .failed _ | .wait _ | .create _ => checkedOut

/-- A pool and the threads that use it; `checkedOut` are the sessions held with the deleter that
calls `Release()`, `asyncCalls` the calls that no thread waits for. -/
structure System (ι χ : Type) where
  pool : SessionPool χ
  clock : Int
  objects : Nat
  thread : ι → Thread χ
  checkedOut : List (Session χ)
  asyncCalls : List (CreateCount χ)

namespace System

def make (now : Int) : System ι χ := ⟨SessionPool.make now, now, 0, fun _ => .outside, [], []⟩

inductive Arrives (options : SessionPoolOptions) (s : System ι χ) (v : ι) :
    Bool → SessionPool χ → Prop
  | call {dissociate : Bool} :
    s.thread v = .allocating dissociate → Arrives options s v dissociate s.pool
  | grown {dissociate : Bool} {status : Status} :
    s.thread v = .creating ⟨.allocate dissociate, [], status⟩ → status.ok = true →
      Arrives options s v dissociate s.pool
  | woken {dissociate : Bool} {reason : Reason} :
    s.thread v = .woken dissociate reason → s.pool.waitPredicate options reason = true →
      Arrives options s v dissociate
        { s.pool with numWaitingForSession := s.pool.numWaitingForSession - 1 }

/-- Thread `v` handles the response to a call, and then goes on with what is left of the growth
the call belongs to. -/
inductive Completes (s : System ι χ) (v : ι) :
    CreateCount χ → Option (Growth χ) → List (CreateCount χ) → Prop
  | sync {caller : Caller} {call : CreateCount χ} {calls : List (CreateCount χ)}
      {status : Status} :
    s.thread v = .creating ⟨caller, call :: calls, status⟩ →
      Completes s v call (some ⟨caller, calls, status⟩) s.asyncCalls
  | async {call : CreateCount χ} :
    s.thread v = .outside → call ∈ s.asyncCalls →
      Completes s v call none (s.asyncCalls.erase call)

end System

inductive Event (ι χ : Type)
  | tick (now : Int)
  | call (v : ι) (dissociate : Bool)
  | allocate (v : ι) (dissociate : Bool) (result : Allocation χ)
  | recheck (v : ι)
  | initializePool (v : ι) (counts : List (CreateCount χ))
  | maintain (v : ι) (counts : List (CreateCount χ))
  | created (v : ι) (call : CreateCount χ) (response : StatusOr (List String))
  | finishGrow (v : ι) (growth : Growth χ)
  | release (v : ι) (session : Session χ)
  | setBad (session : Session χ)
  | notify (v : ι)
  | readClock (v : ι)
  | refresh (v : ι) (sessions : List (Session χ))
  | wake (v : ι)

inductive Step (options : SessionPoolOptions) (spurious : Prop) :
    System ι χ → Event ι χ → System ι χ → Prop
  | tick {s : System ι χ} (now : Int) :
    Step options spurious s (.tick now) { s with clock := now }
  | call {s : System ι χ} {v : ι} {dissociate : Bool} :
    s.thread v = .outside →
      Step options spurious s (.call v dissociate)
        { s with thread := Function.update s.thread v (.allocating dissociate) }
  | allocate {s : System ι χ} {v : ι} {dissociate : Bool} {pool pool' : SessionPool χ}
      {channels : List χ} {result : Allocation χ} :
    s.Arrives options v dissociate pool → pool.SortedByCount channels →
      pool.allocate options channels dissociate = (result, pool') →
        Step options spurious s (.allocate v dissociate result)
          { s with
            pool := pool'
            thread := Function.update s.thread v (result.next dissociate)
            checkedOut := result.checkOut dissociate s.checkedOut }
  | recheck {s : System ι χ} {v : ι} {dissociate : Bool} {reason : Reason} :
    s.thread v = .woken dissociate reason → s.pool.waitPredicate options reason = false →
      Step options spurious s (.recheck v)
        { s with thread := Function.update s.thread v (.asleep dissociate reason) }
  | initializePool {s : System ι χ} {v : ι} {channels : List χ} {counts : List (CreateCount χ)}
      {pool : SessionPool χ} :
    s.thread v = .outside → 0 < options.minSessions → s.pool.SortedByCount channels →
      s.pool.grow options channels options.minSessions = (.ok counts, pool) →
        Step options spurious s (.initializePool v counts)
          { s with
            pool := pool
            thread := Function.update s.thread v (.creating ⟨.initializePool, counts, .success⟩) }
  | maintain {s : System ι χ} {v : ι} {channels : List χ} {counts : List (CreateCount χ)}
      {pool : SessionPool χ} :
    s.thread v = .outside → s.pool.createCallsInProgress = 0 →
      s.pool.totalSessions < options.minSessions → s.pool.SortedByCount channels →
        s.pool.grow options channels (s.pool.totalSessions - options.minSessions) =
            (.ok counts, pool) →
          Step options spurious s (.maintain v counts)
            { s with pool := pool, asyncCalls := s.asyncCalls ++ counts }
  | created {s : System ι χ} {v : ι} {call : CreateCount χ} {growth : Option (Growth χ)}
      {asyncCalls : List (CreateCount χ)} {names : List String} {shuffled : List (Session χ)} :
    s.Completes v call growth asyncCalls →
      shuffled.Perm (s.pool.sessions ++ newSessions s.objects call.channel s.clock names) →
        Step options spurious s (.created v call (.ok names))
          { s with
            pool := s.pool.created call.channel names.length shuffled
            objects := s.objects + names.length
            thread := Function.update s.thread v (.announcing growth)
            asyncCalls := asyncCalls }
  | createFailed {s : System ι χ} {v : ι} {call : CreateCount χ} {growth : Option (Growth χ)}
      {asyncCalls : List (CreateCount χ)} {e : Failure} :
    s.Completes v call growth asyncCalls →
      Step options spurious s (.created v call (.error e))
        { s with
          pool := s.pool.createFailed
          thread := Function.update s.thread v
            (.resume (growth.map fun growth => { growth with status := e.status }))
          asyncCalls := asyncCalls }
  | finishGrow {s : System ι χ} {v : ι} {growth : Growth χ} :
    s.thread v = .creating growth → growth.calls = [] →
      growth.caller = .initializePool ∨ growth.status.ok = false →
        Step options spurious s (.finishGrow v growth)
          { s with thread := Function.update s.thread v .outside }
  | release {s : System ι χ} {v : ι} {session : Session χ} {notify : Bool}
      {pool : SessionPool χ} :
    s.thread v = .outside → session ∈ s.checkedOut →
      s.pool.release s.clock session = (notify, pool) →
        Step options spurious s (.release v session)
          { s with
            pool := pool
            thread := Function.update s.thread v (if notify then .handingOver else .outside)
            checkedOut := s.checkedOut.erase session }
  | setBad {s : System ι χ} {session : Session χ} :
    session ∈ s.checkedOut →
      Step options spurious s (.setBad session)
        { s with checkedOut := { session with isBad := true } :: s.checkedOut.erase session }
  | notifyAll {s : System ι χ} {v : ι} {growth : Option (Growth χ)} :
    s.thread v = .announcing growth →
      Step options spurious s (.notify v)
        { s with thread := Function.update (cond.notifyAll s.thread) v (.resume growth) }
  | notifyOne {s : System ι χ} {v : ι} {thread : ι → Thread χ} :
    s.thread v = .handingOver → cond.NotifyOne s.thread thread →
      Step options spurious s (.notify v)
        { s with thread := Function.update thread v .outside }
  | readClock {s : System ι χ} {v : ι} :
    s.thread v = .outside →
      Step options spurious s (.readClock v)
        { s with thread := Function.update s.thread v (.refreshing s.clock) }
  | refresh {s : System ι χ} {v : ι} {now : Int} {sessions : List (Session χ)}
      {pool : SessionPool χ} :
    s.thread v = .refreshing now →
      s.pool.refreshExpiringSessions options now s.clock = (sessions, pool) →
        Step options spurious s (.refresh v sessions)
          { s with pool := pool, thread := Function.update s.thread v .outside }
  | wake {s : System ι χ} {v : ι} :
    spurious → (s.thread v).isAsleep = true →
      Step options spurious s (.wake v)
        { s with thread := Function.update s.thread v (s.thread v).wake }

end SpannerClient.SessionPool
