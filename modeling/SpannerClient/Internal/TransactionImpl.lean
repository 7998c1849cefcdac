import SpannerClient.Protobuf.Transaction
import SpannerClient.Library.Condition
import SpannerClient.Library.Transition

/-! `TransactionImpl`, and the interleavings of the calls to its `Visit()`. -/

namespace SpannerClient

open Protobuf

inductive TransactionImpl.State
  | begin | pending | done
  deriving DecidableEq, Repr

/-- `ς` is what a `SessionHolder` points to. -/
structure TransactionImpl (ς : Type) where
  state : TransactionImpl.State
  session : Option ς
  selector : TransactionSelector
  seqno : Nat

namespace TransactionImpl

variable {ι ς : Type} [DecidableEq ι]

def stateOf (selector : TransactionSelector) : State :=
  if selector.hasBegin then .begin else .done

def make (session : Option ς) (selector : TransactionSelector) : TransactionImpl ς :=
  ⟨stateOf selector, session, selector, 0⟩

/-- The predicate of `cond_.wait`, and what the visitor does under the lock once it is true: it
runs its functor, and `pending` says whether it runs it as the only visitor. -/
inductive Admits : TransactionImpl ς → Bool → TransactionImpl ς → Prop
  | done {t : TransactionImpl ς} : t.state = .done → Admits t false t
  | begin {t : TransactionImpl ς} : t.state = .begin → Admits t true { t with state := .pending }

def settle (t : TransactionImpl ς) : TransactionImpl ς := { t with state := stateOf t.selector }

def abandon (t : TransactionImpl ς) : TransactionImpl ς := { t with state := .begin }

inductive Visitor
  | outside
  | asleep (seqno : Nat)
  | woken (seqno : Nat)
  | running (pending : Bool) (seqno : Nat)
  | leaving (threw : Bool)
  | notifying (all : Bool)
  | finished
  deriving DecidableEq, Repr

namespace Visitor

def isAsleep : Visitor → Bool
  | .asleep _ => true
  | _ => false

def isRunning : Visitor → Bool
  | .running _ _ => true
  | _ => false

def isPending : Visitor → Bool
  | .running pending _ => pending
  | .leaving _ => true
  | _ => false

def wake : Visitor → Visitor
  | .asleep seqno => .woken seqno
  | v => v

end Visitor

def cond : Condition Visitor where
  Asleep v := v.isAsleep = true
  wake := Visitor.wake

instance : DecidablePred cond.Asleep := fun v => inferInstanceAs (Decidable (v.isAsleep = true))

structure Config (ι ς : Type) where
  impl : TransactionImpl ς
  visitor : ι → Visitor

inductive Config.Arrives (c : Config ι ς) (v : ι) : Nat → TransactionImpl ς → Prop
  | call : c.visitor v = .outside →
    Arrives c v (c.impl.seqno + 1) { c.impl with seqno := c.impl.seqno + 1 }
  | resume {seqno : Nat} : c.visitor v = .woken seqno → Arrives c v seqno c.impl

inductive Event (ι ς : Type)
  | wait (v : ι)
  | start (v : ι) (seqno : Nat) (selector : TransactionSelector)
  | assignSession (v : ι) (session : ς)
  | setId (v : ι) (id : String)
  | finish (v : ι) (threw : Bool)
  | leave (v : ι)
  | notify (v : ι)
  | wake (v : ι)

/-- One step of one visitor.  Functors keep the contract of `Visit()`: they assign a session only
where there is none, and set an id only where the selector is `begin`. -/
inductive Step (spurious : Prop) : Config ι ς → Event ι ς → Config ι ς → Prop
  | wait {c : Config ι ς} {v : ι} {seqno : Nat} {impl : TransactionImpl ς} :
    c.Arrives v seqno impl → impl.state = .pending →
      Step spurious c (.wait v) ⟨impl, Function.update c.visitor v (.asleep seqno)⟩
  | start {c : Config ι ς} {v : ι} {seqno : Nat} {pending : Bool} {impl impl' : TransactionImpl ς} :
    c.Arrives v seqno impl → impl.Admits pending impl' →
      Step spurious c (.start v seqno impl'.selector)
        ⟨impl', Function.update c.visitor v (.running pending seqno)⟩
  | assignSession {c : Config ι ς} {v : ι} {session : ς} :
    (c.visitor v).isRunning = true → c.impl.session = none →
      Step spurious c (.assignSession v session)
        { c with impl := { c.impl with session := some session } }
  | setId {c : Config ι ς} {v : ι} {id : String} :
    (c.visitor v).isRunning = true → c.impl.selector.hasBegin = true →
      Step spurious c (.setId v id) { c with impl := { c.impl with selector := .id id } }
  | finish {c : Config ι ς} {v : ι} {pending threw : Bool} {seqno : Nat} :
    c.visitor v = .running pending seqno →
      Step spurious c (.finish v threw) { c with
        visitor := Function.update c.visitor v (if pending then .leaving threw else .finished) }
  | leave {c : Config ι ς} {v : ι} {threw : Bool} {impl : TransactionImpl ς} :
    c.visitor v = .leaving threw → impl = (if threw then c.impl.abandon else c.impl.settle) →
      Step spurious c (.leave v)
        ⟨impl, Function.update c.visitor v (.notifying (decide (impl.state = .done)))⟩
  | notifyAll {c : Config ι ς} {v : ι} :
    c.visitor v = .notifying true →
      Step spurious c (.notify v)
        { c with visitor := Function.update (cond.notifyAll c.visitor) v .finished }
  | notifyOne {c : Config ι ς} {v : ι} {visitor : ι → Visitor} :
    c.visitor v = .notifying false → cond.NotifyOne c.visitor visitor →
      Step spurious c (.notify v) { c with visitor := Function.update visitor v .finished }
  | wake {c : Config ι ς} {v : ι} :
    spurious → (c.visitor v).isAsleep = true →
      Step spurious c (.wake v)
        { c with visitor := Function.update c.visitor v (c.visitor v).wake }

def Config.initial (session : Option ς) (selector : TransactionSelector) : Config ι ς :=
  ⟨make session selector, fun _ => .outside⟩

end TransactionImpl

end SpannerClient
