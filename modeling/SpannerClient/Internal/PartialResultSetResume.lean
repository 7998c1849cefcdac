import SpannerClient.Policy
import SpannerClient.Internal.PartialResultSetReader

namespace SpannerClient

open Protobuf Fuel

/-- What a `PartialResultSetResume` is constructed from.  `ρ` is the state of a child reader, `ω`
the state of the factory, `π` and `β` those of the two policies. -/
structure PartialResultSetResume (ρ ω π β : Type) where
  childReader : PartialResultSetReader ρ
  factory : String → ω → ρ × ω
  isIdempotent : Idempotency
  retryPolicy : RetryPolicy π
  backoffPolicy : BackoffPolicy β

namespace PartialResultSetResume

structure State (ρ ω π β : Type) where
  lastResumeToken : String
  child : ρ
  lastStatus : Option Status
  world : ω
  retryState : π
  backoffState : β

variable {ρ ω π β : Type} (R : PartialResultSetResume ρ ω π β)

def make (world : ω) (retryState : π) (backoffState : β) : State ρ ω π β :=
  let (child, world) := R.factory "" world
  ⟨"", child, none, world, retryState, backoffState⟩

def tryCancel (s : State ρ ω π β) : State ρ ω π β :=
  { s with child := R.childReader.tryCancel s.child }

def finish (s : State ρ ω π β) : Status × State ρ ω π β :=
  match s.lastStatus with
  | some status => (status, s)
  | none =>
    let (status, child) := R.childReader.finish s.child
    (status, { s with child, lastStatus := some status })

def restart (s : State ρ ω π β) : State ρ ω π β :=
  let (_, backoffState) := R.backoffPolicy.onCompletion s.backoffState
  let (child, world) := R.factory s.lastResumeToken s.world
  { s with lastStatus := none, child, world, backoffState }

def read : Nat → State ρ ω π β → Option (Option PartialResultSet × State ρ ω π β)
  | 0, _ => none
  | fuel + 1, s => do
    let (result, child) ← R.childReader.read fuel s.child
    let s := { s with child }
    match result with
    | some r => return (some r, { s with lastResumeToken := r.resumeToken })
    | none =>
      let (status, s) := R.finish s
      if status.ok then return (none, s)
      if R.isIdempotent = .notIdempotent then return (none, s)
      let (retry, retryState) := R.retryPolicy.onFailure status s.retryState
      let s := { s with retryState }
      if !retry then return (none, s)
      let s := R.restart s
      let (exhausted, retryState) := R.retryPolicy.isExhausted s.retryState
      let s := { s with retryState }
      if exhausted then return (none, s)
      read fuel s

def reader : PartialResultSetReader (State ρ ω π β) where
  tryCancel := R.tryCancel
  read := R.read
  finish := R.finish

variable {R}

theorem read_value {s : State ρ ω π β} {r : PartialResultSet} {child : ρ}
    (h : R.childReader.Reads s.child (some r) child) :
    R.reader.Reads s (some r) { s with child, lastResumeToken := r.resumeToken } := by
  apply Converges.of_succ (fun _ => rfl)
  exact Converges.bind h (Converges.const _)

theorem read_end {s : State ρ ω π β} {child : ρ} (h : R.childReader.Reads s.child none child)
    (hok : (R.finish { s with child }).1.ok = true) :
    R.reader.Reads s none (R.finish { s with child }).2 := by
  apply Converges.of_succ (fun _ => rfl)
  apply Converges.bind h
  apply Converges.congr _ (Converges.const _)
  intro fuel
  simp [hok]

theorem read_restart {s s₁ t : State ρ ω π β} {child : ρ} {status : Status}
    (h : R.childReader.Reads s.child none child)
    (hfinish : R.finish { s with child } = (status, s₁)) (hfail : status.ok = false)
    (hidem : R.isIdempotent = .idempotent)
    (hretry : (R.retryPolicy.onFailure status s₁.retryState).1 = true)
    (ht : t = R.restart { s₁ with retryState := (R.retryPolicy.onFailure status s₁.retryState).2 })
    (hexh : (R.retryPolicy.isExhausted t.retryState).1 = false)
    {result : Option PartialResultSet} {s' : State ρ ω π β}
    (hread : R.reader.Reads { t with retryState := (R.retryPolicy.isExhausted t.retryState).2 }
      result s') : R.reader.Reads s result s' := by
  apply Converges.of_succ (fun _ => rfl)
  apply Converges.bind h
  apply Converges.congr _ hread
  intro fuel
  subst ht
  simp [hfinish, hfail, hidem, hretry, hexh, reader]

end PartialResultSetResume

end SpannerClient
