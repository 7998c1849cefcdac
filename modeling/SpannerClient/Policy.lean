import SpannerClient.Status

/-! The policy classes are interfaces.  What an implementation counts or reads from a clock is
its state, which every call may advance. -/

namespace SpannerClient

structure RetryPolicy (π : Type) where
  onFailure : Status → π → Bool × π
  isExhausted : π → Bool × π

structure BackoffPolicy (β : Type) where
  onCompletion : β → Nat × β

inductive Idempotency
  | notIdempotent | idempotent
  deriving DecidableEq

/-- The policy lets each failure of the list pass, in order, and is not exhausted after it. -/
def RetryPolicy.Tolerates (p : RetryPolicy π) : π → List Status → Prop
  | _, [] => True
  | s, status :: rest =>
    (p.onFailure status s).1 = true ∧
    (p.isExhausted (p.onFailure status s).2).1 = false ∧
    p.Tolerates (p.isExhausted (p.onFailure status s).2).2 rest

def limitedErrorCount (maximumFailures : Nat) : RetryPolicy Nat where
  onFailure status count :=
    if SafeGrpcRetry.isPermanentFailure status then (false, count)
    else (decide (count + 1 ≤ maximumFailures), count + 1)
  isExhausted count := (decide (maximumFailures < count), count)

def exponentialBackoff (maximum : Nat) : BackoffPolicy Nat where
  onCompletion delay := (delay, min (2 * delay) maximum)

end SpannerClient
