import Mathlib.Data.List.Infix

namespace SpannerClient

inductive StatusCode
  | ok | cancelled | unknown | invalidArgument | deadlineExceeded | notFound | alreadyExists
  | permissionDenied | unauthenticated | resourceExhausted | failedPrecondition | aborted
  | outOfRange | unimplemented | internal | unavailable | dataLoss
  deriving DecidableEq, Repr

namespace StatusCode

theorem unknown_ne_ok : unknown ≠ ok := by decide

theorem invalidArgument_ne_ok : invalidArgument ≠ ok := by decide

theorem notFound_ne_ok : notFound ≠ ok := by decide

theorem resourceExhausted_ne_ok : resourceExhausted ≠ ok := by decide

theorem aborted_ne_ok : aborted ≠ ok := by decide

theorem outOfRange_ne_ok : outOfRange ≠ ok := by decide

theorem internal_ne_ok : internal ≠ ok := by decide

theorem unavailable_ne_ok : unavailable ≠ ok := by decide

end StatusCode

structure Status where
  code : StatusCode
  message : String
  deriving DecidableEq, Repr

namespace Status

def success : Status := ⟨.ok, ""⟩

def ok (s : Status) : Bool := s.code == .ok

@[simp] theorem ok_success : success.ok = true := rfl

end Status

/-- A status that is not OK: all that a `StatusOr` may hold in place of its value. -/
structure Failure where
  status : Status
  not_ok : status.ok = false
  deriving DecidableEq

def Failure.of (code : StatusCode) (message : String) (h : code ≠ .ok) : Failure :=
  ⟨⟨code, message⟩, by simpa [Status.ok] using h⟩

abbrev StatusOr := Except Failure

def StatusOr.status : StatusOr α → Status
  | .ok _ => .success
  | .error e => e.status

theorem except_bind_eq_ok {ε α β : Type} {x : Except ε α} {f : α → Except ε β} {b : β} :
    (x >>= f) = .ok b ↔ ∃ a, x = .ok a ∧ f a = .ok b := by
  cases x <;> simp [bind, Except.bind]

/-- "Session not found" in the status message is an API guarantee. -/
def isSessionNotFound (s : Status) : Bool :=
  s.code == .notFound && decide ("Session not found".toList <:+: s.message.toList)

namespace SafeGrpcRetry

def isOk (s : Status) : Bool := s.ok

def isTransientFailure (s : Status) : Bool :=
  s.code == .unavailable || s.code == .resourceExhausted

def isPermanentFailure (s : Status) : Bool := !isOk s && !isTransientFailure s

end SafeGrpcRetry

namespace SafeTransactionRerun

def isOk (s : Status) : Bool := s.ok

def isTransientFailure (s : Status) : Bool := s.code == .aborted || isSessionNotFound s

def isPermanentFailure (s : Status) : Bool := !isOk s && !isTransientFailure s

end SafeTransactionRerun

end SpannerClient
