import SpannerClient.Internal.TransactionImpl

namespace SpannerClient

open Protobuf

/-- A handle on a shared `TransactionImpl`: `object` says which one, `impl` what is in it. -/
structure Transaction (ς : Type) where
  object : Nat
  impl : TransactionImpl ς

namespace Transaction

variable {ς : Type}

def readWrite (object : Nat) : Transaction ς := ⟨object, .make none (.begin .readWrite)⟩

def readWriteAfter (object : Nat) (txn : Transaction ς) : Transaction ς :=
  ⟨object, .make txn.impl.session (.begin .readWrite)⟩

def ofIds (object : Nat) (session : ς) (transactionId : String) : Transaction ς :=
  ⟨object, .make (some session) (.id transactionId)⟩

end Transaction

end SpannerClient
