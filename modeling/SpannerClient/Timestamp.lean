import SpannerClient.Status
import SpannerClient.Protobuf.Transaction

namespace SpannerClient

def nanosPerSecond : Int := 1000000000

def int64Max : Int := 9223372036854775807

def int64Min : Int := -9223372036854775808

structure Timestamp where
  sec : Int
  nsec : Int
  normalized : 0 ≤ nsec ∧ nsec < nanosPerSecond
  deriving DecidableEq, Repr

namespace Timestamp

theorem normalized_zero : (0 : Int) ≤ 0 ∧ 0 < nanosPerSecond := by decide

def positiveOverflow : Failure :=
  .of .outOfRange "google::cloud::spanner::Timestamp positive overflow" StatusCode.outOfRange_ne_ok

def negativeOverflow : Failure :=
  .of .outOfRange "google::cloud::spanner::Timestamp negative overflow" StatusCode.outOfRange_ne_ok

/-- A remainder below zero borrows from the seconds. -/
def fromCounts (sec nsec : Int) : StatusOr Timestamp :=
  let carry := if nsec.tmod nanosPerSecond < 0 then nsec.tdiv nanosPerSecond - 1
    else nsec.tdiv nanosPerSecond
  let nanos := if nsec.tmod nanosPerSecond < 0 then nsec.tmod nanosPerSecond + nanosPerSecond
    else nsec.tmod nanosPerSecond
  if 0 ≤ sec ∧ 0 < carry ∧ int64Max - carry < sec then .error positiveOverflow
  else if sec < 0 ∧ carry < 0 ∧ sec < int64Min - carry then .error negativeOverflow
  else .ok ⟨sec + carry, nanos, by
    have hpos : 0 < nanosPerSecond := by decide
    have hlt := Int.tmod_lt_of_pos nsec hpos
    have hgt := Int.lt_tmod_of_pos nsec hpos
    simp only [nanos]
    split <;> omega⟩

def fromProto (proto : Protobuf.Timestamp) : Timestamp :=
  match fromCounts proto.seconds proto.nanos with
  | .ok ts => ts
  | .error _ =>
    if 0 ≤ proto.seconds then ⟨int64Max, nanosPerSecond - 1, by decide⟩
    else ⟨int64Min, 0, normalized_zero⟩

end Timestamp

end SpannerClient
