import SpannerClient.TimestampRatio
import Mathlib.Order.MinMax

namespace SpannerClient

open NumericLimits

def Protobuf.Timestamp.instant (proto : Protobuf.Timestamp) : Int :=
  proto.seconds * nanosPerSecond + proto.nanos

namespace Timestamp

def fromProtoCounts (proto : Protobuf.Timestamp) : Option Timestamp := do
  match ← fromIntmaxCounts proto.seconds proto.nanos with
  | .ok ts => some ts
  | .error _ =>
    if 0 ≤ proto.seconds then do
      let nanos ← int32.sub nanosPerSecond 1
      ofNormalized int64Max nanos
    else ofNormalized int64Min 0

def toProto (ts : Timestamp) : Protobuf.Timestamp := ⟨ts.sec, ts.nsec⟩

def lt (a b : Timestamp) : Bool := a.sec < b.sec ∨ a.sec = b.sec ∧ a.nsec < b.nsec

def le (a b : Timestamp) : Bool := !b.lt a

def total (ts : Timestamp) : Int := ts.sec * nanosPerSecond + ts.nsec

def leastTotal : Int := int64Min * nanosPerSecond

def greatestTotal : Int := int64Max * nanosPerSecond + (nanosPerSecond - 1)

theorem le_iff_total (a b : Timestamp) : a.le b = true ↔ a.total ≤ b.total := by
  have ha := a.normalized
  have hb := b.normalized
  simp only [le, lt, total, nanosPerSecond, Bool.not_eq_true', decide_eq_false_iff_not] at *
  omega

theorem holds_iff_total (ts : Timestamp) :
    int64.Holds ts.sec ↔ leastTotal ≤ ts.total ∧ ts.total ≤ greatestTotal := by
  have hnsec := ts.normalized
  simp only [int64_holds, leastTotal, greatestTotal, total, nanosPerSecond, int64Min, int64Max]
    at *
  omega

theorem nanos_holds {n : Int} (h : int32.Holds n) : int64.Holds n := by
  rw [int32_holds] at h
  rw [int64_holds]
  omega

section InRange

variable {proto : Protobuf.Timestamp} (hseconds : int64.Holds proto.seconds)
  (hnanos : int32.Holds proto.nanos)

include hseconds hnanos

theorem fromProtoCounts_eq : fromProtoCounts proto = some (fromProto proto) := by
  have hcounts := fromIntmaxCounts_fromCounts hseconds (nanos_holds hnanos)
  rw [fromProtoCounts, hcounts, fromProto]
  simp only [Option.bind_eq_bind, Option.bind_some]
  cases fromCounts proto.seconds proto.nanos with
  | ok ts => rfl
  | error failure =>
    have hlast : int32.sub nanosPerSecond 1 = some (nanosPerSecond - 1) := sub_eq (by decide)
    by_cases hsign : 0 ≤ proto.seconds
    · simp only [hsign, if_true, hlast, Option.bind_some]
      rfl
    · simp only [hsign, if_false]
      rfl

theorem fromCounts_instant : fromCounts proto.seconds proto.nanos = ofNanos proto.instant := by
  have hnanos64 := nanos_holds hnanos
  have heq := fromIntmaxCounts_eq hseconds hnanos64
  rw [fromIntmaxCounts_fromCounts hseconds hnanos64, Option.some_inj] at heq
  exact heq

theorem total_fromProto :
    (fromProto proto).total = max leastTotal (min greatestTotal proto.instant) := by
  have hcounts := fromCounts_instant hseconds hnanos
  have hinstant : proto.instant = proto.seconds * 1000000000 + proto.nanos := rfl
  have hsum : 1000000000 * (proto.instant / nanosPerSecond) + proto.instant % nanosPerSecond =
      proto.instant := Int.mul_ediv_add_emod proto.instant nanosPerSecond
  have hends : leastTotal = -9223372036854775808000000000 ∧
      greatestTotal = 9223372036854775807999999999 := by decide
  have hrange : int64Min = -9223372036854775808 ∧ int64Max = 9223372036854775807 := by decide
  have hrest : proto.instant % nanosPerSecond < 1000000000 :=
    Int.emod_lt_of_pos proto.instant nanosPerSecond_pos
  have hnonneg := Int.emod_nonneg proto.instant nanosPerSecond_pos.ne'
  rw [int64_holds] at hseconds
  rw [int32_holds] at hnanos
  by_cases habove : int64Max < proto.instant / nanosPerSecond
  · -- nanoseconds alone do not carry so far below zero
    have hsign : 0 ≤ proto.seconds := by omega
    rw [ofNanos, if_pos habove] at hcounts
    rw [fromProto, hcounts]
    simp only [if_pos hsign]
    change greatestTotal = _
    omega
  · by_cases hbelow : proto.instant / nanosPerSecond < int64Min
    · have hsign : ¬ 0 ≤ proto.seconds := by omega
      rw [ofNanos, if_neg habove, if_pos hbelow] at hcounts
      rw [fromProto, hcounts]
      simp only [if_neg hsign]
      change leastTotal = _
      omega
    · rw [ofNanos, if_neg habove, if_neg hbelow] at hcounts
      rw [fromProto, hcounts]
      change proto.instant / nanosPerSecond * 1000000000 + proto.instant % nanosPerSecond = _
      omega

end InRange

theorem fromProto_toProto {ts : Timestamp} (h : int64.Holds ts.sec) :
    fromProto ts.toProto = ts := by
  have hnsec := ts.normalized
  have hnanos : int32.Holds ts.toProto.nanos := by
    simp only [nanosPerSecond] at hnsec
    exact int32_holds.mpr (by simp only [toProto]; omega)
  have hcounts : fromCounts ts.toProto.seconds ts.toProto.nanos = .ok ts :=
    (fromCounts_instant h hnanos).trans (ofNanos_of_holds h hnsec)
  rw [fromProto, hcounts]

/-- Without an overflow, the result is the exact instant clamped to the range of a timestamp, in the
order of the instants, and a timestamp comes back from its message. -/
theorem fromProto_saturates :
    (∀ {proto : Protobuf.Timestamp}, int64.Holds proto.seconds → int32.Holds proto.nanos →
      fromProtoCounts proto = some (fromProto proto) ∧
      int64.Holds (fromProto proto).sec ∧
      (fromProto proto).total = max leastTotal (min greatestTotal proto.instant)) ∧
    (∀ {proto proto' : Protobuf.Timestamp}, int64.Holds proto.seconds →
      int32.Holds proto.nanos → int64.Holds proto'.seconds → int32.Holds proto'.nanos →
      proto.instant ≤ proto'.instant → (fromProto proto).le (fromProto proto') = true) ∧
    ∀ {ts : Timestamp}, int64.Holds ts.sec → fromProto ts.toProto = ts := by
  refine ⟨?_, ?_, fromProto_toProto⟩
  · intro proto hseconds hnanos
    have htotal := total_fromProto hseconds hnanos
    have hends : leastTotal ≤ greatestTotal := by decide
    refine ⟨fromProtoCounts_eq hseconds hnanos, ?_, htotal⟩
    rw [holds_iff_total, htotal]
    exact ⟨le_max_left _ _, max_le hends (min_le_left _ _)⟩
  · intro proto proto' hseconds hnanos hseconds' hnanos' hle
    rw [le_iff_total, total_fromProto hseconds hnanos, total_fromProto hseconds' hnanos']
    exact max_le_max_left _ (min_le_min_left _ hle)

theorem fromProto_saturates_after : (fromProto ⟨int64Max, 2000000000⟩).total = greatestTotal :=
  (fromProto_saturates.1 (by decide) (by decide)).2.2.trans (by decide)

end Timestamp

end SpannerClient
