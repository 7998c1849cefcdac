import SpannerClient.TimestampText
import SpannerClient.Library.CheckedInt

/-! `Timestamp` to and from `std::chrono`. An operation without a result, here and in what calls
it, is one that overflows its type. -/

namespace SpannerClient

def int64 : NumericLimits := ⟨int64Min, int64Max, by decide⟩

def int32 : NumericLimits := ⟨Internal.intMin, Internal.intMax, by decide⟩

/-- `std::ratio`, of the kind that the conversions are designed for. -/
structure Period where
  num : Int
  den : Int
  num_mem : 1 ≤ num ∧ num ≤ int64Max
  den_pow : ∃ k ≤ 18, den = ((10 ^ k : Nat) : Int)
  designed : num = 1 ∨ den = 1

def nano : Period := ⟨1, 1000000000, by decide, ⟨9, by decide, by decide⟩, by decide⟩

def atto : Period :=
  ⟨1, 1000000000000000000, by decide, ⟨18, by decide, by decide⟩, by decide⟩

structure SysTime (p : Period) where
  count : Int
  count_mem : int64.Holds count
  deriving DecidableEq

namespace Timestamp

def positiveOverflowOf (type : String) : Failure := outOfRange (type ++ " positive overflow")

def negativeOverflowOf (type : String) : Failure := outOfRange (type ++ " negative overflow")

def ofNormalized (sec nsec : Int) : Option Timestamp :=
  if h : 0 ≤ nsec ∧ nsec < nanosPerSecond then some ⟨sec, nsec, h⟩ else none

def withCarry (sec carry nanos : Int) : Option (StatusOr Timestamp) := do
  let total ← int64.add sec carry
  let ts ← ofNormalized total nanos
  some (.ok ts)

def guardCarry (sec carry nanos : Int) : Option (StatusOr Timestamp) :=
  if 0 ≤ sec ∧ 0 < carry then do
    let limit ← int64.sub int64Max carry
    if limit < sec then some (.error positiveOverflow) else withCarry sec carry nanos
  else if sec < 0 ∧ carry < 0 then do
    let limit ← int64.sub int64Min carry
    if sec < limit then some (.error negativeOverflow) else withCarry sec carry nanos
  else withCarry sec carry nanos

def fromIntmaxCounts (sec nsec : Int) : Option (StatusOr Timestamp) := do
  let carry ← int64.div nsec nanosPerSecond
  let remainder ← int64.mod nsec nanosPerSecond
  let nanos := toInt32 remainder
  if nanos < 0 then do
    let nanos ← int32.add nanos nanosPerSecond
    let carry ← int64.sub carry 1
    guardCarry sec carry nanos
  else guardCarry sec carry nanos

def guardProduct (a b : Int) (positive negative : Failure) (rest : Option (StatusOr α)) :
    Option (StatusOr α) :=
  if 0 ≤ a then do
    let limit ← int64.div int64Max b
    if limit < a then some (.error positive) else rest
  else do
    let limit ← int64.div int64Min b
    if a < limit then some (.error negative) else rest

def floorCount (sscount divider : Int) : Option Int :=
  if sscount < 0 then do
    let shift ← int64.sub divider 1
    let sscount ← int64.sub sscount shift
    int64.div sscount divider
  else int64.div sscount divider

def subsecondNanos (sscount numerator denominator : Int) : Option Int :=
  if nanosPerSecond < denominator then do
    let divider ← int64.div denominator nanosPerSecond
    let nanos ← floorCount sscount divider
    int64.mul nanos numerator
  else do
    let multiplier ← int64.div nanosPerSecond denominator
    let nanos ← int64.mul sscount multiplier
    int64.mul nanos numerator

def fromSeconds (count sec numerator denominator : Int) : Option (StatusOr Timestamp) := do
  let sec ← int64.mul sec numerator
  let scaled ← int64.mul sec denominator
  let whole ← int64.div scaled numerator
  let sscount ← int64.sub count whole
  let nsec ← subsecondNanos sscount numerator denominator
  fromIntmaxCounts sec nsec

def fromRatio (count numerator denominator : Int) : Option (StatusOr Timestamp) := do
  let sec ← int64.div count denominator
  guardProduct sec numerator positiveOverflow negativeOverflow
    (fromSeconds count sec numerator denominator)

def timePointType : String := "std::chrono::time_point"

def subsecondCount (nsec numerator denominator : Int) : Option Int := do
  let ncount ← int64.div nsec numerator
  if denominator < nanosPerSecond then do
    let divider ← int64.div nanosPerSecond denominator
    int64.div ncount divider
  else do
    let multiplier ← int64.div denominator nanosPerSecond
    int64.mul ncount multiplier

def toCount (ts : Timestamp) (count min max numerator denominator : Int) :
    Option (StatusOr Int) := do
  let count ← int64.mul count denominator
  let ncount ← subsecondCount ts.nsec numerator denominator
  let room ← int64.sub int64Max ncount
  if room < count then some (.error (positiveOverflowOf timePointType))
  else do
    let count ← int64.add count ncount
    if max < count then some (.error (positiveOverflowOf timePointType))
    else if count < min then some (.error (negativeOverflowOf timePointType))
    else some (.ok count)

/-- The guard looks at the whole seconds, before the nanoseconds are added. -/
def toRatio (ts : Timestamp) (min max numerator denominator : Int) : Option (StatusOr Int) := do
  let count ← int64.div ts.sec numerator
  guardProduct count denominator (positiveOverflowOf timePointType)
    (negativeOverflowOf timePointType) (ts.toCount count min max numerator denominator)

def unixEpoch (p : Period) : SysTime p := ⟨0, NumericLimits.holds_zero⟩

def convertTo (ts : Timestamp) (p : Period) : Option (StatusOr (SysTime p)) := do
  match ← ts.toRatio int64.min int64.max p.num p.den with
  | .error failure => some (.error failure)
  | .ok count => do
    let sum ← int64.add (unixEpoch p).count count
    if h : int64.Holds sum then some (.ok ⟨sum, h⟩) else none

def get (ts : Timestamp) (p : Period) : Option (StatusOr (SysTime p)) := ts.convertTo p

def makeTimestamp {p : Period} (tp : SysTime p) : Option (StatusOr Timestamp) := do
  let count ← int64.sub tp.count (unixEpoch p).count
  fromRatio count p.num p.den

end Timestamp

end SpannerClient
