import Mathlib.Order.Basic
import Mathlib.Data.Int.Order.Basic

namespace SpannerClient

inductive ActionOnExhaustion
  | block | fail
  deriving DecidableEq, Repr

structure SessionPoolOptions where
  minSessions : Int
  maxSessionsPerChannel : Int
  maxIdleSessions : Int
  actionOnExhaustion : ActionOnExhaustion
  keepAliveInterval : Int
  deriving Repr

namespace SessionPoolOptions

def enforceConstraints (o : SessionPoolOptions) (numChannels : Int) : SessionPoolOptions :=
  let maxSessionsPerChannel := max o.maxSessionsPerChannel 1
  { o with
    minSessions := min (max o.minSessions 0) (maxSessionsPerChannel * numChannels)
    maxSessionsPerChannel
    maxIdleSessions := max o.maxIdleSessions 0 }

theorem one_le_maxSessionsPerChannel (o : SessionPoolOptions) (numChannels : Int) :
    1 ≤ (o.enforceConstraints numChannels).maxSessionsPerChannel :=
  le_max_right _ _

end SessionPoolOptions

end SpannerClient
