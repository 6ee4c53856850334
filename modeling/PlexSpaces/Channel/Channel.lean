import PlexSpaces.Journaling.Storage
/-!
# Channels

What the channel backends share: messages, errors, the configuration and its
retry limit.
-/

namespace PlexSpaces.Channel

export Journaling (Bytes)

inductive ChannelError where
  | channelClosed (name : String)
  | messageNotFound (id : String)
  | backendError (message : String)
deriving DecidableEq, Repr

structure Timestamp where
  seconds : Int
  nanos : Int
deriving DecidableEq, Repr

/-- A message, with the fields that a channel keeps. -/
structure Message where
  id : String
  channel : String := ""
  payload : Bytes := []
  timestamp : Option Timestamp := none
  headers : List (String × String) := []
  idempotencyKey : String := ""
  conflictResolution : Int := 0
  deliveryCount : UInt32 := 0
deriving DecidableEq, Repr

/-- `ConflictResolutionPolicyOverwrite`. -/
def overwritePolicy : Int := 1

structure RetryPolicy where
  maxAttempts : UInt32 := 0
  retryableErrors : List String := []

structure ChannelConfig where
  name : String := ""
  deadLetterQueue : String := ""
  retryPolicy : Option RetryPolicy := none
  dlqEnabled : Bool := false

def defaultMaxRetries : UInt32 := 3

def maxRetriesFromConfig (config : ChannelConfig) : UInt32 :=
  ((config.retryPolicy.map (·.maxAttempts)).filter (0 < ·)).getD defaultMaxRetries

end PlexSpaces.Channel
