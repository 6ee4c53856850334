import PlexSpaces.Channel.Channel
/-!
# The outbox relay

A relay takes batches of messages from a channel and processes them one after
another: it acquires a permit of the concurrency limiter, calls `deliver`, and
acks or nacks the message.  The channel is an interface with the calls that the
relay makes.  The outcomes of `deliver` and the jittered backoff come from
outside; `processed` is the trace of what was tried.
-/

namespace PlexSpaces.Outbox

open PlexSpaces.Channel

/-! ## Retry policy -/

def eqIgnoreAsciiCase (a b : String) : Bool :=
  a.toList.map Char.toLower == b.toList.map Char.toLower

/-- Whether there is another attempt after this one; attempts count from 1. -/
def shouldRetry (policy : RetryPolicy) (attempt : UInt32) (error : String) : Bool :=
  let max := if policy.maxAttempts = 0 then 1 else policy.maxAttempts
  if max ≤ attempt then false
  else if policy.retryableErrors.isEmpty then true
  else policy.retryableErrors.any (eqIgnoreAsciiCase · error)

/-! ## Concurrency limiter -/

inductive ConcurrencyStrategy where
  | aimd
  | fixed
deriving DecidableEq, Repr

structure ConcurrencyConfig where
  initialLimit : UInt32 := 0
  minLimit : UInt32 := 0
  maxLimit : UInt32 := 0
  strategy : ConcurrencyStrategy := .aimd

structure ConcurrencyLimiter where
  currentLimit : UInt32
  inFlight : UInt32 := 0
  minLimit : UInt32
  maxLimit : UInt32
  strategy : ConcurrencyStrategy

namespace ConcurrencyLimiter

def orDefault (value default : UInt32) : UInt32 := if value = 0 then default else value

/-- `none` where `clamp` panics because the limits are in the wrong order. -/
def new (config : ConcurrencyConfig) : Option ConcurrencyLimiter :=
  let initial := orDefault config.initialLimit 100
  let minLimit := orDefault config.minLimit 1
  let maxLimit := orDefault config.maxLimit 10000
  if maxLimit < minLimit then none
  else some
    { currentLimit := max minLimit (min initial maxLimit)
      minLimit, maxLimit, strategy := config.strategy }

variable (limiter : ConcurrencyLimiter)

/-- The limiter with one more permit in flight, if there is one. -/
def tryAcquire : Option ConcurrencyLimiter :=
  if limiter.currentLimit ≤ limiter.inFlight then none
  else some { limiter with inFlight := limiter.inFlight + 1 }

/-- The limit moves under AIMD, and the permit goes back. -/
def release (limit : UInt32) : ConcurrencyLimiter :=
  { limiter with
    currentLimit := if limiter.strategy = .aimd then limit else limiter.currentLimit
    inFlight := limiter.inFlight - 1 }

def onSuccess : ConcurrencyLimiter :=
  limiter.release (min (limiter.currentLimit + 1) limiter.maxLimit)

def onRejection : ConcurrencyLimiter :=
  limiter.release (max (limiter.currentLimit / 2) limiter.minLimit)

def available : UInt32 :=
  if limiter.inFlight ≤ limiter.currentLimit then limiter.currentLimit - limiter.inFlight else 0

end ConcurrencyLimiter

/-! ## The relay -/

inductive DeliveryError where
  | capacity (message : String) (retryAfterMs : Nat)
  | transient (message : String)
deriving DecidableEq, Repr

def DeliveryError.toString : DeliveryError → String
  | capacity message retryAfterMs =>
      s!"RESOURCE_EXHAUSTED: {message} (retry_after_ms={retryAfterMs})"
  | transient message => message

/-- What `deliver` answers; `backoff` is the delay that the policy then yields. -/
inductive Outcome where
  | delivered
  | failed (error : DeliveryError) (backoff : Nat)

/-- The calls of a channel on its state `σ`.  A send tells whether the message was
accepted; the relay only logs the results of `ack` and `nack`. -/
structure ChannelApi (σ : Type) where
  send : Message → σ → Bool × σ
  tryReceive : UInt32 → σ → List Message × σ
  ack : String → σ → σ
  nack : String → Bool → Option Nat → σ → σ

structure OutboxConfig where
  concurrency : ConcurrencyConfig := {}
  retryPolicy : RetryPolicy := {}
  relayBatchSize : UInt64 := 0

structure OutboxRelay where
  retryPolicy : RetryPolicy
  batchSize : UInt64

def OutboxRelay.new (config : OutboxConfig) : OutboxRelay where
  retryPolicy := config.retryPolicy
  batchSize := if config.relayBatchSize = 0 then 100 else config.relayBatchSize

structure RelayStats where
  delivered : Nat := 0
  failed : Nat := 0
  deadLettered : Nat := 0
  pending : Nat := 0
deriving DecidableEq, Repr

/-- What became of a message that was processed. -/
inductive Attempt where
  | refused (message : Message)
  | delivered (message : Message)
  | failed (message : Message) (error : DeliveryError)

def Attempt.message : Attempt → Message
  | refused message | delivered message | failed message _ => message

/-- A relay with its channel; `batch` holds the messages of the current batch that are still
to be processed, the message in progress first. -/
structure RelayState (σ : Type) where
  channel : σ
  limiter : ConcurrencyLimiter
  stats : RelayStats := {}
  running : Bool := false
  batch : List Message := []
  processed : List Attempt := []

inductive RelayAction where
  | run
  | stop
  | poll
  | process (outcome : Outcome)

namespace OutboxRelay

variable {σ : Type} (relay : OutboxRelay) (api : ChannelApi σ)

def attempt (limiter : ConcurrencyLimiter) (message : Message) : Outcome → Attempt
  | .delivered => if limiter.tryAcquire.isSome then .delivered message else .refused message
  | .failed error _ =>
      if limiter.tryAcquire.isSome then .failed message error else .refused message

def processMessage (message : Message) (outcome : Outcome) (st : RelayState σ) : RelayState σ :=
  let st := { st with processed := st.processed ++ [attempt st.limiter message outcome] }
  match st.limiter.tryAcquire with
  | none => { st with channel := api.nack message.id true none st.channel }
  | some limiter =>
      match outcome with
      | .delivered =>
          { st with
            limiter := limiter.onSuccess
            stats := { st.stats with delivered := st.stats.delivered + 1 }
            channel := api.ack message.id st.channel }
      | .failed error backoff =>
          let limiter := match error with
            | .capacity _ _ => limiter.onRejection
            | .transient _ => limiter.onSuccess
          let attempt := message.deliveryCount + 1
          if shouldRetry relay.retryPolicy attempt error.toString then
            { st with limiter, channel := api.nack message.id true (some backoff) st.channel }
          else
            { st with
              limiter
              stats := { st.stats with
                failed := st.stats.failed + 1, deadLettered := st.stats.deadLettered + 1 }
              channel := api.nack message.id false none st.channel }

/-- The head of the loop: take a batch, if the loop runs and there are permits. -/
def poll (st : RelayState σ) : RelayState σ :=
  let batchLimit := min st.limiter.available relay.batchSize.toUInt32
  if batchLimit = 0 then st
  else
    let (messages, channel) := api.tryReceive batchLimit st.channel
    { st with channel, stats := { st.stats with pending := messages.length }, batch := messages }

def step (st : RelayState σ) : RelayAction → RelayState σ
  | .run => { st with running := true }
  | .stop => { st with running := false }
  | .poll => if st.running ∧ st.batch = [] then relay.poll api st else st
  | .process outcome =>
      match st.batch with
      | [] => st
      | message :: batch => relay.processMessage api message outcome { st with batch }

/-! ## What processing a message does -/

/-- The effect of processing a message on the channel and the counters, by what came of it. -/
inductive Effect (message : Message) (st st' : RelayState σ) : Attempt → Prop
  | refused (hpermit : st.limiter.tryAcquire = none)
      (hchannel : st'.channel = api.nack message.id true none st.channel)
      (hstats : st'.stats = st.stats) : Effect message st st' (.refused message)
  | delivered (hchannel : st'.channel = api.ack message.id st.channel)
      (hstats : st'.stats = { st.stats with delivered := st.stats.delivered + 1 }) :
      Effect message st st' (.delivered message)
  | retried (error : DeliveryError) (backoff : Nat)
      (hretry : shouldRetry relay.retryPolicy (message.deliveryCount + 1) error.toString = true)
      (hchannel : st'.channel = api.nack message.id true (some backoff) st.channel)
      (hstats : st'.stats = st.stats) : Effect message st st' (.failed message error)
  | exhausted (error : DeliveryError)
      (hretry : shouldRetry relay.retryPolicy (message.deliveryCount + 1) error.toString = false)
      (hchannel : st'.channel = api.nack message.id false none st.channel)
      (hstats : st'.stats = { st.stats with
        failed := st.stats.failed + 1, deadLettered := st.stats.deadLettered + 1 }) :
      Effect message st st' (.failed message error)

theorem effect_processMessage (message : Message) (outcome : Outcome) (st : RelayState σ) :
    relay.Effect api message st (relay.processMessage api message outcome st)
      (attempt st.limiter message outcome) := by
  cases hpermit : st.limiter.tryAcquire with
  | none =>
      have hattempt : attempt st.limiter message outcome = .refused message := by
        cases outcome <;> simp [attempt, hpermit]
      rw [hattempt]
      refine .refused hpermit ?_ ?_ <;> simp only [processMessage, hpermit]
  | some limiter =>
      cases outcome with
      | delivered =>
          have hattempt : attempt st.limiter message .delivered = .delivered message := by
            simp [attempt, hpermit]
          rw [hattempt]
          refine .delivered ?_ ?_ <;> simp only [processMessage, hpermit]
      | failed error backoff =>
          have hattempt : attempt st.limiter message (.failed error backoff) =
              .failed message error := by
            simp [attempt, hpermit]
          rw [hattempt]
          cases hretry : shouldRetry relay.retryPolicy (message.deliveryCount + 1)
              error.toString with
          | true =>
              refine .retried error backoff hretry ?_ ?_ <;>
                simp only [processMessage, hpermit, hretry, if_true]
          | false =>
              refine .exhausted error hretry ?_ ?_ <;>
                simp only [processMessage, hpermit, hretry, Bool.false_eq_true, if_false]

theorem processed_processMessage (message : Message) (outcome : Outcome) (st : RelayState σ) :
    (relay.processMessage api message outcome st).processed =
      st.processed ++ [attempt st.limiter message outcome] := by
  rw [processMessage]
  cases st.limiter.tryAcquire with
  | none => rfl
  | some limiter =>
      cases outcome with
      | delivered => rfl
      | failed error backoff =>
          dsimp only
          split <;> rfl

theorem batch_processMessage (message : Message) (outcome : Outcome) (st : RelayState σ) :
    (relay.processMessage api message outcome st).batch = st.batch := by
  rw [processMessage]
  cases st.limiter.tryAcquire with
  | none => rfl
  | some limiter =>
      cases outcome with
      | delivered => rfl
      | failed error backoff =>
          dsimp only
          split <;> rfl

theorem message_attempt (limiter : ConcurrencyLimiter) (message : Message) (outcome : Outcome) :
    (attempt limiter message outcome).message = message := by
  cases outcome <;> rw [attempt] <;> split <;> rfl

end OutboxRelay

end PlexSpaces.Outbox
