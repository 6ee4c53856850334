import PlexSpaces.Lib.Run
import PlexSpaces.Outbox.Relay
/-!
# The partitioned outbox

`HashRouter` sends each target to one partition, and a relay of its own drains the
in-memory channel of each partition.  The `nack` of an in-memory channel does
nothing, so a message that the relay wants to retry is gone.  Nothing is lost
exactly when no failed delivery is to be retried and no permit is refused
(`nothing_lost_iff`).
-/

namespace PlexSpaces.Outbox

open PlexSpaces.Lib PlexSpaces.Channel

/-! ## In-memory channels -/

/-- The queue of an in-memory channel; capacity 0 is unbounded. -/
structure InMemoryChannel where
  queue : List Message := []
  capacity : UInt64 := 0

namespace InMemoryChannel

/-- A send into a full channel waits for room, so it is not accepted yet. -/
def send (message : Message) (channel : InMemoryChannel) : Bool × InMemoryChannel :=
  if channel.capacity ≠ 0 ∧ channel.capacity.toNat ≤ channel.queue.length then (false, channel)
  else (true, { channel with queue := channel.queue ++ [message] })

def tryReceive (maxMessages : UInt32) (channel : InMemoryChannel) :
    List Message × InMemoryChannel :=
  (channel.queue.take maxMessages.toNat,
    { channel with queue := channel.queue.drop maxMessages.toNat })

/-- `ack` and `nack` do nothing. -/
def api : ChannelApi InMemoryChannel where
  send := send
  tryReceive := tryReceive
  ack := fun _ channel => channel
  nack := fun _ _ _ channel => channel

end InMemoryChannel

/-! ## Routing -/

def fnv1a (data : List UInt8) : UInt32 :=
  data.foldl (fun hash b => (hash ^^^ b.toUInt32) * 0x01000193) 0x811c9dc5

/-- `HashRouter::route`. -/
def route (numPartitions : UInt32) (targetActorId : String) : UInt32 :=
  fnv1a targetActorId.toUTF8.data.toList % numPartitions

/-! ## Outboxes -/

/-- A partition, with the messages that its channel has accepted. -/
structure Partition (σ : Type) where
  relay : OutboxRelay
  api : ChannelApi σ
  state : RelayState σ
  accepted : List Message := []

/-- The partitions of the outbox; `sent` and `delivered` are the messages that were accepted
and those whose delivery succeeded, in the order of time. -/
structure PartitionedOutboxRelay (σ : Type) where
  numPartitions : UInt32
  partitions : List (Partition σ)
  sent : List Message := []
  delivered : List Message := []

inductive OutboxAction where
  | send (targetActorId : String) (message : Message)
  | relay (partition : Nat) (action : RelayAction)

namespace Partition

variable {σ : Type} (p : Partition σ)

def send (message : Message) : Bool × Partition σ :=
  let (ok, channel) := p.api.send message p.state.channel
  (ok, { p with
    state := { p.state with channel }
    accepted := if ok then p.accepted ++ [message] else p.accepted })

def step (action : RelayAction) : Partition σ :=
  { p with state := p.relay.step p.api p.state action }

/-- The attempt of a step that processes a message. -/
def attempt? : RelayAction → Option Attempt
  | .process outcome => p.state.batch.head?.map (OutboxRelay.attempt p.state.limiter · outcome)
  | _ => none

end Partition

def Attempt.delivered? : Attempt → Option Message
  | delivered message => some message
  | _ => none

namespace PartitionedOutboxRelay

variable {σ : Type}

def step (outbox : PartitionedOutboxRelay σ) : OutboxAction → PartitionedOutboxRelay σ
  | .send targetActorId message =>
      let idx := (route outbox.numPartitions targetActorId).toNat
      match outbox.partitions[idx]? with
      | none => outbox
      | some p =>
          let (ok, p) := p.send message
          { outbox with
            partitions := outbox.partitions.set idx p
            sent := if ok then outbox.sent ++ [message] else outbox.sent }
  | .relay idx action =>
      match outbox.partitions[idx]? with
      | none => outbox
      | some p =>
          { outbox with
            partitions := outbox.partitions.set idx (p.step action)
            delivered := outbox.delivered ++ ((p.attempt? action).bind (·.delivered?)).toList }

end PartitionedOutboxRelay

structure PartitionedOutboxConfig where
  numPartitions : UInt32
  perPartition : OutboxConfig := {}

/-- The largest buffer of a bounded queue, `usize::MAX >> 3`. -/
def maxPermits : UInt64 := 0x1fffffffffffffff

/-- `none` where it panics: no partitions, limits in the wrong order, or a capacity that the
queue does not take. -/
def PartitionedOutboxRelay.new (config : PartitionedOutboxConfig) :
    Option (PartitionedOutboxRelay InMemoryChannel) :=
  (ConcurrencyLimiter.new config.perPartition.concurrency).bind fun limiter =>
    let capacity := max config.perPartition.relayBatchSize 100 * 10
    if config.numPartitions = 0 ∨ maxPermits < capacity then none
    else some
      { numPartitions := config.numPartitions
        partitions := List.replicate config.numPartitions.toNat
          { relay := OutboxRelay.new config.perPartition
            api := InMemoryChannel.api
            state := { channel := { capacity }, limiter } } }

/-! ## Conservation -/

/-- The attempt settles its message: it was delivered, or it failed and is not retried. -/
def Attempt.settles (policy : RetryPolicy) : Attempt → Bool
  | refused _ => false
  | delivered _ => true
  | failed message error => !shouldRetry policy (message.deliveryCount + 1) error.toString

/-- The message of an attempt that is the last that the policy allows. -/
def Attempt.exhausted? (policy : RetryPolicy) : Attempt → Option Message
  | failed message error =>
      if shouldRetry policy (message.deliveryCount + 1) error.toString then none else some message
  | _ => none

namespace Partition

/-- Every accepted message is in the channel, in the current batch, delivered, or counted in
`failed` after its last allowed attempt. -/
def NothingLost (p : Partition InMemoryChannel) : Prop :=
  p.accepted.Perm (p.state.channel.queue ++ p.state.batch ++
      p.state.processed.filterMap (·.delivered?) ++
      p.state.processed.filterMap (·.exhausted? p.relay.retryPolicy)) ∧
    p.state.stats.failed = (p.state.processed.filterMap (·.exhausted? p.relay.retryPolicy)).length

end Partition

namespace PartitionedOutboxRelay

/-- A message that is processed gets a permit, and if its delivery fails then the policy
allows no further attempt. -/
def Settles {σ : Type} (outbox : PartitionedOutboxRelay σ) : OutboxAction → Prop
  | .send _ _ => True
  | .relay idx action => ∀ p ∈ outbox.partitions[idx]?, ∀ a ∈ p.attempt? action,
      a.settles p.relay.retryPolicy = true

instance {σ : Type} (outbox : PartitionedOutboxRelay σ) : DecidablePred outbox.Settles
  | .send _ _ => .isTrue trivial
  | .relay _ _ => inferInstanceAs (Decidable (∀ p ∈ _, ∀ a ∈ _, _))

end PartitionedOutboxRelay

section Attempts

variable {policy : RetryPolicy} {message : Message} {error : DeliveryError}

theorem exhausted?_of_not_retry
    (h : shouldRetry policy (message.deliveryCount + 1) error.toString = false) :
    (Attempt.failed message error).exhausted? policy = some message := by
  rw [Attempt.exhausted?, h]
  rfl

theorem exhausted?_of_retry
    (h : shouldRetry policy (message.deliveryCount + 1) error.toString = true) :
    (Attempt.failed message error).exhausted? policy = none := by
  rw [Attempt.exhausted?, if_pos h]

theorem delivered?_delivered (message : Message) :
    (Attempt.delivered message).delivered? = some message := rfl

theorem settles_failed :
    (Attempt.failed message error).settles policy =
      !shouldRetry policy (message.deliveryCount + 1) error.toString := rfl

theorem perm_of_settles {attempts : List Attempt}
    (h : ∀ a ∈ attempts, a.settles policy = true) :
    (attempts.map (·.message)).Perm
      (attempts.filterMap (·.delivered?) ++ attempts.filterMap (·.exhausted? policy)) := by
  induction attempts with
  | nil => exact .refl _
  | cons a attempts ih =>
      have hrest := ih fun a ha => h a (List.mem_cons_of_mem _ ha)
      have ha := h a List.mem_cons_self
      cases a with
      | refused message => cases ha
      | delivered message => exact hrest.cons message
      | failed message error =>
          rw [settles_failed, Bool.not_eq_true'] at ha
          rw [List.map_cons, List.filterMap_cons_none rfl,
            List.filterMap_cons_some (exhausted?_of_not_retry ha)]
          exact (hrest.cons message).trans List.perm_middle.symm

theorem length_settled (policy : RetryPolicy) (attempts : List Attempt) :
    (attempts.filterMap (·.delivered?)).length +
      (attempts.filterMap (·.exhausted? policy)).length =
        attempts.countP (Attempt.settles policy) := by
  induction attempts with
  | nil => rfl
  | cons a attempts ih =>
      rw [List.countP_cons, ← ih]
      cases a with
      | refused message =>
          rw [List.filterMap_cons_none rfl, List.filterMap_cons_none rfl]
          rfl
      | delivered message =>
          rw [List.filterMap_cons_some (delivered?_delivered message),
            List.filterMap_cons_none rfl, List.length_cons, Nat.add_right_comm]
          rfl
      | failed message error =>
          rw [List.filterMap_cons_none rfl, settles_failed]
          cases hretry : shouldRetry policy (message.deliveryCount + 1) error.toString with
          | true =>
              rw [List.filterMap_cons_none (exhausted?_of_retry hretry)]
              rfl
          | false =>
              rw [List.filterMap_cons_some (exhausted?_of_not_retry hretry), List.length_cons,
                ← Nat.add_assoc]
              rfl

end Attempts

namespace Partition

variable {p : Partition InMemoryChannel}

/-- What every run keeps: messages are processed in the order in which they were accepted,
and `failed` counts the messages whose attempts are exhausted. -/
structure InOrder (p : Partition InMemoryChannel) : Prop where
  api : p.api = InMemoryChannel.api
  accepted : p.accepted =
    p.state.processed.map (·.message) ++ p.state.batch ++ p.state.channel.queue
  failed : p.state.stats.failed =
    (p.state.processed.filterMap (·.exhausted? p.relay.retryPolicy)).length

theorem InOrder.nothingLost_iff (h : p.InOrder) :
    p.NothingLost ↔ ∀ a ∈ p.state.processed, a.settles p.relay.retryPolicy = true := by
  constructor
  · rintro ⟨hperm, -⟩
    have hlength := hperm.length_eq
    have hsettled := length_settled p.relay.retryPolicy p.state.processed
    rw [h.accepted] at hlength
    simp only [List.length_append, List.length_map] at hlength
    exact List.countP_eq_length.mp (by omega)
  · intro hsettles
    refine ⟨?_, h.failed⟩
    rw [h.accepted, List.append_assoc, List.append_assoc]
    refine List.perm_append_comm.trans ?_
    exact (List.perm_append_comm).append (perm_of_settles hsettles)

/-- A step of the relay adds the attempt that it makes, if it makes one. -/
theorem processed_step {σ : Type} (p : Partition σ) (action : RelayAction) :
    (p.step action).state.processed = p.state.processed ++ (p.attempt? action).toList := by
  cases action with
  | run => exact (List.append_nil _).symm
  | stop => exact (List.append_nil _).symm
  | poll =>
      rw [step, OutboxRelay.step]
      split
      · rw [OutboxRelay.poll]
        dsimp only
        split <;> exact (List.append_nil _).symm
      · exact (List.append_nil _).symm
  | process outcome =>
      rw [step, OutboxRelay.step, attempt?]
      cases p.state.batch with
      | nil => exact (List.append_nil _).symm
      | cons message batch => exact OutboxRelay.processed_processMessage ..

theorem step_process {σ : Type} (p : Partition σ) {message : Message} {batch : List Message}
    (hbatch : p.state.batch = message :: batch) (outcome : Outcome) :
    ∃ attempt, p.attempt? (.process outcome) = some attempt ∧ attempt.message = message ∧
      (p.step (.process outcome)).state.batch = batch ∧
      p.relay.Effect p.api message { p.state with batch } (p.step (.process outcome)).state
        attempt := by
  have hstep : (p.step (.process outcome)).state =
      p.relay.processMessage p.api message outcome { p.state with batch } := by
    rw [Partition.step, OutboxRelay.step, hbatch]
  rw [hstep, attempt?, hbatch]
  exact ⟨_, rfl, OutboxRelay.message_attempt .., OutboxRelay.batch_processMessage ..,
    OutboxRelay.effect_processMessage ..⟩

theorem InOrder.send (h : p.InOrder) (message : Message) : (p.send message).2.InOrder := by
  rw [Partition.send, h.api, InMemoryChannel.api]
  dsimp only
  rw [InMemoryChannel.send]
  split
  · exact ⟨rfl, h.accepted, h.failed⟩
  · refine ⟨rfl, ?_, h.failed⟩
    dsimp only
    rw [if_pos rfl, h.accepted, List.append_assoc]

theorem failed_effect {relay : OutboxRelay} {api : ChannelApi InMemoryChannel} {message : Message}
    {st st' : RelayState InMemoryChannel} {attempt : Attempt}
    (h : relay.Effect api message st st' attempt) :
    st'.stats.failed =
      st.stats.failed + ([attempt].filterMap (·.exhausted? relay.retryPolicy)).length := by
  cases h with
  | refused _ _ hstats => rw [hstats, List.filterMap_cons_none rfl]; rfl
  | delivered _ hstats => rw [hstats, List.filterMap_cons_none rfl]; rfl
  | retried error backoff hretry _ hstats =>
      rw [hstats, List.filterMap_cons_none (exhausted?_of_retry hretry)]
      rfl
  | exhausted error hretry _ hstats =>
      rw [hstats, List.filterMap_cons_some (exhausted?_of_not_retry hretry)]
      rfl

theorem InOrder.step (h : p.InOrder) (action : RelayAction) : (p.step action).InOrder := by
  cases action with
  | run => exact ⟨h.api, h.accepted, h.failed⟩
  | stop => exact ⟨h.api, h.accepted, h.failed⟩
  | poll =>
      rw [Partition.step, OutboxRelay.step]
      split
      next hidle =>
        rw [OutboxRelay.poll]
        dsimp only
        split
        · exact ⟨h.api, h.accepted, h.failed⟩
        · refine ⟨h.api, ?_, h.failed⟩
          rw [h.accepted, hidle.2, h.api, List.append_nil, List.append_assoc]
          exact congrArg _ (List.take_append_drop _ _).symm
      next => exact ⟨h.api, h.accepted, h.failed⟩
  | process outcome =>
      cases hbatch : p.state.batch with
      | nil =>
          rw [Partition.step, OutboxRelay.step, hbatch]
          exact ⟨h.api, h.accepted, h.failed⟩
      | cons message batch =>
          have hprocessed := processed_step p (.process outcome)
          obtain ⟨attempt, hattempt, hmessage, hrest, heffect⟩ := step_process p hbatch outcome
          rw [hattempt, Option.toList_some] at hprocessed
          refine ⟨h.api, ?_, ?_⟩
          · have hchannel : (p.step (.process outcome)).state.channel = p.state.channel := by
              cases heffect with
              | refused _ hchannel => rw [hchannel, h.api]; rfl
              | delivered hchannel => rw [hchannel, h.api]; rfl
              | retried _ _ _ hchannel => rw [hchannel, h.api]; rfl
              | exhausted _ _ hchannel => rw [hchannel, h.api]; rfl
            rw [hprocessed, hchannel, hrest, List.map_append, List.map_singleton, hmessage]
            calc
              p.accepted = _ := h.accepted
              _ = _ := by rw [hbatch, ← List.append_cons]
          · rw [failed_effect heffect, hprocessed, List.filterMap_append, List.length_append]
            exact congrArg (· + _) h.failed

end Partition

/-! ## Runs -/

section Runs

variable {α : Type} {l : List α} {i : Nat} {a b : α}

/-- A list in which one entry is replaced by one that is good if the old one is and more. -/
theorem forall_mem_set_iff (h : l[i]? = some a) {Q : α → Prop} {R : Prop} (hb : Q b ↔ Q a ∧ R) :
    (∀ x ∈ l.set i b, Q x) ↔ (∀ x ∈ l, Q x) ∧ R := by
  induction l generalizing i with
  | nil => cases h
  | cons x l ih =>
      cases i with
      | zero =>
          cases h
          rw [List.set_cons_zero, List.forall_mem_cons, List.forall_mem_cons, hb, and_right_comm]
      | succ i =>
          rw [List.set_cons_succ, List.forall_mem_cons, List.forall_mem_cons, ih h, and_assoc]

end Runs

namespace PartitionedOutboxRelay

def InOrder (outbox : PartitionedOutboxRelay InMemoryChannel) : Prop :=
  ∀ p ∈ outbox.partitions, p.InOrder

theorem InOrder.step {outbox : PartitionedOutboxRelay InMemoryChannel} (h : outbox.InOrder)
    (action : OutboxAction) : (outbox.step action).InOrder := by
  cases action with
  | send targetActorId message =>
      rw [PartitionedOutboxRelay.step]
      dsimp only
      split
      next => exact h
      next p hp =>
        intro q hq
        rcases List.mem_or_eq_of_mem_set hq with hq | rfl
        · exact h q hq
        · exact (h p (List.mem_of_getElem? hp)).send message
  | relay idx action =>
      rw [PartitionedOutboxRelay.step]
      split
      next => exact h
      next p hp =>
        intro q hq
        rcases List.mem_or_eq_of_mem_set hq with hq | rfl
        · exact h q hq
        · exact (h p (List.mem_of_getElem? hp)).step action

def Settled (outbox : PartitionedOutboxRelay InMemoryChannel) : Prop :=
  ∀ p ∈ outbox.partitions, ∀ a ∈ p.state.processed, a.settles p.relay.retryPolicy = true

theorem settled_step_iff (outbox : PartitionedOutboxRelay InMemoryChannel)
    (action : OutboxAction) :
    (outbox.step action).Settled ↔ outbox.Settled ∧ outbox.Settles action := by
  cases action with
  | send targetActorId message =>
      rw [PartitionedOutboxRelay.step]
      dsimp only
      split
      next => exact ⟨fun h => ⟨h, trivial⟩, And.left⟩
      next p hp => exact forall_mem_set_iff hp (and_true _).symm.to_iff
  | relay idx action =>
      rw [PartitionedOutboxRelay.step, Settles]
      split
      next hp => exact ⟨fun h => ⟨h, by simp [hp]⟩, And.left⟩
      next p hp =>
        refine forall_mem_set_iff hp ?_
        rw [Partition.processed_step, List.forall_mem_append, hp]
        simp [Partition.step]

end PartitionedOutboxRelay

/-- A new outbox has copies of one partition, in which nothing has happened. -/
theorem eq_of_new {config : PartitionedOutboxConfig}
    {outbox : PartitionedOutboxRelay InMemoryChannel}
    (hnew : PartitionedOutboxRelay.new config = some outbox) :
    ∃ p : Partition InMemoryChannel, p.InOrder ∧ p.accepted = [] ∧ p.state.processed = [] ∧
      outbox = { numPartitions := config.numPartitions,
                 partitions := List.replicate config.numPartitions.toNat p } := by
  obtain ⟨limiter, -, hnew⟩ := Option.bind_eq_some_iff.mp hnew
  dsimp only at hnew
  split at hnew
  next => cases hnew
  next => exact ⟨_, ⟨rfl, rfl, rfl⟩, rfl, rfl, (Option.some_inj.mp hnew).symm⟩

theorem inOrder_new {config : PartitionedOutboxConfig}
    {outbox : PartitionedOutboxRelay InMemoryChannel}
    (hnew : PartitionedOutboxRelay.new config = some outbox) : outbox.InOrder ∧ outbox.Settled := by
  obtain ⟨p, hinOrder, -, hprocessed, rfl⟩ := eq_of_new hnew
  constructor
  · intro q hq
    rwa [(List.mem_replicate.mp hq).2]
  · intro q hq
    rw [(List.mem_replicate.mp hq).2, hprocessed]
    exact fun a ha => absurd ha List.not_mem_nil

/-- Nothing is lost in a run exactly when every message that is processed gets a permit and no
failed delivery is one that the policy wants to be retried. -/
theorem nothing_lost_iff (config : PartitionedOutboxConfig)
    (outbox : PartitionedOutboxRelay InMemoryChannel)
    (hnew : PartitionedOutboxRelay.new config = some outbox) (actions : List OutboxAction) :
    (∀ p ∈ (run PartitionedOutboxRelay.step outbox actions).partitions, p.NothingLost) ↔
      Along PartitionedOutboxRelay.step PartitionedOutboxRelay.Settles outbox actions := by
  obtain ⟨hinOrder, hsettled⟩ := inOrder_new hnew
  have hlast : (run PartitionedOutboxRelay.step outbox actions).InOrder :=
    run_invariant (fun action _ _ h => h.step action) hinOrder
  have hruns := run_iff_along (I := PartitionedOutboxRelay.InOrder)
    (fun outbox action h => h.step action) (fun outbox action _ => outbox.settled_step_iff action)
    hinOrder actions
  calc
    _ ↔ (run PartitionedOutboxRelay.step outbox actions).Settled :=
      forall₂_congr fun p hp => (hlast p hp).nothingLost_iff
    _ ↔ _ := by rw [hruns, and_iff_right hsettled]

def retryingConfig : PartitionedOutboxConfig where
  numPartitions := 1
  perPartition := { retryPolicy := { maxAttempts := 3 } }

def retryingOutbox : PartitionedOutboxRelay InMemoryChannel where
  numPartitions := 1
  partitions := [{
    relay := { retryPolicy := { maxAttempts := 3 }, batchSize := 100 }
    api := InMemoryChannel.api
    state := {
      channel := { capacity := 1000 }
      limiter := { currentLimit := 100, minLimit := 1, maxLimit := 10000, strategy := .aimd } } }]

theorem new_retryingConfig : PartitionedOutboxRelay.new retryingConfig = some retryingOutbox := by
  have hcapacity : max (0 : UInt64) 100 * 10 = 1000 := by decide
  have hlimiter : ConcurrencyLimiter.new {} = some
      { currentLimit := 100, minLimit := 1, maxLimit := 10000, strategy := .aimd } := by
    simp [ConcurrencyLimiter.new, ConcurrencyLimiter.orDefault]
    decide
  have hroom : ¬maxPermits < 1000 := by decide
  simp [PartitionedOutboxRelay.new, retryingConfig, hlimiter, hcapacity, hroom, retryingOutbox,
    OutboxRelay.new]

theorem route_one (targetActorId : String) : route 1 targetActorId = 0 := by
  rw [route]
  exact UInt32.mod_one

theorem step_send_retryingOutbox (targetActorId : String) (message : Message) :
    retryingOutbox.step (.send targetActorId message) =
      { retryingOutbox with
        partitions := retryingOutbox.partitions.map fun p => (p.send message).2
        sent := [message] } := by
  have hroute : route retryingOutbox.numPartitions targetActorId = 0 := route_one targetActorId
  rw [PartitionedOutboxRelay.step, hroute]
  rfl

/-- The relay asks for a retry of a failed delivery, and the message is gone. -/
def lostRetry : List OutboxAction :=
  [.send "actor" { id := "m" }, .relay 0 .run, .relay 0 .poll,
    .relay 0 (.process (.failed (.transient "connection reset") 100))]

theorem not_nothing_lost :
    PartitionedOutboxRelay.new retryingConfig = some retryingOutbox ∧
      ¬∀ p ∈ (run PartitionedOutboxRelay.step retryingOutbox lostRetry).partitions,
        p.NothingLost := by
  refine ⟨new_retryingConfig, fun h => ?_⟩
  rw [lostRetry, run_cons, step_send_retryingOutbox] at h
  have hperm := (h _ (List.mem_of_getElem? (i := 0) rfl)).1.length_eq
  revert hperm
  decide +kernel

/-- One message is delivered, the other one fails at its last attempt. -/
def bothSettled : List OutboxAction :=
  [.relay 0 .run, .send "a" { id := "m1" }, .send "b" { id := "m2", deliveryCount := 2 },
    .relay 0 .poll, .relay 0 (.process .delivered),
    .relay 0 (.process (.failed (.transient "connection reset") 100))]

theorem nothing_lost_iff_bothSettled :
    ((run PartitionedOutboxRelay.step retryingOutbox bothSettled).partitions.map
        fun p => p.state.processed.length) = [2] ∧
      ∀ p ∈ (run PartitionedOutboxRelay.step retryingOutbox bothSettled).partitions,
        p.NothingLost := by
  refine ⟨by decide +kernel, ?_⟩
  refine (nothing_lost_iff retryingConfig _ new_retryingConfig bothSettled).mpr ?_
  decide +kernel

end PlexSpaces.Outbox
