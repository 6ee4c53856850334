import PlexSpaces.Lib.Assoc
import PlexSpaces.Lib.Heap
/-!
# Mailboxes

The sender side of an actor's mailbox.  In memory and in the order of arrival, a message goes
straight into the bounded channel that the actor reads (the fast path).  Otherwise it goes
into an internal queue, which background tasks carry to that channel; a durable mailbox has a
persistent channel on the way.

The counter `data_queue_size` is a machine word: it goes up when a message is enqueued, and
down when the actor has received one.
-/

namespace PlexSpaces.Mailbox

open PlexSpaces.Lib

inductive OrderingStrategy
  | unspecified
  | fifo
  | priority
  | lifo
  | random
  deriving DecidableEq

namespace OrderingStrategy

def tryFrom : Int → Option OrderingStrategy
  | 0 => some .unspecified
  | 1 => some .fifo
  | 2 => some .priority
  | 3 => some .lifo
  | 4 => some .random
  | _ => none

end OrderingStrategy

inductive BackpressureStrategy
  | unspecified
  | error
  | dropOldest
  | dropNewest
  deriving DecidableEq

namespace BackpressureStrategy

def tryFrom : Int → Option BackpressureStrategy
  | 0 => some .unspecified
  | 1 => some .error
  | 2 => some .dropOldest
  | 3 => some .dropNewest
  | _ => none

end BackpressureStrategy

inductive ChannelProvider
  | inMemory
  | redis
  | kafka
  | sqlite
  | nats
  | udp
  | sqs
  | processGroup
  | postgres
  | custom
  deriving DecidableEq

namespace ChannelProvider

def tryFrom : Int → Option ChannelProvider
  | 0 => some .inMemory
  | 1 => some .redis
  | 2 => some .kafka
  | 3 => some .sqlite
  | 4 => some .nats
  | 5 => some .udp
  | 6 => some .sqs
  | 7 => some .processGroup
  | 8 => some .postgres
  | 99 => some .custom
  | _ => none

end ChannelProvider

inductive MailboxError
  | full (depth capacity retryAfterMs : Nat)
  | storageError (message : String)
  | invalidConfig (message : String)
  deriving DecidableEq

structure Message where
  id : String
  messageType : String
  priority : Int
  idempotencyKey : String
  conflictResolution : Int
  headers : Assoc String String
  deriving DecidableEq

/-- `str::parse::<i64>`. -/
def parseI64 (s : String) : Option Int :=
  let (negative, digits) := match s.toList with
    | '-' :: digits => (true, digits)
    | '+' :: digits => (false, digits)
    | digits => (false, digits)
  if digits ≠ [] ∧ digits.all Char.isDigit then
    let n : Nat := digits.foldl (fun n c => 10 * n + (c.toNat - '0'.toNat)) 0
    let i : Int := if negative then -n else n
    if -2 ^ 63 ≤ i ∧ i < 2 ^ 63 then some i else none
  else none

namespace Message

def isCtrlMessage (m : Message) : Bool := "__".isPrefixOf m.messageType

/-- `CONFLICT_RESOLUTION_POLICY_OVERWRITE`, for a message that has a key. -/
def isOverwrite (m : Message) : Bool := m.conflictResolution = 1 ∧ m.idempotencyKey ≠ ""

def sequenceNumber (m : Message) : Option Int :=
  (m.headers.lookup "sequence_number").bind parseI64

/-- Whether a queued message stays when `incoming` overwrites its key. -/
def retainedBy (incoming queued : Message) : Bool :=
  if queued.idempotencyKey ≠ incoming.idempotencyKey then true
  else
    match incoming.sequenceNumber with
    | some seq => seq ≤ queued.sequenceNumber.getD (-2 ^ 63)
    | none => false

end Message

inductive MessageStorage
  | queue (messages : List Message)
  | priority (heap : MaxHeap Message.priority)
  deriving DecidableEq

namespace MessageStorage

/-- The messages in the order in which the processor drains them. -/
def messages : MessageStorage → List Message
  | .queue q => q
  | .priority heap => heap.items

/-- The storage without the message that `DropOldest` drops: the front of a queue, and the
top of a heap. -/
def dropOldest : MessageStorage → MessageStorage
  | .queue q => .queue q.tail
  | .priority heap => .priority heap.pop

def clear : MessageStorage → MessageStorage
  | .queue _ => .queue []
  | .priority _ => .priority .empty

/-- What an overwriting message removes, whether it is itself out of date, and what is left.
In a queue it is out of date when it removes nothing; in a heap when it leaves a message. -/
def overwrite (incoming : Message) : MessageStorage → Nat × Bool × MessageStorage
  | .queue q =>
      let kept := q.filter incoming.retainedBy
      (q.length - kept.length,
        q.length = kept.length ∧ kept.any (·.idempotencyKey = incoming.idempotencyKey),
        .queue kept)
  | .priority heap =>
      let kept := heap.retain incoming.retainedBy
      (heap.items.length - kept.items.length,
        kept.items.any (·.idempotencyKey = incoming.idempotencyKey), .priority kept)

/-- Add a message; `pos` is the random position of `OrderingRandom`. -/
def push (ordering : OrderingStrategy) (pos : Nat) (m : Message) :
    MessageStorage → MessageStorage
  | .queue q =>
      match ordering with
      | .lifo => .queue (m :: q)
      | .priority => .queue q
      | .random => .queue (q.insertIdx (min pos q.length) m)
      | _ => .queue (q ++ [m])
  | .priority heap =>
      match ordering with
      | .priority => .priority (heap.push m)
      | _ => .priority heap

/-- The kind of storage that `Mailbox::new` makes for an ordering. -/
def Fits (ordering : OrderingStrategy) : MessageStorage → Prop
  | .queue _ => ordering ≠ .priority
  | .priority _ => ordering = .priority

section Lemmas

variable {storage : MessageStorage} {ordering : OrderingStrategy}

@[simp] theorem messages_dropOldest : storage.dropOldest.messages = storage.messages.tail := by
  cases storage with
  | queue q => rfl
  | priority heap => rfl

@[simp] theorem messages_clear : storage.clear.messages = [] := by
  cases storage with
  | queue q => rfl
  | priority heap => rfl

/-- A message that is pushed onto a storage of the right kind is in it. -/
theorem push_perm (h : storage.Fits ordering) (pos : Nat) (m : Message) :
    (storage.push ordering pos m).messages.Perm (m :: storage.messages) := by
  cases storage with
  | priority heap =>
      cases h
      exact heap.items_push_perm m
  | queue q =>
      cases ordering with
      | priority => exact absurd rfl h
      | lifo => exact List.Perm.refl _
      | random => exact List.perm_insertIdx m q (min_le_right _ _)
      | fifo => exact List.perm_append_singleton m q
      | unspecified => exact List.perm_append_singleton m q

theorem fits_push (h : storage.Fits ordering) (pos : Nat) (m : Message) :
    (storage.push ordering pos m).Fits ordering := by
  cases storage with
  | priority heap =>
      cases h
      rfl
  | queue q =>
      cases ordering with
      | priority => exact h
      | lifo => exact h
      | random => exact h
      | fifo => exact h
      | unspecified => exact h

theorem fits_dropOldest (h : storage.Fits ordering) : storage.dropOldest.Fits ordering := by
  cases storage with
  | queue q => exact h
  | priority heap => exact h

theorem fits_clear (h : storage.Fits ordering) : storage.clear.Fits ordering := by
  cases storage with
  | queue q => exact h
  | priority heap => exact h

theorem fits_overwrite (h : storage.Fits ordering) (m : Message) :
    (storage.overwrite m).2.2.Fits ordering := by
  cases storage with
  | queue q => exact h
  | priority heap => exact h

theorem messages_overwrite (storage : MessageStorage) (m : Message) :
    (storage.overwrite m).2.2.messages = storage.messages.filter m.retainedBy := by
  cases storage with
  | queue q => rfl
  | priority heap => rfl

theorem removed_overwrite (storage : MessageStorage) (m : Message) :
    (storage.overwrite m).1 + (storage.overwrite m).2.2.messages.length =
      storage.messages.length := by
  cases storage with
  | queue q => exact Nat.sub_add_cancel (List.length_filter_le _ q)
  | priority heap => exact Nat.sub_add_cancel (List.length_filter_le _ heap.items)

/-- A message that is out of date leaves a message of its key in the queue. -/
theorem exists_of_stale {m : Message} (h : (storage.overwrite m).2.1 = true) :
    ∃ queued ∈ (storage.overwrite m).2.2.messages,
      queued.idempotencyKey = m.idempotencyKey := by
  cases storage with
  | queue q =>
      have hkept := (of_decide_eq_true h).2
      obtain ⟨queued, hmem, hkey⟩ := List.any_eq_true.mp hkept
      exact ⟨queued, hmem, of_decide_eq_true hkey⟩
  | priority heap =>
      obtain ⟨queued, hmem, hkey⟩ := List.any_eq_true.mp h
      exact ⟨queued, hmem, of_decide_eq_true hkey⟩

end Lemmas

end MessageStorage

structure MailboxConfig where
  capacity : Nat
  backpressureStrategy : Int
  orderingStrategy : Int
  channelProvider : Int
  maxCapacity : Nat
  retryAfterMs : Nat
  deriving DecidableEq

/-- The environment variables that the configuration reads, where they parse. -/
structure Env where
  maxCapacity : Option Nat
  capacity : Option Nat
  retryAfterMs : Option Nat

namespace MailboxConfig

def ordering (config : MailboxConfig) : OrderingStrategy :=
  (OrderingStrategy.tryFrom config.orderingStrategy).getD .fifo

def backpressure (config : MailboxConfig) : BackpressureStrategy :=
  (BackpressureStrategy.tryFrom config.backpressureStrategy).getD .error

def maxSize (config : MailboxConfig) (env : Env) : Nat :=
  let override (var : Option Nat) := var.filter (0 < ·)
  match override env.maxCapacity with
  | some n => n
  | none =>
      if 0 < config.maxCapacity then config.maxCapacity
      else
        match override env.capacity with
        | some n => n
        | none => if 0 < config.capacity then config.capacity else 10000

def retryAfter (config : MailboxConfig) (env : Env) : Nat :=
  match env.retryAfterMs.filter (0 < ·) with
  | some n => n
  | none => if 0 < config.retryAfterMs then config.retryAfterMs else 100

end MailboxConfig

/-- What a persistent channel does with a message that is sent: an overwriting message may
replace the contents of an unacknowledged row. -/
inductive SendOutcome
  | stored
  | coalesced (row : Nat)
  | failed
  | closed
  deriving DecidableEq

/-- `fetch_sub` on an `AtomicUsize`. -/
def fetchSub (size n : Nat) : Nat := if n ≤ size then size - n else size + 2 ^ 64 - n

end PlexSpaces.Mailbox

namespace PlexSpaces

open Mailbox

/-- A mailbox: the sender side with the channels behind it. -/
structure Mailbox where
  config : MailboxConfig
  isInMemory : Bool
  /-- `data_tx` is there: messages go straight into the bounded channel. -/
  fastPath : Bool
  maxCapacity : Nat
  retryAfterMs : Nat
  shutdownFlag : Bool
  dataQueueSize : Nat
  totalEnqueued : Nat
  totalDropped : Nat
  ctrl : List Message
  internalQueue : MessageStorage
  /-- The channel that the actor reads. -/
  data : List Message
  receiverDropped : Bool
  deriving DecidableEq

namespace Mailbox

/-- The part of `Mailbox::new` that makes the sender side; the backend of a durable mailbox
is made elsewhere. -/
def new (env : Env) (config : MailboxConfig) : Except MailboxError Mailbox :=
  match ChannelProvider.tryFrom config.channelProvider with
  | none =>
      .error (.invalidConfig ("Invalid channel_provider: " ++ toString config.channelProvider))
  | some provider =>
      let isInMemory : Bool := provider = .inMemory
      let isPriority : Bool := config.ordering = .priority
      let isLifo : Bool := config.ordering = .lifo
      let isDropOldest : Bool := config.backpressure = .dropOldest
      .ok
        { config := config
          isInMemory := isInMemory
          fastPath := isInMemory && !isPriority && !isLifo && !isDropOldest
          maxCapacity := config.maxSize env
          retryAfterMs := config.retryAfter env
          shutdownFlag := false
          dataQueueSize := 0
          totalEnqueued := 0
          totalDropped := 0
          ctrl := []
          internalQueue := if isPriority then .priority .empty else .queue []
          data := []
          receiverDropped := false }

/-- The internal queue is of the kind that the configuration asks for. -/
def Fits (mb : Mailbox) : Prop := mb.internalQueue.Fits mb.config.ordering

theorem new_spec {env : Env} {config : MailboxConfig} {mb : Mailbox}
    (h : Mailbox.new env config = .ok mb) : mb.Fits ∧ mb.dataQueueSize = 0 ∧
      mb.internalQueue.messages = [] ∧ mb.data = [] ∧ mb.receiverDropped = false := by
  unfold Mailbox.new at h
  cases hprovider : ChannelProvider.tryFrom config.channelProvider with
  | none =>
      rw [hprovider] at h
      cases h
  | some provider =>
      rw [hprovider] at h
      cases h
      unfold Fits
      by_cases hpriority : config.ordering = .priority
      · simp [hpriority, MessageStorage.Fits, MessageStorage.messages, Lib.MaxHeap.empty]
      · simp [hpriority, MessageStorage.Fits, MessageStorage.messages]

def fullError (mb : Mailbox) : MailboxError :=
  .full mb.dataQueueSize mb.maxCapacity mb.retryAfterMs

/-- What becomes of a data message that its key has not turned away. -/
inductive Admission
  | queued
  | closed
  | dropped
  | rejected (error : MailboxError)
  deriving DecidableEq

/-- The fast path: `try_send` on the bounded channel, behind the capacity check. -/
def sendFast (mb : Mailbox) (m : Message) : Admission × Mailbox :=
  if mb.maxCapacity ≤ mb.dataQueueSize then
    match mb.config.backpressure with
    | .dropOldest => (.dropped, { mb with totalDropped := mb.totalDropped + 1 })
    | .dropNewest => (.dropped, { mb with totalDropped := mb.totalDropped + 1 })
    | _ => (.rejected mb.fullError, mb)
  else if mb.receiverDropped then (.closed, mb)
  else if max mb.maxCapacity 1 ≤ mb.data.length then (.rejected mb.fullError, mb)
  else
    (.queued,
      { mb with
        data := mb.data ++ [m]
        dataQueueSize := mb.dataQueueSize + 1
        totalEnqueued := mb.totalEnqueued + 1 })

/-- `DropOldest`: the counter goes down whether or not the queue had a message. -/
def dropOldest (mb : Mailbox) : Mailbox :=
  { mb with
    internalQueue := mb.internalQueue.dropOldest
    totalDropped := mb.totalDropped + 1
    dataQueueSize := fetchSub mb.dataQueueSize 1 }

def push (mb : Mailbox) (pos : Nat) (m : Message) : Mailbox :=
  { mb with
    internalQueue := mb.internalQueue.push mb.config.ordering pos m
    totalEnqueued := mb.totalEnqueued + 1
    dataQueueSize := mb.dataQueueSize + 1 }

/-- The priority and durable path, under the lock of the internal queue. -/
def sendOrdered (mb : Mailbox) (pos : Nat) (m : Message) : Admission × Mailbox :=
  if mb.maxCapacity ≤ mb.dataQueueSize then
    match mb.config.backpressure with
    | .dropOldest => (.queued, mb.dropOldest.push pos m)
    | .dropNewest => (.dropped, { mb with totalDropped := mb.totalDropped + 1 })
    | _ => (.rejected mb.fullError, mb)
  else (.queued, mb.push pos m)

/-- An overwriting message removes the queued messages of its key, unless it is out of date
(the first component).  The fast path has no queue to look at. -/
def overwrite (mb : Mailbox) (m : Message) : Bool × Mailbox :=
  if mb.fastPath then (false, mb)
  else
    let (removed, stale, queue) := mb.internalQueue.overwrite m
    (stale,
      { mb with
        internalQueue := queue
        dataQueueSize := fetchSub mb.dataQueueSize removed })

/-- The rest of `enqueue` behind the key: the two paths. -/
def accept (mb : Mailbox) (pos : Nat) (m : Message) : Admission × Mailbox :=
  if mb.fastPath then mb.sendFast m else mb.sendOrdered pos m

end Mailbox

end PlexSpaces
