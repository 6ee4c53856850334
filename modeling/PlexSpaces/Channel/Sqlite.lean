import Mathlib.Algebra.Order.Group.Nat
import Mathlib.Data.List.Sort
import Mathlib.Data.Prod.Lex
import Mathlib.Order.Lattice
import PlexSpaces.Channel.Channel
import PlexSpaces.Lib.Interaction
import PlexSpaces.Lib.Table
/-!
# The SQLite channel

Every call is a sequence of SQL statements and readings of the clock.  `receive`
selects the rows that are neither acked nor dead-lettered and whose time has
come; it changes no row.  `ack` looks at the row and then updates it; `nack`
looks at the delivery count and then requeues, dead-letters or acks.  A `send`
with the policy Overwrite updates every row with the same key that is not acked
and inserts a row only when there is none.
-/

namespace PlexSpaces.Channel

open PlexSpaces.Lib

/-- The range of `i64`. -/
def asI64 (n : Int) : Int := n.bmod (2 ^ 64)

/-- A row of `channel_messages`. -/
structure ChannelMessage where
  id : String
  tenantId : String
  nsName : String
  channelName : String
  payload : Bytes
  headers : List (String × String)
  idempotencyKey : String
  conflictResolution : Int
  timestamp : Int
  acked : Bool := false
  deadLettered : Bool := false
  deliveryCount : Nat := 0
  sendAt : Int := 0
  createdAt : Int
deriving DecidableEq, Repr

/-- The tenant, the namespace and the channel whose rows a statement sees. -/
structure Scope where
  tenantId : String
  nsName : String
  channelName : String
deriving DecidableEq, Repr

namespace ChannelMessage

def scope (row : ChannelMessage) : Scope := ⟨row.tenantId, row.nsName, row.channelName⟩

/-- The condition of `receive` on a row. -/
def deliverable (scope : Scope) (now : Int) (row : ChannelMessage) : Bool :=
  row.scope = scope ∧ row.acked = false ∧ row.deadLettered = false ∧
    (row.sendAt = 0 ∨ row.sendAt ≤ now)

/-- A row that an overwriting message with the key is written into. -/
def queuedUnder (scope : Scope) (key : String) (row : ChannelMessage) : Bool :=
  row.scope = scope ∧ row.idempotencyKey = key ∧ row.acked = false

def addressed (scope : Scope) (id : String) (row : ChannelMessage) : Bool :=
  row.id = id ∧ row.scope = scope

/-- `ORDER BY send_at ASC, created_at ASC`. -/
def sortKey (row : ChannelMessage) : Int ×ₗ Int := toLex (row.sendAt, row.createdAt)

end ChannelMessage

/-- The statements of the channel, with their parameters, and readings of the clock. -/
inductive Statement where
  | now
  | overwrite (scope : Scope) (idempotencyKey : String) (payload : Bytes)
      (headers : List (String × String)) (conflictResolution : Int) (timestamp : Int)
  | insert (row : ChannelMessage)
  | selectDeliverable (scope : Scope) (now : Int) (limit : Nat)
  | selectUnacked (scope : Scope) (now : Int)
  | selectAcked (scope : Scope) (id : String)
  | markAcked (scope : Scope) (id : String)
  | deleteAcked (scope : Scope) (cutoff : Int)
  | selectDeliveryCount (scope : Scope) (id : String)
  | requeue (scope : Scope) (id : String) (sendAt : Int)
  | markDeadLettered (scope : Scope) (id : String)

/-- What a statement answers: an update tells how many rows it affected. -/
@[reducible] def Statement.Answer : Statement → Type
  | now => Int
  | insert _ => Except String Unit
  | selectDeliverable _ _ _ | selectUnacked _ _ => List ChannelMessage
  | selectAcked _ _ => Option Bool
  | selectDeliveryCount _ _ => Option Nat
  | overwrite _ _ _ _ _ _ | markAcked _ _ | deleteAcked _ _ | requeue _ _ _
  | markDeadLettered _ _ => Nat

abbrev MessageTable := Table ChannelMessage ChannelMessage.id

/-- The table in the order of insertion, and the clock in milliseconds; `ticks` tells how
far it moves before each of its coming readings. -/
structure Database where
  messages : MessageTable := Table.empty
  clock : Nat := 0
  ticks : List Nat := []

namespace Database

/-- An `UPDATE` and the number of rows that it affects. -/
def modify (db : Database) (p : ChannelMessage → Bool) (f : ChannelMessage → ChannelMessage)
    (hf : ∀ row, (f row).id = row.id) : Nat × Database :=
  ((db.messages.select p).length, { db with messages := db.messages.updateWhere p f hf })

/-- The rows that may be delivered, in the order of delivery. -/
def deliverable (db : Database) (scope : Scope) (now : Int) : List ChannelMessage :=
  (db.messages.select (·.deliverable scope now)).insertionSort fun row row' =>
    row.sortKey ≤ row'.sortKey

def serve (statement : Statement) (db : Database) : statement.Answer × Database :=
  match statement with
  | .now =>
      let clock := db.clock + db.ticks.head?.getD 0
      ((clock : Int), { db with clock, ticks := db.ticks.tail })
  | .overwrite scope key payload headers conflictResolution timestamp =>
      db.modify (·.queuedUnder scope key)
        (fun row => { row with payload, headers, conflictResolution, timestamp }) fun _ => rfl
  | .insert row =>
      match db.messages.insert? row with
      | some messages => (.ok (), { db with messages })
      | none => (.error "UNIQUE constraint failed: channel_messages.id", db)
  | .selectDeliverable scope now limit => ((db.deliverable scope now).take limit, db)
  | .selectUnacked scope now => (db.deliverable scope now, db)
  | .selectAcked scope id =>
      (((db.messages.select (·.addressed scope id)).head?).map (·.acked), db)
  | .markAcked scope id =>
      db.modify (fun row => row.addressed scope id ∧ row.acked = false)
        (fun row => { row with acked := true }) fun _ => rfl
  | .deleteAcked scope cutoff =>
      let old := fun row : ChannelMessage =>
        decide (row.scope = scope ∧ row.acked = true ∧ row.createdAt < cutoff)
      ((db.messages.select old).length, { db with messages := db.messages.deleteWhere old })
  | .selectDeliveryCount scope id =>
      (((db.messages.select (·.addressed scope id)).head?).map (·.deliveryCount), db)
  | .requeue scope id sendAt =>
      db.modify (·.addressed scope id)
        (fun row => { row with acked := false, deliveryCount := row.deliveryCount + 1, sendAt })
        fun _ => rfl
  | .markDeadLettered scope id =>
      db.modify (·.addressed scope id)
        (fun row => { row with deadLettered := true, deliveryCount := row.deliveryCount + 1 })
        fun _ => rfl

end Database

abbrev Statements := Interaction Statement.Answer

def statement (s : Statement) : Statements s.Answer := Interaction.send s

structure SqliteConfig where
  cleanupAcked : Bool := false
  cleanupAgeSeconds : Nat := 0

structure SqliteChannel where
  config : ChannelConfig := {}
  tenantId : String := ""
  nsName : String := ""
  sqliteConfig : SqliteConfig := {}
  closed : Bool := false

/-- The time of a message in milliseconds, or the present time. -/
def protoTimestampToUnixMs : Option Timestamp → Statements Int
  | some t => return asI64 (asI64 (t.seconds * 1000) + t.nanos.tdiv 1000000)
  | none => statement .now

def ChannelMessage.toMessage (row : ChannelMessage) : Message where
  id := row.id
  channel := row.channelName
  payload := row.payload
  timestamp := some ⟨row.timestamp.tdiv 1000, row.timestamp.tmod 1000 * 1000000⟩
  headers := row.headers
  idempotencyKey := row.idempotencyKey
  conflictResolution := row.conflictResolution
  deliveryCount := .ofNat row.deliveryCount

namespace SqliteChannel

def scope (channel : SqliteChannel) : Scope :=
  ⟨channel.tenantId, channel.nsName, channel.config.name⟩

def row (channel : SqliteChannel) (message : Message) (timestamp createdAt : Int) :
    ChannelMessage where
  id := message.id
  tenantId := channel.tenantId
  nsName := channel.nsName
  channelName := channel.config.name
  payload := message.payload
  headers := message.headers
  idempotencyKey := message.idempotencyKey
  conflictResolution := message.conflictResolution
  timestamp := timestamp
  createdAt := createdAt

def insert (channel : SqliteChannel) (message : Message) (timestamp createdAt : Int) :
    Statements (Except ChannelError String) := do
  match ← statement (.insert (channel.row message timestamp createdAt)) with
  | .ok () => return .ok message.id
  | .error e => return .error (.backendError s!"Failed to send message: {e}")

def overwrites (message : Message) : Bool :=
  message.conflictResolution = overwritePolicy ∧ message.idempotencyKey ≠ ""

/-- An overwriting message updates the queued rows of its key; only when there are none, or
for any other message, a row is inserted. -/
def store (channel : SqliteChannel) (message : Message) (timestamp createdAt : Int) :
    Statements (Except ChannelError String) := do
  if overwrites message then
    let updated : Nat ← statement (.overwrite channel.scope message.idempotencyKey message.payload
      message.headers message.conflictResolution timestamp)
    if 0 < updated then
      return .ok message.id
    else
      channel.insert message timestamp createdAt
  else
    channel.insert message timestamp createdAt

def send (channel : SqliteChannel) (message : Message) :
    Statements (Except ChannelError String) := do
  if channel.closed then
    return .error (.channelClosed channel.config.name)
  else
    let timestamp ← protoTimestampToUnixMs message.timestamp
    let createdAt ← statement .now
    channel.store message timestamp createdAt

def receive (channel : SqliteChannel) (maxMessages : Nat) : Statements (List Message) := do
  let now ← statement .now
  let rows ← statement (.selectDeliverable channel.scope now maxMessages)
  return rows.map (·.toMessage)

/-- The recovery of a channel that is opened: the messages that it counts as pending. -/
def recoverUnackedMessages (channel : SqliteChannel) : Statements (List Message) := do
  let now ← statement .now
  let rows ← statement (.selectUnacked channel.scope now)
  return rows.map (·.toMessage)

def cleanupAckedMessages (channel : SqliteChannel) : Statements Unit := do
  if channel.sqliteConfig.cleanupAcked ∧ channel.sqliteConfig.cleanupAgeSeconds ≠ 0 then
    let now ← statement .now
    let age := asI64 (asI64 channel.sqliteConfig.cleanupAgeSeconds * 1000)
    let _ ← statement (.deleteAcked channel.scope (asI64 (now - age)))

def ack (channel : SqliteChannel) (messageId : String) :
    Statements (Except ChannelError Unit) := do
  match ← statement (.selectAcked channel.scope messageId) with
  | none => return .error (.messageNotFound messageId)
  | some true => return .error (.messageNotFound messageId)
  | some false =>
      let updated : Nat ← statement (.markAcked channel.scope messageId)
      if updated = 0 then
        return .error (.messageNotFound messageId)
      else
        channel.cleanupAckedMessages
        return .ok ()

/-- The time from which a requeued message is delivered again; `0` is at once. -/
def requeueTime : Option Nat → Statements Int
  | some delay => do
      let now ← statement .now
      return asI64 (now + asI64 delay)
  | none => return 0

def nack (channel : SqliteChannel) (messageId : String) (requeue : Bool) (delay : Option Nat) :
    Statements (Except ChannelError Unit) := do
  match ← statement (.selectDeliveryCount channel.scope messageId) with
  | none => return .error (.messageNotFound messageId)
  | some currentDeliveryCount =>
      if requeue ∧ .ofNat currentDeliveryCount < maxRetriesFromConfig channel.config then
        let sendAt ← requeueTime delay
        let updated : Nat ← statement (.requeue channel.scope messageId sendAt)
        if updated = 0 then
          return .error (.messageNotFound messageId)
        else
          return .ok ()
      else if channel.config.dlqEnabled ∧ channel.config.deadLetterQueue ≠ "" then
        let _ ← statement (.markDeadLettered channel.scope messageId)
        return .ok ()
      else
        channel.ack messageId

end SqliteChannel

/-! ## Calls -/

inductive Call where
  | send (message : Message)
  | receive (maxMessages : Nat)
  | ack (messageId : String)
  | nack (messageId : String) (requeue : Bool) (delay : Option Nat)

/-- What a call returns, with the id that it was about. -/
inductive Returned where
  | sent (result : Except ChannelError String)
  | received (messages : List Message)
  | acked (messageId : String) (result : Except ChannelError Unit)
  | nacked (messageId : String) (result : Except ChannelError Unit)

def SqliteChannel.call (channel : SqliteChannel) : Call → Statements Returned
  | .send message => do return .sent (← channel.send message)
  | .receive maxMessages => do return .received (← channel.receive maxMessages)
  | .ack messageId => do return .acked messageId (← channel.ack messageId)
  | .nack messageId requeue delay => do
      return .nacked messageId (← channel.nack messageId requeue delay)

end PlexSpaces.Channel
