import PlexSpaces.Channel.Sqlite
import PlexSpaces.Lib.Run
/-!
# Deliverability of accepted messages

A `send` with the policy Overwrite writes into every row of its key that is not
acked, also into one that `receive` never returns because it is dead-lettered.
When there are only such rows the message is accepted and lost
(`not_overwrite_stays_deliverable`); in every other case it can be received until
its row is acked, nacked or overwritten (`accepted_stays_deliverable_iff`).
-/

namespace PlexSpaces.Channel

open PlexSpaces.Lib

/-- What happens to the table: a call of some channel, the opening of a channel, and the
passing of time. -/
inductive Action where
  | call (channel : SqliteChannel) (call : Call)
  | reopen (channel : SqliteChannel)
  | wait (milliseconds : Nat)

def Database.step (db : Database) : Action → Database
  | .call channel call => (Interaction.run serve (channel.call call) db).2
  | .reopen channel => (Interaction.run serve channel.recoverUnackedMessages db).2
  | .wait milliseconds => { db with clock := db.clock + milliseconds }

/-- The row holds the message: it has its key and content and is not acked, and it is the
row of the message unless the message overwrites. -/
structure ChannelMessage.Holds (scope : Scope) (message : Message) (row : ChannelMessage) :
    Prop where
  scope : row.scope = scope
  idempotencyKey : row.idempotencyKey = message.idempotencyKey
  acked : row.acked = false
  payload : row.payload = message.payload
  headers : row.headers = message.headers
  origin : SqliteChannel.overwrites message = true ∨ row.id = message.id

/-- The action neither acks nor nacks the row nor overwrites its key. -/
def Action.Spares (scope : Scope) (id key : String) : Action → Prop
  | .call channel (.send message) =>
      ¬(channel.scope = scope ∧ SqliteChannel.overwrites message = true ∧
        message.idempotencyKey = key)
  | .call channel (.ack id') | .call channel (.nack id' _ _) =>
      ¬(channel.scope = scope ∧ id' = id)
  | _ => True

/-- Some row holds the message, and until it is acked, nacked or overwritten every large
enough `receive` past its time returns it. -/
def StaysDeliverable (scope : Scope) (message : Message) (db : Database) : Prop :=
  ∃ row ∈ db.messages.rows, row.Holds scope message ∧
    ∀ actions : List Action,
      (∀ action ∈ actions, action.Spares scope row.id message.idempotencyKey) →
      ∀ (channel : SqliteChannel) (maxMessages : Nat), channel.scope = scope →
        (run Database.step db actions).messages.rows.length ≤ maxMessages →
        (∀ row' ∈ (run Database.step db actions).messages.rows, row'.id = row.id →
          row'.sendAt = 0 ∨ row'.sendAt ≤ (run Database.step db actions).clock) →
        ∃ received ∈ (Interaction.run Database.serve (channel.receive maxMessages)
            (run Database.step db actions)).1,
          received.id = row.id ∧ received.payload = message.payload ∧
            received.headers = message.headers

/-! ## What a spared row keeps -/

def Statement.Spares (scope : Scope) (id key : String) : Statement → Prop
  | .overwrite scope' key' _ _ _ _ => ¬(scope' = scope ∧ key' = key)
  | .requeue scope' id' _ | .markAcked scope' id' | .markDeadLettered scope' id' =>
      ¬(scope' = scope ∧ id' = id)
  | _ => True

section Spares

variable {scope : Scope} {id key : String} {db : Database} {row : ChannelMessage}

theorem Database.mem_modify {p : ChannelMessage → Bool} {f : ChannelMessage → ChannelMessage}
    (hf : ∀ row, (f row).id = row.id) (hrow : row ∈ db.messages.rows) (hp : ¬p row = true) :
    row ∈ (db.modify p f hf).2.messages.rows :=
  List.mem_map.mpr ⟨row, hrow, if_neg hp⟩

/-- A spared row that is not acked stays in the table. -/
theorem Statement.Spares.mem_serve {s : Statement}
    (hs : s.Spares row.scope row.id row.idempotencyKey)
    (hacked : row.acked = false) (hrow : row ∈ db.messages.rows) :
    row ∈ (Database.serve s db).2.messages.rows := by
  cases s with
  | now => exact hrow
  | selectDeliverable => exact hrow
  | selectUnacked => exact hrow
  | selectAcked => exact hrow
  | selectDeliveryCount => exact hrow
  | overwrite =>
      refine Database.mem_modify _ hrow fun hp => hs ?_
      obtain ⟨hscope, hkey, -⟩ := of_decide_eq_true hp
      exact ⟨hscope.symm, hkey.symm⟩
  | insert new =>
      rw [Database.serve]
      split
      next messages hinsert =>
        rw [Table.rows_of_insert? hinsert]
        exact List.mem_append_left _ hrow
      next => exact hrow
  | markAcked =>
      refine Database.mem_modify _ hrow fun hp => hs ?_
      obtain ⟨hid, hscope⟩ := of_decide_eq_true (of_decide_eq_true hp).1
      exact ⟨hscope.symm, hid.symm⟩
  | deleteAcked =>
      refine List.mem_filter.mpr ⟨hrow, ?_⟩
      simp [hacked]
  | requeue =>
      refine Database.mem_modify _ hrow fun hp => hs ?_
      obtain ⟨hid, hscope⟩ := of_decide_eq_true hp
      exact ⟨hscope.symm, hid.symm⟩
  | markDeadLettered =>
      refine Database.mem_modify _ hrow fun hp => hs ?_
      obtain ⟨hid, hscope⟩ := of_decide_eq_true hp
      exact ⟨hscope.symm, hid.symm⟩

theorem asks_statement (s : Statement) (hs : s.Spares scope id key) :
    (statement s).Asks (Statement.Spares scope id key) :=
  Interaction.asks_send hs

theorem asks_cleanupAckedMessages (channel : SqliteChannel) :
    channel.cleanupAckedMessages.Asks (Statement.Spares scope id key) := by
  rw [SqliteChannel.cleanupAckedMessages]
  split
  · exact ⟨trivial, fun _ => ⟨trivial, fun _ => trivial⟩⟩
  · trivial

theorem asks_ack {channel : SqliteChannel} {messageId : String}
    (hspares : ¬(channel.scope = scope ∧ messageId = id)) :
    (channel.ack messageId).Asks (Statement.Spares scope id key) := by
  refine (asks_statement (.selectAcked _ _) trivial).bind fun acked => ?_
  match acked with
  | none => trivial
  | some true => trivial
  | some false =>
      refine (asks_statement (.markAcked _ _) hspares).bind fun updated => ?_
      split
      · trivial
      · exact (asks_cleanupAckedMessages channel).bind fun _ => trivial

theorem asks_nack {channel : SqliteChannel} {messageId : String} {requeue : Bool}
    {delay : Option Nat} (hspares : ¬(channel.scope = scope ∧ messageId = id)) :
    (channel.nack messageId requeue delay).Asks (Statement.Spares scope id key) := by
  refine (asks_statement (.selectDeliveryCount _ _) trivial).bind fun deliveryCount => ?_
  match deliveryCount with
  | none => trivial
  | some deliveryCount =>
      dsimp only
      split
      · have htime : (SqliteChannel.requeueTime delay).Asks (Statement.Spares scope id key) := by
          cases delay with
          | none => trivial
          | some delay => exact ⟨trivial, fun _ => trivial⟩
        refine htime.bind fun sendAt => ?_
        refine (asks_statement (.requeue _ _ _) hspares).bind fun updated => ?_
        split <;> trivial
      · split
        · exact (asks_statement (.markDeadLettered _ _) hspares).bind fun _ => trivial
        · exact asks_ack hspares

theorem asks_protoTimestampToUnixMs (timestamp : Option Timestamp) :
    (protoTimestampToUnixMs timestamp).Asks (Statement.Spares scope id key) := by
  cases timestamp with
  | none => exact ⟨trivial, fun _ => trivial⟩
  | some t => trivial

theorem asks_insert (channel : SqliteChannel) (message : Message) (timestamp createdAt : Int) :
    (channel.insert message timestamp createdAt).Asks (Statement.Spares scope id key) := by
  refine (asks_statement (.insert _) trivial).bind fun inserted => ?_
  match inserted with
  | .ok () => trivial
  | .error _ => trivial

theorem asks_send {channel : SqliteChannel} {message : Message}
    (hspares : ¬(channel.scope = scope ∧ SqliteChannel.overwrites message = true ∧
      message.idempotencyKey = key)) :
    (channel.send message).Asks (Statement.Spares scope id key) := by
  rw [SqliteChannel.send]
  split
  · trivial
  refine (asks_protoTimestampToUnixMs _).bind fun timestamp => ?_
  refine (asks_statement .now trivial).bind fun createdAt => ?_
  rw [SqliteChannel.store]
  split
  next hoverwrites =>
    have hspared : (Statement.overwrite channel.scope message.idempotencyKey message.payload
        message.headers message.conflictResolution timestamp).Spares scope id key :=
      fun h => hspares ⟨h.1, hoverwrites, h.2⟩
    refine (asks_statement _ hspared).bind fun updated => ?_
    split
    · trivial
    · exact asks_insert _ _ _ _
  next => exact asks_insert _ _ _ _

/-- A call that spares a row makes only statements that do. -/
theorem Action.Spares.asks {channel : SqliteChannel} {call : Call}
    (hspares : (Action.call channel call).Spares scope id key) :
    (channel.call call).Asks (Statement.Spares scope id key) := by
  cases call with
  | send message => exact (asks_send hspares).bind fun _ => trivial
  | receive maxMessages => exact ⟨trivial, fun _ => ⟨trivial, fun _ => trivial⟩⟩
  | ack messageId => exact (asks_ack hspares).bind fun _ => trivial
  | nack messageId requeue delay => exact (asks_nack hspares).bind fun _ => trivial

theorem Action.Spares.mem_step {action : Action}
    (hspares : action.Spares row.scope row.id row.idempotencyKey) (hacked : row.acked = false)
    (hrow : row ∈ db.messages.rows) : row ∈ (db.step action).messages.rows := by
  have hserve : ∀ (s : Statement) (db : Database),
      s.Spares row.scope row.id row.idempotencyKey → row ∈ db.messages.rows →
        row ∈ (Database.serve s db).2.messages.rows :=
    fun s db hs hrow => hs.mem_serve hacked hrow
  cases action with
  | call channel call =>
      exact hspares.asks.run_invariant hserve hrow
  | reopen channel => exact hrow
  | wait milliseconds => exact hrow

end Spares

/-! ## What a send stores -/

section Send

variable {channel : SqliteChannel} {message : Message} {db : Database}

theorem messages_protoTimestampToUnixMs (timestamp : Option Timestamp) (db : Database) :
    (Interaction.run Database.serve (protoTimestampToUnixMs timestamp) db).2.messages =
      db.messages := by
  cases timestamp <;> rfl

theorem insert_stores {timestamp createdAt : Int} {id : String}
    (hsent : (Interaction.run Database.serve (channel.insert message timestamp createdAt) db).1 =
      .ok id) :
    (Interaction.run Database.serve
        (channel.insert message timestamp createdAt) db).2.messages.rows =
      db.messages.rows ++ [channel.row message timestamp createdAt] := by
  rw [SqliteChannel.insert, statement, Interaction.run_bind, Interaction.run_send,
    Database.serve] at hsent ⊢
  cases hinsert : db.messages.insert? (channel.row message timestamp createdAt) with
  | none => simp [hinsert] at hsent
  | some messages => exact Table.rows_of_insert? hinsert

/-- The rows after an update by an overwriting message. -/
def overwriteRows (scope : Scope) (message : Message) (timestamp : Int)
    (rows : List ChannelMessage) : List ChannelMessage :=
  rows.map fun row =>
    if row.queuedUnder scope message.idempotencyKey then
      { row with
        payload := message.payload, headers := message.headers
        conflictResolution := message.conflictResolution, timestamp }
    else row

theorem store_stores {timestamp createdAt : Int} {id : String}
    (hsent : (Interaction.run Database.serve (channel.store message timestamp createdAt) db).1 =
      .ok id) :
    let rows := (Interaction.run Database.serve
      (channel.store message timestamp createdAt) db).2.messages.rows
    (SqliteChannel.overwrites message = true ∧
      db.messages.select (·.queuedUnder channel.scope message.idempotencyKey) ≠ [] ∧
      rows = overwriteRows channel.scope message timestamp db.messages.rows) ∨
    ((SqliteChannel.overwrites message = true →
        db.messages.select (·.queuedUnder channel.scope message.idempotencyKey) = []) ∧
      rows = db.messages.rows ++ [channel.row message timestamp createdAt]) := by
  revert hsent
  rw [SqliteChannel.store]
  split
  next hoverwrites =>
    rw [Interaction.run_bind, statement, Interaction.run_send, Database.serve, Database.modify]
    by_cases hqueued :
        db.messages.select (·.queuedUnder channel.scope message.idempotencyKey) = []
    · rw [if_neg (by simp [hqueued]), Table.updateWhere_of_select_nil hqueued]
      exact fun hsent => .inr ⟨fun _ => hqueued, insert_stores hsent⟩
    · rw [if_pos (List.length_pos_iff.mpr hqueued)]
      exact fun _ => .inl ⟨hoverwrites, hqueued, rfl⟩
  next hnot =>
    exact fun hsent => .inr ⟨fun hoverwrites => absurd hoverwrites hnot, insert_stores hsent⟩

theorem mem_overwriteRows {scope : Scope} (timestamp : Int) {rows : List ChannelMessage}
    {row : ChannelMessage} (hrow : row ∈ rows)
    (hunder : row.queuedUnder scope message.idempotencyKey = true) :
    { row with
      payload := message.payload, headers := message.headers
      conflictResolution := message.conflictResolution, timestamp } ∈
      overwriteRows scope message timestamp rows :=
  List.mem_map.mpr ⟨row, hrow, if_pos hunder⟩

/-- A send that returns Ok wrote into the queued rows of its key, when it overwrites and there
are any, and inserted a row otherwise. -/
theorem send_stores {id : String}
    (hsent : (Interaction.run Database.serve (channel.send message) db).1 = .ok id) :
    let rows := (Interaction.run Database.serve (channel.send message) db).2.messages.rows
    (SqliteChannel.overwrites message = true ∧
      db.messages.select (·.queuedUnder channel.scope message.idempotencyKey) ≠ [] ∧
      ∃ timestamp, rows = overwriteRows channel.scope message timestamp db.messages.rows) ∨
    ((SqliteChannel.overwrites message = true →
        db.messages.select (·.queuedUnder channel.scope message.idempotencyKey) = []) ∧
      ∃ timestamp createdAt,
        rows = db.messages.rows ++ [channel.row message timestamp createdAt]) := by
  revert hsent
  rw [SqliteChannel.send]
  split
  next => exact fun hsent => nomatch hsent
  next =>
    intro hsent
    rw [Interaction.run_bind, Interaction.run_bind] at hsent ⊢
    have hstored := store_stores hsent
    have hmessages := messages_protoTimestampToUnixMs message.timestamp db
    generalize hread :
      Interaction.run Database.serve (protoTimestampToUnixMs message.timestamp) db =
      read at hsent hstored hmessages ⊢
    rw [← hmessages]
    rcases hstored with ⟨hoverwrites, hqueued, hrows⟩ | ⟨hqueued, hrows⟩
    · exact .inl ⟨hoverwrites, hqueued, _, hrows⟩
    · exact .inr ⟨hqueued, _, _, hrows⟩

end Send

/-! ## Deliverability -/

section Deliverable

variable {scope : Scope} {message : Message} {db : Database} {row : ChannelMessage}

/-- `receive` returns the rows that may be delivered at some time from the clock on. -/
theorem receive_eq (channel : SqliteChannel) (maxMessages : Nat) (db : Database) :
    ∃ now : Nat, db.clock ≤ now ∧
      (Interaction.run Database.serve (channel.receive maxMessages) db).1 =
        ((db.deliverable channel.scope now).take maxMessages).map (·.toMessage) :=
  ⟨db.clock + db.ticks.head?.getD 0, Nat.le_add_right _ _, rfl⟩

theorem Database.mem_deliverable {now : Int} :
    row ∈ db.deliverable scope now ↔ row ∈ db.messages.rows ∧ row.deliverable scope now = true := by
  rw [Database.deliverable, List.mem_insertionSort, Table.select, List.mem_filter]

theorem Database.length_deliverable_le (db : Database) (scope : Scope) (now : Int) :
    (db.deliverable scope now).length ≤ db.messages.rows.length := by
  rw [Database.deliverable, List.length_insertionSort]
  exact List.length_filter_le _ _

/-- A row that is not dead-lettered is returned until something happens to it. -/
theorem staysDeliverable_of_mem (hrow : row ∈ db.messages.rows) (hholds : row.Holds scope message)
    (hdead : row.deadLettered = false) : StaysDeliverable scope message db := by
  refine ⟨row, hrow, hholds, ?_⟩
  intro actions hspares channel maxMessages hscope hmax htime
  rw [← hholds.scope, ← hholds.idempotencyKey] at hspares
  have hstep : ∀ action ∈ actions, ∀ db : Database, row ∈ db.messages.rows →
      row ∈ (db.step action).messages.rows :=
    fun action haction db hrow => (hspares action haction).mem_step hholds.acked hrow
  have hlater : row ∈ (run Database.step db actions).messages.rows := run_invariant hstep hrow
  obtain ⟨now, hnow, hreceive⟩ := receive_eq channel maxMessages (run Database.step db actions)
  refine ⟨row.toMessage, ?_, rfl, hholds.payload, hholds.headers⟩
  rw [hreceive, List.take_of_length_le ((Database.length_deliverable_le _ _ _).trans hmax)]
  refine List.mem_map_of_mem (Database.mem_deliverable.mpr ⟨hlater, decide_eq_true ?_⟩)
  refine ⟨hholds.scope.trans hscope.symm, hholds.acked, hdead, ?_⟩
  exact (htime row hlater rfl).imp_right fun hle => hle.trans (by exact_mod_cast hnow)

/-- A message that is held by dead letters only is not returned. -/
theorem not_staysDeliverable
    (hdead : ∀ row ∈ db.messages.rows, row.Holds scope message → row.deadLettered = true) :
    ¬StaysDeliverable scope message db := by
  rintro ⟨row, hrow, hholds, hstays⟩
  have honly : ∀ row' ∈ db.messages.rows, row'.id = row.id → row' = row :=
    fun row' hrow' hid => Table.eq_of_key_eq hrow' hrow hid
  have htime : ∀ row' ∈ db.messages.rows, row'.id = row.id →
      row'.sendAt = 0 ∨ row'.sendAt ≤ (db.clock + row.sendAt.toNat : Nat) := by
    intro row' hrow' hid
    rw [honly row' hrow' hid]
    refine .inr ((Int.self_le_toNat _).trans ?_)
    exact_mod_cast Nat.le_add_left _ _
  let channel : SqliteChannel :=
    { tenantId := scope.tenantId, nsName := scope.nsName, config := { name := scope.channelName } }
  obtain ⟨received, hreceived, hid, -⟩ := hstays [.wait row.sendAt.toNat]
    (fun action haction => List.mem_singleton.mp haction ▸ trivial) channel
    db.messages.rows.length rfl le_rfl htime
  obtain ⟨now, -, hreceive⟩ := receive_eq channel db.messages.rows.length
    (run Database.step db [.wait row.sendAt.toNat])
  rw [hreceive] at hreceived
  obtain ⟨row', hrow', rfl⟩ := List.mem_map.mp hreceived
  obtain ⟨hmem, hdeliverable⟩ := Database.mem_deliverable.mp (List.mem_of_mem_take hrow')
  rw [honly row' hmem hid] at hdeliverable
  have hlive := (of_decide_eq_true hdeliverable).2.2.1
  rw [hdead row hrow hholds] at hlive
  cases hlive

end Deliverable

/-- The message is written into queued rows, all of which are dead-lettered. -/
def OverwritesOnlyDeadLetters (scope : Scope) (message : Message) (db : Database) : Prop :=
  SqliteChannel.overwrites message = true ∧
    db.messages.select (·.queuedUnder scope message.idempotencyKey) ≠ [] ∧
    ∀ row ∈ db.messages.select (·.queuedUnder scope message.idempotencyKey),
      row.deadLettered = true

/-- An accepted message stays deliverable exactly when it was not written into dead letters
only. -/
theorem accepted_stays_deliverable_iff (channel : SqliteChannel) (message : Message)
    (db : Database) (id : String)
    (hsent : (Interaction.run Database.serve (channel.send message) db).1 = .ok id) :
    StaysDeliverable channel.scope message
        (Interaction.run Database.serve (channel.send message) db).2 ↔
      ¬OverwritesOnlyDeadLetters channel.scope message db := by
  rcases send_stores hsent with
    ⟨hoverwrites, hqueued, timestamp, hrows⟩ | ⟨hqueued, timestamp, createdAt, hrows⟩
  · constructor
    · rintro hstays ⟨-, -, hdead⟩
      refine not_staysDeliverable (fun row hrow hholds => ?_) hstays
      rw [hrows] at hrow
      obtain ⟨row₀, hrow₀, rfl⟩ := List.mem_map.mp hrow
      revert hholds
      split
      next hunder => exact fun _ => hdead row₀ (List.mem_filter.mpr ⟨hrow₀, hunder⟩)
      next hnot =>
        intro hholds
        exact absurd (decide_eq_true ⟨hholds.scope, hholds.idempotencyKey, hholds.acked⟩) hnot
    · intro hnot
      -- one of the rows that were written into is no dead letter
      obtain ⟨row, hrow, hlive⟩ : ∃ row ∈ db.messages.select
          (·.queuedUnder channel.scope message.idempotencyKey), row.deadLettered = false := by
        by_contra hall
        push Not at hall
        exact hnot ⟨hoverwrites, hqueued, fun row hrow => by simpa using hall row hrow⟩
      obtain ⟨hmem, hunder⟩ := List.mem_filter.mp hrow
      obtain ⟨hscope, hkey, hacked⟩ := of_decide_eq_true hunder
      have hwritten := mem_overwriteRows timestamp hmem hunder
      rw [← hrows] at hwritten
      exact staysDeliverable_of_mem hwritten
        ⟨hscope, hkey, hacked, rfl, rfl, .inl hoverwrites⟩ hlive
  · refine iff_of_true ?_ fun h => h.2.1 (hqueued h.1)
    refine staysDeliverable_of_mem (hrows ▸ List.mem_append_right _ (List.mem_singleton_self _)) ?_
      rfl
    exact ⟨rfl, rfl, rfl, rfl, rfl, .inr rfl⟩

def deadLetterChannel : SqliteChannel where
  config := { name := "orders", dlqEnabled := true, deadLetterQueue := "orders-dlq" }

def original : Message where
  id := "m1"
  payload := [1]
  idempotencyKey := "k"
  conflictResolution := overwritePolicy

def replacement : Message where
  id := "m2"
  payload := [2]
  idempotencyKey := "k"
  conflictResolution := overwritePolicy

/-- Before the second send: the first message was rejected and is a dead letter. -/
def rejected : Database :=
  run Database.step {} [.call deadLetterChannel (.send original),
    .call deadLetterChannel (.nack "m1" false none)]

theorem not_overwrite_stays_deliverable :
    (Interaction.run Database.serve (deadLetterChannel.send replacement) rejected).1 = .ok "m2" ∧
      ¬StaysDeliverable deadLetterChannel.scope replacement
        (Interaction.run Database.serve (deadLetterChannel.send replacement) rejected).2 := by
  refine ⟨rfl, not_staysDeliverable fun row hrow _ => ?_⟩
  rw [List.mem_singleton.mp hrow]
  rfl

/-- While the first message is queued, the second one is written into its row. -/
def queued : Database := Database.step {} (.call deadLetterChannel (.send original))

theorem replacement_stays_deliverable :
    SqliteChannel.overwrites replacement = true ∧
      queued.messages.select (·.queuedUnder deadLetterChannel.scope "k") ≠ [] ∧
      StaysDeliverable deadLetterChannel.scope replacement
        (Interaction.run Database.serve (deadLetterChannel.send replacement) queued).2 := by
  refine ⟨rfl, List.cons_ne_nil _ _, ?_⟩
  refine (accepted_stays_deliverable_iff deadLetterChannel replacement queued "m2" rfl).mpr ?_
  intro hdead
  cases hdead.2.2 _ List.mem_cons_self

end PlexSpaces.Channel
