import PlexSpaces.Channel.Overwrite
/-!
# The waiting rows of a channel

The rows that are neither acked nor dead-lettered, in the order of insertion, and
what each call does to them when it runs alone: a send appends a row or rewrites
contents, a requeue raises a delivery count and sets a time, and a row leaves by
`ack`, by a dead letter, or by a requeue that the retry limit refuses.
-/

namespace PlexSpaces.Channel

open PlexSpaces.Lib

def ChannelMessage.waiting (scope : Scope) (row : ChannelMessage) : Bool :=
  row.scope = scope ∧ row.acked = false ∧ row.deadLettered = false

def Database.waiting (db : Database) (scope : Scope) : List ChannelMessage :=
  db.messages.select (·.waiting scope)

section Waiting

variable {scope : Scope} {db : Database} {row : ChannelMessage} {id : String}

theorem ChannelMessage.waiting_iff :
    row.waiting scope = true ↔
      row.scope = scope ∧ row.acked = false ∧ row.deadLettered = false := decide_eq_true_iff

theorem Database.mem_waiting :
    row ∈ db.waiting scope ↔ row ∈ db.messages.rows ∧ row.waiting scope = true :=
  List.mem_filter

theorem Database.nodup_waiting (db : Database) (scope : Scope) :
    ((db.waiting scope).map (·.id)).Nodup :=
  db.messages.nodup.sublist (List.filter_sublist.map _)

theorem Database.eq_of_mem_waiting {row' : ChannelMessage} (hrow : row ∈ db.waiting scope)
    (hrow' : row' ∈ db.messages.rows) (hid : row'.id = row.id) : row' = row :=
  Table.eq_of_key_eq hrow' (mem_waiting.mp hrow).1 hid

def ChannelMessage.due (now : Int) (row : ChannelMessage) : Bool :=
  row.sendAt = 0 ∨ row.sendAt ≤ now

/-- The rows that wait and are due are delivered, in the order of their keys. -/
theorem Database.deliverable_eq (db : Database) (scope : Scope) (now : Int) :
    db.deliverable scope now =
      ((db.waiting scope).filter (·.due now)).insertionSort fun row row' =>
        row.sortKey ≤ row'.sortKey := by
  rw [Database.deliverable, Database.waiting, Table.select, Table.select, List.filter_filter]
  congr 2
  funext row
  rw [ChannelMessage.deliverable, ChannelMessage.waiting, ChannelMessage.due, Bool.eq_iff_iff]
  simp only [decide_eq_true_eq, Bool.and_eq_true]
  tauto

theorem Database.select_addressed (hrow : row ∈ db.waiting scope) :
    db.messages.select (·.addressed scope row.id) = [row] := by
  obtain ⟨hmem, hwaiting⟩ := mem_waiting.mp hrow
  refine Table.select_eq_singleton hmem (decide_eq_true ⟨rfl, ?_⟩) ?_
  · exact (ChannelMessage.waiting_iff.mp hwaiting).1
  · exact fun row' haddressed => (of_decide_eq_true haddressed).1

/-- An update under which the updated rows wait if they did. -/
theorem Database.waiting_modify {p : ChannelMessage → Bool} {f : ChannelMessage → ChannelMessage}
    {hf : ∀ row, (f row).id = row.id}
    (hsame : ∀ row ∈ db.messages.rows, p row = true → (f row).waiting scope = row.waiting scope) :
    (db.modify p f hf).2.waiting scope =
      (db.waiting scope).map fun row => if p row then f row else row := by
  change (db.messages.rows.map fun row => if p row then f row else row).filter _ = _
  rw [List.filter_map]
  refine congrArg _ (List.filter_congr fun row hrow => ?_)
  rw [Function.comp_apply]
  split
  next hp => exact hsame row hrow hp
  next => rfl

theorem Database.waiting_modify_gone {p : ChannelMessage → Bool}
    {f : ChannelMessage → ChannelMessage} {hf : ∀ row, (f row).id = row.id}
    (hgone : ∀ row, p row = true → (f row).waiting scope = false) :
    (db.modify p f hf).2.waiting scope = (db.waiting scope).filter fun row => !p row := by
  change (db.messages.rows.map fun row => if p row then f row else row).filter _ =
    (db.messages.rows.filter _).filter _
  induction db.messages.rows with
  | nil => rfl
  | cons row rows ih =>
      rw [List.map_cons]
      by_cases hp : p row = true
      · rw [if_pos hp, List.filter_cons_of_neg (by simp [hgone row hp]), ih, List.filter_filter,
          List.filter_filter, List.filter_cons_of_neg (by simp [hp])]
      · rw [if_neg hp, List.filter_filter, List.filter_cons, List.filter_cons, ih,
          List.filter_filter]
        simp [hp]

theorem Database.waiting_deleteAcked (scope' : Scope) (cutoff : Int) :
    (Database.serve (.deleteAcked scope' cutoff) db).2.waiting scope = db.waiting scope := by
  change (db.messages.rows.filter _).filter _ = db.messages.rows.filter _
  rw [List.filter_filter]
  refine List.filter_congr fun row _ => ?_
  cases hwaiting : row.waiting scope with
  | false => exact Bool.false_and _
  | true => simp [(ChannelMessage.waiting_iff.mp hwaiting).2.1]

end Waiting

/-! ## The calls -/

theorem clock_le_serve (s : Statement) (db : Database) :
    db.clock ≤ (Database.serve s db).2.clock := by
  cases s with
  | now => exact Nat.le_add_right _ _
  | insert row =>
      rw [Database.serve]
      split <;> exact le_rfl
  | _ => exact le_rfl

theorem clock_le_run {α : Type} (p : Statements α) (db : Database) :
    db.clock ≤ (Interaction.run Database.serve p db).2.clock := by
  induction p generalizing db with
  | done a => exact le_rfl
  | ask s next ih => exact (clock_le_serve s db).trans (ih _ _)

section Calls

variable {channel : SqliteChannel} {db : Database} {row : ChannelMessage}

theorem waiting_cleanupAckedMessages (scope : Scope) (db : Database) :
    (Interaction.run Database.serve channel.cleanupAckedMessages db).2.waiting scope =
      db.waiting scope := by
  rw [SqliteChannel.cleanupAckedMessages]
  split
  · exact Database.waiting_deleteAcked _ _
  · rfl

theorem receive_waiting (maxMessages : Nat) (db : Database) :
    ∃ rows : List ChannelMessage,
      (Interaction.run Database.serve (channel.receive maxMessages) db).1 = rows.map (·.toMessage) ∧
      (rows.map (·.id)).Nodup ∧ ∀ row ∈ rows, row ∈ db.waiting channel.scope := by
  obtain ⟨now, -, hreceive⟩ := receive_eq channel maxMessages db
  have hperm := List.perm_insertionSort
    (fun row row' : ChannelMessage => row.sortKey ≤ row'.sortKey)
    ((db.waiting channel.scope).filter (·.due now))
  rw [Database.deliverable_eq] at hreceive
  refine ⟨_, hreceive, ?_, ?_⟩
  · refine List.Nodup.sublist ((List.take_sublist _ _).map _) ((hperm.map _).nodup_iff.mpr ?_)
    exact (db.nodup_waiting channel.scope).sublist (List.filter_sublist.map _)
  · exact fun row hrow => (List.mem_filter.mp (hperm.mem_iff.mp (List.mem_of_mem_take hrow))).1

/-- A condition that only the row of the message meets among the waiting rows. -/
theorem filter_not_addressed {id : String} {p : ChannelMessage → Bool}
    (hp : ∀ row ∈ db.waiting channel.scope, p row = row.addressed channel.scope id) :
    ((db.waiting channel.scope).filter fun row => !p row) =
      (db.waiting channel.scope).filter fun row => row.id ≠ id := by
  refine List.filter_congr fun row hrow => ?_
  have hscope := (ChannelMessage.waiting_iff.mp (Database.mem_waiting.mp hrow).2).1
  rw [hp row hrow, ChannelMessage.addressed, hscope]
  simp

theorem waiting_ack (hrow : row ∈ db.waiting channel.scope) :
    (Interaction.run Database.serve (channel.ack row.id) db).2.waiting channel.scope =
      (db.waiting channel.scope).filter fun row' => row'.id ≠ row.id := by
  obtain ⟨hmem, hwaiting⟩ := Database.mem_waiting.mp hrow
  obtain ⟨hscope, hacked, -⟩ := ChannelMessage.waiting_iff.mp hwaiting
  have hselect : db.messages.select (fun row' =>
      row'.addressed channel.scope row.id ∧ row'.acked = false) = [row] := by
    refine Table.select_eq_singleton hmem ?_ ?_
    · simp [ChannelMessage.addressed, hscope, hacked]
    · exact fun row' h => (of_decide_eq_true (of_decide_eq_true h).1).1
  rw [SqliteChannel.ack, Interaction.run_bind, statement, Interaction.run_send, Database.serve,
    Database.select_addressed hrow]
  dsimp only [List.head?_cons, Option.map_some]
  rw [hacked]
  dsimp only
  rw [Interaction.run_bind, statement, Interaction.run_send, Database.serve, Database.modify,
    hselect, if_neg (by simp), Interaction.run_bind]
  refine (waiting_cleanupAckedMessages _ _).trans ?_
  refine (Database.waiting_modify_gone fun row' _ => ?_).trans
    (filter_not_addressed fun row' h => ?_)
  · simp [ChannelMessage.waiting]
  · have hwaiting' := (ChannelMessage.waiting_iff.mp (Database.mem_waiting.mp h).2).2.1
    simp [hwaiting']

def ChannelMessage.requeued (sendAt : Int) (row : ChannelMessage) : ChannelMessage :=
  { row with acked := false, deliveryCount := row.deliveryCount + 1, sendAt }

theorem messages_requeueTime (delay : Option Nat) (db : Database) :
    (Interaction.run Database.serve (SqliteChannel.requeueTime delay) db).2.messages =
      db.messages := by
  cases delay <;> rfl

theorem waiting_nack_requeue (hrow : row ∈ db.waiting channel.scope)
    (hlimit : .ofNat row.deliveryCount < maxRetriesFromConfig channel.config)
    (delay : Option Nat) :
    ∃ sendAt, (delay = none → sendAt = 0) ∧
      (Interaction.run Database.serve (channel.nack row.id true delay) db).2.waiting
          channel.scope =
        (db.waiting channel.scope).map fun row' =>
          if row'.id = row.id then row'.requeued sendAt else row' := by
  rw [SqliteChannel.nack, Interaction.run_bind, statement, Interaction.run_send, Database.serve,
    Database.select_addressed hrow]
  dsimp only [List.head?_cons, Option.map_some]
  rw [if_pos ⟨rfl, hlimit⟩, Interaction.run_bind]
  -- reading the clock leaves the rows as they are
  have hmessages := messages_requeueTime delay db
  have hsendAt : delay = none →
      (Interaction.run Database.serve (SqliteChannel.requeueTime delay) db).1 = 0 := by
    rintro rfl
    rfl
  generalize Interaction.run Database.serve (SqliteChannel.requeueTime delay) db = read
    at hmessages hsendAt ⊢
  have hrow' : row ∈ read.2.waiting channel.scope := by
    rwa [Database.waiting, hmessages]
  refine ⟨read.1, hsendAt, ?_⟩
  rw [Interaction.run_bind, statement, Interaction.run_send, Database.serve, Database.modify,
    Database.select_addressed hrow', if_neg (by simp)]
  refine (Database.waiting_modify fun row' hmem haddressed => ?_).trans ?_
  · -- the requeued row waited before
    have hid := (of_decide_eq_true haddressed).1
    obtain rfl := Database.eq_of_mem_waiting hrow' hmem hid
    obtain ⟨hscope, hacked, hdead⟩ :=
      ChannelMessage.waiting_iff.mp (Database.mem_waiting.mp hrow').2
    rw [(Database.mem_waiting.mp hrow').2]
    exact ChannelMessage.waiting_iff.mpr ⟨hscope, rfl, hdead⟩
  · rw [Database.waiting, hmessages]
    refine List.map_congr_left fun row' hrow' => ?_
    have hscope := (ChannelMessage.waiting_iff.mp (List.mem_filter.mp hrow').2).1
    simp only [ChannelMessage.addressed, hscope, and_true, decide_eq_true_eq]
    rfl

/-- A message leaves by a `nack` that does not requeue it, or may not. -/
theorem waiting_nack_gone (hrow : row ∈ db.waiting channel.scope) {requeue : Bool}
    (hgone : requeue = true →
      ¬.ofNat row.deliveryCount < maxRetriesFromConfig channel.config) (delay : Option Nat) :
    (Interaction.run Database.serve (channel.nack row.id requeue delay) db).2.waiting
        channel.scope =
      (db.waiting channel.scope).filter fun row' => row'.id ≠ row.id := by
  rw [SqliteChannel.nack, Interaction.run_bind, statement, Interaction.run_send, Database.serve,
    Database.select_addressed hrow]
  dsimp only [List.head?_cons, Option.map_some]
  rw [if_neg fun h => hgone h.1 h.2]
  split
  next =>
    rw [Interaction.run_bind]
    refine (Database.waiting_modify_gone fun row' _ => ?_).trans
      (filter_not_addressed fun _ _ => rfl)
    simp [ChannelMessage.waiting]
  next => exact waiting_ack hrow

/-- The row with other content: an overwriting send changes nothing else. -/
structure ChannelMessage.Rewrites (f : ChannelMessage → ChannelMessage) : Prop where
  id : ∀ row, (f row).id = row.id
  deliveryCount : ∀ row, (f row).deliveryCount = row.deliveryCount
  sortKey : ∀ row, (f row).sortKey = row.sortKey

theorem ChannelMessage.rewrites_self : ChannelMessage.Rewrites fun row => row :=
  ⟨fun _ => rfl, fun _ => rfl, fun _ => rfl⟩

/-- The message is written into rows that are queued under its key. -/
def SqliteChannel.Replaces (channel : SqliteChannel) (message : Message) (db : Database) : Prop :=
  overwrites message = true ∧
    db.messages.select (·.queuedUnder channel.scope message.idempotencyKey) ≠ []

instance (channel : SqliteChannel) (message : Message) (db : Database) :
    Decidable (channel.Replaces message db) :=
  inferInstanceAs (Decidable (_ ∧ _))

/-- What a send does to the waiting rows: it is accepted and rewrites some, or is accepted and
appends the new row, whose id was free, or it is refused. -/
inductive Sent (channel : SqliteChannel) (message : Message) (db db' : Database) : Bool → Prop
  | rewritten (f : ChannelMessage → ChannelMessage) (hf : ChannelMessage.Rewrites f)
      (hwaiting : db'.waiting channel.scope = (db.waiting channel.scope).map f) :
      Sent channel message db db' true
  | appended (timestamp : Int) (hnew : ¬channel.Replaces message db)
      (hfree : message.id ∉ db.messages.rows.map (·.id))
      (hwaiting : db'.waiting channel.scope =
        db.waiting channel.scope ++ [channel.row message timestamp db'.clock]) :
      Sent channel message db db' true
  | refused (hwaiting : db'.waiting channel.scope = db.waiting channel.scope) :
      Sent channel message db db' false

theorem Sent.congr {message : Message} {db₀ db' : Database} {ok : Bool}
    (hmessages : db₀.messages = db.messages) (h : Sent channel message db₀ db' ok) :
    Sent channel message db db' ok := by
  cases h with
  | rewritten f hf hwaiting =>
      rw [Database.waiting, Database.waiting, hmessages] at hwaiting
      exact .rewritten f hf hwaiting
  | appended timestamp hnew hfree hwaiting =>
      rw [SqliteChannel.Replaces, hmessages] at hnew
      rw [hmessages] at hfree
      rw [Database.waiting, Database.waiting, hmessages] at hwaiting
      exact .appended timestamp hnew hfree hwaiting
  | refused hwaiting =>
      rw [Database.waiting, Database.waiting, hmessages] at hwaiting
      exact .refused hwaiting

theorem sent_insert {message : Message} (timestamp : Int) {db : Database}
    (hnew : ¬channel.Replaces message db) :
    Sent channel message db
      (Interaction.run Database.serve (channel.insert message timestamp db.clock) db).2
      (Interaction.run Database.serve (channel.insert message timestamp db.clock) db).1.isOk := by
  rw [SqliteChannel.insert, statement, Interaction.run_bind, Interaction.run_send,
    Database.serve]
  cases hinsert : db.messages.insert? (channel.row message timestamp db.clock) with
  | none => exact .refused rfl
  | some messages =>
      refine .appended timestamp hnew ?_ ?_
      · intro hmem
        rw [Table.insert?_eq_none_iff.mpr hmem] at hinsert
        cases hinsert
      · change messages.rows.filter _ = _
        rw [Table.rows_of_insert? hinsert, List.filter_append]
        refine congrArg _ (List.filter_cons_of_pos ?_)
        exact ChannelMessage.waiting_iff.mpr ⟨rfl, rfl, rfl⟩

theorem sent_store (message : Message) (timestamp : Int) (db : Database) :
    Sent channel message db
      (Interaction.run Database.serve (channel.store message timestamp db.clock) db).2
      (Interaction.run Database.serve (channel.store message timestamp db.clock) db).1.isOk := by
  rw [SqliteChannel.store]
  split
  next hoverwrites =>
    rw [Interaction.run_bind, statement, Interaction.run_send, Database.serve, Database.modify]
    by_cases hqueued :
        db.messages.select (·.queuedUnder channel.scope message.idempotencyKey) = []
    · rw [if_neg (by simp [hqueued]), Table.updateWhere_of_select_nil hqueued]
      exact sent_insert timestamp fun h => h.2 hqueued
    · rw [if_pos (List.length_pos_iff.mpr hqueued)]
      refine .rewritten _ ?_ (Database.waiting_modify fun row _ _ => rfl)
      constructor <;> intro row <;> split <;> rfl
  next hnew => exact sent_insert timestamp fun h => hnew h.1

/-- A send ends with its insertion or update, after the clock has been read. -/
theorem sent_send (message : Message) (db : Database) :
    Sent channel message db
      (Interaction.run Database.serve (channel.send message) db).2
      (Interaction.run Database.serve (channel.send message) db).1.isOk := by
  rw [SqliteChannel.send]
  split
  next => exact .refused rfl
  next =>
    rw [Interaction.run_bind, Interaction.run_bind]
    have hmessages := messages_protoTimestampToUnixMs message.timestamp db
    generalize Interaction.run Database.serve (protoTimestampToUnixMs message.timestamp) db =
      read at hmessages ⊢
    refine Sent.congr ?_ (sent_store message read.1
      (Interaction.run Database.serve (statement .now) read.2).2)
    exact hmessages

end Calls

end PlexSpaces.Channel
