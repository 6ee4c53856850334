import PlexSpaces.Channel.Sqlite
import PlexSpaces.Lib.Pool
/-!
# Finality of acknowledgements

Any number of consumers call one SQLite channel and their statements interleave.
A requeue clears `acked` on whatever row has the id, so the `nack` of one consumer
revives the message that another one has acked (`not_ack_final`).  As long as a
requeue finds no acked row that could be delivered again, and the id of a settled
message whose row was cleaned up is not sent again, acknowledgements and dead
letters are final in every interleaving (`ack_and_dead_letter_final`).
-/

namespace PlexSpaces.Channel

open PlexSpaces.Lib

abbrev LogEntry := Event Statement.Answer Returned

abbrev ChannelPool := Pool Statement.Answer Database Returned

namespace SqliteChannel

def step (channel : SqliteChannel) : ChannelPool → Move Call → ChannelPool :=
  Pool.step channel.call Database.serve

end SqliteChannel

def LogEntry.Acks (scope : Scope) (id : String) : LogEntry → Prop
  | .served _ (.markAcked scope' id') (affected : Nat) =>
      scope' = scope ∧ id' = id ∧ affected ≠ 0
  | _ => False

def LogEntry.DeadLetters (scope : Scope) (id : String) : LogEntry → Prop
  | .served _ (.markDeadLettered scope' id') (affected : Nat) =>
      scope' = scope ∧ id' = id ∧ affected ≠ 0
  | _ => False

def AckedIn (scope : Scope) (log : List LogEntry) (id : String) : Prop :=
  ∃ entry ∈ log, entry.Acks scope id

def DeadLetteredIn (scope : Scope) (log : List LogEntry) (id : String) : Prop :=
  ∃ entry ∈ log, entry.DeadLetters scope id

def SettledIn (scope : Scope) (log : List LogEntry) (id : String) : Prop :=
  AckedIn scope log id ∨ DeadLetteredIn scope log id

/-- After `ack` has returned Ok no later `receive` returns the message; a dead-lettered
message is returned by no later `receive`, and its row stays dead-lettered. -/
def AckAndDeadLetterFinal (scope : Scope) (pool : ChannelPool) : Prop :=
  (∀ before acker id after receiver messages,
    pool.log = before ++ .returned acker (.acked id (.ok ())) :: after →
    .returned receiver (.received messages) ∈ after → ∀ message ∈ messages, message.id ≠ id) ∧
  ∀ before (entry : LogEntry) id after, pool.log = before ++ entry :: after →
    entry.DeadLetters scope id →
      (∀ receiver messages, .returned receiver (.received messages) ∈ after →
        ∀ message ∈ messages, message.id ≠ id) ∧
      ∀ row ∈ pool.server.messages.rows, row.addressed scope id → row.deadLettered = true

/-- A requeue finds no acked row that it would make deliverable, and an insertion does not
bring back the id of a settled message whose row is gone. -/
def Guarded (scope : Scope) (db : Database) (log : List LogEntry) : Statement → Prop
  | .requeue scope' id _ =>
      ∀ row ∈ db.messages.rows, row.addressed scope' id →
        row.acked = true → row.deadLettered = true
  | .insert row => SettledIn scope log row.id → row.id ∈ db.messages.rows.map (·.id)
  | _ => True

/-! ## The invariant -/

/-- What the log may hold after the entries `before`. -/
def LogEntry.Sound (scope : Scope) (before : List LogEntry) : LogEntry → Prop
  | .returned _ (.received messages) => ∀ message ∈ messages, ¬SettledIn scope before message.id
  | .returned _ (.acked id (.ok ())) => AckedIn scope before id
  | _ => True

structure Final (scope : Scope) (db : Database) (log : List LogEntry) : Prop where
  settled : ∀ row ∈ db.messages.rows, ∀ id, row.addressed scope id → SettledIn scope log id →
    row.acked = true ∨ row.deadLettered = true
  deadLettered : ∀ row ∈ db.messages.rows, ∀ id, row.addressed scope id →
    DeadLetteredIn scope log id → row.deadLettered = true
  sound : EachAfter (LogEntry.Sound scope) log

section Log

variable {scope : Scope} {log : List LogEntry} {entry : LogEntry} {id : String}

theorem ackedIn_concat :
    AckedIn scope (log ++ [entry]) id ↔ AckedIn scope log id ∨ entry.Acks scope id := by
  simp only [AckedIn, List.mem_append, List.mem_singleton, or_and_right, exists_or,
    exists_eq_left]

theorem deadLetteredIn_concat :
    DeadLetteredIn scope (log ++ [entry]) id ↔
      DeadLetteredIn scope log id ∨ entry.DeadLetters scope id := by
  simp only [DeadLetteredIn, List.mem_append, List.mem_singleton, or_and_right, exists_or,
    exists_eq_left]

theorem settledIn_concat :
    SettledIn scope (log ++ [entry]) id ↔
      SettledIn scope log id ∨ entry.Acks scope id ∨ entry.DeadLetters scope id := by
  rw [SettledIn, ackedIn_concat, deadLetteredIn_concat, SettledIn, or_or_or_comm]

theorem AckedIn.mono {log' : List LogEntry} (hsub : log ⊆ log') (h : AckedIn scope log id) :
    AckedIn scope log' id := by
  obtain ⟨entry, hmem, hacks⟩ := h
  exact ⟨entry, hsub hmem, hacks⟩

theorem DeadLetteredIn.mono {log' : List LogEntry} (hsub : log ⊆ log')
    (h : DeadLetteredIn scope log id) : DeadLetteredIn scope log' id := by
  obtain ⟨entry, hmem, hdead⟩ := h
  exact ⟨entry, hsub hmem, hdead⟩

end Log

namespace Final

variable {scope : Scope} {db db' : Database} {log : List LogEntry} {entry : LogEntry}

/-- Every row is new, or an earlier one on which no flag that counts was lost. -/
theorem frame (hfinal : Final scope db log) (hsound : entry.Sound scope log)
    (hrows : ∀ row' ∈ db'.messages.rows, ¬SettledIn scope log row'.id ∨
      ∃ row ∈ db.messages.rows, row'.id = row.id ∧ row'.scope = row.scope ∧
        (row.acked = true ∨ row.deadLettered = true →
          row'.acked = true ∨ row'.deadLettered = true) ∧
        (row.deadLettered = true → row'.deadLettered = true))
    (hacks : ∀ id, entry.Acks scope id → ∀ row' ∈ db'.messages.rows,
      row'.addressed scope id → row'.acked = true)
    (hdead : ∀ id, entry.DeadLetters scope id → ∀ row' ∈ db'.messages.rows,
      row'.addressed scope id → row'.deadLettered = true) :
    Final scope db' (log ++ [entry]) where
  settled := by
    intro row' hrow' id haddressed hsettled
    rcases settledIn_concat.mp hsettled with hsettled | hentry | hentry
    · rcases hrows row' hrow' with hfresh | ⟨row, hrow, hid, hscope, hkept, -⟩
      · obtain ⟨rfl, -⟩ := of_decide_eq_true haddressed
        exact absurd hsettled hfresh
      · rw [ChannelMessage.addressed, hid, hscope] at haddressed
        exact hkept (hfinal.settled row hrow id haddressed hsettled)
    · exact .inl (hacks id hentry row' hrow' haddressed)
    · exact .inr (hdead id hentry row' hrow' haddressed)
  deadLettered := by
    intro row' hrow' id haddressed hlettered
    rcases deadLetteredIn_concat.mp hlettered with hlettered | hentry
    · rcases hrows row' hrow' with hfresh | ⟨row, hrow, hid, hscope, -, hkept⟩
      · obtain ⟨rfl, -⟩ := of_decide_eq_true haddressed
        exact absurd (.inr hlettered) hfresh
      · rw [ChannelMessage.addressed, hid, hscope] at haddressed
        exact hkept (hfinal.deadLettered row hrow id haddressed hlettered)
    · exact hdead id hentry row' hrow' haddressed
  sound := hfinal.sound.concat hsound

theorem unchanged (hfinal : Final scope db log) (hsound : entry.Sound scope log)
    (hrows : db'.messages = db.messages) (hacks : ∀ id, ¬entry.Acks scope id)
    (hdead : ∀ id, ¬entry.DeadLetters scope id) : Final scope db' (log ++ [entry]) := by
  refine hfinal.frame hsound ?_ (fun id h => absurd h (hacks id)) fun id h => absurd h (hdead id)
  intro row hrow
  rw [hrows] at hrow
  exact .inr ⟨row, hrow, rfl, rfl, id, id⟩

theorem serve (caller : Nat) (s : Statement) (hfinal : Final scope db log)
    (hguard : Guarded scope db log s) :
    Final scope (Database.serve s db).2 (log ++ [.served caller s (Database.serve s db).1]) := by
  cases s with
  | now => exact hfinal.unchanged trivial rfl (fun _ => id) fun _ => id
  | selectDeliverable => exact hfinal.unchanged trivial rfl (fun _ => id) fun _ => id
  | selectUnacked => exact hfinal.unchanged trivial rfl (fun _ => id) fun _ => id
  | selectAcked => exact hfinal.unchanged trivial rfl (fun _ => id) fun _ => id
  | selectDeliveryCount => exact hfinal.unchanged trivial rfl (fun _ => id) fun _ => id
  | overwrite scope' key payload headers conflictResolution timestamp =>
      refine hfinal.frame trivial ?_ (fun _ h => h.elim) fun _ h => h.elim
      intro row' hrow'
      obtain ⟨row, hrow, rfl⟩ := List.mem_map.mp hrow'
      refine .inr ⟨row, hrow, ?_⟩
      split <;> exact ⟨rfl, rfl, id, id⟩
  | insert new =>
      refine hfinal.frame trivial ?_ (fun _ h => h.elim) fun _ h => h.elim
      intro row' hrow'
      rw [Database.serve] at hrow'
      split at hrow'
      next messages hinsert =>
        rw [Table.rows_of_insert? hinsert] at hrow'
        rcases List.mem_append.mp hrow' with hrow' | hrow'
        · exact .inr ⟨row', hrow', rfl, rfl, id, id⟩
        · refine .inl fun hsettled => ?_
          rw [List.mem_singleton.mp hrow'] at hsettled
          rw [Table.insert?_eq_none_iff.mpr (hguard hsettled)] at hinsert
          cases hinsert
      next => exact .inr ⟨row', hrow', rfl, rfl, id, id⟩
  | markAcked scope' id' =>
      refine hfinal.frame trivial ?_ ?_ fun _ h => h.elim
      · intro row' hrow'
        obtain ⟨row, hrow, rfl⟩ := List.mem_map.mp hrow'
        refine .inr ⟨row, hrow, ?_⟩
        split
        · exact ⟨rfl, rfl, fun _ => .inl rfl, id⟩
        · exact ⟨rfl, rfl, id, id⟩
      · rintro id ⟨rfl, rfl, -⟩ row' hrow' haddressed
        obtain ⟨row, hrow, rfl⟩ := List.mem_map.mp hrow'
        revert haddressed
        split
        next => exact fun _ => rfl
        next hnot => exact fun haddressed => by simpa [haddressed] using hnot
  | deleteAcked scope' cutoff =>
      refine hfinal.frame trivial ?_ (fun _ h => h.elim) fun _ h => h.elim
      intro row hrow
      exact .inr ⟨row, (List.mem_filter.mp hrow).1, rfl, rfl, id, id⟩
  | requeue scope' id' sendAt =>
      refine hfinal.frame trivial ?_ (fun _ h => h.elim) fun _ h => h.elim
      intro row' hrow'
      obtain ⟨row, hrow, rfl⟩ := List.mem_map.mp hrow'
      refine .inr ⟨row, hrow, ?_⟩
      split
      next haddressed =>
        -- the requeued row was not acked, or it stays hidden as a dead letter
        exact ⟨rfl, rfl, fun h => .inr (h.elim (hguard row hrow haddressed) id), id⟩
      next => exact ⟨rfl, rfl, id, id⟩
  | markDeadLettered scope' id' =>
      refine hfinal.frame trivial ?_ (fun _ h => h.elim) ?_
      · intro row' hrow'
        obtain ⟨row, hrow, rfl⟩ := List.mem_map.mp hrow'
        refine .inr ⟨row, hrow, ?_⟩
        split
        · exact ⟨rfl, rfl, fun _ => .inr rfl, fun _ => rfl⟩
        · exact ⟨rfl, rfl, id, id⟩
      · rintro id ⟨rfl, rfl, -⟩ row' hrow' haddressed
        obtain ⟨row, hrow, rfl⟩ := List.mem_map.mp hrow'
        revert haddressed
        split
        next => exact fun _ => rfl
        next hnot => exact fun haddressed => absurd haddressed hnot

theorem not_settledIn (hfinal : Final scope db log) {now : Int} {limit : Nat}
    {row : ChannelMessage}
    (hrow : row ∈ (Database.serve (.selectDeliverable scope now limit) db).1) :
    ¬SettledIn scope log row.id := by
  intro hsettled
  have hselected := (List.mem_insertionSort _).mp (List.mem_of_mem_take hrow)
  obtain ⟨hmem, hdeliverable⟩ := List.mem_filter.mp hselected
  obtain ⟨hscope, hacked, hdead, -⟩ := of_decide_eq_true hdeliverable
  rcases hfinal.settled row hmem row.id (decide_eq_true ⟨rfl, hscope⟩) hsettled with h | h
  · exact absurd h (by simp [hacked])
  · exact absurd h (by simp [hdead])

end Final

/-! ## The calls -/

namespace SqliteChannel

variable {channel : SqliteChannel} {scope : Scope} {caller : Nat}

abbrev Keeps {α : Type} (caller : Nat) (scope : Scope) (post : α → List LogEntry → Prop)
    (p : Statements α) (known : List LogEntry) : Prop :=
  Interaction.Keeps Database.serve (Final scope) (Guarded scope) caller post p known

theorem keeps_statements {α : Type} (p : Statements α) (known : List LogEntry) :
    Keeps caller scope (fun _ log => known <+: log) p known :=
  Interaction.keeps_of_serve (fun s _ _ hfinal hguard => hfinal.serve caller s hguard) p known

theorem keeps_receive (maxMessages : Nat) (known : List LogEntry) :
    Keeps caller channel.scope
      (fun messages log => ∀ message ∈ messages, ¬SettledIn channel.scope log message.id)
      (channel.receive maxMessages) known := by
  refine (keeps_statements (statement .now) known).bind fun now log _ => ?_
  refine Interaction.Keeps.bind (?_ : Keeps caller channel.scope (fun rows log =>
    ∀ row ∈ rows, ¬SettledIn channel.scope log row.id) _ _) ?_
  · intro db log' _ hfinal hguard
    refine ⟨hfinal.serve caller _ hguard, ?_⟩
    intro row hrow hsettled
    rcases settledIn_concat.mp hsettled with hsettled | hentry | hentry
    · exact hfinal.not_settledIn hrow hsettled
    · exact hentry
    · exact hentry
  · intro rows log' hrows message hmessage
    obtain ⟨row, hrow, rfl⟩ := List.mem_map.mp hmessage
    exact hrows row hrow

theorem keeps_ack (messageId : String) (known : List LogEntry) :
    Keeps caller channel.scope
      (fun result log => result = .ok () → AckedIn channel.scope log messageId)
      (channel.ack messageId) known := by
  refine (keeps_statements (statement (.selectAcked _ _)) known).bind fun acked log _ => ?_
  match acked with
  | none => exact fun hok => nomatch hok
  | some true => exact fun hok => nomatch hok
  | some false =>
      refine Interaction.Keeps.bind (?_ : Keeps caller channel.scope (fun updated log =>
        updated ≠ 0 → AckedIn channel.scope log messageId) _ _) ?_
      · intro db log' _ hfinal hguard
        refine ⟨hfinal.serve caller _ hguard, fun hupdated => ?_⟩
        exact ackedIn_concat.mpr (.inr ⟨rfl, rfl, hupdated⟩)
      · intro updated log' hupdated
        split
        next => exact fun hok => nomatch hok
        next hne =>
          refine (keeps_statements channel.cleanupAckedMessages log').bind fun _ log'' hlog _ => ?_
          exact (hupdated hne).mono hlog.subset

/-- What a call returns is sound after the log that it returns to. -/
theorem keeps_call (caller : Nat) (call : Call) (known : List LogEntry) :
    Keeps caller channel.scope
      (fun returned log => LogEntry.Sound channel.scope log (.returned caller returned))
      (channel.call call) known := by
  cases call with
  | send message => exact (keeps_statements _ known).bind fun _ _ _ => trivial
  | receive maxMessages => exact (keeps_receive maxMessages known).bind fun _ _ h => h
  | ack messageId =>
      refine (keeps_ack messageId known).bind fun result _ h => ?_
      match result with
      | .ok () => exact h rfl
      | .error _ => trivial
  | nack messageId requeue delay => exact (keeps_statements _ known).bind fun _ _ _ => trivial

end SqliteChannel

theorem Final.returned {scope : Scope} (caller : Nat) (db : Database) (log : List LogEntry)
    (returned : Returned) (hfinal : Final scope db log)
    (hsound : LogEntry.Sound scope log (.returned caller returned)) :
    Final scope db (log ++ [.returned caller returned]) :=
  hfinal.unchanged hsound rfl (fun _ => id) fun _ => id

theorem final_nil (scope : Scope) (db : Database) : Final scope db [] where
  settled := by
    intro row _ id _ hsettled
    simp [SettledIn, AckedIn, DeadLetteredIn] at hsettled
  deadLettered := by
    intro row _ id _ hlettered
    simp [DeadLetteredIn] at hlettered
  sound := eachAfter_nil

theorem Final.ackAndDeadLetterFinal {scope : Scope} {pool : ChannelPool}
    (hfinal : Final scope pool.server pool.log) : AckAndDeadLetterFinal scope pool := by
  -- a message that is settled before a `receive` returns is not among what it returns
  have hreceived : ∀ before entry id after receiver messages, pool.log = before ++ entry :: after →
      SettledIn scope (before ++ [entry]) id → .returned receiver (.received messages) ∈ after →
      ∀ message ∈ messages, message.id ≠ id := by
    rintro before entry id after receiver messages hlog hsettled hmem message hmessage rfl
    obtain ⟨between, later, rfl⟩ := List.append_of_mem hmem
    have hsplit : pool.log = (before ++ [entry] ++ between) ++
        .returned receiver (.received messages) :: later := by
      rw [hlog]
      simp
    refine hfinal.sound _ _ _ hsplit message hmessage ?_
    have hsub := (List.prefix_append (before ++ [entry]) between).subset
    exact hsettled.imp (AckedIn.mono hsub) (DeadLetteredIn.mono hsub)
  constructor
  · intro before acker id after receiver messages hlog
    refine hreceived before _ id after receiver messages hlog ?_
    exact .inl (ackedIn_concat.mpr (.inl (hfinal.sound _ _ _ hlog)))
  · intro before entry id after hlog hdead
    have hlettered : DeadLetteredIn scope (before ++ [entry]) id :=
      deadLetteredIn_concat.mpr (.inr hdead)
    refine ⟨fun receiver messages =>
      hreceived before entry id after receiver messages hlog (.inr hlettered), ?_⟩
    intro row hrow haddressed
    refine hfinal.deadLettered row hrow id haddressed (hlettered.mono ?_)
    have hsplit : pool.log = before ++ [entry] ++ after := by rw [hlog, List.append_cons]
    rw [hsplit]
    exact List.subset_append_left _ _

/-- In every interleaving whose requeues and insertions are guarded, acknowledgements and
dead letters are final. -/
theorem ack_and_dead_letter_final (channel : SqliteChannel) (db : Database)
    (moves : List (Move Call))
    (hguarded : Along channel.step (Pool.Meets (Guarded channel.scope)) { server := db } moves) :
    AckAndDeadLetterFinal channel.scope (run channel.step { server := db } moves) := by
  have hsafe := Pool.run_keeps Final.returned SqliteChannel.keeps_call
    (Pool.safe_start (final_nil channel.scope db)) hguarded
  exact Final.ackAndDeadLetterFinal hsafe

/-- A message is sent, requeued once, acked, and asked for again. -/
theorem ack_and_dead_letter_final_requeued :
    AckAndDeadLetterFinal (SqliteChannel.scope {})
      (run (SqliteChannel.step {}) { server := {} }
        [.start (.send { id := "m" }), .advance 0, .advance 0, .advance 0,
          .start (.nack "m" true none), .advance 1, .advance 1,
          .start (.ack "m"), .advance 2, .advance 2, .start (.receive 1), .advance 3,
          .advance 3]) := by
  refine ack_and_dead_letter_final {} {} _ ⟨trivial, trivial, trivial, ?_, trivial, trivial, ?_,
    trivial, trivial, trivial, trivial, trivial, trivial, trivial⟩
  · -- only the clock was read before the insertion
    rintro (⟨entry, hmem, hentry⟩ | ⟨entry, hmem, hentry⟩) <;>
      rcases List.mem_pair.mp hmem with rfl | rfl <;>
      exact hentry.elim
  · intro row hrow _ hacked
    rw [List.mem_singleton.mp hrow] at hacked
    cases hacked

/-- Two consumers hold the message `m`; one acks it, the other requeues it, and the next
`receive` returns it again. -/
def revival : List (Move Call) :=
  [.start (.send { id := "m" }), .advance 0, .advance 0, .advance 0,
    .start (.receive 1), .advance 1, .advance 1,
    .start (.receive 1), .advance 2, .advance 2,
    .start (.ack "m"), .advance 3, .advance 3,
    .start (.nack "m" true none), .advance 4, .advance 4,
    .start (.receive 1), .advance 5, .advance 5]

theorem not_ack_final :
    ¬AckAndDeadLetterFinal (SqliteChannel.scope {})
      (run (SqliteChannel.step {}) { server := {} } revival) := by
  intro hfinal
  let log := (run (SqliteChannel.step {}) { server := {} } revival).log
  let redelivered : Message :=
    { id := "m", timestamp := some ⟨0, 0⟩, deliveryCount := 1 }
  have hacked : log = log.take 12 ++ .returned 3 (.acked "m" (.ok ())) :: log.drop 13 := rfl
  have hreceived : .returned 5 (.received [redelivered]) ∈ log.drop 13 :=
    List.mem_of_getElem? (i := 5) rfl
  exact hfinal.1 _ _ _ _ _ _ hacked hreceived redelivered (List.mem_singleton_self _) rfl

end PlexSpaces.Channel
