import PlexSpaces.Lib.Assoc
import PlexSpaces.Lib.Run
import PlexSpaces.Journaling.Reminder
import Mathlib.Data.Int.Order.Basic
/-!
# The SQLite journal storage

The tables of a journal database and the counters that `SqliteJournalStorage` keeps in front of
them.  A record with the sequence 0 asks for the next number.  The journal entries and the
events of an actor are numbered apart, each with a counter in the same map: the journal's under
the actor id, the events' under the actor id and `:events`.  A number is a `u64` that the tables
keep as an `i64`.

Each append also returns a trace: the numbers it gives out, with the numbers stored for the actor
in the table at that time, and the rows under such a number that the table refuses.
-/

namespace PlexSpaces.Journaling

open PlexSpaces.Lib

/-- An entry or event before it is stored; a sequence 0 stands for the next number. -/
structure Record (P : Type) where
  id : String
  actorId : String
  sequence : UInt64
  payload : P

structure Row (P : Type) where
  id : String
  actorId : String
  sequence : Int64
  payload : P

/-- `UNIQUE(actor_id, sequence)`. -/
def Row.key {P : Type} (r : Row P) : String × Int64 := (r.actorId, r.sequence)

abbrev Rows (P : Type) := Table (Row P) (Row.key (P := P))

structure CheckpointRow where
  actorId : String
  checkpoint : Checkpoint

/-- `PRIMARY KEY (actor_id, sequence)`. -/
def CheckpointRow.key (r : CheckpointRow) : String × Nat := (r.actorId, r.checkpoint.sequence)

structure Tables (E V : Type) where
  journalEntries : Rows E
  checkpoints : Table CheckpointRow CheckpointRow.key
  actorEvents : Rows V
  reminders : Table ReminderState ReminderState.key

/-- Delete the rows of the actors that `p` holds of from all tables. -/
def Tables.deleteActors {E V : Type} (st : Tables E V) (p : String → Bool) : Nat × Tables E V :=
  ((st.journalEntries.select fun r => p r.actorId).length +
      (st.checkpoints.select fun r => p r.actorId).length +
      (st.actorEvents.select fun r => p r.actorId).length +
      (st.reminders.select fun r => p r.registration.actorId).length,
    ⟨st.journalEntries.deleteWhere fun r => p r.actorId,
      st.checkpoints.deleteWhere fun r => p r.actorId,
      st.actorEvents.deleteWhere fun r => p r.actorId,
      st.reminders.deleteWhere fun r => p r.registration.actorId⟩)

structure SqliteJournalStorage (E V : Type) extends Tables E V where
  sequences : Assoc String UInt64

/-- The constraint that an insertion breaks. -/
inductive Taken
  | sequence
  | id
  deriving DecidableEq

def Taken.message (table : String) : Taken → String
  | .sequence => "UNIQUE constraint failed: " ++ table ++ ".actor_id, " ++ table ++ ".sequence"
  | .id => "UNIQUE constraint failed: " ++ table ++ ".id"

def poolTimedOut : String := "pool timed out while waiting for an open connection"

/-- What an append does with a record that has no number: it gives one out while these are the
numbers stored for the actor, or its row is refused under the number. -/
inductive Numbered
  | assigned (number : UInt64) (stored : List Int64)
  | refused
  deriving DecidableEq

namespace Rows

variable {P : Type}

def numbers (t : Rows P) (actorId : String) : List Int64 :=
  (t.select fun r => r.actorId = actorId).map Row.sequence

/-- `SELECT COALESCE(MAX(sequence), 0) .. WHERE actor_id = ?`. -/
def maxSequence (t : Rows P) (actorId : String) : Int64 :=
  .ofInt (((t.numbers actorId).map Int64.toInt).max?.getD 0)

/-- `INSERT INTO ..`, with the number of the record. -/
def insert (t : Rows P) (e : Record P) (number : UInt64) : Except Taken (Rows P) :=
  match t.insert? ⟨e.id, e.actorId, number.toInt64, e.payload⟩ with
  | none => .error .sequence
  | some t' => if e.id ∈ t.rows.map Row.id then .error .id else .ok t'

def refusals (e : Record P) (taken : Taken) : List Numbered :=
  if e.sequence = 0 ∧ taken = .sequence then [.refused] else []

end Rows

namespace SqliteJournalStorage

variable {E V : Type}

/-- The number under the key of a counter; a counter that is not there starts after the
largest number of the table. -/
def nextNumber (sequences : Assoc String UInt64) (cacheKey : String) (maxSeq : Int64) :
    UInt64 × Assoc String UInt64 :=
  match sequences.lookup cacheKey with
  | some current => (current, sequences.insert cacheKey (current + 1))
  | none =>
      let next := (maxSeq + 1).toUInt64
      (next, sequences.insert cacheKey (next + 1))

def eventsKey (actorId : String) : String := actorId ++ ":events"

def nextEventSequence (st : SqliteJournalStorage E V) (actorId : String) :
    UInt64 × SqliteJournalStorage E V :=
  let (number, sequences) :=
    nextNumber st.sequences (eventsKey actorId) (st.actorEvents.maxSequence actorId)
  (number, { st with sequences })

def nextSequence (st : SqliteJournalStorage E V) (actorId : String) :
    UInt64 × SqliteJournalStorage E V :=
  let (number, sequences) :=
    nextNumber st.sequences actorId (st.journalEntries.maxSequence actorId)
  (number, { st with sequences })

/-- An entry with a number of its own sets the counter, before it is inserted. -/
def numberEntry (st : SqliteJournalStorage E V) (e : Record E) :
    UInt64 × SqliteJournalStorage E V × List Numbered :=
  if e.sequence = 0 then
    let (number, st') := st.nextSequence e.actorId
    (number, st', [.assigned number (st.journalEntries.numbers e.actorId)])
  else
    (e.sequence, { st with sequences := st.sequences.insert e.actorId (e.sequence + 1) }, [])

def appendEntry (st : SqliteJournalStorage E V) (e : Record E) :
    Except JournalError UInt64 × SqliteJournalStorage E V × List Numbered :=
  let (number, st, trace) := st.numberEntry e
  match st.journalEntries.insert e number with
  | .error taken => (.error (.storage (taken.message "journal_entries")), st,
      trace ++ Rows.refusals e taken)
  | .ok journalEntries => (.ok number, { st with journalEntries }, trace)

/-- The loop of a batch: the storage as its transaction sees it, the numbers so far and the
error that ends the loop. -/
structure Batch (E V : Type) where
  storage : SqliteJournalStorage E V
  numbers : List UInt64
  failed : Option JournalError
  trace : List Numbered

/-- The transaction holds the only connection, so the counter of an entry without a number
cannot be read from the table. -/
def Batch.insertEntry (b : Batch E V) (e : Record E) : Batch E V :=
  if b.failed.isSome then b
  else if e.sequence = 0 ∧ b.storage.sequences.lookup e.actorId = none then
    { b with failed := some (.storage poolTimedOut) }
  else
    let (number, st, trace) := b.storage.numberEntry e
    match st.journalEntries.insert e number with
    | .error taken =>
        { b with
          storage := st
          failed := some (.serialization (taken.message "journal_entries"))
          trace := b.trace ++ trace ++ Rows.refusals e taken }
    | .ok journalEntries =>
        { b with
          storage := { st with journalEntries }
          numbers := b.numbers ++ [number]
          trace := b.trace ++ trace }

/-- A batch that fails is rolled back, but the counters stay as they are. -/
def appendBatch (st : SqliteJournalStorage E V) (es : List (Record E)) :
    Except JournalError (UInt64 × UInt64 × Nat) × SqliteJournalStorage E V × List Numbered :=
  let b := run Batch.insertEntry ⟨st, [], none, []⟩ es
  match b.failed with
  | some e => (.error e, { st with sequences := b.storage.sequences }, b.trace)
  | none => (.ok (b.numbers.headD 0, b.numbers.getLastD 0, es.length), b.storage, b.trace)

def numberEvent (st : SqliteJournalStorage E V) (e : Record V) :
    UInt64 × SqliteJournalStorage E V × List Numbered :=
  if e.sequence = 0 then
    let (number, st') := st.nextEventSequence e.actorId
    (number, st', [.assigned number (st.actorEvents.numbers e.actorId)])
  else (e.sequence, st, [])

def appendEvent (st : SqliteJournalStorage E V) (e : Record V) :
    Except JournalError UInt64 × SqliteJournalStorage E V × List Numbered :=
  let (number, st, trace) := st.numberEvent e
  match st.actorEvents.insert e number with
  | .error taken => (.error (.storage (taken.message "actor_events")), st,
      trace ++ Rows.refusals e taken)
  | .ok actorEvents => (.ok number, { st with actorEvents }, trace)

/-- The events of a batch with their numbers, before the transaction begins. -/
structure Prepared (E V : Type) where
  storage : SqliteJournalStorage E V
  prepared : List (Record V × UInt64)
  trace : List Numbered

def Prepared.push (w : Prepared E V) (e : Record V) : Prepared E V :=
  let (number, st, trace) := w.storage.numberEvent e
  ⟨st, w.prepared ++ [(e, number)], w.trace ++ trace⟩

def insertEvents (t : Rows V) :
    List (Record V × UInt64) → Except JournalError (Rows V) × List Numbered
  | [] => (.ok t, [])
  | (e, number) :: es =>
      match t.insert e number with
      | .error taken => (.error (.storage (taken.message "actor_events")), Rows.refusals e taken)
      | .ok t' => insertEvents t' es

def appendEventsBatch (st : SqliteJournalStorage E V) (es : List (Record V)) :
    Except JournalError (UInt64 × UInt64 × Nat) × SqliteJournalStorage E V × List Numbered :=
  let w := run Prepared.push ⟨st, [], []⟩ es
  let numbers := w.prepared.map Prod.snd
  match insertEvents w.storage.actorEvents w.prepared with
  | (.error e, trace) => (.error e, w.storage, w.trace ++ trace)
  | (.ok actorEvents, trace) => (.ok (numbers.headD 0, numbers.getLastD 0, es.length),
      { w.storage with actorEvents }, w.trace ++ trace)

def truncateTo (st : SqliteJournalStorage E V) (actorId : String) (sequence : UInt64) :
    Nat × SqliteJournalStorage E V :=
  let old := fun r : Row E => decide (r.actorId = actorId ∧ r.sequence ≤ sequence.toInt64)
  ((st.journalEntries.select old).length,
    { st with journalEntries := st.journalEntries.deleteWhere old })

def purgeActor (st : SqliteJournalStorage E V) (actorId : String) :
    Nat × SqliteJournalStorage E V :=
  let (deleted, tables) := st.toTables.deleteActors fun a => a = actorId
  (deleted, ⟨tables, (st.sequences.erase actorId).erase (eventsKey actorId)⟩)

end SqliteJournalStorage

end PlexSpaces.Journaling
