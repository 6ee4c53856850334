import PlexSpaces.Lib.Snapshot
import PlexSpaces.Lib.Table
/-!
# Journal storage

The rows that a journal storage keeps of one actor: the entries of its journal and its
checkpoints.  Every statement names the actor, so the rows of other actors do not matter.
-/

namespace PlexSpaces.Journaling

open PlexSpaces.Lib

abbrev Bytes := List UInt8

inductive JournalError
  | storage (reason : String)
  | checkpointNotFound (actorId : String)
  | compression (reason : String)
  | decompression (reason : String)
  | serialization (reason : String)
  | replay (reason : String)
  deriving DecidableEq

def JournalError.toString : JournalError → String
  | .storage reason => "Storage error: " ++ reason
  | .checkpointNotFound actorId => "Checkpoint not found: actor_id=" ++ actorId
  | .compression reason => "Compression error: " ++ reason
  | .decompression reason => "Decompression error: " ++ reason
  | .serialization reason => "Serialization error: " ++ reason
  | .replay reason => "Replay error: " ++ reason

/-- `prost_types::Duration`. -/
structure ProtoDuration where
  seconds : Int
  nanos : Int
  deriving DecidableEq

inductive Entry
  | messageReceived (messageType : String) (payload : Bytes)
  | messageProcessed (responsePayload : Bytes)
  | sideEffectExecuted (effectId : String) (request response : Bytes)
  | promiseCreated (promiseId : String) (timeout : Option ProtoDuration)
  | promiseResolved (promiseId : String) (result : Bytes) (error : String)
  deriving DecidableEq

structure JournalEntry where
  sequence : Nat
  entry : Entry
  deriving DecidableEq

/-- The entries with the numbers after `sequence`, in the order of the list. -/
def numberFrom (sequence : Nat) : List Entry → List JournalEntry
  | [] => []
  | entry :: entries => ⟨sequence + 1, entry⟩ :: numberFrom (sequence + 1) entries

structure Checkpoint where
  sequence : Nat
  stateData : Bytes
  compression : Int
  stateSchemaVersion : Nat
  deriving DecidableEq

structure Storage where
  journal : Table JournalEntry JournalEntry.sequence
  checkpoints : Table Checkpoint Checkpoint.sequence

namespace Storage

def new : Storage := ⟨Table.empty, Table.empty⟩

def sequenceTaken : String :=
  "UNIQUE constraint failed: journal_entries.actor_id, journal_entries.sequence"

def appendEntry (st : Storage) (e : JournalEntry) : Except JournalError Storage :=
  match st.journal.insert? e with
  | none => .error (.storage sequenceTaken)
  | some journal => .ok { st with journal }

/-- The entries are inserted in one transaction: all of them or none. -/
def appendBatch (st : Storage) (es : List JournalEntry) : Except JournalError Storage :=
  match es.foldlM (fun journal e => Table.insert? journal e) st.journal with
  | none => .error (.serialization sequenceTaken)
  | some journal => .ok { st with journal }

def replayFrom (st : Storage) (fromSequence : Nat) : List JournalEntry :=
  (st.journal.select fun e => fromSequence ≤ e.sequence).insertionSort
    fun e e' => e.sequence ≤ e'.sequence

def getLatestCheckpoint (st : Storage) (actorId : String) : Except JournalError Checkpoint :=
  match (st.checkpoints.rows.insertionSort fun c c' => c'.sequence ≤ c.sequence).head? with
  | none => .error (.checkpointNotFound actorId)
  | some c => .ok c

def saveCheckpoint (st : Storage) (c : Checkpoint) : Storage :=
  { st with checkpoints := st.checkpoints.insertOrReplace c }

def truncateTo (st : Storage) (sequence : Nat) : Storage :=
  { st with journal := st.journal.deleteWhere fun e => e.sequence ≤ sequence }

/-- The entries of the journal have been inserted in the order of their numbers. -/
def Ordered (st : Storage) : Prop := Log.Ordered JournalEntry.sequence st.journal.rows

def lastSequence (st : Storage) : Nat := Log.last JournalEntry.sequence st.journal.rows

@[simp] theorem saveCheckpoint_journal (st : Storage) (c : Checkpoint) :
    (st.saveCheckpoint c).journal = st.journal := rfl

theorem replayFrom_eq {st : Storage} (h : st.Ordered) (n : Nat) :
    st.replayFrom n = Log.since JournalEntry.sequence n st.journal.rows :=
  Log.Ordered.sort_filter h _

theorem replayFrom_zero {st : Storage} (h : st.Ordered) : st.replayFrom 0 = st.journal.rows := by
  rw [replayFrom_eq h]
  exact List.filter_eq_self.mpr fun e _ => decide_eq_true (Nat.zero_le _)

theorem mem_of_getLatestCheckpoint {st : Storage} {actorId : String} {c : Checkpoint}
    (h : st.getLatestCheckpoint actorId = .ok c) : c ∈ st.checkpoints.rows := by
  unfold getLatestCheckpoint at h
  split at h
  · cases h
  · rename_i c' hhead
    cases h
    exact (List.mem_insertionSort _).mp (List.mem_of_mem_head? hhead)

theorem getLatestCheckpoint_error {st : Storage} {actorId : String} {e : JournalError}
    (h : st.getLatestCheckpoint actorId = .error e) : e = .checkpointNotFound actorId := by
  unfold getLatestCheckpoint at h
  split at h
  · cases h
    rfl
  · cases h

@[simp] theorem length_numberFrom (n : Nat) (entries : List Entry) :
    (numberFrom n entries).length = entries.length := by
  induction entries generalizing n with
  | nil => rfl
  | cons entry entries ih => rw [numberFrom, List.length_cons, ih, List.length_cons]

theorem numberFrom_sequence (n : Nat) (entries : List Entry) :
    (numberFrom n entries).map JournalEntry.sequence =
      List.range' (n + 1) (numberFrom n entries).length := by
  induction entries generalizing n with
  | nil => rfl
  | cons entry entries ih =>
      rw [numberFrom, List.map_cons, ih, List.length_cons, List.range'_succ]

theorem appendBatch_of_le {st : Storage} (h : st.Ordered) {n : Nat} (hn : st.lastSequence ≤ n)
    (entries : List Entry) :
    ∃ st', st.appendBatch (numberFrom n entries) = .ok st' ∧
      st'.journal.rows = st.journal.rows ++ numberFrom n entries ∧ st'.Ordered ∧
      st'.checkpoints = st.checkpoints := by
  have hordered := Log.Ordered.append_range' h hn (numberFrom_sequence n entries)
  obtain ⟨t, hfold, hrows⟩ := Table.foldlM_insert? hordered.nodup
  refine ⟨{ st with journal := t }, ?_, hrows, ?_, rfl⟩
  · rw [appendBatch, hfold]
  · rw [Ordered, hrows]
    exact hordered

theorem appendEntry_of_le {st : Storage} (h : st.Ordered) {n : Nat} (hn : st.lastSequence ≤ n)
    (entry : Entry) :
    ∃ st', st.appendEntry ⟨n + 1, entry⟩ = .ok st' ∧
      st'.journal.rows = st.journal.rows ++ numberFrom n [entry] ∧ st'.Ordered ∧
      st'.checkpoints = st.checkpoints := by
  have hordered := Log.Ordered.append_range' h hn (numberFrom_sequence n [entry])
  obtain ⟨t, hfold, hrows⟩ := Table.foldlM_insert? hordered.nodup
  have hinsert : st.journal.insert? ⟨n + 1, entry⟩ = some t := by
    simpa [numberFrom] using hfold
  refine ⟨{ st with journal := t }, ?_, hrows, ?_, rfl⟩
  · rw [appendEntry, hinsert]
  · rw [Ordered, hrows]
    exact hordered

theorem lt_sequence_of_mem_numberFrom {n : Nat} {entries : List Entry} {e : JournalEntry}
    (h : e ∈ numberFrom n entries) : n < e.sequence := by
  induction entries generalizing n with
  | nil => cases h
  | cons entry entries ih =>
      rcases List.mem_cons.mp h with rfl | h
      · exact Nat.lt_succ_self n
      · have := ih h
        omega

/-- `st'` is `st` with these entries appended under the next numbers. -/
structure Extends (st st' : Storage) (entries : List Entry) : Prop where
  rows : st'.journal.rows = st.journal.rows ++ numberFrom st.lastSequence entries
  ordered : st'.Ordered
  last : st'.lastSequence = st.lastSequence + entries.length
  checkpoints : st'.checkpoints = st.checkpoints

/-- The entries up to a number that is taken stay the same. -/
theorem Extends.upTo_eq {st st' : Storage} {entries : List Entry} (h : st.Extends st' entries)
    {n : Nat} (hn : n ≤ st.lastSequence) :
    Log.upTo JournalEntry.sequence n st'.journal.rows =
      Log.upTo JournalEntry.sequence n st.journal.rows := by
  rw [h.rows]
  refine Log.upTo_append ?_
  intro e he
  exact hn.trans_lt (lt_sequence_of_mem_numberFrom he)

theorem Extends.of_rows {st st' : Storage} {entries : List Entry}
    (hrows : st'.journal.rows = st.journal.rows ++ numberFrom st.lastSequence entries)
    (hordered : st'.Ordered) (hcheckpoints : st'.checkpoints = st.checkpoints) :
    st.Extends st' entries := by
  have hlast := Log.last_append_range' rfl (numberFrom_sequence st.lastSequence entries)
  rw [length_numberFrom] at hlast
  refine ⟨hrows, hordered, ?_, hcheckpoints⟩
  rw [lastSequence, hrows]
  exact hlast

theorem appendBatch_eq {st : Storage} (h : st.Ordered) (entries : List Entry) :
    ∃ st', st.appendBatch (numberFrom st.lastSequence entries) = .ok st' ∧
      st.Extends st' entries := by
  obtain ⟨st', happend, hrows, hordered, hcheckpoints⟩ := appendBatch_of_le h le_rfl entries
  exact ⟨st', happend, .of_rows hrows hordered hcheckpoints⟩

theorem appendEntry_eq {st : Storage} (h : st.Ordered) (entry : Entry) :
    ∃ st', st.appendEntry ⟨st.lastSequence + 1, entry⟩ = .ok st' ∧
      st.Extends st' [entry] := by
  obtain ⟨st', happend, hrows, hordered, hcheckpoints⟩ := appendEntry_of_le h le_rfl entry
  exact ⟨st', happend, .of_rows hrows hordered hcheckpoints⟩

end Storage

end PlexSpaces.Journaling
