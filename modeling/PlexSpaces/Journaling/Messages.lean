import PlexSpaces.Lib.Assoc
import PlexSpaces.Lib.Run
import PlexSpaces.Journaling.Storage
/-!
# Journaled messages

What the facet writes for a message and what it hands to the replay handler for it, with all
fields of the protobuf messages.  `before_method` gets the headers of a message but journals
empty metadata, while the replay takes the headers from the metadata.  So the messages come
back in the order in which they were received, each once, with their types and payloads, but
with their headers only where they had none (`replays_iff`).
-/

namespace PlexSpaces.Journaling.Proto

open PlexSpaces.Lib

abbrev Headers := FMap String String

structure MessageReceived where
  messageId : String
  senderId : String
  messageType : String
  payload : Bytes
  metadata : Headers

inductive ProcessingResult
  | unspecified
  | success
  | error
  | retry
  deriving DecidableEq

structure MessageProcessed where
  messageId : String
  result : ProcessingResult
  errorMessage : String
  responsePayload : Bytes

structure SideEffectExecuted where
  effectId : String
  effectType : Int
  request : Bytes
  response : Bytes
  error : String

inductive Variant
  | messageReceived (m : MessageReceived)
  | messageProcessed (m : MessageProcessed)
  | sideEffectExecuted (m : SideEffectExecuted)

structure JournalEntry where
  id : String
  actorId : String
  sequence : Nat
  correlationId : String
  entry : Variant

/-- The fields of a message that the replay sets; the others have their defaults. -/
structure Message where
  id : String
  payload : Bytes
  headers : Headers
  correlationId : String
  senderId : String
  receiverId : String
  messageType : String

/-- The rows of one actor; of a checkpoint only the number matters here. -/
structure Storage where
  journal : Table JournalEntry JournalEntry.sequence
  checkpoints : List Nat

namespace Storage

def new : Storage := ⟨Table.empty, []⟩

def appendEntry (st : Storage) (e : JournalEntry) : Option Storage :=
  (st.journal.insert? e).map fun journal => { st with journal }

def appendBatch (st : Storage) (es : List JournalEntry) : Option Storage :=
  (es.foldlM (fun journal e => Table.insert? journal e) st.journal).map
    fun journal => { st with journal }

def replayFrom (st : Storage) (fromSequence : Nat) : List JournalEntry :=
  (st.journal.select fun e => fromSequence ≤ e.sequence).insertionSort
    fun e e' => e.sequence ≤ e'.sequence

def fromSequence (st : Storage) : Nat :=
  match (st.checkpoints.insertionSort fun c c' => c' ≤ c).head? with
  | some sequence => sequence + 1
  | none => 0

end Storage

/-- A message as the interceptor gets it. -/
structure Intercepted where
  method : String
  args : Bytes
  headers : Headers

/-- The ids that are made for an entry of the journal. -/
structure Ids where
  entry : String
  message : String

/-- What the facet journals for a message: the headers are not used. -/
def receivedEntry (actorId : String) (ids : Ids) (sequence : Nat) (x : Intercepted) :
    JournalEntry :=
  ⟨ids.entry, actorId, sequence, "",
    .messageReceived ⟨ids.message, "", x.method, x.args, ∅⟩⟩

def processedEntry (actorId : String) (ids : Ids) (sequence : Nat) (result : Bytes) :
    JournalEntry :=
  ⟨ids.entry, actorId, sequence, "",
    .messageProcessed ⟨ids.message, .success, "", result⟩⟩

def effectEntry (actorId : String) (id : String) (sequence : Nat) (effectId : String)
    (response : Bytes) : JournalEntry :=
  ⟨id, actorId, sequence, "", .sideEffectExecuted ⟨effectId, 1, [], response, ""⟩⟩

/-- An effect with the id of its entry, its own id and its output. -/
abbrev Effect := String × String × Bytes

def effectEntries (actorId : String) : Nat → List Effect → List JournalEntry
  | _, [] => []
  | sequence, (id, effectId, response) :: effects =>
      effectEntry actorId id (sequence + 1) effectId response ::
        effectEntries actorId (sequence + 1) effects

def replayedMessage (actorId : String) (e : JournalEntry) : Option Message :=
  match e.entry with
  | .messageReceived m =>
      some ⟨m.messageId, m.payload, m.metadata, e.correlationId, m.senderId, actorId,
        m.messageType⟩
  | _ => none

/-- The loop of the replay, with a handler that keeps a state. -/
def replayMessages {S : Type} (handler : S → Message → Except String S) (actorId : String) :
    S → List JournalEntry → Except JournalError S
  | s, [] => .ok s
  | s, e :: es =>
      match replayedMessage actorId e with
      | some message =>
          match handler s message with
          | .error err => .error (.replay ("Replay failed: " ++ err))
          | .ok s => replayMessages handler actorId s es
      | none => replayMessages handler actorId s es

/-- The messages that are handed to a handler that accepts them. -/
def handed (actorId : String) (st : Storage) : List Message :=
  (st.replayFrom st.fromSequence).filterMap (replayedMessage actorId)

/-- The replay hands the messages to the handler one after the other, up to an error. -/
theorem replayMessages_eq {S : Type} (handler : S → Message → Except String S)
    (actorId : String) (s : S) (es : List JournalEntry) :
    replayMessages handler actorId s es =
      ((es.filterMap (replayedMessage actorId)).foldlM handler s).mapError
        fun err => .replay ("Replay failed: " ++ err) := by
  induction es generalizing s with
  | nil => rfl
  | cons e es ih =>
      cases hmessage : replayedMessage actorId e with
      | none => simpa [replayMessages, hmessage] using ih s
      | some message =>
          cases hhandler : handler s message with
          | error err =>
              simp [replayMessages, hmessage, hhandler, Except.mapError, bind, Except.bind]
          | ok s' => simpa [replayMessages, hmessage, hhandler, bind, Except.bind] using ih s'

/-- A message that was received, with its number. -/
structure Reception where
  sequence : Nat
  message : Intercepted

/-- An actor with its storage: the number of the last entry that its facet has made, if it
runs, and the messages received so far. -/
structure Node where
  storage : Storage
  life : Option Nat
  received : List Reception

inductive Action
  | attach
  | beforeMethod (ids : Ids) (x : Intercepted)
  | afterMethod (ids : Ids) (result : Bytes) (effects : List Effect)
  | saveCheckpoint
  | crash

namespace Node

def start : Node := ⟨Storage.new, none, []⟩

/-- A checkpoint can be saved at any time; when one is due does not matter here. -/
def step (actorId : String) (n : Node) : Action → Node
  | .attach =>
      { n with
        life := some (((n.storage.replayFrom 0).getLast?.map JournalEntry.sequence).getD 0) }
  | .beforeMethod ids x =>
      match n.life with
      | none => n
      | some sequence =>
          match n.storage.appendEntry (receivedEntry actorId ids (sequence + 1) x) with
          | none => { n with life := some (sequence + 1) }
          | some storage =>
              ⟨storage, some (sequence + 1), n.received ++ [⟨sequence + 1, x⟩]⟩
  | .afterMethod ids result effects =>
      match n.life with
      | none => n
      | some sequence =>
          let last := sequence + 1 + effects.length
          match n.storage.appendBatch (processedEntry actorId ids (sequence + 1) result ::
              effectEntries actorId (sequence + 1) effects) with
          | none => { n with life := some last }
          | some storage => { n with storage, life := some last }
  | .saveCheckpoint =>
      match n.life with
      | none => n
      | some sequence =>
          { n with storage := { n.storage with checkpoints := sequence :: n.storage.checkpoints } }
  | .crash => { n with life := none }

/-- What an entry says about the message that it was made for. -/
def asReceived (e : JournalEntry) : Option (Nat × String × Bytes × Headers) :=
  match e.entry with
  | .messageReceived m => some (e.sequence, m.messageType, m.payload, m.metadata)
  | _ => none

def journaled (r : Reception) : Nat × String × Bytes × Headers :=
  (r.sequence, r.message.method, r.message.args, ∅)

/-- The journal has the received messages in order, and the facet the last number. -/
structure Consistent (n : Node) : Prop where
  ordered : Log.Ordered JournalEntry.sequence n.storage.journal.rows
  sequence : ∀ q, n.life = some q → q = Log.last JournalEntry.sequence n.storage.journal.rows
  received : n.storage.journal.rows.filterMap asReceived = n.received.map journaled

theorem effectEntries_sequence (actorId : String) (sequence : Nat) (effects : List Effect) :
    (effectEntries actorId sequence effects).map JournalEntry.sequence =
      List.range' (sequence + 1) effects.length := by
  induction effects generalizing sequence with
  | nil => rfl
  | cons effect effects ih =>
      rw [effectEntries, List.map_cons, ih, List.length_cons, List.range'_succ]
      rfl

theorem length_effectEntries (actorId : String) (sequence : Nat) (effects : List Effect) :
    (effectEntries actorId sequence effects).length = effects.length := by
  have hlength := congrArg List.length (effectEntries_sequence actorId sequence effects)
  rwa [List.length_map, List.length_range'] at hlength

theorem asReceived_effectEntries (actorId : String) (sequence : Nat) (effects : List Effect) :
    (effectEntries actorId sequence effects).filterMap asReceived = [] := by
  induction effects generalizing sequence with
  | nil => rfl
  | cons effect effects ih => exact ih (sequence + 1)

theorem appended {n : Node} (h : n.Consistent) {sequence : Nat} (hlife : n.life = some sequence)
    {es : List JournalEntry}
    (hes : es.map JournalEntry.sequence = List.range' (sequence + 1) es.length) :
    ∃ st, n.storage.appendBatch es = some st ∧
      st.journal.rows = n.storage.journal.rows ++ es ∧
      Log.Ordered JournalEntry.sequence st.journal.rows ∧
      Log.last JournalEntry.sequence st.journal.rows = sequence + es.length := by
  have hlast := h.sequence sequence hlife
  have hordered := h.ordered.append_range' hlast.ge hes
  have hlast := Log.last_append_range' hlast.symm hes
  obtain ⟨t, hfold, hrows⟩ := Table.foldlM_insert? hordered.nodup
  rw [← hrows] at hordered hlast
  refine ⟨{ n.storage with journal := t }, ?_, hrows, hordered, hlast⟩
  rw [Storage.appendBatch, hfold]
  rfl

theorem consistent_step {n : Node} (h : n.Consistent) (actorId : String) (a : Action) :
    (step actorId n a).Consistent := by
  cases a with
  | attach =>
      refine ⟨h.ordered, ?_, h.received⟩
      rintro q ⟨⟩
      have hall : n.storage.replayFrom 0 = n.storage.journal.rows := by
        rw [Storage.replayFrom, Table.select, h.ordered.sort_filter]
        exact List.filter_eq_self.mpr fun e _ => decide_eq_true (Nat.zero_le _)
      rw [hall]
      rfl
  | beforeMethod ids x =>
      cases hlife : n.life with
      | none =>
          simp only [step, hlife]
          exact h
      | some sequence =>
          have hnumbers : [receivedEntry actorId ids (sequence + 1) x].map JournalEntry.sequence =
              [sequence + 1] := rfl
          obtain ⟨st, happend, hrows, hordered, hlast⟩ := appended h hlife hnumbers
          have happend : n.storage.appendEntry (receivedEntry actorId ids (sequence + 1) x) =
              some st := by
            simpa [Storage.appendBatch, Storage.appendEntry] using happend
          simp only [step, hlife, happend]
          refine ⟨hordered, ?_, ?_⟩
          · rintro q ⟨⟩
            exact hlast.symm
          · rw [hrows, List.filterMap_append, h.received, List.map_append]
            rfl
  | afterMethod ids result effects =>
      cases hlife : n.life with
      | none =>
          simp only [step, hlife]
          exact h
      | some sequence =>
          have hes : (processedEntry actorId ids (sequence + 1) result ::
              effectEntries actorId (sequence + 1) effects).map JournalEntry.sequence =
                List.range' (sequence + 1) (effectEntries actorId (sequence + 1)
                  effects).length.succ := by
            rw [List.map_cons, effectEntries_sequence, length_effectEntries, List.range'_succ]
            rfl
          obtain ⟨st, happend, hrows, hordered, hlast⟩ := appended h hlife hes
          simp only [step, hlife, happend]
          refine ⟨hordered, ?_, ?_⟩
          · rintro q ⟨⟩
            rw [hlast, List.length_cons, length_effectEntries]
            omega
          · rw [hrows, List.filterMap_append, h.received]
            change n.received.map journaled ++ (effectEntries _ _ effects).filterMap asReceived = _
            rw [asReceived_effectEntries, List.append_nil]
  | saveCheckpoint =>
      cases hlife : n.life with
      | none =>
          simp only [step, hlife]
          exact h
      | some sequence =>
          simp only [step, hlife]
          exact ⟨h.ordered, fun q hq => h.sequence q (hlife.trans hq), h.received⟩
  | crash =>
      refine ⟨h.ordered, ?_, h.received⟩
      intro q hq
      cases hq

theorem consistent_run (actorId : String) (as : List Action) :
    (run (step actorId) start as).Consistent := by
  refine run_invariant (I := Consistent) (fun a _ n h => consistent_step h actorId a) ?_
  refine ⟨List.Pairwise.nil, ?_, rfl⟩
  intro q hq
  cases hq

/-- The messages that are handed to the handler after a restart are those received since the
latest checkpoint, in the order in which they were received and each once, with their types,
payloads and headers. -/
def Replays (actorId : String) (n : Node) : Prop :=
  (handed actorId n.storage).map (fun m => (m.messageType, m.payload, m.headers)) =
    (n.received.filter fun r => n.storage.fromSequence ≤ r.sequence).map
      fun r => (r.message.method, r.message.args, r.message.headers)

theorem handed_eq {n : Node} (h : n.Consistent) (actorId : String) :
    (handed actorId n.storage).map (fun m => (m.messageType, m.payload, m.headers)) =
      (n.received.filter fun r => n.storage.fromSequence ≤ r.sequence).map
        fun r => (r.message.method, r.message.args, (∅ : Headers)) := by
  have hmessage : ∀ e, (replayedMessage actorId e).map
      (fun m => (m.messageType, m.payload, m.headers)) = (asReceived e).map Prod.snd := by
    rintro ⟨_, _, _, _, _ | _ | _⟩ <;> rfl
  have hsince : ∀ es : List JournalEntry,
      (es.filter fun e => decide (n.storage.fromSequence ≤ e.sequence)).filterMap asReceived =
        (es.filterMap asReceived).filter fun r => decide (n.storage.fromSequence ≤ r.1) := by
    intro es
    rw [List.filterMap_filter, List.filter_filterMap]
    congr 1
    funext ⟨_, _, sequence, _, entry⟩
    cases entry <;> by_cases hle : n.storage.fromSequence ≤ sequence <;>
      simp [asReceived, hle, Option.filter_some]
  rw [handed, List.map_filterMap]
  simp only [hmessage]
  rw [← List.map_filterMap, Storage.replayFrom, Table.select, h.ordered.sort_filter, hsince,
    h.received, List.filter_map, List.map_map]
  rfl

/-- After a restart at any point of a run the messages are replayed as they were received if and
only if those received since the latest checkpoint had no headers. -/
theorem replays_iff (actorId : String) (as : List Action) :
    Replays actorId (run (step actorId) start as) ↔
      ∀ r ∈ (run (step actorId) start as).received,
        (run (step actorId) start as).storage.fromSequence ≤ r.sequence →
          r.message.headers = ∅ := by
  rw [Replays, handed_eq (consistent_run actorId as), List.map_inj_left]
  constructor
  · intro hheaders r hr hsequence
    have hr := hheaders r (List.mem_filter.mpr ⟨hr, decide_eq_true hsequence⟩)
    exact (congrArg (fun m => m.2.2) hr).symm
  · intro hheaders r hr
    obtain ⟨hr, hsequence⟩ := List.mem_filter.mp hr
    rw [hheaders r hr (of_decide_eq_true hsequence)]

/-- A message with a header loses it. -/
theorem not_replays :
    ¬∀ (actorId : String) (as : List Action), Replays actorId (run (step actorId) start as) := by
  intro h
  let x : Intercepted := ⟨"get", [1], Finmap.singleton "tenant" "t"⟩
  have hreplays := h "a" [.attach, .beforeMethod ⟨"e", "m"⟩ x]
  have hreceived : (run (step "a") start [.attach, .beforeMethod ⟨"e", "m"⟩ x]).received =
      [⟨1, x⟩] := rfl
  have hfrom : (run (step "a") start
      [.attach, .beforeMethod ⟨"e", "m"⟩ x]).storage.fromSequence = 0 := rfl
  rw [Replays, handed_eq (consistent_run "a" _), hreceived, hfrom] at hreplays
  have hheaders : (∅ : Headers) = Finmap.singleton "tenant" "t" := by
    simpa [x] using hreplays
  have hlookup := congrArg (Finmap.lookup "tenant") hheaders
  rw [Finmap.lookup_empty, Finmap.lookup_singleton_eq] at hlookup
  cases hlookup

end Node

end PlexSpaces.Journaling.Proto
