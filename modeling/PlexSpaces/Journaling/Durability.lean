import Mathlib.Algebra.Order.Ring.Nat
import PlexSpaces.Journaling.Storage
/-!
# The durability facet

The facet journals every message before the actor handles it and the outcome after it, and
saves checkpoints of the actor's state through a checkpoint manager: on every
`checkpoint_interval`-th entry, on an EXIT signal and when the actor is stopped.  When it is
attached again, it hands the latest checkpoint to the actor and replays the messages after it.
-/

namespace PlexSpaces.Journaling

inductive CompressionType
  | unspecified
  | none
  | zstd
  | snappy
  deriving DecidableEq

def CompressionType.tryFrom (value : Int) : Option CompressionType :=
  if value = 0 then some .unspecified
  else if value = 1 then some .none
  else if value = 2 then some .zstd
  else if value = 3 then some .snappy
  else Option.none

/-- A compression library: what `decode` gives back is what `encode` was given. -/
structure Codec where
  encode : Bytes → Except String Bytes
  decode : Bytes → Except String Bytes
  decode_encode : ∀ d b, encode d = .ok b → decode b = .ok d

/-- The codecs that the crate was built with. -/
structure Codecs where
  zstd : Option Codec
  snappy : Option Codec

structure CheckpointConfig where
  enabled : Bool
  entryInterval : Nat
  timeInterval : Option Nat
  compression : Int
  autoTruncate : Bool

structure DurabilityConfig where
  checkpointInterval : Nat
  checkpointTimeout : Option Nat
  replayOnActivation : Bool
  compression : Int
  stateSchemaVersion : Nat

structure ActorCheckpointState where
  lastSequence : Nat
  lastTime : Nat
  deriving DecidableEq

/-- What a checkpoint manager is created with; the state that it keeps of the actor is passed
to its operations. -/
structure CheckpointManager where
  config : CheckpointConfig
  codecs : Codecs
  schemaVersion : Nat

namespace CheckpointManager

def compressStateData (m : CheckpointManager) (data : Bytes) : Except JournalError Bytes :=
  match CompressionType.tryFrom m.config.compression with
  | some .none => .ok data
  | some .unspecified => .ok data
  | some .zstd =>
      match m.codecs.zstd with
      | some codec => (codec.encode data).mapError .compression
      | none => .error (.compression
          "ZSTD compression not enabled (enable 'compression-zstd' feature)")
  | some .snappy =>
      match m.codecs.snappy with
      | some codec => (codec.encode data).mapError .compression
      | none => .error (.compression
          "Snappy compression not enabled (enable 'compression-snappy' feature)")
  | none => .error (.compression
      ("Unknown compression type: " ++ toString m.config.compression))

def createCheckpoint (m : CheckpointManager) (sequence : Nat) (stateData : Bytes) :
    Except JournalError Checkpoint :=
  match m.compressStateData stateData with
  | .error e => .error e
  | .ok compressedData =>
      .ok ⟨sequence, compressedData, m.config.compression, m.schemaVersion⟩

def entryIntervalReached (m : CheckpointManager) (state : ActorCheckpointState)
    (currentSequence : Nat) : Bool :=
  0 < m.config.entryInterval && m.config.entryInterval ≤ currentSequence - state.lastSequence

def timeIntervalReached (m : CheckpointManager) (state : ActorCheckpointState) (now : Nat) :
    Bool :=
  match m.config.timeInterval with
  | some interval => interval ≤ now - state.lastTime
  | none => false

def due (m : CheckpointManager) (actorState : Option ActorCheckpointState)
    (now currentSequence : Nat) : Bool :=
  let state := actorState.getD ⟨0, now⟩
  m.config.enabled &&
    (m.entryIntervalReached state currentSequence || m.timeIntervalReached state now)

def maybeCheckpoint (m : CheckpointManager) (actorState : Option ActorCheckpointState)
    (st : Storage) (now currentSequence : Nat) (stateData : Bytes) :
    Except JournalError (Option Nat) × Option ActorCheckpointState × Storage :=
  if m.config.enabled = false then (.ok none, actorState, st)
  else
    let state := actorState.getD ⟨0, now⟩
    if m.entryIntervalReached state currentSequence = false ∧
        m.timeIntervalReached state now = false then (.ok none, some state, st)
    else
      match m.createCheckpoint currentSequence stateData with
      | .error e => (.error e, some state, st)
      | .ok checkpoint =>
          let st := st.saveCheckpoint checkpoint
          let st := if m.config.autoTruncate = true ∧ 0 < currentSequence then
            st.truncateTo (currentSequence - 1) else st
          (.ok (some currentSequence), some ⟨currentSequence, now⟩, st)

def saveCheckpointNow (m : CheckpointManager) (actorState : Option ActorCheckpointState)
    (st : Storage) (now currentSequence : Nat) (stateData : Bytes) :
    Except JournalError Nat × Option ActorCheckpointState × Storage :=
  match m.createCheckpoint currentSequence stateData with
  | .error e => (.error e, actorState, st)
  | .ok checkpoint =>
      (.ok currentSequence, some ⟨currentSequence, now⟩, st.saveCheckpoint checkpoint)

theorem encode_of_mapError {codec : Codec} {d b : Bytes} {f : String → JournalError}
    (h : (codec.encode d).mapError f = .ok b) : codec.encode d = .ok b := by
  rcases hencode : codec.encode d with e | b'
  · rw [hencode] at h
    cases h
  · rw [hencode] at h
    cases h
    rfl

/-- What `compress_state_data` can return. -/
theorem compressStateData_ok {m : CheckpointManager} {d b : Bytes}
    (h : m.compressStateData d = .ok b) :
    ((CompressionType.tryFrom m.config.compression = some .none ∨
        CompressionType.tryFrom m.config.compression = some .unspecified) ∧ b = d) ∨
      (CompressionType.tryFrom m.config.compression = some .zstd ∧
        ∃ codec, m.codecs.zstd = some codec ∧ codec.encode d = .ok b) ∨
      (CompressionType.tryFrom m.config.compression = some .snappy ∧
        ∃ codec, m.codecs.snappy = some codec ∧ codec.encode d = .ok b) := by
  unfold compressStateData at h
  rcases htype : CompressionType.tryFrom m.config.compression with _ | (_ | _ | _ | _)
  · rw [htype] at h
    cases h
  · rw [htype] at h
    cases h
    exact .inl ⟨.inr rfl, rfl⟩
  · rw [htype] at h
    cases h
    exact .inl ⟨.inl rfl, rfl⟩
  · rcases hcodec : m.codecs.zstd with _ | codec
    · simp only [htype, hcodec] at h
      cases h
    · simp only [htype, hcodec] at h
      exact .inr (.inl ⟨rfl, codec, rfl, encode_of_mapError h⟩)
  · rcases hcodec : m.codecs.snappy with _ | codec
    · simp only [htype, hcodec] at h
      cases h
    · simp only [htype, hcodec] at h
      exact .inr (.inr ⟨rfl, codec, rfl, encode_of_mapError h⟩)

theorem createCheckpoint_ok {m : CheckpointManager} {sequence : Nat} {stateData : Bytes}
    {c : Checkpoint} (h : m.createCheckpoint sequence stateData = .ok c) :
    c.sequence = sequence ∧ m.compressStateData stateData = .ok c.stateData ∧
      c.compression = m.config.compression ∧ c.stateSchemaVersion = m.schemaVersion := by
  unfold createCheckpoint at h
  cases hdata : m.compressStateData stateData with
  | error e =>
      rw [hdata] at h
      cases h
  | ok data =>
      rw [hdata] at h
      cases h
      exact ⟨rfl, rfl, rfl, rfl⟩

/-- Without truncation `maybe_checkpoint` saves a checkpoint that is due, or nothing. -/
theorem maybeCheckpoint_storage {m : CheckpointManager} (htrunc : m.config.autoTruncate = false)
    (actorState : Option ActorCheckpointState) (st : Storage) (now sequence : Nat)
    (stateData : Bytes) :
    (m.maybeCheckpoint actorState st now sequence stateData).2.2 = st ∨
      m.due actorState now sequence = true ∧
        ∃ c, m.createCheckpoint sequence stateData = .ok c ∧
          (m.maybeCheckpoint actorState st now sequence stateData).2.2 =
            st.saveCheckpoint c := by
  unfold maybeCheckpoint
  by_cases henabled : m.config.enabled = false
  · rw [if_pos henabled]
    exact .inl rfl
  rw [if_neg henabled]
  by_cases hreached : m.entryIntervalReached (actorState.getD ⟨0, now⟩) sequence = false ∧
      m.timeIntervalReached (actorState.getD ⟨0, now⟩) now = false
  · simp only [if_pos hreached, true_or]
  simp only [if_neg hreached]
  rcases m.createCheckpoint sequence stateData with e | c
  · exact .inl rfl
  · refine .inr ⟨?_, c, rfl, ?_⟩
    · rw [not_and_or, Bool.not_eq_false, Bool.not_eq_false, ← Bool.or_eq_true] at hreached
      rw [Bool.not_eq_false] at henabled
      rw [due, henabled, Bool.true_and]
      exact hreached
    · simp [htrunc]

theorem saveCheckpointNow_storage (m : CheckpointManager)
    (actorState : Option ActorCheckpointState) (st : Storage) (now sequence : Nat)
    (stateData : Bytes) :
    (m.saveCheckpointNow actorState st now sequence stateData).2.2 = st ∨
      ∃ c, m.createCheckpoint sequence stateData = .ok c ∧
        (m.saveCheckpointNow actorState st now sequence stateData).2.2 =
          st.saveCheckpoint c := by
  unfold saveCheckpointNow
  rcases m.createCheckpoint sequence stateData with e | c
  · exact .inl rfl
  · exact .inr ⟨c, rfl, rfl⟩

end CheckpointManager

def DurabilityConfig.checkpointConfig (config : DurabilityConfig) : CheckpointConfig where
  enabled := 0 < config.checkpointInterval
  entryInterval := config.checkpointInterval
  timeInterval := config.checkpointTimeout
  compression := config.compression
  autoTruncate := false

/-- The version under which the facet's checkpoint manager saves checkpoints. -/
def DurabilityConfig.schemaVersion (config : DurabilityConfig) : Nat :=
  if 0 < config.stateSchemaVersion then config.stateSchemaVersion else 1

/-- The values that a facet's configuration has been given; the others are `none`. -/
structure ConfigValue where
  checkpointInterval : Option Int
  replayOnActivation : Option Bool
  compression : Option Int
  stateSchemaVersion : Option Int

/-- A `checkpoint_timeout` is not parsed yet, so it never gets into a configuration. -/
def parseConfig (config : ConfigValue) : DurabilityConfig where
  checkpointInterval := (config.checkpointInterval.map fun v => (v % 2 ^ 64).toNat).getD 100
  checkpointTimeout := none
  replayOnActivation := config.replayOnActivation.getD true
  compression := (config.compression.map fun v => v.bmod (2 ^ 32)).getD 1
  stateSchemaVersion := (config.stateSchemaVersion.map fun v => (v % 2 ^ 32).toNat).getD 1

inductive FacetError
  | invalidConfig (reason : String)
  | interceptionFailed (reason : String)
  deriving DecidableEq

variable {S : Type}

/-- `restoreState` returns the state that it has set, or `none` where it does not handle the
bytes. -/
structure CheckpointStateAdapter (S : Type) where
  captureState : S → Except JournalError (Option Bytes)
  restoreState : Bytes → Except JournalError (Option S)

structure StateLoader (S : Type) where
  Value : Type
  deserialize : Bytes → Except JournalError Value
  restoreState : Value → Except JournalError S

/-- An actor and what its facet has been set up with.  `handle` is what the actor does to its
state for a method with its payload. -/
structure Setup (S : Type) where
  actorId : String
  config : DurabilityConfig
  codecs : Codecs
  init : S
  handle : S → String → Bytes → S
  replayHandler : Option (S → String → Bytes → Except JournalError S)
  adapter : Option (CheckpointStateAdapter S)
  loader : Option (StateLoader S)

structure SideEffectEntry where
  sideEffectId : String
  inputData : Bytes
  outputData : Bytes
  deriving DecidableEq

structure DurabilityFacet where
  actorId : Option String
  messageSequence : Nat
  checkpointState : Option ActorCheckpointState
  deriving DecidableEq

namespace DurabilityFacet

def new : DurabilityFacet := ⟨none, 0, none⟩

def beforeMethod (f : DurabilityFacet) (st : Storage) (method : String) (args : Bytes) :
    Except FacetError Unit × DurabilityFacet × Storage :=
  match f.actorId with
  | none => (.error (.interceptionFailed "Actor ID not set"), f, st)
  | some _ =>
      let f := { f with messageSequence := f.messageSequence + 1 }
      match st.appendEntry ⟨f.messageSequence, .messageReceived method args⟩ with
      | .error e => (.error (.interceptionFailed e.toString), f, st)
      | .ok st => (.ok (), f, st)

/-- The outcome of a message: the reply and the side effects of its execution. -/
def outcomeEntries (result : Bytes) (sideEffects : List SideEffectEntry) : List Entry :=
  .messageProcessed result ::
    sideEffects.map fun se => .sideEffectExecuted se.sideEffectId se.inputData se.outputData

/-- The first half of `after_method`, up to the journaling of the outcome. -/
def journalOutcome (f : DurabilityFacet) (st : Storage) (result : Bytes)
    (sideEffects : List SideEffectEntry) :
    Except FacetError Unit × DurabilityFacet × Storage :=
  match f.actorId with
  | none => (.error (.interceptionFailed "Actor ID not set"), f, st)
  | some _ =>
      let entries := outcomeEntries result sideEffects
      let batch := numberFrom f.messageSequence entries
      let f := { f with messageSequence := f.messageSequence + entries.length }
      match st.appendBatch batch with
      | .error e => (.error (.interceptionFailed e.toString), f, st)
      | .ok st => (.ok (), f, st)

/-- What a call of the checkpoint manager means to the facet. -/
def checkpointed {α : Type} (f : DurabilityFacet) :
    Except JournalError α × Option ActorCheckpointState × Storage →
      Except FacetError Unit × DurabilityFacet × Storage
  | (.error e, cs, st) =>
      (.error (.interceptionFailed e.toString), { f with checkpointState := cs }, st)
  | (.ok _, cs, st) => (.ok (), { f with checkpointState := cs }, st)

@[simp] theorem checkpointed_sequence {α : Type} (f : DurabilityFacet)
    (r : Except JournalError α × Option ActorCheckpointState × Storage) :
    (f.checkpointed r).2.1.messageSequence = f.messageSequence := by
  obtain ⟨_ | _, _, _⟩ := r <;> rfl

@[simp] theorem checkpointed_storage {α : Type} (f : DurabilityFacet)
    (r : Except JournalError α × Option ActorCheckpointState × Storage) :
    (f.checkpointed r).2.2 = r.2.2 := by
  obtain ⟨_ | _, _, _⟩ := r <;> rfl

@[simp] theorem checkpointed_actorId {α : Type} (f : DurabilityFacet)
    (r : Except JournalError α × Option ActorCheckpointState × Storage) :
    (f.checkpointed r).2.1.actorId = f.actorId := by
  obtain ⟨_ | _, _, _⟩ := r <;> rfl

@[simp] theorem checkpointed_checkpointState {α : Type} (f : DurabilityFacet)
    (r : Except JournalError α × Option ActorCheckpointState × Storage) :
    (f.checkpointed r).2.1.checkpointState = r.2.1 := by
  obtain ⟨_ | _, _, _⟩ := r <;> rfl

theorem of_checkpointed_ok {α : Type} {f : DurabilityFacet}
    {r : Except JournalError α × Option ActorCheckpointState × Storage}
    (h : (f.checkpointed r).1 = .ok ()) : ∃ a, r.1 = .ok a := by
  obtain ⟨_ | a, _, _⟩ := r
  · cases h
  · exact ⟨a, rfl⟩

end DurabilityFacet

namespace Setup

def manager (u : Setup S) : CheckpointManager :=
  ⟨u.config.checkpointConfig, u.codecs, u.config.schemaVersion⟩

def captureState (u : Setup S) (s : S) : Except JournalError (Option Bytes) :=
  match u.adapter with
  | none => .ok none
  | some adapter => adapter.captureState s

/-- The second half of `after_method`. -/
def periodicCheckpoint (u : Setup S) (f : DurabilityFacet) (st : Storage) (s : S) (now : Nat) :
    Except FacetError Unit × DurabilityFacet × Storage :=
  if 0 < u.config.checkpointInterval ∧
      f.messageSequence % u.config.checkpointInterval = 0 then
    match u.captureState s with
    | .error e => (.error (.interceptionFailed e.toString), f, st)
    | .ok none => (.ok (), f, st)
    | .ok (some stateData) =>
        f.checkpointed
          (u.manager.maybeCheckpoint f.checkpointState st now f.messageSequence stateData)
  else (.ok (), f, st)

def afterMethod (u : Setup S) (f : DurabilityFacet) (st : Storage) (s : S) (result : Bytes)
    (sideEffects : List SideEffectEntry) (now : Nat) :
    Except FacetError Unit × DurabilityFacet × Storage :=
  match f.journalOutcome st result sideEffects with
  | (.error e, f, st) => (.error e, f, st)
  | (.ok (), f, st) => u.periodicCheckpoint f st s now

/-- The state of the actor is not captured, and a failure is only logged. -/
def onExit (u : Setup S) (f : DurabilityFacet) (st : Storage) (now : Nat) :
    DurabilityFacet × Storage :=
  match u.manager.maybeCheckpoint f.checkpointState st now f.messageSequence [] with
  | (_, cs, st) => ({ f with checkpointState := cs }, st)

def onTerminateStart (u : Setup S) (f : DurabilityFacet) (st : Storage) (s : S) (now : Nat) :
    Except FacetError Unit × DurabilityFacet × Storage :=
  match u.captureState s with
  | .error e => (.error (.interceptionFailed e.toString), f, st)
  | .ok none => (.ok (), f, st)
  | .ok (some stateData) =>
      f.checkpointed
        (u.manager.saveCheckpointNow f.checkpointState st now f.messageSequence stateData)

/-- Hands a checkpoint to the loader; without one it is left to the actor to load. -/
def loadState (u : Setup S) (stateData : Bytes) : Except FacetError S :=
  match u.loader with
  | none => .ok u.init
  | some loader =>
      match loader.deserialize stateData with
      | .error e =>
          .error (.invalidConfig ("Failed to deserialize checkpoint state: " ++ e.toString))
      | .ok value =>
          match loader.restoreState value with
          | .error e =>
              .error (.invalidConfig ("Failed to restore checkpoint state: " ++ e.toString))
          | .ok s => .ok s

def incompatible (u : Setup S) (checkpoint : Checkpoint) : FacetError :=
  .invalidConfig ("Incompatible checkpoint schema version: checkpoint=" ++
    toString checkpoint.stateSchemaVersion ++ ", current=" ++
    toString u.config.stateSchemaVersion ++ ", actor_id=" ++ u.actorId)

/-- The state with which an actor goes on from a checkpoint. -/
def restoreCheckpoint (u : Setup S) (checkpoint : Checkpoint) : Except FacetError S :=
  if u.config.stateSchemaVersion < checkpoint.stateSchemaVersion then
    .error (u.incompatible checkpoint)
  else
    match u.adapter with
    | none => u.loadState checkpoint.stateData
    | some adapter =>
        match adapter.restoreState checkpoint.stateData with
        | .error e =>
            .error (.invalidConfig ("Failed to restore checkpoint state: " ++ e.toString))
        | .ok (some s) => .ok s
        | .ok none => u.loadState checkpoint.stateData

end Setup

/-- Replays the messages among the entries through the handler. -/
def replayMessages (handler : S → String → Bytes → Except JournalError S) :
    S → List JournalEntry → Except JournalError S
  | s, [] => .ok s
  | s, e :: es =>
      match e.entry with
      | .messageReceived method payload =>
          match handler s method payload with
          | .error err => .error (.replay ("Replay failed: " ++ err.toString))
          | .ok s => replayMessages handler s es
      | _ => replayMessages handler s es

namespace Setup

def replayJournal (u : Setup S) (st : Storage) (fromSequence : Nat) (s : S) :
    Except JournalError S :=
  match u.replayHandler with
  | none => .ok s
  | some handler => replayMessages handler s (st.replayFrom fromSequence)

def attachedFacet (u : Setup S) (st : Storage) : DurabilityFacet where
  actorId := some u.actorId
  messageSequence := ((st.replayFrom 0).getLast?.map JournalEntry.sequence).getD 0
  checkpointState := none

def replayPoint (u : Setup S) (st : Storage) : Except FacetError (Nat × S) :=
  match st.getLatestCheckpoint u.actorId with
  | .ok checkpoint =>
      match u.restoreCheckpoint checkpoint with
      | .error e => .error e
      | .ok s => .ok (checkpoint.sequence + 1, s)
  | .error (.checkpointNotFound _) => .ok (0, u.init)
  | .error e => .error (.invalidConfig ("Failed to load checkpoint: " ++ e.toString))

/-- A fresh facet is attached to a fresh actor. -/
def onAttach (u : Setup S) (st : Storage) : Except FacetError (DurabilityFacet × S) :=
  if u.config.replayOnActivation = true then
    match u.replayPoint st with
    | .error e => .error e
    | .ok (fromSequence, s) =>
        match u.replayJournal st fromSequence s with
        | .error e => .error (.invalidConfig e.toString)
        | .ok s => .ok (u.attachedFacet st, s)
  else .ok (u.attachedFacet st, u.init)

section Specs

variable (u : Setup S) (f : DurabilityFacet) (st : Storage)

/-- A checkpoint of these bytes is saved under the number of the last entry. -/
def Saves (stateData : Bytes) (st' : Storage) : Prop :=
  ∃ c, u.manager.createCheckpoint f.messageSequence stateData = .ok c ∧ st' = st.saveCheckpoint c

theorem periodicCheckpoint_sequence (s : S) (now : Nat) :
    (u.periodicCheckpoint f st s now).2.1.messageSequence = f.messageSequence := by
  unfold periodicCheckpoint
  split_ifs
  · rcases u.captureState s with e | (_ | d)
    · rfl
    · rfl
    · exact DurabilityFacet.checkpointed_sequence _ _
  · rfl

theorem periodicCheckpoint_storage (s : S) (now : Nat) :
    (u.periodicCheckpoint f st s now).2.2 = st ∨
      ∃ d, u.captureState s = .ok (some d) ∧
        u.Saves f st d (u.periodicCheckpoint f st s now).2.2 := by
  unfold periodicCheckpoint
  split_ifs
  · rcases u.captureState s with e | (_ | d)
    · exact .inl rfl
    · exact .inl rfl
    · simp only [DurabilityFacet.checkpointed_storage]
      refine (CheckpointManager.maybeCheckpoint_storage rfl _ st now _ d).imp_right ?_
      rintro ⟨-, hsaves⟩
      exact ⟨d, rfl, hsaves⟩
  · exact .inl rfl

theorem onTerminateStart_storage (s : S) (now : Nat) :
    (u.onTerminateStart f st s now).2.2 = st ∨
      ∃ d, u.captureState s = .ok (some d) ∧
        u.Saves f st d (u.onTerminateStart f st s now).2.2 := by
  unfold onTerminateStart
  rcases u.captureState s with e | (_ | d)
  · exact .inl rfl
  · exact .inl rfl
  · simp only [DurabilityFacet.checkpointed_storage]
    refine (u.manager.saveCheckpointNow_storage _ st now _ d).imp_right ?_
    intro hsaves
    exact ⟨d, rfl, hsaves⟩

theorem onExit_storage (now : Nat) :
    (u.onExit f st now).2 = st ∨
      u.manager.due f.checkpointState now f.messageSequence = true ∧
        u.Saves f st [] (u.onExit f st now).2 :=
  CheckpointManager.maybeCheckpoint_storage rfl f.checkpointState st now f.messageSequence []

end Specs

end Setup

end PlexSpaces.Journaling
