import PlexSpaces.Journaling.Lifecycle
/-!
# Recovery of a durable actor

An actor that is started again should be in the state that the journaled messages lead to,
wherever it was stopped or crashed before.

A stop breaks this when it comes between the journaling of a message and its handling: the
checkpoint has the number of the message but not its effect, so the replay skips it.  A
configuration with schema version 0 breaks it as well, since its checkpoints are saved under
version 1 and rejected when the facet is attached (`not_always_restored`).  In all other runs the
checkpoint and the rest of the journal make up the state (`state_recovered`).
-/

namespace PlexSpaces.Journaling

open PlexSpaces.Lib

variable {S : Type}

namespace Setup

def stateAfter (u : Setup S) (es : List JournalEntry) : S :=
  es.foldl (fun s e => u.apply s e.entry) u.init

/-- The state that the journaled messages lead to, in the order of their numbers. -/
def stateOf (u : Setup S) (st : Storage) : S := u.stateAfter (st.replayFrom 0)

def Restores (u : Setup S) (d : Bytes) (s : S) : Prop :=
  ∃ adapter, u.adapter = some adapter ∧ adapter.restoreState d = .ok (some s)

/-- The replay handler does what the actor does, and the adapter restores the states that it
captures. -/
structure Recoverable (u : Setup S) : Prop where
  replays : u.replayHandler = some fun s method payload => .ok (u.handle s method payload)
  restores : ∀ s d, u.captureState s = .ok (some d) → u.Restores d s

def Uncompressed (u : Setup S) : Prop :=
  CompressionType.tryFrom u.config.compression = some .none ∨
    CompressionType.tryFrom u.config.compression = some .unspecified

theorem compress_of_uncompressed {u : Setup S} (h : u.Uncompressed) (d : Bytes) :
    u.manager.compressStateData d = .ok d := by
  unfold CheckpointManager.compressStateData
  rcases h with h | h
  · simp only [manager, DurabilityConfig.checkpointConfig, h]
  · simp only [manager, DurabilityConfig.checkpointConfig, h]

theorem replayMessages_handle (u : Setup S) (s : S) (es : List JournalEntry) :
    replayMessages (fun s method payload => .ok (u.handle s method payload)) s es =
      .ok (es.foldl (fun s e => u.apply s e.entry) s) := by
  induction es generalizing s with
  | nil => rfl
  | cons e es ih =>
      obtain ⟨sequence, _ | _ | _ | _ | _⟩ := e
      · exact ih _
      · exact ih _
      · exact ih _
      · exact ih _
      · exact ih _

end Setup

namespace Node

/-- `on_attach` returns with the state that the journaled messages lead to. -/
def RecoversAt (u : Setup S) (n : Node S) (a : Action) : Prop :=
  a = .attach → n.life = .down →
    (u.onAttach n.storage).map Prod.snd = .ok (u.stateOf n.storage)

/-- The facet replays and does not reject its own checkpoints; one that does not replay finds
no message. -/
def Attachable (u : Setup S) (n : Node S) (a : Action) : Prop :=
  a = .attach → n.life = .down →
    if u.config.replayOnActivation = true then
      0 < u.config.stateSchemaVersion ∨ n.storage.checkpoints.rows = []
    else ∀ e ∈ n.storage.journal.rows, ∀ method payload, e.entry ≠ .messageReceived method payload

/-- The checkpoints and the rest of the journal make up the state. -/
structure Consistent (u : Setup S) (n : Node S) : Prop where
  numbered : n.Numbered
  live : ∀ l, n.life = .up l → l.settled u = u.stateAfter n.storage.journal.rows
  covered : ∀ c ∈ n.storage.checkpoints.rows, c.sequence ≤ n.storage.lastSequence
  restored : ∀ c ∈ n.storage.checkpoints.rows, u.Restores c.stateData
    (u.stateAfter (Log.upTo JournalEntry.sequence c.sequence n.storage.journal.rows))
  versioned : ∀ c ∈ n.storage.checkpoints.rows,
    c.stateSchemaVersion = u.config.schemaVersion

section Attach

variable {u : Setup S} {n : Node S}

theorem replayJournal_eq (hrec : u.Recoverable) (st : Storage) (fromSequence : Nat) (s : S) :
    u.replayJournal st fromSequence s =
      .ok ((st.replayFrom fromSequence).foldl (fun s e => u.apply s e.entry) s) := by
  rw [Setup.replayJournal, hrec.replays]
  exact u.replayMessages_handle s _

theorem restoreCheckpoint_eq (h : n.Consistent u) {c : Checkpoint}
    (hc : c ∈ n.storage.checkpoints.rows) (hversion : 0 < u.config.stateSchemaVersion) :
    u.restoreCheckpoint c =
      .ok (u.stateAfter (Log.upTo JournalEntry.sequence c.sequence n.storage.journal.rows)) := by
  obtain ⟨adapter, hadapter, hrestore⟩ := h.restored c hc
  have hle : ¬u.config.stateSchemaVersion < c.stateSchemaVersion := by
    rw [h.versioned c hc, DurabilityConfig.schemaVersion, if_pos hversion]
    exact lt_irrefl _
  rw [Setup.restoreCheckpoint, if_neg hle]
  simp only [hadapter, hrestore]

theorem onAttach_eq (hrec : u.Recoverable) (h : n.Consistent u) (hlife : n.life = .down)
    (hattach : Attachable u n .attach) :
    u.onAttach n.storage =
      .ok (u.attachedFacet n.storage, u.stateAfter n.storage.journal.rows) := by
  have hattach := hattach rfl hlife
  have hordered := h.numbered.ordered
  unfold Setup.onAttach
  by_cases hreplay : u.config.replayOnActivation = true
  · rw [if_pos hreplay] at hattach ⊢
    rcases hlatest : n.storage.getLatestCheckpoint u.actorId with e | c
    · have hpoint : u.replayPoint n.storage = .ok (0, u.init) := by
        rw [Setup.replayPoint, hlatest, Storage.getLatestCheckpoint_error hlatest]
      simp only [hpoint, replayJournal_eq hrec, Storage.replayFrom_zero hordered]
      rfl
    · have hc := Storage.mem_of_getLatestCheckpoint hlatest
      have hversion : 0 < u.config.stateSchemaVersion := by
        refine hattach.resolve_right ?_
        intro hnone
        rw [hnone] at hc
        cases hc
      have hpoint : u.replayPoint n.storage = .ok (c.sequence + 1,
          u.stateAfter (Log.upTo JournalEntry.sequence c.sequence n.storage.journal.rows)) := by
        simp only [Setup.replayPoint, hlatest, restoreCheckpoint_eq h hc hversion]
      simp only [hpoint, replayJournal_eq hrec, Storage.replayFrom_eq hordered]
      rw [Setup.stateAfter, Log.Ordered.foldl_since hordered]
      rfl
  · rw [if_neg hreplay] at hattach ⊢
    have hinit : u.stateAfter n.storage.journal.rows = u.init := by
      refine run_invariant (I := fun s => s = u.init) ?_ rfl
      rintro ⟨sequence, entry⟩ he s rfl
      cases entry with
      | messageReceived method payload => exact absurd rfl (hattach _ he method payload)
      | messageProcessed _ => rfl
      | sideEffectExecuted _ _ _ => rfl
      | promiseCreated _ _ => rfl
      | promiseResolved _ _ _ => rfl
    rw [hinit]

end Attach

section Step

variable {u : Setup S} {n : Node S}

theorem stateAfter_append (es : List JournalEntry) (m : Nat) (entries : List Entry) :
    u.stateAfter (es ++ numberFrom m entries) = entries.foldl u.apply (u.stateAfter es) := by
  rw [Setup.stateAfter, List.foldl_append]
  change (numberFrom m entries).foldl _ (u.stateAfter es) = _
  generalize u.stateAfter es = s
  induction entries generalizing s m with
  | nil => rfl
  | cons entry entries ih => exact ih _ _

theorem consistent_saved (hrec : u.Recoverable) (hplain : u.Uncompressed)
    (h : n.Consistent u) {l : Live S} (hlife : n.life = .up l) {d : Bytes} {c : Checkpoint}
    (hcapture : u.captureState l.state = .ok (some d)) (hsettled : l.settled u = l.state)
    (hcreate : u.manager.createCheckpoint l.facet.messageSequence d = .ok c) {life : Life S}
    (hcontinues : Continues u l life) :
    Consistent u ⟨n.storage.saveCheckpoint c, life⟩ := by
  obtain ⟨hseq, hdata, -, hversion⟩ := CheckpointManager.createCheckpoint_ok hcreate
  have hlast : c.sequence = n.storage.lastSequence := by
    rw [hseq, h.numbered.sequence l hlife]
  have hbytes : c.stateData = d := by
    rw [Setup.compress_of_uncompressed hplain] at hdata
    exact (Except.ok.inj hdata).symm
  refine ⟨⟨h.numbered.ordered, ?_⟩, ?_, ?_, ?_, ?_⟩
  · intro l' hl'
    rw [(hcontinues l' hl').1, h.numbered.sequence l hlife]
    rfl
  · intro l' hl'
    rw [(hcontinues l' hl').2, h.live l hlife]
    rfl
  · intro c' hc'
    rcases Table.mem_insertOrReplace hc' with rfl | hc'
    · exact hlast.le
    · exact h.covered c' hc'
  · intro c' hc'
    rcases Table.mem_insertOrReplace hc' with rfl | hc'
    · have hall : Log.upTo JournalEntry.sequence c'.sequence n.storage.journal.rows =
          n.storage.journal.rows := by
        rw [hlast]
        exact Log.Ordered.upTo_last h.numbered.ordered
      change u.Restores c'.stateData
        (u.stateAfter (Log.upTo JournalEntry.sequence c'.sequence n.storage.journal.rows))
      rw [hall, ← h.live l hlife, hsettled, hbytes]
      exact hrec.restores l.state d hcapture
    · exact h.restored c' hc'
  · intro c' hc'
    rcases Table.mem_insertOrReplace hc' with rfl | hc'
    · exact hversion
    · exact h.versioned c' hc'

theorem consistent_journaled (h : n.Consistent u) {l : Live S} (hlife : n.life = .up l)
    {st : Storage} {l' : Live S} {entries : List Entry} (hext : n.storage.Extends st entries)
    (hseq : l'.facet.messageSequence = st.lastSequence)
    (hsettled : l'.settled u = entries.foldl u.apply (l.settled u)) :
    Consistent u ⟨st, .up l'⟩ := by
  have hrows : st.checkpoints.rows = n.storage.checkpoints.rows := by rw [hext.checkpoints]
  refine ⟨⟨hext.ordered, ?_⟩, ?_, ?_, ?_, ?_⟩
  · rintro l'' ⟨⟩
    exact hseq
  · rintro l'' ⟨⟩
    rw [hsettled, h.live l hlife, hext.rows, stateAfter_append]
  · intro c hc
    rw [hext.last]
    exact (h.covered c (hrows ▸ hc)).trans (Nat.le_add_right _ _)
  · intro c hc
    have hc : c ∈ n.storage.checkpoints.rows := hrows ▸ hc
    rw [hext.upTo_eq (h.covered c hc)]
    exact h.restored c hc
  · intro c hc
    exact h.versioned c (hrows ▸ hc)

/-- A step that leaves the storage alone keeps it consistent with the actor. -/
theorem Consistent.of_storage (h : n.Consistent u) {n' : Node S} (hst : n'.storage = n.storage)
    (hlive : ∀ l, n'.life = .up l → l.facet.messageSequence = n.storage.lastSequence ∧
      l.settled u = u.stateAfter n.storage.journal.rows) : n'.Consistent u := by
  obtain ⟨st, life⟩ := n'
  obtain rfl : st = n.storage := hst
  exact ⟨⟨h.numbered.ordered, fun l hl => (hlive l hl).1⟩, fun l hl => (hlive l hl).2,
    h.covered, h.restored, h.versioned⟩

theorem consistent_step (hrec : u.Recoverable) (hplain : u.Uncompressed) (h : n.Consistent u)
    {a : Action} (hfaithful : Faithful u n a) (hattach : Attachable u n a) :
    (step u n a).Consistent u := by
  rcases step_cases (u := u) h.numbered a with
    ⟨l, hlife, hout⟩ | ⟨hlife, rfl, f, s, hok, hstep⟩ | ⟨hst, hup⟩
  · generalize step u n a = n' at hout
    cases hout with
    | kept hcontinues =>
        refine h.of_storage rfl ?_
        intro l' hl'
        rw [(hcontinues l' hl').1, (hcontinues l' hl').2]
        exact ⟨h.numbered.sequence l hlife, h.live l hlife⟩
    | saved hsource hcreate hcontinues =>
        obtain ⟨hcapture, hsettled⟩ := captured_of_source hlife hfaithful hsource hcreate
        exact consistent_saved hrec hplain h hlife hcapture hsettled hcreate hcontinues
    | journaled hext hseq hsettled => exact consistent_journaled h hlife hext hseq hsettled
  · rw [onAttach_eq hrec h hlife hattach] at hok
    cases hok
    rw [hstep]
    refine h.of_storage rfl ?_
    rintro l ⟨⟩
    exact ⟨attachedFacet_sequence h.numbered.ordered, rfl⟩
  · refine h.of_storage hst ?_
    intro l hl
    exact absurd hl (hup l)

theorem consistent_start : (start : Node S).Consistent u := by
  refine ⟨numbered_start, ?_, ?_, ?_, ?_⟩
  · intro l h
    cases h
  all_goals
    intro c hc
    cases hc

theorem consistent_run (hrec : u.Recoverable) (hplain : u.Uncompressed) {as : List Action}
    (hrun : Along (step u) (fun n a => Faithful u n a ∧ Attachable u n a) start as) :
    (run (step u) start as).Consistent u := by
  refine hrun.invariant ?_ consistent_start
  rintro n a h ⟨hfaithful, hattach⟩
  exact consistent_step hrec hplain h hfaithful hattach

/-- The state is recovered at every start of a run in which every step saves a faithful
checkpoint or none, and the facet accepts its own checkpoints. -/
theorem state_recovered (hrec : u.Recoverable) (hplain : u.Uncompressed) {as : List Action}
    (hrun : Along (step u) (fun n a => Faithful u n a ∧ Attachable u n a) start as) :
    Along (step u) (RecoversAt u) start as := by
  refine hrun.of_invariant (I := Consistent u) ?_ consistent_start
  rintro n a h ⟨hfaithful, hattach⟩
  refine ⟨?_, consistent_step hrec hplain h hfaithful hattach⟩
  rintro rfl hlife
  rw [onAttach_eq hrec h hlife hattach, Setup.stateOf,
    Storage.replayFrom_zero h.numbered.ordered]
  rfl

end Step

section Recorder

/-- An actor that appends every payload to its state, with the default configuration apart
from the schema version. -/
def recorder (stateSchemaVersion : Int) : Setup Bytes where
  actorId := "recorder"
  config := parseConfig ⟨none, none, none, some stateSchemaVersion⟩
  codecs := ⟨none, none⟩
  init := []
  handle := fun s _ payload => s ++ payload
  replayHandler := some fun s _ payload => .ok (s ++ payload)
  adapter := some ⟨fun s => .ok (some s), fun b => .ok (some b)⟩
  loader := none

theorem recorder_recoverable (v : Int) : (recorder v).Recoverable := by
  refine ⟨rfl, ?_⟩
  intro s d h
  cases h
  exact ⟨_, rfl, rfl⟩

theorem recorder_uncompressed (v : Int) : (recorder v).Uncompressed := .inl rfl

def handledAndStopped : List Action :=
  [.attach, .beforeMethod "put" [1], .transition, .journalOutcome [] [], .periodicCheckpoint 0,
    .terminateStart 0, .detach]

/-- The actor is stopped between the journaling of a message and its handling. -/
def stoppedInMessage : List Action :=
  [.attach, .beforeMethod "put" [1], .terminateStart 0, .detach]

theorem faithful_handledAndStopped (v : Int) :
    Along (step (recorder v)) (Faithful (recorder v)) start handledAndStopped := by
  refine ⟨trivial, trivial, trivial, trivial, trivial, ?_, trivial, trivial⟩
  intro l hl d _ _
  cases hl
  rfl

/-- The message is lost in a stop that comes before its handling, and with schema version 0
no stopped actor can be started again. -/
theorem not_always_restored :
    ((recorder 1).Recoverable ∧ (recorder 1).Uncompressed ∧
      ¬Along (step (recorder 1)) (RecoversAt (recorder 1)) start
        (stoppedInMessage ++ [.attach])) ∧
    ((recorder 0).Recoverable ∧ (recorder 0).Uncompressed ∧
      Along (step (recorder 0)) (Faithful (recorder 0)) start (handledAndStopped ++ [.attach]) ∧
      ¬Along (step (recorder 0)) (RecoversAt (recorder 0)) start
        (handledAndStopped ++ [.attach])) := by
  refine ⟨⟨recorder_recoverable 1, recorder_uncompressed 1, ?_⟩,
    recorder_recoverable 0, recorder_uncompressed 0, ?_, ?_⟩
  · rw [along_concat]
    rintro ⟨-, hrecovers⟩
    exact absurd (hrecovers rfl rfl) (by decide)
  · rw [along_concat]
    exact ⟨faithful_handledAndStopped 0, trivial⟩
  · rw [along_concat]
    rintro ⟨-, hrecovers⟩
    exact absurd (hrecovers rfl rfl) (by decide)

/-- A stop after a message, and a crash after the next one has been journaled. -/
theorem state_recovered_recorder :
    Along (step (recorder 1)) (RecoversAt (recorder 1)) start
      (handledAndStopped ++ [.attach] ++ [.beforeMethod "put" [2]] ++ [.crash] ++ [.attach]) := by
  refine state_recovered (recorder_recoverable 1) (recorder_uncompressed 1) (along_and.mpr ⟨?_, ?_⟩)
  · simp only [along_concat]
    exact ⟨⟨⟨⟨faithful_handledAndStopped 1, trivial⟩, trivial⟩, trivial⟩, trivial⟩
  · refine along_of_invariant (I := fun _ => True) ?_ trivial _
    intro n a _
    exact ⟨fun _ _ => .inl Nat.one_pos, trivial⟩

end Recorder

end Node

end PlexSpaces.Journaling
