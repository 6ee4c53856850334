import Mathlib.Data.List.Infix
import PlexSpaces.Journaling.Recovery
/-!
# Fidelity of checkpoints

A checkpoint should hold what the adapter has made of the actor's state after the entries up
to the number of the checkpoint, and these bytes should be handed to the adapter, or to the
state loader, when the actor is started again.

Three things break this (`not_always_held`): an EXIT signal saves an empty checkpoint when one
is due, a stop saves the state without a message that has been journaled, and a compressed
checkpoint is handed on as it is stored.  Otherwise it holds in every run
(`checkpoints_held`).
-/

namespace PlexSpaces.Journaling

open PlexSpaces.Lib

/-- The bytes that a checkpoint of this compression stands for. -/
def Codecs.decompress (codecs : Codecs) (compression : Int) (data : Bytes) :
    Except JournalError Bytes :=
  match CompressionType.tryFrom compression with
  | some .none => .ok data
  | some .unspecified => .ok data
  | some .zstd =>
      match codecs.zstd with
      | some codec => (codec.decode data).mapError .decompression
      | none => .error (.decompression "zstd")
  | some .snappy =>
      match codecs.snappy with
      | some codec => (codec.decode data).mapError .decompression
      | none => .error (.decompression "snappy")
  | none => .error (.decompression (toString compression))

/-- What `compress_state_data` returns stands for what it was given. -/
theorem CheckpointManager.decompress_compress {m : CheckpointManager} {d b : Bytes}
    (h : m.compressStateData d = .ok b) :
    m.codecs.decompress m.config.compression b = .ok d := by
  unfold Codecs.decompress
  rcases compressStateData_ok h with
    ⟨htype | htype, rfl⟩ | ⟨htype, codec, hcodec, hencode⟩ | ⟨htype, codec, hcodec, hencode⟩
  · rw [htype]
  · rw [htype]
  · simp only [htype, hcodec, codec.decode_encode d b hencode]
    rfl
  · simp only [htype, hcodec, codec.decode_encode d b hencode]
    rfl

variable {S : Type}

namespace Setup

/-- No checkpoint is compressed: either the configuration does not ask for it, or the crate
has been built without the codec, so that no checkpoint is saved at all. -/
def Plain (u : Setup S) : Prop :=
  (CompressionType.tryFrom u.config.compression = some .zstd → u.codecs.zstd = none) ∧
    (CompressionType.tryFrom u.config.compression = some .snappy → u.codecs.snappy = none)

theorem compress_of_plain {u : Setup S} (h : u.Plain) {d b : Bytes}
    (hb : u.manager.compressStateData d = .ok b) : b = d := by
  rcases CheckpointManager.compressStateData_ok hb with
    ⟨-, heq⟩ | ⟨htype, codec, hcodec, -⟩ | ⟨htype, codec, hcodec, -⟩
  · exact heq
  · have hnone : u.manager.codecs.zstd = none := h.1 htype
    rw [hnone] at hcodec
    cases hcodec
  · have hnone : u.manager.codecs.snappy = none := h.2 htype
    rw [hnone] at hcodec
    cases hcodec

/-- The checkpoint whose bytes `on_attach` hands to the adapter, and to the state loader where
the adapter does not handle them. -/
def handed (u : Setup S) (st : Storage) : Option Checkpoint :=
  if u.config.replayOnActivation = true then
    match st.getLatestCheckpoint u.actorId with
    | .ok c => if u.config.stateSchemaVersion < c.stateSchemaVersion then none else some c
    | .error _ => none
  else none

end Setup

def Life.live? : Life S → Option (Live S)
  | .up l => some l
  | _ => none

namespace Node

/-- The adapter has captured these bytes from a state of the run: the actor had handled every
message of the journal, and the journal consisted of the entries up to this number. -/
def HeldAt (u : Setup S) (as : List Action) (sequence : Nat) (d : Bytes) : Prop :=
  ∃ as₁ l, as₁ <+: as ∧ (run (step u) start as₁).life = .up l ∧
    (run (step u) start as₁).storage.journal.rows =
      Log.upTo JournalEntry.sequence sequence (run (step u) start as).storage.journal.rows ∧
    l.settled u = l.state ∧ u.captureState l.state = .ok (some d)

variable {u : Setup S}

/-- A number that is taken splits off the same entries after every further step. -/
theorem upTo_step {n : Node S} (h : n.Numbered) (a : Action) {k : Nat}
    (hk : k ≤ n.storage.lastSequence) :
    k ≤ (step u n a).storage.lastSequence ∧
      Log.upTo JournalEntry.sequence k (step u n a).storage.journal.rows =
        Log.upTo JournalEntry.sequence k n.storage.journal.rows := by
  rcases step_cases (u := u) h a with ⟨l, -, hout⟩ | ⟨-, -, f, s, -, hstep⟩ | ⟨hst, -⟩
  · generalize step u n a = n' at hout
    cases hout with
    | kept _ => exact ⟨hk, rfl⟩
    | saved _ _ _ => exact ⟨hk, rfl⟩
    | journaled hext _ _ =>
        refine ⟨?_, hext.upTo_eq hk⟩
        rw [hext.last]
        exact hk.trans (Nat.le_add_right _ _)
  · rw [hstep]
    exact ⟨hk, rfl⟩
  · rw [hst]
    exact ⟨hk, rfl⟩

theorem HeldAt.concat {as : List Action} {sequence : Nat} {d : Bytes}
    (h : HeldAt u as sequence d)
    (hsequence : sequence ≤ (run (step u) start as).storage.lastSequence) (a : Action) :
    HeldAt u (as ++ [a]) sequence d := by
  obtain ⟨as₁, l, hpre, hlife, hrows, hsettled⟩ := h
  refine ⟨as₁, l, hpre.trans (List.prefix_append as [a]), hlife, ?_, hsettled⟩
  rw [run_concat, (upTo_step (numbered_run as) a hsequence).2]
  exact hrows

theorem step_checkpoints {n : Node S} (h : n.Numbered) {a : Action} {c : Checkpoint}
    (hc : c ∈ (step u n a).storage.checkpoints.rows) :
    c ∈ n.storage.checkpoints.rows ∨
      ∃ l d, n.life = .up l ∧ Source u l a d ∧
        u.manager.createCheckpoint l.facet.messageSequence d = .ok c := by
  rcases step_cases (u := u) h a with ⟨l, hlife, hout⟩ | ⟨-, -, f, s, -, hstep⟩ | ⟨hst, -⟩
  · generalize step u n a = n' at hout hc
    cases hout with
    | kept _ => exact .inl hc
    | saved hsource hcreate _ =>
        rcases Table.mem_insertOrReplace hc with rfl | hc
        · exact .inr ⟨l, _, hlife, hsource, hcreate⟩
        · exact .inl hc
    | journaled hext _ _ =>
        rw [hext.checkpoints] at hc
        exact .inl hc
  · rw [hstep] at hc
    exact .inl hc
  · rw [hst] at hc
    exact .inl hc

/-- Every checkpoint stands for bytes that were captured at its number. -/
theorem stored_held {as : List Action} (hrun : Along (step u) (Faithful u) start as) :
    ∀ c ∈ (run (step u) start as).storage.checkpoints.rows,
      c.sequence ≤ (run (step u) start as).storage.lastSequence ∧
        ∃ d, u.manager.compressStateData d = .ok c.stateData ∧
          c.compression = u.config.compression ∧ HeldAt u as c.sequence d := by
  induction as using List.reverseRecOn with
  | nil =>
      intro c hc
      cases hc
  | append_singleton as a ih =>
      obtain ⟨hprev, hfaithful⟩ := (along_concat _ _ _ _).mp hrun
      have hnumbered : (run (step u) start as).Numbered := numbered_run as
      intro c hc
      rw [run_concat] at hc
      have hold : ∀ d, c.sequence ≤ (run (step u) start as).storage.lastSequence →
          HeldAt u as c.sequence d →
          c.sequence ≤ (run (step u) start (as ++ [a])).storage.lastSequence ∧
            HeldAt u (as ++ [a]) c.sequence d := by
        intro d hle hheld
        refine ⟨?_, hheld.concat hle a⟩
        rw [run_concat]
        exact (upTo_step hnumbered a hle).1
      rcases step_checkpoints hnumbered hc with hc | ⟨l, d, hlife, hsource, hcreate⟩
      · obtain ⟨hle, d, hdata, hcompression, hheld⟩ := ih hprev c hc
        obtain ⟨hle', hheld'⟩ := hold d hle hheld
        exact ⟨hle', d, hdata, hcompression, hheld'⟩
      · obtain ⟨hcapture, hsettled⟩ := captured_of_source hlife hfaithful hsource hcreate
        obtain ⟨hseq, hdata, hcompression, -⟩ := CheckpointManager.createCheckpoint_ok hcreate
        have hlast : c.sequence = (run (step u) start as).storage.lastSequence := by
          rw [hseq, hnumbered.sequence l hlife]
        have hheld : HeldAt u as c.sequence d := by
          refine ⟨as, l, List.prefix_rfl, hlife, ?_, hsettled, hcapture⟩
          rw [hlast]
          exact (Log.Ordered.upTo_last hnumbered.ordered).symm
        obtain ⟨hle', hheld'⟩ := hold d hlast.le hheld
        exact ⟨hle', d, hdata, hcompression, hheld'⟩

/-- Where the actor can be recovered, these are the bytes of the state that the messages up to
the number lead to. -/
theorem HeldAt.captured {as : List Action} {sequence : Nat} {d : Bytes}
    (h : HeldAt u as sequence d) (hrec : u.Recoverable) (hplain : u.Uncompressed)
    (hrun : Along (step u) (fun n a => Faithful u n a ∧ Attachable u n a) start as) :
    u.captureState (u.stateAfter (Log.upTo JournalEntry.sequence sequence
      (run (step u) start as).storage.journal.rows)) = .ok (some d) := by
  obtain ⟨as₁, l, hpre, hlife, hrows, hsettled, hcapture⟩ := h
  have hlive := (consistent_run hrec hplain (hrun.initial hpre)).live l hlife
  rw [← hrows, ← hlive, hsettled]
  exact hcapture

theorem mem_of_handed {st : Storage} {c : Checkpoint} (h : u.handed st = some c) :
    c ∈ st.checkpoints.rows := by
  unfold Setup.handed at h
  split at h
  · split at h
    · rename_i c' hlatest
      split at h
      · cases h
      · cases h
        exact Storage.mem_of_getLatestCheckpoint hlatest
    · cases h
  · cases h

/-- In a run in which every step saves a faithful checkpoint or none, all checkpoints hold
bytes that were captured at their numbers; without compression these are the bytes that
`on_attach` hands on. -/
theorem checkpoints_held (hplain : u.Plain) {as : List Action}
    (hrun : Along (step u) (Faithful u) start as) :
    (∀ c ∈ (run (step u) start as).storage.checkpoints.rows,
      ∃ d, u.codecs.decompress c.compression c.stateData = .ok d ∧
        HeldAt u as c.sequence d) ∧
      ∀ c, u.handed (run (step u) start as).storage = some c →
        HeldAt u as c.sequence c.stateData := by
  constructor
  · intro c hc
    obtain ⟨-, d, hdata, hcompression, hheld⟩ := stored_held hrun c hc
    refine ⟨d, ?_, hheld⟩
    rw [hcompression]
    exact CheckpointManager.decompress_compress hdata
  · intro c hc
    obtain ⟨-, d, hdata, -, hheld⟩ := stored_held hrun c (mem_of_handed hc)
    rw [Setup.compress_of_plain hplain hdata]
    exact hheld

section Recorder

/-- A codec that puts a byte before the data. -/
def tagging : Codec where
  encode := fun d => .ok (40 :: d)
  decode := fun b => .ok b.tail
  decode_encode := by
    intro d b h
    cases h
    rfl

def compressing : Setup Bytes :=
  { recorder 1 with
    config := parseConfig ⟨none, none, some 2, none⟩
    codecs := ⟨some tagging, none⟩ }

/-- The recorder with a checkpoint at every third entry. -/
def frequent : Setup Bytes := { recorder 1 with config := parseConfig ⟨some 3, none, none, none⟩ }

def handles (payload : UInt8) : List Action :=
  [.beforeMethod "put" [payload], .transition, .journalOutcome [] [], .periodicCheckpoint 0]

def handledAndExited : List Action := .attach :: (handles 1 ++ handles 2 ++ [.onExit 0])

theorem not_heldAt {u : Setup Bytes} (hcapture : ∀ s, u.captureState s = .ok (some s))
    {as : List Action} {sequence : Nat} {d : Bytes}
    (h : ∀ as₁ ∈ as.inits, ∀ l ∈ (run (step u) start as₁).life.live?,
      (run (step u) start as₁).storage.journal.rows =
        Log.upTo JournalEntry.sequence sequence (run (step u) start as).storage.journal.rows →
      l.settled u = l.state → l.state ≠ d) : ¬HeldAt u as sequence d := by
  rintro ⟨as₁, l, hpre, hlife, hrows, hsettled, hd⟩
  have hlive : l ∈ (run (step u) start as₁).life.live? := by
    rw [hlife]
    rfl
  rw [hcapture] at hd
  cases hd
  exact h as₁ ((List.mem_inits _ _).mpr hpre) l hlive hrows hsettled rfl

/-- An EXIT signal after two messages saves an empty checkpoint, a stop in the middle of a
message saves the state without it, and a compressed checkpoint is handed on as it is. -/
theorem not_always_held :
    (∃ c ∈ (run (step frequent) start handledAndExited).storage.checkpoints.rows,
      frequent.codecs.decompress c.compression c.stateData = .ok [] ∧
        ¬HeldAt frequent handledAndExited c.sequence []) ∧
    (∃ c ∈ (run (step (recorder 1)) start stoppedInMessage).storage.checkpoints.rows,
      (recorder 1).codecs.decompress c.compression c.stateData = .ok [] ∧
        ¬HeldAt (recorder 1) stoppedInMessage c.sequence []) ∧
    (Along (step compressing) (Faithful compressing) start handledAndStopped ∧
      ∃ c, compressing.handed (run (step compressing) start handledAndStopped).storage = some c ∧
        ¬HeldAt compressing handledAndStopped c.sequence c.stateData) := by
  refine ⟨⟨⟨4, [], 1, 1⟩, ?_, rfl, ?_⟩, ⟨⟨1, [], 1, 1⟩, ?_, rfl, ?_⟩,
    ?_, ⟨2, [40, 1], 2, 1⟩, ?_, ?_⟩
  · decide
  · exact not_heldAt (fun _ => rfl) (by decide)
  · decide
  · exact not_heldAt (fun _ => rfl) (by decide)
  · refine ⟨trivial, trivial, trivial, trivial, trivial, ?_, trivial, trivial⟩
    intro l hl d _ _
    cases hl
    rfl
  · rfl
  · exact not_heldAt (fun _ => rfl) (by decide)

/-- A message is handled, and the stop after it saves a checkpoint. -/
theorem checkpoints_held_recorder :
    (∀ c ∈ (run (step (recorder 1)) start handledAndStopped).storage.checkpoints.rows,
      ∃ d, (recorder 1).codecs.decompress c.compression c.stateData = .ok d ∧
        HeldAt (recorder 1) handledAndStopped c.sequence d) ∧
      ∀ c, (recorder 1).handed (run (step (recorder 1)) start handledAndStopped).storage =
          some c →
        HeldAt (recorder 1) handledAndStopped c.sequence c.stateData := by
  refine checkpoints_held ⟨?_, ?_⟩ (faithful_handledAndStopped 1)
  · intro _
    rfl
  · intro _
    rfl

end Recorder

end Node

end PlexSpaces.Journaling
