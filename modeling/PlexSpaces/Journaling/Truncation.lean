import PlexSpaces.Journaling.Lifecycle
/-!
# Truncation of a journal

Old entries of a journal can be deleted once a checkpoint covers them.  A facet that is attached
takes its number from the entries that are left, and the replay starts after the latest
checkpoint.  When the entries up to the checkpoint and all after it are gone, the numbers start
again below the checkpoint, and the replay skips the messages that get them
(`not_replayed_after_truncation`).  In a run in which the journal still reaches up to the latest
checkpoint whenever a facet is attached, no message is skipped (`appended_after_checkpoints`).
-/

namespace PlexSpaces.Journaling

open PlexSpaces.Lib

variable {S : Type}

/-- The difference that `maybe_checkpoint` takes of this number does not underflow. -/
def Trails (actorState : Option ActorCheckpointState) (sequence : Nat) : Prop :=
  ∀ state, actorState = some state → state.lastSequence ≤ sequence

theorem Trails.mono {actorState : Option ActorCheckpointState} {m n : Nat}
    (h : Trails actorState m) (hle : m ≤ n) : Trails actorState n :=
  fun state hstate => (h state hstate).trans hle

theorem Trails.getD {actorState : Option ActorCheckpointState} {n : Nat}
    (h : Trails actorState n) (now : Nat) : (actorState.getD ⟨0, now⟩).lastSequence ≤ n := by
  cases actorState with
  | none => exact Nat.zero_le n
  | some state => exact h state rfl

namespace CheckpointManager

theorem maybeCheckpoint_trails (m : CheckpointManager) {actorState : Option ActorCheckpointState}
    {sequence : Nat} (h : Trails actorState sequence) (st : Storage) (now : Nat)
    (stateData : Bytes) :
    Trails (m.maybeCheckpoint actorState st now sequence stateData).2.1 sequence := by
  have hdefault := h.getD now
  unfold maybeCheckpoint
  by_cases henabled : m.config.enabled = false
  · rw [if_pos henabled]
    exact h
  rw [if_neg henabled]
  by_cases hreached : m.entryIntervalReached (actorState.getD ⟨0, now⟩) sequence = false ∧
      m.timeIntervalReached (actorState.getD ⟨0, now⟩) now = false
  · simp only [if_pos hreached]
    rintro state ⟨⟩
    exact hdefault
  simp only [if_neg hreached]
  rcases m.createCheckpoint sequence stateData with e | c
  · rintro state ⟨⟩
    exact hdefault
  · rintro state ⟨⟩
    exact le_rfl

end CheckpointManager

namespace Node

inductive TruncAction
  | life (a : Action)
  | truncateTo (sequence : Nat)

/-- The journal can be truncated whatever the actor is doing. -/
def truncStep (u : Setup S) (n : Node S) : TruncAction → Node S
  | .life a => step u n a
  | .truncateTo sequence => { n with storage := n.storage.truncateTo sequence }

/-- Only entries that the latest checkpoint covers are deleted. -/
def Covered (n : Node S) : TruncAction → Prop
  | .life _ => True
  | .truncateTo sequence => ∃ c ∈ n.storage.checkpoints.rows, sequence ≤ c.sequence

/-- A facet is attached to a journal that reaches up to the latest checkpoint. -/
def Reaching (n : Node S) : TruncAction → Prop
  | .life .attach => n.life = .down →
      ∀ c ∈ n.storage.checkpoints.rows, c.sequence ≤ n.storage.lastSequence
  | _ => True

/-- An entry that a step appends is one that the replay after any of the checkpoints finds,
and the checkpoint manager's difference does not underflow. -/
def Replayable (u : Setup S) (n : Node S) (a : TruncAction) : Prop :=
  (∀ e ∈ (truncStep u n a).storage.journal.rows, e ∉ n.storage.journal.rows →
    ∀ c ∈ n.storage.checkpoints.rows, c.sequence < e.sequence ∧
      e ∈ (truncStep u n a).storage.replayFrom (c.sequence + 1)) ∧
  ∀ l, n.life = .up l → Trails l.facet.checkpointState l.facet.messageSequence

variable {u : Setup S} {n : Node S}

/-- What a step of a running actor does to the numbers of its journal. -/
inductive Moved (st : Storage) (l : Live S) : Node S → Prop
  | kept {st' : Storage} {life : Life S} : st'.journal = st.journal →
      (∀ c ∈ st'.checkpoints.rows,
        c ∈ st.checkpoints.rows ∨ c.sequence = l.facet.messageSequence) →
      (∀ l', life = .up l' → l'.facet.messageSequence = l.facet.messageSequence ∧
        Trails l'.facet.checkpointState l.facet.messageSequence) → Moved st l ⟨st', life⟩
  | appended {st' : Storage} {l' : Live S} {entries : List Entry} :
      st'.journal.rows = st.journal.rows ++ numberFrom l.facet.messageSequence entries →
      st'.Ordered → st'.checkpoints = st.checkpoints →
      l'.facet.messageSequence = l.facet.messageSequence + entries.length →
      l'.facet.checkpointState = l.facet.checkpointState → Moved st l ⟨st', .up l'⟩

/-- No number of the journal is after the facet's, which the checkpoint manager trails. -/
structure Ahead (st : Storage) (l : Live S) : Prop where
  journal : st.lastSequence ≤ l.facet.messageSequence
  trails : Trails l.facet.checkpointState l.facet.messageSequence

section StepUp

variable {st : Storage} {l : Live S}

theorem moved_self (htrails : Trails l.facet.checkpointState l.facet.messageSequence) :
    Moved st l ⟨st, .up l⟩ := by
  refine .kept rfl (fun c hc => .inl hc) ?_
  rintro l' ⟨⟩
  exact ⟨rfl, htrails⟩

theorem moved_saved {st' : Storage} {life : Life S}
    (hst : st' = st ∨ ∃ d c, u.manager.createCheckpoint l.facet.messageSequence d = .ok c ∧
      st' = st.saveCheckpoint c)
    (hlife : ∀ l', life = .up l' → l'.facet.messageSequence = l.facet.messageSequence ∧
      Trails l'.facet.checkpointState l.facet.messageSequence) : Moved st l ⟨st', life⟩ := by
  rcases hst with rfl | ⟨d, c, hcreate, rfl⟩
  · exact .kept rfl (fun c hc => .inl hc) hlife
  · refine .kept rfl ?_ hlife
    intro c' hc'
    rcases Table.mem_insertOrReplace hc' with rfl | hc'
    · exact .inr (CheckpointManager.createCheckpoint_ok hcreate).1
    · exact .inl hc'

theorem periodicCheckpoint_trails (u : Setup S) {f : DurabilityFacet} (st : Storage) (s : S)
    (now : Nat) (h : Trails f.checkpointState f.messageSequence) :
    Trails (u.periodicCheckpoint f st s now).2.1.checkpointState f.messageSequence := by
  unfold Setup.periodicCheckpoint
  split_ifs
  · rcases u.captureState s with e | (_ | d)
    · exact h
    · exact h
    · rw [DurabilityFacet.checkpointed_checkpointState]
      exact u.manager.maybeCheckpoint_trails h st now d
  · exact h

theorem beforeMethod_moved (hordered : st.Ordered) (h : Ahead st l) (method : String)
    (args : Bytes) : Moved st l (stepUp u st l (.beforeMethod method args)) := by
  rcases hphase : l.phase with _ | _ | _ | _
  · rcases hid : l.facet.actorId with _ | actorId
    · have hbefore : l.facet.beforeMethod st method args =
          (.error (.interceptionFailed "Actor ID not set"), l.facet, st) := by
        rw [DurabilityFacet.beforeMethod, hid]
      simp only [stepUp, hphase, hbefore]
      refine .kept rfl (fun c hc => .inl hc) ?_
      rintro l' ⟨⟩
      exact ⟨rfl, h.trails⟩
    · obtain ⟨st', happend, hrows, hordered', hcheckpoints⟩ :=
        Storage.appendEntry_of_le hordered h.journal (.messageReceived method args)
      have hbefore : l.facet.beforeMethod st method args =
          (.ok (), { l.facet with messageSequence := l.facet.messageSequence + 1 }, st') := by
        simp only [DurabilityFacet.beforeMethod, hid, happend]
      simp only [stepUp, hphase, hbefore]
      exact .appended hrows hordered' hcheckpoints rfl rfl
  all_goals
    simp only [stepUp, hphase]
    exact moved_self h.trails

theorem journalOutcome_moved (hordered : st.Ordered) (h : Ahead st l) (result : Bytes)
    (sideEffects : List SideEffectEntry) :
    Moved st l (stepUp u st l (.journalOutcome result sideEffects)) := by
  rcases hphase : l.phase with _ | _ | _ | _
  case applied =>
      rcases hid : l.facet.actorId with _ | actorId
      · have hjournal : l.facet.journalOutcome st result sideEffects =
            (.error (.interceptionFailed "Actor ID not set"), l.facet, st) := by
          rw [DurabilityFacet.journalOutcome, hid]
        simp only [stepUp, hphase, hjournal]
        refine .kept rfl (fun c hc => .inl hc) ?_
        rintro l' ⟨⟩
        exact ⟨rfl, h.trails⟩
      · obtain ⟨st', happend, hrows, hordered', hcheckpoints⟩ := Storage.appendBatch_of_le hordered
          h.journal (DurabilityFacet.outcomeEntries result sideEffects)
        have hjournal : l.facet.journalOutcome st result sideEffects =
            (.ok (), { l.facet with messageSequence := l.facet.messageSequence +
              (DurabilityFacet.outcomeEntries result sideEffects).length }, st') := by
          simp only [DurabilityFacet.journalOutcome, hid, happend]
        simp only [stepUp, hphase, hjournal]
        exact .appended hrows hordered' hcheckpoints rfl rfl
  all_goals
    simp only [stepUp, hphase]
    exact moved_self h.trails

theorem stepUp_moved (hordered : st.Ordered) (h : Ahead st l) (a : Action) :
    Moved st l (stepUp u st l a) := by
  cases a with
  | attach => exact moved_self h.trails
  | detach => exact moved_self h.trails
  | crash =>
      refine .kept rfl (fun c hc => .inl hc) ?_
      intro l' hl'
      cases hl'
  | beforeMethod method args => exact beforeMethod_moved hordered h method args
  | transition =>
      rcases l with ⟨f, s, _ | _ | _ | _⟩
      · exact moved_self h.trails
      · refine .kept rfl (fun c hc => .inl hc) ?_
        rintro l' ⟨⟩
        exact ⟨rfl, h.trails⟩
      · exact moved_self h.trails
      · exact moved_self h.trails
  | journalOutcome result sideEffects => exact journalOutcome_moved hordered h result sideEffects
  | periodicCheckpoint now =>
      rcases l with ⟨f, s, _ | _ | _ | _⟩
      · exact moved_self h.trails
      · exact moved_self h.trails
      · exact moved_self h.trails
      · simp only [stepUp]
        refine moved_saved (u := u) ?_ ?_
        · refine (u.periodicCheckpoint_storage f st s now).imp_right ?_
          rintro ⟨d, -, c, hcreate, hst⟩
          exact ⟨d, c, hcreate, hst⟩
        · rintro l' ⟨⟩
          exact ⟨u.periodicCheckpoint_sequence f st s now,
            periodicCheckpoint_trails u st s now h.trails⟩
  | onExit now =>
      simp only [stepUp]
      refine moved_saved (u := u) ?_ ?_
      · refine (u.onExit_storage l.facet st now).imp_right ?_
        rintro ⟨-, c, hcreate, hst⟩
        exact ⟨[], c, hcreate, hst⟩
      · rintro l' ⟨⟩
        exact ⟨rfl, u.manager.maybeCheckpoint_trails h.trails st now []⟩
  | terminateStart now =>
      simp only [stepUp]
      refine moved_saved (u := u) ?_ ?_
      · refine (u.onTerminateStart_storage l.facet st l.state now).imp_right ?_
        rintro ⟨d, -, c, hcreate, hst⟩
        exact ⟨d, c, hcreate, hst⟩
      · intro l' hl'
        cases hl'

end StepUp

/-- The facet of a running actor is ahead of its journal. -/
structure Intact (n : Node S) : Prop where
  ordered : n.storage.Ordered
  ahead : ∀ l, n.life = .up l → Ahead n.storage l

/-- The facet of a running actor is ahead of its checkpoints. -/
def Above (n : Node S) : Prop :=
  ∀ l, n.life = .up l → ∀ c ∈ n.storage.checkpoints.rows, c.sequence ≤ l.facet.messageSequence

theorem intact_of_moved {l : Live S} (h : n.Intact) (hahead : Ahead n.storage l) {n' : Node S}
    (hmoved : Moved n.storage l n') : n'.Intact := by
  cases hmoved with
  | kept hjournal _ hlife =>
      refine ⟨?_, ?_⟩
      · rw [Storage.Ordered, hjournal]
        exact h.ordered
      · intro l' hl'
        obtain ⟨hsequence, htrails⟩ := hlife l' hl'
        refine ⟨?_, hsequence ▸ htrails⟩
        rw [Storage.lastSequence, hjournal, hsequence]
        exact hahead.journal
  | @appended st' l' entries hrows hordered _ hsequence hstate =>
      refine ⟨hordered, ?_⟩
      rintro l'' ⟨⟩
      have hle : l.facet.messageSequence ≤ l'.facet.messageSequence := by omega
      refine ⟨?_, ?_⟩
      · refine Log.last_le ?_
        intro e he
        rw [hrows] at he
        rcases List.mem_append.mp he with he | he
        · exact ((h.ordered.le_last he).trans hahead.journal).trans hle
        · have hmem : e.sequence ∈ (numberFrom l.facet.messageSequence entries).map
              JournalEntry.sequence := List.mem_map_of_mem he
          rw [Storage.numberFrom_sequence, Storage.length_numberFrom] at hmem
          have := (List.mem_range'_1.mp hmem).2
          omega
      · rw [hstate]
        exact hahead.trails.mono hle

theorem above_of_moved {l : Live S} (habove : ∀ c ∈ n.storage.checkpoints.rows,
    c.sequence ≤ l.facet.messageSequence) {n' : Node S} (hmoved : Moved n.storage l n') :
    n'.Above := by
  cases hmoved with
  | kept _ hcheckpoints hlife =>
      intro l' hl' c hc
      rw [(hlife l' hl').1]
      exact (hcheckpoints c hc).elim (habove c) le_of_eq
  | appended _ _ hcheckpoints hsequence _ =>
      rintro l'' ⟨⟩ c hc
      rw [hcheckpoints] at hc
      have := habove c hc
      omega

/-- A step of an actor that does not run attaches a facet or keeps the storage. -/
theorem step_down {n : Node S} (hlife : ∀ l, n.life ≠ .up l) (a : Action) :
    (step u n a).storage = n.storage ∧ ∀ l, (step u n a).life = .up l →
      a = .attach ∧ n.life = .down ∧ l.facet = u.attachedFacet n.storage := by
  rcases hn : n.life with _ | l | _
  · cases a with
    | attach =>
        rcases hattach : u.onAttach n.storage with e | ⟨f, s⟩
        · simp [step, hn, hattach]
        · simp only [step, hn, hattach, true_and]
          rintro l ⟨⟩
          exact onAttach_facet hattach
    | _ => simp [step, hn]
  · exact absurd hn (hlife l)
  · cases a <;> simp [step, hn]

theorem intact_step (h : n.Intact) (a : TruncAction) : (truncStep u n a).Intact := by
  cases a with
  | truncateTo sequence =>
      refine ⟨List.Pairwise.filter _ h.ordered, ?_⟩
      intro l hl
      have hahead := h.ahead l hl
      refine ⟨?_, hahead.trails⟩
      refine Log.last_le ?_
      intro e he
      exact (h.ordered.le_last (List.mem_filter.mp he).1).trans hahead.journal
  | life a =>
      by_cases hup : ∃ l, n.life = .up l
      · obtain ⟨l, hlife⟩ := hup
        have hahead := h.ahead l hlife
        simp only [truncStep, step, hlife]
        exact intact_of_moved h hahead (stepUp_moved h.ordered hahead a)
      · obtain ⟨hst, hattached⟩ := step_down (u := u) (not_exists.mp hup) a
        refine ⟨?_, ?_⟩
        · rw [truncStep, hst]
          exact h.ordered
        · intro l hl
          obtain ⟨-, -, hfacet⟩ := hattached l hl
          rw [truncStep, hst]
          refine ⟨?_, ?_⟩
          · rw [hfacet, attachedFacet_sequence h.ordered]
          · intro state hstate
            rw [hfacet] at hstate
            cases hstate

theorem above_step (h : n.Intact) (habove : n.Above) (a : TruncAction) (hreach : Reaching n a) :
    (truncStep u n a).Above := by
  cases a with
  | truncateTo sequence => exact habove
  | life a =>
      by_cases hup : ∃ l, n.life = .up l
      · obtain ⟨l, hlife⟩ := hup
        simp only [truncStep, step, hlife]
        exact above_of_moved (habove l hlife) (stepUp_moved h.ordered (h.ahead l hlife) a)
      · obtain ⟨hst, hattached⟩ := step_down (u := u) (not_exists.mp hup) a
        intro l hl c hc
        obtain ⟨rfl, hdown, hfacet⟩ := hattached l hl
        rw [truncStep, hst] at hc
        rw [hfacet, attachedFacet_sequence h.ordered]
        exact hreach hdown c hc

theorem replayable_step (h : n.Intact) (habove : n.Above) (a : TruncAction) :
    Replayable u n a := by
  refine ⟨?_, fun l hl => (h.ahead l hl).trails⟩
  intro e he hnew c hc
  cases a with
  | truncateTo sequence => exact absurd (List.mem_filter.mp he).1 hnew
  | life a =>
      have hlt : c.sequence < e.sequence := by
        by_cases hup : ∃ l, n.life = .up l
        · obtain ⟨l, hlife⟩ := hup
          have hmoved := stepUp_moved (u := u) h.ordered (h.ahead l hlife) a
          simp only [truncStep, step, hlife] at he
          generalize stepUp u n.storage l a = n' at he hmoved
          cases hmoved with
          | kept hjournal _ _ =>
              rw [hjournal] at he
              exact absurd he hnew
          | appended hrows _ _ _ _ =>
              rw [hrows] at he
              have hmem := (List.mem_append.mp he).resolve_left hnew
              exact (habove l hlife c hc).trans_lt (Storage.lt_sequence_of_mem_numberFrom hmem)
        · rw [truncStep, (step_down (not_exists.mp hup) a).1] at he
          exact absurd he hnew
      refine ⟨hlt, ?_⟩
      rw [Storage.replayFrom, List.mem_insertionSort]
      exact List.mem_filter.mpr ⟨he, decide_eq_true hlt⟩

theorem intact_start : (start : Node S).Intact := by
  refine ⟨List.Pairwise.nil, ?_⟩
  intro l hl
  cases hl

/-- The difference in `maybe_checkpoint` does not underflow, however the journal is truncated. -/
theorem never_underflows (u : Setup S) (as : List TruncAction) (l : Live S)
    (hlife : (run (truncStep u) start as).life = .up l) :
    Trails l.facet.checkpointState l.facet.messageSequence :=
  ((run_invariant (I := Intact) (fun a _ _ h => intact_step h a) intact_start).ahead l
    hlife).trails

/-- In a run in which the journal reaches up to the latest checkpoint whenever a facet is
attached, an entry is appended under a number after those of all checkpoints saved so far, so
that the replay finds it, and the difference in `maybe_checkpoint` does not underflow. -/
theorem appended_after_checkpoints (u : Setup S) (as : List TruncAction)
    (hrun : Along (truncStep u) Reaching start as) :
    Along (truncStep u) (Replayable u) start as := by
  refine hrun.of_invariant (I := fun n => Intact n ∧ Above n) ?_ ⟨intact_start, ?_⟩
  · rintro n a ⟨h, habove⟩ hreach
    exact ⟨replayable_step h habove a, intact_step h a, above_step h habove a hreach⟩
  · intro l hl
    cases hl

section Counter

def counter : Setup Nat where
  actorId := "counter"
  config := ⟨0, none, true, 0, 1⟩
  codecs := ⟨none, none⟩
  init := 0
  handle := fun s _ _ => s + 1
  replayHandler := some fun s _ _ => .ok (s + 1)
  adapter := some ⟨fun _ => .ok (some []), fun _ => .ok (some 1)⟩
  loader := none

/-- One message is handled and the actor is stopped. -/
def stopped : List TruncAction :=
  [.life .attach, .life (.beforeMethod "inc" []), .life .transition,
    .life (.journalOutcome [] []), .life (.terminateStart 0), .life .detach]

def stoppedCheckpoint : Checkpoint := ⟨2, [], 0, 1⟩

theorem appended_after_checkpoints_counter :
    Along (truncStep counter) (Replayable counter) start
      (stopped ++ [.truncateTo 1, .life .attach, .life (.beforeMethod "inc" [])]) := by
  have hcheckpoints : (run (truncStep counter) start
      (stopped ++ [.truncateTo 1])).storage.checkpoints.rows = [stoppedCheckpoint] := by
    decide +kernel
  have hlast : (run (truncStep counter) start
      (stopped ++ [.truncateTo 1])).storage.lastSequence = 2 := by decide +kernel
  refine appended_after_checkpoints counter _ ?_
  simp only [stopped, List.cons_append, List.nil_append, along_cons, Reaching, true_and]
  refine ⟨?_, ?_, trivial⟩
  · intro _ c hc
    cases hc
  · intro _ c hc
    change c ∈ (run (truncStep counter) start
      (stopped ++ [.truncateTo 1])).storage.checkpoints.rows at hc
    change c.sequence ≤ (run (truncStep counter) start
      (stopped ++ [.truncateTo 1])).storage.lastSequence
    rw [hcheckpoints, List.mem_singleton] at hc
    rw [hlast, hc]
    exact le_rfl

/-- All that the checkpoint covers is deleted, and the actor is started again. -/
def truncated : List TruncAction := stopped ++ [.truncateTo 2, .life .attach]

theorem covered_truncated : Along (truncStep counter) Covered start
    (truncated ++ [.life (.beforeMethod "inc" [])]) := by
  simp only [truncated, stopped, List.cons_append, List.nil_append, along_cons, Covered,
    true_and]
  refine ⟨⟨stoppedCheckpoint, ?_, le_rfl⟩, trivial⟩
  decide +kernel

/-- The next message then gets the number 1 again, which no replay gets to. -/
theorem not_replayed_after_truncation :
    ¬∀ (u : Setup Nat) (as : List TruncAction), Along (truncStep u) Covered start as →
      Along (truncStep u) (Replayable u) start as := by
  intro h
  have hreplayable := ((along_concat _ _ _ _).mp (h counter _ covered_truncated)).2
  have hcheckpoints : (run (truncStep counter) start truncated).storage.checkpoints.rows =
      [stoppedCheckpoint] := by decide +kernel
  have hbefore : (run (truncStep counter) start truncated).storage.journal.rows = [] := by
    decide +kernel
  have hafter : (truncStep counter (run (truncStep counter) start truncated)
      (.life (.beforeMethod "inc" []))).storage.journal.rows =
        [⟨1, .messageReceived "inc" []⟩] := by decide +kernel
  generalize run (truncStep counter) start truncated = n at *
  have hlt := (hreplayable.1 ⟨1, .messageReceived "inc" []⟩ (by simp [hafter]) (by simp [hbefore])
    stoppedCheckpoint (by simp [hcheckpoints])).1
  exact absurd hlt (by decide)

end Counter

end Node

end PlexSpaces.Journaling
