import PlexSpaces.Journaling.Promises
import PlexSpaces.Journaling.Truncation
/-!
# The cadence of checkpoints

`after_method` turns to the checkpoint manager when the last number of a message is divisible by
the interval, and the manager then saves a checkpoint when its last one is an interval away.  A
message has two entries or more, so its last number can step over the multiples of the interval,
and the checkpoint is put off for as long as it does (`not_keeps_cadence`).  The entries since
the last checkpoint stay bounded exactly in the runs in which a message that comes when a
checkpoint is due ends at a multiple of the interval (`keeps_cadence_iff`).
-/

namespace PlexSpaces.Journaling

open PlexSpaces.Lib

variable {S : Type}

namespace Storage

/-- The number of the last checkpoint, `0` before the first one. -/
def lastCheckpoint (st : Storage) : Nat := Log.last Checkpoint.sequence st.checkpoints.rows

/-- How many entries have been appended since the last checkpoint, or since the start. -/
def sinceCheckpoint (st : Storage) : Nat :=
  st.journal.rows.countP fun e => st.lastCheckpoint < e.sequence

/-- The journal has the numbers from 1 on, each once. -/
def Dense (st : Storage) : Prop :=
  st.journal.rows.map JournalEntry.sequence = List.range' 1 st.journal.rows.length

end Storage

def messageEntries (result : Bytes) (sideEffects : List SideEffectEntry) : Nat :=
  1 + (DurabilityFacet.outcomeEntries result sideEffects).length

namespace PromiseNode

/-- A message can be interrupted anywhere by the actions; a call of `after_method` runs to its
end. -/
inductive Call
  | action (a : PromiseAction)
  | afterMethod (result : Bytes) (sideEffects : List SideEffectEntry) (now : Nat)

def callStep (u : Setup S) (n : PromiseNode S) : Call → PromiseNode S
  | .action a => n.step u a
  | .afterMethod result sideEffects now =>
      run (step u) n
        [.node (.journalOutcome result sideEffects), .node (.periodicCheckpoint now)]

/-- What is claimed of a step: an `after_method` that succeeds leaves fewer entries since the
last checkpoint than the interval and its own message have together. -/
def KeepsCadence (u : Setup S) (n : PromiseNode S) : Call → Prop
  | .action _ => True
  | .afterMethod result sideEffects now =>
      ∀ l, n.node.life = .up l → l.phase = .applied →
        (u.afterMethod l.facet n.node.storage l.state result sideEffects now).1 = .ok () →
        (n.callStep u (.afterMethod result sideEffects now)).node.storage.sinceCheckpoint <
          u.config.checkpointInterval + messageEntries result sideEffects

/-- A message that came when as many entries as the interval had been appended since the last
checkpoint ends at a multiple of the interval. -/
def Hits (u : Setup S) (n : PromiseNode S) : Call → Prop
  | .action _ => True
  | .afterMethod result sideEffects _ =>
      ∀ l, n.node.life = .up l → l.phase = .applied →
        u.config.checkpointInterval < n.node.storage.sinceCheckpoint →
        (l.facet.messageSequence + (DurabilityFacet.outcomeEntries result sideEffects).length) %
          u.config.checkpointInterval = 0

end PromiseNode

/-! ## Counting the entries -/

theorem countP_range' (n k : Nat) : (List.range' 1 n).countP (fun i => decide (k < i)) = n - k := by
  induction n with
  | zero => simp
  | succ n ih =>
      rw [List.range'_1_concat, List.countP_append, ih, List.countP_singleton]
      by_cases hlt : k < 1 + n
      · rw [if_pos (decide_eq_true hlt)]
        omega
      · rw [if_neg (by simpa using hlt)]
        omega

namespace Storage

variable {st st' : Storage} {entries : List Entry}

@[simp] theorem lastCheckpoint_saveCheckpoint (st : Storage) (c : Checkpoint) :
    (st.saveCheckpoint c).lastCheckpoint = c.sequence :=
  Log.last_concat _ c

theorem Extends.lastCheckpoint (h : st.Extends st' entries) :
    st'.lastCheckpoint = st.lastCheckpoint := by
  rw [Storage.lastCheckpoint, h.checkpoints, Storage.lastCheckpoint]

theorem Dense.lastSequence (h : st.Dense) : st.lastSequence = st.journal.rows.length := by
  have hlast : Log.last JournalEntry.sequence ([] ++ st.journal.rows) =
      0 + st.journal.rows.length := Log.last_append_range' rfl h
  rw [List.nil_append, Nat.zero_add] at hlast
  exact hlast

theorem Dense.sinceCheckpoint (h : st.Dense) :
    st.sinceCheckpoint = st.lastSequence - st.lastCheckpoint := by
  have hmap : st.sinceCheckpoint =
      (st.journal.rows.map JournalEntry.sequence).countP
        (fun i => decide (st.lastCheckpoint < i)) := by
    rw [List.countP_map]
    rfl
  rw [hmap, h, countP_range', h.lastSequence]

theorem Dense.extends (h : st.Dense) (hext : st.Extends st' entries) : st'.Dense := by
  unfold Dense
  rw [hext.rows, List.map_append, numberFrom_sequence, h, List.length_append, h.lastSequence,
    Nat.add_comm _ 1, List.range'_append_1]

theorem Dense.of_journal (h : st.Dense) (hjournal : st'.journal = st.journal) : st'.Dense := by
  unfold Dense
  rw [hjournal]
  exact h

theorem dense_new : Storage.new.Dense := rfl

end Storage

/-! ## The last checkpoint of the manager -/

namespace CheckpointManager

/-- The checkpoint manager's last checkpoint is none that was not saved. -/
theorem maybeCheckpoint_trails_last {m : CheckpointManager}
    (htrunc : m.config.autoTruncate = false) {actorState : Option ActorCheckpointState}
    {st : Storage} (h : Trails actorState st.lastCheckpoint) (now sequence : Nat)
    (stateData : Bytes) :
    Trails (m.maybeCheckpoint actorState st now sequence stateData).2.1
      (m.maybeCheckpoint actorState st now sequence stateData).2.2.lastCheckpoint := by
  have hdefault := h.getD now
  unfold maybeCheckpoint
  by_cases henabled : m.config.enabled = false
  · rw [if_pos henabled]
    exact h
  rw [if_neg henabled]
  by_cases hreached : m.entryIntervalReached (actorState.getD ⟨0, now⟩) sequence = false ∧
      m.timeIntervalReached (actorState.getD ⟨0, now⟩) now = false
  · simp only [if_pos hreached]
    rintro state ⟨⟩
    exact hdefault
  simp only [if_neg hreached]
  rcases hcreate : m.createCheckpoint sequence stateData with e | c
  · rintro state ⟨⟩
    exact hdefault
  · rintro state ⟨⟩
    simp [htrunc, (createCheckpoint_ok hcreate).1]

/-- A call that succeeds leaves less than the interval since the last checkpoint. -/
theorem maybeCheckpoint_distance {m : CheckpointManager} (htrunc : m.config.autoTruncate = false)
    (henabled : m.config.enabled = true) (hinterval : 0 < m.config.entryInterval)
    {actorState : Option ActorCheckpointState} {st : Storage}
    (h : Trails actorState st.lastCheckpoint) (now sequence : Nat) (stateData : Bytes)
    (hok : ∃ saved, (m.maybeCheckpoint actorState st now sequence stateData).1 = .ok saved) :
    sequence - (m.maybeCheckpoint actorState st now sequence stateData).2.2.lastCheckpoint <
      m.config.entryInterval := by
  have hdefault := h.getD now
  unfold maybeCheckpoint at hok ⊢
  rw [if_neg (by simp [henabled])] at hok ⊢
  by_cases hreached : m.entryIntervalReached (actorState.getD ⟨0, now⟩) sequence = false ∧
      m.timeIntervalReached (actorState.getD ⟨0, now⟩) now = false
  · simp only [if_pos hreached]
    have hnot := hreached.1
    rw [entryIntervalReached, decide_eq_true hinterval, Bool.true_and, decide_eq_false_iff_not]
      at hnot
    omega
  simp only [if_neg hreached] at hok ⊢
  rcases hcreate : m.createCheckpoint sequence stateData with e | c
  · rw [hcreate] at hok
    obtain ⟨saved, hsaved⟩ := hok
    cases hsaved
  · have hsaved := (createCheckpoint_ok hcreate).1
    simp only [htrunc, Bool.false_eq_true, false_and, if_false,
      Storage.lastCheckpoint_saveCheckpoint, hsaved]
    omega

end CheckpointManager

namespace Setup

variable {u : Setup S} {f : DurabilityFacet} {st : Storage}

theorem periodicCheckpoint_actorId (u : Setup S) (f : DurabilityFacet) (st : Storage) (s : S)
    (now : Nat) : (u.periodicCheckpoint f st s now).2.1.actorId = f.actorId := by
  unfold periodicCheckpoint
  split_ifs
  · rcases u.captureState s with e | (_ | d)
    · rfl
    · rfl
    · exact DurabilityFacet.checkpointed_actorId _ _
  · rfl

theorem periodicCheckpoint_trails_last (h : Trails f.checkpointState st.lastCheckpoint) (s : S)
    (now : Nat) :
    Trails (u.periodicCheckpoint f st s now).2.1.checkpointState
      (u.periodicCheckpoint f st s now).2.2.lastCheckpoint := by
  unfold periodicCheckpoint
  split_ifs
  · rcases u.captureState s with e | (_ | d)
    · exact h
    · exact h
    · dsimp only
      rw [DurabilityFacet.checkpointed_checkpointState, DurabilityFacet.checkpointed_storage]
      exact CheckpointManager.maybeCheckpoint_trails_last (m := u.manager) rfl h now _ d
  · exact h

theorem periodicCheckpoint_distance (hinterval : 0 < u.config.checkpointInterval) {s : S}
    {d : Bytes} (hcapture : u.captureState s = .ok (some d))
    (h : Trails f.checkpointState st.lastCheckpoint)
    (hmultiple : f.messageSequence % u.config.checkpointInterval = 0) (now : Nat)
    (hok : (u.periodicCheckpoint f st s now).1 = .ok ()) :
    f.messageSequence - (u.periodicCheckpoint f st s now).2.2.lastCheckpoint <
      u.config.checkpointInterval := by
  unfold periodicCheckpoint at hok ⊢
  rw [if_pos ⟨hinterval, hmultiple⟩, hcapture] at hok ⊢
  dsimp only at hok ⊢
  rw [DurabilityFacet.checkpointed_storage]
  exact CheckpointManager.maybeCheckpoint_distance (m := u.manager) rfl
    (decide_eq_true hinterval) hinterval h now _ d (DurabilityFacet.of_checkpointed_ok hok)

theorem periodicCheckpoint_of_not_multiple
    (hmultiple : f.messageSequence % u.config.checkpointInterval ≠ 0) (s : S) (now : Nat) :
    u.periodicCheckpoint f st s now = (.ok (), f, st) :=
  if_neg fun h => hmultiple h.2

end Setup

/-! ## The invariant -/

namespace Storage

variable {st st' : Storage}

theorem checkpoints_of_appendEntry {e : JournalEntry} (h : st.appendEntry e = .ok st') :
    st'.checkpoints = st.checkpoints := by
  unfold appendEntry at h
  split at h <;> cases h
  rfl

theorem checkpoints_of_appendBatch {es : List JournalEntry} (h : st.appendBatch es = .ok st') :
    st'.checkpoints = st.checkpoints := by
  unfold appendBatch at h
  split at h <;> cases h
  rfl

end Storage

/-- A facet that goes on with this storage: the same actor, and the checkpoint manager's last
checkpoint is again none that was not saved. -/
structure DurabilityFacet.Follows (f : DurabilityFacet) (st : Storage) (f' : DurabilityFacet)
    (st' : Storage) : Prop where
  actorId : f'.actorId = f.actorId
  trails : Trails f.checkpointState st.lastCheckpoint →
    Trails f'.checkpointState st'.lastCheckpoint

namespace DurabilityFacet

variable (f : DurabilityFacet) (st : Storage)

theorem follows_self : f.Follows st f st := ⟨rfl, id⟩

theorem follows_renumbered (sequence : Nat) {st' : Storage}
    (h : st'.checkpoints = st.checkpoints) :
    f.Follows st { f with messageSequence := sequence } st' := by
  refine ⟨rfl, ?_⟩
  rw [Storage.lastCheckpoint, Storage.lastCheckpoint, h]
  exact id

theorem beforeMethod_follows (method : String) (args : Bytes) :
    f.Follows st (f.beforeMethod st method args).2.1 (f.beforeMethod st method args).2.2 := by
  unfold beforeMethod
  split
  · exact f.follows_self st
  · dsimp only
    split
    · exact f.follows_renumbered st _ rfl
    · next happend =>
        exact f.follows_renumbered st _ (Storage.checkpoints_of_appendEntry happend)

theorem journalOutcome_follows (result : Bytes) (sideEffects : List SideEffectEntry) :
    f.Follows st (f.journalOutcome st result sideEffects).2.1
      (f.journalOutcome st result sideEffects).2.2 := by
  unfold journalOutcome
  split
  · exact f.follows_self st
  · dsimp only
    split
    · exact f.follows_renumbered st _ rfl
    · next happend =>
        exact f.follows_renumbered st _ (Storage.checkpoints_of_appendBatch happend)

theorem periodicCheckpoint_follows (u : Setup S) (s : S) (now : Nat) :
    f.Follows st (u.periodicCheckpoint f st s now).2.1 (u.periodicCheckpoint f st s now).2.2 :=
  ⟨u.periodicCheckpoint_actorId f st s now,
    fun h => Setup.periodicCheckpoint_trails_last h s now⟩

theorem onExit_follows (u : Setup S) (now : Nat) :
    f.Follows st (u.onExit f st now).1 (u.onExit f st now).2 :=
  ⟨rfl, fun h => CheckpointManager.maybeCheckpoint_trails_last (m := u.manager) rfl h now
    f.messageSequence []⟩

end DurabilityFacet

namespace Node

variable {u : Setup S} {n : Node S}

theorem stepUp_follows (st : Storage) (l : Live S) (a : Action) :
    ∀ l', (stepUp u st l a).life = .up l' →
      l.facet.Follows st l'.facet (stepUp u st l a).storage := by
  obtain ⟨f, s, phase⟩ := l
  have hself : ∀ phase' s' l', (⟨st, .up ⟨f, s', phase'⟩⟩ : Node S).life = .up l' →
      f.Follows st l'.facet st := by
    rintro phase' s' l' ⟨⟩
    exact f.follows_self st
  cases a with
  | attach => exact hself phase s
  | detach => exact hself phase s
  | crash => nofun
  | beforeMethod method args =>
      cases phase with
      | idle =>
          obtain ⟨phase, hstep⟩ := stepUp_beforeMethod u st f s method args
          rw [hstep]
          rintro l' ⟨⟩
          exact f.beforeMethod_follows st method args
      | received _ _ => exact hself _ s
      | applied => exact hself _ s
      | processed => exact hself _ s
  | transition => cases phase <;> exact hself _ _
  | journalOutcome result sideEffects =>
      cases phase with
      | applied =>
          obtain ⟨phase, hstep⟩ := stepUp_journalOutcome u st f s result sideEffects
          rw [hstep]
          rintro l' ⟨⟩
          exact f.journalOutcome_follows st result sideEffects
      | idle => exact hself _ s
      | received _ _ => exact hself _ s
      | processed => exact hself _ s
  | periodicCheckpoint now =>
      cases phase with
      | processed =>
          rintro l' ⟨⟩
          exact f.periodicCheckpoint_follows st u s now
      | idle => exact hself _ s
      | received _ _ => exact hself _ s
      | applied => exact hself _ s
  | onExit now =>
      rintro l' ⟨⟩
      exact f.onExit_follows st u now
  | terminateStart now => nofun

/-- The journal has every number up to the facet's, and the checkpoint manager of a running
actor knows of no checkpoint that was not saved. -/
structure Paced (n : Node S) : Prop where
  numbered : n.Numbered
  dense : n.storage.Dense
  attached : ∀ l, n.life = .up l → l.facet.actorId ≠ none
  trails : ∀ l, n.life = .up l → Trails l.facet.checkpointState n.storage.lastCheckpoint

theorem paced_start : (start : Node S).Paced :=
  ⟨numbered_start, Storage.dense_new, nofun, nofun⟩

theorem dense_step (h : n.Paced) (a : Action) : (step u n a).storage.Dense := by
  rcases journal_step (u := u) h.numbered a with hjournal | ⟨entries, -, hext⟩
  · exact h.dense.of_journal hjournal
  · exact h.dense.extends hext

theorem paced_step (h : n.Paced) (a : Action) : (step u n a).Paced := by
  by_cases hup : ∃ l, n.life = .up l
  · obtain ⟨l, hlife⟩ := hup
    have hfollows := stepUp_follows (u := u) n.storage l a
    have hstep : step u n a = stepUp u n.storage l a := by simp only [step, hlife]
    rw [← hstep] at hfollows
    refine ⟨numbered_step h.numbered a, dense_step h a, ?_, ?_⟩
    · intro l' hl'
      rw [(hfollows l' hl').actorId]
      exact h.attached l hlife
    · intro l' hl'
      exact (hfollows l' hl').trails (h.trails l hlife)
  · have hattached := (step_down (u := u) (not_exists.mp hup) a).2
    refine ⟨numbered_step h.numbered a, dense_step h a, ?_, ?_⟩
    · intro l' hl' hattach
      rw [(hattached l' hl').2.2] at hattach
      cases hattach
    · intro l' hl' state hstate
      rw [(hattached l' hl').2.2] at hstate
      cases hstate

end Node

namespace PromiseNode

variable {u : Setup S} {n : PromiseNode S}

theorem Calls.paced {r : Except JournalError Unit × PromiseNode S} {allowed : Prop}
    {entry : Entry} {promises : PromiseMaps} (h : n.Calls r allowed entry promises)
    (hpaced : n.node.Paced) : r.2.node.Paced := by
  have hnumbered := h.numbered hpaced.numbered
  rcases h with ⟨e, rfl⟩ | ⟨-, l, st', hlife, hext, rfl⟩
  · exact hpaced
  · have hfollows := l.facet.follows_renumbered n.node.storage st'.lastSequence hext.checkpoints
    refine ⟨hnumbered, hpaced.dense.extends hext, ?_, ?_⟩
    · rintro l' ⟨⟩
      exact hpaced.attached l hlife
    · rintro l' ⟨⟩
      exact hfollows.trails (hpaced.trails l hlife)

theorem paced_step (h : n.node.Paced) (a : PromiseAction) : (n.step u a).node.Paced := by
  cases a with
  | node a =>
      rw [step_node]
      exact Node.paced_step h a
  | createPromise promiseId timeout =>
      exact (createPromise_calls h.numbered promiseId timeout).paced h
  | resolvePromise promiseId result =>
      exact (resolvePromise_calls h.numbered promiseId result).paced h

theorem callStep_afterMethod (u : Setup S) (n : PromiseNode S) (result : Bytes)
    (sideEffects : List SideEffectEntry) (now : Nat) :
    n.callStep u (.afterMethod result sideEffects now) =
      (n.step u (.node (.journalOutcome result sideEffects))).step u
        (.node (.periodicCheckpoint now)) := rfl

theorem paced_callStep (h : n.node.Paced) (c : Call) : (n.callStep u c).node.Paced := by
  cases c with
  | action a => exact paced_step h a
  | afterMethod result sideEffects now =>
      rw [callStep_afterMethod]
      exact paced_step (paced_step h _) _

/-! ## One message -/

theorem storage_afterMethod {l : Live S} (hlife : n.node.life = .up l)
    (hphase : l.phase = .applied) (result : Bytes) (sideEffects : List SideEffectEntry)
    (now : Nat) :
    (n.callStep u (.afterMethod result sideEffects now)).node.storage =
      (u.afterMethod l.facet n.node.storage l.state result sideEffects now).2.2 := by
  have hrun := Node.step_afterMethod (u := u) hlife hphase result sideEffects now
  rw [run_cons, run_cons, run_nil] at hrun
  rw [callStep_afterMethod, step_node, step_node, hrun]

/-- The outcome is journaled, and then a checkpoint may be saved. -/
theorem afterMethod_eq (h : n.node.Paced) {l : Live S} (hlife : n.node.life = .up l)
    (result : Bytes) (sideEffects : List SideEffectEntry) (now : Nat) :
    ∃ f' st', n.node.storage.Extends st' (DurabilityFacet.outcomeEntries result sideEffects) ∧
      f'.messageSequence = st'.lastSequence ∧ f'.checkpointState = l.facet.checkpointState ∧
      u.afterMethod l.facet n.node.storage l.state result sideEffects now =
        u.periodicCheckpoint f' st' l.state now := by
  have hseq := h.numbered.sequence l hlife
  obtain ⟨st', happend, hext⟩ := Storage.appendBatch_eq h.numbered.ordered
    (DurabilityFacet.outcomeEntries result sideEffects)
  rw [← hseq] at happend
  refine ⟨{ l.facet with messageSequence := st'.lastSequence }, st', hext, rfl, rfl, ?_⟩
  obtain ⟨actorId, hid⟩ := Option.ne_none_iff_exists'.mp (h.attached l hlife)
  have hjournal : l.facet.journalOutcome n.node.storage result sideEffects =
      (.ok (), { l.facet with messageSequence := st'.lastSequence }, st') := by
    rw [hext.last, ← hseq]
    unfold DurabilityFacet.journalOutcome
    simp only [hid, happend]
  rw [Setup.afterMethod, hjournal]

theorem periodicCheckpoint_journal (u : Setup S) (f : DurabilityFacet) (st : Storage)
    (s : S) (now : Nat) :
    (u.periodicCheckpoint f st s now).2.2.journal = st.journal := by
  rcases u.periodicCheckpoint_storage f st s now with hst | ⟨d, -, c, -, hst⟩
  · rw [hst]
  · rw [hst, Storage.saveCheckpoint_journal]

theorem keepsCadence_iff_hits (hinterval : 0 < u.config.checkpointInterval)
    (hyields : ∀ s, ∃ d, u.captureState s = .ok (some d)) (h : n.node.Paced) (c : Call) :
    n.KeepsCadence u c ↔ n.Hits u c := by
  cases c with
  | action a => exact Iff.rfl
  | afterMethod result sideEffects now =>
      refine forall₃_congr fun l hlife hphase => ?_
      obtain ⟨f', st', hext, hseq, hstate, hafter⟩ :=
        afterMethod_eq (u := u) h hlife result sideEffects now
      have hdense' := h.dense.extends hext
      have htrails : Trails f'.checkpointState st'.lastCheckpoint := by
        rw [hstate, hext.lastCheckpoint]
        exact h.trails l hlife
      have hlast := hext.last
      have hnext : l.facet.messageSequence +
          (DurabilityFacet.outcomeEntries result sideEffects).length = f'.messageSequence := by
        rw [hseq, hlast, h.numbered.sequence l hlife]
      rw [storage_afterMethod hlife hphase, hafter, hnext]
      by_cases hmultiple : f'.messageSequence % u.config.checkpointInterval = 0
      · refine iff_of_true ?_ fun _ => hmultiple
        intro hok
        obtain ⟨d, hcapture⟩ := hyields l.state
        have hdistance :=
          Setup.periodicCheckpoint_distance hinterval hcapture htrails hmultiple now hok
        have hjournal := periodicCheckpoint_journal u f' st' l.state now
        have hsince := (hdense'.of_journal hjournal).sinceCheckpoint
        have hsame : (u.periodicCheckpoint f' st' l.state now).2.2.lastSequence =
            f'.messageSequence := by
          rw [Storage.lastSequence, hjournal, hseq, Storage.lastSequence]
        omega
      · rw [Setup.periodicCheckpoint_of_not_multiple hmultiple]
        have hbefore := h.dense.sinceCheckpoint
        have hsince := hdense'.sinceCheckpoint
        rw [hext.lastCheckpoint] at hsince
        have hentries : messageEntries result sideEffects =
            1 + (DurabilityFacet.outcomeEntries result sideEffects).length := rfl
        constructor
        · intro hkeeps hdue
          have hfewer : st'.sinceCheckpoint <
              u.config.checkpointInterval + messageEntries result sideEffects := hkeeps rfl
          omega
        · intro hhits _
          by_contra hmore
          change ¬st'.sinceCheckpoint < _ at hmore
          refine hmultiple (hhits ?_)
          omega

/-- The entries since the last checkpoint stay bounded in a run exactly if every message that
comes when a checkpoint is due ends at a multiple of the interval. -/
theorem keeps_cadence_iff (u : Setup S) (hinterval : 0 < u.config.checkpointInterval)
    (hyields : ∀ s, ∃ d, u.captureState s = .ok (some d)) (cs : List Call) :
    Along (callStep u) (KeepsCadence u) start cs ↔ Along (callStep u) (Hits u) start cs :=
  along_congr (I := fun n => n.node.Paced)
    (fun _ c h => keepsCadence_iff_hits hinterval hyields h c)
    (fun _ c h _ => paced_callStep h c) Node.paced_start cs

section Logger

/-- An actor that saves a checkpoint on every fourth entry. -/
def logger : Setup Unit where
  actorId := "logger"
  config := parseConfig ⟨some 4, none, none, none⟩
  codecs := ⟨none, none⟩
  init := ()
  handle := fun s _ _ => s
  replayHandler := none
  adapter := some ⟨fun _ => .ok (some []), fun _ => .ok (some ())⟩
  loader := none

theorem logger_yields (s : Unit) : ∃ d, logger.captureState s = .ok (some d) := ⟨[], rfl⟩

def handled (sideEffects : List SideEffectEntry) : List Call :=
  [.action (.node (.beforeMethod "log" [])), .action (.node .transition),
    .afterMethod [] sideEffects 0]

def fetchedTwice : List Call :=
  .action (.node .attach) :: (handled [⟨"fetch", [], []⟩] ++ handled [⟨"fetch", [], []⟩])

theorem hits_fetchedTwice : Along (callStep logger) (Hits logger) start fetchedTwice := by
  refine ⟨trivial, trivial, trivial, ?_, trivial, trivial, ?_, trivial⟩
  · rintro l - - hdue
    exact absurd hdue (by decide +kernel)
  · rintro l - - hdue
    exact absurd hdue (by decide +kernel)

/-- The third message comes when a checkpoint is due, and ends at number 8. -/
theorem keeps_cadence_logger :
    Along (callStep logger) (KeepsCadence logger) start (fetchedTwice ++ handled []) := by
  refine (keeps_cadence_iff logger (by decide) logger_yields _).mpr ?_
  rw [along_append]
  refine ⟨hits_fetchedTwice, trivial, trivial, ?_, trivial⟩
  rintro l ⟨⟩ - -
  decide +kernel

/-- The third message ends at number 9, and no checkpoint has been saved. -/
theorem not_keeps_cadence :
    ¬∀ (u : Setup Unit), 0 < u.config.checkpointInterval →
      (∀ s, ∃ d, u.captureState s = .ok (some d)) →
      ∀ cs, Along (callStep u) (KeepsCadence u) start cs := by
  intro h
  have hrun := h logger (by decide) logger_yields
    (fetchedTwice ++ handled [⟨"fetch", [], []⟩])
  rw [along_append] at hrun
  have hfewer := hrun.2.2.2.1 _ rfl rfl rfl
  exact absurd hfewer (by decide +kernel)

end Logger

end PromiseNode

end PlexSpaces.Journaling
