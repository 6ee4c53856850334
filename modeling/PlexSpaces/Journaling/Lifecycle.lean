import PlexSpaces.Journaling.Durability
import PlexSpaces.Lib.Run
/-!
# The life of a durable actor

An actor handles one message after another: its facet journals the message, the actor changes
its state, the facet journals the outcome and may save a checkpoint.  A stop saves a checkpoint
whatever the actor is doing, since the message loop is aborted when the grace period is over;
the facet is then detached.  A crash can come between any two steps.  Either way the actor is
started again from its storage by `on_attach` of a fresh facet.
-/

namespace PlexSpaces.Journaling

open PlexSpaces.Lib

/-- How far the actor is with its message. -/
inductive Phase
  | idle
  | received (method : String) (payload : Bytes)
  | applied
  | processed
  deriving DecidableEq

structure Live (S : Type) where
  facet : DurabilityFacet
  state : S
  phase : Phase

inductive Life (S : Type)
  | down
  | up (l : Live S)
  | stopping

structure Node (S : Type) where
  storage : Storage
  life : Life S

inductive Action
  | attach
  | beforeMethod (method : String) (args : Bytes)
  | transition
  | journalOutcome (result : Bytes) (sideEffects : List SideEffectEntry)
  | periodicCheckpoint (now : Nat)
  | onExit (now : Nat)
  | terminateStart (now : Nat)
  | detach
  | crash
  deriving DecidableEq

variable {S : Type}

/-- What an entry of the journal means to the state. -/
def Setup.apply (u : Setup S) (s : S) : Entry → S
  | .messageReceived method payload => u.handle s method payload
  | _ => s

/-- The state once the message in hand has been handled. -/
def Live.settled (u : Setup S) (l : Live S) : S :=
  match l.phase with
  | .received method payload => u.handle l.state method payload
  | _ => l.state

namespace Node

def start : Node S := ⟨Storage.new, .down⟩

def stepUp (u : Setup S) (st : Storage) (l : Live S) : Action → Node S
  | .beforeMethod method args =>
      match l.phase with
      | .idle =>
          match l.facet.beforeMethod st method args with
          | (.ok (), f, st) => ⟨st, .up ⟨f, l.state, .received method args⟩⟩
          | (.error _, f, st) => ⟨st, .up ⟨f, l.state, .idle⟩⟩
      | _ => ⟨st, .up l⟩
  | .transition =>
      match l.phase with
      | .received method payload =>
          ⟨st, .up ⟨l.facet, u.handle l.state method payload, .applied⟩⟩
      | _ => ⟨st, .up l⟩
  | .journalOutcome result sideEffects =>
      match l.phase with
      | .applied =>
          match l.facet.journalOutcome st result sideEffects with
          | (.ok (), f, st) => ⟨st, .up ⟨f, l.state, .processed⟩⟩
          | (.error _, f, st) => ⟨st, .up ⟨f, l.state, .idle⟩⟩
      | _ => ⟨st, .up l⟩
  | .periodicCheckpoint now =>
      match l.phase with
      | .processed =>
          match u.periodicCheckpoint l.facet st l.state now with
          | (_, f, st) => ⟨st, .up ⟨f, l.state, .idle⟩⟩
      | _ => ⟨st, .up l⟩
  | .onExit now =>
      match u.onExit l.facet st now with
      | (f, st) => ⟨st, .up { l with facet := f }⟩
  | .terminateStart now =>
      match u.onTerminateStart l.facet st l.state now with
      | (_, _, st) => ⟨st, .stopping⟩
  | .crash => ⟨st, .down⟩
  | _ => ⟨st, .up l⟩

def step (u : Setup S) (n : Node S) (a : Action) : Node S :=
  match n.life with
  | .up l => stepUp u n.storage l a
  | .down =>
      match a with
      | .attach =>
          match u.onAttach n.storage with
          | .ok (f, s) => { n with life := .up ⟨f, s, .idle⟩ }
          | .error _ => n
      | _ => n
  | .stopping =>
      match a with
      | .detach => { n with life := .down }
      | .crash => { n with life := .down }
      | _ => n

variable {u : Setup S} {n : Node S}

/-- The two steps after the actor has handled a message are `after_method`. -/
theorem step_afterMethod {l : Live S} (hlife : n.life = .up l) (hphase : l.phase = .applied)
    (result : Bytes) (sideEffects : List SideEffectEntry) (now : Nat) :
    run (step u) n [.journalOutcome result sideEffects, .periodicCheckpoint now] =
      ⟨(u.afterMethod l.facet n.storage l.state result sideEffects now).2.2,
        .up ⟨(u.afterMethod l.facet n.storage l.state result sideEffects now).2.1, l.state,
          .idle⟩⟩ := by
  rcases hjournal : l.facet.journalOutcome n.storage result sideEffects with ⟨_ | _, f, st⟩ <;>
    simp [run_cons, run_nil, step, stepUp, hlife, hphase, hjournal, Setup.afterMethod]

/-- Which bytes an action saves in a checkpoint. -/
inductive Source (u : Setup S) (l : Live S) : Action → Bytes → Prop
  | periodic (now : Nat) {d : Bytes} : l.phase = .processed →
      u.captureState l.state = .ok (some d) → Source u l (.periodicCheckpoint now) d
  | stop (now : Nat) {d : Bytes} :
      u.captureState l.state = .ok (some d) → Source u l (.terminateStart now) d
  | exit (now : Nat) :
      u.manager.due l.facet.checkpointState now l.facet.messageSequence = true →
      Source u l (.onExit now) []

/-- What becomes of a running actor in a step without a journal entry: it runs on with the
same number and the same state to come, or it does not run any more. -/
def Continues (u : Setup S) (l : Live S) (life : Life S) : Prop :=
  ∀ l', life = .up l' →
    l'.facet.messageSequence = l.facet.messageSequence ∧ l'.settled u = l.settled u

/-- What a step of a running actor can do. -/
inductive Outcome (u : Setup S) (st : Storage) (l : Live S) (a : Action) : Node S → Prop
  | kept {life : Life S} : Continues u l life → Outcome u st l a ⟨st, life⟩
  | saved {life : Life S} {d : Bytes} {c : Checkpoint} : Source u l a d →
      u.manager.createCheckpoint l.facet.messageSequence d = .ok c → Continues u l life →
      Outcome u st l a ⟨st.saveCheckpoint c, life⟩
  | journaled {st' : Storage} {l' : Live S} {entries : List Entry} : st.Extends st' entries →
      l'.facet.messageSequence = st'.lastSequence →
      l'.settled u = entries.foldl u.apply (l.settled u) → Outcome u st l a ⟨st', .up l'⟩

/-- The numbers of the journal increase, and the facet of a running actor has the last one. -/
structure Numbered (n : Node S) : Prop where
  ordered : n.storage.Ordered
  sequence : ∀ l, n.life = .up l → l.facet.messageSequence = n.storage.lastSequence

section StepUp

variable {st : Storage} {l : Live S}

theorem continues_self : Continues u l (.up l) := by
  rintro l' ⟨⟩
  exact ⟨rfl, rfl⟩

theorem continues_of_up {l' : Live S}
    (hsequence : l'.facet.messageSequence = l.facet.messageSequence)
    (hsettled : l'.settled u = l.settled u) : Continues u l (.up l') := by
  rintro l'' ⟨⟩
  exact ⟨hsequence, hsettled⟩

theorem continues_stopping : Continues u l .stopping := by
  intro l' h
  cases h

theorem continues_down : Continues u l .down := by
  intro l' h
  cases h

theorem beforeMethod_outcome (hordered : st.Ordered)
    (hseq : l.facet.messageSequence = st.lastSequence) (hphase : l.phase = .idle)
    (method : String) (args : Bytes) :
    Outcome u st l (.beforeMethod method args) (stepUp u st l (.beforeMethod method args)) := by
  rcases hid : l.facet.actorId with _ | actorId
  · have hbefore : l.facet.beforeMethod st method args =
        (.error (.interceptionFailed "Actor ID not set"), l.facet, st) := by
      rw [DurabilityFacet.beforeMethod, hid]
    simp only [stepUp, hphase, hbefore]
    refine .kept (continues_of_up rfl ?_)
    simp [Live.settled, hphase]
  · obtain ⟨st', happend, hext⟩ :=
      Storage.appendEntry_eq hordered (.messageReceived method args)
    have hbefore : l.facet.beforeMethod st method args =
        (.ok (), { l.facet with messageSequence := l.facet.messageSequence + 1 }, st') := by
      simp only [DurabilityFacet.beforeMethod, hid, hseq, happend]
    simp only [stepUp, hphase, hbefore]
    refine .journaled hext ?_ ?_
    · rw [hext.last, hseq]
      rfl
    · simp [Live.settled, hphase, Setup.apply]

theorem foldl_outcomeEntries (s : S) (result : Bytes) (sideEffects : List SideEffectEntry) :
    (DurabilityFacet.outcomeEntries result sideEffects).foldl u.apply s = s := by
  have heffects : ∀ s : S, (sideEffects.map fun se =>
      Entry.sideEffectExecuted se.sideEffectId se.inputData se.outputData).foldl u.apply s =
        s := by
    induction sideEffects with
    | nil => intro s; rfl
    | cons se ses ih => exact ih
  exact heffects s

theorem journalOutcome_outcome (hordered : st.Ordered)
    (hseq : l.facet.messageSequence = st.lastSequence) (hphase : l.phase = .applied)
    (result : Bytes) (sideEffects : List SideEffectEntry) :
    Outcome u st l (.journalOutcome result sideEffects)
      (stepUp u st l (.journalOutcome result sideEffects)) := by
  rcases hid : l.facet.actorId with _ | actorId
  · have hjournal : l.facet.journalOutcome st result sideEffects =
        (.error (.interceptionFailed "Actor ID not set"), l.facet, st) := by
      rw [DurabilityFacet.journalOutcome, hid]
    simp only [stepUp, hphase, hjournal]
    refine .kept (continues_of_up rfl ?_)
    simp [Live.settled, hphase]
  · obtain ⟨st', happend, hext⟩ :=
      Storage.appendBatch_eq hordered (DurabilityFacet.outcomeEntries result sideEffects)
    have hjournal : l.facet.journalOutcome st result sideEffects =
        (.ok (), { l.facet with messageSequence := st'.lastSequence }, st') := by
      simp only [DurabilityFacet.journalOutcome, hid, hseq, happend, hext.last]
    simp only [stepUp, hphase, hjournal]
    refine .journaled hext rfl ?_
    rw [foldl_outcomeEntries]
    simp [Live.settled, hphase]

theorem stepUp_outcome (hordered : st.Ordered)
    (hseq : l.facet.messageSequence = st.lastSequence) (a : Action) :
    Outcome u st l a (stepUp u st l a) := by
  cases a with
  | attach => exact .kept continues_self
  | detach => exact .kept continues_self
  | crash => exact .kept continues_down
  | beforeMethod method args =>
      by_cases hphase : l.phase = .idle
      · exact beforeMethod_outcome hordered hseq hphase method args
      · rcases l with ⟨f, s, _ | _ | _ | _⟩
        · exact absurd rfl hphase
        all_goals exact .kept continues_self
  | transition =>
      rcases l with ⟨f, s, _ | ⟨method, payload⟩ | _ | _⟩
      · exact .kept continues_self
      · exact .kept (continues_of_up rfl rfl)
      · exact .kept continues_self
      · exact .kept continues_self
  | journalOutcome result sideEffects =>
      by_cases hphase : l.phase = .applied
      · exact journalOutcome_outcome hordered hseq hphase result sideEffects
      · rcases l with ⟨f, s, _ | _ | _ | _⟩
        · exact .kept continues_self
        · exact .kept continues_self
        · exact absurd rfl hphase
        · exact .kept continues_self
  | periodicCheckpoint now =>
      rcases l with ⟨f, s, _ | ⟨method, payload⟩ | _ | _⟩
      · exact .kept continues_self
      · exact .kept continues_self
      · exact .kept continues_self
      · have hcontinues : Continues u ⟨f, s, .processed⟩
            (.up ⟨(u.periodicCheckpoint f st s now).2.1, s, .idle⟩) :=
          continues_of_up (u.periodicCheckpoint_sequence f st s now) rfl
        rcases u.periodicCheckpoint_storage f st s now with
          hst | ⟨d, hcapture, c, hcreate, hst⟩
        · simp only [stepUp, hst]
          exact .kept hcontinues
        · simp only [stepUp, hst]
          exact .saved (.periodic now rfl hcapture) hcreate hcontinues
  | onExit now =>
      have hcontinues : Continues u l (.up { l with facet := (u.onExit l.facet st now).1 }) :=
        continues_of_up rfl rfl
      rcases u.onExit_storage l.facet st now with hst | ⟨hdue, c, hcreate, hst⟩
      · simp only [stepUp, hst]
        exact .kept hcontinues
      · simp only [stepUp, hst]
        exact .saved (.exit now hdue) hcreate hcontinues
  | terminateStart now =>
      rcases u.onTerminateStart_storage l.facet st l.state now with
        hst | ⟨d, hcapture, c, hcreate, hst⟩
      · simp only [stepUp, hst]
        exact .kept continues_stopping
      · simp only [stepUp, hst]
        exact .saved (.stop now hcapture) hcreate continues_stopping

end StepUp

theorem step_cases (h : n.Numbered) (a : Action) :
    (∃ l, n.life = .up l ∧ Outcome u n.storage l a (step u n a)) ∨
      (n.life = .down ∧ a = .attach ∧
        ∃ f s, u.onAttach n.storage = .ok (f, s) ∧
          step u n a = ⟨n.storage, .up ⟨f, s, .idle⟩⟩) ∨
      ((step u n a).storage = n.storage ∧ ∀ l, (step u n a).life ≠ .up l) := by
  rcases hlife : n.life with _ | l | _
  · cases a with
    | attach =>
        rcases hattach : u.onAttach n.storage with e | ⟨f, s⟩
        · refine .inr (.inr ?_)
          simp [step, hlife, hattach]
        · refine .inr (.inl ⟨rfl, rfl, f, s, rfl, ?_⟩)
          simp only [step, hlife, hattach]
    | _ =>
        refine .inr (.inr ?_)
        simp [step, hlife]
  · refine .inl ⟨l, rfl, ?_⟩
    simp only [step, hlife]
    exact stepUp_outcome h.ordered (h.sequence l hlife) a
  · refine .inr (.inr ?_)
    cases a <;> simp [step, hlife]

theorem attachedFacet_sequence {st : Storage} (h : st.Ordered) :
    (u.attachedFacet st).messageSequence = st.lastSequence := by
  rw [Setup.attachedFacet, Storage.replayFrom_zero h]
  rfl

theorem onAttach_facet {st : Storage} {f : DurabilityFacet} {s : S}
    (h : u.onAttach st = .ok (f, s)) : f = u.attachedFacet st := by
  unfold Setup.onAttach at h
  split at h
  · split at h
    · cases h
    · split at h
      · cases h
      · cases h
        rfl
  · cases h
    rfl

theorem numbered_step (h : n.Numbered) (a : Action) : (step u n a).Numbered := by
  rcases step_cases (u := u) h a with ⟨l, hlife, hout⟩ | ⟨-, -, f, s, hattach, hstep⟩ | ⟨hst, hup⟩
  · generalize step u n a = n' at hout
    cases hout with
    | kept hcontinues =>
        refine ⟨h.ordered, ?_⟩
        intro l' hl'
        rw [(hcontinues l' hl').1, h.sequence l hlife]
    | saved _ _ hcontinues =>
        refine ⟨h.ordered, ?_⟩
        intro l' hl'
        rw [(hcontinues l' hl').1, h.sequence l hlife]
        rfl
    | journaled hext hseq _ =>
        refine ⟨hext.ordered, ?_⟩
        rintro l' ⟨⟩
        exact hseq
  · rw [hstep]
    refine ⟨h.ordered, ?_⟩
    rintro l ⟨⟩
    rw [onAttach_facet hattach, attachedFacet_sequence h.ordered]
  · refine ⟨hst ▸ h.ordered, ?_⟩
    intro l hl
    exact absurd hl (hup l)

theorem numbered_start : (start : Node S).Numbered := by
  refine ⟨List.Pairwise.nil, ?_⟩
  intro l h
  cases h

/-- The facet's numbers are never taken, whatever happens to the actor. -/
theorem numbered_run (as : List Action) : (run (step u) start as).Numbered :=
  run_invariant (I := Numbered) (fun a _ _ h => numbered_step h a) numbered_start

section Faithful

def Storable (u : Setup S) (d : Bytes) : Prop := ∃ b, u.manager.compressStateData d = .ok b

/-- A stop does not save the state while it lacks a message that has been journaled, and an
EXIT signal finds no checkpoint due, for the checkpoint it saves is empty. -/
def Faithful (u : Setup S) (n : Node S) : Action → Prop
  | .terminateStart _ => ∀ l, n.life = .up l →
      ∀ d, u.captureState l.state = .ok (some d) → Storable u d → l.settled u = l.state
  | .onExit now => ∀ l, n.life = .up l →
      u.manager.due l.facet.checkpointState now l.facet.messageSequence = true →
      Storable u [] → u.captureState l.state = .ok (some []) ∧ l.settled u = l.state
  | _ => True

/-- What is saved in a faithful step is what the adapter makes of the state after all
entries of the journal. -/
theorem captured_of_source {l : Live S} {a : Action} {d : Bytes} {c : Checkpoint}
    (hlife : n.life = .up l) (hfaithful : Faithful u n a) (hsource : Source u l a d)
    (hcreate : u.manager.createCheckpoint l.facet.messageSequence d = .ok c) :
    u.captureState l.state = .ok (some d) ∧ l.settled u = l.state := by
  have hstorable : Storable u d := ⟨_, (CheckpointManager.createCheckpoint_ok hcreate).2.1⟩
  cases hsource with
  | periodic now hphase hcapture =>
      refine ⟨hcapture, ?_⟩
      rw [Live.settled, hphase]
  | stop now hcapture => exact ⟨hcapture, hfaithful l hlife d hcapture hstorable⟩
  | exit now hdue => exact hfaithful l hlife hdue hstorable

end Faithful

end Node

end PlexSpaces.Journaling
