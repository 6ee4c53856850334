import PlexSpaces.Journaling.Lifecycle
import PlexSpaces.Lib.Assoc
/-!
# Durable promises

The facet keeps the promises of its actor in two maps, and journals each creation and each
resolution.  A facet that is attached to the journal later makes the maps again from the entries:
a resolution with an empty error text is taken for a success (`not_promises_survive`).  Apart
from that the maps are those of the journal at any time, whatever messages, stops and crashes
come between the calls, and a promise is resolved once (`promises_survive`).
-/

namespace PlexSpaces.Journaling

open PlexSpaces.Lib

/-- The promises that have not been resolved, and the results of the others. -/
structure PromiseMaps where
  pending : Finset String
  resolved : Assoc String (Except String Bytes)
  deriving DecidableEq

namespace PromiseMaps

def empty : PromiseMaps := ⟨∅, ∅⟩

def getPendingPromises (p : PromiseMaps) : Finset String := p.pending

def getPromiseResult (p : PromiseMaps) (promiseId : String) : Option (Except String Bytes) :=
  p.resolved.lookup promiseId

def Exists (p : PromiseMaps) (promiseId : String) : Prop :=
  promiseId ∈ p.pending ∨ promiseId ∈ p.resolved

instance (p : PromiseMaps) (promiseId : String) : Decidable (p.Exists promiseId) :=
  inferInstanceAs (Decidable (_ ∨ _))

/-- What an entry of the journal means to the promises when they are loaded. -/
def recover (p : PromiseMaps) : Entry → PromiseMaps
  | .promiseCreated promiseId _ =>
      if promiseId ∈ p.resolved then p else { p with pending := insert promiseId p.pending }
  | .promiseResolved promiseId result error =>
      { pending := p.pending.erase promiseId
        resolved := p.resolved.insert promiseId
          (if error.isEmpty then .ok result else .error error) }
  | _ => p

end PromiseMaps

def loadPromisesFromJournal (st : Storage) : PromiseMaps :=
  (st.replayFrom 0).foldl (fun p e => p.recover e.entry) .empty

/-- `std::time::Duration`, in seconds and nanoseconds below a second. -/
structure Duration where
  secs : Nat
  subsecNanos : Nat
  deriving DecidableEq

def Duration.toProto (d : Duration) : ProtoDuration :=
  ⟨(d.secs : Int).bmod (2 ^ 64), d.subsecNanos⟩

structure PromiseFacet where
  facet : DurabilityFacet
  promises : PromiseMaps

namespace PromiseFacet

def append (f : PromiseFacet) (st : Storage) (entry : Entry) :
    Except JournalError Storage × PromiseFacet :=
  let sequence := f.facet.messageSequence + 1
  (st.appendEntry ⟨sequence, entry⟩,
    { f with facet := { f.facet with messageSequence := sequence } })

def createPromise (f : PromiseFacet) (st : Storage) (promiseId : String)
    (timeout : Option Duration) : Except JournalError Unit × PromiseFacet × Storage :=
  match f.facet.actorId with
  | none => (.error (.serialization "Actor not attached"), f, st)
  | some _ =>
      if f.promises.Exists promiseId then
        (.error (.serialization ("Promise " ++ promiseId ++ " already exists")), f, st)
      else
        match f.append st (.promiseCreated promiseId (timeout.map Duration.toProto)) with
        | (.error e, f) => (.error e, f, st)
        | (.ok st, f) =>
            (.ok (),
              { f with
                promises :=
                  { f.promises with pending := insert promiseId f.promises.pending } },
              st)

/-- The result and the error text of a resolution in the journal. -/
def resolutionFields : Except String Bytes → Bytes × String
  | .ok bytes => (bytes, "")
  | .error err => ([], err)

def resolvePromise (f : PromiseFacet) (st : Storage) (promiseId : String)
    (result : Except String Bytes) : Except JournalError Unit × PromiseFacet × Storage :=
  match f.facet.actorId with
  | none => (.error (.serialization "Actor not attached"), f, st)
  | some _ =>
      if promiseId ∉ f.promises.pending then
        (.error (.serialization ("Promise " ++ promiseId ++ " not found or already resolved")),
          f, st)
      else
        let (resultBytes, errorMsg) := resolutionFields result
        match f.append st (.promiseResolved promiseId resultBytes errorMsg) with
        | (.error e, f) => (.error e, f, st)
        | (.ok st, f) =>
            (.ok (),
              { f with
                promises :=
                  { pending := f.promises.pending.erase promiseId
                    resolved := f.promises.resolved.insert promiseId result } },
              st)

end PromiseFacet

/-- A node with the promises of its facet; those of the last one when the actor is down. -/
structure PromiseNode (S : Type) where
  node : Node S
  promises : PromiseMaps

inductive PromiseAction
  | node (a : Action)
  | createPromise (promiseId : String) (timeout : Option Duration)
  | resolvePromise (promiseId : String) (result : Except String Bytes)

variable {S : Type}

namespace PromiseNode

def start : PromiseNode S := ⟨Node.start, .empty⟩

/-- A call of the promises of the running actor. -/
def call (n : PromiseNode S)
    (f : PromiseFacet → Storage → Except JournalError Unit × PromiseFacet × Storage) :
    Except JournalError Unit × PromiseNode S :=
  match n.node.life with
  | .up l =>
      match f ⟨l.facet, n.promises⟩ n.node.storage with
      | (result, f, st) => (result, ⟨⟨st, .up { l with facet := f.facet }⟩, f.promises⟩)
  | _ => (.error (.serialization "Actor not attached"), n)

def createPromise (n : PromiseNode S) (promiseId : String) (timeout : Option Duration) :
    Except JournalError Unit × PromiseNode S :=
  n.call fun f st => f.createPromise st promiseId timeout

def resolvePromise (n : PromiseNode S) (promiseId : String) (result : Except String Bytes) :
    Except JournalError Unit × PromiseNode S :=
  n.call fun f st => f.resolvePromise st promiseId result

/-- When a fresh facet is attached it loads the promises. -/
def step (u : Setup S) (n : PromiseNode S) : PromiseAction → PromiseNode S
  | .node a =>
      let node := n.node.step u a
      match n.node.life, node.life with
      | .down, .up _ => ⟨node, loadPromisesFromJournal node.storage⟩
      | _, _ => ⟨node, n.promises⟩
  | .createPromise promiseId timeout => (n.createPromise promiseId timeout).2
  | .resolvePromise promiseId result => (n.resolvePromise promiseId result).2

end PromiseNode

def Entry.resolves : Entry → Option String
  | .promiseResolved promiseId _ _ => some promiseId
  | _ => none

def Storage.resolutions (st : Storage) (promiseId : String) : Nat :=
  st.journal.rows.countP fun e => e.entry.resolves = some promiseId

namespace PromiseNode

/-- What is claimed of a step: a restart brings back the promises that there were, with their
results; a promise that exists is not created again, and a resolved one is not resolved again;
and the journal resolves no promise twice. -/
def Survives (u : Setup S) (n : PromiseNode S) (a : PromiseAction) : Prop :=
  (∀ promiseId, (n.step u a).node.storage.resolutions promiseId ≤ 1) ∧
    match a with
    | .node _ =>
        (n.step u a).promises.getPendingPromises = n.promises.getPendingPromises ∧
          ∀ promiseId, (n.step u a).promises.getPromiseResult promiseId =
            n.promises.getPromiseResult promiseId
    | .createPromise promiseId timeout =>
        n.promises.Exists promiseId →
          (n.createPromise promiseId timeout).1 ≠ .ok () ∧ n.step u a = n
    | .resolvePromise promiseId result =>
        n.promises.getPromiseResult promiseId ≠ none →
          (n.resolvePromise promiseId result).1 ≠ .ok () ∧ n.step u a = n

/-- No promise that is pending is resolved with an error that has no text. -/
def NamesErrors (n : PromiseNode S) : PromiseAction → Prop
  | .resolvePromise promiseId result => promiseId ∈ n.promises.pending → result ≠ .error ""
  | _ => True

end PromiseNode

/-! ## Loading the promises -/

def Entry.IsMessage (entry : Entry) : Prop := ∀ p : PromiseMaps, p.recover entry = p

theorem Entry.IsMessage.resolves {entry : Entry} (h : entry.IsMessage) :
    entry.resolves = none := by
  cases entry with
  | messageReceived messageType payload => rfl
  | messageProcessed responsePayload => rfl
  | sideEffectExecuted effectId request response => rfl
  | promiseCreated promiseId timeout => rfl
  | promiseResolved promiseId result error =>
      have hresolved := congrArg (fun p => PromiseMaps.getPromiseResult p promiseId) (h .empty)
      change (AList.insert promiseId _ ∅).lookup promiseId = (∅ : Assoc _ _).lookup promiseId
        at hresolved
      rw [AList.lookup_insert, AList.lookup_empty] at hresolved
      cases hresolved

theorem isMessage_outcomeEntries (result : Bytes) (sideEffects : List SideEffectEntry) :
    ∀ entry ∈ DurabilityFacet.outcomeEntries result sideEffects, entry.IsMessage := by
  intro entry hentry
  rcases List.mem_cons.mp hentry with rfl | hentry
  · exact fun _ => rfl
  · obtain ⟨se, -, rfl⟩ := List.mem_map.mp hentry
    exact fun _ => rfl

theorem foldl_recover_numberFrom (p : PromiseMaps) (n : Nat) (entries : List Entry) :
    (numberFrom n entries).foldl (fun p e => p.recover e.entry) p =
      entries.foldl PromiseMaps.recover p := by
  induction entries generalizing p n with
  | nil => rfl
  | cons entry entries ih => exact ih _ _

namespace Storage

variable {st st' : Storage} {entries : List Entry}

theorem loadPromises_extends (hordered : st.Ordered) (h : st.Extends st' entries) :
    loadPromisesFromJournal st' =
      entries.foldl PromiseMaps.recover (loadPromisesFromJournal st) := by
  unfold loadPromisesFromJournal
  rw [replayFrom_zero h.ordered, replayFrom_zero hordered, h.rows, List.foldl_append,
    foldl_recover_numberFrom]

theorem countP_numberFrom (n : Nat) (entries : List Entry) (promiseId : String) :
    (numberFrom n entries).countP (fun e => decide (e.entry.resolves = some promiseId)) =
      entries.countP fun entry => entry.resolves = some promiseId := by
  induction entries generalizing n with
  | nil => rfl
  | cons entry entries ih => rw [numberFrom, List.countP_cons, List.countP_cons, ih]

theorem resolutions_extends (h : st.Extends st' entries) (promiseId : String) :
    st'.resolutions promiseId = st.resolutions promiseId +
      entries.countP fun entry => entry.resolves = some promiseId := by
  unfold resolutions
  rw [h.rows, List.countP_append, countP_numberFrom]

theorem promises_of_messages (hordered : st.Ordered) (h : st.Extends st' entries)
    (hmessages : ∀ entry ∈ entries, entry.IsMessage) :
    loadPromisesFromJournal st' = loadPromisesFromJournal st ∧
      ∀ promiseId, st'.resolutions promiseId = st.resolutions promiseId := by
  refine ⟨?_, ?_⟩
  · rw [loadPromises_extends hordered h]
    refine List.foldlRecOn entries _ (motive := (· = loadPromisesFromJournal st)) rfl ?_
    intro p hp entry hentry
    rw [hmessages entry hentry, hp]
  · intro promiseId
    have hnone : entries.countP (fun entry => decide (entry.resolves = some promiseId)) = 0 := by
      apply List.countP_eq_zero.mpr
      intro entry hentry
      simp [(hmessages entry hentry).resolves]
    rw [resolutions_extends h, hnone, Nat.add_zero]

end Storage

namespace Node

/-- What a step appends: messages and their outcomes, or nothing. -/
def Appends (st st' : Storage) : Prop :=
  st'.journal = st.journal ∨
    ∃ entries, (∀ entry ∈ entries, entry.IsMessage) ∧ st.Extends st' entries

section StepUp

variable {u : Setup S} {st : Storage} {f : DurabilityFacet}

theorem beforeMethod_appends (h : st.Ordered) (hseq : f.messageSequence = st.lastSequence)
    (method : String) (args : Bytes) : Appends st (f.beforeMethod st method args).2.2 := by
  rcases hid : f.actorId with _ | actorId
  · simp [Appends, DurabilityFacet.beforeMethod, hid]
  · obtain ⟨st', happend, hext⟩ := Storage.appendEntry_eq h (.messageReceived method args)
    rw [← hseq] at happend
    refine .inr ⟨[.messageReceived method args], ?_, ?_⟩
    · intro entry hentry
      rw [List.mem_singleton.mp hentry]
      exact fun _ => rfl
    · simpa [DurabilityFacet.beforeMethod, hid, happend] using hext

theorem journalOutcome_appends (h : st.Ordered) (hseq : f.messageSequence = st.lastSequence)
    (result : Bytes) (sideEffects : List SideEffectEntry) :
    Appends st (f.journalOutcome st result sideEffects).2.2 := by
  rcases hid : f.actorId with _ | actorId
  · simp [Appends, DurabilityFacet.journalOutcome, hid]
  · obtain ⟨st', happend, hext⟩ := Storage.appendBatch_eq h
      (DurabilityFacet.outcomeEntries result sideEffects)
    rw [← hseq] at happend
    refine .inr ⟨_, isMessage_outcomeEntries result sideEffects, ?_⟩
    simpa [DurabilityFacet.journalOutcome, hid, happend] using hext

theorem appends_of_saved {st' : Storage} {P : Checkpoint → Prop}
    (h : st' = st ∨ ∃ c, P c ∧ st' = st.saveCheckpoint c) : Appends st st' := by
  rcases h with rfl | ⟨c, -, rfl⟩
  · exact .inl rfl
  · exact .inl (Storage.saveCheckpoint_journal st c)

theorem stepUp_beforeMethod (u : Setup S) (st : Storage) (f : DurabilityFacet) (s : S)
    (method : String) (args : Bytes) :
    ∃ phase, stepUp u st ⟨f, s, .idle⟩ (.beforeMethod method args) =
      ⟨(f.beforeMethod st method args).2.2,
        .up ⟨(f.beforeMethod st method args).2.1, s, phase⟩⟩ := by
  unfold stepUp
  dsimp only
  rcases f.beforeMethod st method args with ⟨_ | _, f', st'⟩
  · exact ⟨.idle, rfl⟩
  · exact ⟨.received method args, rfl⟩

theorem stepUp_journalOutcome (u : Setup S) (st : Storage) (f : DurabilityFacet) (s : S)
    (result : Bytes) (sideEffects : List SideEffectEntry) :
    ∃ phase, stepUp u st ⟨f, s, .applied⟩ (.journalOutcome result sideEffects) =
      ⟨(f.journalOutcome st result sideEffects).2.2,
        .up ⟨(f.journalOutcome st result sideEffects).2.1, s, phase⟩⟩ := by
  unfold stepUp
  dsimp only
  rcases f.journalOutcome st result sideEffects with ⟨_ | _, f', st'⟩
  · exact ⟨.idle, rfl⟩
  · exact ⟨.processed, rfl⟩

theorem stepUp_appends (h : st.Ordered) (hseq : f.messageSequence = st.lastSequence) (s : S)
    (phase : Phase) (a : Action) : Appends st (stepUp u st ⟨f, s, phase⟩ a).storage := by
  cases a with
  | attach => exact .inl rfl
  | detach => exact .inl rfl
  | crash => exact .inl rfl
  | transition => cases phase <;> exact .inl rfl
  | beforeMethod method args =>
      cases phase with
      | idle =>
          obtain ⟨phase, hstep⟩ := stepUp_beforeMethod u st f s method args
          rw [hstep]
          exact beforeMethod_appends h hseq method args
      | _ => exact .inl rfl
  | journalOutcome result sideEffects =>
      cases phase with
      | applied =>
          obtain ⟨phase, hstep⟩ := stepUp_journalOutcome u st f s result sideEffects
          rw [hstep]
          exact journalOutcome_appends h hseq result sideEffects
      | _ => exact .inl rfl
  | periodicCheckpoint now =>
      cases phase with
      | processed =>
          rcases u.periodicCheckpoint_storage f st s now with hst | ⟨d, -, hsaves⟩
          · exact appends_of_saved (P := fun _ => True) (.inl hst)
          · exact appends_of_saved (.inr hsaves)
      | _ => exact .inl rfl
  | onExit now =>
      exact appends_of_saved ((u.onExit_storage f st now).imp_right And.right)
  | terminateStart now =>
      rcases u.onTerminateStart_storage f st s now with hst | ⟨d, -, hsaves⟩
      · exact appends_of_saved (P := fun _ => True) (.inl hst)
      · exact appends_of_saved (.inr hsaves)

end StepUp

/-- A step of the actor appends messages and their outcomes, or nothing. -/
theorem journal_step {u : Setup S} {n : Node S} (h : n.Numbered) (a : Action) :
    Appends n.storage (step u n a).storage := by
  rcases hlife : n.life with _ | l | _
  · cases a with
    | attach =>
        rcases hattach : u.onAttach n.storage with e | ⟨f, s⟩
        · simp [Appends, step, hlife, hattach]
        · simp [Appends, step, hlife, hattach]
    | _ => simp [Appends, step, hlife]
  · simp only [step, hlife]
    exact stepUp_appends h.ordered (h.sequence l hlife) l.state l.phase a
  · cases a <;> simp [Appends, step, hlife]

end Node

namespace PromiseFacet

theorem append_eq {f : PromiseFacet} {st : Storage} (hordered : st.Ordered)
    (hseq : f.facet.messageSequence = st.lastSequence) (entry : Entry) :
    ∃ st', f.append st entry =
        (.ok st', { f with facet := { f.facet with messageSequence := st'.lastSequence } }) ∧
      st.Extends st' [entry] := by
  obtain ⟨st', happend, hext⟩ := Storage.appendEntry_eq hordered entry
  refine ⟨st', ?_, hext⟩
  have hlast : st'.lastSequence = f.facet.messageSequence + 1 := by rw [hext.last, hseq]; rfl
  rw [append, hlast, hseq, happend]

end PromiseFacet

namespace PromiseNode

variable {u : Setup S} {n : PromiseNode S}

@[simp] theorem step_node (u : Setup S) (n : PromiseNode S) (a : Action) :
    (n.step u (.node a)).node = n.node.step u a := by
  unfold step
  dsimp only
  split
  · rfl
  · rfl

/-- A call has failed and changed nothing, or it has journaled the entry and left these
promises. -/
def Calls (n : PromiseNode S) (r : Except JournalError Unit × PromiseNode S) (allowed : Prop)
    (entry : Entry) (promises : PromiseMaps) : Prop :=
  (∃ e, r = (.error e, n)) ∨
    allowed ∧ ∃ l st', n.node.life = .up l ∧ n.node.storage.Extends st' [entry] ∧
      r = (.ok (), ⟨⟨st',
        .up { l with facet := { l.facet with messageSequence := st'.lastSequence } }⟩, promises⟩)

theorem call_of_up {l : Live S} (hlife : n.node.life = .up l)
    (f : PromiseFacet → Storage → Except JournalError Unit × PromiseFacet × Storage) :
    n.call f =
      ((f ⟨l.facet, n.promises⟩ n.node.storage).1,
        ⟨⟨(f ⟨l.facet, n.promises⟩ n.node.storage).2.2,
          .up { l with facet := (f ⟨l.facet, n.promises⟩ n.node.storage).2.1.facet }⟩,
          (f ⟨l.facet, n.promises⟩ n.node.storage).2.1.promises⟩) := by
  unfold call
  rw [hlife]

/-- A call that leaves the facet and the storage leaves the node. -/
theorem call_eq_self {l : Live S} (hlife : n.node.life = .up l)
    {f : PromiseFacet → Storage → Except JournalError Unit × PromiseFacet × Storage}
    {e : JournalError} (hf : f ⟨l.facet, n.promises⟩ n.node.storage =
      (.error e, ⟨l.facet, n.promises⟩, n.node.storage)) : n.call f = (.error e, n) := by
  rw [call_of_up hlife, hf, ← hlife]

theorem call_of_not_up (hlife : ∀ l, n.node.life ≠ .up l)
    (f : PromiseFacet → Storage → Except JournalError Unit × PromiseFacet × Storage) :
    n.call f = (.error (.serialization "Actor not attached"), n) := by
  unfold call
  split
  · next l hl => exact absurd hl (hlife l)
  · rfl

theorem createPromise_calls (h : n.node.Numbered) (promiseId : String)
    (timeout : Option Duration) :
    n.Calls (n.createPromise promiseId timeout) (¬n.promises.Exists promiseId)
      (.promiseCreated promiseId (timeout.map Duration.toProto))
      { n.promises with pending := insert promiseId n.promises.pending } := by
  unfold createPromise
  by_cases hup : ∃ l, n.node.life = .up l
  · obtain ⟨l, hlife⟩ := hup
    rcases hid : l.facet.actorId with _ | actorId
    · refine .inl ⟨.serialization "Actor not attached", call_eq_self hlife ?_⟩
      rw [PromiseFacet.createPromise, hid]
    · by_cases hexists : n.promises.Exists promiseId
      · refine .inl ⟨.serialization ("Promise " ++ promiseId ++ " already exists"),
          call_eq_self hlife ?_⟩
        rw [PromiseFacet.createPromise, hid]
        exact if_pos hexists
      · obtain ⟨st', happend, hext⟩ :=
          PromiseFacet.append_eq (f := ⟨l.facet, n.promises⟩) h.ordered (h.sequence l hlife)
            (.promiseCreated promiseId (timeout.map Duration.toProto))
        refine .inr ⟨hexists, l, st', hlife, hext, ?_⟩
        rw [call_of_up hlife]
        simp only [PromiseFacet.createPromise, hid, if_neg hexists, happend]
  · exact .inl ⟨_, call_of_not_up (fun l hl => hup ⟨l, hl⟩) _⟩

theorem resolvePromise_calls (h : n.node.Numbered) (promiseId : String)
    (result : Except String Bytes) :
    n.Calls (n.resolvePromise promiseId result) (promiseId ∈ n.promises.pending)
      (.promiseResolved promiseId (PromiseFacet.resolutionFields result).1
        (PromiseFacet.resolutionFields result).2)
      { pending := n.promises.pending.erase promiseId
        resolved := n.promises.resolved.insert promiseId result } := by
  unfold resolvePromise
  by_cases hup : ∃ l, n.node.life = .up l
  · obtain ⟨l, hlife⟩ := hup
    rcases hid : l.facet.actorId with _ | actorId
    · refine .inl ⟨.serialization "Actor not attached", call_eq_self hlife ?_⟩
      rw [PromiseFacet.resolvePromise, hid]
    · by_cases hpending : promiseId ∈ n.promises.pending
      · obtain ⟨st', happend, hext⟩ :=
          PromiseFacet.append_eq (f := ⟨l.facet, n.promises⟩) h.ordered (h.sequence l hlife)
            (.promiseResolved promiseId (PromiseFacet.resolutionFields result).1
              (PromiseFacet.resolutionFields result).2)
        refine .inr ⟨hpending, l, st', hlife, hext, ?_⟩
        rw [call_of_up hlife]
        simp only [PromiseFacet.resolvePromise, hid, if_neg (not_not.mpr hpending), happend]
      · refine .inl ⟨.serialization ("Promise " ++ promiseId ++ " not found or already resolved"),
          call_eq_self hlife ?_⟩
        rw [PromiseFacet.resolvePromise, hid]
        exact if_pos hpending
  · exact .inl ⟨_, call_of_not_up (fun l hl => hup ⟨l, hl⟩) _⟩

/-- A result is told from its fields unless it is an error without a text. -/
theorem recover_resolutionFields {result : Except String Bytes} (h : result ≠ .error "") :
    (if (PromiseFacet.resolutionFields result).2.isEmpty then
      .ok (PromiseFacet.resolutionFields result).1
    else .error (PromiseFacet.resolutionFields result).2) = result := by
  cases result with
  | ok bytes => rfl
  | error err =>
      have hne : err ≠ "" := fun heq => h (congrArg Except.error heq)
      have hempty : err.isEmpty = false := by simpa using hne
      change (if err.isEmpty = true then _ else Except.error err) = _
      rw [hempty]
      rfl

/-- The promises are those of the journal, which has resolved those that are resolved. -/
structure Recorded (n : PromiseNode S) : Prop where
  numbered : n.node.Numbered
  loaded : loadPromisesFromJournal n.node.storage = n.promises
  apart : ∀ promiseId ∈ n.promises.pending, promiseId ∉ n.promises.resolved
  once : ∀ promiseId, n.node.storage.resolutions promiseId ≤
    if promiseId ∈ n.promises.resolved then 1 else 0

theorem Recorded.resolutions_le (h : n.Recorded) (promiseId : String) :
    n.node.storage.resolutions promiseId ≤ 1 := by
  refine (h.once promiseId).trans ?_
  split_ifs
  · exact le_rfl
  · exact Nat.zero_le 1

theorem recorded_start : (start : PromiseNode S).Recorded := by
  refine ⟨Node.numbered_start, rfl, nofun, ?_⟩
  intro promiseId
  exact Nat.zero_le _

/-- A step of the actor, a restart included, changes nothing about the promises. -/
theorem Recorded.node (h : n.Recorded) (a : Action) :
    (n.step u (.node a)).Recorded ∧ (n.step u (.node a)).promises = n.promises := by
  have hnumbered := Node.numbered_step (u := u) h.numbered a
  have hstorage : loadPromisesFromJournal (n.node.step u a).storage = n.promises ∧
      ∀ promiseId, (n.node.step u a).storage.resolutions promiseId =
        n.node.storage.resolutions promiseId := by
    rw [← h.loaded]
    rcases Node.journal_step (u := u) h.numbered a with hsame | ⟨entries, hmessages, hext⟩
    · refine ⟨?_, ?_⟩
      · unfold loadPromisesFromJournal Storage.replayFrom
        rw [hsame]
      · intro promiseId
        unfold Storage.resolutions
        rw [hsame]
    · exact Storage.promises_of_messages h.numbered.ordered hext hmessages
  have hpromises : (n.step u (.node a)).promises = n.promises := by
    unfold step
    dsimp only
    split
    · exact hstorage.1
    · rfl
  refine ⟨⟨?_, ?_, ?_, ?_⟩, hpromises⟩
  · rw [step_node]
    exact hnumbered
  · rw [step_node, hpromises]
    exact hstorage.1
  · rw [hpromises]
    exact h.apart
  · intro promiseId
    rw [step_node, hpromises, hstorage.2]
    exact h.once promiseId

theorem Calls.numbered {r : Except JournalError Unit × PromiseNode S} {allowed : Prop}
    {entry : Entry} {promises : PromiseMaps} (h : n.Calls r allowed entry promises)
    (hnumbered : n.node.Numbered) : r.2.node.Numbered := by
  rcases h with ⟨e, rfl⟩ | ⟨-, l, st', -, hext, rfl⟩
  · exact hnumbered
  · refine ⟨hext.ordered, ?_⟩
    rintro l' ⟨⟩
    rfl

theorem Recorded.createPromise (h : n.Recorded) (promiseId : String)
    (timeout : Option Duration) : (n.createPromise promiseId timeout).2.Recorded := by
  have hcalls := createPromise_calls h.numbered promiseId timeout
  have hnumbered := hcalls.numbered h.numbered
  rcases hcalls with ⟨e, hfails⟩ | ⟨hnew, l, st', -, hext, hcall⟩
  · rw [hfails]
    exact h
  · rw [hcall] at hnumbered ⊢
    have hresolved : promiseId ∉ n.promises.resolved := fun hmem => hnew (.inr hmem)
    refine ⟨hnumbered, ?_, ?_, ?_⟩
    · change loadPromisesFromJournal st' = _
      rw [Storage.loadPromises_extends h.numbered.ordered hext, h.loaded]
      exact if_neg hresolved
    · intro other hother
      rcases Finset.mem_insert.mp hother with rfl | hother
      · exact hresolved
      · exact h.apart other hother
    · intro other
      change st'.resolutions other ≤ _
      rw [Storage.resolutions_extends hext]
      exact h.once other

theorem Recorded.resolvePromise (h : n.Recorded) {promiseId : String}
    {result : Except String Bytes} (hnamed : promiseId ∈ n.promises.pending → result ≠ .error "") :
    (n.resolvePromise promiseId result).2.Recorded := by
  have hcalls := resolvePromise_calls h.numbered promiseId result
  have hnumbered := hcalls.numbered h.numbered
  rcases hcalls with ⟨e, hfails⟩ | ⟨hpending, l, st', -, hext, hcall⟩
  · rw [hfails]
    exact h
  · rw [hcall] at hnumbered ⊢
    refine ⟨hnumbered, ?_, ?_, ?_⟩
    · change loadPromisesFromJournal st' = _
      rw [Storage.loadPromises_extends h.numbered.ordered hext, h.loaded, List.foldl_cons,
        List.foldl_nil, PromiseMaps.recover, recover_resolutionFields (hnamed hpending)]
    · intro other hother hmem
      obtain ⟨hne, hother⟩ := Finset.mem_erase.mp hother
      rcases (AList.mem_insert _).mp hmem with rfl | hmem
      · exact hne rfl
      · exact h.apart other hother hmem
    · intro other
      change st'.resolutions other ≤
        if other ∈ n.promises.resolved.insert promiseId result then 1 else 0
      rw [Storage.resolutions_extends hext]
      have honce := h.once other
      by_cases hother : other = promiseId
      · subst hother
        rw [if_neg (h.apart other hpending)] at honce
        rw [if_pos ((AList.mem_insert _).mpr (.inl rfl))]
        simpa [Entry.resolves] using honce
      · have hnot : promiseId ≠ other := fun heq => hother heq.symm
        have hmem : other ∈ n.promises.resolved.insert promiseId result ↔
            other ∈ n.promises.resolved := by
          rw [AList.mem_insert]
          exact or_iff_right hother
        simpa [hmem, Entry.resolves, hnot] using honce

theorem Recorded.step (h : n.Recorded) {a : PromiseAction} (hnamed : n.NamesErrors a) :
    (n.step u a).Recorded := by
  cases a with
  | node a => exact (h.node a).1
  | createPromise promiseId timeout => exact h.createPromise promiseId timeout
  | resolvePromise promiseId result => exact h.resolvePromise hnamed

theorem Recorded.survives (h : n.Recorded) {a : PromiseAction} (hnamed : n.NamesErrors a) :
    n.Survives u a := by
  refine ⟨(h.step hnamed).resolutions_le, ?_⟩
  cases a with
  | node a =>
      dsimp only
      rw [(h.node a).2]
      exact ⟨rfl, fun _ => rfl⟩
  | createPromise promiseId timeout =>
      intro hexists
      rcases createPromise_calls h.numbered promiseId timeout with ⟨e, hfails⟩ | ⟨hnew, -⟩
      · rw [PromiseNode.step, hfails]
        exact ⟨nofun, rfl⟩
      · exact absurd hexists hnew
  | resolvePromise promiseId result =>
      intro hresolved
      rcases resolvePromise_calls h.numbered promiseId result with ⟨e, hfails⟩ | ⟨hpending, -⟩
      · rw [PromiseNode.step, hfails]
        exact ⟨nofun, rfl⟩
      · exact absurd (AList.lookup_eq_none.mpr (h.apart promiseId hpending)) hresolved

/-- In a run in which every error has a text the promises survive every restart. -/
theorem promises_survive (u : Setup S) (as : List PromiseAction)
    (hnamed : Along (step u) NamesErrors start as) :
    Along (step u) (Survives u) start as := by
  refine Along.of_invariant ?_ hnamed recorded_start
  intro n a h hnamed
  exact ⟨h.survives hnamed, h.step hnamed⟩

section Keeper

def keeper : Setup Unit where
  actorId := "keeper"
  config := parseConfig ⟨none, none, none, none⟩
  codecs := ⟨none, none⟩
  init := ()
  handle := fun s _ _ => s
  replayHandler := none
  adapter := none
  loader := none

def resolvedAndCrashed (result : Except String Bytes) : List PromiseAction :=
  [.node .attach, .createPromise "p" none, .resolvePromise "p" result, .node .crash]

theorem promises_survive_keeper :
    Along (step keeper) (Survives keeper) start
      (resolvedAndCrashed (.error "boom") ++ [.node .attach]) := by
  refine promises_survive keeper _ ((along_concat _ _ _ _).mpr ⟨?_, trivial⟩)
  refine ⟨trivial, trivial, ?_, trivial, trivial⟩
  intro _ heq
  exact absurd heq (by decide)

/-- An error without a text comes back as a result. -/
theorem not_promises_survive :
    ¬∀ (u : Setup Unit) (as : List PromiseAction), Along (step u) (Survives u) start as := by
  intro h
  have hlast := ((along_concat _ _ _ _).mp
    (h keeper (resolvedAndCrashed (.error "") ++ [.node .attach]))).2
  have hbefore : (run (step keeper) start
      (resolvedAndCrashed (.error ""))).promises.getPromiseResult "p" = some (.error "") := by
    decide +kernel
  have hafter : (step keeper (run (step keeper) start (resolvedAndCrashed (.error "")))
      (.node .attach)).promises.getPromiseResult "p" = some (.ok []) := by
    decide +kernel
  have hsame := hlast.2.2 "p"
  rw [hbefore, hafter] at hsame
  exact absurd hsame (by decide)

end Keeper

end PromiseNode

end PlexSpaces.Journaling
