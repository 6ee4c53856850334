import PlexSpaces.Journaling.Batches
import PlexSpaces.Journaling.Durability
import PlexSpaces.Journaling.EventReplay
import PlexSpaces.Journaling.Sequences
/-!
# The event log of an actor

An event sourcing facet logs an event after each method, under the number after its counter.
The counter is in the facet: a detach sets it back to 0, and only an attach with automatic
replay, to an actor with events, sets it to the number of the last one.  Without automatic replay
a facet that is attached again counts from 1, and its events are refused for numbers that are
taken.  Where each attach finds or sets the right counter, the log grows by one event a call
(`one_event_per_call`).
-/

namespace PlexSpaces.Journaling

open PlexSpaces.Lib

structure EventSourcingConfig where
  eventLogEnabled : Bool
  autoReplay : Bool
  deriving DecidableEq

/-- What an event says beside its id, actor and number. -/
structure ActorEvent where
  eventType : String
  eventData : Bytes
  timestamp : Nat
  causedBy : String
  deriving DecidableEq

structure EventSourcingFacet where
  config : EventSourcingConfig
  actorId : Option String
  eventSequence : UInt64

def EventSourcingFacet.new (config : EventSourcingConfig) : EventSourcingFacet := ⟨config, none, 0⟩

/-- A facet and the storage it is set up with. -/
structure EventHost (E : Type) where
  facet : EventSourcingFacet
  storage : SqliteJournalStorage E ActorEvent

/-- The calls of a facet, and a restart with a fresh one.  The time and the ulid of an event are
those that the clock and the generator give. -/
inductive EventCall
  | onAttach (actorId : String)
  | afterMethod (methodName : String) (result : Bytes) (now : Nat) (ulid : String)
  | onDetach
  | restart (config : EventSourcingConfig)

namespace EventHost

variable {E : Type}

def setSequence (h : EventHost E) (sequence : UInt64) : EventHost E :=
  { h with facet.eventSequence := sequence }

/-- The counter moves on before the event is stored, and stays there when it is refused. -/
def logEvent (h : EventHost E) (actorId eventType : String) (eventData : Bytes)
    (causedBy : String) (now : Nat) (ulid : String) : Except JournalError UInt64 × EventHost E :=
  if !h.facet.config.eventLogEnabled then (.ok 0, h)
  else
    let sequence := h.facet.eventSequence + 1
    let h := h.setSequence sequence
    let (appended, storage, _) :=
      h.storage.appendEvent ⟨ulid, actorId, sequence, ⟨eventType, eventData, now, causedBy⟩⟩
    (appended.map fun _ => sequence, { h with storage })

def replayEvents (h : EventHost E) (actorId : String) (fromSequence : UInt64) :
    List (Record ActorEvent) × EventHost E :=
  if !h.facet.config.autoReplay then ([], h)
  else
    let events := h.storage.replayEventsFrom actorId fromSequence
    match events.getLast? with
    | none => (events, h)
    | some lastEvent => (events, h.setSequence lastEvent.sequence)

def onAttach (h : EventHost E) (actorId : String) : EventHost E :=
  let h := { h with facet.actorId := some actorId }
  if h.facet.config.autoReplay then
    let (events, h) := h.replayEvents actorId 0
    match events.getLast? with
    | none => h
    | some lastEvent => h.setSequence lastEvent.sequence
  else h

def onDetach (h : EventHost E) : EventHost E :=
  { h with facet.actorId := none, facet.eventSequence := 0 }

def afterMethod (h : EventHost E) (methodName : String) (result : Bytes) (now : Nat)
    (ulid : String) : Except FacetError Unit × EventHost E :=
  if !h.facet.config.eventLogEnabled then (.ok (), h)
  else
    match h.facet.actorId with
    | none => (.error (.invalidConfig "Actor ID not set"), h)
    | some actorId =>
        let (logged, h) := h.logEvent actorId methodName result "" now ulid
        match logged with
        | .error e => (.error (.invalidConfig e.toString), h)
        | .ok _ => (.ok (), h)

def call (h : EventHost E) : EventCall → Except FacetError Unit × EventHost E
  | .onAttach actorId => (.ok (), h.onAttach actorId)
  | .afterMethod methodName result now ulid => h.afterMethod methodName result now ulid
  | .onDetach => (.ok (), h.onDetach)
  | .restart config => (.ok (), { h with facet := .new config })

def after (h : EventHost E) (c : EventCall) : EventHost E := (h.call c).2

def sequences (h : EventHost E) (actorId : String) : List Int :=
  (h.storage.actorEvents.numbers actorId).map Int64.toInt

def events (h : EventHost E) (actorId : String) : List ActorEvent :=
  (h.storage.actorEvents.select fun r => r.actorId = actorId).map Row.payload

def upTo (n : Nat) : List Int := (List.range' 1 n).map Int.ofNat

/-- The events of each actor are numbered 1, 2, 3 and so on. -/
def Consecutive (h : EventHost E) : Prop :=
  ∀ actorId, h.sequences actorId = upTo (h.events actorId).length

def loggedBy (h : EventHost E) (actorId : String) : EventCall → List ActorEvent
  | .afterMethod methodName result now _ =>
      if h.facet.actorId = some actorId then [⟨methodName, result, now, ""⟩] else []
  | _ => []

def loggedAlong (actorId : String) : EventHost E → List EventCall → List ActorEvent
  | _, [] => []
  | h, c :: cs => h.loggedBy actorId c ++ loggedAlong actorId (h.after c) cs

/-- Methods are run while the facet is attached; the ulid of an event is new, the numbers fit,
and the log stays enabled. -/
def Proper (h : EventHost E) : EventCall → Prop
  | .afterMethod _ _ _ ulid => ulid ∉ h.storage.actorEvents.rows.map Row.id ∧
      ∃ actorId ∈ h.facet.actorId, (h.events actorId).length + 1 < 2 ^ 63
  | .restart config => config.eventLogEnabled
  | .onAttach _ | .onDetach => True

/-- An attach replays the events of the actor, or the counter is at their number. -/
def CounterInStep (h : EventHost E) : EventCall → Prop
  | .onAttach actorId => (h.facet.config.autoReplay ∧ h.events actorId ≠ []) ∨
      h.facet.eventSequence.toNat = (h.events actorId).length
  | _ => True

/-- The log is enabled, and the counter of an attached facet is at the number of its events. -/
structure InStep (h : EventHost E) : Prop where
  logging : h.facet.config.eventLogEnabled = true
  consecutive : h.Consecutive
  counter : ∀ actorId ∈ h.facet.actorId,
    h.facet.eventSequence.toNat = (h.events actorId).length

section Steps

variable {h h' : EventHost E} {actorId : String} {c : EventCall}

theorem upTo_succ (n : Nat) : upTo (n + 1) = upTo n ++ [(n : Int) + 1] := by
  rw [upTo, List.range'_1_concat, List.map_append, Nat.add_comm 1 n]
  rfl

theorem mem_upTo {n : Nat} {i : Int} : i ∈ upTo n ↔ 1 ≤ i ∧ i ≤ n := by
  rw [upTo, List.mem_map]
  constructor
  · rintro ⟨m, hm, rfl⟩
    have hm := List.mem_range'_1.mp hm
    exact ⟨Int.ofNat_le.mpr hm.1, Int.ofNat_le.mpr (by omega)⟩
  · rintro ⟨hpos, hle⟩
    exact ⟨i.toNat, List.mem_range'_1.mpr (by omega), Int.toNat_of_nonneg (by omega)⟩

theorem sequences_congr (hstorage : h'.storage.actorEvents = h.storage.actorEvents) :
    h'.sequences = h.sequences ∧ h'.events = h.events := by
  unfold sequences events
  rw [hstorage]
  exact ⟨rfl, rfl⟩

theorem Consecutive.congr (hc : h.Consecutive)
    (hstorage : h'.storage.actorEvents = h.storage.actorEvents) : h'.Consecutive := by
  obtain ⟨hsequences, hevents⟩ := sequences_congr hstorage
  intro actorId
  rw [hsequences, hevents]
  exact hc actorId

/-- Consecutive numbers are in order and not negative, so a replay from 0 reads all events. -/
theorem replayEventsFrom_zero (hc : h.Consecutive) (actorId : String) :
    h.storage.replayEventsFrom actorId 0 =
      (h.storage.actorEvents.select fun r => r.actorId = actorId).map Row.event := by
  have hnumbers : ∀ r ∈ h.storage.actorEvents.rows, r.actorId = actorId → 0 ≤ r.sequence := by
    intro r hr hactor
    have hmem : r.sequence.toInt ∈ h.sequences actorId :=
      List.mem_map_of_mem (Rows.mem_numbers.mpr ⟨r, hr, hactor, rfl⟩)
    rw [hc actorId, mem_upTo] at hmem
    rw [Int64.le_iff_toInt_le]
    exact le_trans (by decide) hmem.1
  have hselect : (h.storage.actorEvents.select fun r =>
      r.actorId = actorId ∧ (0 : UInt64).toInt64 ≤ r.sequence) =
        h.storage.actorEvents.select fun r => r.actorId = actorId := by
    refine List.filter_congr fun r hr => ?_
    refine decide_eq_decide.mpr ⟨And.left, fun hactor => ⟨hactor, hnumbers r hr hactor⟩⟩
  rw [SqliteJournalStorage.replayEventsFrom, SqliteJournalStorage.eventRows, hselect,
    List.Pairwise.insertionSort_eq]
  have hsorted : (h.sequences actorId).Pairwise (· ≤ ·) := by
    rw [hc actorId, upTo, List.pairwise_map]
    exact List.pairwise_le_range'.imp fun hle => Int.ofNat_le.mpr hle
  rw [sequences, Rows.numbers, List.map_map, List.pairwise_map] at hsorted
  exact hsorted.imp fun hle => Int64.le_iff_toInt_le.mpr hle

theorem getLast?_upTo (n : Nat) : (upTo n).getLast? = if n = 0 then none else some (n : Int) := by
  cases n with
  | zero => rfl
  | succ n => rw [upTo_succ, List.getLast?_concat, if_neg (Nat.succ_ne_zero n)]; rfl

/-- The last event of a replay has the number of events as its number. -/
theorem getLast?_replay (hc : h.Consecutive) (actorId : String) :
    match (h.storage.replayEventsFrom actorId 0).getLast? with
    | none => h.events actorId = []
    | some lastEvent => lastEvent.sequence.toNat = (h.events actorId).length := by
  have hlast := congrArg List.getLast? (hc actorId)
  rw [getLast?_upTo, sequences, Rows.numbers, List.map_map, List.getLast?_map] at hlast
  rw [replayEventsFrom_zero hc, List.getLast?_map]
  cases hrow : (h.storage.actorEvents.select fun r => r.actorId = actorId).getLast? with
  | none => rw [Option.map_none, events, List.getLast?_eq_none_iff.mp hrow]; rfl
  | some r =>
      rw [hrow, Option.map_some] at hlast
      split_ifs at hlast
      have hnumber : r.sequence.toInt = (h.events actorId).length := Option.some.inj hlast
      have hpos : 0 ≤ r.sequence := by
        rw [Int64.le_iff_toInt_le, hnumber]
        exact Int.natCast_nonneg _
      change r.sequence.toUInt64.toNat = _
      rw [Int64.toNat_toUInt64_of_le hpos, Int64.toNatClampNeg, hnumber, Int.toNat_natCast]

/-- An attach sets the counter to the number of the last event, if there is one to replay. -/
theorem onAttach_eq (h : EventHost E) (actorId : String) :
    h.onAttach actorId = ⟨⟨h.facet.config, some actorId,
      if h.facet.config.autoReplay then
        (((h.storage.replayEventsFrom actorId 0).getLast?).map (·.sequence)).getD
          h.facet.eventSequence
      else h.facet.eventSequence⟩, h.storage⟩ := by
  unfold onAttach replayEvents setSequence
  cases hreplay : h.facet.config.autoReplay with
  | false => simp [hreplay]
  | true =>
      cases hlast : (h.storage.replayEventsFrom actorId 0).getLast? <;> simp [hreplay, hlast]

theorem InStep.onAttach (hs : h.InStep) (hcounter : h.CounterInStep (.onAttach actorId)) :
    (h.onAttach actorId).InStep := by
  have hstorage : (h.onAttach actorId).storage.actorEvents = h.storage.actorEvents := by
    rw [onAttach_eq]
  obtain ⟨-, hevents⟩ := sequences_congr hstorage
  refine ⟨?_, hs.consecutive.congr hstorage, ?_⟩
  · rw [onAttach_eq]
    exact hs.logging
  · rw [hevents, onAttach_eq]
    rintro _ ⟨⟩
    have hlast := getLast?_replay hs.consecutive actorId
    cases hreplay : (h.storage.replayEventsFrom actorId 0).getLast? with
    | none =>
        rw [hreplay] at hlast
        rcases hcounter with ⟨-, hsome⟩ | hcounter
        · exact absurd hlast hsome
        · simpa using hcounter
    | some lastEvent =>
        rw [hreplay] at hlast
        rcases hcounter with ⟨hauto, -⟩ | hcounter
        · rw [if_pos hauto]
          exact hlast
        · split_ifs
          · exact hlast
          · exact hcounter

/-- A number that is one more than those stored is not taken. -/
theorem insert_next (hc : h.Consecutive) {ulid : String} (payload : ActorEvent)
    {number : UInt64} (hulid : ulid ∉ h.storage.actorEvents.rows.map Row.id)
    (hnumber : number.toInt64.toInt = (h.events actorId).length + 1) :
    ∃ t, h.storage.actorEvents.insert ⟨ulid, actorId, number, payload⟩ number = .ok t ∧
      t.rows = h.storage.actorEvents.rows ++ [⟨ulid, actorId, number.toInt64, payload⟩] := by
  have hfree : h.storage.actorEvents.Free ⟨ulid, actorId, number, payload⟩ number := by
    refine ⟨fun hmem => ?_, hulid⟩
    obtain ⟨r, hr, hkey⟩ := List.mem_map.mp hmem
    obtain ⟨hactor, hsequence⟩ := Prod.mk.inj hkey
    have hstored : number.toInt64.toInt ∈ h.sequences actorId :=
      List.mem_map_of_mem (Rows.mem_numbers.mpr ⟨r, hr, hactor, hsequence⟩)
    rw [hc actorId, mem_upTo, hnumber] at hstored
    omega
  obtain ⟨t, ht⟩ := Rows.exists_insert_iff.mpr hfree
  exact ⟨t, ht, Rows.rows_of_insert ht⟩

/-- The next number fits an `i64`. -/
theorem toInt_next {n : UInt64} (hroom : n.toNat + 1 < 2 ^ 63) :
    (n + 1).toNat = n.toNat + 1 ∧ (n + 1).toInt64.toInt = (n.toNat : Int) + 1 := by
  have hone : (1 : UInt64).toNat = 1 := rfl
  have hnat : (n + 1).toNat = n.toNat + 1 := by
    rw [UInt64.toNat_add, hone]
    exact Nat.mod_eq_of_lt (by omega)
  have hbits : (n + 1).toBitVec.toNat = n.toNat + 1 := hnat
  refine ⟨hnat, ?_⟩
  change (n + 1).toBitVec.toInt = _
  rw [BitVec.toInt_eq_toNat_of_lt (by omega), hbits]
  rfl

/-- A method of an attached facet stores its event under the next number. -/
theorem afterMethod_spec (hs : h.InStep) (hactor : h.facet.actorId = some actorId)
    (methodName : String) (result : Bytes) (now : Nat) {ulid : String}
    (hulid : ulid ∉ h.storage.actorEvents.rows.map Row.id)
    (hroom : (h.events actorId).length + 1 < 2 ^ 63) :
    (h.afterMethod methodName result now ulid).1 = .ok () ∧
      (h.afterMethod methodName result now ulid).2.facet =
        { h.facet with eventSequence := h.facet.eventSequence + 1 } ∧
      (h.afterMethod methodName result now ulid).2.storage.actorEvents.rows =
        h.storage.actorEvents.rows ++ [⟨ulid, actorId, (h.facet.eventSequence + 1).toInt64,
          ⟨methodName, result, now, ""⟩⟩] := by
  have hcounter := hs.counter actorId hactor
  rw [← hcounter] at hroom
  obtain ⟨hnat, hint⟩ := toInt_next hroom
  have hnonzero : h.facet.eventSequence + 1 ≠ 0 := by
    intro hzero
    rw [hzero] at hnat
    cases hnat
  rw [hcounter] at hint
  obtain ⟨t, ht, hrows⟩ := insert_next hs.consecutive ⟨methodName, result, now, ""⟩ hulid hint
  unfold afterMethod logEvent setSequence SqliteJournalStorage.appendEvent
    SqliteJournalStorage.numberEvent
  simp [hs.logging, hactor, hnonzero, ht, hrows, Except.map]

theorem sequences_of_rows {r : Row ActorEvent}
    (hrows : h'.storage.actorEvents.rows = h.storage.actorEvents.rows ++ [r]) (actorId : String) :
    h'.sequences actorId = h.sequences actorId ++
        (if r.actorId = actorId then [r.sequence.toInt] else []) ∧
      h'.events actorId = h.events actorId ++ if r.actorId = actorId then [r.payload] else [] := by
  unfold sequences events Rows.numbers Table.select
  rw [hrows, List.filter_append, List.map_append, List.map_append, List.map_append]
  by_cases hactor : r.actorId = actorId <;> simp [hactor]

/-- Each call keeps the facet in step, succeeds and adds the event it is to log. -/
theorem InStep.after (hs : h.InStep) (hproper : h.Proper c) (hcounter : h.CounterInStep c) :
    (h.after c).InStep ∧ (h.call c).1 = .ok () ∧
      ∀ actorId, (h.after c).events actorId = h.events actorId ++ h.loggedBy actorId c := by
  cases c with
  | onAttach attached =>
      have hstorage : (h.onAttach attached).storage.actorEvents = h.storage.actorEvents := by
        rw [onAttach_eq]
      refine ⟨hs.onAttach hcounter, rfl, fun actorId => ?_⟩
      exact (congrFun (sequences_congr hstorage).2 actorId).trans (List.append_nil _).symm
  | onDetach =>
      refine ⟨⟨hs.logging, hs.consecutive, ?_⟩, rfl, fun _ => (List.append_nil _).symm⟩
      intro actorId hactor
      cases hactor
  | restart config =>
      refine ⟨⟨hproper, hs.consecutive, ?_⟩, rfl, fun _ => (List.append_nil _).symm⟩
      intro actorId hactor
      cases hactor
  | afterMethod methodName result now ulid =>
      obtain ⟨hulid, attached, hactor, hroom⟩ := hproper
      obtain ⟨hok, hfacet, hrows⟩ := afterMethod_spec hs hactor methodName result now hulid hroom
      have hcounter := hs.counter attached hactor
      obtain ⟨hnat, hint⟩ := toInt_next (hcounter ▸ hroom)
      have hstored := sequences_of_rows hrows
      have hactor' : ∀ actorId, (attached = actorId ↔ h.facet.actorId = some actorId) := by
        intro actorId
        rw [hactor, Option.some_inj]
      refine ⟨⟨?_, ?_, ?_⟩, hok, ?_⟩
      · change (h.afterMethod methodName result now ulid).2.facet.config.eventLogEnabled = true
        rw [hfacet]
        exact hs.logging
      · intro actorId
        change (h.afterMethod methodName result now ulid).2.sequences actorId =
          upTo ((h.afterMethod methodName result now ulid).2.events actorId).length
        rw [(hstored actorId).1, (hstored actorId).2, hs.consecutive actorId]
        split_ifs with hsame
        · cases hsame
          rw [List.length_append, List.length_singleton, upTo_succ, hint, hcounter]
        · rw [List.append_nil, List.append_nil]
      · intro actorId hattached
        change (h.afterMethod methodName result now ulid).2.facet.eventSequence.toNat =
          ((h.afterMethod methodName result now ulid).2.events actorId).length
        change (h.afterMethod methodName result now ulid).2.facet.actorId =
          some actorId at hattached
        rw [hfacet] at hattached ⊢
        rw [(hstored actorId).2, if_pos ((hactor' actorId).mpr hattached), List.length_append,
          List.length_singleton]
        exact hnat.trans (congrArg (· + 1) (hs.counter actorId hattached))
      · intro actorId
        change (h.afterMethod methodName result now ulid).2.events actorId = _
        rw [(hstored actorId).2, loggedBy]
        simp only [hactor' actorId]

end Steps

def start (config : EventSourcingConfig) (storage : SqliteJournalStorage E ActorEvent) :
    EventHost E :=
  ⟨.new config, storage⟩

/-- In every run whose attaches find or set the right counter, each method succeeds, and the
events of each actor are those that the calls of the run are to log for it after those it had,
numbered from 1 on. -/
theorem one_event_per_call (config : EventSourcingConfig)
    (storage : SqliteJournalStorage E ActorEvent) (cs : List EventCall)
    (hlogging : config.eventLogEnabled = true) (hstored : (start config storage).Consecutive)
    (hrun : Along after (fun h c => h.Proper c ∧ h.CounterInStep c) (start config storage) cs) :
    Along after (fun h c => (h.call c).1 = .ok ()) (start config storage) cs ∧
      ∀ actorId,
        (run after (start config storage) cs).sequences actorId =
            upTo ((run after (start config storage) cs).events actorId).length ∧
          (run after (start config storage) cs).events actorId =
            (start config storage).events actorId ++
              loggedAlong actorId (start config storage) cs := by
  have hstart : (start config storage).InStep := by
    refine ⟨hlogging, hstored, ?_⟩
    intro actorId hactor
    cases hactor
  generalize start config storage = h at hstart hrun ⊢
  refine ⟨hrun.of_invariant (fun h c hs hc => ?_) hstart, fun actorId => ⟨?_, ?_⟩⟩
  · obtain ⟨hnext, hok, -⟩ := hs.after hc.1 hc.2
    exact ⟨hok, hnext⟩
  · have hend : (run after h cs).InStep :=
      hrun.invariant (fun h c hs hc => (hs.after hc.1 hc.2).1) hstart
    exact hend.consecutive actorId
  · induction cs generalizing h with
    | nil => exact (List.append_nil _).symm
    | cons c cs ih =>
        obtain ⟨⟨hproper, hcounter⟩, hrest⟩ := hrun
        obtain ⟨hnext, -, hevents⟩ := hstart.after hproper hcounter
        rw [run_cons, ih _ hnext hrest, hevents, List.append_assoc, loggedAlong]

section Examples

instance (h : EventHost E) (c : EventCall) : Decidable (h.Proper c) :=
  match c with
  | .afterMethod _ _ _ _ => inferInstanceAs (Decidable (_ ∧ _))
  | .restart _ => inferInstanceAs (Decidable (_ = true))
  | .onAttach _ | .onDetach => inferInstanceAs (Decidable True)

instance (h : EventHost E) (c : EventCall) : Decidable (h.CounterInStep c) :=
  match c with
  | .onAttach _ => inferInstanceAs (Decidable (_ ∨ _))
  | .afterMethod _ _ _ _ | .onDetach | .restart _ => inferInstanceAs (Decidable True)

def noEvents : SqliteJournalStorage Unit ActorEvent :=
  ⟨⟨Table.empty, Table.empty, Table.empty, Table.empty⟩, ∅⟩

/-- Two methods of actor `a` with a restart between them. -/
def acrossRestart (config : EventSourcingConfig) : List EventCall :=
  [.onAttach "a", .afterMethod "m" [1] 0 "1", .restart config, .onAttach "a",
    .afterMethod "m" [2] 1 "2"]

theorem one_event_per_call_acrossRestart :
    Along after (fun h c => (h.call c).1 = .ok ()) (start ⟨true, true⟩ noEvents)
        (acrossRestart ⟨true, true⟩) ∧
      ∀ actorId,
        (run after (start ⟨true, true⟩ noEvents) (acrossRestart ⟨true, true⟩)).sequences actorId =
            upTo ((run after (start ⟨true, true⟩ noEvents)
              (acrossRestart ⟨true, true⟩)).events actorId).length ∧
          (run after (start ⟨true, true⟩ noEvents) (acrossRestart ⟨true, true⟩)).events actorId =
            (start ⟨true, true⟩ noEvents).events actorId ++
              loggedAlong actorId (start ⟨true, true⟩ noEvents) (acrossRestart ⟨true, true⟩) :=
  one_event_per_call ⟨true, true⟩ noEvents (acrossRestart ⟨true, true⟩) rfl (fun _ => rfl)
    (by decide +kernel)

/-- Without automatic replay, the counter of the fresh facet is 0, and the event gets the number
of the one that is stored. -/
theorem not_one_event_per_call :
    ¬∀ (config : EventSourcingConfig) (storage : SqliteJournalStorage Unit ActorEvent)
      (cs : List EventCall), config.eventLogEnabled = true →
        (start config storage).Consecutive → Along after Proper (start config storage) cs →
          Along after (fun h c => (h.call c).1 = .ok ()) (start config storage) cs := by
  intro h
  have hrun := h ⟨true, false⟩ noEvents (acrossRestart ⟨true, false⟩) rfl (fun _ => rfl)
    (by decide +kernel)
  exact absurd hrun (by decide +kernel)

end Examples

end EventHost

end PlexSpaces.Journaling
