import PlexSpaces.Actors.ActorId
import PlexSpaces.Lib.Assoc
import PlexSpaces.Lib.Run
import PlexSpaces.Journaling.Reminder
import Mathlib.Data.List.Sort
import Mathlib.Logic.Function.Basic
/-!
# Reminder facets over one storage

Each facet keeps the reminders of its actor in memory and runs a loop that fires what is due in
the table.  The loop queries the due reminders, and then sends, stores and remembers them one by
one; a call of the facet writes the table and the memory in separate steps, too.  The steps of
all facets may come in any order, except that a facet does one call at a time, and that its loop
waits for a call that holds the lock on the memory.  Statements on the table succeed.
-/

namespace PlexSpaces.Journaling

open PlexSpaces.Lib PlexSpaces.Actors

abbrev Reminders := Table ReminderState ReminderState.key

namespace Reminders

def registerReminder (t : Reminders) (r : ReminderState) : Reminders := t.insertOrReplace r

def unregisterReminder (t : Reminders) (actorId reminderName : String) : Reminders :=
  t.deleteKeys [(actorId, reminderName)]

def loadReminders (t : Reminders) (actorId : String) : List ReminderState :=
  t.select fun r => r.registration.actorId = actorId ∧ r.isActive

def updateReminder (t : Reminders) (r : ReminderState) : Reminders :=
  t.update r.key r.overwrite r.overwrite_key

def isDue (now : Nat) (r : ReminderState) : Bool :=
  r.isActive && match r.nextFireTime with
    | none => false
    | some t => t ≤ now / 1000000 * 1000000

def queryDueReminders (t : Reminders) (now : Nat) : List ReminderState :=
  (t.select (isDue now)).insertionSort fun r r' =>
    r.nextFireTime.getD 0 ≤ r'.nextFireTime.getD 0

end Reminders

inductive ReminderError
  | notAttached
  | invalidRegistration (reason : String)
  | reminderExists (name : String)
  | reminderNotFound (name : String)
  deriving DecidableEq

namespace ReminderState

def second : Nat := 1000000000

def fired (r : ReminderState) (now : Nat) : ReminderState :=
  { r with fireCount := r.fireCount + 1, lastFired := some now }

def exhausted (r : ReminderState) : Bool :=
  0 < r.registration.maxOccurrences && r.registration.maxOccurrences ≤ r.fireCount

def rescheduled (r : ReminderState) (now : Nat) : ReminderState :=
  { r with nextFireTime := some (now + r.registration.interval.getD second) }

/-- The reminder after it has fired, or `none` when it is deleted. -/
def next (r : ReminderState) (now : Nat) : Option ReminderState :=
  if (r.fired now).exhausted then none else some ((r.fired now).rescheduled now)

end ReminderState

/-- How far the loop is with the first reminder of its batch. -/
inductive FiringPhase
  | ready
  | sent
  | stored
  deriving DecidableEq

/-- The reminders that a query at `now` has returned and that are not done. -/
structure Firing where
  now : Nat
  due : List ReminderState
  phase : FiringPhase
  deriving DecidableEq

inductive BackgroundTask
  | stopped
  | sleeping
  | firing (b : Firing)
  deriving DecidableEq

def BackgroundTask.resume (now : Nat) : List ReminderState → BackgroundTask
  | [] => .sleeping
  | due => .firing ⟨now, due, .ready⟩

/-- A call that is not done.  What it has still to do with the memory and the table: -/
inductive FacetCall
  | attaching (loaded : List ReminderState)
  | registering (r : ReminderState)
  | unregistering (reminderName : String)
  | exiting (reminderNames : List String)
  | detaching (toSave : List ReminderState)
  deriving DecidableEq

/-- The call holds the write lock on the memory while it waits for the storage. -/
def FacetCall.locks : FacetCall → Bool
  | .registering _ | .unregistering _ | .exiting _ => true
  | .attaching _ | .detaching _ => false

structure ReminderFacet where
  actorId : Option String
  reminders : Assoc String ReminderState
  backgroundTask : BackgroundTask
  call : Option FacetCall

namespace ReminderFacet

def new : ReminderFacet := ⟨none, ∅, .stopped, none⟩

def startBackgroundTaskIfNeeded (f : ReminderFacet) : ReminderFacet :=
  match f.backgroundTask with
  | .stopped => { f with backgroundTask := .sleeping }
  | _ => f

/-- What `register_reminder` checks before it stores the reminder. -/
def checkRegistration (f : ReminderFacet) (reg : ReminderRegistration) (now : Nat) :
    Except ReminderError ReminderState :=
  if f.actorId.isNone then .error .notAttached
  else if reg.reminderName.isEmpty then
    .error (.invalidRegistration "reminder_name cannot be empty")
  else if (f.reminders.lookup reg.reminderName).isSome then
    .error (.reminderExists reg.reminderName)
  else
    match reg.interval with
    | none => .error (.invalidRegistration "invalid interval")
    | some interval =>
        if interval = 0 then .error (.invalidRegistration "interval must be > 0")
        else
          let firstFireTime := reg.firstFireTime.getD now
          let nextFireTime := if firstFireTime ≤ now then now else firstFireTime
          .ok ⟨reg, none, some nextFireTime, 0, true⟩

/-- The actor whose reminder `unregister_reminder` deletes. -/
def checkUnregister (f : ReminderFacet) (reminderName : String) : Except ReminderError String :=
  if (f.reminders.lookup reminderName).isNone then .error (.reminderNotFound reminderName)
  else
    match f.actorId with
    | none => .error .notAttached
    | some actorId => .ok actorId

def remember (reminders : Assoc String ReminderState) (r : ReminderState) :
    Assoc String ReminderState :=
  reminders.insert r.registration.reminderName r

/-- The reminders that `on_detach` saves. -/
def toSave (f : ReminderFacet) : List ReminderState :=
  f.reminders.values.filter fun r => r.isActive && r.registration.persistAcrossActivations

end ReminderFacet

/-- A message of the loop of a facet: the reminder and the time that it was due. -/
structure Sent (F : Type) where
  facet : F
  key : String × String
  dueAt : Option Nat
  firedAt : Nat

structure World (F : Type) where
  storage : Reminders
  facets : F → ReminderFacet
  sent : List (Sent F)
  /-- The reminders that `on_exit` has paused. -/
  paused : List (String × String)

inductive LoopAction
  | query (now : Nat)
  | send (available : Bool)
  | store
  | remember

inductive FacetAction
  | loop (a : LoopAction)
  | attach (actorId : String)
  | register (reg : ReminderRegistration) (now : Nat)
  | unregister (reminderName : String)
  | exit
  | detach
  | proceed

namespace World

variable {F : Type} [DecidableEq F]

def setFacet (w : World F) (f : F) (x : ReminderFacet) : World F :=
  { w with facets := Function.update w.facets f x }

def setTask (w : World F) (f : F) (task : BackgroundTask) : World F :=
  w.setFacet f { w.facets f with backgroundTask := task }

def loopStep (w : World F) (f : F) (a : LoopAction) : World F :=
  match a, (w.facets f).backgroundTask with
  | .query now, .sleeping =>
      w.setTask f (.resume now (w.storage.queryDueReminders now))
  | .send available, .firing ⟨now, r :: due, .ready⟩ =>
      match ActorId.fromCanonical r.registration.actorId with
      | .error _ => w.setTask f (.resume now due)
      | .ok _ =>
          let w := w.setTask f (.firing ⟨now, r :: due, .sent⟩)
          if available then { w with sent := w.sent ++ [⟨f, r.key, r.nextFireTime, now⟩] } else w
  | .store, .firing ⟨now, r :: due, .sent⟩ =>
      let storage :=
        match r.next now with
        | none => w.storage.unregisterReminder r.registration.actorId r.registration.reminderName
        | some r' => w.storage.updateReminder r'
      { w.setTask f (.firing ⟨now, r :: due, .stored⟩) with storage }
  | .remember, .firing ⟨now, r :: due, .stored⟩ =>
      if (w.facets f).call.any FacetCall.locks then w
      else
        let reminders :=
          match r.next now with
          | none => (w.facets f).reminders.erase r.registration.reminderName
          | some r' => ReminderFacet.remember (w.facets f).reminders r'
        w.setFacet f
          { w.facets f with reminders := reminders, backgroundTask := .resume now due }
  | _, _ => w

def proceed (w : World F) (f : F) : World F :=
  let x := w.facets f
  match x.call with
  | none => w
  | some (.attaching loaded) =>
      let reminders := loaded.foldl
        (fun m r => if r.isActive then ReminderFacet.remember m r else m) x.reminders
      w.setFacet f ({ x with reminders, call := none }).startBackgroundTaskIfNeeded
  | some (.registering r) =>
      w.setFacet f ({ x with
        reminders := ReminderFacet.remember x.reminders r
        call := none }).startBackgroundTaskIfNeeded
  | some (.unregistering reminderName) =>
      w.setFacet f { x with reminders := x.reminders.erase reminderName, call := none }
  | some (.exiting []) => w.setFacet f { x with call := none }
  | some (.exiting (reminderName :: reminderNames)) =>
      let w := w.setFacet f { x with call := some (.exiting reminderNames) }
      match x.reminders.lookup reminderName with
      | none => w
      | some r =>
          if r.isActive then
            let paused := { r with isActive := false }
            { w.setFacet f { x with
                reminders := x.reminders.insert reminderName paused
                call := some (.exiting reminderNames) } with
              storage := w.storage.updateReminder paused
              paused := w.paused ++ [paused.key] }
          else w
  | some (.detaching []) =>
      w.setFacet f { x with actorId := none, reminders := ∅, call := none }
  | some (.detaching (r :: toSave)) =>
      { w.setFacet f { x with call := some (.detaching toSave) } with
        storage := w.storage.updateReminder r }

/-- A call begins when no other call of the facet is going on.  `on_detach` waits until the loop
has stopped. -/
def facetStep (w : World F) (f : F) (a : FacetAction) : World F :=
  let x := w.facets f
  match a with
  | .loop a => w.loopStep f a
  | .proceed => w.proceed f
  | .attach actorId =>
      if x.call.isSome then w
      else w.setFacet f { x with
        actorId := some actorId
        call := some (.attaching (w.storage.loadReminders actorId)) }
  | .register reg now =>
      if x.call.isSome then w
      else
        match x.checkRegistration reg now with
        | .error _ => w
        | .ok r => { w.setFacet f { x with call := some (.registering r) } with
            storage := w.storage.registerReminder r }
  | .unregister reminderName =>
      if x.call.isSome then w
      else
        match x.checkUnregister reminderName with
        | .error _ => w
        | .ok actorId => { w.setFacet f { x with call := some (.unregistering reminderName) } with
            storage := w.storage.unregisterReminder actorId reminderName }
  | .exit =>
      if x.call.isSome then w
      else w.setFacet f { x with
        call := some (.exiting (x.reminders.entries.map Sigma.fst)) }
  | .detach =>
      match x.call, x.backgroundTask with
      | some _, _ | none, .firing _ => w
      | none, _ => w.setFacet f { x with
          backgroundTask := .stopped
          call := some (.detaching x.toSave) }

def step (w : World F) (a : F × FacetAction) : World F := w.facetStep a.1 a.2

def start (storage : Reminders) : World F := ⟨storage, fun _ => .new, [], []⟩

end World

end PlexSpaces.Journaling
