import Mathlib.Data.List.Sort
import PlexSpaces.Lib.Assoc
import PlexSpaces.Lib.Pool

/-!
# The application manager

The manager keeps the applications of a node in one table behind a lock.  A method takes the lock
several times and lets it go in between, so other methods run between its sections; `start` and
`stop` keep the lock while they wait for the application itself.  A call may be dropped wherever it
waits: between two sections it just never goes on, and inside one the section ends as it stands.

What an application does, what the object registry answers, where a call is dropped and in which
order the table is gone through are parameters of the calls.  Every application that is registered
gets a number of its own, which no method reads; it tells two registrations under one name apart.
-/

namespace PlexSpaces.Applications

open PlexSpaces.Lib

inductive ApplicationState
  | created
  | starting
  | running
  | stopping
  | stopped
  | failed
  deriving DecidableEq

def ApplicationState.debug : ApplicationState → String
  | created => "ApplicationStateCreated"
  | starting => "ApplicationStateStarting"
  | running => "ApplicationStateRunning"
  | stopping => "ApplicationStateStopping"
  | stopped => "ApplicationStateStopped"
  | failed => "ApplicationStateFailed"

inductive ApplicationError
  | startupFailed (message : String)
  | shutdownFailed (message : String)
  | notFound (message : String)
  | dependencyFailed (message : String)
  | configError (message : String)
  | shutdownTimeout (seconds nanos : Nat)
  | actorSpawnFailed (actor message : String)
  | actorStopFailed (actor message : String)
  | other (message : String)

def ApplicationError.toText : ApplicationError → String
  | startupFailed message => "Application startup failed: " ++ message
  | shutdownFailed message => "Application shutdown failed: " ++ message
  | notFound message => "Application not found: " ++ message
  | dependencyFailed message => "Application dependency failed: " ++ message
  | configError message => "Application configuration error: " ++ message
  | shutdownTimeout seconds nanos =>
      "Application shutdown timeout exceeded (Duration \x7b seconds: " ++ toString seconds
        ++ ", nanos: " ++ toString nanos ++ " \x7d)"
  | actorSpawnFailed actor message => "Actor spawn failed for '" ++ actor ++ "': " ++ message
  | actorStopFailed actor message => "Actor stop failed for '" ++ actor ++ "': " ++ message
  | other message => "Application error: " ++ message

/-- What the manager reads of an application; only a WASM application has an application id. -/
structure Application where
  name : String
  applicationId : Option String
  moduleHash : Option String

structure ApplicationInstance where
  serial : Nat
  app : Application
  state : ApplicationState
  tenantId : String

/-- `nodeContext` says whether the context is set, and whether it leads to an object registry. -/
structure ApplicationManager where
  applications : Assoc String ApplicationInstance
  shutdownRequested : Bool
  nodeContext : Option Bool
  registered : Nat

def ApplicationManager.new : ApplicationManager := ⟨∅, false, none, 0⟩

/-! ## Sections -/

/-- How `app.start` ends. -/
inductive StartOutcome
  | ok
  | failed (e : ApplicationError)
  | dropped

/-- How `app.stop` ends under its timeout. -/
inductive StopOutcome
  | ok
  | failed (e : ApplicationError)
  | timedOut
  | dropped

/-- A hash map is gone through in some order: by a rank of its keys. -/
abbrev Order : Type := String → Nat

/-- The sections of the methods under the lock, with what the applications do in them. -/
inductive Request
  | setNodeContext (hasRegistry : Bool)
  | ensureNodeContext (hasRegistry : Bool)
  | nodeContext
  | resolveId (id : String) (order : Order)
  | containsKey (name : String)
  | insert (app : Application) (tenantId : String)
  | start (name : String) (outcome : StartOutcome)
  | requestShutdown
  | running (order : Order)
  | stop (name : String) (outcome : StopOutcome)
  | inspect (name : String)
  | remove (name : String)
  | cleanup (serial : Nat) (outcome : Except ApplicationError Unit)

inductive StartReply
  | notFound
  | notCreated (state : ApplicationState)
  | noContext (serial : Nat)
  | ran (serial : Nat) (outcome : StartOutcome)

inductive StopReply
  | notFound
  | notRunning
  | ran (serial : Nat) (outcome : StopOutcome)

inductive InspectReply
  | notFound
  | running
  | idle (moduleHash : Option String)

inductive RemoveReply
  | notFound
  | running
  | removed (serial : Nat)

@[reducible] def Reply : Request → Type
  | .nodeContext => Option Bool
  | .resolveId _ _ => String
  | .containsKey _ => Bool
  | .insert _ _ => Option Nat
  | .start _ _ => StartReply
  | .running _ => List (String × Nat)
  | .stop _ _ => StopReply
  | .inspect _ => InspectReply
  | .remove _ => RemoveReply
  | .cleanup _ _ => Except ApplicationError Unit
  | _ => Unit

namespace ApplicationManager

/-- The table as it is gone through. -/
def inOrder (s : ApplicationManager) (order : Order) :
    List (Sigma fun _ : String => ApplicationInstance) :=
  s.applications.entries.insertionSort fun e e' => order e.1 ≤ order e'.1

/-- An exact key, or else the first WASM application with this application id. -/
def resolveId (s : ApplicationManager) (id : String) (order : Order) : String :=
  if id ∈ s.applications then id
  else
    (((s.inOrder order).find? fun e => e.2.app.applicationId == some id).map Sigma.fst).getD id

/-- `instance.state = state`. -/
def setState (s : ApplicationManager) (name : String) (inst : ApplicationInstance)
    (state : ApplicationState) : ApplicationManager :=
  { s with applications := s.applications.insert name { inst with state := state } }

def insert (s : ApplicationManager) (app : Application) (tenantId : String) :
    Option Nat × ApplicationManager :=
  if app.name ∈ s.applications then (none, s)
  else
    (some s.registered,
      { s with
        applications := s.applications.insert app.name ⟨s.registered, app, .created, tenantId⟩
        registered := s.registered + 1 })

/-- The state in which `start` leaves the application. -/
def afterStart : StartOutcome → ApplicationState
  | .ok => .running
  | .failed _ => .failed
  | .dropped => .starting

/-- The section of `start`.  Without a context it ends early, the state already written. -/
def start (s : ApplicationManager) (name : String) (outcome : StartOutcome) :
    StartReply × ApplicationManager :=
  match s.applications.lookup name with
  | none => (.notFound, s)
  | some inst =>
      if inst.state ≠ .created then (.notCreated inst.state, s)
      else if s.nodeContext = none then (.noContext inst.serial, s.setState name inst .starting)
      else (.ran inst.serial outcome, s.setState name inst (afterStart outcome))

/-- The state in which `stop` leaves the application. -/
def afterStop : StopOutcome → ApplicationState
  | .ok => .stopped
  | .failed _ | .timedOut => .failed
  | .dropped => .stopping

def stop (s : ApplicationManager) (name : String) (outcome : StopOutcome) :
    StopReply × ApplicationManager :=
  match s.applications.lookup name with
  | none => (.notFound, s)
  | some inst =>
      if inst.state ≠ .running then (.notRunning, s)
      else (.ran inst.serial outcome, s.setState name inst (afterStop outcome))

def running (s : ApplicationManager) (order : Order) : List (String × Nat) :=
  ((s.inOrder order).filter fun e => e.2.state = .running).map fun e => (e.1, e.2.serial)

def inspect (s : ApplicationManager) (name : String) : InspectReply :=
  match s.applications.lookup name with
  | none => .notFound
  | some inst => if inst.state = .running then .running else .idle inst.app.moduleHash

def remove (s : ApplicationManager) (name : String) : RemoveReply × ApplicationManager :=
  match s.applications.lookup name with
  | none => (.notFound, s)
  | some inst =>
      if inst.state = .running then (.running, s)
      else (.removed inst.serial, { s with applications := s.applications.erase name })

def serve : (request : Request) → ApplicationManager → Reply request × ApplicationManager
  | .setNodeContext hasRegistry, s => ((), { s with nodeContext := some hasRegistry })
  | .ensureNodeContext hasRegistry, s =>
      ((), { s with nodeContext := s.nodeContext.or (some hasRegistry) })
  | .nodeContext, s => (s.nodeContext, s)
  | .resolveId id order, s => (s.resolveId id order, s)
  | .containsKey name, s => (decide (name ∈ s.applications), s)
  | .insert app tenantId, s => s.insert app tenantId
  | .start name outcome, s => s.start name outcome
  | .requestShutdown, s => ((), { s with shutdownRequested := true })
  | .running order, s => (s.running order, s)
  | .stop name outcome, s => s.stop name outcome
  | .inspect name, s => (s.inspect name, s)
  | .remove name, s => s.remove name
  | .cleanup _ outcome, s => (outcome, s)

end ApplicationManager

/-! ## Methods -/

/-- Why a call has no value: it failed, or it was dropped. -/
inductive Interrupt
  | failed (e : ApplicationError)
  | dropped

abbrev Method (α : Type) : Type := ExceptT Interrupt (Interaction Reply) α

def ask (request : Request) : Method (Reply request) := ExceptT.lift (Interaction.send request)

def fail {α : Type} (e : ApplicationError) : Method α := throw (.failed e)

def notFound (name : String) : ApplicationError := .other ("Application '" ++ name ++ "' not found")

def alreadyRegistered (name : String) : ApplicationError :=
  .other ("Application '" ++ name ++ "' already registered")

def cannotUnregister (name : String) : ApplicationError :=
  .other ("Cannot unregister running application '" ++ name ++ "'. Stop it first.")

/-- `registry` is the error of the object registry, if it fails. -/
def register (app : Application) (tenantId : String) (registry : Option String) : Method Unit := do
  if ← ask (.containsKey app.name) then fail (alreadyRegistered app.name)
  else
    match ← ask .nodeContext, registry with
    | some true, some err =>
        fail (.other ("Failed to register application '" ++ app.name
          ++ "' in object registry: " ++ err))
    | _, _ =>
        match ← ask (.insert app tenantId) with
        | none => fail (alreadyRegistered app.name)
        | some _ => pure ()

def start (id : String) (order : Order) (outcome : StartOutcome) : Method Unit := do
  let name ← ask (.resolveId id order)
  match ← ask (.start name outcome) with
  | .notFound => fail (notFound name)
  | .notCreated state =>
      fail (.other ("Application '" ++ name ++ "' is in state " ++ state.debug
        ++ ", expected Created"))
  | .noContext _ =>
      fail (.other "Node context not set. Call set_node_context() before starting applications.")
  | .ran _ .ok => pure ()
  | .ran _ (.failed e) => fail e
  | .ran _ .dropped => throw .dropped

def stop (id : String) (order : Order) (timeout : Nat) (outcome : StopOutcome) :
    Method Unit := do
  let name ← ask (.resolveId id order)
  match ← ask (.stop name outcome) with
  | .notFound => fail (notFound name)
  | .notRunning => pure ()
  | .ran _ .ok => pure ()
  | .ran _ (.failed e) => fail e
  | .ran _ .timedOut => fail (.shutdownTimeout (timeout / 10 ^ 9) (timeout % 10 ^ 9))
  | .ran _ .dropped => throw .dropped

/-- The loop of `stop_all`: the errors of the applications that were not stopped. -/
def stopEach (orders : String → Order) (timeout : Nat) (outcome : String → StopOutcome) :
    List (String × Nat) → Method (List String)
  | [] => pure []
  | (name, _) :: rest => do
      let errors ← ExceptT.mk do
        match ← (stop name (orders name) timeout (outcome name)).run with
        | .ok () => pure (.ok [])
        | .error (.failed e) => pure (.ok [name ++ ": " ++ e.toText])
        | .error .dropped => pure (.error .dropped)
      let others ← stopEach orders timeout outcome rest
      pure (errors ++ others)

/-- `stop_all`, together with what it had seen running. -/
def stopAll (order : Order) (orders : String → Order) (timeout : Nat)
    (outcome : String → StopOutcome) :
    Method (List (String × Nat) × Except ApplicationError Unit) := do
  ask .requestShutdown
  let seen ← ask (.running order)
  let errors ← stopEach orders timeout outcome seen.reverse
  if errors.isEmpty then pure (seen, .ok ())
  else
    pure (seen, .error (.other ("Failed to stop applications: " ++ ", ".intercalate errors)))

def unregister (id : String) (order : Order) (registry : Option String)
    (cleanup : Except ApplicationError Unit) : Method (Option String) := do
  let name ← ask (.resolveId id order)
  match ← ask (.inspect name) with
  | .notFound => fail (notFound name)
  | .running => fail (cannotUnregister name)
  | .idle moduleHash =>
      match ← ask .nodeContext, registry with
      | some true, some err =>
          fail (.other ("Failed to unregister application '" ++ name
            ++ "' from object registry: " ++ err))
      | _, _ =>
          match ← ask (.remove name) with
          | .notFound => fail (notFound name)
          | .running => fail (cannotUnregister name)
          | .removed serial =>
              match ← ask (.cleanup serial cleanup) with
              | .ok () => pure moduleHash
              | .error e => fail e

/-! ## Calls -/

inductive Call
  | setNodeContext (hasRegistry : Bool)
  | ensureNodeContext (hasRegistry : Bool)
  | register (app : Application) (tenantId : String) (registry : Option String)
  | start (id : String) (order : Order) (outcome : StartOutcome)
  | stop (id : String) (order : Order) (timeout : Nat) (outcome : StopOutcome)
  | stopAll (order : Order) (orders : String → Order) (timeout : Nat)
      (outcome : String → StopOutcome)
  | unregister (id : String) (order : Order) (registry : Option String)
      (cleanup : Except ApplicationError Unit)

inductive Returned
  | unit (result : Except Interrupt Unit)
  | stoppedAll (result : Except Interrupt (List (String × Nat) × Except ApplicationError Unit))
  | unregistered (result : Except Interrupt (Option String))

def program : Call → Interaction Reply Returned
  | .setNodeContext hasRegistry => .unit <$> (ask (.setNodeContext hasRegistry)).run
  | .ensureNodeContext hasRegistry => .unit <$> (ask (.ensureNodeContext hasRegistry)).run
  | .register app tenantId registry => .unit <$> (register app tenantId registry).run
  | .start id order outcome => .unit <$> (start id order outcome).run
  | .stop id order timeout outcome => .unit <$> (stop id order timeout outcome).run
  | .stopAll order orders timeout outcome =>
      .stoppedAll <$> (stopAll order orders timeout outcome).run
  | .unregister id order registry cleanup =>
      .unregistered <$> (unregister id order registry cleanup).run

abbrev LogEntry := Event Reply Returned

abbrev ManagerPool := Pool Reply ApplicationManager Returned

def after (moves : List (Move Call)) : ManagerPool :=
  run (Pool.step program ApplicationManager.serve) ⟨.new, [], []⟩ moves

end PlexSpaces.Applications
