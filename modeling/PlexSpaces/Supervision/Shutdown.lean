import PlexSpaces.Lib.Timed

/-!
# Shutting down a supervision tree

A supervisor shuts down its child supervisors first, the last started first, each under a
timeout, and then its actors, the last started first.  The shutdown of a child supervisor is the
same function run under the timeout of the parent: where it is not over in time it is dropped
where it stands, and nobody shuts down the rest of that subtree.

How long an actor needs to stop, how long somebody else holds a lock and how long the channel of
the events is full are parameters, and any of them may be for ever.  Times are in nanoseconds.  No
child is added or removed while the shutdown runs.
-/

namespace PlexSpaces.Supervision

open PlexSpaces.Lib

variable {ι : Type}

/-- What a shutdown leaves to be seen. -/
inductive ShutdownMark (ι : Type)
  | unregistered (parent child : ι)
  | taskAborted (supervisor : ι)
  | actorStopped (actor : ι)
  | actorAborted (actor : ι)
  | childStopped (parent child : ι)

/-- The supervisor itself: `registry` says whether its locator has an actor registry, `listener`
whether the receiver of its events is still there. -/
structure ShutdownSupervisor (ι : Type) where
  id : ι
  defaultShutdownTimeout : Option Nat
  registry : Bool
  listener : Bool
  childSupervisorsWrite : ℕ∞
  childrenRead : ℕ∞
  childrenWrite : ℕ∞
  childrenClear : ℕ∞

/-- An entry of `ActorShutdownInfo`; `stopTakes` is for the lock of the actor and its `stop`. -/
structure ActorShutdownInfo (ι : Type) where
  id : ι
  handle : Bool
  shutdownTimeout : Option Nat
  stopTakes : ℕ∞
  unregisterTakes : ℕ∞
  eventTakes : ℕ∞

/-- An entry of `SupervisorShutdownInfo`; `lockTakes` is for the lock of the child supervisor. -/
structure SupervisorShutdownInfo (ι : Type) where
  id : ι
  handle : Bool
  shutdownTimeoutMs : Option Nat
  lockTakes : ℕ∞
  unregisterTakes : ℕ∞
  eventTakes : ℕ∞

mutual

/-- A supervisor with its children, the first started first. -/
inductive SupervisorTree (ι : Type)
  | node (own : ShutdownSupervisor ι) (childSupervisors : SupervisorForest ι)
      (children : List (ActorShutdownInfo ι))

inductive SupervisorForest (ι : Type)
  | nil
  | cons (info : SupervisorShutdownInfo ι) (supervisor : SupervisorTree ι)
      (rest : SupervisorForest ι)

end

/-- `Duration::from_millis`. -/
def fromMillis (ms : Nat) : Nat := ms * 1000000

/-- `d.as_millis() as u64`. -/
def ActorShutdownInfo.shutdownTimeoutMs (c : ActorShutdownInfo ι) : Option Nat :=
  c.shutdownTimeout.map fun d => d / 1000000 % 2 ^ 64

namespace ShutdownSupervisor

open Timed

variable (own : ShutdownSupervisor ι)

def safetyTimeout : Nat := own.defaultShutdownTimeout.getD 1000000000

def supervisorTimeout (info : SupervisorShutdownInfo ι) : Nat :=
  match info.shutdownTimeoutMs with
  | some timeout => fromMillis timeout
  | none => own.safetyTimeout

/-- The budget of an actor; `some 0` is the brutal kill. -/
def actorTimeout (c : ActorShutdownInfo ι) : Nat :=
  match c.shutdownTimeoutMs with
  | some timeout => fromMillis timeout
  | none => own.safetyTimeout

/-- `unregister_parent_child`. -/
def unregister (child : ι) (takes : ℕ∞) : Timed (ShutdownMark ι) :=
  if own.registry then (wait takes).andThen (mark (.unregistered own.id child)) else skip

/-- `event_tx.send` of a `ChildStopped`. -/
def report (child : ι) (takes : ℕ∞) : Timed (ShutdownMark ι) :=
  if own.listener then (wait takes).andThen (mark (.childStopped own.id child)) else skip

def abortHandle (c : ActorShutdownInfo ι) : Timed (ShutdownMark ι) :=
  if c.handle then mark (.actorAborted c.id) else skip

def abortTask (info : SupervisorShutdownInfo ι) : Timed (ShutdownMark ι) :=
  if info.handle then mark (.taskAborted info.id) else skip

/-- `stop_future` up to the end of `stop`. -/
def stop (c : ActorShutdownInfo ι) : Timed (ShutdownMark ι) :=
  (wait c.stopTakes).andThen (mark (.actorStopped c.id))

def endActor (c : ActorShutdownInfo ι) : Timed (ShutdownMark ι) :=
  match c.shutdownTimeoutMs with
  | some 0 => abortHandle c
  | some timeoutMs =>
      timeout (fromMillis timeoutMs) ((stop c).andThen (abortHandle c)) (abortHandle c)
  | none => (cut own.safetyTimeout (stop c)).andThen (abortHandle c)

def shutdownActor (c : ActorShutdownInfo ι) : Timed (ShutdownMark ι) :=
  (own.endActor c).andThen (own.report c.id c.eventTakes)

/-- The pass over the children before they are stopped, the first started first. -/
def unregisterChildren (children : List (ActorShutdownInfo ι)) : Timed (ShutdownMark ι) :=
  if own.registry then
    (wait own.childrenRead).andThen
      (inTurn (children.map fun c => own.unregister c.id c.unregisterTakes))
  else skip

/-- One child supervisor, whose own shutdown is `nested`. -/
def shutdownSupervisor (info : SupervisorShutdownInfo ι) (nested : Timed (ShutdownMark ι)) :
    Timed (ShutdownMark ι) :=
  (own.unregister info.id info.unregisterTakes).andThen <|
  (abortTask info).andThen <|
  (cut (own.supervisorTimeout info) ((wait info.lockTakes).andThen nested)).andThen <|
  own.report info.id info.eventTakes

def shutdownChildren (children : List (ActorShutdownInfo ι)) : Timed (ShutdownMark ι) :=
  (own.unregisterChildren children).andThen <|
  (wait own.childrenWrite).andThen <|
  (inTurn (children.reverse.map own.shutdownActor)).andThen <|
  wait own.childrenClear

end ShutdownSupervisor

open Timed ShutdownSupervisor

mutual

def SupervisorTree.shutdown : SupervisorTree ι → Timed (ShutdownMark ι)
  | .node own childSupervisors children =>
      (wait own.childSupervisorsWrite).andThen <|
      (childSupervisors.shutdownReversed own).andThen <|
      own.shutdownChildren children

/-- The child supervisors of `own`, the last started first. -/
def SupervisorForest.shutdownReversed (own : ShutdownSupervisor ι) :
    SupervisorForest ι → Timed (ShutdownMark ι)
  | .nil => skip
  | .cons info supervisor rest =>
      (rest.shutdownReversed own).andThen (own.shutdownSupervisor info supervisor.shutdown)

end

/-! ## What a shutdown is for -/

namespace ShutdownSupervisor

variable (own : ShutdownSupervisor ι)

def unregisterWait (takes : ℕ∞) : ℕ∞ := if own.registry then takes else 0

def reportWait (takes : ℕ∞) : ℕ∞ := if own.listener then takes else 0

/-- The waits of `shutdownSupervisor` that no timeout is set on. -/
def supervisorWait (info : SupervisorShutdownInfo ι) : ℕ∞ :=
  own.unregisterWait info.unregisterTakes + own.reportWait info.eventTakes

/-- The waits of `shutdownChildren` that no timeout is set on. -/
def childrenWait (children : List (ActorShutdownInfo ι)) : ℕ∞ :=
  (if own.registry then
    own.childrenRead + (children.map fun c => own.unregisterWait c.unregisterTakes).sum else 0)
  + own.childrenWrite + (children.map fun c => own.reportWait c.eventTakes).sum
  + own.childrenClear

def unregisterMark (child : ι) : List (ShutdownMark ι) :=
  if own.registry then [.unregistered own.id child] else []

def reportMark (child : ι) : List (ShutdownMark ι) :=
  if own.listener then [.childStopped own.id child] else []

def StopsInTime (c : ActorShutdownInfo ι) : Prop :=
  c.shutdownTimeoutMs ≠ some 0 ∧ c.stopTakes ≤ own.actorTimeout c

instance (c : ActorShutdownInfo ι) : Decidable (own.StopsInTime c) :=
  inferInstanceAs (Decidable (_ ∧ _))

/-- An actor stops by itself where it has the time, and then its task is aborted. -/
def actorOrder (c : ActorShutdownInfo ι) : List (ShutdownMark ι) :=
  (if own.StopsInTime c then [.actorStopped c.id] else [])
  ++ (if c.handle then [.actorAborted c.id] else []) ++ own.reportMark c.id

def childrenOrder (children : List (ActorShutdownInfo ι)) : List (ShutdownMark ι) :=
  (children.flatMap fun c => own.unregisterMark c.id) ++ children.reverse.flatMap own.actorOrder

def supervisorOrder (info : SupervisorShutdownInfo ι) (nested : List (ShutdownMark ι)) :
    List (ShutdownMark ι) :=
  own.unregisterMark info.id ++ (if info.handle then [.taskAborted info.id] else [])
  ++ nested ++ own.reportMark info.id

end ShutdownSupervisor

mutual

def SupervisorTree.stopOrder : SupervisorTree ι → List (ShutdownMark ι)
  | .node own childSupervisors children =>
      childSupervisors.stopOrder own ++ own.childrenOrder children

def SupervisorForest.stopOrder (own : ShutdownSupervisor ι) :
    SupervisorForest ι → List (ShutdownMark ι)
  | .nil => []
  | .cons info supervisor rest =>
      rest.stopOrder own ++ own.supervisorOrder info supervisor.stopOrder

end

/-- The waits of a supervisor that no timeout is set on, for its child supervisors. -/
def SupervisorForest.ownWait (own : ShutdownSupervisor ι) : SupervisorForest ι → ℕ∞
  | .nil => 0
  | .cons info _ rest => rest.ownWait own + own.supervisorWait info

def SupervisorForest.allowance (own : ShutdownSupervisor ι) : SupervisorForest ι → Nat
  | .nil => 0
  | .cons info _ rest => rest.allowance own + own.supervisorTimeout info

namespace SupervisorTree

/-- The waits of the root that no timeout is set on. -/
def ownWait : SupervisorTree ι → ℕ∞
  | .node own childSupervisors children =>
      own.childSupervisorsWrite + childSupervisors.ownWait own + own.childrenWait children

/-- The budgets of the root's own children together. -/
def allowance : SupervisorTree ι → Nat
  | .node own childSupervisors children =>
      childSupervisors.allowance own + (children.map own.actorTimeout).sum

end SupervisorTree

def SupervisorForest.ownOrder (own : ShutdownSupervisor ι) :
    SupervisorForest ι → List (ShutdownMark ι)
  | .nil => []
  | .cons info _ rest => rest.ownOrder own ++ own.supervisorOrder info []

def SupervisorShutdownInfo.nested (info : SupervisorShutdownInfo ι)
    (supervisor : SupervisorTree ι) : Timed (ShutdownMark ι) :=
  (Timed.wait info.lockTakes).andThen supervisor.shutdown

/-- The stop order, each nested shutdown dropped at its deadline. -/
def SupervisorForest.droppedOrder (own : ShutdownSupervisor ι) :
    SupervisorForest ι → List (ShutdownMark ι)
  | .nil => []
  | .cons info supervisor rest =>
      rest.droppedOrder own ++ own.supervisorOrder info
        (Timed.cut (own.supervisorTimeout info) (info.nested supervisor)).names

mutual

/-- No supervisor of the tree waits for ever where no timeout is set. -/
def SupervisorTree.WaitsEnd : SupervisorTree ι → Prop
  | .node own childSupervisors children =>
      (SupervisorTree.node own childSupervisors children).ownWait ≠ ⊤ ∧ childSupervisors.WaitsEnd

def SupervisorForest.WaitsEnd : SupervisorForest ι → Prop
  | .nil => True
  | .cons info supervisor rest => rest.WaitsEnd ∧ info.lockTakes ≠ ⊤ ∧ supervisor.WaitsEnd

end

mutual

/-- No nested shutdown has anything left to do at its deadline. -/
def SupervisorTree.InTime : SupervisorTree ι → Prop
  | .node own childSupervisors _ => childSupervisors.InTime own

def SupervisorForest.InTime (own : ShutdownSupervisor ι) : SupervisorForest ι → Prop
  | .nil => True
  | .cons info supervisor rest =>
      rest.InTime own ∧ (info.nested supervisor).By (own.supervisorTimeout info)
      ∧ supervisor.InTime

end

namespace SupervisorTree

def ownOrder : SupervisorTree ι → List (ShutdownMark ι)
  | .node own childSupervisors children =>
      childSupervisors.ownOrder own ++ own.childrenOrder children

def droppedOrder : SupervisorTree ι → List (ShutdownMark ι)
  | .node own childSupervisors children =>
      childSupervisors.droppedOrder own ++ own.childrenOrder children

end SupervisorTree

end PlexSpaces.Supervision
