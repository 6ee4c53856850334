import PlexSpaces.Lib.Notify
import PlexSpaces.Locks.Manager
/-!
# Background scheduler

`BackgroundScheduler::start` takes the lease of its node, spawns a worker task, which
processes the requests of the channel, and a heartbeat task, which renews the lease, and
waits for `stop`.  The tasks share the field `current_lease` and one `Notify`, and nothing
else: the worker reads neither the field nor the lock manager.

A step of the system is what one task does between two suspension points: a call of the
lock manager, a critical section on `current_lease`, or one look at a `select!`.  Any number
of calls of `start`, on any number of schedulers in any number of operating system
processes, share one lock manager.
-/

namespace PlexSpaces.Scheduler

open PlexSpaces.Lib PlexSpaces.Locks

def leaseRetryMax : Nat := 3

def leaseRetryBackoff : SystemTime := fromSecs 1

inductive BackgroundSchedulerError
  | alreadyStarted (nodeId : String)
  | lockError (message : String)
  deriving DecidableEq

abbrev BackgroundSchedulerResult (α : Type) := Except BackgroundSchedulerError α

/-- What a `BackgroundScheduler` is made of; `process` is the operating system process that
it lives in. -/
structure BackgroundScheduler (π : Type) where
  nodeId : String
  leaseDurationSecs : UInt32
  heartbeatIntervalSecs : UInt32
  process : π

namespace BackgroundScheduler

variable {π : Type} (scheduler : BackgroundScheduler π)

/-- `lease_key`, which `new` computes from the node. -/
def leaseKey : String := "scheduler:background:lease:" ++ scheduler.nodeId

def defaultContext : RequestContext := ⟨"", ""⟩

def leaseId : LockId := defaultContext.lockId scheduler.leaseKey

def acquireOptions : AcquireLockOptions where
  lockKey := scheduler.leaseKey
  holderId := scheduler.nodeId
  leaseDurationSecs := scheduler.leaseDurationSecs
  metadata := ∅

def renewOptions (lease : Lock) : RenewLockOptions where
  lockKey := scheduler.leaseKey
  holderId := scheduler.nodeId
  version := lease.version
  leaseDurationSecs := scheduler.leaseDurationSecs
  metadata := ∅

def releaseOptions (lease : Lock) : ReleaseLockOptions where
  lockKey := scheduler.leaseKey
  holderId := scheduler.nodeId
  version := lease.version
  deleteLock := false

def lockIsLive (lock : Lock) (now : SystemTime) : Bool :=
  lock.locked && decide (now / 1000000000 < lock.expiresAt / 1000000000)

end BackgroundScheduler

/-- The tasks of one call of `start`, the call itself among them. -/
inductive Task
  | start
  | worker
  | heartbeat
  deriving DecidableEq

/-- Where a call of `start` is. -/
inductive StartAt
  | idle
  | claimed
  | leased (lease : Lock)
  | polling
  | waiting
  | stopping
  | releasing (lease : Option Lock)
  | released (result : LockResult Unit)
  | returned (result : BackgroundSchedulerResult Unit)

/-- Where the worker task is; at `processing` it is inside `process_request`. -/
inductive WorkerAt (μ : Type)
  | off
  | subscribing
  | polling
  | waiting
  | processing (msg : μ)
  | ended
  deriving DecidableEq

/-- Where the heartbeat task is; `storing` is the write of a new lease to `current_lease`. -/
inductive HeartbeatAt
  | off
  | starting
  | polling
  | waiting
  | renewing (attempt : Nat) (lease : Option Lock)
  | adopting (attempt : Nat)
  | renewBackoff (attempt : Nat) (wake : SystemTime)
  | acquiring (attempt : Nat)
  | acquireBackoff (attempt : Nat) (wake : SystemTime)
  | storing (lease : Lock)
  | ended

/-- A call of `start`; `nextTick` is the deadline of the heartbeat interval. -/
structure Call (μ : Type) where
  start : StartAt := .idle
  worker : WorkerAt μ := .off
  heartbeat : HeartbeatAt := .off
  nextTick : SystemTime := 0
  aborted : Bool := false

/-- Schedulers `κ` that share a lock manager, and the calls `ι` of `start` on them. -/
structure Cluster (σ ρ ι κ π : Type) where
  lockManager : LockManager σ ρ
  scheduler : κ → BackgroundScheduler π
  target : ι → κ

/-- The stored locks, the clock, and the state of the schedulers and of the calls.  `active`
is the set of node ids that each process keeps, and `woken` has the tasks that were notified
and have not been polled since. -/
structure World (σ ι κ π μ : Type) where
  locks : σ
  clock : SystemTime
  active : π → List String := fun _ => []
  currentLease : κ → Option Lock := fun _ => none
  shutdown : κ → Notify (ι × Task) := fun _ => .new
  woken : List (ι × Task) := []
  calls : ι → Call μ := fun _ => {}

inductive StartAction (ρ : Type)
  | claim
  | acquire (r : ρ)
  | spawn
  | poll
  | wake
  | readLease
  | release (r : ρ)
  | finish

inductive WorkerAction (μ : Type)
  | subscribe (ok : Bool)
  | poll
  | next (msg : Option μ)
  | processed
  | wake
  | drop

inductive HeartbeatAction (ρ : Type)
  | begin
  | poll
  | tick
  | renew (r : ρ)
  | adopt (r : ρ)
  | retry
  | acquire (r : ρ)
  | store
  | wake
  | drop

inductive Step (ι κ μ ρ : Type)
  | pass (elapsed : Nat)
  | stop (k : κ)
  | start (i : ι) (action : StartAction ρ)
  | worker (i : ι) (action : WorkerAction μ)
  | heartbeat (i : ι) (action : HeartbeatAction ρ)

namespace World

variable {σ ι κ π μ : Type} [DecidableEq ι] [DecidableEq κ]

/-- The call `i` changes. -/
def set (w : World σ ι κ π μ) (i : ι) (call : Call μ) : World σ ι κ π μ :=
  { w with calls := Function.update w.calls i call }

def setStart (w : World σ ι κ π μ) (i : ι) (at' : StartAt) : World σ ι κ π μ :=
  w.set i { w.calls i with start := at' }

def setWorker (w : World σ ι κ π μ) (i : ι) (at' : WorkerAt μ) : World σ ι κ π μ :=
  w.set i { w.calls i with worker := at' }

def setHeartbeat (w : World σ ι κ π μ) (i : ι) (at' : HeartbeatAt) : World σ ι κ π μ :=
  w.set i { w.calls i with heartbeat := at' }

/-- `notify_one` on the `shutdown` of a scheduler. -/
def notifyOne (w : World σ ι κ π μ) (k : κ) : World σ ι κ π μ :=
  { w with
    shutdown := Function.update w.shutdown k (w.shutdown k).notifyOne.2
    woken := (w.shutdown k).notifyOne.1.toList ++ w.woken }

/-- `notified()` is polled for the first time: whether a permit was there. -/
def await (w : World σ ι κ π μ) (k : κ) (t : ι × Task) : Bool × World σ ι κ π μ :=
  (((w.shutdown k).await t).1,
    { w with shutdown := Function.update w.shutdown k ((w.shutdown k).await t).2 })

/-- `notified()` is dropped.  A notification that it has not used goes to the next task. -/
def dropNotified (w : World σ ι κ π μ) (k : κ) (t : ι × Task) : World σ ι κ π μ :=
  if t ∈ w.woken then
    { w with woken := w.woken.erase t }.notifyOne k
  else
    { w with shutdown := Function.update w.shutdown k ((w.shutdown k).cancel t) }

end World

namespace Cluster

variable {σ ρ ι κ π μ : Type} [DecidableEq ι] [DecidableEq κ] [DecidableEq π]
  (c : Cluster σ ρ ι κ π)

/-- The scheduler that a call of `start` is on. -/
def self (i : ι) : BackgroundScheduler π := c.scheduler (c.target i)

/-- `abort` on both tasks takes effect when they are next suspended. -/
def abortTasks (w : World σ ι κ π μ) (i : ι) : World σ ι κ π μ :=
  w.set i { w.calls i with start := .stopping, aborted := true }

/-- `release_node_start`, after which `start` returns. -/
def releaseNodeStart (w : World σ ι κ π μ) (i : ι) (result : BackgroundSchedulerResult Unit) :
    World σ ι κ π μ :=
  { w with
    active := Function.update w.active (c.self i).process
      ((w.active (c.self i).process).filter (· ≠ (c.self i).nodeId)) }.setStart i
    (.returned result)

/-- `start`, with `claim_node_start` and `release_lease`. -/
def startStep (w : World σ ι κ π μ) (i : ι) : StartAction ρ → World σ ι κ π μ
  | .claim =>
      match (w.calls i).start with
      | .idle =>
          if (c.self i).nodeId ∈ w.active (c.self i).process then
            w.setStart i (.returned (.error (.alreadyStarted (c.self i).nodeId)))
          else
            { w with
              active := Function.update w.active (c.self i).process
                ((c.self i).nodeId :: w.active (c.self i).process) }.setStart i .claimed
      | _ => w
  | .acquire r =>
      match (w.calls i).start with
      | .claimed =>
          match c.lockManager.acquireLock w.locks BackgroundScheduler.defaultContext
              (c.self i).acquireOptions w.clock r with
          | (.ok lease, locks) => { w with locks := locks }.setStart i (.leased lease)
          | (.error e, locks) =>
              c.releaseNodeStart { w with locks := locks } i (.error (.lockError e.display))
      | _ => w
  | .spawn =>
      match (w.calls i).start with
      | .leased lease =>
          { w with currentLease := Function.update w.currentLease (c.target i) (some lease) }.set i
            { start := .polling, worker := .subscribing, heartbeat := .starting }
      | _ => w
  | .poll =>
      match (w.calls i).start with
      | .polling =>
          match w.await (c.target i) (i, .start) with
          | (true, w') => abortTasks w' i
          | (false, w') => w'.setStart i .waiting
      | _ => w
  | .wake =>
      match (w.calls i).start with
      | .waiting =>
          if (i, Task.start) ∈ w.woken then
            abortTasks { w with woken := w.woken.erase (i, .start) } i
          else w
      | _ => w
  | .readLease =>
      match (w.calls i).start with
      | .stopping => w.setStart i (.releasing (w.currentLease (c.target i)))
      | _ => w
  | .release r =>
      match (w.calls i).start with
      | .releasing (some lease) =>
          match c.lockManager.releaseLock w.locks BackgroundScheduler.defaultContext
              ((c.self i).releaseOptions lease) w.clock r with
          | (result, locks) => { w with locks := locks }.setStart i (.released result)
      | .releasing none => c.releaseNodeStart w i (.ok ())
      | _ => w
  | .finish =>
      match (w.calls i).start with
      | .released (.ok ()) =>
          c.releaseNodeStart
            { w with currentLease := Function.update w.currentLease (c.target i) none } i (.ok ())
      | .released (.error e) => c.releaseNodeStart w i (.error (.lockError e.display))
      | _ => w

/-- `run_worker_loop`.  Of the branches of its `select!` that are ready any one is taken. -/
def workerStep (w : World σ ι κ π μ) (i : ι) : WorkerAction μ → World σ ι κ π μ
  | .subscribe ok =>
      match (w.calls i).worker with
      | .subscribing => w.setWorker i (if ok then .polling else .ended)
      | _ => w
  | .poll =>
      match (w.calls i).worker with
      | .polling =>
          match w.await (c.target i) (i, .worker) with
          | (true, w') => w'.setWorker i .ended
          | (false, w') => w'.setWorker i .waiting
      | _ => w
  | .next msg =>
      match (w.calls i).worker with
      | .polling => w.setWorker i (received msg)
      | .waiting => (w.dropNotified (c.target i) (i, .worker)).setWorker i (received msg)
      | _ => w
  | .processed =>
      match (w.calls i).worker with
      | .processing _ => w.setWorker i .polling
      | _ => w
  | .wake =>
      match (w.calls i).worker with
      | .waiting =>
          if (i, Task.worker) ∈ w.woken then
            { w with woken := w.woken.erase (i, .worker) }.setWorker i .ended
          else w
      | _ => w
  | .drop =>
      if (w.calls i).aborted then
        match (w.calls i).worker with
        | .waiting => (w.dropNotified (c.target i) (i, .worker)).setWorker i .ended
        | _ => w.setWorker i .ended
      else w
where
  /-- A request, or the end of the stream. -/
  received : Option μ → WorkerAt μ
    | some msg => .processing msg
    | none => .ended

def renewFailed (w : World σ ι κ π μ) (i : ι) (attempt : Nat) : World σ ι κ π μ :=
  w.setHeartbeat i
    (if attempt < leaseRetryMax then .renewBackoff attempt (w.clock + leaseRetryBackoff)
      else .acquiring 1)

/-- The interval has ticked: the next deadline, and the lease that is to be renewed. -/
def ticked (w : World σ ι κ π μ) (i : ι) : World σ ι κ π μ :=
  w.set i
    { w.calls i with
      heartbeat := .renewing 1 (w.currentLease (c.target i))
      nextTick := (w.calls i).nextTick + fromSecs (c.self i).heartbeatIntervalSecs.toNat }

/-- `start_heartbeat_task`, with `renew_lease`, `adopt_current_lease_if_same_holder` and
`acquire_lease`. -/
def heartbeatStep (w : World σ ι κ π μ) (i : ι) : HeartbeatAction ρ → World σ ι κ π μ
  | .begin =>
      match (w.calls i).heartbeat with
      | .starting =>
          -- An interval of zero panics; the first tick of any other is immediate.
          if (c.self i).heartbeatIntervalSecs = 0 then w.setHeartbeat i .ended
          else
            w.set i
              { w.calls i with
                heartbeat := .polling
                nextTick := w.clock + fromSecs (c.self i).heartbeatIntervalSecs.toNat }
      | _ => w
  | .poll =>
      match (w.calls i).heartbeat with
      | .polling =>
          match w.await (c.target i) (i, .heartbeat) with
          | (true, w') => w'.setHeartbeat i .ended
          | (false, w') => w'.setHeartbeat i .waiting
      | _ => w
  | .tick =>
      if (w.calls i).nextTick ≤ w.clock then
        match (w.calls i).heartbeat with
        | .polling => c.ticked w i
        | .waiting => c.ticked (w.dropNotified (c.target i) (i, .heartbeat)) i
        | _ => w
      else w
  | .renew r =>
      match (w.calls i).heartbeat with
      | .renewing attempt none => renewFailed w i attempt
      | .renewing attempt (some lease) =>
          match c.lockManager.renewLock w.locks BackgroundScheduler.defaultContext
              ((c.self i).renewOptions lease) w.clock r with
          | (.ok renewed, locks) => { w with locks := locks }.setHeartbeat i (.storing renewed)
          | (.error (.versionMismatch _ _), locks) =>
              { w with locks := locks }.setHeartbeat i (.adopting attempt)
          | (.error _, locks) => renewFailed { w with locks := locks } i attempt
      | _ => w
  | .adopt r =>
      match (w.calls i).heartbeat with
      | .adopting attempt =>
          match c.lockManager.getLock w.locks BackgroundScheduler.defaultContext
              (c.self i).leaseKey r with
          | .ok (some lock) =>
              if lock.holderId = (c.self i).nodeId ∧
                  BackgroundScheduler.lockIsLive lock w.clock then
                w.setHeartbeat i (.storing lock)
              else renewFailed w i attempt
          | _ => renewFailed w i attempt
      | _ => w
  | .retry =>
      match (w.calls i).heartbeat with
      | .renewBackoff attempt wake =>
          if wake ≤ w.clock then
            w.setHeartbeat i (.renewing (attempt + 1) (w.currentLease (c.target i)))
          else w
      | .acquireBackoff attempt wake =>
          if wake ≤ w.clock then w.setHeartbeat i (.acquiring (attempt + 1)) else w
      | _ => w
  | .acquire r =>
      match (w.calls i).heartbeat with
      | .acquiring attempt =>
          match c.lockManager.acquireLock w.locks BackgroundScheduler.defaultContext
              (c.self i).acquireOptions w.clock r with
          | (.ok lease, locks) => { w with locks := locks }.setHeartbeat i (.storing lease)
          | (.error _, locks) =>
              { w with locks := locks }.setHeartbeat i
                (if attempt < leaseRetryMax then
                    .acquireBackoff attempt (w.clock + leaseRetryBackoff)
                  else .ended)
      | _ => w
  | .store =>
      match (w.calls i).heartbeat with
      | .storing lease =>
          { w with
            currentLease := Function.update w.currentLease (c.target i) (some lease) }.setHeartbeat
            i .polling
      | _ => w
  | .wake =>
      match (w.calls i).heartbeat with
      | .waiting =>
          if (i, Task.heartbeat) ∈ w.woken then
            { w with woken := w.woken.erase (i, .heartbeat) }.setHeartbeat i .ended
          else w
      | _ => w
  | .drop =>
      if (w.calls i).aborted then
        match (w.calls i).heartbeat with
        | .waiting => (w.dropNotified (c.target i) (i, .heartbeat)).setHeartbeat i .ended
        | _ => w.setHeartbeat i .ended
      else w

def step (w : World σ ι κ π μ) : Step ι κ μ ρ → World σ ι κ π μ
  | .pass elapsed => { w with clock := w.clock + elapsed }
  | .stop k => w.notifyOne k
  | .start i action => c.startStep w i action
  | .worker i action => c.workerStep w i action
  | .heartbeat i action => c.heartbeatStep w i action

end Cluster

end PlexSpaces.Scheduler
