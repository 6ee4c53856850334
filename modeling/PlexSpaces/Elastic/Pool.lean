import Mathlib.Data.Int.Basic
import PlexSpaces.Lib.Assoc
/-!
# The elastic pool

A pool of workers with a queue of idle workers and a queue of checkouts that wait for
one.  Every call takes its locks in turn, so a call is where it stands between two lock
sections, and one step of the pool is one lock section of one call.  A client that has
checked a worker out holds it until it calls `checkin`.
-/

namespace PlexSpaces.Elastic

open PlexSpaces.Lib

inductive ElasticPoolError
  | poolDraining
  | checkoutTimeout
  | actorError (text : String)
  deriving DecidableEq, Repr

inductive WorkerState
  | available
  | busy
  deriving DecidableEq, Repr

inductive ScalingState
  | stable
  | paused
  deriving DecidableEq, Repr

/-- The bounds of `scale_by`, and `calculate_scale_amount` of the current size. -/
structure PoolConfig where
  minSize : Nat
  maxSize : Nat
  scaleAmount : Nat → Nat

/-- Where a call stands: before its next lock section, or at its end. -/
inductive Call
  | idle
  | checkout
  | takeAvailable
  | enqueue
  | waiting (response : Option (Except ElasticPoolError String))
  | checkoutWorker (worker : String)
  | checkedOut (worker : String)
  | held (worker : String)
  | failed (error : ElasticPoolError)
  | checkin (worker : String)
  | takeWaiter (worker : String)
  | serve (worker : String) (waiter : Nat)
  | respond (worker : String) (waiter : Nat)
  | refuse (error : ElasticPoolError) (worker : String) (waiter : Nat)
  | giveBack (worker : String)
  | checkinFailed (error : ElasticPoolError)
  | scaleTo (size : Nat)
  | scaleBy (delta : Int)
  | spawn (count : Nat)
  | remove (count : Nat)
  | autoScale (up : Bool)
  | scaleUp
  | scaleDown
  | removeLast (count : Nat)
  | drain
  | draining
  | delete
  | deleteCount
  | done

/-- What a caller, the constructor or the auto-scaler starts. -/
inductive Request
  | checkout
  | scaleTo (size : Nat)
  | scaleBy (delta : Int)
  | spawnWorkers (count : Nat)
  | autoScale (up : Bool)
  | drain
  | delete

def Request.call : Request → Call
  | checkout => .checkout
  | scaleTo size => .scaleTo size
  | scaleBy delta => .scaleBy delta
  | spawnWorkers count => .spawn count
  | autoScale up => .autoScale up
  | drain => .drain
  | delete => .delete

/-- The pool and its calls; a waiter is the call that queued it. -/
structure ElasticPool where
  workers : Assoc String WorkerState
  availableWorkers : List String
  checkoutQueue : List Nat
  draining : Bool
  scalingState : ScalingState
  calls : Nat → Call

namespace ElasticPool

/-- The pool before `new` has spawned its initial workers. -/
def empty : ElasticPool where
  workers := ∅
  availableWorkers := []
  checkoutQueue := []
  draining := false
  scalingState := .stable
  calls _ := .idle

/-- The call goes on to `next`. -/
def put (s : ElasticPool) (c : Nat) (next : Call) : ElasticPool :=
  { s with calls := Function.update s.calls c next }

/-- The write section of `checkout_worker`. -/
def checkoutWorker (s : ElasticPool) (worker : String) : Except ElasticPoolError ElasticPool :=
  if worker ∈ s.workers then .ok { s with workers := s.workers.insert worker .busy }
  else .error (.actorError s!"Actor {worker} not found")

/-- The response goes to a waiter that still waits; the channel of another one is closed. -/
def send (s : ElasticPool) (waiter : Nat) (response : Except ElasticPoolError String) :
    ElasticPool :=
  match s.calls waiter with
  | .waiting none => s.put waiter (.waiting (some response))
  | _ => s

/-- The write section of `spawn_workers` and of `scale_up`. -/
def spawnWorkers (s : ElasticPool) (ids : List String) : ElasticPool :=
  { s with
    workers := ids.foldl (fun workers id => workers.insert id .available) s.workers
    availableWorkers := s.availableWorkers ++ ids }

/-- The ids come out of the queue, which becomes `rest`, and out of the map. -/
def takeOut (s : ElasticPool) (ids rest : List String) : ElasticPool :=
  { s with
    workers := ids.foldl (fun workers id => workers.erase id) s.workers
    availableWorkers := rest }

/-- The write section of `remove_workers`: from the front of the queue. -/
def removeWorkers (s : ElasticPool) (count : Nat) : ElasticPool :=
  let toRemove := s.availableWorkers.take count
  s.takeOut toRemove (s.availableWorkers.filter (· ∉ toRemove))

/-- The write section of `scale_down`: from the back of the queue. -/
def removeLastWorkers (s : ElasticPool) (count : Nat) : ElasticPool :=
  let kept := s.availableWorkers.length - count
  s.takeOut (s.availableWorkers.drop kept) (s.availableWorkers.take kept)

def busyCount (s : ElasticPool) : Nat := s.workers.values.count .busy

/-- `len() as u32`. -/
def currentSize (s : ElasticPool) : Nat := s.workers.keys.length % 2 ^ 32

/-- `as i32`. -/
def asI32 (z : Int) : Int := Int.bmod z (2 ^ 32)

/-- The size that `scale_by` asks for. -/
def scaleBySize (config : PoolConfig) (currentSize : Nat) (delta : Int) : Nat :=
  let newSize := min (max (asI32 (asI32 currentSize + delta)) (asI32 config.minSize))
    (asI32 config.maxSize)
  (newSize % 2 ^ 32).toNat

def Fresh (s : ElasticPool) (ids : List String) : Prop := ids.Nodup ∧ ∀ id ∈ ids, id ∉ s.workers

instance (s : ElasticPool) (ids : List String) : Decidable (s.Fresh ids) :=
  inferInstanceAs (Decidable (_ ∧ _))

variable (config : PoolConfig)

/-- The next lock section of a call; `ids` are what a spawning call generates. -/
def advance (s : ElasticPool) (c : Nat) (ids : List String) : ElasticPool :=
  match s.calls c with
  | .checkout => s.put c (if s.draining then .failed .poolDraining else .takeAvailable)
  | .takeAvailable =>
      match s.availableWorkers with
      | worker :: rest => { s with availableWorkers := rest }.put c (.checkoutWorker worker)
      | [] => s.put c .enqueue
  | .enqueue => { s with checkoutQueue := s.checkoutQueue ++ [c] }.put c (.waiting none)
  | .waiting (some (.ok worker)) => s.put c (.held worker)
  | .waiting (some (.error e)) => s.put c (.failed e)
  | .checkoutWorker worker =>
      match s.checkoutWorker worker with
      | .ok s' => s'.put c (.checkedOut worker)
      | .error e => s.put c (.failed e)
  | .checkedOut worker => s.put c (.held worker)
  | .checkin worker =>
      if worker ∈ s.workers then
        { s with workers := s.workers.insert worker .available }.put c (.takeWaiter worker)
      else s.put c (.checkinFailed (.actorError s!"Actor {worker} not found during checkin"))
  | .takeWaiter worker =>
      match s.checkoutQueue with
      | waiter :: rest => { s with checkoutQueue := rest }.put c (.serve worker waiter)
      | [] => s.put c (.giveBack worker)
  | .serve worker waiter =>
      match s.checkoutWorker worker with
      | .ok s' => s'.put c (.respond worker waiter)
      | .error e => s.put c (.refuse e worker waiter)
  | .respond worker waiter => (s.send waiter (.ok worker)).put c .done
  | .refuse e worker waiter => (s.send waiter (.error e)).put c (.giveBack worker)
  | .giveBack worker =>
      { s with availableWorkers := s.availableWorkers ++ [worker] }.put c .done
  | .scaleTo size =>
      s.put c (if s.currentSize < size then .spawn (size - s.currentSize)
        else if size < s.currentSize then .remove (s.currentSize - size) else .done)
  | .scaleBy delta => s.put c (.scaleTo (scaleBySize config s.currentSize delta))
  | .spawn count =>
      if ids.length = count ∧ s.Fresh ids then (s.spawnWorkers ids).put c .done else s
  | .remove count => (s.removeWorkers count).put c .done
  | .autoScale up =>
      s.put c (if s.scalingState = .paused then .done else if up then .scaleUp else .scaleDown)
  | .scaleUp => s.put c (.spawn (config.scaleAmount s.currentSize))
  | .scaleDown => s.put c (.removeLast (config.scaleAmount s.currentSize))
  | .removeLast count => (s.removeLastWorkers count).put c .done
  | .drain => { s with draining := true }.put c .draining
  | .draining => if s.busyCount = 0 then s.put c .done else s
  | .delete => { s with scalingState := .paused }.put c .deleteCount
  | .deleteCount => s.put c (.remove s.workers.keys.length)
  | _ => s

inductive Step
  | start (c : Nat) (request : Request)
  | advance (c : Nat) (ids : List String)
  | checkin (c : Nat)
  | timeout (c : Nat)

/-- A step that is not possible changes nothing.  The wait of a checkout can time out just after
its response was sent. -/
def step (s : ElasticPool) : Step → ElasticPool
  | .start c request =>
      match s.calls c with
      | .idle => s.put c request.call
      | _ => s
  | .advance c ids => s.advance config c ids
  | .checkin c =>
      match s.calls c with
      | .held worker => s.put c (.checkin worker)
      | _ => s
  | .timeout c =>
      match s.calls c with
      | .waiting _ | .draining => s.put c (.failed .checkoutTimeout)
      | _ => s

end ElasticPool

end PlexSpaces.Elastic
