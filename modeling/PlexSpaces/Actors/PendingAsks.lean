import PlexSpaces.Lib.Assoc
import PlexSpaces.Lib.Run
/-!
# Pending asks

A local `ask` leaves the sending half of a one-shot channel in `PendingAsks`, under its
correlation id, and waits at the receiving half.  A message to a temporary sender takes the
entry of its correlation id out of the table and is sent on that channel.  A sweep drops the
entries whose instant has passed.

Asks, replies and the sweep run beside each other: an `Action` is one access to the table, one
use of a channel, or one look at the clock.
-/

namespace PlexSpaces.Actors

open PlexSpaces.Lib

/-- The part of a message that `ask` writes and replies are routed by, and its payload. -/
structure AskMessage where
  correlationId : String
  messageType : String
  payload : List UInt8
deriving DecidableEq, Repr

/-- `tx` is the number of the ask whose channel the entry can send on. -/
structure PendingAskEntry where
  tx : Nat
  expiresAt : Nat
deriving DecidableEq, Repr

@[ext]
structure PendingAsks where
  entries : Assoc String PendingAskEntry
  defaultTimeout : Nat

namespace PendingAsks

def shardAmount : Nat := 16

def new (defaultTimeout : Nat) : PendingAsks := ⟨∅, defaultTimeout⟩

/-- Register the ask `tx` at the instant `now`. -/
def register (p : PendingAsks) (correlationId : String) (tx timeout now : Nat) : PendingAsks :=
  { p with entries := p.entries.insert correlationId ⟨tx, now + timeout⟩ }

def cancel (p : PendingAsks) (correlationId : String) : PendingAsks :=
  { p with entries := p.entries.erase correlationId }

/-- The first half of `resolve`: the entry, taken out of the table. -/
def remove (p : PendingAsks) (correlationId : String) : Option PendingAskEntry × PendingAsks :=
  (p.entries.lookup correlationId, p.cancel correlationId)

/-- What `retain` leaves of one shard at the instant `now`. -/
def sweepShard (shardOf : String → Fin shardAmount) (k : Fin shardAmount) (now : Nat)
    (p : PendingAsks) : PendingAsks :=
  { p with entries := p.entries.retain fun cid e =>
      !(decide (shardOf cid = k) && decide (e.expiresAt ≤ now)) }

/-- `sweep_expired`: what is left, and the number swept. -/
def sweepExpired (now : Nat) (p : PendingAsks) : PendingAsks × Nat :=
  ({ p with entries := p.entries.retain fun _ e => !decide (e.expiresAt ≤ now) },
    p.entries.values.countP fun e => decide (e.expiresAt ≤ now))

def len (p : PendingAsks) : Nat := p.entries.entries.length

variable (shardOf : String → Fin shardAmount) (now : Nat) (p : PendingAsks)

theorem entries_foldl_sweepShard (ks : List (Fin shardAmount)) :
    (ks.foldl (fun p k => p.sweepShard shardOf k now) p).entries.entries =
      p.entries.entries.filter fun e =>
        !((ks.any fun k => shardOf e.1 = k) && decide (e.2.expiresAt ≤ now)) := by
  induction ks generalizing p with
  | nil => simp
  | cons k ks ih =>
      rw [List.foldl_cons, ih]
      show (p.entries.entries.filter _).filter _ = _
      rw [List.filter_filter]
      congr 1
      ext e
      dsimp only
      rw [List.any_cons, ← Bool.not_or, ← Bool.and_or_distrib_right, Bool.or_comm]

/-- A sweep of every shard in turn, nothing else happening, is `sweep_expired`. -/
theorem foldl_sweepShard :
    (List.finRange shardAmount).foldl (fun p k => p.sweepShard shardOf k now) p =
      (p.sweepExpired now).1 := by
  have htimeout (ks : List (Fin shardAmount)) (p : PendingAsks) :
      (ks.foldl (fun p k => p.sweepShard shardOf k now) p).defaultTimeout =
        p.defaultTimeout := by
    induction ks generalizing p with
    | nil => rfl
    | cons k ks ih => rw [List.foldl_cons, ih]; rfl
  have hentries : ((List.finRange shardAmount).foldl
      (fun p k => p.sweepShard shardOf k now) p).entries = (p.sweepExpired now).1.entries := by
    apply AList.ext
    rw [entries_foldl_sweepShard]
    show _ = p.entries.entries.filter _
    congr 1
    ext e
    simp
  exact PendingAsks.ext hentries (htimeout _ p)

theorem len_sweepExpired : (p.sweepExpired now).1.len + (p.sweepExpired now).2 = p.len := by
  show (p.entries.entries.filter _).length + (p.entries.entries.map Sigma.snd).countP _ = _
  rw [← List.countP_eq_length_filter, List.countP_map, Nat.add_comm]
  rw [PendingAsks.len, List.length_eq_countP_add_countP fun e => decide (e.2.expiresAt ≤ now)]
  congr 2
  ext e
  rw [Bool.eq_iff_iff]
  simp

end PendingAsks

inductive ActorRegistryError
  | sendFailed (reason : String)
  | timeout
  | actorNotFound (actorId : String)
deriving DecidableEq, Repr

inductive AskOutcome
  | reply (message : AskMessage)
  | dispatchFailed (error : ActorRegistryError)
  | channelClosed
  | timedOut
deriving DecidableEq, Repr

/-- What `ask` returns. -/
def AskOutcome.result : AskOutcome → Except ActorRegistryError AskMessage
  | reply message => .ok message
  | dispatchFailed error => .error error
  | channelClosed => .error (.sendFailed "ask() reply channel closed before reply arrived")
  | timedOut => .error .timeout

/-- Where an ask is: it has registered and dispatches; its dispatch has failed and it is about
to cancel; it waits at its channel; its wait has run out and it is about to cancel; it has
returned; its future has been dropped. -/
inductive AskPhase
  | dispatching
  | failed (error : ActorRegistryError)
  | waiting (deadline : Nat)
  | expired
  | returned (outcome : AskOutcome)
  | dropped
deriving DecidableEq, Repr

namespace AskPhase

def isOpen : AskPhase → Bool
  | dispatching | failed _ | waiting _ | expired => true
  | returned _ | dropped => false

def isReturned : AskPhase → Bool
  | returned _ => true
  | _ => false

end AskPhase

/-- An ask from its registration on; `slot` is the reply that has been sent on its channel. -/
structure Ask where
  correlationId : String
  timeout : Nat
  registeredAt : Nat
  slot : Option Nat
  phase : AskPhase
deriving DecidableEq, Repr

def Ask.expiresAt (a : Ask) : Nat := a.registeredAt + a.timeout

/-- Where `resolve` is: it has found no entry; it has the entry of the ask `tx`; it has sent. -/
inductive ReplyStage
  | missed
  | sending (tx : Nat)
  | sent (tx : Nat) (delivered : Bool)
deriving DecidableEq, Repr

/-- The value of `resolve`, once it has one. -/
def ReplyStage.resolved : ReplyStage → Option Bool
  | missed => some false
  | sending _ => none
  | sent _ delivered => some delivered

/-- A message that came to a temporary sender. -/
structure AskReply where
  message : AskMessage
  arrivedAt : Nat
  sentAt : Nat
  stage : ReplyStage
deriving DecidableEq, Repr

/-- The asks and the replies in the order of their beginning, and the instant that the sweep
has read. -/
structure AskWorld where
  now : Nat
  pending : PendingAsks
  asks : List Ask
  replies : List AskReply
  sweepNow : Nat

inductive AskAction
  | tick (d : Nat)
  | ask (correlationId : String) (timeout : Nat)
  | dispatched (t : Nat) (result : Except ActorRegistryError Unit)
  | poll (t : Nat)
  | cancel (t : Nat)
  | drop (t : Nat)
  | reply (message : AskMessage)
  | send (r : Nat)
  | sweepStart
  | sweepShard (k : Fin PendingAsks.shardAmount)
deriving Repr

namespace AskWorld

def start (defaultTimeout : Nat) : AskWorld := ⟨0, PendingAsks.new defaultTimeout, [], [], 0⟩

def setPhase (w : AskWorld) (t : Nat) (phase : AskPhase) : AskWorld :=
  { w with asks := w.asks.modify t fun a => { a with phase := phase } }

def setSlot (w : AskWorld) (t r : Nat) : AskWorld :=
  { w with asks := w.asks.modify t fun a => { a with slot := some r } }

def setStage (w : AskWorld) (r : Nat) (stage : ReplyStage) : AskWorld :=
  { w with replies := w.replies.modify r fun d => { d with stage := stage, sentAt := w.now } }

/-- Somebody still has the sending half of the channel of the ask `t`. -/
def hasSender (w : AskWorld) (t : Nat) : Bool :=
  w.pending.entries.values.any (fun e => e.tx == t) ||
    w.replies.any (fun d => d.stage == .sending t)

/-- `register`, up to the dispatch. -/
def beginAsk (w : AskWorld) (correlationId : String) (timeout : Nat) : AskWorld :=
  { w with
    pending := w.pending.register correlationId w.asks.length timeout w.now
    asks := w.asks ++ [⟨correlationId, timeout, w.now, none, .dispatching⟩] }

/-- The dispatch returns; the wait begins after a successful one. -/
def dispatched (w : AskWorld) (t : Nat) (result : Except ActorRegistryError Unit) : AskWorld :=
  match w.asks[t]? with
  | some ⟨_, timeout, _, _, .dispatching⟩ =>
    match result with
    | .ok () => w.setPhase t (.waiting (w.now + timeout))
    | .error e => w.setPhase t (.failed e)
  | _ => w

/-- One poll of `tokio::time::timeout(timeout, rx)`: the channel first, then the clock. -/
def poll (w : AskWorld) (t : Nat) : AskWorld :=
  match w.asks[t]? with
  | some ⟨_, _, _, slot, .waiting deadline⟩ =>
    match slot.bind (w.replies[·]?) with
    | some d => w.setPhase t (.returned (.reply d.message))
    | none =>
      if !w.hasSender t then w.setPhase t (.returned .channelClosed)
      else if deadline ≤ w.now then w.setPhase t .expired
      else w
  | _ => w

/-- `cancel`, after a failed dispatch or a wait that has run out. -/
def cancelAsk (w : AskWorld) (t : Nat) : AskWorld :=
  match w.asks[t]? with
  | some ⟨cid, _, _, _, .failed e⟩ =>
    { w with pending := w.pending.cancel cid }.setPhase t (.returned (.dispatchFailed e))
  | some ⟨cid, _, _, _, .expired⟩ =>
    { w with pending := w.pending.cancel cid }.setPhase t (.returned .timedOut)
  | _ => w

/-- The caller drops the future at one of its two waits. -/
def dropAsk (w : AskWorld) (t : Nat) : AskWorld :=
  match w.asks[t]? with
  | some ⟨_, _, _, _, .dispatching⟩ => w.setPhase t .dropped
  | some ⟨_, _, _, _, .waiting _⟩ => w.setPhase t .dropped
  | _ => w

/-- A message to a temporary sender, up to the removal of the entry. -/
def reply (w : AskWorld) (message : AskMessage) : AskWorld :=
  if message.correlationId = "" then w
  else
    let (entry, pending) := w.pending.remove message.correlationId
    { w with
      pending := pending
      replies := w.replies ++ [⟨message, w.now, w.now,
        match entry with
        | some e => .sending e.tx
        | none => .missed⟩] }

/-- `dispatch_local_message` to a temporary sender. -/
def dispatchToTemporarySender (w : AskWorld) (actorId : String) (message : AskMessage) :
    Except ActorRegistryError AskWorld :=
  if message.correlationId = "" then
    .error (.sendFailed
      ("Reply to temporary sender '" ++ actorId ++ "' missing correlation_id"))
  else .ok (w.reply message)

/-- `entry.tx.send(reply)`: it fails when the receiving half is gone. -/
def send (w : AskWorld) (r : Nat) : AskWorld :=
  match w.replies[r]? with
  | some ⟨_, _, _, .sending t⟩ =>
    match w.asks[t]? with
    | some a =>
      if a.phase.isOpen then (w.setSlot t r).setStage r (.sent t true)
      else w.setStage r (.sent t false)
    | none => w.setStage r (.sent t false)
  | _ => w

def step (shardOf : String → Fin PendingAsks.shardAmount) (w : AskWorld) : AskAction → AskWorld
  | .tick d => { w with now := w.now + d }
  | .ask cid timeout => w.beginAsk cid timeout
  | .dispatched t result => w.dispatched t result
  | .poll t => w.poll t
  | .cancel t => w.cancelAsk t
  | .drop t => w.dropAsk t
  | .reply message => w.reply message
  | .send r => w.send r
  | .sweepStart => { w with sweepNow := w.now }
  | .sweepShard k => { w with pending := w.pending.sweepShard shardOf k w.sweepNow }

end AskWorld

end PlexSpaces.Actors
