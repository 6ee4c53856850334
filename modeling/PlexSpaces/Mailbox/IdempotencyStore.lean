import Mathlib.Algebra.Order.Ring.Nat
import PlexSpaces.Lib.Assoc
/-!
# Idempotency stores

A store remembers the keys of messages for a while.  `check_and_record` answers whether a
key is new and claims it in one step; `complete_record` notes that the message has been
processed.

The in-memory store has one bucket for each tenant and namespace.  A bucket keeps its
entries in a map and the keys in the order of their insertion, forgets an entry that is
older than the time to live when it meets it, and makes room by forgetting the oldest key.
Locks are not modelled: a call holds the lock of its bucket from its start to its end.
-/

namespace PlexSpaces.Mailbox

open PlexSpaces.Lib

abbrev Bytes := List UInt8

inductive IdempotencyOutcome
  | firstSeen
  | duplicate (response : Option Bytes)
  | inFlight
  deriving DecidableEq

inductive EntryState
  | inFlight (insertedAt : Nat)
  | complete (insertedAt : Nat) (response : Option Bytes)
  deriving DecidableEq

namespace EntryState

def insertedAt : EntryState → Nat
  | .inFlight insertedAt => insertedAt
  | .complete insertedAt _ => insertedAt

def outcome : EntryState → IdempotencyOutcome
  | .inFlight _ => .inFlight
  | .complete _ response => .duplicate response

end EntryState

structure Bucket where
  entries : Assoc String EntryState
  order : List String
  capacity : Nat
  ttl : Nat

namespace Bucket

def new (capacity ttl : Nat) : Bucket := ⟨∅, [], capacity, ttl⟩

/-- `entries.remove(key)` and `order.retain(|k| k != key)`. -/
def forget (b : Bucket) (key : String) : Bucket :=
  { b with entries := b.entries.erase key, order := b.order.filter (· ≠ key) }

/-- The entry of a key that is not expired at the time `now`. -/
def getValid (b : Bucket) (now : Nat) (key : String) : Option EntryState × Bucket :=
  match b.entries.lookup key with
  | some state =>
      if b.ttl < now - state.insertedAt then (none, b.forget key) else (some state, b)
  | none => (none, b)

/-- Room for one more entry: the oldest key goes when the bucket is full. -/
def evictOldest (b : Bucket) : Bucket :=
  if b.capacity ≤ b.entries.keys.length then
    match b.order with
    | oldest :: order => { b with entries := b.entries.erase oldest, order := order }
    | [] => b
  else b

def insertInFlight (b : Bucket) (now : Nat) (key : String) : Bucket :=
  let b := b.evictOldest
  { b with
    order := b.order ++ [key]
    entries := b.entries.insert key (.inFlight now) }

/-- The number of entries that were evicted, and the bucket. -/
def evictExpired (b : Bucket) (now : Nat) : Nat × Bucket :=
  let expired := (b.entries.entries.filter fun e => decide (b.ttl < now - e.2.insertedAt)).map
    Sigma.fst
  let kept := expired.foldl forget b
  (b.entries.keys.length - kept.entries.keys.length, kept)

/-- The body of `check_and_record`: the clock is read when the entry is looked up and again
when a new entry is made. -/
def checkAndRecord (b : Bucket) (now insertedAt : Nat) (key : String) :
    IdempotencyOutcome × Bucket :=
  match b.getValid now key with
  | (some state, b) => (state.outcome, b)
  | (none, b) => (.firstSeen, b.insertInFlight insertedAt key)

/-- The body of `complete_record`; an entry that is gone is not brought back. -/
def completeRecord (b : Bucket) (key : String) (response : Option Bytes) : Bucket :=
  match b.entries.lookup key with
  | some state =>
      { b with entries := b.entries.insert key (.complete state.insertedAt response) }
  | none => b

end Bucket

structure InMemoryIdempotencyStore where
  buckets : Assoc String Bucket
  capacityPerBucket : Nat
  ttl : Nat

namespace InMemoryIdempotencyStore

def new (capacityPerBucket ttl : Nat) : InMemoryIdempotencyStore := ⟨∅, capacityPerBucket, ttl⟩

def bucketKey (tenantId nsName : String) : String := tenantId ++ "\x00" ++ nsName

def getOrCreateBucket (s : InMemoryIdempotencyStore) (tenantId nsName : String) :
    Bucket × InMemoryIdempotencyStore :=
  let key := bucketKey tenantId nsName
  match s.buckets.lookup key with
  | some bucket => (bucket, s)
  | none =>
      let bucket := Bucket.new s.capacityPerBucket s.ttl
      (bucket, { s with buckets := s.buckets.insert key bucket })

def checkAndRecord (s : InMemoryIdempotencyStore) (now insertedAt : Nat)
    (tenantId nsName key : String) : IdempotencyOutcome × InMemoryIdempotencyStore :=
  let (bucket, s) := s.getOrCreateBucket tenantId nsName
  let (outcome, bucket) := bucket.checkAndRecord now insertedAt key
  (outcome, { s with buckets := s.buckets.insert (bucketKey tenantId nsName) bucket })

def completeRecord (s : InMemoryIdempotencyStore) (tenantId nsName key : String)
    (response : Option Bytes) : InMemoryIdempotencyStore :=
  let (bucket, s) := s.getOrCreateBucket tenantId nsName
  let bucket := bucket.completeRecord key response
  { s with buckets := s.buckets.insert (bucketKey tenantId nsName) bucket }

/-- The number of entries that were evicted, and the store. -/
def cleanupExpired (s : InMemoryIdempotencyStore) (now : Nat) : Nat × InMemoryIdempotencyStore :=
  ((s.buckets.entries.map fun e => (e.2.evictExpired now).1).sum,
    { s with buckets := s.buckets.mapValues fun bucket => (bucket.evictExpired now).2 })

end InMemoryIdempotencyStore

end PlexSpaces.Mailbox
