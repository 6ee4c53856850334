import PlexSpaces.Tuples.Sql
/-!
# The tuple space

A `TupleSpace` over its two backends, an in-memory vector and a SQL table, with
its statistics and barriers.  Watchers only observe and are left out.  A barrier
waiter is the sending end of a fresh channel of capacity one, named by a number;
`sent` lists the channels that have received their message.
-/

namespace PlexSpaces.Tuples

open PlexSpaces.Lib

inductive TupleSpaceBackend
  | inMemory (tuples : List Tuple)
  | external (table : TupleTable)

structure TupleSpaceStats where
  totalWrites : Nat
  totalTakes : Nat
  currentSize : Nat
  deriving DecidableEq, Repr

structure Barrier where
  pattern : Pattern
  count : Nat
  waiters : List Nat

def Barrier.completedBy (b : Barrier) (tuple : Tuple) : Bool :=
  tuple.matches b.pattern && decide (b.count ≤ b.waiters.length)

def Barrier.release (tuple : Tuple) (b : Barrier) : Barrier :=
  if b.completedBy tuple then { b with waiters := [] } else b

structure TupleSpace where
  storage : TupleSpaceBackend
  barriers : Assoc String Barrier
  stats : TupleSpaceStats
  sent : List Nat

namespace TupleSpace

def new (storage : TupleSpaceBackend) : TupleSpace := ⟨storage, ∅, ⟨0, 0, 0⟩, []⟩

/-- What a space says about itself; the constructors set it and nothing changes it. -/
def capabilities (s : TupleSpace) : List (String × String) :=
  match s.storage with
  | .inMemory _ => [("storage", "memory"), ("storage.persistent", "false"),
      ("storage.distributed", "false"), ("replication", "none"), ("barriers", "enabled"),
      ("leases", "enabled")]
  | .external _ => [("storage", "external"), ("storage.persistent", "true"),
      ("storage.distributed", "false"), ("replication", "none"), ("barriers", "enabled"),
      ("leases", "enabled")]

theorem barriers_enabled (s : TupleSpace) :
    s.capabilities.lookup "barriers" = some "enabled" := by
  rw [capabilities]
  cases s.storage <;> rfl

theorem leases_enabled (s : TupleSpace) : s.capabilities.lookup "leases" = some "enabled" := by
  rw [capabilities]
  cases s.storage <;> rfl

/-! ## Barriers -/

/-- Register a waiter; the count of the latest registration counts. -/
def barrier (s : TupleSpace) (name : String) (pattern : Pattern) (count waiter : Nat) :
    TupleSpace :=
  let current := (s.barriers.lookup name).getD ⟨pattern, count, []⟩
  { s with
    barriers := s.barriers.insert name
      { current with count := count, waiters := current.waiters ++ [waiter] } }

/-- Every barrier that the tuple completes drains its waiters into their
channels, and stays in place for the next round. -/
def notifyBarriers (s : TupleSpace) (tuple : Tuple) : TupleSpace :=
  { s with
    barriers := s.barriers.mapValues (Barrier.release tuple)
    sent := s.sent ++ (s.barriers.values.filter (·.completedBy tuple)).flatMap (·.waiters) }

/-! ## Writes and takes -/

variable (codec : TupleCodec)

def writeToStorage (s : TupleSpace) (tuple : Tuple) (id : String) (now : Nat) :
    Except TupleSpaceError Unit × TupleSpace :=
  match s.storage with
  | .inMemory tuples =>
      let tuples := tuples.filter (!·.isExpired now) ++ [tuple]
      (.ok (), { s with
        storage := .inMemory tuples
        stats := { s.stats with
          totalWrites := s.stats.totalWrites + 1, currentSize := tuples.length } })
  | .external table =>
      match SqlStorage.write codec table tuple id now with
      | (.error e, table) => (.error e, { s with storage := .external table })
      | (.ok _, table) => (.ok (), { s with
          storage := .external table
          stats := { s.stats with totalWrites := s.stats.totalWrites + 1 } })

def write (s : TupleSpace) (tuple : Tuple) (id : String) (now : Nat) :
    Except TupleSpaceError Unit × TupleSpace :=
  match writeToStorage codec s tuple id now with
  | (.error e, s) => (.error e, s)
  | (.ok _, s) => (.ok (), s.notifyBarriers tuple)

/-- In memory the first match is removed.  A storage `take` removes every match
and the last of them is handed out. -/
def takeFromStorage (s : TupleSpace) (pattern : Pattern) (now : Nat) :
    Except TupleSpaceError (Option Tuple) × TupleSpace :=
  match s.storage with
  | .inMemory tuples =>
      let live := tuples.filter (!·.isExpired now)
      match live.find? (·.matches pattern) with
      | some tuple =>
          let rest := live.eraseP (·.matches pattern)
          (.ok (some tuple), { s with
            storage := .inMemory rest
            stats := { s.stats with
              totalTakes := s.stats.totalTakes + 1, currentSize := rest.length } })
      | none => (.ok none, { s with storage := .inMemory live })
  | .external table =>
      match SqlStorage.take codec table pattern now with
      | (.error e, table) => (.error e, { s with storage := .external table })
      | (.ok tuples, table) =>
          let taken := if tuples.isEmpty then 0 else 1
          (.ok tuples.getLast?, { s with
            storage := .external table
            stats := { s.stats with totalTakes := s.stats.totalTakes + taken } })

def take (s : TupleSpace) (pattern : Pattern) (now : Nat) :
    Except TupleSpaceError (Option Tuple) × TupleSpace :=
  takeFromStorage codec s pattern now

def takeAll (s : TupleSpace) (pattern : Pattern) (now : Nat) :
    Except TupleSpaceError (List Tuple) × TupleSpace :=
  match s.storage with
  | .inMemory tuples =>
      let live := tuples.filter (!·.isExpired now)
      let taken := live.filter (·.matches pattern)
      let remaining := live.filter (!·.matches pattern)
      (.ok taken, { s with
        storage := .inMemory remaining
        stats := { s.stats with
          totalTakes := s.stats.totalTakes + taken.length, currentSize := remaining.length } })
  | .external table =>
      match SqlStorage.take codec table pattern now with
      | (.error e, table) => (.error e, { s with storage := .external table })
      | (.ok taken, table) => (.ok taken, { s with
          storage := .external table
          stats := { s.stats with totalTakes := s.stats.totalTakes + taken.length } })

/-! ## Cleaning up -/

/-- Without leases, and outside the in-memory backend, nothing is cleaned up. -/
def cleanupExpired (s : TupleSpace) (now : Nat) : Nat × TupleSpace :=
  if s.capabilities.lookup "leases" ≠ some "enabled" then (0, s)
  else
    match s.storage with
    | .inMemory tuples =>
        let live := tuples.filter (!·.isExpired now)
        (tuples.length - live.length, { s with storage := .inMemory live })
    | .external _ => (0, s)

def clear (s : TupleSpace) : TupleSpace :=
  match s.storage with
  | .inMemory _ =>
      { s with storage := .inMemory [], stats := { s.stats with currentSize := 0 } }
  | .external table =>
      { s with
        storage := .external (table.deleteWhere fun _ => true)
        stats := { s.stats with currentSize := 0 } }

end TupleSpace

end PlexSpaces.Tuples
