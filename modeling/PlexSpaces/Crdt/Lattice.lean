import Mathlib.Data.Finset.Lattice.Basic
import PlexSpaces.Lib.Assoc
/-!
# Lattice CRDTs

The `Lattice` trait and its composite implementations.  `BTreeSet` is a `Finset`,
a `HashMap` a finite map up to iteration order, and the trait's `PartialEq` is
equality.  The map merges are the loop `FMap.mergeWith`: for every entry of the
other side, combine it with the entry of the same key or insert it.
-/

namespace PlexSpaces.Crdt

open PlexSpaces.Lib

universe u v

/-- The trait; `subsumes` is a default method. -/
class Lattice (α : Type u) [DecidableEq α] where
  merge : α → α → α
  bottom : α
  subsumes : α → α → Bool := fun a b => decide (merge a b = a)

structure SetLattice (T : Type u) where
  elements : Finset T
  deriving DecidableEq

namespace SetLattice

variable {T : Type u} [DecidableEq T]

def new : SetLattice T := ⟨∅⟩

def singleton (value : T) : SetLattice T := ⟨{value}⟩

instance : Lattice (SetLattice T) where
  merge a b := ⟨a.elements ∪ b.elements⟩
  bottom := new

end SetLattice

structure CounterLattice where
  counts : FMap String UInt64
  deriving DecidableEq

namespace CounterLattice

def new : CounterLattice := ⟨∅⟩

def inc (actorId : String) (amount : UInt64) : CounterLattice := ⟨Finmap.singleton actorId amount⟩

instance : Lattice CounterLattice where
  merge a b := ⟨a.counts.mergeWith max b.counts⟩
  bottom := new

end CounterLattice

structure VectorClock where
  clocks : FMap String UInt64
  deriving DecidableEq

namespace VectorClock

def new : VectorClock := ⟨∅⟩

instance : Lattice VectorClock where
  merge a b := ⟨a.clocks.mergeWith max b.clocks⟩
  bottom := new

end VectorClock

structure PairLattice (A : Type u) (B : Type v) where
  first : A
  second : B
  deriving DecidableEq

instance {A : Type u} {B : Type v} [DecidableEq A] [DecidableEq B] [Lattice A] [Lattice B] :
    Lattice (PairLattice A B) where
  merge a b := ⟨Lattice.merge a.first b.first, Lattice.merge a.second b.second⟩
  bottom := ⟨Lattice.bottom, Lattice.bottom⟩

structure MapLattice (K : Type u) (V : Type v) where
  entries : FMap K V

namespace MapLattice

variable {K : Type u} {V : Type v}

def new : MapLattice K V := ⟨∅⟩

variable [DecidableEq K] [DecidableEq V]

instance : DecidableEq (MapLattice K V) := fun a b =>
  decidable_of_iff (a.entries = b.entries) (by
    cases a
    cases b
    simp)

instance [Lattice V] : Lattice (MapLattice K V) where
  merge a b := ⟨a.entries.mergeWith Lattice.merge b.entries⟩
  bottom := new

end MapLattice

/-- Per value the ids of its additions, and the ids that a removal has seen. -/
structure OrSetLattice (T : Type u) where
  added : FMap T (Finset String)
  removed : Finset String

namespace OrSetLattice

variable {T : Type u}

def new : OrSetLattice T := ⟨∅, ∅⟩

variable [DecidableEq T]

instance : DecidableEq (OrSetLattice T) := fun a b =>
  decidable_of_iff (a.added = b.added ∧ a.removed = b.removed) (by
    cases a
    cases b
    simp)

/-- `entry(value).or_default().insert(unique_id)`. -/
def add (s : OrSetLattice T) (value : T) (uniqueId : String) : OrSetLattice T :=
  { s with
    added := s.added.insert value (insert uniqueId ((s.added.lookup value).getD ∅)) }

def remove (s : OrSetLattice T) (value : T) : OrSetLattice T :=
  match s.added.lookup value with
  | some ids => { s with removed := s.removed ∪ ids }
  | none => s

def contains (s : OrSetLattice T) (value : T) : Bool :=
  match s.added.lookup value with
  | some ids => decide (∃ id ∈ ids, id ∉ s.removed)
  | none => false

/-- The live elements; their order is the iteration order of the map. -/
def elements (s : OrSetLattice T) : Finset T := s.added.keys.filter fun v => s.contains v

-- `entry(v).or_default().extend(ids)` inserts `ids` where the value is new.
instance : Lattice (OrSetLattice T) where
  merge a b := ⟨a.added.mergeWith (· ∪ ·) b.added, a.removed ∪ b.removed⟩
  bottom := new

end OrSetLattice

end PlexSpaces.Crdt
