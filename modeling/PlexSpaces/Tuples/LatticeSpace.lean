import PlexSpaces.Crdt.CausalHistory
import PlexSpaces.Crdt.VectorClock
import PlexSpaces.Tuples.Tuple
/-!
# Lattice tuple spaces

A replica of a tuple space: an observed-remove set of tuples and a vector clock, each behind a
lock of its own.  Writing and taking change both under both locks and count the operation in
the clock under the replica's node id.  Sets are ordered by what they subsume, and every
operation only adds to a set.
-/

namespace PlexSpaces.Crdt.OrSetLattice

open PlexSpaces.Lib PlexSpaces.Crdt.Lattice

universe u

variable {T : Type u} [DecidableEq T]

instance : Max (OrSetLattice T) := ⟨merge⟩

instance : SemilatticeSup (OrSetLattice T) :=
  SemilatticeSup.mk' (orSetLattice_lawful T).merge_comm (orSetLattice_lawful T).merge_assoc
    (orSetLattice_lawful T).merge_idem

theorem merge_eq_sup (a b : OrSetLattice T) : merge a b = a ⊔ b := rfl

theorem le_iff_subsumes {a b : OrSetLattice T} : a ≤ b ↔ subsumes b a = true := by
  rw [← sup_eq_left]
  exact decide_eq_true_iff.symm

instance : OrderBot (OrSetLattice T) where
  bot := new
  bot_le a := sup_eq_right.mp ((orSetLattice_lawful T).bottom_merge a)

theorem ids_subset_of_le {a b : OrSetLattice T} (h : a ≤ b) (v : T) : a.ids v ⊆ b.ids v := by
  rw [← sup_eq_right.mpr h, ← merge_eq_sup, ids_merge]
  exact Finset.subset_union_left

theorem removed_subset_of_le {a b : OrSetLattice T} (h : a ≤ b) : a.removed ⊆ b.removed := by
  rw [← sup_eq_right.mpr h]
  exact Finset.subset_union_left

theorem le_add (s : OrSetLattice T) (value : T) (uniqueId : String) :
    s ≤ s.add value uniqueId := by
  apply sup_eq_right.mp
  refine congrArg₂ mk ?_ (Finset.union_idempotent _)
  apply Finmap.ext_lookup
  intro v
  have hadd : (s.add value uniqueId).added =
      s.added.insert value (insert uniqueId ((s.added.lookup value).getD ∅)) := rfl
  rw [FMap.lookup_mergeWith, hadd]
  by_cases hv : v = value
  · subst hv
    rw [Finmap.lookup_insert]
    cases s.added.lookup v with
    | none => rfl
    | some ids => simp
  · rw [Finmap.lookup_insert_of_ne _ hv]
    cases s.added.lookup v <;> simp

theorem le_remove (s : OrSetLattice T) (value : T) : s ≤ s.remove value := by
  unfold remove
  cases s.added.lookup value with
  | none => exact le_rfl
  | some ids =>
      apply sup_eq_right.mp
      refine congrArg₂ mk (FMap.mergeWith_idem _ _) ?_
      change s.removed ∪ (s.removed ∪ ids) = s.removed ∪ ids
      rw [← Finset.union_assoc, Finset.union_idempotent]

end PlexSpaces.Crdt.OrSetLattice

namespace PlexSpaces.Tuples

open PlexSpaces.Lib PlexSpaces.Crdt PlexSpaces.Crdt.Lattice

structure LatticeTupleSpace where
  tuples : OrSetLattice Tuple
  clock : VectorClock
  nodeId : String

namespace LatticeTupleSpace

def new (nodeId : String) : LatticeTupleSpace := ⟨.new, .new, nodeId⟩

/-- `ulid` is the text of the ULID that is made for the write. -/
def write (s : LatticeTupleSpace) (tuple : Tuple) (ulid : String) : LatticeTupleSpace :=
  { s with
    tuples := s.tuples.add tuple (s.nodeId ++ "-" ++ ulid)
    clock := s.clock.inc s.nodeId }

/-- The first live tuple that matches; `order` is the order in which the map iterates. -/
def findMatching (s : LatticeTupleSpace) (pattern : Pattern) (order : List Tuple) :
    Option Tuple :=
  order.find? fun tuple => s.tuples.contains tuple && tuple.matches pattern

def take (s : LatticeTupleSpace) (pattern : Pattern) (order : List Tuple) :
    Option Tuple × LatticeTupleSpace :=
  match s.findMatching pattern order with
  | some tuple =>
      (some tuple,
        { s with
          tuples := s.tuples.remove tuple
          clock := s.clock.inc s.nodeId })
  | none => (none, s)

def merge (s other : LatticeTupleSpace) : LatticeTupleSpace :=
  { s with
    tuples := Lattice.merge s.tuples other.tuples
    clock := Lattice.merge s.clock other.clock }

def isCausal (s : LatticeTupleSpace) (otherClock : VectorClock) : Bool :=
  !s.clock.concurrent otherClock

inductive Operation
  | write (tuple : Tuple) (ulid : String)
  | take (pattern : Pattern) (order : List Tuple)

def apply (s : LatticeTupleSpace) : Operation → LatticeTupleSpace
  | .write tuple ulid => s.write tuple ulid
  | .take pattern order => (s.take pattern order).2

/-- The operation changes the replica: a take has to find a tuple. -/
def Changes (s : LatticeTupleSpace) : Operation → Prop
  | .write _ _ => True
  | .take pattern order => (s.findMatching pattern order).isSome = true

theorem apply_of_not_changes {s : LatticeTupleSpace} {op : Operation} (h : ¬s.Changes op) :
    s.apply op = s := by
  cases op with
  | write tuple ulid => exact absurd trivial h
  | take pattern order =>
      rw [Changes, Option.not_isSome_iff_eq_none] at h
      simp only [apply, take, h]

/-- An operation that changes the replica adds to its set and counts itself in the clock. -/
theorem apply_of_changes {s : LatticeTupleSpace} {op : Operation} (h : s.Changes op) :
    s.tuples ≤ (s.apply op).tuples ∧ (s.apply op).clock = s.clock.inc s.nodeId := by
  cases op with
  | write tuple ulid => exact ⟨OrSetLattice.le_add _ _ _, rfl⟩
  | take pattern order =>
      obtain ⟨tuple, htuple⟩ := Option.isSome_iff_exists.mp h
      simp only [apply, take, htuple]
      exact ⟨OrSetLattice.le_remove _ _, trivial⟩

theorem tuples_le_apply (s : LatticeTupleSpace) (op : Operation) :
    s.tuples ≤ (s.apply op).tuples := by
  by_cases h : s.Changes op
  · exact (apply_of_changes h).1
  · rw [apply_of_not_changes h]

@[simp] theorem nodeId_apply (s : LatticeTupleSpace) (op : Operation) :
    (s.apply op).nodeId = s.nodeId := by
  cases op with
  | write tuple ulid => rfl
  | take pattern order =>
      simp only [apply, take]
      cases s.findMatching pattern order <;> rfl

end LatticeTupleSpace

end PlexSpaces.Tuples
