import Mathlib.Order.Lattice
import PlexSpaces.Crdt.Laws
/-!
# Registers

A last-writer-wins register keeps the value with the later timestamp, and of two with one
timestamp the one of the greater writer id; the receiver of the merge wins a tie in both.  The
registers of a maximum and of a minimum both take the default of their type as `bottom`.  So
the merge of two writes with one timestamp and one writer depends on the side it is made on,
and `bottom` is an identity where the default is the least value of its type, or the greatest
(`registers_lawful_iff`).
-/

namespace PlexSpaces.Crdt

open PlexSpaces.Lib PlexSpaces.Crdt.Lattice Std

universe u

/-- What the trait asks of a merge. -/
structure Aci {α : Type u} (merge : α → α → α) : Prop where
  assoc : ∀ a b c, merge (merge a b) c = merge a (merge b c)
  comm : ∀ a b, merge a b = merge b a
  idem : ∀ a, merge a a = a

/-- `bottom` is a two-sided identity of the merge. -/
def HasIdentity (α : Type u) [DecidableEq α] [Lattice α] : Prop :=
  ∀ a : α, merge bottom a = a ∧ merge a bottom = a

/-! ## The later of two values -/

section Later

variable {α : Type u} (cmp : α → α → Ordering)

def later (a b : α) : α := if cmp a b = .lt then b else a

variable {cmp}

theorem later_self [ReflCmp cmp] (a : α) : later cmp a a = a := by
  simp [later]

theorem later_assoc [TransCmp cmp] (a b c : α) :
    later cmp (later cmp a b) c = later cmp a (later cmp b c) := by
  by_cases hab : cmp a b = .lt
  · by_cases hbc : cmp b c = .lt
    · have hac : cmp a c = .lt := TransCmp.lt_trans hab hbc
      simp [later, hab, hbc, hac]
    · simp [later, hab, hbc]
  · by_cases hbc : cmp b c = .lt
    · simp [later, hab, hbc]
    · -- `a` is not before `b` nor `b` before `c`
      have hac : cmp a c ≠ .lt := by
        rw [Ordering.ne_lt_iff_isGE] at hab hbc
        exact Ordering.ne_lt_iff_isGE.mpr (TransCmp.isGE_trans hab hbc)
      simp [later, hab, hbc, hac]

theorem later_comm_iff [OrientedCmp cmp] {a b : α} :
    later cmp a b = later cmp b a ↔ (cmp a b = .eq → a = b) := by
  have hswap : cmp b a = (cmp a b).swap := OrientedCmp.eq_swap
  rw [later, later, hswap]
  cases cmp a b <;> simp [eq_comm]

end Later

/-! ## Last writer wins -/

structure LWWLattice (T : Type u) where
  value : T
  timestamp : UInt64
  writerId : String
  deriving DecidableEq

namespace LWWLattice

variable {T : Type u}

-- `bottom` panics, so there is no instance of `Lattice`.
def merge (a b : LWWLattice T) : LWWLattice T :=
  match compare a.timestamp b.timestamp with
  | .lt => b
  | .gt => a
  | .eq => if b.writerId > a.writerId then b else a

/-- The order of writes: by their times, and those of one time by their writers. -/
def cmp (a b : LWWLattice T) : Ordering :=
  (compare a.timestamp b.timestamp).then (compare a.writerId b.writerId)

theorem cmp_eq_compareLex :
    (cmp : LWWLattice T → LWWLattice T → Ordering) =
      compareLex (compareOn timestamp) (compareOn writerId) := rfl

instance : TransCmp (cmp : LWWLattice T → LWWLattice T → Ordering) := by
  rw [cmp_eq_compareLex]
  infer_instance

theorem merge_eq_later (a b : LWWLattice T) : merge a b = later cmp a b := by
  unfold merge later cmp
  cases compare a.timestamp b.timestamp with
  | lt => rfl
  | gt => rfl
  | eq =>
      have hlt : compare a.writerId b.writerId = .lt ↔ a.writerId < b.writerId :=
        compareOfLessAndEq_eq_lt
      simp [hlt]

theorem cmp_eq_iff {a b : LWWLattice T} :
    cmp a b = .eq ↔ a.timestamp = b.timestamp ∧ a.writerId = b.writerId := by
  rw [cmp, Ordering.then_eq_eq, Std.compare_eq_iff_eq, Std.compare_eq_iff_eq]

theorem merge_comm_iff {a b : LWWLattice T} :
    merge a b = merge b a ↔
      (a.timestamp = b.timestamp → a.writerId = b.writerId → a.value = b.value) := by
  rw [merge_eq_later, merge_eq_later, later_comm_iff, cmp_eq_iff]
  obtain ⟨value, timestamp, writerId⟩ := a
  obtain ⟨value', timestamp', writerId'⟩ := b
  simp only [mk.injEq]
  tauto

end LWWLattice

/-! ## Maximum and minimum -/

structure MaxLattice (T : Type u) where
  value : T
  deriving DecidableEq

structure MinLattice (T : Type u) where
  value : T
  deriving DecidableEq

section Extremes

variable {T : Type u} [LinearOrder T] [Inhabited T]

instance : Lattice (MaxLattice T) where
  merge a b := ⟨max a.value b.value⟩
  bottom := ⟨default⟩

instance : Lattice (MinLattice T) where
  merge a b := ⟨min a.value b.value⟩
  bottom := ⟨default⟩

theorem maxLattice_aci : Aci (merge : MaxLattice T → MaxLattice T → MaxLattice T) where
  assoc _ _ _ := congrArg MaxLattice.mk (max_assoc _ _ _)
  comm _ _ := congrArg MaxLattice.mk (max_comm _ _)
  idem _ := congrArg MaxLattice.mk (max_self _)

theorem minLattice_aci : Aci (merge : MinLattice T → MinLattice T → MinLattice T) where
  assoc _ _ _ := congrArg MinLattice.mk (min_assoc _ _ _)
  comm _ _ := congrArg MinLattice.mk (min_comm _ _)
  idem _ := congrArg MinLattice.mk (min_self _)

theorem maxLattice_hasIdentity_iff : HasIdentity (MaxLattice T) ↔ IsBot (default : T) := by
  constructor
  · intro h x
    exact max_eq_right_iff.mp (congrArg MaxLattice.value (h ⟨x⟩).1)
  · intro h a
    exact ⟨congrArg MaxLattice.mk (max_eq_right (h a.value)),
      congrArg MaxLattice.mk (max_eq_left (h a.value))⟩

theorem minLattice_hasIdentity_iff : HasIdentity (MinLattice T) ↔ IsTop (default : T) := by
  constructor
  · intro h x
    exact min_eq_right_iff.mp (congrArg MinLattice.value (h ⟨x⟩).1)
  · intro h a
    exact ⟨congrArg MinLattice.mk (min_eq_right (h a.value)),
      congrArg MinLattice.mk (min_eq_left (h a.value))⟩

end Extremes

/-- Merging last-writer-wins registers is associative and idempotent, and commutes unless two
different values have one timestamp and one writer; the maximum and the minimum satisfy the laws
of a merge, and `bottom` is their identity exactly when the default of the type is its least or
its greatest value. -/
theorem registers_lawful_iff {V : Type u} (a b c : LWWLattice V) (T : Type u) [LinearOrder T]
    [Inhabited T] :
    (((a.merge b).merge c = a.merge (b.merge c) ∧ a.merge a = a) ∧
      (a.merge b = b.merge a ↔
        (a.timestamp = b.timestamp → a.writerId = b.writerId → a.value = b.value))) ∧
    (Aci (merge : MaxLattice T → MaxLattice T → MaxLattice T) ∧
      Aci (merge : MinLattice T → MinLattice T → MinLattice T)) ∧
    (HasIdentity (MaxLattice T) ↔ IsBot (default : T)) ∧
    (HasIdentity (MinLattice T) ↔ IsTop (default : T)) := by
  refine ⟨⟨⟨?_, ?_⟩, LWWLattice.merge_comm_iff⟩, ⟨maxLattice_aci, minLattice_aci⟩,
    maxLattice_hasIdentity_iff, minLattice_hasIdentity_iff⟩
  · simp only [LWWLattice.merge_eq_later]
    exact later_assoc a b c
  · rw [LWWLattice.merge_eq_later]
    exact later_self a

/-- `i64`, whose default is zero. -/
def I64 : Type := { n : Int // -2 ^ 63 ≤ n ∧ n < 2 ^ 63 }

instance : LinearOrder I64 := Subtype.instLinearOrder _

instance : Inhabited I64 := ⟨0, by decide⟩

/-- Two values with one timestamp and one writer, and the maximum of numbers below zero. -/
theorem not_registers_lawful :
    ¬(∀ a b : LWWLattice Int, a.merge b = b.merge a) ∧ ¬HasIdentity (MaxLattice I64) := by
  constructor
  · intro h
    have hvalue := LWWLattice.merge_comm_iff.mp (h ⟨1, 1, "n"⟩ ⟨2, 1, "n"⟩) rfl rfl
    cases hvalue
  · intro h
    have hle : (0 : Int) ≤ -1 := maxLattice_hasIdentity_iff.mp h ⟨-1, by decide⟩
    exact absurd hle (by decide)

end PlexSpaces.Crdt
