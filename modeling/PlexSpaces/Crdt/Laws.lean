import Mathlib.Logic.Equiv.Defs
import Mathlib.Order.Lattice
import PlexSpaces.Crdt.Lattice
/-!
# Lattice laws

`LawfulLattice` collects what the trait asks of an implementation: the merge is
associative, commutative and idempotent with `bottom` as its identity, and
`subsumes` is a partial order in which the merge is the least upper bound.  For
the default `subsumes` the order half follows from the algebra, so an
implementation only has to show the algebra (`LawfulLattice.of_merge`).
-/

namespace PlexSpaces.Crdt

open PlexSpaces.Lib PlexSpaces.Crdt.Lattice

universe u v w

structure LawfulLattice (α : Type u) [DecidableEq α] [Lattice α] : Prop where
  merge_assoc : ∀ a b c : α, merge (merge a b) c = merge a (merge b c)
  merge_comm : ∀ a b : α, merge a b = merge b a
  merge_idem : ∀ a : α, merge a a = a
  bottom_merge : ∀ a : α, merge bottom a = a
  merge_bottom : ∀ a : α, merge a bottom = a
  subsumes_refl : ∀ a : α, subsumes a a = true
  subsumes_trans : ∀ a b c : α,
    subsumes a b = true → subsumes b c = true → subsumes a c = true
  subsumes_antisymm : ∀ a b : α, subsumes a b = true → subsumes b a = true → a = b
  merge_subsumes_left : ∀ a b : α, subsumes (merge a b) a = true
  merge_subsumes_right : ∀ a b : α, subsumes (merge a b) b = true
  merge_least : ∀ a b c : α,
    subsumes c a = true → subsumes c b = true → subsumes c (merge a b) = true

namespace LawfulLattice

theorem of_merge {α : Type u} [DecidableEq α] [Lattice α]
    (hassoc : ∀ a b c : α, merge (merge a b) c = merge a (merge b c))
    (hcomm : ∀ a b : α, merge a b = merge b a) (hidem : ∀ a : α, merge a a = a)
    (hbottom : ∀ a : α, merge bottom a = a)
    (hsub : ∀ a b : α, subsumes a b = decide (merge a b = a)) : LawfulLattice α := by
  -- Mathlib's order of the join operation; `subsumes` is it, read from above.
  let _ : Max α := ⟨merge⟩
  let _ : SemilatticeSup α := SemilatticeSup.mk' hcomm hassoc hidem
  have hle : ∀ a b : α, subsumes a b = true ↔ b ≤ a := by
    intro a b
    rw [hsub, decide_eq_true_iff, hcomm a b]
    exact Iff.rfl
  refine ⟨hassoc, hcomm, hidem, hbottom, ?_, ?_, ?_, ?_, ?_, ?_, ?_⟩
  · intro a
    rw [hcomm, hbottom]
  · intro a
    exact (hle a a).mpr le_rfl
  · intro a b c hab hbc
    exact (hle a c).mpr (((hle b c).mp hbc).trans ((hle a b).mp hab))
  · intro a b hab hba
    exact le_antisymm ((hle b a).mp hba) ((hle a b).mp hab)
  · intro a b
    exact (hle _ a).mpr (le_sup_left : a ≤ a ⊔ b)
  · intro a b
    exact (hle _ b).mpr (le_sup_right : b ≤ a ⊔ b)
  · intro a b c hca hcb
    exact (hle c _).mpr (sup_le ((hle c a).mp hca) ((hle c b).mp hcb))

variable {α : Type u} [DecidableEq α] [Lattice α]

/-- A record around one map, merged by the loop with `f`, has the laws of `f`. -/
theorem of_mergeWith {K : Type v} {V : Type w} [DecidableEq K] (f : V → V → V)
    [Std.Associative f] [Std.Commutative f] [Std.IdempotentOp f] (wrap : FMap K V ≃ α)
    (hmerge : ∀ a b, merge (wrap a) (wrap b) = wrap (a.mergeWith f b))
    (hbottom : (bottom : α) = wrap ∅)
    (hsub : ∀ a b : α, subsumes a b = decide (merge a b = a)) : LawfulLattice α := by
  apply of_merge _ _ _ _ hsub
  · intro a b c
    obtain ⟨a, rfl⟩ := wrap.surjective a
    obtain ⟨b, rfl⟩ := wrap.surjective b
    obtain ⟨c, rfl⟩ := wrap.surjective c
    rw [hmerge, hmerge, hmerge, hmerge, FMap.mergeWith_assoc]
  · intro a b
    obtain ⟨a, rfl⟩ := wrap.surjective a
    obtain ⟨b, rfl⟩ := wrap.surjective b
    rw [hmerge, hmerge, FMap.mergeWith_comm]
  · intro a
    obtain ⟨a, rfl⟩ := wrap.surjective a
    rw [hmerge, FMap.mergeWith_idem]
  · intro a
    obtain ⟨a, rfl⟩ := wrap.surjective a
    rw [hbottom, hmerge, FMap.empty_mergeWith]

end LawfulLattice

/-! ## The merge of counters and clocks -/

instance max_u64_associative : Std.Associative (max : UInt64 → UInt64 → UInt64) :=
  ⟨fun a b c => by grind [UInt64.max_def]⟩

instance max_u64_commutative : Std.Commutative (max : UInt64 → UInt64 → UInt64) :=
  ⟨fun a b => by grind [UInt64.max_def]⟩

instance max_u64_idempotent : Std.IdempotentOp (max : UInt64 → UInt64 → UInt64) :=
  ⟨fun a => by grind [UInt64.max_def]⟩

/-! ## The implementations -/

theorem setLattice_lawful (T : Type u) [DecidableEq T] : LawfulLattice (SetLattice T) := by
  apply LawfulLattice.of_merge
  · intro a b c
    exact congrArg SetLattice.mk (Finset.union_assoc _ _ _)
  · intro a b
    exact congrArg SetLattice.mk (Finset.union_comm _ _)
  · intro a
    exact congrArg SetLattice.mk (Finset.union_idempotent _)
  · intro a
    exact congrArg SetLattice.mk (Finset.empty_union _)
  · intro a b
    rfl

theorem counterLattice_lawful : LawfulLattice CounterLattice :=
  LawfulLattice.of_mergeWith max
    ⟨CounterLattice.mk, CounterLattice.counts, fun _ => rfl, fun _ => rfl⟩
    (fun _ _ => rfl) rfl (fun _ _ => rfl)

theorem vectorClock_lawful : LawfulLattice VectorClock :=
  LawfulLattice.of_mergeWith max
    ⟨VectorClock.mk, VectorClock.clocks, fun _ => rfl, fun _ => rfl⟩
    (fun _ _ => rfl) rfl (fun _ _ => rfl)

theorem orSetLattice_lawful (T : Type u) [DecidableEq T] : LawfulLattice (OrSetLattice T) := by
  apply LawfulLattice.of_merge
  · intro a b c
    exact congrArg₂ OrSetLattice.mk (FMap.mergeWith_assoc _ _ _ _) (Finset.union_assoc _ _ _)
  · intro a b
    exact congrArg₂ OrSetLattice.mk (FMap.mergeWith_comm _ _ _) (Finset.union_comm _ _)
  · intro a
    exact congrArg₂ OrSetLattice.mk (FMap.mergeWith_idem _ _) (Finset.union_idempotent _)
  · intro a
    exact congrArg₂ OrSetLattice.mk (FMap.empty_mergeWith _ _) (Finset.empty_union _)
  · intro a b
    rfl

theorem pairLattice_lawful {A : Type u} {B : Type v} [DecidableEq A] [DecidableEq B]
    [Lattice A] [Lattice B] (hA : LawfulLattice A) (hB : LawfulLattice B) :
    LawfulLattice (PairLattice A B) := by
  apply LawfulLattice.of_merge
  · intro a b c
    exact congrArg₂ PairLattice.mk (hA.merge_assoc _ _ _) (hB.merge_assoc _ _ _)
  · intro a b
    exact congrArg₂ PairLattice.mk (hA.merge_comm _ _) (hB.merge_comm _ _)
  · intro a
    exact congrArg₂ PairLattice.mk (hA.merge_idem _) (hB.merge_idem _)
  · intro a
    exact congrArg₂ PairLattice.mk (hA.bottom_merge _) (hB.bottom_merge _)
  · intro a b
    rfl

theorem mapLattice_lawful (K : Type u) {V : Type v} [DecidableEq K] [DecidableEq V]
    [Lattice V] (hV : LawfulLattice V) : LawfulLattice (MapLattice K V) := by
  have hassoc : Std.Associative (merge : V → V → V) := ⟨hV.merge_assoc⟩
  have hcomm : Std.Commutative (merge : V → V → V) := ⟨hV.merge_comm⟩
  have hidem : Std.IdempotentOp (merge : V → V → V) := ⟨hV.merge_idem⟩
  exact LawfulLattice.of_mergeWith merge
    ⟨MapLattice.mk, MapLattice.entries, fun _ => rfl, fun _ => rfl⟩
    (fun _ _ => rfl) rfl (fun _ _ => rfl)

/-- The composite lattices satisfy the laws, and so does every nesting of pairs
and maps over lawful components. -/
theorem composite_lattices_lawful :
    (∀ (T : Type u) [DecidableEq T], LawfulLattice (SetLattice T)) ∧
    LawfulLattice CounterLattice ∧
    LawfulLattice VectorClock ∧
    (∀ (T : Type u) [DecidableEq T], LawfulLattice (OrSetLattice T)) ∧
    (∀ (A : Type u) (B : Type v) [DecidableEq A] [DecidableEq B] [Lattice A] [Lattice B],
      LawfulLattice A → LawfulLattice B → LawfulLattice (PairLattice A B)) ∧
    (∀ (K : Type u) (V : Type v) [DecidableEq K] [DecidableEq V] [Lattice V],
      LawfulLattice V → LawfulLattice (MapLattice K V)) := by
  refine ⟨?_, counterLattice_lawful, vectorClock_lawful, ?_, ?_, ?_⟩
  · intro T _
    exact setLattice_lawful T
  · intro T _
    exact orSetLattice_lawful T
  · intro A B _ _ _ _ hA hB
    exact pairLattice_lawful hA hB
  · intro K V _ _ _ hV
    exact mapLattice_lawful K hV

/-- A map of pairs of a counter and a set. -/
theorem composite_lattices_lawful_nested :
    LawfulLattice (MapLattice String (PairLattice CounterLattice (SetLattice Nat))) := by
  obtain ⟨hset, hcounter, -, -, hpair, hmap⟩ := composite_lattices_lawful
  exact hmap _ _ (hpair _ _ hcounter (hset Nat))

end PlexSpaces.Crdt
