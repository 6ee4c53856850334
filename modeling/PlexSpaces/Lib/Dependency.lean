import Mathlib.Data.Finite.Defs
import Mathlib.Data.Set.Finite.Basic
import Mathlib.Logic.Relation
import Mathlib.Order.WellFounded
import PlexSpaces.Lib.Pool
/-!
# Dependencies

`deps a` lists what `a` needs.  A set that is closed under needs and has no cycle (`Clear`) grows
by anything whose needs it has; a list is ordered when everything comes after its needs
(`DependsFirst`), and a list that takes whatever has all its needs in it takes every finite clear
set (`Clear.subset_of_saturated`).
-/

namespace PlexSpaces.Lib

variable {α : Type}

/-- `a` needs `b`. -/
def Needs (deps : α → List α) (a b : α) : Prop := b ∈ deps a

variable {deps : α → List α}

/-- Closed under needs, and nothing in it needs itself. -/
structure Clear (deps : α → List α) (s : Set α) : Prop where
  closed : ∀ a ∈ s, ∀ b ∈ deps a, b ∈ s
  acyclic : ∀ a ∈ s, ¬Relation.TransGen (Needs deps) a a

namespace Clear

variable {s : Set α}

theorem empty : Clear deps (∅ : Set α) where
  closed a ha := absurd ha (Set.notMem_empty a)
  acyclic a ha := absurd ha (Set.notMem_empty a)

theorem reach (h : Clear deps s) {a b : α} (ha : a ∈ s)
    (hab : Relation.ReflTransGen (Needs deps) a b) : b ∈ s := by
  induction hab with
  | refl => exact ha
  | tail _ hbc ih => exact h.closed _ ih _ hbc

theorem insert (h : Clear deps s) {a : α} (ha : ∀ b ∈ deps a, b ∈ s) (hnew : a ∉ s) :
    Clear deps (insert a s) where
  closed x hx b hb := by
    rcases hx with rfl | hx
    · exact Set.mem_insert_of_mem _ (ha b hb)
    · exact Set.mem_insert_of_mem _ (h.closed x hx b hb)
  acyclic x hx hcycle := by
    rcases hx with rfl | hx
    · obtain ⟨b, hxb, hbx⟩ := Relation.TransGen.head'_iff.mp hcycle
      exact hnew (h.reach (ha b hxb) hbx)
    · exact h.acyclic x hx hcycle

theorem no_cycle (h : Clear deps s) {a c : α} (ha : a ∈ s)
    (hac : Relation.ReflTransGen (Needs deps) a c) : ¬Relation.TransGen (Needs deps) c c :=
  h.acyclic c (h.reach ha hac)

/-- A list that takes whatever has all its needs in it takes a finite clear set. -/
theorem subset_of_saturated (h : Clear deps s) (hfinite : s.Finite) {l : List α}
    (hsaturated : ∀ a ∈ s, (∀ b ∈ deps a, b ∈ l) → a ∈ l) : ∀ a ∈ s, a ∈ l := by
  have : Finite s := hfinite
  let needed : s → s → Prop := fun b a => Relation.TransGen (Needs deps) a.1 b.1
  have : IsTrans s needed := ⟨fun _ _ _ hab hbc => hbc.trans hab⟩
  have : Std.Irrefl needed := ⟨fun a => h.acyclic a.1 a.2⟩
  have hwf : WellFounded needed := Finite.wellFounded_of_trans_of_irrefl needed
  intro a ha
  -- induction on what is needed, which ends in a clear set
  suffices hall : ∀ a : s, a.1 ∈ l from hall ⟨a, ha⟩
  intro a
  induction a using hwf.induction with
  | h a ih =>
    apply hsaturated a.1 a.2
    intro b hb
    exact ih ⟨b, h.closed a.1 a.2 b hb⟩ (Relation.TransGen.single hb)

end Clear

/-- Everything in the list comes after all that it needs. -/
def DependsFirst (deps : α → List α) (l : List α) : Prop :=
  EachAfter (fun before a => ∀ b ∈ deps a, b ∈ before) l

namespace DependsFirst

variable {l : List α}

/-- What is left of an ordered list inside a closed set is ordered. -/
theorem filter (h : DependsFirst deps l) (p : α → Bool)
    (hclosed : ∀ a, p a → ∀ b ∈ deps a, p b) : DependsFirst deps (l.filter p) := by
  induction l using List.reverseRecOn with
  | nil => exact h
  | append_singleton l a ih =>
    obtain ⟨hl, ha⟩ := eachAfter_concat.mp h
    rw [List.filter_append]
    by_cases hp : p a
    · rw [List.filter_cons_of_pos hp]
      exact (ih hl).concat fun b hb => List.mem_filter.mpr ⟨ha b hb, hclosed a hp b hb⟩
    · rw [List.filter_cons_of_neg hp, List.filter_nil, List.append_nil]
      exact ih hl

theorem mem_before (h : DependsFirst deps l) {before after : List α} {a b : α}
    (hl : l = before ++ a :: after) (hb : Relation.TransGen (Needs deps) a b) : b ∈ before := by
  induction hb with
  | single hab => exact h before a after hl _ hab
  | tail hab hbc ih =>
    obtain ⟨front, back, rfl⟩ := List.append_of_mem ih
    have hc := h front _ (back ++ a :: after) (by rw [hl]; simp) _ hbc
    exact List.mem_append_left _ hc

end DependsFirst

end PlexSpaces.Lib
