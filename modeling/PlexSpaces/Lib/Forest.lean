import Mathlib.Data.List.Nodup
import Mathlib.Data.List.Perm.Subperm
import Mathlib.Logic.Function.Basic
import Mathlib.Logic.Relation
/-!
# Forests and breadth-first walks

A forest is given twice: by the children of each node and by its parent.  When the two
agree (`Mirrors`) and no node is its own ancestor, the levels below a root are disjoint
and finitely many, and the walk that pops a node and appends its children lists one level
after the other, each proper descendant once.
-/

namespace PlexSpaces.Lib

universe u

variable {K : Type u}

/-- The children map and the parent map say the same, and no child is listed twice. -/
structure Mirrors (children : K → List K) (parent : K → Option K) : Prop where
  inverse : ∀ p c, c ∈ children p ↔ parent c = some p
  nodup : ∀ p, (children p).Nodup

namespace Mirrors

variable [DecidableEq K] {children : K → List K} {parent : K → Option K}
  (hm : Mirrors children parent)
include hm

theorem filter_eq_self {p c : K} (h : parent c ≠ some p) :
    (children p).filter (· ≠ c) = children p :=
  List.filter_eq_self.mpr fun _ hx => decide_eq_true fun hxc =>
    h ((hm.inverse p c).mp (hxc ▸ hx))

theorem detach (c : K) : Mirrors (fun p => (children p).filter (· ≠ c))
    (Function.update parent c none) where
  nodup p := (hm.nodup p).filter _
  inverse p x := by
    rw [List.mem_filter, decide_eq_true_eq, hm.inverse]
    by_cases hx : x = c
    · subst hx
      rw [Function.update_self]
      exact ⟨fun h => absurd rfl h.2, fun h => by cases h⟩
    · rw [Function.update_of_ne hx]
      exact and_iff_left hx

/-- A node without a parent becomes the last child of one. -/
theorem attach {c : K} (hfree : parent c = none) (p : K) :
    Mirrors (Function.update children p (children p ++ [c]))
      (Function.update parent c (some p)) where
  nodup q := by
    by_cases hq : q = p
    · subst hq
      rw [Function.update_self]
      refine List.nodup_append.mpr ⟨hm.nodup q, List.nodup_singleton c, ?_⟩
      rintro a ha b hb rfl
      rw [List.mem_singleton.mp hb, hm.inverse, hfree] at ha
      cases ha
    · rw [Function.update_of_ne hq]
      exact hm.nodup q
  inverse q x := by
    have hold : x ∈ children q ↔ parent x = some q := hm.inverse q x
    by_cases hq : q = p <;> by_cases hx : x = c
    · subst hq hx
      simp
    · subst hq
      rw [Function.update_self, Function.update_of_ne hx, List.mem_append, List.mem_singleton,
        or_iff_left hx, hold]
    · subst hx
      rw [Function.update_of_ne hq, Function.update_self, hold, hfree]
      exact ⟨fun h => (Option.some_ne_none _ h.symm).elim,
        fun h => absurd (Option.some.inj h).symm hq⟩
    · rw [Function.update_of_ne hq, Function.update_of_ne hx, hold]

end Mirrors

namespace Forest

/-- `x` is below `root`. -/
def Descendant (parent : K → Option K) : K → K → Prop :=
  Relation.TransGen fun p c => parent c = some p

def Acyclic (parent : K → Option K) : Prop := ∀ x, ¬Descendant parent x x

theorem Acyclic.mono {parent parent' : K → Option K} (h : Acyclic parent)
    (hsub : ∀ c p, parent' c = some p → parent c = some p) : Acyclic parent' :=
  fun x hx => h x (Relation.TransGen.mono (fun p c => hsub c p) x x hx)

theorem acyclic_of_rank {parent : K → Option K} (rank : K → Nat)
    (hrank : ∀ c p, parent c = some p → rank p < rank c) : Acyclic parent := by
  have hlt : ∀ x y, Descendant parent x y → rank x < rank y := by
    intro x y h
    induction h with
    | single hparent => exact hrank _ _ hparent
    | tail _ hparent ih => exact Nat.lt_trans ih (hrank _ _ hparent)
  exact fun x h => Nat.lt_irrefl _ (hlt x x h)

/-- The nodes at a depth below a root, from left to right. -/
def level (children : K → List K) (root : K) : Nat → List K
  | 0 => [root]
  | n + 1 => (level children root n).flatMap children

/-- The levels from the first to the `h`th, one after the other. -/
def levels (children : K → List K) (root : K) (h : Nat) : List K :=
  (List.range h).flatMap fun n => level children root (n + 1)

/-- Pop a node, list its children and queue them, until the queue is empty. -/
def walk (children : K → List K) : Nat → List K → List K → Option (List K)
  | _, [], result => some result
  | 0, _ :: _, _ => none
  | fuel + 1, current :: queue, result =>
      walk children fuel (queue ++ children current) (result ++ children current)

variable {children : K → List K} {parent : K → Option K} {root : K}

theorem levels_succ (h : Nat) :
    levels children root (h + 1) = levels children root h ++ level children root (h + 1) := by
  rw [levels, levels, List.range_succ, List.flatMap_append, List.flatMap_singleton]

/-! ## The walk -/

theorem walk_append (fuel : Nat) (now later result : List K) :
    walk children (fuel + now.length) (now ++ later) result =
      walk children fuel (later ++ now.flatMap children) (result ++ now.flatMap children) := by
  induction now generalizing later result with
  | nil => simp
  | cons current now ih =>
      rw [List.length_cons, ← Nat.add_assoc, List.cons_append, walk, List.append_assoc, ih,
        List.flatMap_cons, List.append_assoc, List.append_assoc]

theorem walk_level (fuel n : Nat) (result : List K) :
    walk children (fuel + (level children root n).length) (level children root n) result =
      walk children fuel (level children root (n + 1))
        (result ++ level children root (n + 1)) := by
  calc walk children (fuel + (level children root n).length) (level children root n) result
      = walk children (fuel + (level children root n).length) (level children root n ++ [])
          result := by rw [List.append_nil]
    _ = walk children fuel ([] ++ level children root (n + 1))
          (result ++ level children root (n + 1)) := walk_append ..

theorem walk_levels (h : Nat) : ∃ steps, ∀ fuel, walk children (fuel + steps) [root] [] =
    walk children fuel (level children root h) (levels children root h) := by
  induction h with
  | zero => exact ⟨0, fun fuel => rfl⟩
  | succ h ih =>
      obtain ⟨steps, hsteps⟩ := ih
      refine ⟨(level children root h).length + steps, fun fuel => ?_⟩
      rw [← Nat.add_assoc, hsteps, walk_level, ← levels_succ]

theorem walk_eq_levels {h : Nat} (hend : level children root h = []) :
    ∃ steps, ∀ fuel, steps ≤ fuel → walk children fuel [root] [] =
      some (levels children root h) := by
  obtain ⟨steps, hsteps⟩ : ∃ steps, ∀ fuel, walk children (fuel + steps) [root] [] =
      walk children fuel (level children root h) (levels children root h) := walk_levels h
  refine ⟨steps, fun fuel hle => ?_⟩
  rw [← Nat.sub_add_cancel hle, hsteps, hend, walk]

/-! ## The levels of a forest -/

theorem lt_of_mem_level {h n : Nat} {x : K} (hend : level children root h = [])
    (hx : x ∈ level children root n) : n < h := by
  by_contra hle
  have hempty : ∀ k, level children root (h + k) = [] := by
    intro k
    induction k with
    | zero => exact hend
    | succ k ih => rw [← Nat.add_assoc, level, ih, List.flatMap_nil]
  rw [← Nat.add_sub_cancel' (Nat.le_of_not_lt hle), hempty] at hx
  exact List.not_mem_nil hx

variable (hm : Mirrors children parent)
include hm

theorem mem_level_succ {n : Nat} {x : K} : x ∈ level children root (n + 1) ↔
    ∃ p ∈ level children root n, parent x = some p := by
  rw [level, List.mem_flatMap]
  exact exists_congr fun p => and_congr_right fun _ => hm.inverse p x

theorem descendant_of_mem_level {n : Nat} {x : K} (h : x ∈ level children root (n + 1)) :
    Descendant parent root x := by
  induction n generalizing x with
  | zero =>
      obtain ⟨p, hp, hparent⟩ := (mem_level_succ hm).mp h
      exact .single (List.mem_singleton.mp hp ▸ hparent)
  | succ n ih =>
      obtain ⟨p, hp, hparent⟩ := (mem_level_succ hm).mp h
      exact (ih hp).tail hparent

theorem exists_level_of_descendant {x : K} (h : Descendant parent root x) :
    ∃ n, x ∈ level children root (n + 1) := by
  induction h with
  | single hparent =>
      exact ⟨0, (mem_level_succ hm).mpr ⟨root, List.mem_singleton_self root, hparent⟩⟩
  | tail _ hparent ih =>
      obtain ⟨n, hn⟩ := ih
      exact ⟨n + 1, (mem_level_succ hm).mpr ⟨_, hn, hparent⟩⟩

theorem level_nodup (n : Nat) : (level children root n).Nodup := by
  induction n with
  | zero => exact List.nodup_singleton root
  | succ n ih =>
      refine List.nodup_flatMap.mpr ⟨fun p _ => hm.nodup p, ih.imp fun hne c hc hc' => hne ?_⟩
      have hfirst := (hm.inverse _ c).mp hc
      rw [(hm.inverse _ c).mp hc'] at hfirst
      exact (Option.some.inj hfirst).symm

variable (hacyclic : Acyclic parent)
include hacyclic

/-- A node is on one level only: a second one would put a node above itself. -/
theorem level_unique {i j : Nat} {x : K} (hi : x ∈ level children root i)
    (hj : x ∈ level children root j) : i = j := by
  induction i generalizing j x with
  | zero =>
      cases j with
      | zero => rfl
      | succ j =>
          rw [List.mem_singleton.mp hi] at hj
          exact absurd (descendant_of_mem_level hm hj) (hacyclic root)
  | succ i ih =>
      cases j with
      | zero =>
          rw [List.mem_singleton.mp hj] at hi
          exact absurd (descendant_of_mem_level hm hi) (hacyclic root)
      | succ j =>
          obtain ⟨p, hp, hparent⟩ := (mem_level_succ hm).mp hi
          obtain ⟨q, hq, hparent'⟩ := (mem_level_succ hm).mp hj
          rw [hparent] at hparent'
          exact congrArg Nat.succ (ih hp (Option.some.inj hparent' ▸ hq))

theorem levels_nodup (h : Nat) : (levels children root h).Nodup := by
  refine List.nodup_flatMap.mpr
    ⟨fun n _ => level_nodup hm _, List.nodup_range.imp fun hne x hx hx' => ?_⟩
  exact hne (Nat.succ.inj (level_unique hm hacyclic hx hx'))

theorem exists_level_eq_nil (nodes : List K) (hnodes : ∀ c p, parent c = some p → c ∈ nodes) :
    ∃ h, level children root h = [] := by
  by_contra hnone
  have hlength : ∀ h, h ≤ (levels children root h).length := by
    intro h
    induction h with
    | zero => exact Nat.zero_le _
    | succ h ih =>
        have hpos : 0 < (level children root (h + 1)).length :=
          List.length_pos_of_ne_nil fun hnil => hnone ⟨h + 1, hnil⟩
        rw [levels_succ, List.length_append]
        omega
  have hsubset : levels children root (nodes.length + 1) ⊆ nodes := by
    intro x hx
    obtain ⟨n, -, hn⟩ := List.mem_flatMap.mp hx
    obtain ⟨p, -, hparent⟩ := (mem_level_succ hm).mp hn
    exact hnodes x p hparent
  have hnodup : (levels children root (nodes.length + 1)).Nodup := levels_nodup hm hacyclic _
  have hle := (List.Nodup.subperm hnodup hsubset).length_le
  exact absurd (hlength (nodes.length + 1)) (by omega)

/-- The walk from a root ends; it lists the proper descendants of the root, each once, one level
after the other. -/
theorem walk_spec (nodes : List K) (hnodes : ∀ c p, parent c = some p → c ∈ nodes) (root : K) :
    ∃ h steps, (∀ fuel, steps ≤ fuel → walk children fuel [root] [] =
        some (levels children root h)) ∧
      (levels children root h).Nodup ∧
      ∀ x, x ∈ levels children root h ↔ Descendant parent root x := by
  obtain ⟨h, hend⟩ : ∃ h, level children root h = [] :=
    exists_level_eq_nil hm hacyclic nodes hnodes
  obtain ⟨steps, hsteps⟩ := walk_eq_levels hend
  refine ⟨h, steps, hsteps, levels_nodup hm hacyclic h, fun x => ⟨fun hx => ?_, fun hx => ?_⟩⟩
  · obtain ⟨n, -, hn⟩ := List.mem_flatMap.mp hx
    exact descendant_of_mem_level hm hn
  · obtain ⟨n, hn⟩ := exists_level_of_descendant hm hx
    have hlt := lt_of_mem_level hend hn
    exact List.mem_flatMap.mpr ⟨n, List.mem_range.mpr (by omega), hn⟩

end Forest

end PlexSpaces.Lib
