import Mathlib.Logic.Function.Basic
import Mathlib.Order.Bounds.Basic
import Mathlib.Order.Lattice
/-!
# States with clocks

Replicas hold states of a join-semilattice, and each counts in its clock how many operations
of every replica it has seen.  An operation only adds to the state of its replica and is
counted there; a replica that receives from another joins the states and the clocks.  Then the
clock says what is in the state: with `S n k` for what replica `n` held after its `k`-th
operation, a state is the least upper bound of what its clock counts (`Causal`).  So a
replica whose clock is ahead of another's has all that the other has (`Causal.le`).
-/

namespace PlexSpaces.Lib

universe u v

structure Clocked (R : Type u) (α : Type v) where
  state : α
  clock : R → Nat

namespace Clocked

variable {R : Type u} {α : Type v} [DecidableEq R] [SemilatticeSup α]

/-- An operation of `r`, which makes its state `x`. -/
def operate (w : R → Clocked R α) (r : R) (x : α) : R → Clocked R α :=
  Function.update w r ⟨x, Function.update (w r).clock r ((w r).clock r + 1)⟩

/-- `r` receives what `s` has. -/
def receive (w : R → Clocked R α) (r s : R) : R → Clocked R α :=
  Function.update w r
    ⟨(w r).state ⊔ (w s).state, fun n => max ((w r).clock n) ((w s).clock n)⟩

structure Causal (w : R → Clocked R α) (S : R → Nat → α) : Prop where
  mono : ∀ n, Monotone (S n)
  seen : ∀ r n, (w r).clock n ≤ (w n).clock n
  isLUB : ∀ r, IsLUB (Set.range fun n => S n ((w r).clock n)) (w r).state

omit [DecidableEq R] in
theorem causal_start [OrderBot α] :
    Causal (fun _ : R => (⟨⊥, fun _ => 0⟩ : Clocked R α)) fun _ _ => ⊥ where
  mono _ := monotone_const
  seen _ _ := le_rfl
  isLUB _ := by
    refine ⟨?_, fun _ _ => bot_le⟩
    rintro _ ⟨n, rfl⟩
    exact le_rfl

namespace Causal

variable {w : R → Clocked R α} {S : R → Nat → α}

omit [DecidableEq R] in
theorem le_state (h : Causal w S) (r n : R) : S n ((w r).clock n) ≤ (w r).state :=
  (h.isLUB r).1 ⟨n, rfl⟩

omit [DecidableEq R] in
/-- A clock that is ahead of another stands for a state that has all of the other. -/
theorem le (h : Causal w S) {r s : R} (hclock : (w r).clock ≤ (w s).clock) :
    (w r).state ≤ (w s).state := by
  apply (h.isLUB r).2
  rintro _ ⟨n, rfl⟩
  exact (h.mono n (hclock n)).trans (h.le_state s n)

theorem operate (h : Causal w S) {r : R} {x : α} (hx : (w r).state ≤ x) :
    ∃ S', Causal (operate w r x) S' := by
  -- what `r` holds from its next operation on
  refine ⟨Function.update S r fun k => if k ≤ (w r).clock r then S r k else x, ?_, ?_, ?_⟩
  · intro n
    by_cases hn : n = r
    · subst hn
      rw [Function.update_self]
      intro j k hjk
      dsimp only
      split_ifs with hj hk hk
      · exact h.mono n hjk
      · exact (h.mono n hj).trans ((h.le_state n n).trans hx)
      · omega
      · exact le_rfl
    · rw [Function.update_of_ne hn]
      exact h.mono n
  · intro s n
    have hseen := h.seen s n
    have hown := h.seen r n
    by_cases hs : s = r <;> by_cases hn : n = r <;>
      simp_all [Clocked.operate, Function.update_of_ne]
    omega
  · intro s
    by_cases hs : s = r
    · subst hs
      have hpast : ¬(w s).clock s + 1 ≤ (w s).clock s := Nat.not_succ_le_self _
      simp only [Clocked.operate, Function.update_self]
      constructor
      · rintro _ ⟨n, rfl⟩
        by_cases hn : n = s
        · subst hn
          simp [hpast]
        · simp only [Function.update_of_ne hn]
          exact (h.le_state s n).trans hx
      · intro y hy
        simpa [hpast] using hy ⟨s, rfl⟩
    · simp only [Clocked.operate, Function.update_of_ne hs]
      convert h.isLUB s using 2
      funext n
      by_cases hn : n = r
      · subst hn
        rw [Function.update_self, if_pos (h.seen s n)]
      · rw [Function.update_of_ne hn]

theorem receive (h : Causal w S) (r s : R) : Causal (receive w r s) S := by
  refine ⟨h.mono, ?_, ?_⟩
  · intro p n
    have hr := h.seen r n
    have hs := h.seen s n
    have hp := h.seen p n
    by_cases hpr : p = r <;> by_cases hn : n = r <;>
      simp_all [Clocked.receive, Function.update_of_ne]
  · intro p
    by_cases hp : p = r
    · subst hp
      simp only [Clocked.receive, Function.update_self]
      constructor
      · rintro _ ⟨n, rfl⟩
        rcases le_total ((w p).clock n) ((w s).clock n) with hle | hle
        · simp only [max_eq_right hle]
          exact (h.le_state s n).trans le_sup_right
        · simp only [max_eq_left hle]
          exact (h.le_state p n).trans le_sup_left
      · intro y hy
        have hboth : ∀ n, S n (max ((w p).clock n) ((w s).clock n)) ≤ y := fun n => hy ⟨n, rfl⟩
        refine sup_le ((h.isLUB p).2 ?_) ((h.isLUB s).2 ?_)
        · rintro _ ⟨n, rfl⟩
          exact (h.mono n (le_max_left _ _)).trans (hboth n)
        · rintro _ ⟨n, rfl⟩
          exact (h.mono n (le_max_right _ _)).trans (hboth n)
    · simp only [Clocked.receive, Function.update_of_ne hp]
      exact h.isLUB p

end Causal

end Clocked

end PlexSpaces.Lib
