import PlexSpaces.Lib.Causality
import PlexSpaces.Lib.Run
import PlexSpaces.Tuples.LatticeSpace
/-!
# Clocks and what they stand for

Replicas of a tuple space with distinct node ids write, take and merge in any order.  The
clocks order what the replicas have seen: a replica whose clock is not behind another's has all
of its tuples and removals (`clocks_order_causality`), as long as no counter wraps.
-/

namespace PlexSpaces.Tuples

open PlexSpaces.Lib PlexSpaces.Crdt PlexSpaces.Crdt.Lattice

universe u

abbrev Spaces (R : Type u) := R → LatticeTupleSpace

namespace Spaces

variable {R : Type u}

def start (nodeId : R → String) : Spaces R := fun r => .new (nodeId r)

inductive Action (R : Type u)
  | apply (r : R) (op : LatticeTupleSpace.Operation)
  | merge (r s : R)

variable [DecidableEq R]

def step (w : Spaces R) : Action R → Spaces R
  | .apply r op => Function.update w r ((w r).apply op)
  | .merge r s => Function.update w r ((w r).merge (w s))

/-- The operation can be counted: the counter of its replica does not wrap. -/
def CanCount (w : Spaces R) : Action R → Prop
  | .apply r op => (w r).Changes op → (w r).clock.HasRoom (w r).nodeId
  | .merge _ _ => True

omit [DecidableEq R] in
/-- Replica by replica the set, and how many operations of each replica the clock counts. -/
def counted (nodeId : R → String) (w : Spaces R) : R → Clocked R (OrSetLattice Tuple) :=
  fun r => ⟨(w r).tuples, fun n => ((w r).clock.get (nodeId n)).toNat⟩

/-- The replicas have their node ids, and their clocks stand for what is in their sets. -/
structure Sound (nodeId : R → String) (w : Spaces R) : Prop where
  nodeId_eq : ∀ r, (w r).nodeId = nodeId r
  proper : ∀ r, (w r).clock.Proper
  causal : ∃ S, Clocked.Causal (counted nodeId w) S

variable {nodeId : R → String} {w : Spaces R}

omit [DecidableEq R] in
theorem sound_start (nodeId : R → String) : Sound nodeId (start nodeId) := by
  refine ⟨fun r => rfl, fun r => VectorClock.proper_new, fun _ _ => ⊥, ?_⟩
  exact Clocked.causal_start

theorem counted_apply (h : Sound nodeId w) (hinj : Function.Injective nodeId) {r : R}
    {op : LatticeTupleSpace.Operation} (hchanges : (w r).Changes op)
    (hroom : (w r).clock.HasRoom (w r).nodeId) :
    counted nodeId (step w (.apply r op)) =
      Clocked.operate (counted nodeId w) r ((w r).apply op).tuples := by
  have hclock := (LatticeTupleSpace.apply_of_changes hchanges).2
  funext s
  by_cases hs : s = r
  · subst hs
    simp only [counted, step, Clocked.operate, Function.update_self, Clocked.mk.injEq, true_and]
    funext n
    by_cases hn : n = s
    · subst hn
      rw [Function.update_self, hclock, ← h.nodeId_eq n,
        VectorClock.toNat_get_inc_self hroom]
    · have hne : nodeId n ≠ (w s).nodeId := by
        rw [h.nodeId_eq s]
        exact hinj.ne hn
      rw [Function.update_of_ne hn, hclock, VectorClock.get_inc_of_ne _ hne]
  · simp only [counted, step, Clocked.operate, Function.update_of_ne hs]

theorem counted_merge (r s : R) :
    counted nodeId (step w (.merge r s)) = Clocked.receive (counted nodeId w) r s := by
  funext p
  by_cases hp : p = r
  · subst hp
    simp only [counted, step, LatticeTupleSpace.merge, Clocked.receive, Function.update_self,
      VectorClock.toNat_get_merge, OrSetLattice.merge_eq_sup]
  · simp only [counted, step, Clocked.receive, Function.update_of_ne hp]

theorem Sound.apply (h : Sound nodeId w) (hinj : Function.Injective nodeId) {r : R}
    {op : LatticeTupleSpace.Operation}
    (hroom : (w r).Changes op → (w r).clock.HasRoom (w r).nodeId) :
    Sound nodeId (step w (.apply r op)) := by
  by_cases hchanges : (w r).Changes op
  · obtain ⟨hle, hclock⟩ := LatticeTupleSpace.apply_of_changes hchanges
    obtain ⟨S, hS⟩ := h.causal
    refine ⟨?_, ?_, ?_⟩
    · intro s
      by_cases hs : s = r
      · subst hs
        simp [step, h.nodeId_eq]
      · simp [step, Function.update_of_ne hs, h.nodeId_eq]
    · intro s
      by_cases hs : s = r
      · subst hs
        rw [step, Function.update_self, hclock]
        exact (h.proper s).inc (hroom hchanges)
      · rw [step, Function.update_of_ne hs]
        exact h.proper s
    · rw [counted_apply h hinj hchanges (hroom hchanges)]
      exact hS.operate hle
  · have hsame : step w (.apply r op) = w := by
      rw [step, LatticeTupleSpace.apply_of_not_changes hchanges, Function.update_eq_self]
    rwa [hsame]

theorem Sound.merge (h : Sound nodeId w) (r s : R) : Sound nodeId (step w (.merge r s)) := by
  obtain ⟨S, hS⟩ := h.causal
  refine ⟨?_, ?_, S, ?_⟩
  · intro p
    by_cases hp : p = r
    · subst hp
      simp [step, LatticeTupleSpace.merge, h.nodeId_eq]
    · simp [step, Function.update_of_ne hp, h.nodeId_eq]
  · intro p
    by_cases hp : p = r
    · subst hp
      rw [step, Function.update_self]
      exact (h.proper p).merge (h.proper s)
    · rw [step, Function.update_of_ne hp]
      exact h.proper p
  · rw [counted_merge]
    exact hS.receive r s

theorem Sound.step (hinj : Function.Injective nodeId) (w : Spaces R) (a : Action R)
    (h : Sound nodeId w) (hcount : w.CanCount a) : Sound nodeId (Spaces.step w a) := by
  cases a with
  | apply r op => exact h.apply hinj hcount
  | merge r s => exact h.merge r s

omit [DecidableEq R] in
theorem Sound.subsumes (h : Sound nodeId w) {r s : R}
    (hbefore : (w r).clock.happensBefore (w s).clock = true) :
    Lattice.subsumes (w s).tuples (w r).tuples = true := by
  obtain ⟨S, hS⟩ := h.causal
  refine OrSetLattice.le_iff_subsumes.mp (hS.le (r := r) (s := s) ?_)
  intro n
  exact UInt64.le_iff_toNat_le.mp
    ((VectorClock.happensBefore_iff (h.proper r)).mp hbefore (nodeId n))

/-- Clocks that `inc` and `merge` make without wrapping a counter are ordered by their counters,
with the merge as the least upper bound; and whenever replicas with distinct node ids write, take
and merge and no counter wraps, the set of a replica subsumes that of every replica whose clock
happened before its own. -/
theorem clocks_order_causality :
    (∀ a b c : VectorClock, a.Reachable VectorClock.HasRoom → b.Reachable VectorClock.HasRoom →
      c.Reachable VectorClock.HasRoom → VectorClock.OrdersCausality a b c) ∧
    ∀ (R : Type u) [DecidableEq R] (nodeId : R → String), Function.Injective nodeId →
      ∀ as : List (Action R), Along step CanCount (start nodeId) as →
        ∀ r s, (run step (start nodeId) as r).clock.happensBefore
            (run step (start nodeId) as s).clock = true →
          Lattice.subsumes (run step (start nodeId) as s).tuples
            (run step (start nodeId) as r).tuples = true := by
  constructor
  · intro a b c ha hb _
    exact ha.proper.ordersCausality hb.proper c
  · intro R _ nodeId hinj as hrun r s
    exact (hrun.invariant (Sound.step hinj) (sound_start nodeId)).subsumes

end Spaces

/-! ## A counter that wraps -/

def countedUp (nodeId : String) (count : Nat) : VectorClock :=
  count.repeat (fun c => c.inc nodeId) VectorClock.new

theorem countedUp_reachable (nodeId : String) (count : Nat) :
    (countedUp nodeId count).Reachable fun _ _ => True := by
  induction count with
  | zero => exact .new
  | succ count ih => exact .inc nodeId ih trivial

theorem get_countedUp (nodeId k : String) (count : Nat) :
    (countedUp nodeId count).get k = if k = nodeId then UInt64.ofNat count else 0 := by
  induction count with
  | zero => exact (VectorClock.get_new k).trans (ite_self 0).symm
  | succ count ih =>
      change ((countedUp nodeId count).inc nodeId).get k = _
      by_cases hk : k = nodeId
      · subst hk
        rw [VectorClock.get_inc_self, ih, if_pos rfl, if_pos rfl, UInt64.ofNat_add count 1]
        rfl
      · rw [VectorClock.get_inc_of_ne _ hk, ih, if_neg hk, if_neg hk]

/-- After `2 ^ 64` operations the counter is zero again, and the clock is not before a new one
that counts the same. -/
theorem not_clocks_order_causality :
    ¬∀ a b : VectorClock, a.Reachable (fun _ _ => True) → b.Reachable (fun _ _ => True) →
      (a.happensBefore b = true ↔ ∀ k, a.get k ≤ b.get k) := by
  intro h
  obtain ⟨count, hcount⟩ : ∃ count : Nat, UInt64.ofNat (count + 1) = 0 := ⟨2 ^ 64 - 1, by decide⟩
  have hzero : ∀ k, (countedUp "n" (count + 1)).get k = 0 := by
    intro k
    rw [get_countedUp, hcount, ite_self]
  have hbefore := (h (countedUp "n" (count + 1)) .new (countedUp_reachable _ _) .new).mpr
    fun k => by rw [hzero k]; exact UInt64.le_iff_toNat_le.mpr (Nat.zero_le _)
  rw [VectorClock.happensBefore, Bool.and_eq_true, decide_eq_true_iff, decide_eq_true_iff]
    at hbefore
  -- the entry is still there, and a new clock has none
  have hmem : "n" ∈ (countedUp "n" (count + 1)).clocks.keys :=
    VectorClock.mem_keys_iff.mpr ⟨_, Finmap.lookup_insert _⟩
  have hpos := Finset.card_pos.mpr ⟨"n", hmem⟩
  exact absurd (hpos.trans_le hbefore.2) (by decide)

end PlexSpaces.Tuples
