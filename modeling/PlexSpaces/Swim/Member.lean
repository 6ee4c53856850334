import Mathlib.Data.Prod.Lex
import Mathlib.Order.Lattice
import PlexSpaces.Lib.Assoc
/-!
# SWIM members

The record a node keeps about one peer, and the incarnation rules that decide
which news about the peer wins.  `pair` is the part the rules look at; the order
on pairs is lexicographic, incarnation first and then severity, and
`updateState_pair` says that `update_state` is the join of that order.

`Instant` and `Duration` are natural numbers of nanoseconds; the clock reading
of a call is an argument.
-/

namespace PlexSpaces.Swim

open PlexSpaces.Lib

inductive NodeState
  | alive
  | suspect
  | dead
  | left
  deriving DecidableEq, Repr

namespace NodeState

def isActive : NodeState → Bool
  | alive | suspect => true
  | dead | left => false

def priority : NodeState → Nat
  | alive => 0
  | suspect => 1
  | dead => 2
  | left => 3

theorem priority_injective : Function.Injective priority := by
  intro a b h
  cases a <;> cases b <;> first | rfl | cases h

/-- Severity: `alive < suspect < dead < left`. -/
instance : LinearOrder NodeState := LinearOrder.lift' priority priority_injective

theorem le_iff_priority {a b : NodeState} : a ≤ b ↔ a.priority ≤ b.priority := Iff.rfl

theorem alive_le (st : NodeState) : alive ≤ st := by
  rw [le_iff_priority]
  exact Nat.zero_le _

theorem isActive_iff (st : NodeState) : st.isActive = true ↔ st < dead := by
  cases st <;> decide

end NodeState

abbrev Pair := Nat ×ₗ NodeState

/-- What a node knows about one peer. -/
structure SwimMember where
  nodeId : String
  address : String
  state : NodeState
  incarnation : Nat
  stateChangedAt : Nat
  failedProbes : Nat
  lastProbeSuccess : Option Nat
  metadata : Assoc String String

namespace SwimMember

def new (nodeId address : String) (now : Nat) : SwimMember where
  nodeId := nodeId
  address := address
  state := .alive
  incarnation := 0
  stateChangedAt := now
  failedProbes := 0
  lastProbeSuccess := some now
  metadata := ∅

/-- The part of the record that the incarnation rules compare. -/
def pair (m : SwimMember) : Pair := toLex (m.incarnation, m.state)

def shouldReap (m : SwimMember) (reapTimeout now : Nat) : Bool :=
  !m.state.isActive && decide (reapTimeout < now - m.stateChangedAt)

/-- Apply news about the member.  Rule 1: a higher incarnation always wins.
Rule 2: at the same incarnation the more severe state wins.  Rule 3: everything
else is ignored.  The flag tells whether the news was taken. -/
def updateState (m : SwimMember) (newState : NodeState) (newIncarnation now : Nat) :
    SwimMember × Bool :=
  if m.incarnation < newIncarnation then
    let m' := { m with incarnation := newIncarnation }
    if m.state ≠ newState then
      ({ m' with state := newState, stateChangedAt := now }, true)
    else
      (m', true)
  else if newIncarnation = m.incarnation ∧ m.state.priority < newState.priority then
    ({ m with state := newState, stateChangedAt := now }, true)
  else
    (m, false)

def recordProbeSuccess (m : SwimMember) (now : Nat) : SwimMember :=
  let m' := { m with failedProbes := 0, lastProbeSuccess := some now }
  if m.state = .suspect then
    { m' with state := .alive, stateChangedAt := now }
  else
    m'

/-! ## The incarnation rules as a join -/

theorem pair_le_pair {m m' : SwimMember} :
    m.pair ≤ m'.pair ↔ m.incarnation < m'.incarnation ∨
      m.incarnation = m'.incarnation ∧ m.state ≤ m'.state := by
  rw [pair, pair, Prod.Lex.toLex_le_toLex]

theorem updateState_pair (m : SwimMember) (st : NodeState) (inc now : Nat) :
    (m.updateState st inc now).1.pair = max m.pair (toLex (inc, st)) := by
  unfold updateState
  split_ifs with hinc hst hsev
  · rw [max_eq_right]
    · rfl
    · exact Prod.Lex.toLex_le_toLex.mpr (Or.inl hinc)
  · rw [max_eq_right]
    · rw [not_not] at hst
      rw [← hst]
      rfl
    · exact Prod.Lex.toLex_le_toLex.mpr (Or.inl hinc)
  · obtain ⟨heq, hlt⟩ := hsev
    rw [max_eq_right]
    · rw [heq]
      rfl
    · refine Prod.Lex.toLex_le_toLex.mpr (Or.inr ⟨heq.symm, ?_⟩)
      exact NodeState.le_iff_priority.mpr hlt.le
  · rw [max_eq_left]
    refine Prod.Lex.toLex_le_toLex.mpr ?_
    rcases Nat.lt_or_ge inc m.incarnation with hlt | hge
    · exact Or.inl hlt
    · have heq : inc = m.incarnation := by omega
      refine Or.inr ⟨heq, NodeState.le_iff_priority.mpr ?_⟩
      exact Nat.le_of_not_lt fun hlt => hsev ⟨heq, hlt⟩

theorem updateState_alive_snd (m : SwimMember) (inc now : Nat) :
    (m.updateState .alive inc now).2 = decide (m.incarnation < inc) := by
  unfold updateState
  split_ifs with hinc hst hsev
  · simp [hinc]
  · simp [hinc]
  · exact absurd hsev.2 (Nat.not_lt_zero _)
  · simp [hinc]

theorem updateState_eq_self (m : SwimMember) (st : NodeState) (inc now : Nat)
    (h : toLex (inc, st) ≤ m.pair) : (m.updateState st inc now).1 = m := by
  rcases Prod.Lex.toLex_le_toLex.mp h with hlt | ⟨heq, hle⟩
  · unfold updateState
    rw [if_neg (by omega), if_neg (by omega)]
  · unfold updateState
    have hsev : ¬ m.state.priority < st.priority :=
      Nat.not_lt.mpr (NodeState.le_iff_priority.mp hle)
    rw [if_neg (by omega), if_neg (fun hc => hsev hc.2)]

@[simp] theorem updateState_nodeId (m : SwimMember) (st : NodeState) (inc now : Nat) :
    (m.updateState st inc now).1.nodeId = m.nodeId := by
  unfold updateState
  split_ifs <;> rfl

@[simp] theorem recordProbeSuccess_nodeId (m : SwimMember) (now : Nat) :
    (m.recordProbeSuccess now).nodeId = m.nodeId := by
  unfold recordProbeSuccess
  split_ifs <;> rfl

@[simp] theorem recordProbeSuccess_pair_of_alive (m : SwimMember) (now : Nat)
    (h : m.state = .alive) : (m.recordProbeSuccess now).pair = m.pair := by
  unfold recordProbeSuccess
  rw [if_neg (by rw [h]; decide)]
  rfl

theorem recordProbeSuccess_isActive (m : SwimMember) (now : Nat)
    (h : m.state.isActive = true) : (m.recordProbeSuccess now).state.isActive = true := by
  unfold recordProbeSuccess
  split_ifs
  · rfl
  · exact h

end SwimMember

end PlexSpaces.Swim
