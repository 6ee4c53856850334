import PlexSpaces.Lib.Run
import PlexSpaces.Tuples.LatticeSpace
/-!
# Gossip between two replicas

A gossip takes one lock after another: it copies both sets, writes the merge of the copies back
to both replicas, and then does the same with the clocks.  Writes and takes run on either
replica between any two of its lock sections.  What is written back is the merge of what was
copied, so an operation that lands on a replica between the copy and the write-back is undone
(`not_gossip_loses_nothing`), and nothing else is lost (`gossip_loses_nothing`).
-/

namespace PlexSpaces.Tuples

open PlexSpaces.Lib PlexSpaces.Crdt PlexSpaces.Crdt.Lattice

inductive Side
  | ours
  | theirs
  deriving DecidableEq

/-- The lock section that the gossip takes next, with what it holds from the earlier ones. -/
inductive Section
  | readOurs
  | readTheirs (ourTuples : OrSetLattice Tuple)
  | writeOurs (mergedTuples : OrSetLattice Tuple)
  | writeTheirs (mergedTuples : OrSetLattice Tuple)
  | readOurClock
  | readTheirClock (ourClock : VectorClock)
  | writeOurClock (mergedClock : VectorClock)
  | writeTheirClock (mergedClock : VectorClock)
  | done

structure Gossip where
  ours : LatticeTupleSpace
  theirs : LatticeTupleSpace
  next : Section

namespace Gossip

inductive Action
  | gossip
  | apply (side : Side) (op : LatticeTupleSpace.Operation)

def start (ours theirs : LatticeTupleSpace) : Gossip := ⟨ours, theirs, .readOurs⟩

def replica (g : Gossip) : Side → LatticeTupleSpace
  | .ours => g.ours
  | .theirs => g.theirs

def goOn (g : Gossip) : Gossip :=
  match g.next with
  | .readOurs => { g with next := .readTheirs g.ours.tuples }
  | .readTheirs ourTuples => { g with next := .writeOurs (merge ourTuples g.theirs.tuples) }
  | .writeOurs merged =>
      { g with ours := { g.ours with tuples := merged }, next := .writeTheirs merged }
  | .writeTheirs merged =>
      { g with theirs := { g.theirs with tuples := merged }, next := .readOurClock }
  | .readOurClock => { g with next := .readTheirClock g.ours.clock }
  | .readTheirClock ourClock => { g with next := .writeOurClock (merge ourClock g.theirs.clock) }
  | .writeOurClock merged =>
      { g with ours := { g.ours with clock := merged }, next := .writeTheirClock merged }
  | .writeTheirClock merged =>
      { g with theirs := { g.theirs with clock := merged }, next := .done }
  | .done => g

def step (g : Gossip) : Action → Gossip
  | .gossip => g.goOn
  | .apply .ours op => { g with ours := g.ours.apply op }
  | .apply .theirs op => { g with theirs := g.theirs.apply op }

/-- The gossip has a copy of the set or of the clock of this replica that it has not written
back yet. -/
def HoldsCopy (g : Gossip) : Side → Prop
  | .ours =>
      match g.next with
      | .readTheirs _ | .writeOurs _ | .readTheirClock _ | .writeOurClock _ => True
      | _ => False
  | .theirs =>
      match g.next with
      | .writeOurs _ | .writeTheirs _ | .writeOurClock _ | .writeTheirClock _ => True
      | _ => False

/-- An operation that changes its replica does not come between a copy and its write-back, and
the replica can count it. -/
def Apart (g : Gossip) : Action → Prop
  | .gossip => True
  | .apply side op =>
      (g.replica side).Changes op →
        ¬g.HoldsCopy side ∧ (g.replica side).clock.HasRoom (g.replica side).nodeId

def contents (g : Gossip) :
    (OrSetLattice Tuple × (String → Nat)) × (OrSetLattice Tuple × (String → Nat)) :=
  ((g.ours.tuples, fun k => (g.ours.clock.get k).toNat),
    (g.theirs.tuples, fun k => (g.theirs.clock.get k).toNat))

/-- What will be written back is not behind what stands there. -/
def UpToDate (g : Gossip) : Prop :=
  match g.next with
  | .readTheirs ourTuples => g.ours.tuples ≤ ourTuples
  | .writeOurs merged => g.ours.tuples ≤ merged ∧ g.theirs.tuples ≤ merged
  | .writeTheirs merged => g.theirs.tuples ≤ merged
  | .readTheirClock ourClock => g.ours.clock.Below ourClock
  | .writeOurClock merged => g.ours.clock.Below merged ∧ g.theirs.clock.Below merged
  | .writeTheirClock merged => g.theirs.clock.Below merged
  | _ => True

/-- At every point of the run, the ids that a replica has added or removed by then are in it at
the end of the run, and its clock has not gone back. -/
def NothingLost (g : Gossip) (as : List Action) : Prop :=
  ∀ bs cs, as = bs ++ cs → ∀ side,
    (∀ tuple, ((run step g bs).replica side).tuples.ids tuple ⊆
      ((run step g as).replica side).tuples.ids tuple) ∧
    ((run step g bs).replica side).tuples.removed ⊆
      ((run step g as).replica side).tuples.removed ∧
    ((run step g bs).replica side).clock.Below ((run step g as).replica side).clock

variable {g : Gossip}

theorem below_inc {c : VectorClock} {nodeId : String} (h : c.HasRoom nodeId) :
    c.Below (c.inc nodeId) := by
  intro k
  rw [UInt64.le_iff_toNat_le]
  by_cases hk : k = nodeId
  · subst hk
    rw [VectorClock.toNat_get_inc_self h]
    exact Nat.le_succ _
  · rw [VectorClock.get_inc_of_ne _ hk]

theorem below_refl (c : VectorClock) : c.Below c := fun _ => UInt64.le_refl _

theorem below_apply {s : LatticeTupleSpace} {op : LatticeTupleSpace.Operation}
    (h : s.Changes op → s.clock.HasRoom s.nodeId) : s.clock.Below (s.apply op).clock := by
  by_cases hchanges : s.Changes op
  · rw [(LatticeTupleSpace.apply_of_changes hchanges).2]
    exact below_inc (h hchanges)
  · rw [LatticeTupleSpace.apply_of_not_changes hchanges]
    exact below_refl _

theorem contents_le_iff {g g' : Gossip} : g.contents ≤ g'.contents ↔
    (g.ours.tuples ≤ g'.ours.tuples ∧ g.ours.clock.Below g'.ours.clock) ∧
      g.theirs.tuples ≤ g'.theirs.tuples ∧ g.theirs.clock.Below g'.theirs.clock := by
  simp only [contents, Prod.mk_le_mk, Pi.le_def, VectorClock.Below, UInt64.le_iff_toNat_le]

theorem goOn_step (h : g.UpToDate) : g.contents ≤ g.goOn.contents ∧ g.goOn.UpToDate := by
  obtain ⟨ours, theirs, next⟩ := g
  have hours := below_refl ours.clock
  have htheirs := below_refl theirs.clock
  cases next with
  | readOurs => exact ⟨le_rfl, le_rfl⟩
  | readTheirs ourTuples =>
      exact ⟨le_rfl, le_trans h le_sup_left, le_sup_right⟩
  | writeOurs merged =>
      exact ⟨contents_le_iff.mpr ⟨⟨h.1, hours⟩, le_rfl, htheirs⟩, h.2⟩
  | writeTheirs merged =>
      exact ⟨contents_le_iff.mpr ⟨⟨le_rfl, hours⟩, h, htheirs⟩, trivial⟩
  | readOurClock => exact ⟨le_rfl, hours⟩
  | readTheirClock ourClock =>
      have hmerge := VectorClock.below_merge_iff.mp
        (below_refl (merge ourClock theirs.clock))
      exact ⟨le_rfl, fun k => UInt64.le_trans (h k) (hmerge.1 k), hmerge.2⟩
  | writeOurClock merged =>
      exact ⟨contents_le_iff.mpr ⟨⟨le_rfl, h.1⟩, le_rfl, htheirs⟩, h.2⟩
  | writeTheirClock merged =>
      exact ⟨contents_le_iff.mpr ⟨⟨le_rfl, hours⟩, le_rfl, h⟩, trivial⟩
  | done => exact ⟨le_rfl, trivial⟩

theorem step_of_not_changes {side : Side} {op : LatticeTupleSpace.Operation}
    (h : ¬(g.replica side).Changes op) : g.step (.apply side op) = g := by
  cases side with
  | ours =>
      exact congrArg (fun s => { g with ours := s }) (LatticeTupleSpace.apply_of_not_changes h)
  | theirs =>
      exact congrArg (fun s => { g with theirs := s }) (LatticeTupleSpace.apply_of_not_changes h)

theorem upToDate_apply {side : Side} (h : g.UpToDate) (hcopy : ¬g.HoldsCopy side)
    (op : LatticeTupleSpace.Operation) : (g.step (.apply side op)).UpToDate := by
  obtain ⟨ours, theirs, next⟩ := g
  cases side <;> cases next <;> first | exact h | exact absurd trivial hcopy

theorem step_apart (g : Gossip) (a : Action) (h : g.UpToDate) (hapart : g.Apart a) :
    g.contents ≤ (g.step a).contents ∧ (g.step a).UpToDate := by
  cases a with
  | gossip => exact goOn_step h
  | apply side op =>
      by_cases hchanges : (g.replica side).Changes op
      · obtain ⟨hcopy, hroom⟩ := hapart hchanges
        refine ⟨contents_le_iff.mpr ?_, upToDate_apply h hcopy op⟩
        cases side with
        | ours =>
            exact ⟨⟨g.ours.tuples_le_apply op, below_apply fun _ => hroom⟩, le_rfl,
              below_refl _⟩
        | theirs =>
            exact ⟨⟨le_rfl, below_refl _⟩, g.theirs.tuples_le_apply op,
              below_apply fun _ => hroom⟩
      · rw [step_of_not_changes hchanges]
        exact ⟨le_rfl, h⟩

/-- Nothing is lost in a run whose operations do not come between a copy and its write-back. -/
theorem gossip_loses_nothing (ours theirs : LatticeTupleSpace) (as : List Action)
    (h : Along step Apart (start ours theirs) as) : NothingLost (start ours theirs) as := by
  have hgrows : Along step (fun g a => g.contents ≤ (g.step a).contents) (start ours theirs) as :=
    h.of_invariant (I := UpToDate) (fun g a hg ha => step_apart g a hg ha) trivial
  rintro bs cs rfl side
  have hrest := ((along_append _ _ bs cs).mp hgrows).2
  have hle : (run step (start ours theirs) bs).contents ≤
      (run step (start ours theirs) (bs ++ cs)).contents := by
    rw [run, run, List.foldl_append]
    exact hrest.monotone fun _ _ hstep => hstep
  rw [contents_le_iff] at hle
  cases side with
  | ours =>
      exact ⟨OrSetLattice.ids_subset_of_le hle.1.1, OrSetLattice.removed_subset_of_le hle.1.1,
        hle.1.2⟩
  | theirs =>
      exact ⟨OrSetLattice.ids_subset_of_le hle.2.1, OrSetLattice.removed_subset_of_le hle.2.1,
        hle.2.2⟩

/-- A write and then a whole gossip. -/
theorem gossip_loses_nothing_written :
    NothingLost (start (.new "a") (.new "b"))
      (.apply .ours (.write (.new []) "1") :: List.replicate 8 .gossip) := by
  apply gossip_loses_nothing
  have hgossip : ∀ (n : Nat) (g : Gossip), Along step Apart g (List.replicate n .gossip) := by
    intro n
    induction n with
    | zero => exact fun _ => trivial
    | succ n ih => exact fun g => ⟨trivial, ih g.goOn⟩
  have hroom : VectorClock.new.HasRoom "a" := by
    rw [VectorClock.HasRoom, VectorClock.get_new]
    decide
  exact ⟨fun _ => ⟨not_false, hroom⟩, hgossip 8 _⟩

/-- A write between the copy of our set and its write-back. -/
theorem not_gossip_loses_nothing :
    ¬∀ (ours theirs : LatticeTupleSpace) (as : List Action),
      NothingLost (start ours theirs) as := by
  intro h
  have hkept : (OrSetLattice.new.add (Tuple.new []) ("a" ++ "-" ++ "1")).ids (Tuple.new []) ⊆
      (merge OrSetLattice.new OrSetLattice.new).ids (Tuple.new []) :=
    (h (.new "a") (.new "b") [.gossip, .apply .ours (.write (.new []) "1"), .gossip, .gossip]
      [.gossip, .apply .ours (.write (.new []) "1")] [.gossip, .gossip] rfl .ours).1 (.new [])
  rw [OrSetLattice.ids_add, if_pos rfl, OrSetLattice.ids_merge, OrSetLattice.ids_new,
    Finset.empty_union] at hkept
  exact absurd (hkept (Finset.mem_insert_self _ _)) (Finset.notMem_empty _)

end Gossip

end PlexSpaces.Tuples
