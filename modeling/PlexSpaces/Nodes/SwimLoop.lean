import PlexSpaces.Nodes.Probe

/-!
# The SWIM loop

Two timers drive the loop.  A tick of the protocol timer takes the next member in turn, probes it
if its last success is not too old, and then looks after the suspects and the dead.  A tick of the
anti-entropy timer takes the next member in turn as well, from the same counter, and does nothing
with it: the exchange of states is not written.

The order in which a hash map is walked is a parameter of each tick.
-/

namespace PlexSpaces.Swim

open PlexSpaces.Lib

/-- An order in which the members of a table are met. -/
structure IterationOrder where
  order : List SwimMember → List SwimMember
  perm : ∀ ms, (order ms).Perm ms

namespace SwimProtocol

def probeCandidates (s : SwimProtocol) : List SwimMember :=
  s.activeMembers.filter fun m => m.nodeId ≠ s.localNodeId && !isThin m

/-- `selectProbeTarget` over a table that is walked in the given order. -/
def selectProbeTargetIn (s : SwimProtocol) (walk : IterationOrder) :
    Option SwimMember × SwimProtocol :=
  let active := walk.order s.probeCandidates
  if active.isEmpty then
    (none, s)
  else
    (active[s.probeSequence % active.length]?,
      { s with probeSequence := (s.probeSequence + 1) % 2 ^ 64 })

theorem selectProbeTarget_eq (s : SwimProtocol) :
    s.selectProbeTarget = s.selectProbeTargetIn ⟨id, List.Perm.refl⟩ := rfl

theorem selectProbeTargetIn_members (s : SwimProtocol) (walk : IterationOrder) :
    (s.selectProbeTargetIn walk).2.members = s.members := by
  unfold selectProbeTargetIn
  dsimp only
  split <;> rfl

theorem selectProbeTargetIn_config (s : SwimProtocol) (walk : IterationOrder) :
    (s.selectProbeTargetIn walk).2.config = s.config := by
  unfold selectProbeTargetIn
  dsimp only
  split <;> rfl

theorem mem_probeCandidates_of_select {s : SwimProtocol} {walk : IterationOrder} {m : SwimMember}
    (h : (s.selectProbeTargetIn walk).1 = some m) : m ∈ s.probeCandidates := by
  unfold selectProbeTargetIn at h
  dsimp only at h
  split at h
  · cases h
  · exact (walk.perm _).mem_iff.1 (List.mem_of_getElem? h)

end SwimProtocol

end PlexSpaces.Swim

namespace PlexSpaces.Nodes

open PlexSpaces.Lib PlexSpaces.Swim

/-- `MAX_PROBE_AGE`, a day. -/
def maxProbeAge : Nat := 24 * 60 * 60 * 10 ^ 9

def shouldProbeMember (m : SwimMember) (now : Nat) : Bool :=
  match m.lastProbeSuccess with
  | some success => decide (now - success ≤ maxProbeAge)
  | none => true

/-- What a tick of the protocol timer meets: the order of the table, the network, and the clock
at the five moments it is read. -/
structure ProtocolTick where
  walk : IterationOrder
  net : Network
  selectedAt : Nat
  probedAt : Clock
  suspectedAt : Clock
  checkedAt : Clock
  reapedAt : Clock

inductive LoopEvent
  | protocol (t : ProtocolTick)
  | antiEntropy (walk : IterationOrder)

namespace NodeRegistry

variable {σ : Type} (reg : ObjectRegistry σ)

/-- `swim.select_probe_target()`. -/
def takeTurn (s : NodeRegistry σ) (walk : IterationOrder) : Option SwimMember × NodeRegistry σ :=
  ((s.swim.selectProbeTargetIn walk).1,
    { s with
      swim := (s.swim.selectProbeTargetIn walk).2
      keyed := by
        rw [SwimProtocol.selectProbeTargetIn_members]
        exact s.keyed })

/-- The probe of the member in turn, if its last success is not too old. -/
def probeTarget (s : NodeRegistry σ) (t : ProtocolTick) (target : SwimMember) : NodeRegistry σ :=
  if shouldProbeMember target t.selectedAt then
    match probeNode reg s t.net target s.localCluster t.probedAt with
    | (.suspect, s) => s.onSwim (.suspectMember target.nodeId) t.suspectedAt
    | (_, s) => s
  else s

def probeTurn (s : NodeRegistry σ) (t : ProtocolTick) : NodeRegistry σ :=
  match s.takeTurn t.walk with
  | (some target, s) => s.probeTarget reg t target
  | (none, s) => s

def protocolTick (s : NodeRegistry σ) (t : ProtocolTick) : NodeRegistry σ :=
  ((s.probeTurn reg t).onSwim .checkSuspectTimeouts t.checkedAt).onSwim .reapDeadNodes t.reapedAt

/-- One iteration of `run_swim_loop`. -/
def loopStep (s : NodeRegistry σ) : LoopEvent → NodeRegistry σ
  | .protocol t => s.protocolTick reg t
  | .antiEntropy walk => (s.takeTurn walk).2

end NodeRegistry

end PlexSpaces.Nodes
