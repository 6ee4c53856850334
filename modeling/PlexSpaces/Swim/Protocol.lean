import PlexSpaces.Lib.Run
import PlexSpaces.Swim.Queue
/-!
# The SWIM protocol state machine

The operations of `SwimProtocol`, each a function of the state and of the clock
reading `now` at which it runs.  An operation of the source holds the write lock
on the member table while it changes an entry, so each of these functions is one
atomic step on the table.
-/

namespace PlexSpaces.Swim

open PlexSpaces.Lib

/-- Metadata key and value that mark a node without an inbound gRPC port. -/
def swimNodeTypeKey : String := "node_type"

def swimNodeTypeThin : String := "thin"

/-- Protocol configuration.  The source multiplies `suspicion_mult`, the natural
logarithm of the cluster size and the protocol period in `f64` and truncates the
product to milliseconds; `timeoutMs` is that number for a cluster size. -/
structure SwimConfig where
  indirectPingNodes : Nat
  timeoutMs : Nat → Nat
  suspicionMin : Nat
  suspicionMax : Nat
  deadNodeReapTimeout : Nat
  maxPiggybackUpdates : Nat

/-- The source's defaults; the float product stays a parameter. -/
def SwimConfig.default (timeoutMs : Nat → Nat) : SwimConfig where
  indirectPingNodes := 3
  timeoutMs := timeoutMs
  suspicionMin := 3 * 10 ^ 9
  suspicionMax := 30 * 10 ^ 9
  deadNodeReapTimeout := 300 * 10 ^ 9
  maxPiggybackUpdates := 10

def SwimConfig.suspicionTimeout (c : SwimConfig) (clusterSize : Nat) : Nat :=
  min (max (c.timeoutMs clusterSize * 1000000) c.suspicionMin) c.suspicionMax

/-- The counters that the operations below write. -/
structure SwimStats where
  suspicions : Nat
  deaths : Nat
  joins : Nat
  leaves : Nat
  reaps : Nat
  refutations : Nat
  updatesReceived : Nat
  antiEntropySyncs : Nat

structure SwimProtocol where
  localNodeId : String
  localAddress : String
  localIncarnation : Nat
  members : Assoc String SwimMember
  config : SwimConfig
  updatesQueue : UpdatesQueue (config.maxPiggybackUpdates * 2)
  probeSequence : Nat
  stats : SwimStats

namespace SwimProtocol

def new (localNodeId localAddress : String) (config : SwimConfig) : SwimProtocol where
  localNodeId := localNodeId
  localAddress := localAddress
  localIncarnation := 0
  members := ∅
  config := config
  updatesQueue := UpdatesQueue.empty
  probeSequence := 0
  stats := ⟨0, 0, 0, 0, 0, 0, 0, 0⟩

def queueUpdate (s : SwimProtocol) (u : MembershipUpdate) : SwimProtocol :=
  { s with updatesQueue := s.updatesQueue.queueUpdate u }

/-- `fetch_add` wraps at `2^64`. -/
def incrementIncarnation (s : SwimProtocol) : Nat × SwimProtocol :=
  let newInc := (s.localIncarnation + 1) % 2 ^ 64
  (newInc, { s with
    localIncarnation := newInc
    stats := { s.stats with refutations := s.stats.refutations + 1 } })

/-- An existing entry is replaced only by a strictly higher incarnation. -/
def upsertMember (s : SwimProtocol) (member : SwimMember) (now : Nat) : SwimProtocol :=
  let announce : MembershipUpdate :=
    (MembershipUpdate.new member.nodeId member.state member.incarnation now).withAddress
      member.address
  match s.members.lookup member.nodeId with
  | some existing =>
      if existing.incarnation < member.incarnation then
        { s with members := s.members.insert member.nodeId member }.queueUpdate announce
      else
        s
  | none =>
      { s with
        members := s.members.insert member.nodeId member
        stats := { s.stats with joins := s.stats.joins + 1 } }.queueUpdate announce

def getMember (s : SwimProtocol) (nodeId : String) : Option SwimMember :=
  s.members.lookup nodeId

def activeMembers (s : SwimProtocol) : List SwimMember :=
  s.members.values.filter fun m => m.state.isActive

def clusterSize (s : SwimProtocol) : Nat := s.activeMembers.length + 1

def suspectMember (s : SwimProtocol) (nodeId : String) (now : Nat) : SwimProtocol :=
  match s.members.lookup nodeId with
  | some member =>
      if member.state = .alive then
        { s with
          members := s.members.insert nodeId
            { member with state := .suspect, stateChangedAt := now }
          stats := { s.stats with suspicions := s.stats.suspicions + 1 } }.queueUpdate
            (MembershipUpdate.new nodeId .suspect member.incarnation now)
      else
        s
  | none => s

def declareDead (s : SwimProtocol) (nodeId : String) (now : Nat) : SwimProtocol :=
  match s.members.lookup nodeId with
  | some member =>
      if member.state ≠ .dead ∧ member.state ≠ .left then
        { s with
          members := s.members.insert nodeId
            { member with state := .dead, stateChangedAt := now }
          stats := { s.stats with deaths := s.stats.deaths + 1 } }.queueUpdate
            (MembershipUpdate.new nodeId .dead member.incarnation now)
      else
        s
  | none => s

def removeMemberSilently (s : SwimProtocol) (nodeId : String) : SwimProtocol :=
  { s with members := s.members.erase nodeId }

def countReceived (s : SwimProtocol) : SwimProtocol :=
  { s with stats := { s.stats with updatesReceived := s.stats.updatesReceived + 1 } }

/-- An alive message: the one operation that inserts without asking whether the
message is about this node. -/
def processAlive (s : SwimProtocol) (nodeId : String) (incarnation : Nat)
    (address : String) (now : Nat) : SwimProtocol :=
  match s.members.lookup nodeId with
  | some member =>
      let (member', updated) := member.updateState .alive incarnation now
      if updated then
        { s with
          members := s.members.insert nodeId
            ({ member' with address := address }.recordProbeSuccess now) }.countReceived
      else
        s.countReceived
  | none =>
      { s with
        members := s.members.insert nodeId
          { SwimMember.new nodeId address now with incarnation := incarnation }
        stats := { s.stats with joins := s.stats.joins + 1 } }.countReceived

/-- The answer to a suspicion about this node: a fresh local incarnation and an
alive update that carries it. -/
def refuteSuspicion (s : SwimProtocol) (now : Nat) : SwimProtocol :=
  let (newIncarnation, s') := s.incrementIncarnation
  s'.queueUpdate ((MembershipUpdate.new s.localNodeId .alive newIncarnation now).withAddress
    s.localAddress)

def processSuspect (s : SwimProtocol) (nodeId : String) (incarnation now : Nat) :
    SwimProtocol :=
  if nodeId = s.localNodeId then
    s.refuteSuspicion now
  else
    match s.members.lookup nodeId with
    | some member =>
        { s with
          members := s.members.insert nodeId
            (member.updateState .suspect incarnation now).1 }.countReceived
    | none => s.countReceived

def isThin (m : SwimMember) : Bool :=
  decide (m.metadata.lookup swimNodeTypeKey = some swimNodeTypeThin)

/-- Round robin over the active members that can be dialled. -/
def selectProbeTarget (s : SwimProtocol) : Option SwimMember × SwimProtocol :=
  let active := s.activeMembers.filter fun m => m.nodeId ≠ s.localNodeId && !isThin m
  if active.isEmpty then
    (none, s)
  else
    (active[s.probeSequence % active.length]?,
      { s with probeSequence := (s.probeSequence + 1) % 2 ^ 64 })

/-- Intermediaries for an indirect ping, in the order the shuffle leaves them. -/
def selectIndirectTargets (s : SwimProtocol)
    (shuffle : List SwimMember → List SwimMember) (excludeNodeId : String) :
    List SwimMember :=
  let candidates := s.members.values.filter fun m =>
    m.state = .alive && m.nodeId ≠ s.localNodeId && m.nodeId ≠ excludeNodeId && !isThin m
  (shuffle candidates).take s.config.indirectPingNodes

def toDeclareDead (s : SwimProtocol) (now : Nat) : List String :=
  let timeout := s.config.suspicionTimeout s.clusterSize
  (s.members.values.filter fun m =>
    m.state = .suspect && timeout < now - m.stateChangedAt).map (·.nodeId)

def checkSuspectTimeouts (s : SwimProtocol) (now : Nat) : SwimProtocol :=
  run (fun s nodeId => s.declareDead nodeId now) s (s.toDeclareDead now)

def reapDeadNodes (s : SwimProtocol) (now : Nat) : SwimProtocol :=
  let kept := s.members.retain fun _ m => !m.shouldReap s.config.deadNodeReapTimeout now
  let reaped := s.members.entries.length - kept.entries.length
  { s with
    members := kept
    stats := { s.stats with reaps := s.stats.reaps + reaped } }

/-- One received update.  Only three of the four kinds look at the incarnation
the update carries. -/
def applyUpdate (s : SwimProtocol) (u : MembershipUpdate) (now : Nat) : SwimProtocol :=
  match u.state with
  | .alive =>
      match u.address with
      | some addr => s.processAlive u.nodeId u.incarnation addr now
      | none => s
  | .suspect => s.processSuspect u.nodeId u.incarnation now
  | .dead => s.declareDead u.nodeId now
  | .left =>
      match s.members.lookup u.nodeId with
      | some member =>
          { s with
            members := s.members.insert u.nodeId (member.updateState .left u.incarnation now).1
            stats := { s.stats with leaves := s.stats.leaves + 1 } }
      | none => s

def applyUpdates (s : SwimProtocol) (updates : List MembershipUpdate) (now : Nat) :
    SwimProtocol :=
  run (fun s u => s.applyUpdate u now) s updates

def getFullState (s : SwimProtocol) : List SwimMember := s.members.values

def mergeMember (s : SwimProtocol) (remote : SwimMember) (now : Nat) : SwimProtocol :=
  if remote.nodeId = s.localNodeId then
    s
  else
    match s.members.lookup remote.nodeId with
    | some localMember =>
        if localMember.incarnation < remote.incarnation then
          { s with members := s.members.insert remote.nodeId remote }
        else if remote.incarnation = localMember.incarnation then
          if localMember.state.priority < remote.state.priority then
            let merged := { localMember with state := remote.state, stateChangedAt := now }
            { s with members := s.members.insert remote.nodeId merged }
          else
            s
        else
          s
    | none =>
        if remote.state.isActive then
          { s with members := s.members.insert remote.nodeId remote }
        else
          s

def mergeFullState (s : SwimProtocol) (remoteState : List SwimMember) (now : Nat) :
    SwimProtocol :=
  let s' := run (fun s remote => s.mergeMember remote now) s remoteState
  { s' with
    stats := { s'.stats with antiEntropySyncs := s'.stats.antiEntropySyncs + 1 } }

def twoNodes (incarnation : Nat) (state : NodeState) : SwimProtocol :=
  (SwimProtocol.new "local" "10.0.0.1:9000" (SwimConfig.default fun _ => 4000)).upsertMember
    { SwimMember.new "n1" "10.0.0.2:9000" 0 with
      incarnation := incarnation, state := state } 0

end SwimProtocol

end PlexSpaces.Swim
