import PlexSpaces.Nodes.Registry
/-!
# Probing a node

A probe pings the target directly and, when that fails, through intermediaries.
The network is an oracle: any answer to a direct ping, any answer to an indirect
one, any order of the intermediaries.

A probe that is answered goes through `upsert_member` with a member at
incarnation 0 (direct) or through `process_alive` at the incarnation the target
was probed with (indirect).  Neither is the join that would lift a suspicion at
the entry's own incarnation, and `probeNode_recovers_iff` says what follows.
-/

namespace PlexSpaces.Nodes

open PlexSpaces.Lib PlexSpaces.Swim
open PlexSpaces.Swim.SwimProtocol (knows_processAlive)

/-- The fields of a ping response that the reconciliation reads. -/
structure PingResponse where
  nodeId : String
  nodeAddress : String
  clusterName : String
  lastHeartbeat : Option Timestamp

structure Network where
  directPing : SwimMember → Except String PingResponse
  indirectPing : SwimMember → SwimMember → Except String Unit
  shuffle : List SwimMember → List SwimMember

inductive ProbeResult
  | alive
  | suspect
  | failed
  deriving DecidableEq, Repr

def PingResponse.clusterMismatch (response : PingResponse) (localCluster : String) : Prop :=
  localCluster ≠ "" ∧ response.clusterName ≠ "" ∧ localCluster ≠ response.clusterName
  deriving Decidable

def PingResponse.resolvedNodeId (response : PingResponse) (target : SwimMember) : String :=
  if response.nodeId = "" then target.nodeId else response.nodeId

def PingResponse.resolvedAddress (response : PingResponse) (target : SwimMember) : String :=
  if response.nodeAddress = "" then target.address else response.nodeAddress

def PingResponse.clusterLabel (response : PingResponse) (localCluster : String) : String :=
  if response.clusterName ≠ "" then response.clusterName else localCluster

def PingResponse.registration (response : PingResponse) (target : SwimMember)
    (localCluster : String) (clock : Clock) : NodeRegistration where
  nodeRole := 0
  nodeId := response.resolvedNodeId target
  nodeAddress := response.resolvedAddress target
  capabilities :=
    if response.clusterLabel localCluster = "" then ∅
    else AList.insert "cluster" (response.clusterLabel localCluster) ∅
  status := nodeStatusReady
  lastHeartbeat := some (response.lastHeartbeat.getD clock.wall)
  actorCount := 0
  messageCount := 0
  errorCount := 0
  registeredAt := some (response.lastHeartbeat.getD clock.wall)

namespace NodeRegistry

variable {σ : Type} (reg : ObjectRegistry σ)

/-- A placeholder is removed from the table; a concrete node is declared dead. -/
def unregisterDiscoveredNode (s : NodeRegistry σ) (nodeId : String) (clock : Clock) :
    NodeRegistry σ :=
  let s :=
    if isUnknownNodeId nodeId then s.onSwim (.removeMemberSilently nodeId) clock
    else s.onSwim (.declareDead nodeId) clock
  let s := s.removeFromCache nodeId
  { s with store := forgetStored reg nodeId s.store }

def reconcilePingResponse (s : NodeRegistry σ) (target : SwimMember)
    (response : PingResponse) (localCluster : String) (clock : Clock) :
    Except String Unit × NodeRegistry σ :=
  if response.clusterMismatch localCluster then
    (.error ("cluster mismatch for " ++ target.address ++ ": local=" ++ localCluster ++
        ", remote=" ++ response.clusterName),
      unregisterDiscoveredNode reg s target.nodeId clock)
  else
    let s :=
      if response.resolvedNodeId target ≠ target.nodeId ∧ isUnknownNodeId target.nodeId then
        unregisterDiscoveredNode reg s target.nodeId clock
      else s
    let registration := response.registration target localCluster clock
    let s := s.onSwim (.upsertMember (memberFor registration clock)) clock
    let s := s.updateCache registration.nodeId registration clock
    let label := response.clusterLabel localCluster
    let ctx := s.systemRegistryContext (if label = "" then none else some label)
    let (result, store) := persistNodeRegistrationWithRegistry reg ctx registration clock s.store
    (result, { s with store := store })

def probeNode (s : NodeRegistry σ) (net : Network) (target : SwimMember)
    (localCluster : String) (clock : Clock) : ProbeResult × NodeRegistry σ :=
  match net.directPing target with
  | .ok response =>
      match reconcilePingResponse reg s target response localCluster clock with
      | (.ok _, s) => (.alive, s)
      | (.error _, s) => (.failed, s)
  | .error _ =>
      let indirectTargets := s.swim.selectIndirectTargets net.shuffle target.nodeId
      if indirectTargets.isEmpty then
        (.suspect, s.onSwim (.suspectMember target.nodeId) clock)
      else if indirectTargets.any fun i => (net.indirectPing i target).isOk then
        (.alive,
          s.onSwim (.processAlive target.nodeId target.incarnation target.address) clock)
      else
        (.suspect, s.onSwim (.suspectMember target.nodeId) clock)

/-! ## What an answered probe does to the table -/

def AnsweredDirectly (net : Network) (target : SwimMember) (localCluster : String) : Prop :=
  ∃ response, net.directPing target = .ok response ∧
    response.resolvedNodeId target = target.nodeId ∧
    ¬ response.clusterMismatch localCluster

/-- The direct ping fails and an intermediary reaches the target. -/
def AnsweredIndirectly (s : NodeRegistry σ) (net : Network) (target : SwimMember) : Prop :=
  (∃ e, net.directPing target = .error e) ∧
    ∃ i ∈ s.swim.selectIndirectTargets net.shuffle target.nodeId,
      net.indirectPing i target = .ok ()

theorem reconcilePingResponse_swim (s : NodeRegistry σ) {target : SwimMember}
    {response : PingResponse} {localCluster : String} (clock : Clock)
    (hcluster : ¬ response.clusterMismatch localCluster)
    (hid : response.resolvedNodeId target = target.nodeId) :
    (reconcilePingResponse reg s target response localCluster clock).2.swim =
      s.swim.upsertMember
        (memberFor (response.registration target localCluster clock) clock) clock.now := by
  unfold reconcilePingResponse
  rw [if_neg hcluster, if_neg (fun h => h.1 hid)]
  rfl

/-- Incarnation 0 is above no incarnation: the reply leaves the entry as it is. -/
theorem probeNode_direct (s : NodeRegistry σ) {net : Network} {target m : SwimMember}
    {localCluster : String} (clock : Clock)
    (hm : s.swim.members.lookup target.nodeId = some m)
    (hans : AnsweredDirectly net target localCluster) :
    (probeNode reg s net target localCluster clock).2.swim = s.swim := by
  obtain ⟨response, hping, hid, hcluster⟩ := hans
  have hprobe : (probeNode reg s net target localCluster clock).2 =
      (reconcilePingResponse reg s target response localCluster clock).2 := by
    unfold probeNode
    rw [hping]
    dsimp only
    split
    · rename_i h
      rw [h]
    · rename_i h
      rw [h]
  have hsame : (memberFor (response.registration target localCluster clock) clock).nodeId =
      target.nodeId := hid
  rw [hprobe, reconcilePingResponse_swim reg s clock hcluster hid, SwimProtocol.upsertMember,
    hsame, hm]
  exact if_neg (Nat.not_lt_zero _)

theorem probeNode_indirect (s : NodeRegistry σ) {net : Network} {target : SwimMember}
    (localCluster : String) (clock : Clock) (hans : s.AnsweredIndirectly net target) :
    (probeNode reg s net target localCluster clock).2.swim =
      s.swim.processAlive target.nodeId target.incarnation target.address clock.now := by
  obtain ⟨⟨e, hping⟩, i, hi, hreach⟩ := hans
  have hsome : (s.swim.selectIndirectTargets net.shuffle target.nodeId).isEmpty = false := by
    rw [List.isEmpty_eq_false_iff]
    exact List.ne_nil_of_mem hi
  have hany : (s.swim.selectIndirectTargets net.shuffle target.nodeId).any
      (fun i => (net.indirectPing i target).isOk) = true := by
    rw [List.any_eq_true]
    exact ⟨i, hi, by rw [hreach]; rfl⟩
  unfold probeNode
  rw [hping]
  dsimp only
  rw [hsome, if_neg Bool.false_ne_true, hany, if_pos rfl]
  rfl

/-- The table has an alive entry for `x`. -/
def IsAlive (s : NodeRegistry σ) (x : String) : Prop :=
  ∃ m, s.swim.members.lookup x = some m ∧ m.state = .alive

/-- The entry after an answered probe: only an indirect answer that carries a
higher incarnation than the entry touches it. -/
theorem lookup_probeNode_answered (s : NodeRegistry σ) {net : Network}
    {target m : SwimMember} {localCluster : String} (clock : Clock)
    (hm : s.swim.members.lookup target.nodeId = some m)
    (hans : AnsweredDirectly net target localCluster ∨ s.AnsweredIndirectly net target)
    (hstale : ¬ ((∃ e, net.directPing target = .error e) ∧ m.incarnation < target.incarnation)) :
    (probeNode reg s net target localCluster clock).2.swim.members.lookup target.nodeId =
      some m := by
  rcases hans with hdirect | hindirect
  · rw [probeNode_direct reg s clock hm hdirect, hm]
  · have hle : ¬ m.incarnation < target.incarnation := fun hlt => hstale ⟨hindirect.1, hlt⟩
    rw [probeNode_indirect reg s localCluster clock hindirect,
      SwimProtocol.processAlive_members_of_not_lt s.swim hm hle, hm]

theorem isAlive_probeNode_newer (s : NodeRegistry σ) {net : Network}
    {target m : SwimMember} {localCluster : String} (clock : Clock)
    (hm : s.swim.members.lookup target.nodeId = some m)
    (hans : s.AnsweredIndirectly net target) (hnewer : m.incarnation < target.incarnation) :
    (probeNode reg s net target localCluster clock).2.IsAlive target.nodeId := by
  have hknows := knows_processAlive s.swim target.nodeId target.incarnation target.address
    clock.now target.nodeId
  have hle : m.pair ≤ toLex (target.incarnation, NodeState.alive) :=
    Prod.Lex.toLex_le_toLex.mpr (Or.inl hnewer)
  rw [if_pos rfl, knows_of_lookup hm, ← WithBot.coe_sup, sup_eq_right.mpr hle] at hknows
  obtain ⟨m', hm', hpair⟩ := knows_eq_coe hknows
  unfold IsAlive
  rw [probeNode_indirect reg s localCluster clock hans]
  exact ⟨m', hm', (Prod.mk.inj (toLex.injective hpair)).2⟩

/-- A suspect whose probe is answered is alive afterwards exactly when only an
intermediary reached it and the probed record was newer than the entry; in every
other case the suspicion runs on, and the first check after its timeout declares
the member dead. -/
theorem probeNode_recovers_iff (s : NodeRegistry σ) (net : Network) (target m : SwimMember)
    (localCluster : String) (clock : Clock)
    (hm : s.swim.members.lookup target.nodeId = some m) (hsuspect : m.state = .suspect)
    (hans : AnsweredDirectly net target localCluster ∨ s.AnsweredIndirectly net target) :
    ((probeNode reg s net target localCluster clock).2.IsAlive target.nodeId ↔
        (∃ e, net.directPing target = .error e) ∧ m.incarnation < target.incarnation) ∧
      (¬ ((∃ e, net.directPing target = .error e) ∧ m.incarnation < target.incarnation) →
        let after := (probeNode reg s net target localCluster clock).2.swim
        ∀ later, after.config.suspicionTimeout after.clusterSize < later - m.stateChangedAt →
          SwimProtocol.IsDeadIn (after.checkSuspectTimeouts later).members target.nodeId) := by
  constructor
  · constructor
    · rintro ⟨m', hm', halive⟩
      by_contra hstale
      rw [lookup_probeNode_answered reg s clock hm hans hstale] at hm'
      cases hm'
      rw [hsuspect] at halive
      cases halive
    · rintro ⟨⟨e, herror⟩, hnewer⟩
      rcases hans with ⟨response, hok, -⟩ | hindirect
      · rw [herror] at hok
        cases hok
      · exact isAlive_probeNode_newer reg s clock hm hindirect hnewer
  · intro hstale after later hoverdue
    exact SwimProtocol.isDeadIn_checkSuspectTimeouts
      (probeNode reg s net target localCluster clock).2.keyed
      (lookup_probeNode_answered reg s clock hm hans hstale) hsuspect hoverdue

def suspectedPeer : SwimMember :=
  { SwimMember.new "n1" "10.0.0.2:9000" 0 with state := .suspect }

def registryWithSuspect : NodeRegistry (List ObjectRegistration) :=
  (NodeRegistry.new [] "local" "10.0.0.1:9000" "" (SwimConfig.default fun _ => 4000)
    ⟨30 * 10 ^ 9, false, 10⟩).onSwim (.upsertMember suspectedPeer) ⟨0, 0⟩

def answeringNetwork : Network where
  directPing := fun m => .ok ⟨m.nodeId, m.address, "", none⟩
  indirectPing := fun _ _ => .error "not asked"
  shuffle := id

theorem suspectedPeer_answers : AnsweredDirectly answeringNetwork suspectedPeer "" :=
  ⟨_, rfl, by decide, by decide⟩

theorem probeNode_recovers_iff_answering :
    ¬ (probeNode listRegistry registryWithSuspect answeringNetwork suspectedPeer ""
      ⟨1, 1⟩).2.IsAlive "n1" := by
  have h := probeNode_recovers_iff listRegistry registryWithSuspect answeringNetwork
    suspectedPeer suspectedPeer "" ⟨1, 1⟩ rfl rfl (Or.inl suspectedPeer_answers)
  intro halive
  exact absurd (h.1.mp halive).2 (Nat.lt_irrefl _)

theorem not_probeNode_recovers :
    ¬ ∀ (σ : Type) (reg : ObjectRegistry σ) (s : NodeRegistry σ) (net : Network)
      (m : SwimMember) (localCluster : String) (clock : Clock),
      s.swim.members.lookup m.nodeId = some m → m.state = .suspect →
      AnsweredDirectly net m localCluster ∨ s.AnsweredIndirectly net m →
      (probeNode reg s net m localCluster clock).2.IsAlive m.nodeId := by
  intro hclaim
  obtain ⟨m, hm, halive⟩ := hclaim _ listRegistry registryWithSuspect answeringNetwork
    suspectedPeer "" ⟨1, 1⟩ rfl rfl (Or.inl suspectedPeer_answers)
  have hentry : (probeNode listRegistry registryWithSuspect answeringNetwork suspectedPeer ""
      ⟨1, 1⟩).2.swim.members.lookup suspectedPeer.nodeId = some suspectedPeer := by rfl
  rw [hentry] at hm
  cases hm
  cases halive

end NodeRegistry

end PlexSpaces.Nodes
