import PlexSpaces.Nodes.Visibility
/-!
# Runs of the registry

The registry's life as a run of events: calls of its interface, probes with any
network behind them, and the table's own housekeeping and gossip.  An event
spares a node when it neither unregisters it nor declares it dead; along a run
of such events an active node stays active (`isActiveIn_step`), and with it
visible.
-/

namespace PlexSpaces.Nodes

open PlexSpaces.Lib PlexSpaces.Swim

inductive RegistryEvent
  | lookup (target : String) (fuel : Nat)
  | register (registration : NodeRegistration)
  | unregister (nodeId : String)
  | heartbeat (nodeId : String) (fuel : Nat)
  | sync (fuel : Nat)
  | probe (net : Network) (target : SwimMember)
  | table (op : SwimProtocol.TableOp)

namespace NodeRegistry

variable {σ : Type} (reg : ObjectRegistry σ)

def step (s : NodeRegistry σ) (e : RegistryEvent × Clock) : NodeRegistry σ :=
  match e with
  | (.lookup target fuel, clock) => (lookupNode reg s target fuel clock).2
  | (.register registration, clock) => registerNode reg s registration clock
  | (.unregister nodeId, clock) => unregisterNode reg s nodeId clock
  | (.heartbeat nodeId fuel, clock) => sendHeartbeat reg s nodeId fuel clock
  | (.sync fuel, clock) => syncWithDb reg s fuel clock
  | (.probe net target, clock) => (probeNode reg s net target s.localCluster clock).2
  | (.table op, clock) => s.onSwim op clock

/-- The event neither unregisters `x` nor declares it dead: it is not a call of
`unregister_node`, no concrete node claims the address of the placeholder `x`,
and no probe finds `x` to be another node or in another cluster. -/
def Spares (s : NodeRegistry σ) (x : String) : RegistryEvent × Clock → Prop
  | (.register r, _) =>
      isUnknownNodeId x = true → isUnknownNodeId r.nodeId = false →
        ∀ m ∈ s.swim.activeMembers, m.nodeId = x →
          canonicalNodeAddressKey m.address ≠ canonicalNodeAddressKey r.nodeAddress
  | (.unregister nodeId, _) => nodeId ≠ x
  | (.probe net target, _) =>
      target.nodeId = x → ∀ response, net.directPing target = .ok response →
        ¬ response.clusterMismatch s.localCluster ∧
          (isUnknownNodeId x = true → response.resolvedNodeId target = x)
  | (.table op, clock) => s.swim.Spares x (op, clock.now)
  | _ => True

/-! ## Each event -/

variable {s : NodeRegistry σ} {x : String}

theorem withDbBackoff_swim {α : Type} (op : σ → Except String α × σ) (fuel attempts : Nat)
    (s : NodeRegistry σ) : (withDbBackoff op fuel attempts s).2.swim = s.swim := by
  induction fuel generalizing attempts s with
  | zero => rfl
  | succ fuel ih =>
      unfold withDbBackoff
      cases op s.store with
      | mk result store =>
          cases result with
          | ok a => rfl
          | error e =>
              dsimp only
              split_ifs
              · rfl
              · exact ih _ _

theorem dbCall_swim {α : Type} (op : σ → Except String α × σ) (fuel : Nat)
    (s : NodeRegistry σ) : (dbCall op fuel s).2.swim = s.swim := by
  unfold dbCall
  split_ifs
  · exact withDbBackoff_swim op fuel 0 s
  · rfl

theorem isActiveIn_onSwim {s : NodeRegistry σ} (h : IsActiveIn s.swim.members x)
    (op : SwimProtocol.TableOp) (clock : Clock) (hop : s.swim.Spares x (op, clock.now)) :
    IsActiveIn (s.onSwim op clock).swim.members x :=
  SwimProtocol.isActiveIn_perform h hop

theorem isActiveIn_lookupStored (h : IsActiveIn s.swim.members x) (target : String)
    (fuel : Nat) (clock : Clock) :
    IsActiveIn (lookupStored reg s target fuel clock).2.swim.members x := by
  have hswim := dbCall_swim
    (lookupNodeInObjectRegistry reg (s.systemRegistryContext none) target) fuel s
  unfold lookupStored
  cases hcall : dbCall
      (lookupNodeInObjectRegistry reg (s.systemRegistryContext none) target) fuel s with
  | mk result s' =>
      rw [hcall] at hswim
      have h' : IsActiveIn s'.swim.members x := by
        rw [show s'.swim = s.swim from hswim]
        exact h
      cases result with
      | none => exact h'
      | some answer =>
          cases answer with
          | error e => exact h'
          | ok found =>
              cases found with
              | none => exact h'
              | some o =>
                  exact isActiveIn_onSwim (s := s'.updateCache _ _ clock) h' _ clock (fun _ => rfl)

theorem isActiveIn_lookupById (h : IsActiveIn s.swim.members x) (target : String)
    (fuel : Nat) (clock : Clock) :
    IsActiveIn (lookupById reg s target fuel clock).2.swim.members x := by
  have hswim := s.getFromCache_swim target clock
  unfold lookupById
  cases hcache : s.getFromCache target clock with
  | mk found s' =>
      rw [hcache] at hswim
      have h' : IsActiveIn s'.swim.members x := by
        rw [show s'.swim = s.swim from hswim]
        exact h
      cases found with
      | some n => exact h'
      | none =>
          dsimp only
          cases s'.swim.getMember target with
          | none => exact isActiveIn_lookupStored reg h' target fuel clock
          | some m =>
              dsimp only
              split_ifs
              · exact h'
              · exact h'

theorem isActiveIn_lookupNode (h : IsActiveIn s.swim.members x) (target : String)
    (fuel : Nat) (clock : Clock) :
    IsActiveIn (lookupNode reg s target fuel clock).2.swim.members x := by
  unfold lookupNode
  split_ifs
  · have hswim := s.lookupCachedOrSwimByAddress_swim target clock
    cases hfound : s.lookupCachedOrSwimByAddress target clock with
    | mk found s' =>
        rw [hfound] at hswim
        have h' : IsActiveIn s'.swim.members x := by
          rw [show s'.swim = s.swim from hswim]
          exact h
        cases found with
        | some n => exact h'
        | none => exact isActiveIn_lookupById reg h' target fuel clock
  · exact isActiveIn_lookupById reg h target fuel clock

theorem isActiveIn_enrol (h : IsActiveIn s.swim.members x) (r : NodeRegistration)
    (clock : Clock) : IsActiveIn (enrol reg s r clock).swim.members x :=
  isActiveIn_onSwim h (.upsertMember (memberFor r clock)) clock (fun _ => rfl)

theorem reconcileAliases_keeps {P : NodeRegistry σ → Prop} (r : NodeRegistration)
    (drop : NodeRegistry σ → String → NodeRegistry σ) (entries : List (String × String))
    (hdrop : ∀ e ∈ entries,
      canonicalNodeAddressKey e.2 = canonicalNodeAddressKey r.nodeAddress →
      isUnknownNodeId e.1 = true → isUnknownNodeId r.nodeId = false →
      ∀ s, P s → P (drop s e.1))
    {s : NodeRegistry σ} (h : P s) : P (reconcileAliases r drop entries s).2 := by
  induction entries generalizing s with
  | nil => exact h
  | cons e rest ih =>
      have hrest := fun s (hs : P s) =>
        ih (fun e' he' => hdrop e' (List.mem_cons_of_mem e he')) (s := s) hs
      rw [reconcileAliases]
      split_ifs with hskip hplaceholder
      · exact hrest s h
      · rw [Bool.and_eq_true, Bool.not_eq_true'] at hplaceholder
        rw [not_or, not_not] at hskip
        exact hrest _ (hdrop e List.mem_cons_self hskip.2 hplaceholder.1 hplaceholder.2 s h)
      · exact h

theorem isActiveIn_registerNode (h : IsActiveIn s.swim.members x) {r : NodeRegistration}
    {clock : Clock} (hspares : s.Spares x (.register r, clock)) :
    IsActiveIn (registerNode reg s r clock).swim.members x := by
  unfold registerNode
  split_ifs with hthin
  · exact isActiveIn_enrol reg h r clock
  · have hreconciled : IsActiveIn
        (s.reconcileLocalRegistrationAliases r clock).2.swim.members x := by
      have hfirst := reconcileAliases_keeps (P := fun s => IsActiveIn s.swim.members x) r
        (fun s nodeId =>
          (s.onSwim (.removeMemberSilently nodeId) clock).removeFromCache nodeId)
        (s.swim.activeMembers.map fun m => (m.nodeId, m.address))
        (by
          intro e he haddr hunknown hconcrete s' hs'
          obtain ⟨m, hm, rfl⟩ := List.mem_map.mp he
          -- A dropped placeholder is not `x`: `x` does not have this address.
          have hne : m.nodeId ≠ x := by
            intro heq
            exact hspares (heq ▸ hunknown) hconcrete m hm heq haddr
          exact SwimProtocol.isActiveIn_perform hs'
            (a := (.removeMemberSilently m.nodeId, clock.now)) hne) h
      unfold reconcileLocalRegistrationAliases
      cases hloop : reconcileAliases r
          (fun s nodeId => (s.onSwim (.removeMemberSilently nodeId) clock).removeFromCache nodeId)
          (s.swim.activeMembers.map fun m => (m.nodeId, m.address)) s with
      | mk kept s' =>
          rw [hloop] at hfirst
          cases kept with
          | false => exact hfirst
          | true =>
              exact reconcileAliases_keeps (P := fun s => IsActiveIn s.swim.members x) r
                _ _ (fun _ _ _ _ _ _ hs => hs) (s := s'.evictExpired clock) hfirst
    cases hresult : s.reconcileLocalRegistrationAliases r clock with
    | mk kept s' =>
        rw [hresult] at hreconciled
        cases kept with
        | false => exact hreconciled
        | true => exact isActiveIn_enrol reg hreconciled r clock

theorem isActiveIn_refreshMember (h : IsActiveIn s.swim.members x) (nodeId : String)
    (clock : Clock) : IsActiveIn (s.refreshMember nodeId clock).swim.members x := by
  unfold refreshMember
  cases hm : s.swim.getMember nodeId with
  | none => exact h
  | some m =>
      apply isActiveIn_onSwim h
      intro hid
      -- The table is keyed, so the refreshed member is the entry of `x` itself.
      have hkey : nodeId = x := by
        rw [← s.keyed nodeId m hm, ← SwimMember.recordProbeSuccess_nodeId m clock.now]
        exact hid
      obtain ⟨m', hm', hact⟩ := h
      rw [← hkey, show s.swim.members.lookup nodeId = some m from hm] at hm'
      cases hm'
      exact SwimMember.recordProbeSuccess_isActive m clock.now hact

theorem stampCached_swim (s : NodeRegistry σ) (nodeId : String) (clock : Clock) :
    (s.stampCached nodeId clock).swim = s.swim := by
  unfold stampCached
  cases s.cache.lookup nodeId with
  | none => rfl
  | some c => rfl

theorem isActiveIn_sendHeartbeat (h : IsActiveIn s.swim.members x) (nodeId : String)
    (fuel : Nat) (clock : Clock) :
    IsActiveIn (sendHeartbeat reg s nodeId fuel clock).swim.members x := by
  have hbeat : IsActiveIn
      ((s.refreshMember nodeId clock).stampCached nodeId clock).swim.members x := by
    rw [stampCached_swim]
    exact isActiveIn_refreshMember h nodeId clock
  unfold sendHeartbeat
  dsimp only
  split_ifs
  · exact hbeat
  · rw [dbCall_swim]
    exact hbeat

theorem isActiveIn_syncRegistration (h : IsActiveIn s.swim.members x)
    (o : ObjectRegistration) (clock : Clock) :
    IsActiveIn (s.syncRegistration o clock).swim.members x := by
  unfold syncRegistration
  dsimp only
  split
  · exact h
  · exact isActiveIn_onSwim (s := s.updateCache _ _ clock) h _ clock (fun _ => rfl)

theorem isActiveIn_syncWithDb (h : IsActiveIn s.swim.members x) (fuel : Nat)
    (clock : Clock) : IsActiveIn (syncWithDb reg s fuel clock).swim.members x := by
  have hswim := withDbBackoff_swim (reg.discover (s.systemRegistryContext none)) fuel 0 s
  unfold syncWithDb
  split_ifs
  · cases hcall : withDbBackoff (reg.discover (s.systemRegistryContext none)) fuel 0 s with
    | mk result s' =>
        rw [hcall] at hswim
        have h' : IsActiveIn s'.swim.members x := by
          rw [show s'.swim = s.swim from hswim]
          exact h
        match result with
        | none => exact h'
        | some (.error e) => exact h'
        | some (.ok registrations) =>
            exact List.foldlRecOn
              (motive := fun s : NodeRegistry σ => IsActiveIn s.swim.members x)
              registrations _ h' fun s hs o _ => isActiveIn_syncRegistration hs o clock
  · exact h

theorem isActiveIn_unregisterDiscoveredNode (h : IsActiveIn s.swim.members x)
    {nodeId : String} (hne : nodeId ≠ x) (clock : Clock) :
    IsActiveIn (unregisterDiscoveredNode reg s nodeId clock).swim.members x := by
  unfold unregisterDiscoveredNode
  dsimp only
  split_ifs
  · exact isActiveIn_onSwim h (.removeMemberSilently nodeId) clock hne
  · exact isActiveIn_onSwim h (.declareDead nodeId) clock hne

theorem isActiveIn_reconcilePingResponse (h : IsActiveIn s.swim.members x)
    {target : SwimMember} {response : PingResponse} {localCluster : String} (clock : Clock)
    (hspares : target.nodeId = x → ¬ response.clusterMismatch localCluster ∧
      (isUnknownNodeId x = true → response.resolvedNodeId target = x)) :
    IsActiveIn (reconcilePingResponse reg s target response localCluster clock).2.swim.members
      x := by
  unfold reconcilePingResponse
  by_cases hmismatch : response.clusterMismatch localCluster
  · rw [if_pos hmismatch]
    exact isActiveIn_unregisterDiscoveredNode reg h
      (fun hx => (hspares hx).1 hmismatch) clock
  · rw [if_neg hmismatch]
    by_cases hother : response.resolvedNodeId target ≠ target.nodeId ∧
        isUnknownNodeId target.nodeId = true
    · rw [if_pos hother]
      have hne : target.nodeId ≠ x := by
        rintro rfl
        exact hother.1 ((hspares rfl).2 hother.2)
      exact isActiveIn_onSwim (isActiveIn_unregisterDiscoveredNode reg h hne clock)
        (.upsertMember (memberFor (response.registration target localCluster clock) clock)) clock
        (fun _ => rfl)
    · rw [if_neg hother]
      exact isActiveIn_onSwim h
        (.upsertMember (memberFor (response.registration target localCluster clock) clock)) clock
        (fun _ => rfl)

theorem isActiveIn_probeNode (h : IsActiveIn s.swim.members x) {net : Network}
    {target : SwimMember} {clock : Clock} (hspares : s.Spares x (.probe net target, clock)) :
    IsActiveIn (probeNode reg s net target s.localCluster clock).2.swim.members x := by
  unfold probeNode
  cases hping : net.directPing target with
  | ok response =>
      have hreconciled := isActiveIn_reconcilePingResponse reg h clock
        (fun hx => hspares hx response hping)
      dsimp only
      split
      · rename_i heq
        rw [heq] at hreconciled
        exact hreconciled
      · rename_i heq
        rw [heq] at hreconciled
        exact hreconciled
  | error e =>
      dsimp only
      split_ifs
      · exact isActiveIn_onSwim h (.suspectMember target.nodeId) clock trivial
      · exact isActiveIn_onSwim h
          (.processAlive target.nodeId target.incarnation target.address) clock trivial
      · exact isActiveIn_onSwim h (.suspectMember target.nodeId) clock trivial

/-- The step lemma: an event that spares an active node leaves it active. -/
theorem isActiveIn_step (h : IsActiveIn s.swim.members x) {e : RegistryEvent × Clock}
    (hspares : s.Spares x e) : IsActiveIn (step reg s e).swim.members x := by
  obtain ⟨event, clock⟩ := e
  cases event with
  | lookup target fuel => exact isActiveIn_lookupNode reg h target fuel clock
  | register r => exact isActiveIn_registerNode reg h hspares
  | unregister nodeId =>
      exact isActiveIn_onSwim h (.declareDead nodeId) clock hspares
  | heartbeat nodeId fuel => exact isActiveIn_sendHeartbeat reg h nodeId fuel clock
  | sync fuel => exact isActiveIn_syncWithDb reg h fuel clock
  | probe net target => exact isActiveIn_probeNode reg h hspares
  | table op => exact isActiveIn_onSwim h op clock hspares

/-! ## Re-registration -/

/-- The node is found after every run of events that spare it, at every later time. -/
def StaysVisible (s : NodeRegistry σ) (x : String) (now : Nat) : Prop :=
  ∀ events clock, Along (step reg) (fun s e => s.Spares x e) s events →
    (now :: events.map (·.2.now) ++ [clock.now]).Pairwise (· ≤ ·) →
    ∀ fuel, ∃ n, (lookupNode reg (run (step reg) s events) x fuel clock).1 = some (some n)

theorem exists_expiry (cached : List CachedNodeRegistration) (start : Nat) :
    ∃ t, start ≤ t ∧ ∀ c ∈ cached, c.isExpired t = true := by
  induction cached with
  | nil =>
      refine ⟨start, le_rfl, ?_⟩
      intro c hc
      cases hc
  | cons c cached ih =>
      obtain ⟨t, hstart, ht⟩ := ih
      refine ⟨max t (c.expiresAt + 1), hstart.trans (le_max_left _ _), ?_⟩
      intro c' hc'
      rw [CachedNodeRegistration.isExpired, decide_eq_true_eq]
      rcases List.mem_cons.mp hc' with rfl | hmem
      · omega
      · have hexpired := ht c' hmem
        rw [CachedNodeRegistration.isExpired, decide_eq_true_eq] at hexpired
        omega

def unregisterAll (nodeIds : List String) (clock : Clock) : List (RegistryEvent × Clock) :=
  nodeIds.map fun nodeId => (.unregister nodeId, clock)

theorem spares_unregisterAll (s : NodeRegistry σ) {nodeIds : List String} (hx : x ∉ nodeIds)
    (clock : Clock) :
    Along (step reg) (fun s e => s.Spares x e) s (unregisterAll nodeIds clock) := by
  induction nodeIds generalizing s with
  | nil => trivial
  | cons nodeId nodeIds ih =>
      rw [List.mem_cons, not_or] at hx
      exact ⟨Ne.symm hx.1, ih _ hx.2⟩

/-- The nodes that are unregistered stay in the table, and none of them is active in it. -/
theorem swim_unregisterAll (s : NodeRegistry σ) (nodeIds : List String) (clock : Clock) :
    (∀ k, k ∈ (run (step reg) s (unregisterAll nodeIds clock)).swim.members ↔
        k ∈ s.swim.members) ∧
      ∀ k m, m.state.isActive = true →
        ((run (step reg) s (unregisterAll nodeIds clock)).swim.members.lookup k = some m ↔
          s.swim.members.lookup k = some m ∧ k ∉ nodeIds) := by
  induction nodeIds generalizing s with
  | nil => exact ⟨fun _ => Iff.rfl, fun _ _ _ => (and_iff_left List.not_mem_nil).symm⟩
  | cons nodeId nodeIds ih =>
      obtain ⟨hmem, hactive⟩ := ih (step reg s (.unregister nodeId, clock))
      have hswim : (step reg s (.unregister nodeId, clock)).swim =
          s.swim.declareDead nodeId clock.now := rfl
      rw [hswim] at hmem hactive
      constructor
      · intro k
        exact (hmem k).trans (SwimProtocol.mem_declareDead s.swim nodeId clock.now k)
      · intro k m hact
        rw [List.mem_cons, not_or, ← and_assoc, ← SwimProtocol.lookup_declareDead_active hact]
        exact hactive k m hact

/-- A node that SWIM has as dead is not found any more once everybody else is unregistered and
the cache has expired. -/
theorem not_staysVisible_of_dead {s : NodeRegistry σ} {m : SwimMember}
    (hm : s.swim.members.lookup x = some m) (hdead : m.state.isActive = false) (clock : Clock) :
    ¬ StaysVisible reg s x clock.now := by
  intro hvisible
  let others := s.swim.members.keys.filter (· ≠ x)
  let s' := run (step reg) s (unregisterAll others clock)
  have hothers : x ∉ others := fun hx => of_decide_eq_true (List.mem_filter.mp hx).2 rfl
  obtain ⟨hmem, hactive⟩ := swim_unregisterAll reg s others clock
  have hnone : ∀ k m', s'.swim.members.lookup k = some m' → m'.state.isActive = false := by
    intro k m' hk
    by_contra hact
    rw [Bool.not_eq_false] at hact
    obtain ⟨hk', hnot⟩ := (hactive k m' hact).mp hk
    have hkey : k ∈ s.swim.members.keys :=
      AList.mem_keys.mp (AList.lookup_isSome.mp (Option.isSome_iff_exists.mpr ⟨m', hk'⟩))
    -- Whoever is active besides `x` was unregistered, and `x` is not active.
    by_cases hkx : k = x
    · rw [hkx, hm] at hk'
      cases hk'
      rw [hdead] at hact
      cases hact
    · exact hnot (List.mem_filter.mpr ⟨hkey, decide_eq_true hkx⟩)
  have hx : x ∈ s'.swim.members :=
    (hmem x).mpr (AList.lookup_isSome.mp (Option.isSome_iff_exists.mpr ⟨m, hm⟩))
  obtain ⟨m', hm'⟩ := Option.isSome_iff_exists.mp (AList.lookup_isSome.mpr hx)
  obtain ⟨t, hstart, hexpired⟩ := exists_expiry s'.cache.values clock.now
  have hvetoed := lookupNode_of_vetoed reg s' hm' (hnone x m' hm')
    (fun ⟨_, k, other, hk, hact, _⟩ => by rw [hnone k other hk] at hact; cases hact)
    0 ⟨t, 0⟩ hexpired
  have htimes : (clock.now :: (unregisterAll others clock).map (·.2.now) ++ [t]).Pairwise
      (· ≤ ·) := by
    have hconst : (unregisterAll others clock).map (·.2.now) =
        List.replicate others.length clock.now := by
      rw [unregisterAll, List.map_map]
      rw [← List.map_const']
      rfl
    rw [hconst, ← List.replicate_succ, List.pairwise_append]
    refine ⟨List.pairwise_replicate.mpr (.inr le_rfl), List.pairwise_singleton _ _, ?_⟩
    intro a ha b hb
    rw [List.eq_of_mem_replicate ha, List.mem_singleton.mp hb]
    exact hstart
  obtain ⟨n, hn⟩ := hvisible _ ⟨t, 0⟩ (spares_unregisterAll reg s hothers clock) htimes 0
  rw [hvetoed] at hn
  cases hn

/-- A node that is unregistered and registered again is found after every run of events that
spare it exactly if SWIM held no entry for it. -/
theorem reregistration_visible_iff (s : NodeRegistry σ) (r : NodeRegistration)
    (c₁ c₂ : Clock) (hrole : r.nodeRole ≠ nodeRoleThin) (hfree : s.AddressFree r c₂.now) :
    StaysVisible reg (reregister reg s r c₁ c₂) r.nodeId c₂.now ↔ r.nodeId ∉ s.swim.members := by
  constructor
  · intro hvisible hknown
    obtain ⟨hswim, m, hm, hdead⟩ := reregister_swim_of_known reg c₁ hrole hfree hknown
    rw [← hswim] at hm
    exact not_staysVisible_of_dead reg hm hdead c₂ hvisible
  · intro hnew events clock hspares _ fuel
    apply lookupNode_of_active reg
    exact hspares.invariant (I := fun s => IsActiveIn s.swim.members r.nodeId)
      (fun _ _ h hstep => isActiveIn_step reg h hstep)
      (isActiveIn_reregister reg hrole hfree hnew)

def emptyRegistry : NodeRegistry (List ObjectRegistration) :=
  NodeRegistry.new [] "local" "10.0.0.1:9000" "" (SwimConfig.default fun _ => 4000)
    ⟨30 * 10 ^ 9, false, 10⟩

def workerRegistration : NodeRegistration where
  nodeRole := 1
  nodeId := "worker"
  nodeAddress := "10.0.0.2:9000"
  capabilities := ∅
  status := nodeStatusReady
  lastHeartbeat := none
  actorCount := 0
  messageCount := 0
  errorCount := 0
  registeredAt := none

theorem emptyRegistry_addressFree (r : NodeRegistration) (now : Nat) :
    emptyRegistry.AddressFree r now := by
  constructor
  · intro m hm
    cases hm
  · intro c hc
    cases hc

def otherComesAndGoes : List (RegistryEvent × Clock) :=
  [(.register { workerRegistration with nodeId := "other", nodeAddress := "10.0.0.3:9000" },
    ⟨3, 3⟩), (.unregister "other", ⟨4, 4⟩)]

/-- A node that was never known is found an hour after its registration. -/
theorem reregistration_visible_iff_new :
    ∃ n, (lookupNode listRegistry (run (step listRegistry) (reregister listRegistry emptyRegistry
      workerRegistration ⟨1, 1⟩ ⟨2, 2⟩) otherComesAndGoes) "worker" 0 ⟨3600 * 10 ^ 9, 0⟩).1 =
      some (some n) := by
  have hvisible := (reregistration_visible_iff listRegistry emptyRegistry workerRegistration
    ⟨1, 1⟩ ⟨2, 2⟩ (by decide) (emptyRegistry_addressFree _ _)).mpr (by decide)
  refine hvisible otherComesAndGoes ⟨3600 * 10 ^ 9, 0⟩ ⟨fun hunknown => ?_, ?_, trivial⟩
    (by decide) 0
  · exact absurd hunknown (by decide)
  · exact (by decide : "other" ≠ "worker")

/-- A node that was registered before is gone once the cache entry expires. -/
theorem not_reregistration_visible :
    ¬ ∀ (σ : Type) (reg : ObjectRegistry σ) (s : NodeRegistry σ) (r : NodeRegistration)
      (c₁ c₂ : Clock), r.nodeRole ≠ nodeRoleThin → s.AddressFree r c₂.now →
      StaysVisible reg (reregister reg s r c₁ c₂) r.nodeId c₂.now := by
  intro hclaim
  have hfree : (registerNode listRegistry emptyRegistry workerRegistration
      ⟨0, 0⟩).AddressFree workerRegistration 2 := by
    constructor
    · intro m hm hne
      rw [show (registerNode listRegistry emptyRegistry workerRegistration
        ⟨0, 0⟩).swim.activeMembers = [memberFor workerRegistration ⟨0, 0⟩] from rfl,
        List.mem_singleton] at hm
      exact absurd (by rw [hm]; rfl) hne
    · intro c hc _ hne
      rw [show (registerNode listRegistry emptyRegistry workerRegistration
        ⟨0, 0⟩).cache.values = [⟨workerRegistration, 30 * 10 ^ 9⟩] from rfl,
        List.mem_singleton] at hc
      exact absurd (by rw [hc]) hne
  obtain ⟨n, hn⟩ := hclaim _ listRegistry
    (registerNode listRegistry emptyRegistry workerRegistration ⟨0, 0⟩) workerRegistration
    ⟨1, 1⟩ ⟨2, 2⟩ (by decide) hfree [] ⟨3600 * 10 ^ 9, 0⟩ trivial (by decide) 0
  have hnone : (lookupNode listRegistry (reregister listRegistry
      (registerNode listRegistry emptyRegistry workerRegistration ⟨0, 0⟩) workerRegistration
      ⟨1, 1⟩ ⟨2, 2⟩) workerRegistration.nodeId 0 ⟨3600 * 10 ^ 9, 0⟩).1 = some none := by rfl
  rw [run_nil, hnone] at hn
  cases hn

end NodeRegistry

end PlexSpaces.Nodes
