import PlexSpaces.Swim.AntiEntropy
/-!
# The standing of a member

Two facts that the registry above the protocol relies on.  The table is keyed by
the node id of its entries, whatever operation runs (`WellKeyed.perform`).  And
an active member stays active unless an operation is news of its death or
removes it (`isActiveIn_perform`); `Spares` lists what each operation must not
say about the member.  A suspect whose timeout has passed is declared dead at the
next check (`isDeadIn_checkSuspectTimeouts`).
-/

namespace PlexSpaces.Swim

open PlexSpaces.Lib

def WellKeyed (t : Assoc String SwimMember) : Prop :=
  ∀ k m, t.lookup k = some m → m.nodeId = k

/-- The table has an active entry for `x`. -/
def IsActiveIn (t : Assoc String SwimMember) (x : String) : Prop :=
  ∃ m, t.lookup x = some m ∧ m.state.isActive = true

theorem isActiveIn_iff_knows {t : Assoc String SwimMember} {x : String} :
    IsActiveIn t x ↔ ∃ p : Pair, knows t x = p ∧ (ofLex p).2.isActive = true := by
  constructor
  · rintro ⟨m, hm, hact⟩
    exact ⟨m.pair, knows_of_lookup hm, hact⟩
  · rintro ⟨p, hp, hact⟩
    obtain ⟨m, hm, rfl⟩ := knows_eq_coe hp
    exact ⟨m, hm, hact⟩

theorem IsActiveIn.congr {t t' : Assoc String SwimMember} {x : String}
    (h : IsActiveIn t x) (hsame : knows t' x = knows t x) : IsActiveIn t' x := by
  rw [isActiveIn_iff_knows] at h ⊢
  rwa [hsame]

theorem IsActiveIn.sup {t t' : Assoc String SwimMember} {x : String}
    (h : IsActiveIn t x) {q : Pair} (hjoin : knows t' x = knows t x ⊔ (q : WithBot Pair))
    (hq : (ofLex q).2.isActive = true) : IsActiveIn t' x := by
  rw [isActiveIn_iff_knows] at h ⊢
  obtain ⟨p, hp, hact⟩ := h
  rw [hp, ← WithBot.coe_sup] at hjoin
  refine ⟨p ⊔ q, hjoin, ?_⟩
  rcases le_total p q with hle | hle
  · rwa [sup_eq_right.mpr hle]
  · rwa [sup_eq_left.mpr hle]

theorem IsActiveIn.insert {t : Assoc String SwimMember} {x k : String} {m : SwimMember}
    (h : IsActiveIn t x) (hm : k = x → m.state.isActive = true) :
    IsActiveIn (t.insert k m) x := by
  by_cases hk : x = k
  · exact ⟨m, by rw [hk, Assoc.lookup_insert_self], hm hk.symm⟩
  · obtain ⟨m', hm', hact⟩ := h
    exact ⟨m', by rw [Assoc.lookup_insert_of_ne _ _ hk, hm'], hact⟩

namespace WellKeyed

variable {t : Assoc String SwimMember}

theorem empty : WellKeyed ∅ := by
  intro k m h
  rw [AList.lookup_empty] at h
  cases h

theorem insert (h : WellKeyed t) {k : String} {m : SwimMember} (hm : m.nodeId = k) :
    WellKeyed (t.insert k m) := by
  intro k' m' hlookup
  rw [Assoc.lookup_insert] at hlookup
  split_ifs at hlookup with hk
  · cases hlookup
    rw [hk, hm]
  · exact h k' m' hlookup

theorem erase (h : WellKeyed t) (k : String) : WellKeyed (t.erase k) := by
  intro k' m' hlookup
  by_cases hk : k' = k
  · rw [hk, AList.lookup_erase] at hlookup
    cases hlookup
  · rw [AList.lookup_erase_ne hk] at hlookup
    exact h k' m' hlookup

theorem retain (h : WellKeyed t) (p : String → SwimMember → Bool) :
    WellKeyed (t.retain p) := by
  intro k m hlookup
  rw [Assoc.lookup_retain] at hlookup
  exact h k m (Option.eq_some_of_filter_eq_some hlookup)

end WellKeyed

namespace SwimProtocol

/-! ## Keys -/

theorem wellKeyed_upsertMember {s : SwimProtocol} (h : WellKeyed s.members) (m : SwimMember)
    (now : Nat) : WellKeyed (s.upsertMember m now).members := by
  unfold upsertMember
  cases s.members.lookup m.nodeId with
  | none => exact h.insert rfl
  | some e =>
      dsimp only
      split_ifs
      · exact h.insert rfl
      · exact h

theorem wellKeyed_suspectMember {s : SwimProtocol} (h : WellKeyed s.members) (k : String)
    (now : Nat) : WellKeyed (s.suspectMember k now).members := by
  unfold suspectMember
  cases hm : s.members.lookup k with
  | none => exact h
  | some m =>
      dsimp only
      split_ifs
      · exact h.insert (h k m hm)
      · exact h

theorem wellKeyed_declareDead {s : SwimProtocol} (h : WellKeyed s.members) (k : String)
    (now : Nat) : WellKeyed (s.declareDead k now).members := by
  unfold declareDead
  cases hm : s.members.lookup k with
  | none => exact h
  | some m =>
      dsimp only
      split_ifs
      · exact h.insert (h k m hm)
      · exact h

theorem wellKeyed_processAlive {s : SwimProtocol} (h : WellKeyed s.members) (k : String)
    (inc : Nat) (addr : String) (now : Nat) :
    WellKeyed (s.processAlive k inc addr now).members := by
  unfold processAlive
  cases hm : s.members.lookup k with
  | none => exact h.insert rfl
  | some m =>
      dsimp only
      split_ifs
      · apply h.insert
        rw [SwimMember.recordProbeSuccess_nodeId]
        exact (m.updateState_nodeId _ _ _).trans (h k m hm)
      · exact h

theorem wellKeyed_processSuspect {s : SwimProtocol} (h : WellKeyed s.members) (k : String)
    (inc now : Nat) : WellKeyed (s.processSuspect k inc now).members := by
  unfold processSuspect
  split_ifs
  · exact h
  · cases hm : s.members.lookup k with
    | none => exact h
    | some m => exact h.insert ((m.updateState_nodeId _ _ _).trans (h k m hm))

theorem wellKeyed_applyUpdate {s : SwimProtocol} (h : WellKeyed s.members)
    (u : MembershipUpdate) (now : Nat) : WellKeyed (s.applyUpdate u now).members := by
  unfold applyUpdate
  cases u.state with
  | alive =>
      cases u.address with
      | none => exact h
      | some addr => exact wellKeyed_processAlive h _ _ _ _
  | suspect => exact wellKeyed_processSuspect h _ _ _
  | dead => exact wellKeyed_declareDead h _ _
  | left =>
      dsimp only
      cases hm : s.members.lookup u.nodeId with
      | none => exact h
      | some m => exact h.insert ((m.updateState_nodeId _ _ _).trans (h _ m hm))

theorem wellKeyed_mergeMember {s : SwimProtocol} (h : WellKeyed s.members) (r : SwimMember)
    (now : Nat) : WellKeyed (s.mergeMember r now).members := by
  unfold mergeMember
  by_cases hlocal : r.nodeId = s.localNodeId
  · rw [if_pos hlocal]
    exact h
  · rw [if_neg hlocal]
    cases hm : s.members.lookup r.nodeId with
    | none =>
        dsimp only
        split_ifs
        · exact h.insert rfl
        · exact h
    | some m =>
        dsimp only
        split_ifs
        · exact h.insert rfl
        · exact h.insert (h _ m hm)
        · exact h
        · exact h

theorem wellKeyed_perform {s : SwimProtocol} (h : WellKeyed s.members) (a : TableOp × Nat) :
    WellKeyed (s.perform a).members := by
  obtain ⟨op, now⟩ := a
  cases op with
  | upsertMember m => exact wellKeyed_upsertMember h m now
  | processAlive k inc addr => exact wellKeyed_processAlive h k inc addr now
  | processSuspect k inc => exact wellKeyed_processSuspect h k inc now
  | suspectMember k => exact wellKeyed_suspectMember h k now
  | declareDead k => exact wellKeyed_declareDead h k now
  | checkSuspectTimeouts =>
      exact run_invariant (I := fun s : SwimProtocol => WellKeyed s.members)
        (fun k _ s hs => wellKeyed_declareDead hs k now) h
  | applyUpdates us =>
      exact run_invariant (I := fun s : SwimProtocol => WellKeyed s.members)
        (fun u _ s hs => wellKeyed_applyUpdate hs u now) h
  | mergeFullState rs =>
      exact run_invariant (I := fun s : SwimProtocol => WellKeyed s.members)
        (fun r _ s hs => wellKeyed_mergeMember hs r now) h
  | reapDeadNodes => exact h.retain _
  | removeMemberSilently k => exact h.erase k

/-! ## Active members -/

/-- The operation neither brings news of `x`'s death nor removes `x`. -/
def Spares (s : SwimProtocol) (x : String) : TableOp × Nat → Prop
  | (.upsertMember m, _) => m.nodeId = x → m.state.isActive = true
  | (.declareDead k, _) => k ≠ x
  | (.checkSuspectTimeouts, now) => x ∉ s.toDeclareDead now
  | (.applyUpdates us, _) => ∀ u ∈ us, u.nodeId = x → u.state.isActive = true
  | (.mergeFullState rs, _) => ∀ r ∈ rs, r.nodeId = x → r.state.isActive = true
  | (.removeMemberSilently k, _) => k ≠ x
  | _ => True

theorem isActiveIn_upsertMember {s : SwimProtocol} {x : String} (h : IsActiveIn s.members x)
    {m : SwimMember} (hm : m.nodeId = x → m.state.isActive = true) (now : Nat) :
    IsActiveIn (s.upsertMember m now).members x := by
  unfold upsertMember
  cases s.members.lookup m.nodeId with
  | none => exact h.insert hm
  | some e =>
      dsimp only
      split_ifs
      · exact h.insert hm
      · exact h

theorem isActiveIn_suspectMember {s : SwimProtocol} {x : String} (h : IsActiveIn s.members x)
    (k : String) (now : Nat) : IsActiveIn (s.suspectMember k now).members x := by
  unfold suspectMember
  cases s.members.lookup k with
  | none => exact h
  | some m =>
      dsimp only
      split_ifs
      · exact h.insert (fun _ => rfl)
      · exact h

theorem isActiveIn_declareDead {s : SwimProtocol} {x : String} (h : IsActiveIn s.members x)
    {k : String} (hk : k ≠ x) (now : Nat) : IsActiveIn (s.declareDead k now).members x := by
  unfold declareDead
  cases s.members.lookup k with
  | none => exact h
  | some m =>
      dsimp only
      split_ifs
      · exact h.insert (fun heq => absurd heq hk)
      · exact h

theorem isActiveIn_processAlive {s : SwimProtocol} {x : String} (h : IsActiveIn s.members x)
    (k : String) (inc : Nat) (addr : String) (now : Nat) :
    IsActiveIn (s.processAlive k inc addr now).members x := by
  have hknows := knows_processAlive s k inc addr now x
  by_cases hk : x = k
  · subst hk
    rw [if_pos rfl] at hknows
    exact h.sup hknows rfl
  · rw [if_neg hk] at hknows
    exact h.congr hknows

theorem isActiveIn_processSuspect {s : SwimProtocol} {x : String} (h : IsActiveIn s.members x)
    (k : String) (inc now : Nat) : IsActiveIn (s.processSuspect k inc now).members x := by
  have hknows := knows_processSuspect s k inc now x
  split_ifs at hknows with hk
  · obtain ⟨rfl, -, -⟩ := hk
    exact h.sup hknows rfl
  · exact h.congr hknows

theorem isActiveIn_applyUpdate {s : SwimProtocol} {x : String} (h : IsActiveIn s.members x)
    {u : MembershipUpdate} (hu : u.nodeId = x → u.state.isActive = true) (now : Nat) :
    IsActiveIn (s.applyUpdate u now).members x := by
  cases hst : u.state with
  | alive =>
      cases haddr : u.address with
      | none =>
          rw [applyUpdate_alive_none s now hst haddr]
          exact h
      | some addr =>
          rw [applyUpdate_alive s now hst haddr]
          exact isActiveIn_processAlive h _ _ _ _
  | suspect =>
      rw [applyUpdate_suspect s now hst]
      exact isActiveIn_processSuspect h _ _ _
  | dead =>
      rw [applyUpdate_dead s now hst]
      rw [hst] at hu
      exact isActiveIn_declareDead h (fun heq => Bool.false_ne_true (hu heq)) now
  | left =>
      have hknows := knows_applyUpdate_left s u now hst x
      rw [hst] at hu
      rw [if_neg (fun heq => Bool.false_ne_true (hu heq.1.symm))] at hknows
      exact h.congr hknows

theorem isActiveIn_mergeMember {s : SwimProtocol} {x : String} (h : IsActiveIn s.members x)
    {r : SwimMember} (hr : r.nodeId = x → r.state.isActive = true) (now : Nat) :
    IsActiveIn (s.mergeMember r now).members x := by
  have hknows := knows_mergeMember s r now x
  split_ifs at hknows with hx
  · obtain ⟨p, hp, -⟩ := isActiveIn_iff_knows.mp h
    rw [hp, mergeView_coe, WithBot.coe_sup, ← hp] at hknows
    exact h.sup hknows (hr hx.1.symm)
  · exact h.congr hknows

theorem isActiveIn_reapDeadNodes {s : SwimProtocol} {x : String} (h : IsActiveIn s.members x)
    (now : Nat) : IsActiveIn (s.reapDeadNodes now).members x := by
  obtain ⟨m, hm, hact⟩ := h
  refine ⟨m, ?_, hact⟩
  rw [lookup_reapDeadNodes, hm, Option.filter_some, if_pos]
  rw [SwimMember.shouldReap, hact]
  rfl

theorem isActiveIn_perform {s : SwimProtocol} {x : String} (h : IsActiveIn s.members x)
    {a : TableOp × Nat} (ha : s.Spares x a) : IsActiveIn (s.perform a).members x := by
  obtain ⟨op, now⟩ := a
  cases op with
  | upsertMember m => exact isActiveIn_upsertMember h ha now
  | processAlive k inc addr => exact isActiveIn_processAlive h k inc addr now
  | processSuspect k inc => exact isActiveIn_processSuspect h k inc now
  | suspectMember k => exact isActiveIn_suspectMember h k now
  | declareDead k => exact isActiveIn_declareDead h ha now
  | checkSuspectTimeouts =>
      refine run_invariant (I := fun s : SwimProtocol => IsActiveIn s.members x) ?_ h
      intro k hk s hs
      have hne : k ≠ x := fun heq => ha (heq ▸ hk)
      exact isActiveIn_declareDead hs hne now
  | applyUpdates us =>
      exact run_invariant (I := fun s : SwimProtocol => IsActiveIn s.members x)
        (fun u hu s hs => isActiveIn_applyUpdate hs (ha u hu) now) h
  | mergeFullState rs =>
      exact run_invariant (I := fun s : SwimProtocol => IsActiveIn s.members x)
        (fun r hr s hs => isActiveIn_mergeMember hs (ha r hr) now) h
  | reapDeadNodes => exact isActiveIn_reapDeadNodes h now
  | removeMemberSilently k =>
      obtain ⟨m, hm, hact⟩ := h
      refine ⟨m, ?_, hact⟩
      change (s.members.erase k).lookup x = some m
      rw [AList.lookup_erase_ne (Ne.symm ha), hm]

theorem mem_activeMembers {s : SwimProtocol} {m : SwimMember} :
    m ∈ s.activeMembers ↔ (∃ k, s.members.lookup k = some m) ∧ m.state.isActive = true := by
  rw [activeMembers, List.mem_filter, Assoc.mem_values]

/-- Away from the node itself, and among active members, nothing changes. -/
theorem lookup_declareDead_active {s : SwimProtocol} {x k : String} {now : Nat}
    {m : SwimMember} (hact : m.state.isActive = true) :
    (s.declareDead x now).members.lookup k = some m ↔
      s.members.lookup k = some m ∧ k ≠ x := by
  unfold declareDead
  cases hx : s.members.lookup x with
  | none =>
      dsimp only
      constructor
      · intro hm
        refine ⟨hm, ?_⟩
        rintro rfl
        rw [hx] at hm
        cases hm
      · exact And.left
  | some e =>
      dsimp only
      by_cases hdead : e.state ≠ .dead ∧ e.state ≠ .left
      · rw [if_pos hdead, queueUpdate_members]
        by_cases hk : k = x
        · subst hk
          rw [Assoc.lookup_insert_self]
          constructor
          · intro hm
            cases hm
            cases hact
          · exact fun h => absurd rfl h.2
        · rw [Assoc.lookup_insert_of_ne _ _ hk]
          exact ⟨fun hm => ⟨hm, hk⟩, And.left⟩
      · rw [if_neg hdead]
        constructor
        · intro hm
          refine ⟨hm, ?_⟩
          rintro rfl
          rw [hx] at hm
          cases hm
          exact hdead ((state_ne_dead_left_iff _).mpr hact)
        · exact And.left

/-! ## Overdue suspects -/

/-- The table has a dead entry for `x`. -/
def IsDeadIn (t : Assoc String SwimMember) (x : String) : Prop :=
  ∃ m, t.lookup x = some m ∧ m.state = .dead

theorem isDeadIn_declareDead_self {s : SwimProtocol} {x : String}
    (h : IsActiveIn s.members x) (now : Nat) : IsDeadIn (s.declareDead x now).members x := by
  obtain ⟨m, hm, hact⟩ := h
  unfold declareDead
  rw [hm]
  dsimp only
  rw [if_pos ((state_ne_dead_left_iff _).mpr hact)]
  exact ⟨_, Assoc.lookup_insert_self _ _ _, rfl⟩

theorem isDeadIn_declareDead {s : SwimProtocol} {x : String} (h : IsDeadIn s.members x)
    (k : String) (now : Nat) : IsDeadIn (s.declareDead k now).members x := by
  obtain ⟨m, hm, hdead⟩ := h
  unfold declareDead
  cases hk : s.members.lookup k with
  | none => exact ⟨m, hm, hdead⟩
  | some m' =>
      dsimp only
      split_ifs
      · by_cases hx : x = k
        · exact ⟨_, by rw [queueUpdate_members, hx, Assoc.lookup_insert_self], rfl⟩
        · exact ⟨m, by rw [queueUpdate_members, Assoc.lookup_insert_of_ne _ _ hx, hm], hdead⟩
      · exact ⟨m, hm, hdead⟩

theorem isDeadIn_run_declareDead {s : SwimProtocol} {x : String}
    (h : IsActiveIn s.members x) (now : Nat) {ks : List String} (hx : x ∈ ks) :
    IsDeadIn (run (fun s k => s.declareDead k now) s ks).members x := by
  induction ks generalizing s with
  | nil => cases hx
  | cons k ks ih =>
      rw [run_cons]
      by_cases hk : k = x
      · subst hk
        exact run_invariant (I := fun s : SwimProtocol => IsDeadIn s.members k)
          (fun k' _ s hs => isDeadIn_declareDead hs k' now) (isDeadIn_declareDead_self h now)
      · exact ih (isActiveIn_declareDead h hk now) (List.mem_of_ne_of_mem (Ne.symm hk) hx)

theorem isDeadIn_checkSuspectTimeouts {s : SwimProtocol} (hkeyed : WellKeyed s.members)
    {x : String} {m : SwimMember} (hm : s.members.lookup x = some m)
    (hsuspect : m.state = .suspect) {now : Nat}
    (hoverdue : s.config.suspicionTimeout s.clusterSize < now - m.stateChangedAt) :
    IsDeadIn (s.checkSuspectTimeouts now).members x := by
  apply isDeadIn_run_declareDead ⟨m, hm, by rw [hsuspect]; rfl⟩ now
  unfold toDeclareDead
  refine List.mem_map.mpr ⟨m, ?_, hkeyed x m hm⟩
  rw [List.mem_filter]
  exact ⟨Assoc.mem_values.mpr ⟨x, hm⟩, by simp [hsuspect, hoverdue]⟩

end SwimProtocol

end PlexSpaces.Swim
