import Mathlib.Order.WithBot
import Mathlib.Order.Interval.Set.Defs
import PlexSpaces.Swim.Protocol
/-!
# What a member table knows

The abstract view of a member table: for every node id the pair of its entry,
and `⊥` for a node that is not in the table.  Views are ordered pointwise, and
the operations of the protocol are read as operations on that order:

* alive, suspect and left news is a join at one id (`knows_processAlive`,
  `knows_processSuspect`, `knows_applyUpdate_left`);
* an anti-entropy entry is a join on a known id and inserts an unknown one only
  when it is active (`knows_mergeMember`);
* a local timeout or a death report moves one entry up at its own incarnation
  (`knows_declareDead`, `knows_suspectMember`).

All of them are inflationary; `membership_monotone` carries that over runs.
-/

namespace PlexSpaces.Swim

open PlexSpaces.Lib

def knows (t : Assoc String SwimMember) (x : String) : WithBot Pair :=
  match t.lookup x with
  | some m => (m.pair : WithBot Pair)
  | none => ⊥

theorem knows_of_lookup {t : Assoc String SwimMember} {x : String} {m : SwimMember}
    (h : t.lookup x = some m) : knows t x = m.pair := by
  rw [knows, h]

theorem knows_of_lookup_none {t : Assoc String SwimMember} {x : String}
    (h : t.lookup x = none) : knows t x = ⊥ := by
  rw [knows, h]

theorem knows_eq_coe {t : Assoc String SwimMember} {x : String} {p : Pair}
    (h : knows t x = p) : ∃ m, t.lookup x = some m ∧ m.pair = p := by
  cases hm : t.lookup x with
  | none =>
      rw [knows_of_lookup_none hm] at h
      exact absurd h.symm (WithBot.coe_ne_bot)
  | some m =>
      rw [knows_of_lookup hm, WithBot.coe_inj] at h
      exact ⟨m, rfl, h⟩

theorem mem_iff_knows_ne_bot {t : Assoc String SwimMember} {x : String} :
    x ∈ t ↔ knows t x ≠ ⊥ := by
  cases hm : t.lookup x with
  | none =>
      rw [knows_of_lookup_none hm]
      exact iff_of_false (AList.lookup_eq_none.mp hm) (fun h => h rfl)
  | some m =>
      rw [knows_of_lookup hm]
      exact iff_of_true (AList.lookup_isSome.mp (by rw [hm]; rfl)) WithBot.coe_ne_bot

theorem knows_insert (t : Assoc String SwimMember) (k : String) (m : SwimMember)
    (x : String) :
    knows (t.insert k m) x = if x = k then (m.pair : WithBot Pair) else knows t x := by
  rw [knows, Assoc.lookup_insert]
  split_ifs with h
  · rfl
  · rfl

theorem knows_insert_self (t : Assoc String SwimMember) (k : String) (m : SwimMember) :
    knows (t.insert k m) k = m.pair := by
  rw [knows_insert, if_pos rfl]

/-- An insertion that does not lower its own entry lowers nothing. -/
theorem knows_le_insert {t : Assoc String SwimMember} {k : String} {m : SwimMember}
    (h : knows t k ≤ m.pair) (x : String) : knows t x ≤ knows (t.insert k m) x := by
  rw [knows_insert]
  split_ifs with hx
  · rw [hx]
    exact h
  · exact le_rfl

namespace SwimProtocol

@[simp] theorem queueUpdate_members (s : SwimProtocol) (u : MembershipUpdate) :
    (s.queueUpdate u).members = s.members := rfl

@[simp] theorem countReceived_members (s : SwimProtocol) :
    s.countReceived.members = s.members := rfl

@[simp] theorem refuteSuspicion_members (s : SwimProtocol) (now : Nat) :
    (s.refuteSuspicion now).members = s.members := rfl

theorem state_ne_dead_left_iff (st : NodeState) :
    (st ≠ .dead ∧ st ≠ .left) ↔ st.isActive = true := by
  cases st <;> decide

/-! ## Dispatch of a received update -/

theorem applyUpdate_alive (s : SwimProtocol) {u : MembershipUpdate} (now : Nat)
    (hu : u.state = .alive) {addr : String} (haddr : u.address = some addr) :
    s.applyUpdate u now = s.processAlive u.nodeId u.incarnation addr now := by
  rw [applyUpdate, hu, haddr]

theorem applyUpdate_alive_none (s : SwimProtocol) {u : MembershipUpdate} (now : Nat)
    (hu : u.state = .alive) (haddr : u.address = none) : s.applyUpdate u now = s := by
  rw [applyUpdate, hu, haddr]

theorem applyUpdate_suspect (s : SwimProtocol) {u : MembershipUpdate} (now : Nat)
    (hu : u.state = .suspect) :
    s.applyUpdate u now = s.processSuspect u.nodeId u.incarnation now := by
  rw [applyUpdate, hu]

theorem applyUpdate_dead (s : SwimProtocol) {u : MembershipUpdate} (now : Nat)
    (hu : u.state = .dead) : s.applyUpdate u now = s.declareDead u.nodeId now := by
  rw [applyUpdate, hu]

/-! ## One operation -/

theorem knows_processAlive (s : SwimProtocol) (k : String) (inc : Nat) (addr : String)
    (now : Nat) (x : String) :
    knows (s.processAlive k inc addr now).members x =
      if x = k then knows s.members k ⊔ (toLex (inc, NodeState.alive) : Pair)
      else knows s.members x := by
  unfold processAlive
  cases hm : s.members.lookup k with
  | none =>
      dsimp only
      rw [countReceived_members, knows_insert, knows_of_lookup_none hm, bot_sup_eq]
      rfl
  | some m =>
      dsimp only
      have hpair := m.updateState_pair .alive inc now
      have htaken := m.updateState_alive_snd inc now
      rw [knows_of_lookup hm, ← WithBot.coe_sup]
      change _ = if x = k then ((max m.pair (toLex (inc, NodeState.alive)) : Pair) : WithBot Pair)
        else knows s.members x
      by_cases hinc : m.incarnation < inc
      · rw [htaken, decide_eq_true hinc, if_pos rfl, countReceived_members, knows_insert]
        have hstate : (m.updateState .alive inc now).1.state = .alive := by
          unfold SwimMember.updateState
          rw [if_pos hinc]
          split_ifs with hst
          · rfl
          · rw [not_not] at hst
            exact hst
        have hprobe := SwimMember.recordProbeSuccess_pair_of_alive
          { (m.updateState .alive inc now).1 with address := addr } now hstate
        rw [hprobe, ← hpair]
        rfl
      · rw [htaken, decide_eq_false hinc, if_neg Bool.false_ne_true, countReceived_members]
        split_ifs with hx
        · rw [hx, knows_of_lookup hm, max_eq_left]
          rw [SwimMember.pair, Prod.Lex.toLex_le_toLex]
          rcases Nat.lt_or_ge inc m.incarnation with hlt | hge
          · exact Or.inl hlt
          · exact Or.inr ⟨by omega, NodeState.alive_le _⟩
        · rfl

/-- An alive message that is not newer than the entry changes no entry. -/
theorem processAlive_members_of_not_lt (s : SwimProtocol) {k : String} {m : SwimMember}
    (hm : s.members.lookup k = some m) {inc : Nat} (hinc : ¬ m.incarnation < inc)
    (addr : String) (now : Nat) : (s.processAlive k inc addr now).members = s.members := by
  unfold processAlive
  rw [hm]
  dsimp only
  rw [m.updateState_alive_snd, decide_eq_false hinc, if_neg Bool.false_ne_true]
  rfl

theorem knows_processSuspect (s : SwimProtocol) (k : String) (inc now : Nat) (x : String) :
    knows (s.processSuspect k inc now).members x =
      if x = k ∧ k ≠ s.localNodeId ∧ k ∈ s.members then
        knows s.members k ⊔ (toLex (inc, NodeState.suspect) : Pair)
      else knows s.members x := by
  unfold processSuspect
  by_cases hlocal : k = s.localNodeId
  · rw [if_pos hlocal, refuteSuspicion_members, if_neg (fun h => h.2.1 hlocal)]
  · rw [if_neg hlocal]
    cases hm : s.members.lookup k with
    | none =>
        have hmem : k ∉ s.members := AList.lookup_eq_none.mp hm
        rw [if_neg (fun h => hmem h.2.2)]
        rfl
    | some m =>
        have hmem : k ∈ s.members := AList.lookup_isSome.mp (by rw [hm]; rfl)
        dsimp only
        rw [countReceived_members, knows_insert, SwimMember.updateState_pair,
          knows_of_lookup hm, ← WithBot.coe_sup]
        by_cases hx : x = k
        · rw [if_pos hx, if_pos ⟨hx, hlocal, hmem⟩]
        · rw [if_neg hx, if_neg (fun h => hx h.1)]

theorem knows_applyUpdate_left (s : SwimProtocol) (u : MembershipUpdate) (now : Nat)
    (hu : u.state = .left) (x : String) :
    knows (s.applyUpdate u now).members x =
      if x = u.nodeId ∧ u.nodeId ∈ s.members then knows s.members u.nodeId ⊔ u.pair
      else knows s.members x := by
  unfold applyUpdate
  rw [hu]
  dsimp only
  cases hm : s.members.lookup u.nodeId with
  | none =>
      have hmem : u.nodeId ∉ s.members := AList.lookup_eq_none.mp hm
      rw [if_neg (fun h => hmem h.2)]
  | some m =>
      have hmem : u.nodeId ∈ s.members := AList.lookup_isSome.mp (by rw [hm]; rfl)
      dsimp only
      rw [knows_insert, SwimMember.updateState_pair, knows_of_lookup hm, ← WithBot.coe_sup,
        MembershipUpdate.pair, hu]
      by_cases hx : x = u.nodeId
      · rw [if_pos hx, if_pos ⟨hx, hmem⟩]
      · rw [if_neg hx, if_neg (fun h => hx h.1)]

theorem knows_declareDead (s : SwimProtocol) (k : String) (now : Nat) (x : String) :
    knows (s.declareDead k now).members x =
      match s.members.lookup k with
      | some m =>
          if x = k ∧ m.state.isActive then ((toLex (m.incarnation, .dead) : Pair) : WithBot Pair)
          else knows s.members x
      | none => knows s.members x := by
  unfold declareDead
  cases hm : s.members.lookup k with
  | none => rfl
  | some m =>
      dsimp only
      by_cases hact : m.state.isActive = true
      · rw [if_pos ((state_ne_dead_left_iff _).mpr hact), queueUpdate_members, knows_insert]
        by_cases hx : x = k
        · rw [if_pos hx, if_pos ⟨hx, hact⟩]
          rfl
        · rw [if_neg hx, if_neg (fun h => hx h.1)]
      · rw [if_neg (fun h => hact ((state_ne_dead_left_iff _).mp h)), if_neg (fun h => hact h.2)]

theorem mem_declareDead (s : SwimProtocol) (k : String) (now : Nat) (x : String) :
    x ∈ (s.declareDead k now).members ↔ x ∈ s.members := by
  rw [mem_iff_knows_ne_bot, mem_iff_knows_ne_bot, knows_declareDead]
  cases hm : s.members.lookup k with
  | none => rfl
  | some m =>
      dsimp only
      split_ifs with hx
      · rw [hx.1, knows_of_lookup hm]
        exact iff_of_true WithBot.coe_ne_bot WithBot.coe_ne_bot
      · rfl

/-- What an anti-entropy entry `p` makes of a view at its own id. -/
def mergeView (v : WithBot Pair) (p : Pair) : WithBot Pair :=
  if v = ⊥ then (if (ofLex p).2.isActive then (p : WithBot Pair) else ⊥) else v ⊔ p

theorem knows_mergeMember_self (s : SwimProtocol) (r : SwimMember) (now : Nat)
    (hlocal : r.nodeId ≠ s.localNodeId) :
    knows (s.mergeMember r now).members r.nodeId =
      mergeView (knows s.members r.nodeId) r.pair := by
  unfold mergeMember
  rw [if_neg hlocal]
  cases hm : s.members.lookup r.nodeId with
  | none =>
      rw [knows_of_lookup_none hm, mergeView, if_pos rfl]
      change _ = if r.state.isActive = true then (r.pair : WithBot Pair) else ⊥
      dsimp only
      split_ifs with hact
      · rw [knows_insert_self]
      · rw [knows_of_lookup_none hm]
  | some m =>
      rw [knows_of_lookup hm, mergeView, if_neg WithBot.coe_ne_bot, ← WithBot.coe_sup]
      dsimp only
      split_ifs with hinc heq hsev
      · rw [knows_insert_self, sup_eq_right.mpr]
        exact SwimMember.pair_le_pair.mpr (Or.inl hinc)
      · rw [knows_insert_self, sup_eq_right.mpr]
        · rw [SwimMember.pair, SwimMember.pair, heq]
        · exact SwimMember.pair_le_pair.mpr
            (Or.inr ⟨heq.symm, NodeState.le_iff_priority.mpr hsev.le⟩)
      · rw [knows_of_lookup hm, sup_eq_left.mpr]
        exact SwimMember.pair_le_pair.mpr
          (Or.inr ⟨heq, NodeState.le_iff_priority.mpr (Nat.not_lt.mp hsev)⟩)
      · rw [knows_of_lookup hm, sup_eq_left.mpr]
        exact SwimMember.pair_le_pair.mpr (Or.inl (by omega))

theorem knows_mergeMember_of_ne (s : SwimProtocol) (r : SwimMember) (now : Nat)
    {x : String} (hx : x ≠ r.nodeId) :
    knows (s.mergeMember r now).members x = knows s.members x := by
  unfold mergeMember
  by_cases hlocal : r.nodeId = s.localNodeId
  · rw [if_pos hlocal]
  · rw [if_neg hlocal]
    cases hm : s.members.lookup r.nodeId with
    | none =>
        dsimp only
        split_ifs
        · rw [knows_insert, if_neg hx]
        · rfl
    | some m =>
        dsimp only
        split_ifs
        · rw [knows_insert, if_neg hx]
        · rw [knows_insert, if_neg hx]
        · rfl
        · rfl

theorem knows_mergeMember (s : SwimProtocol) (r : SwimMember) (now : Nat) (x : String) :
    knows (s.mergeMember r now).members x =
      if x = r.nodeId ∧ x ≠ s.localNodeId then mergeView (knows s.members x) r.pair
      else knows s.members x := by
  by_cases hx : x = r.nodeId
  · by_cases hlocal : x = s.localNodeId
    · have hskip : s.mergeMember r now = s := by
        rw [mergeMember, if_pos (hx.symm.trans hlocal)]
      rw [hskip, if_neg (fun h => h.2 hlocal)]
    · rw [if_pos ⟨hx, hlocal⟩]
      subst hx
      exact knows_mergeMember_self s r now hlocal
  · rw [if_neg (fun h => hx h.1)]
    exact knows_mergeMember_of_ne s r now hx

theorem exists_mergeMember_eq (s : SwimProtocol) (r : SwimMember) (now : Nat) :
    ∃ t, s.mergeMember r now = { s with members := t } := by
  unfold mergeMember
  by_cases hlocal : r.nodeId = s.localNodeId
  · rw [if_pos hlocal]
    exact ⟨s.members, rfl⟩
  · rw [if_neg hlocal]
    cases s.members.lookup r.nodeId with
    | none =>
        dsimp only
        split_ifs
        · exact ⟨_, rfl⟩
        · exact ⟨s.members, rfl⟩
    | some m =>
        dsimp only
        split_ifs
        · exact ⟨_, rfl⟩
        · exact ⟨_, rfl⟩
        · exact ⟨s.members, rfl⟩
        · exact ⟨s.members, rfl⟩

theorem exists_mergeFullState_eq (s : SwimProtocol) (rs : List SwimMember) (now : Nat) :
    ∃ t st, s.mergeFullState rs now = { s with members := t, stats := st } := by
  have hrun : ∃ t, run (fun s r => s.mergeMember r now) s rs = { s with members := t } := by
    induction rs generalizing s with
    | nil => exact ⟨s.members, rfl⟩
    | cons r rs ih =>
        obtain ⟨t, ht⟩ := exists_mergeMember_eq s r now
        obtain ⟨t', ht'⟩ := ih (s.mergeMember r now)
        refine ⟨t', ?_⟩
        rw [run_cons, ht', ht]
  obtain ⟨t, ht⟩ := hrun
  unfold mergeFullState
  rw [ht]
  exact ⟨t, _, rfl⟩

@[simp] theorem mergeMember_localNodeId (s : SwimProtocol) (r : SwimMember) (now : Nat) :
    (s.mergeMember r now).localNodeId = s.localNodeId := by
  obtain ⟨t, ht⟩ := exists_mergeMember_eq s r now
  rw [ht]

@[simp] theorem mergeFullState_localNodeId (s : SwimProtocol) (rs : List SwimMember)
    (now : Nat) : (s.mergeFullState rs now).localNodeId = s.localNodeId := by
  obtain ⟨t, st, ht⟩ := exists_mergeFullState_eq s rs now
  rw [ht]

theorem knows_suspectMember (s : SwimProtocol) (k : String) (now : Nat) (x : String) :
    knows (s.suspectMember k now).members x =
      match s.members.lookup k with
      | some m =>
          if x = k ∧ m.state = .alive then
            ((toLex (m.incarnation, .suspect) : Pair) : WithBot Pair)
          else knows s.members x
      | none => knows s.members x := by
  unfold suspectMember
  cases hm : s.members.lookup k with
  | none => rfl
  | some m =>
      dsimp only
      by_cases hact : m.state = .alive
      · rw [if_pos hact, queueUpdate_members, knows_insert]
        by_cases hx : x = k
        · rw [if_pos hx, if_pos ⟨hx, hact⟩]
          rfl
        · rw [if_neg hx, if_neg (fun h => hx h.1)]
      · rw [if_neg hact, if_neg (fun h => hact h.2)]

theorem lookup_reapDeadNodes (s : SwimProtocol) (now : Nat) (x : String) :
    (s.reapDeadNodes now).members.lookup x =
      (s.members.lookup x).filter fun m => !m.shouldReap s.config.deadNodeReapTimeout now :=
  Assoc.lookup_retain _ _ _

/-! ## No operation lowers an entry -/

theorem le_knows_upsertMember (s : SwimProtocol) (m : SwimMember) (now : Nat) (x : String) :
    knows s.members x ≤ knows (s.upsertMember m now).members x := by
  unfold upsertMember
  cases hm : s.members.lookup m.nodeId with
  | none =>
      apply knows_le_insert
      rw [knows_of_lookup_none hm]
      exact bot_le
  | some e =>
      dsimp only
      split_ifs with hinc
      · apply knows_le_insert
        rw [knows_of_lookup hm, WithBot.coe_le_coe]
        exact SwimMember.pair_le_pair.mpr (Or.inl hinc)
      · exact le_rfl

theorem le_knows_processAlive (s : SwimProtocol) (k : String) (inc : Nat) (addr : String)
    (now : Nat) (x : String) :
    knows s.members x ≤ knows (s.processAlive k inc addr now).members x := by
  rw [knows_processAlive]
  split_ifs with hx
  · rw [hx]
    exact le_sup_left
  · exact le_rfl

theorem le_knows_processSuspect (s : SwimProtocol) (k : String) (inc now : Nat)
    (x : String) :
    knows s.members x ≤ knows (s.processSuspect k inc now).members x := by
  rw [knows_processSuspect]
  split_ifs with hx
  · rw [hx.1]
    exact le_sup_left
  · exact le_rfl

theorem le_knows_suspectMember (s : SwimProtocol) (k : String) (now : Nat) (x : String) :
    knows s.members x ≤ knows (s.suspectMember k now).members x := by
  rw [knows_suspectMember]
  cases hm : s.members.lookup k with
  | none => exact le_rfl
  | some m =>
      dsimp only
      split_ifs with hx
      · rw [hx.1, knows_of_lookup hm, WithBot.coe_le_coe, SwimMember.pair, hx.2,
          Prod.Lex.toLex_le_toLex]
        exact Or.inr ⟨rfl, NodeState.alive_le _⟩
      · exact le_rfl

theorem le_knows_declareDead (s : SwimProtocol) (k : String) (now : Nat) (x : String) :
    knows s.members x ≤ knows (s.declareDead k now).members x := by
  rw [knows_declareDead]
  cases hm : s.members.lookup k with
  | none => exact le_rfl
  | some m =>
      dsimp only
      split_ifs with hx
      · rw [hx.1, knows_of_lookup hm, WithBot.coe_le_coe, SwimMember.pair,
          Prod.Lex.toLex_le_toLex]
        exact Or.inr ⟨rfl, ((NodeState.isActive_iff _).mp hx.2).le⟩
      · exact le_rfl

theorem le_knows_applyUpdate (s : SwimProtocol) (u : MembershipUpdate) (now : Nat)
    (x : String) : knows s.members x ≤ knows (s.applyUpdate u now).members x := by
  cases hu : u.state with
  | alive =>
      cases haddr : u.address with
      | none => rw [applyUpdate_alive_none s now hu haddr]
      | some addr =>
          rw [applyUpdate_alive s now hu haddr]
          exact le_knows_processAlive s _ _ _ _ x
  | suspect =>
      rw [applyUpdate_suspect s now hu]
      exact le_knows_processSuspect s _ _ _ x
  | dead =>
      rw [applyUpdate_dead s now hu]
      exact le_knows_declareDead s _ _ x
  | left =>
      rw [knows_applyUpdate_left s u now hu]
      split_ifs with hx
      · rw [hx.1]
        exact le_sup_left
      · exact le_rfl

theorem le_mergeView (v : WithBot Pair) (p : Pair) : v ≤ mergeView v p := by
  unfold mergeView
  split_ifs with hv
  · rw [hv]
    exact bot_le
  · rw [hv]
  · exact le_sup_left

theorem le_knows_mergeMember (s : SwimProtocol) (r : SwimMember) (now : Nat) (x : String) :
    knows s.members x ≤ knows (s.mergeMember r now).members x := by
  rw [knows_mergeMember]
  split_ifs
  · exact le_mergeView _ _
  · exact le_rfl

/-! ## Runs of the table's operations -/

/-- The operations that write the member table.  The first eight keep every
entry; the last two remove entries. -/
inductive TableOp
  | upsertMember (member : SwimMember)
  | processAlive (nodeId : String) (incarnation : Nat) (address : String)
  | processSuspect (nodeId : String) (incarnation : Nat)
  | suspectMember (nodeId : String)
  | declareDead (nodeId : String)
  | checkSuspectTimeouts
  | applyUpdates (updates : List MembershipUpdate)
  | mergeFullState (remoteState : List SwimMember)
  | reapDeadNodes
  | removeMemberSilently (nodeId : String)

def perform (s : SwimProtocol) (a : TableOp × Nat) : SwimProtocol :=
  match a with
  | (.upsertMember m, now) => s.upsertMember m now
  | (.processAlive k inc addr, now) => s.processAlive k inc addr now
  | (.processSuspect k inc, now) => s.processSuspect k inc now
  | (.suspectMember k, now) => s.suspectMember k now
  | (.declareDead k, now) => s.declareDead k now
  | (.checkSuspectTimeouts, now) => s.checkSuspectTimeouts now
  | (.applyUpdates us, now) => s.applyUpdates us now
  | (.mergeFullState rs, now) => s.mergeFullState rs now
  | (.reapDeadNodes, now) => s.reapDeadNodes now
  | (.removeMemberSilently k, _) => s.removeMemberSilently k

/-- The step lemma: an entry that is still there has not moved down. -/
theorem le_knows_perform (s : SwimProtocol) (a : TableOp × Nat) (x : String)
    (hstay : x ∈ (s.perform a).members) :
    knows s.members x ≤ knows (s.perform a).members x := by
  obtain ⟨op, now⟩ := a
  cases op with
  | upsertMember m => exact le_knows_upsertMember s m now x
  | processAlive k inc addr => exact le_knows_processAlive s k inc addr now x
  | processSuspect k inc => exact le_knows_processSuspect s k inc now x
  | suspectMember k => exact le_knows_suspectMember s k now x
  | declareDead k => exact le_knows_declareDead s k now x
  | checkSuspectTimeouts =>
      exact le_run (f := fun s => knows s.members x) (fun s k => le_knows_declareDead s k now x) s _
  | applyUpdates us =>
      exact le_run (f := fun s => knows s.members x)
        (fun s u => le_knows_applyUpdate s u now x) s us
  | mergeFullState rs =>
      exact le_run (f := fun s => knows s.members x)
        (fun s r => le_knows_mergeMember s r now x) s rs
  | reapDeadNodes =>
      have hlookup := lookup_reapDeadNodes s now x
      change x ∈ (s.reapDeadNodes now).members at hstay
      change _ ≤ knows (s.reapDeadNodes now).members x
      cases hm : s.members.lookup x with
      | none =>
          rw [knows_of_lookup_none hm]
          exact bot_le
      | some m =>
          rw [hm, Option.filter_some] at hlookup
          split_ifs at hlookup with hkeep
          · rw [knows_of_lookup hm, knows_of_lookup hlookup]
          · exact absurd hstay (AList.lookup_eq_none.mp hlookup)
  | removeMemberSilently k =>
      change x ∈ s.members.erase k at hstay
      have hx : x ≠ k := (AList.mem_erase.mp hstay).1
      have hlookup : (s.members.erase k).lookup x = s.members.lookup x :=
        AList.lookup_erase_ne hx
      change _ ≤ knows (s.members.erase k) x
      rw [knows, knows, hlookup]

/-- Along every run, as long as a node stays in the table its incarnation and
severity never decrease, and a dead or departed node becomes active again only
at a strictly higher incarnation. -/
theorem membership_monotone (s : SwimProtocol) (ops : List (TableOp × Nat)) (x : String)
    (m : SwimMember) (hm : s.members.lookup x = some m)
    (hstay : Along perform (fun s a => x ∈ (s.perform a).members) s ops) :
    ∃ m', (run perform s ops).members.lookup x = some m' ∧ m.pair ≤ m'.pair ∧
      (m.state.isActive = false → m'.state.isActive = true →
        m.incarnation < m'.incarnation) := by
  have hle : knows s.members x ≤ knows (run perform s ops).members x :=
    hstay.monotone (f := fun s => knows s.members x)
      (fun s a h => le_knows_perform s a x h)
  rw [knows_of_lookup hm] at hle
  obtain ⟨p, hp, hmp⟩ := WithBot.coe_le_iff.mp hle
  obtain ⟨m', hm', rfl⟩ := knows_eq_coe hp
  refine ⟨m', hm', hmp, fun hdown hup => ?_⟩
  rcases SwimMember.pair_le_pair.mp hmp with hlt | ⟨-, hst⟩
  · exact hlt
  · have hact := hst.trans_lt ((NodeState.isActive_iff _).mp hup)
    rw [(NodeState.isActive_iff _).mpr hact] at hdown
    cases hdown

theorem membership_monotone_reborn :
    ∃ m', (run perform (twoNodes 4 .dead)
          [(.suspectMember "n1", 1), (.processAlive "n1" 5 "10.0.0.2:9000", 2)]).members.lookup
        "n1" = some m' ∧
      (toLex (4, NodeState.dead) : Pair) ≤ m'.pair ∧
      (NodeState.dead.isActive = false → m'.state.isActive = true → 4 < m'.incarnation) :=
  membership_monotone (twoNodes 4 .dead) _ "n1"
    { SwimMember.new "n1" "10.0.0.2:9000" 0 with incarnation := 4, state := .dead } rfl
    ⟨by decide, by decide, trivial⟩

end SwimProtocol

end PlexSpaces.Swim
