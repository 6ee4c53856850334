import PlexSpaces.Swim.Updates
/-!
# Rumours about the local node

A node defends itself when no rumour puts its own id into its member table and
every accusation (suspect or dead) is answered by an alive update that outranks
it.  The paths a rumour can take treat the local id differently:

* anti-entropy skips it, and so neither inserts nor answers;
* a suspicion is answered with the successor of the local incarnation, whatever
  incarnation the suspicion carries;
* a death report is applied like one about any peer, and is not answered;
* an alive message is applied like one about any peer, and inserts.

`Harmless` is the condition on the state and the rumour under which the node is
nevertheless defended, and `defends_iff_harmless` says that it is exact, along
every run of rumours.
-/

namespace PlexSpaces.Swim

open PlexSpaces.Lib

/-- What a node hears about the cluster: a gossiped update or a remote table. -/
inductive Rumour
  | update (u : MembershipUpdate)
  | fullState (remoteState : List SwimMember)

namespace Rumour

/-- The rumour calls `nodeId` suspect or dead at `incarnation`. -/
def Accuses (nodeId : String) (incarnation : Nat) : Rumour → Prop
  | update u =>
      u.nodeId = nodeId ∧ (u.state = .suspect ∨ u.state = .dead) ∧
        u.incarnation = incarnation
  | fullState rs =>
      ∃ m ∈ rs, m.nodeId = nodeId ∧ (m.state = .suspect ∨ m.state = .dead) ∧
        m.incarnation = incarnation

end Rumour

namespace SwimProtocol

def hear (s : SwimProtocol) (r : Rumour × Nat) : SwimProtocol :=
  match r with
  | (.update u, now) => s.applyUpdates [u] now
  | (.fullState rs, now) => s.mergeFullState rs now

/-- The local incarnation and a queued alive update both outrank an accusation. -/
def Refuted (s : SwimProtocol) (incarnation : Nat) : Prop :=
  incarnation < s.localIncarnation ∧
    ∃ e ∈ s.updatesQueue.entries, e.nodeId = s.localNodeId ∧ e.state = .alive ∧
      incarnation < e.incarnation

/-- The rumour does not make the local id a member, and an accusation is
refuted once it has been processed. -/
def Defends (s : SwimProtocol) (r : Rumour × Nat) : Prop :=
  (s.localNodeId ∈ (s.hear r).members → s.localNodeId ∈ s.members) ∧
    ∀ i, r.1.Accuses s.localNodeId i → (s.hear r).Refuted i

/-- The next local incarnation, as a `u64`. -/
def nextIncarnation (s : SwimProtocol) : Nat := (s.localIncarnation + 1) % 2 ^ 64

/-- A suspicion about the local node at `incarnation` can be outranked: the next
local incarnation is above it, the queue may hold updates at all, and no queued
update other than an alive one is above the next incarnation. -/
def CanRefute (s : SwimProtocol) (incarnation : Nat) : Prop :=
  incarnation < s.nextIncarnation ∧ 0 < s.config.maxPiggybackUpdates ∧
    ∀ e ∈ s.updatesQueue.entries, e.nodeId = s.localNodeId →
      s.nextIncarnation < e.incarnation → e.state = .alive

/-- A death report about the local node at `incarnation` is refuted already, by
an update that the report itself will not push out of the queue. -/
def AlreadyRefuted (s : SwimProtocol) (incarnation : Nat) : Prop :=
  incarnation < s.localIncarnation ∧
    ∃ e ∈ s.updatesQueue.entries, e.nodeId = s.localNodeId ∧ e.state = .alive ∧
      incarnation < e.incarnation ∧
      ∀ m, s.members.lookup s.localNodeId = some m → m.state.isActive = true →
        m.incarnation < e.incarnation

def Harmless (s : SwimProtocol) : Rumour → Prop
  | .update u =>
      u.nodeId = s.localNodeId →
        match u.state with
        | .alive => u.address = none ∨ s.localNodeId ∈ s.members
        | .suspect => s.CanRefute u.incarnation
        | .dead => s.AlreadyRefuted u.incarnation
        | .left => True
  | .fullState rs =>
      ∀ m ∈ rs, m.nodeId = s.localNodeId → (m.state = .suspect ∨ m.state = .dead) →
        s.Refuted m.incarnation

/-! ## Each path -/

theorem exists_queued_iff (s : SwimProtocol) (P : MembershipUpdate → Prop) :
    (∃ e ∈ s.updatesQueue.entries, e.nodeId = s.localNodeId ∧ P e) ↔
      ∃ e, s.updatesQueue.find? s.localNodeId = some e ∧ P e := by
  constructor
  · rintro ⟨e, he, hid, hp⟩
    refine ⟨e, ?_, hp⟩
    rw [← hid]
    exact (s.updatesQueue.find?_eq_some_iff e).mpr he
  · rintro ⟨e, he, hp⟩
    have hid : e.nodeId = s.localNodeId := by
      have := List.find?_some he
      simpa using this
    rw [← hid] at he
    exact ⟨e, (s.updatesQueue.find?_eq_some_iff e).mp he, hid, hp⟩

theorem refuteSuspicion_refuted_iff (s : SwimProtocol) (now i : Nat) :
    (s.refuteSuspicion now).Refuted i ↔ s.CanRefute i := by
  have hqueued := exists_queued_iff (s.refuteSuspicion now)
    (fun e => e.state = .alive ∧ i < e.incarnation)
  unfold Refuted
  rw [hqueued]
  change (i < s.nextIncarnation ∧
    ∃ e, (s.updatesQueue.queueUpdate
        ((MembershipUpdate.new s.localNodeId .alive s.nextIncarnation now).withAddress
          s.localAddress)).find? s.localNodeId = some e ∧ e.state = .alive ∧ i < e.incarnation) ↔ _
  set u := (MembershipUpdate.new s.localNodeId .alive s.nextIncarnation now).withAddress
    s.localAddress with hu
  have hid : u.nodeId = s.localNodeId := rfl
  have hstate : u.state = .alive := rfl
  have hinc : u.incarnation = s.nextIncarnation := rfl
  have hlater : (∀ e ∈ s.updatesQueue.entries, e.nodeId = s.localNodeId →
      s.nextIncarnation < e.incarnation → e.state = .alive) ↔
      ∀ e, s.updatesQueue.find? s.localNodeId = some e →
        s.nextIncarnation < e.incarnation → e.state = .alive := by
    have h := not_congr (exists_queued_iff s
      (fun e => ¬ (s.nextIncarnation < e.incarnation → e.state = .alive)))
    simpa only [not_exists, not_and, not_not] using h
  unfold CanRefute
  rw [hlater]
  rcases Nat.eq_zero_or_pos s.config.maxPiggybackUpdates with hzero | hpos
  · -- A queue of size zero keeps nothing.
    refine iff_of_false ?_ (fun h => by omega)
    rintro ⟨-, e, he, -⟩
    have hpos := UpdatesQueue.pos_of_find?_eq_some _ he
    omega
  · have hfind := s.updatesQueue.find?_queueUpdate_self u (by omega)
    rw [hid] at hfind
    rw [hfind]
    cases hq : s.updatesQueue.find? s.localNodeId with
    | none => simp [hstate, hinc, hpos]
    | some e =>
        by_cases hle : e.incarnation ≤ s.nextIncarnation
        · have hnot : ¬ s.nextIncarnation < e.incarnation := by omega
          simp [hstate, hinc, hpos, hle, hnot]
        · have hlt : s.nextIncarnation < e.incarnation := by omega
          simp only [hinc, hle, if_false, Option.some.injEq, exists_eq_left', hpos, hlt,
            true_and, forall_eq', true_implies]
          constructor
          · rintro ⟨hi, halive, -⟩
            exact ⟨hi, halive⟩
          · rintro ⟨hi, halive⟩
            exact ⟨hi, halive, by omega⟩

theorem declareDead_localIncarnation (s : SwimProtocol) (k : String) (now : Nat) :
    (s.declareDead k now).localIncarnation = s.localIncarnation := by
  unfold declareDead
  cases s.members.lookup k with
  | none => rfl
  | some m =>
      dsimp only
      split_ifs <;> rfl

theorem declareDead_refuted_iff (s : SwimProtocol) (now i : Nat) :
    (s.declareDead s.localNodeId now).Refuted i ↔ s.AlreadyRefuted i := by
  have hqueued := exists_queued_iff s (fun e => e.state = .alive ∧ i < e.incarnation ∧
    ∀ m, s.members.lookup s.localNodeId = some m → m.state.isActive = true →
      m.incarnation < e.incarnation)
  have hqueued' := exists_queued_iff (s.declareDead s.localNodeId now)
    (fun e => e.state = .alive ∧ i < e.incarnation)
  unfold Refuted AlreadyRefuted
  rw [hqueued, hqueued', declareDead_localIncarnation, declareDead_localNodeId]
  refine and_congr_right fun _ => ?_
  unfold declareDead
  cases hm : s.members.lookup s.localNodeId with
  | none => simp
  | some m =>
      dsimp only
      by_cases hact : m.state.isActive = true
      · rw [if_pos ((state_ne_dead_left_iff _).mpr hact)]
        set u := MembershipUpdate.new s.localNodeId .dead m.incarnation now with hu
        change (∃ e, (s.updatesQueue.queueUpdate u).find? s.localNodeId = some e ∧
          e.state = .alive ∧ i < e.incarnation) ↔ _
        have hid : u.nodeId = s.localNodeId := rfl
        cases hq : s.updatesQueue.find? s.localNodeId with
        | none =>
            refine iff_of_false ?_ (by simp)
            rintro ⟨e, he, halive, -⟩
            have hfind := s.updatesQueue.find?_queueUpdate_self u
              (UpdatesQueue.pos_of_find?_eq_some _ he)
            rw [hid, hq] at hfind
            rw [hfind, Option.some.injEq] at he
            rw [← he] at halive
            cases halive
        | some e =>
            have hfind := s.updatesQueue.find?_queueUpdate_self u
              (UpdatesQueue.pos_of_find?_eq_some _ hq)
            rw [hid, hq] at hfind
            rw [hfind]
            have hinc : u.incarnation = m.incarnation := rfl
            have hdead : u.state = .dead := rfl
            by_cases hle : e.incarnation ≤ m.incarnation
            · have hnot : ¬ m.incarnation < e.incarnation := by omega
              simp [hinc, hdead, hle, hact, hnot]
            · have hlt : m.incarnation < e.incarnation := by omega
              simp [hinc, hle, hlt]
      · rw [if_neg (fun h => hact ((state_ne_dead_left_iff _).mp h))]
        simp [hact]

theorem mergeFullState_refuted_iff (s : SwimProtocol) (rs : List SwimMember) (now i : Nat) :
    (s.mergeFullState rs now).Refuted i ↔ s.Refuted i := by
  obtain ⟨t, st, hmerge⟩ := exists_mergeFullState_eq s rs now
  rw [hmerge]
  rfl

theorem mem_mergeFullState_local (s : SwimProtocol) (rs : List SwimMember) (now : Nat) :
    s.localNodeId ∈ (s.mergeFullState rs now).members ↔ s.localNodeId ∈ s.members := by
  have hrun : (run (fun s r => s.mergeMember r now) s rs).localNodeId = s.localNodeId ∧
      knows (run (fun s r => s.mergeMember r now) s rs).members s.localNodeId =
        knows s.members s.localNodeId := by
    refine run_invariant (I := fun s' : SwimProtocol => s'.localNodeId = s.localNodeId ∧
      knows s'.members s.localNodeId = knows s.members s.localNodeId) ?_ ⟨rfl, rfl⟩
    rintro r - s' ⟨hid, hknows⟩
    refine ⟨(mergeMember_localNodeId s' r now).trans hid, ?_⟩
    rw [knows_mergeMember, if_neg, hknows]
    rintro ⟨-, hne⟩
    exact hne hid.symm
  rw [mem_iff_knows_ne_bot, mem_iff_knows_ne_bot]
  exact not_congr (by rw [← hrun.2]; rfl)

/-! ## The exact condition -/

theorem defends_update_iff (s : SwimProtocol) (u : MembershipUpdate) (now : Nat) :
    s.Defends (.update u, now) ↔ s.Harmless (.update u) := by
  change ((s.localNodeId ∈ (s.applyUpdate u now).members → s.localNodeId ∈ s.members) ∧
    ∀ i, (u.nodeId = s.localNodeId ∧ (u.state = .suspect ∨ u.state = .dead) ∧
      u.incarnation = i) → (s.applyUpdate u now).Refuted i) ↔ _
  by_cases hid : u.nodeId = s.localNodeId
  · have hharmless : s.Harmless (.update u) ↔
        match u.state with
        | .alive => u.address = none ∨ s.localNodeId ∈ s.members
        | .suspect => s.CanRefute u.incarnation
        | .dead => s.AlreadyRefuted u.incarnation
        | .left => True := ⟨fun h => h hid, fun h _ => h⟩
    rw [hharmless]
    cases hu : u.state with
    | alive =>
        simp only [reduceCtorEq, or_self, false_and, and_false, false_implies, implies_true,
          and_true]
        cases haddr : u.address with
        | none =>
            rw [applyUpdate_alive_none s now hu haddr]
            simp
        | some addr =>
            have hin : s.localNodeId ∈ (s.applyUpdate u now).members := by
              rw [applyUpdate_alive s now hu haddr, mem_iff_knows_ne_bot, knows_processAlive,
                if_pos hid.symm]
              exact fun h => WithBot.coe_ne_bot (sup_eq_bot_iff.mp h).2
            simp [hin]
    | suspect =>
        have hsame : s.applyUpdate u now = s.refuteSuspicion now := by
          rw [applyUpdate_suspect s now hu, processSuspect, if_pos hid]
        rw [hsame, refuteSuspicion_members, ← refuteSuspicion_refuted_iff s now]
        simp [hid]
    | dead =>
        have hsame : s.applyUpdate u now = s.declareDead s.localNodeId now := by
          rw [applyUpdate_dead s now hu, hid]
        rw [hsame, mem_declareDead, ← declareDead_refuted_iff s now]
        simp [hid]
    | left =>
        have hkeys : s.localNodeId ∈ (s.applyUpdate u now).members →
            s.localNodeId ∈ s.members := by
          rw [mem_iff_knows_ne_bot, knows_applyUpdate_left s u now hu]
          split_ifs with h
          · exact fun _ => h.1 ▸ h.2
          · exact mem_iff_knows_ne_bot.mpr
        refine iff_of_true ⟨hkeys, ?_⟩ trivial
        rintro i ⟨-, hst | hst, -⟩
        · cases hst
        · cases hst
  · refine iff_of_true ⟨?_, ?_⟩ (fun h => absurd h hid)
    · rw [mem_iff_knows_ne_bot, mem_iff_knows_ne_bot,
        knows_applyUpdate_of_ne s u now (Ne.symm hid)]
      exact id
    · intro i h
      exact absurd h.1 hid

theorem defends_fullState_iff (s : SwimProtocol) (rs : List SwimMember) (now : Nat) :
    s.Defends (.fullState rs, now) ↔ s.Harmless (.fullState rs) := by
  have hkeys : s.localNodeId ∈ (s.hear (.fullState rs, now)).members → s.localNodeId ∈ s.members :=
    (mem_mergeFullState_local s rs now).mp
  have hrefuted : ∀ i, (s.hear (.fullState rs, now)).Refuted i ↔ s.Refuted i :=
    fun i => mergeFullState_refuted_iff s rs now i
  constructor
  · rintro ⟨-, hanswered⟩ m hm hid hst
    exact (hrefuted _).mp (hanswered m.incarnation ⟨m, hm, hid, hst, rfl⟩)
  · intro hharmless
    refine ⟨hkeys, ?_⟩
    rintro i ⟨m, hm, hid, hst, rfl⟩
    exact (hrefuted _).mpr (hharmless m hm hid hst)

/-- Along every run of rumours, from every state: the node is defended at every
step exactly when every rumour is harmless in the state it meets. -/
theorem defends_iff_harmless (s : SwimProtocol) (rumours : List (Rumour × Nat)) :
    Along hear Defends s rumours ↔ Along hear (fun s r => s.Harmless r.1) s rumours := by
  apply along_congr (I := fun _ => True)
  · rintro s ⟨r, now⟩ -
    cases r with
    | update u => exact defends_update_iff s u now
    | fullState rs => exact defends_fullState_iff s rs now
  · exact fun _ _ _ _ => trivial
  · trivial

/-- The echo of its own first incarnation makes a fresh node a member of its own
table. -/
theorem not_defends_fresh_node :
    ¬ ∀ (s : SwimProtocol) (rumours : List (Rumour × Nat)), Along hear Defends s rumours := by
  intro hclaim
  have hfresh := hclaim
    (SwimProtocol.new "local" "10.0.0.1:9000" (SwimConfig.default fun _ => 4000))
    [(.update ((MembershipUpdate.new "local" .alive 0 0).withAddress "10.0.0.1:9000"), 1)]
  exact absurd (hfresh.1.1 (by decide)) (by decide)

end SwimProtocol

end PlexSpaces.Swim
