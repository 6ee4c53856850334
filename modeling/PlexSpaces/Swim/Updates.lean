import Mathlib.Data.List.MinMax
import PlexSpaces.Swim.Knowledge
/-!
# Resolution of received updates

`apply_updates` sends the four kinds of news to four functions.  Three of them
go through `update_state` and are a join on the entry they concern.  Death news
goes to `declare_dead`, which never sees the incarnation of the update: it kills
at the incarnation stored, so it overrides news from a later incarnation and
forgets a later incarnation of its own.

`JoinsAt m u` is the exact condition under which an update `u` about an entry
`m` still acts as the join (`knows_applyUpdate_eq_sup_iff`).  A run whose steps
all satisfy it ends at the maximum of what was stored and what was received, so
order and repetition do not matter (`applyUpdates_resolves`).
-/

namespace PlexSpaces.Swim

open PlexSpaces.Lib

namespace SwimProtocol

/-! ## Frame -/

@[simp] theorem processAlive_localNodeId (s : SwimProtocol) (k : String) (inc : Nat)
    (addr : String) (now : Nat) :
    (s.processAlive k inc addr now).localNodeId = s.localNodeId := by
  unfold processAlive
  cases s.members.lookup k with
  | none => rfl
  | some m =>
      dsimp only
      split_ifs <;> rfl

@[simp] theorem processSuspect_localNodeId (s : SwimProtocol) (k : String) (inc now : Nat) :
    (s.processSuspect k inc now).localNodeId = s.localNodeId := by
  unfold processSuspect
  split_ifs
  · rfl
  · cases s.members.lookup k <;> rfl

@[simp] theorem declareDead_localNodeId (s : SwimProtocol) (k : String) (now : Nat) :
    (s.declareDead k now).localNodeId = s.localNodeId := by
  unfold declareDead
  cases s.members.lookup k with
  | none => rfl
  | some m =>
      dsimp only
      split_ifs <;> rfl

@[simp] theorem applyUpdate_localNodeId (s : SwimProtocol) (u : MembershipUpdate)
    (now : Nat) : (s.applyUpdate u now).localNodeId = s.localNodeId := by
  unfold applyUpdate
  cases u.state with
  | alive =>
      dsimp only
      cases u.address with
      | none => rfl
      | some addr => exact processAlive_localNodeId s _ _ _ _
  | suspect => exact processSuspect_localNodeId s _ _ _
  | dead => exact declareDead_localNodeId s _ _
  | left =>
      dsimp only
      cases s.members.lookup u.nodeId <;> rfl

theorem knows_applyUpdate_of_ne (s : SwimProtocol) (u : MembershipUpdate) (now : Nat)
    {x : String} (hx : x ≠ u.nodeId) :
    knows (s.applyUpdate u now).members x = knows s.members x := by
  cases hu : u.state with
  | alive =>
      cases haddr : u.address with
      | none => rw [applyUpdate_alive_none s now hu haddr]
      | some addr => rw [applyUpdate_alive s now hu haddr, knows_processAlive, if_neg hx]
  | suspect =>
      rw [applyUpdate_suspect s now hu, knows_processSuspect, if_neg (fun h => hx h.1)]
  | dead =>
      rw [applyUpdate_dead s now hu, knows_declareDead]
      cases s.members.lookup u.nodeId with
      | none => rfl
      | some m => exact if_neg (fun h => hx h.1)
  | left => rw [knows_applyUpdate_left s u now hu, if_neg (fun h => hx h.1)]

/-! ## One update -/

/-- The update acts on the stored entry as a join: it is not a death report, or
it reports the death of exactly the stored incarnation, or it is outdated and
the entry is already inactive. -/
def JoinsAt (m : SwimMember) (u : MembershipUpdate) : Prop :=
  u.state = .dead →
    u.incarnation = m.incarnation ∨
      (u.incarnation < m.incarnation ∧ m.state.isActive = false)

/-- An alive update is only looked at when it says where the node is. -/
def Addressed (u : MembershipUpdate) : Prop := u.state = .alive → u.address.isSome

theorem declareDead_eq_sup_iff (m : SwimMember) (inc : Nat) :
    (if m.state.isActive then (toLex (m.incarnation, .dead) : Pair) else m.pair) =
        m.pair ⊔ toLex (inc, .dead) ↔
      inc = m.incarnation ∨ (inc < m.incarnation ∧ m.state.isActive = false) := by
  rcases Nat.lt_trichotomy inc m.incarnation with hlt | heq | hgt
  · have hle : (toLex (inc, NodeState.dead) : Pair) ≤ m.pair :=
      Prod.Lex.toLex_le_toLex.mpr (Or.inl hlt)
    rw [sup_eq_left.mpr hle]
    cases hact : m.state.isActive with
    | false => simp [hlt]
    | true =>
        have hne : (toLex (m.incarnation, NodeState.dead) : Pair) ≠ m.pair := by
          intro h
          have hst : NodeState.dead = m.state := congrArg (fun p => (ofLex p).2) h
          rw [← hst] at hact
          cases hact
        simp [hne, Nat.ne_of_lt hlt]
  · subst heq
    simp only [true_or, iff_true]
    cases hact : m.state.isActive with
    | false =>
        rw [if_neg Bool.false_ne_true, sup_eq_left.mpr]
        refine Prod.Lex.toLex_le_toLex.mpr (Or.inr ⟨rfl, ?_⟩)
        exact le_of_not_gt fun h => by
          rw [(NodeState.isActive_iff _).mpr h] at hact
          cases hact
    | true =>
        rw [if_pos rfl, sup_eq_right.mpr]
        exact Prod.Lex.toLex_le_toLex.mpr
          (Or.inr ⟨rfl, ((NodeState.isActive_iff _).mp hact).le⟩)
  · have hle : m.pair ≤ (toLex (inc, NodeState.dead) : Pair) :=
      Prod.Lex.toLex_le_toLex.mpr (Or.inl hgt)
    rw [sup_eq_right.mpr hle]
    have hinc : ∀ st : NodeState, (toLex (m.incarnation, st) : Pair) ≠ toLex (inc, .dead) := by
      intro st h
      have heq : m.incarnation = inc := congrArg (fun p => (ofLex p).1) h
      omega
    have hne : (if m.state.isActive then (toLex (m.incarnation, .dead) : Pair) else m.pair) ≠
        toLex (inc, .dead) := by
      split_ifs
      · exact hinc _
      · exact hinc _
    constructor
    · intro h
      exact absurd h hne
    · rintro (h | h)
      · omega
      · omega

/-- Exactly when one update about a known peer resolves to the maximum. -/
theorem knows_applyUpdate_eq_sup_iff (s : SwimProtocol) (u : MembershipUpdate) (now : Nat)
    {m : SwimMember} (hm : s.members.lookup u.nodeId = some m)
    (hlocal : u.nodeId ≠ s.localNodeId) (haddr : Addressed u) :
    knows (s.applyUpdate u now).members u.nodeId = ((m.pair ⊔ u.pair : Pair) : WithBot Pair) ↔
      JoinsAt m u := by
  have hmem : u.nodeId ∈ s.members := AList.lookup_isSome.mp (by rw [hm]; rfl)
  cases hu : u.state with
  | alive =>
      have hjoin : JoinsAt m u := fun h => by rw [hu] at h; cases h
      obtain ⟨addr, haddr'⟩ := Option.isSome_iff_exists.mp (haddr hu)
      refine iff_of_true ?_ hjoin
      rw [applyUpdate_alive s now hu haddr', knows_processAlive, if_pos rfl,
        knows_of_lookup hm, MembershipUpdate.pair, hu, WithBot.coe_sup]
  | suspect =>
      have hjoin : JoinsAt m u := fun h => by rw [hu] at h; cases h
      refine iff_of_true ?_ hjoin
      rw [applyUpdate_suspect s now hu, knows_processSuspect, if_pos ⟨rfl, hlocal, hmem⟩,
        knows_of_lookup hm, MembershipUpdate.pair, hu, WithBot.coe_sup]
  | dead =>
      have hjoin : JoinsAt m u ↔ (u.incarnation = m.incarnation ∨
          (u.incarnation < m.incarnation ∧ m.state.isActive = false)) := by
        rw [JoinsAt, hu]
        exact ⟨fun h => h rfl, fun h _ => h⟩
      rw [hjoin, ← declareDead_eq_sup_iff, MembershipUpdate.pair, hu,
        applyUpdate_dead s now hu, knows_declareDead, hm]
      dsimp only
      rw [knows_of_lookup hm]
      cases m.state.isActive with
      | false =>
          rw [if_neg (fun h => Bool.false_ne_true h.2), if_neg Bool.false_ne_true,
            WithBot.coe_inj]
      | true => rw [if_pos ⟨rfl, rfl⟩, if_pos rfl, WithBot.coe_inj]
  | left =>
      have hjoin : JoinsAt m u := fun h => by rw [hu] at h; cases h
      refine iff_of_true ?_ hjoin
      rw [knows_applyUpdate_left s u now hu, if_pos ⟨rfl, hmem⟩, knows_of_lookup hm,
        WithBot.coe_sup]

/-- Outdated news that acts as a join leaves the whole entry as it is. -/
theorem lookup_applyUpdate_of_outdated (s : SwimProtocol) (u : MembershipUpdate) (now : Nat)
    {m : SwimMember} (hm : s.members.lookup u.nodeId = some m)
    (hlocal : u.nodeId ≠ s.localNodeId) (hjoin : JoinsAt m u)
    (hold : u.incarnation < m.incarnation) :
    (s.applyUpdate u now).members.lookup u.nodeId = some m := by
  have hle : ∀ st : NodeState, (toLex (u.incarnation, st) : Pair) ≤ m.pair :=
    fun st => Prod.Lex.toLex_le_toLex.mpr (Or.inl hold)
  cases hu : u.state with
  | alive =>
      cases haddr : u.address with
      | none => rw [applyUpdate_alive_none s now hu haddr, hm]
      | some addr =>
          rw [applyUpdate_alive s now hu haddr]
          unfold processAlive
          rw [hm]
          dsimp only
          rw [SwimMember.updateState_alive_snd, decide_eq_false (by omega),
            if_neg Bool.false_ne_true]
          exact hm
  | suspect =>
      rw [applyUpdate_suspect s now hu]
      unfold processSuspect
      rw [if_neg hlocal, hm]
      dsimp only
      rw [countReceived_members, Assoc.lookup_insert_self,
        SwimMember.updateState_eq_self _ _ _ _ (hle _)]
  | dead =>
      have hinactive : m.state.isActive = false := by
        rcases hjoin hu with h | h
        · omega
        · exact h.2
      rw [applyUpdate_dead s now hu]
      unfold declareDead
      rw [hm]
      dsimp only
      rw [if_neg (fun h => by rw [(state_ne_dead_left_iff _).mp h] at hinactive; cases hinactive)]
      exact hm
  | left =>
      unfold applyUpdate
      rw [hu]
      dsimp only
      rw [hm]
      dsimp only
      rw [Assoc.lookup_insert_self, SwimMember.updateState_eq_self _ _ _ _ (hle _)]

/-! ## Runs of updates -/

def newsAbout (x : String) (us : List MembershipUpdate) : List Pair :=
  (us.filter fun u => decide (u.nodeId = x)).map MembershipUpdate.pair

theorem newsAbout_subset {x : String} {us vs : List MembershipUpdate} (h : us ⊆ vs) :
    newsAbout x us ⊆ newsAbout x vs := by
  intro p hp
  obtain ⟨u, hu, rfl⟩ := List.mem_map.mp hp
  rw [List.mem_filter] at hu
  exact List.mem_map.mpr ⟨u, List.mem_filter.mpr ⟨h hu.1, hu.2⟩, rfl⟩

/-- Every update about `x` acts as a join on the entry it meets. -/
def JoinsAlong (x : String) (now : Nat) (s : SwimProtocol) (us : List MembershipUpdate) :
    Prop :=
  Along (fun s u => s.applyUpdate u now)
    (fun s u => u.nodeId = x → ∀ m, s.members.lookup x = some m → JoinsAt m u) s us

theorem knows_applyUpdates (x : String) (now : Nat) (s : SwimProtocol)
    (us : List MembershipUpdate) (hx : x ∈ s.members) (hlocal : x ≠ s.localNodeId)
    (haddr : ∀ u ∈ us, Addressed u) (hjoins : JoinsAlong x now s us) :
    knows (s.applyUpdates us now).members x =
      knows s.members x ⊔ (newsAbout x us).maximum := by
  induction us generalizing s with
  | nil =>
      change knows s.members x = knows s.members x ⊔ ⊥
      rw [sup_bot_eq]
  | cons u us ih =>
      obtain ⟨m, hm⟩ := Option.isSome_iff_exists.mp (AList.lookup_isSome.mpr hx)
      have hstay : x ∈ (s.applyUpdate u now).members := by
        have hle := le_knows_applyUpdate s u now x
        rw [knows_of_lookup hm] at hle
        obtain ⟨p, hp, -⟩ := WithBot.coe_le_iff.mp hle
        obtain ⟨m', hm', -⟩ := knows_eq_coe hp
        exact AList.lookup_isSome.mp (by rw [hm']; rfl)
      have hrest := ih (s.applyUpdate u now) hstay
        (by rw [applyUpdate_localNodeId]; exact hlocal)
        (fun v hv => haddr v (List.mem_cons_of_mem u hv)) hjoins.2
      change knows ((s.applyUpdate u now).applyUpdates us now).members x = _
      rw [hrest]
      by_cases hux : u.nodeId = x
      · have hstep := (knows_applyUpdate_eq_sup_iff s u now (hux.symm ▸ hm)
          (hux.symm ▸ hlocal) (haddr u List.mem_cons_self)).mpr (hjoins.1 hux m hm)
        have hnews : newsAbout x (u :: us) = u.pair :: newsAbout x us := by
          simp [newsAbout, hux]
        rw [hux] at hstep
        rw [hstep, hnews, List.maximum_cons, knows_of_lookup hm, WithBot.coe_sup, sup_assoc]
      · have hnews : newsAbout x (u :: us) = newsAbout x us := by
          simp [newsAbout, hux]
        rw [knows_applyUpdate_of_ne s u now (Ne.symm hux), hnews]

/-- Exactly when one update resolves to the lexicographic maximum; and in runs
whose updates all meet that condition, two nodes that received the same updates,
in any order and any number of times, hold the same pair. -/
theorem applyUpdates_resolves (s : SwimProtocol) (x : String) (hx : x ∈ s.members)
    (hlocal : x ≠ s.localNodeId) :
    (∀ (u : MembershipUpdate) (now : Nat) (m : SwimMember), u.nodeId = x → Addressed u →
      s.members.lookup x = some m →
      (knows (s.applyUpdates [u] now).members x = ((m.pair ⊔ u.pair : Pair) : WithBot Pair) ↔
          JoinsAt m u) ∧
        (JoinsAt m u → u.incarnation < m.incarnation →
          (s.applyUpdates [u] now).members.lookup x = some m)) ∧
    (∀ (us vs : List MembershipUpdate) (now now' : Nat), (∀ u, u ∈ us ↔ u ∈ vs) →
      (∀ u ∈ us, Addressed u) → JoinsAlong x now s us → JoinsAlong x now' s vs →
      knows (s.applyUpdates us now).members x = knows (s.applyUpdates vs now').members x ∧
        knows (s.applyUpdates us now).members x =
          knows s.members x ⊔ (newsAbout x us).maximum) := by
  constructor
  · rintro u now m rfl haddr hm
    exact ⟨knows_applyUpdate_eq_sup_iff s u now hm hlocal haddr,
      lookup_applyUpdate_of_outdated s u now hm hlocal⟩
  · intro us vs now now' hsame haddr hus hvs
    have hleft := knows_applyUpdates x now s us hx hlocal haddr hus
    have hright := knows_applyUpdates x now' s vs hx hlocal
      (fun v hv => haddr v ((hsame v).mpr hv)) hvs
    have hnews : (newsAbout x us).maximum = (newsAbout x vs).maximum :=
      le_antisymm
        (List.maximum_mono (newsAbout_subset fun u hu => (hsame u).mp hu))
        (List.maximum_mono (newsAbout_subset fun u hu => (hsame u).mpr hu))
    refine ⟨?_, hleft⟩
    rw [hleft, hright, hnews]

/-- A suspicion and its refutation, received in either order and twice. -/
theorem applyUpdates_resolves_refutation :
    let refutation := (MembershipUpdate.new "n1" .alive 5 0).withAddress "10.0.0.2:9000"
    let rumour := MembershipUpdate.new "n1" .suspect 4 0
    knows ((twoNodes 4 .alive).applyUpdates [rumour, refutation] 1).members "n1" =
        knows ((twoNodes 4 .alive).applyUpdates [refutation, rumour, refutation] 1).members
          "n1" := by
  intro refutation rumour
  have hrefutation : ∀ m, JoinsAt m refutation := fun _ h => nomatch h
  have hrumour : ∀ m, JoinsAt m rumour := fun _ h => nomatch h
  have hres := applyUpdates_resolves (twoNodes 4 .alive) "n1" (by decide) (by decide)
  refine (hres.2 [rumour, refutation] [refutation, rumour, refutation] 1 1 ?_ ?_ ?_ ?_).1
  · intro u
    simp only [List.mem_cons, List.not_mem_nil, or_false]
    tauto
  · simp [Addressed, refutation, rumour, MembershipUpdate.new, MembershipUpdate.withAddress]
  · exact ⟨fun _ m _ => hrumour m, fun _ m _ => hrefutation m, trivial⟩
  · exact ⟨fun _ m _ => hrefutation m, fun _ m _ => hrumour m, fun _ m _ => hrefutation m,
      trivial⟩

/-- A death report from incarnation 5 overrides an entry alive at incarnation
10, although its pair is the smaller one. -/
theorem applyUpdates_not_join :
    ¬ ∀ (s : SwimProtocol) (u : MembershipUpdate) (now : Nat) (m : SwimMember),
      u.nodeId ≠ s.localNodeId → Addressed u → s.members.lookup u.nodeId = some m →
      knows (s.applyUpdates [u] now).members u.nodeId =
        ((m.pair ⊔ u.pair : Pair) : WithBot Pair) := by
  intro hclaim
  have hjoin := hclaim (twoNodes 10 .alive) (MembershipUpdate.new "n1" .dead 5 0) 1
    { SwimMember.new "n1" "10.0.0.2:9000" 0 with incarnation := 10 } (by decide)
    (fun h => by cases h) rfl
  revert hjoin
  decide

end SwimProtocol

end PlexSpaces.Swim
