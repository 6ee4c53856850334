import PlexSpaces.Swim.Knowledge
/-!
# Anti-entropy: merging remote tables

A remote table mentions an id at most once, so merging it acts on the view at
each id once (`knows_mergeFullState`).  On an id that is already known the
action is a join, and two tables commute there.  On an unknown id the guard
`is_active` decides first: a death certificate for a stranger is dropped, and
whether the other table has introduced the stranger by then depends on the
order.  `mergeView_comm_iff` says when that shows.
-/

namespace PlexSpaces.Swim

open PlexSpaces.Lib

def OneEntryPerNode (rs : List SwimMember) : Prop := (rs.map (·.nodeId)).Nodup
  deriving Decidable

def entryFor (rs : List SwimMember) (x : String) : Option SwimMember :=
  rs.find? fun r => r.nodeId = x

theorem entryFor_nodeId {rs : List SwimMember} {x : String} {r : SwimMember}
    (h : entryFor rs x = some r) : r.nodeId = x := by
  simpa using List.find?_some h

theorem entryFor_cons_self (r : SwimMember) (rs : List SwimMember) :
    entryFor (r :: rs) r.nodeId = some r := by
  simp [entryFor]

theorem entryFor_cons_of_ne {r : SwimMember} {x : String} (rs : List SwimMember)
    (h : x ≠ r.nodeId) : entryFor (r :: rs) x = entryFor rs x := by
  simp [entryFor, Ne.symm h]

theorem entryFor_eq_none {rs : List SwimMember} {x : String}
    (h : x ∉ rs.map (·.nodeId)) : entryFor rs x = none := by
  apply List.find?_eq_none.mpr
  intro r hr hid
  exact h (List.mem_map.mpr ⟨r, hr, by simpa using hid⟩)

theorem entryFor_of_mem {rs : List SwimMember} (hrs : OneEntryPerNode rs)
    {r : SwimMember} (hr : r ∈ rs) : entryFor rs r.nodeId = some r := by
  induction rs with
  | nil => cases hr
  | cons r' rs ih =>
      have hcons := List.nodup_cons.mp hrs
      rcases List.mem_cons.mp hr with rfl | hr'
      · exact entryFor_cons_self r rs
      · have hne : r.nodeId ≠ r'.nodeId := by
          intro heq
          exact hcons.1 (List.mem_map.mpr ⟨r, hr', heq⟩)
        rw [entryFor_cons_of_ne rs hne]
        exact ih hcons.2 hr'

/-- One snapshot has the node active and the other certifies it dead or left at
an incarnation that is not lower. -/
def Contested (a b : SwimMember) : Prop :=
  a.state.isActive = true ∧ b.state.isActive = false ∧ a.incarnation ≤ b.incarnation ∨
    b.state.isActive = true ∧ a.state.isActive = false ∧ b.incarnation ≤ a.incarnation

namespace SwimProtocol

/-! ## Views -/

/-- The view at an id after a table that holds `r?` for it. -/
def mergeEntry (v : WithBot Pair) (r? : Option SwimMember) : WithBot Pair :=
  match r? with
  | some r => mergeView v r.pair
  | none => v

theorem mergeView_bot (r : SwimMember) :
    mergeView ⊥ r.pair = if r.state.isActive then (r.pair : WithBot Pair) else ⊥ := by
  rw [mergeView, if_pos rfl]
  rfl

theorem mergeView_coe (p q : Pair) :
    mergeView (p : WithBot Pair) q = ((p ⊔ q : Pair) : WithBot Pair) := by
  rw [mergeView, if_neg WithBot.coe_ne_bot, WithBot.coe_sup]

theorem mergeView_idem (v : WithBot Pair) (r : SwimMember) :
    mergeView (mergeView v r.pair) r.pair = mergeView v r.pair := by
  induction v with
  | bot =>
      rw [mergeView_bot]
      split_ifs with hact
      · rw [mergeView_coe, sup_idem]
      · rw [mergeView_bot, if_neg hact]
  | coe p => rw [mergeView_coe, mergeView_coe, sup_assoc, sup_idem]

theorem mergeView_comm_of_known (p : Pair) (a b : SwimMember) :
    mergeView (mergeView (p : WithBot Pair) a.pair) b.pair =
      mergeView (mergeView (p : WithBot Pair) b.pair) a.pair := by
  rw [mergeView_coe, mergeView_coe, mergeView_coe, mergeView_coe, sup_right_comm]

/-- At equal incarnations a dead entry outranks an active one, so a death
certificate is absorbed only from below. -/
theorem sup_eq_left_iff_of_inactive {a b : SwimMember} (ha : a.state.isActive = true)
    (hb : b.state.isActive = false) :
    a.pair ⊔ b.pair = a.pair ↔ b.incarnation < a.incarnation := by
  rw [sup_eq_left, SwimMember.pair_le_pair]
  constructor
  · rintro (hlt | ⟨-, hle⟩)
    · exact hlt
    · have hact := (NodeState.isActive_iff _).mpr
        (hle.trans_lt ((NodeState.isActive_iff _).mp ha))
      rw [hb] at hact
      cases hact
  · exact Or.inl

theorem mergeView_comm_iff_of_unknown (a b : SwimMember) :
    mergeView (mergeView ⊥ a.pair) b.pair = mergeView (mergeView ⊥ b.pair) a.pair ↔
      ¬ Contested a b := by
  unfold Contested
  rw [mergeView_bot, mergeView_bot]
  cases ha : a.state.isActive with
  | true =>
      cases hb : b.state.isActive with
      | true =>
          rw [if_pos rfl, if_pos rfl, mergeView_coe, mergeView_coe]
          simp [sup_comm]
      | false =>
          rw [if_pos rfl, if_neg Bool.false_ne_true, mergeView_coe, mergeView_bot, ha,
            if_pos rfl, WithBot.coe_inj, sup_eq_left_iff_of_inactive ha hb]
          simp
  | false =>
      cases hb : b.state.isActive with
      | true =>
          rw [if_pos rfl, if_neg Bool.false_ne_true, mergeView_coe, mergeView_bot, hb,
            if_pos rfl, WithBot.coe_inj, eq_comm, sup_eq_left_iff_of_inactive hb ha]
          simp
      | false =>
          rw [if_neg Bool.false_ne_true, if_neg Bool.false_ne_true, mergeView_bot,
            mergeView_bot, ha, hb]
          simp

/-! ## Whole tables -/

theorem knows_mergeFullState (s : SwimProtocol) (rs : List SwimMember) (now : Nat)
    (hrs : OneEntryPerNode rs) {x : String} (hx : x ≠ s.localNodeId) :
    knows (s.mergeFullState rs now).members x =
      mergeEntry (knows s.members x) (entryFor rs x) := by
  change knows (run (fun s r => s.mergeMember r now) s rs).members x = _
  induction rs generalizing s with
  | nil => rfl
  | cons r rs ih =>
      have hcons := List.nodup_cons.mp hrs
      rw [run_cons, ih _ hcons.2 (by rwa [mergeMember_localNodeId]), knows_mergeMember]
      by_cases hid : x = r.nodeId
      · subst hid
        rw [if_pos ⟨rfl, hx⟩, entryFor_cons_self, entryFor_eq_none hcons.1]
        rfl
      · rw [if_neg (fun h => hid h.1), entryFor_cons_of_ne rs hid]

/-- The table has an entry for `r` that is at least as recent, or `r` is a death
certificate for a stranger, or `r` is about this node. -/
def Absorbed (s : SwimProtocol) (r : SwimMember) : Prop :=
  r.nodeId = s.localNodeId ∨
    mergeView (knows s.members r.nodeId) r.pair = knows s.members r.nodeId

theorem mergeMember_of_absorbed (s : SwimProtocol) (r : SwimMember) (now : Nat)
    (h : s.Absorbed r) : s.mergeMember r now = s := by
  unfold mergeMember
  by_cases hlocal : r.nodeId = s.localNodeId
  · rw [if_pos hlocal]
  · rw [if_neg hlocal]
    have hview := h.resolve_left hlocal
    cases hm : s.members.lookup r.nodeId with
    | none =>
        rw [knows_of_lookup_none hm, mergeView_bot] at hview
        dsimp only
        rw [if_neg]
        intro hact
        rw [if_pos hact] at hview
        exact WithBot.coe_ne_bot hview
    | some m =>
        rw [knows_of_lookup hm, mergeView_coe, WithBot.coe_inj, sup_eq_left,
          SwimMember.pair_le_pair] at hview
        dsimp only
        rcases hview with hlt | ⟨heq, hle⟩
        · rw [if_neg (by omega), if_neg (by omega)]
        · have hsev : ¬ m.state.priority < r.state.priority :=
            Nat.not_lt.mpr (NodeState.le_iff_priority.mp hle)
          rw [if_neg (by omega), if_pos heq, if_neg hsev]

theorem run_mergeMember_of_absorbed (s : SwimProtocol) (rs : List SwimMember) (now : Nat)
    (h : ∀ r ∈ rs, s.Absorbed r) : run (fun s r => s.mergeMember r now) s rs = s := by
  induction rs with
  | nil => rfl
  | cons r rs ih =>
      rw [run_cons, mergeMember_of_absorbed s r now (h r List.mem_cons_self)]
      exact ih fun r' hr' => h r' (List.mem_cons_of_mem r hr')

theorem absorbed_mergeFullState (s : SwimProtocol) (rs : List SwimMember) (now : Nat)
    (hrs : OneEntryPerNode rs) : ∀ r ∈ rs, (s.mergeFullState rs now).Absorbed r := by
  intro r hr
  by_cases hlocal : r.nodeId = s.localNodeId
  · left
    rw [hlocal, mergeFullState_localNodeId]
  · right
    rw [knows_mergeFullState s rs now hrs hlocal, entryFor_of_mem hrs hr]
    exact mergeView_idem _ r

theorem mergeFullState_members_idem (s : SwimProtocol) (rs : List SwimMember)
    (now now' : Nat) (hrs : OneEntryPerNode rs) :
    ((s.mergeFullState rs now).mergeFullState rs now').members =
      (s.mergeFullState rs now).members := by
  have hrun := run_mergeMember_of_absorbed (s.mergeFullState rs now) rs now'
    (absorbed_mergeFullState s rs now hrs)
  change (run _ (s.mergeFullState rs now) rs).members = _
  rw [hrun]

theorem mergeEntry_comm_iff (v : WithBot Pair) (a? b? : Option SwimMember) :
    mergeEntry (mergeEntry v a?) b? = mergeEntry (mergeEntry v b?) a? ↔
      ¬ (v = ⊥ ∧ ∃ a b, a? = some a ∧ b? = some b ∧ Contested a b) := by
  cases a? with
  | none => simp [mergeEntry]
  | some a =>
      cases b? with
      | none => simp [mergeEntry]
      | some b =>
          change mergeView (mergeView v a.pair) b.pair = mergeView (mergeView v b.pair) a.pair ↔ _
          induction v with
          | bot =>
              rw [mergeView_comm_iff_of_unknown]
              simp
          | coe p =>
              rw [mergeView_comm_of_known]
              simp

/-- Two remote tables merge to the same view of a peer in either order exactly
when the peer is known, or the tables do not contest it; and merging a table a
second time changes nothing. -/
theorem mergeFullState_converges (s : SwimProtocol) (A B : List SwimMember)
    (hA : OneEntryPerNode A) (hB : OneEntryPerNode B) (t₁ t₂ t₃ t₄ : Nat) :
    (∀ x, x ≠ s.localNodeId →
      (knows ((s.mergeFullState A t₁).mergeFullState B t₂).members x =
          knows ((s.mergeFullState B t₃).mergeFullState A t₄).members x ↔
        (x ∈ s.members ∨
          ∀ a ∈ A, ∀ b ∈ B, a.nodeId = x → b.nodeId = x → ¬ Contested a b))) ∧
      ((s.mergeFullState A t₁).mergeFullState A t₂).members =
        (s.mergeFullState A t₁).members := by
  refine ⟨?_, mergeFullState_members_idem s A t₁ t₂ hA⟩
  intro x hx
  have hxA : x ≠ (s.mergeFullState A t₁).localNodeId := by rwa [mergeFullState_localNodeId]
  have hxB : x ≠ (s.mergeFullState B t₃).localNodeId := by rwa [mergeFullState_localNodeId]
  rw [knows_mergeFullState _ B t₂ hB hxA, knows_mergeFullState s A t₁ hA hx,
    knows_mergeFullState _ A t₄ hA hxB, knows_mergeFullState s B t₃ hB hx,
    mergeEntry_comm_iff]
  constructor
  · intro h
    by_contra hcon
    rw [not_or] at hcon
    obtain ⟨hnot, hexists⟩ := hcon
    apply hexists
    intro a ha b hb hax hbx hab
    refine h ⟨knows_of_lookup_none (AList.lookup_eq_none.mpr hnot), a, b, ?_, ?_, hab⟩
    · rw [← hax]
      exact entryFor_of_mem hA ha
    · rw [← hbx]
      exact entryFor_of_mem hB hb
  · rintro (hmem | hnone) ⟨hbot, a, b, ha, hb, hab⟩
    · obtain ⟨m, hm⟩ := Option.isSome_iff_exists.mp (AList.lookup_isSome.mpr hmem)
      rw [knows_of_lookup hm] at hbot
      exact WithBot.coe_ne_bot hbot
    · exact hnone a (List.mem_of_find?_eq_some ha) b (List.mem_of_find?_eq_some hb)
        (entryFor_nodeId ha) (entryFor_nodeId hb) hab

/-- A peer that is known keeps a death certificate in either order. -/
theorem mergeFullState_converges_known :
    knows (((twoNodes 1 .alive).mergeFullState [SwimMember.new "n1" "10.0.0.2:9000" 0]
        1).mergeFullState [{ SwimMember.new "n1" "10.0.0.2:9000" 0 with
          incarnation := 1, state := .dead }] 2).members "n1" =
      knows (((twoNodes 1 .alive).mergeFullState [{ SwimMember.new "n1" "10.0.0.2:9000" 0 with
          incarnation := 1, state := .dead }] 1).mergeFullState
            [SwimMember.new "n1" "10.0.0.2:9000" 0] 2).members "n1" :=
  ((mergeFullState_converges (twoNodes 1 .alive) [SwimMember.new "n1" "10.0.0.2:9000" 0]
      [{ SwimMember.new "n1" "10.0.0.2:9000" 0 with incarnation := 1, state := .dead }]
      (by decide) (by decide) 1 2 1 2).1 "n1" (by decide)).mpr (Or.inl (by decide))

/-- A stranger that one table has alive and the other dead. -/
theorem not_mergeFullState_comm :
    ¬ ∀ (s : SwimProtocol) (A B : List SwimMember), OneEntryPerNode A → OneEntryPerNode B →
      ∀ (t₁ t₂ t₃ t₄ : Nat) (x : String), x ≠ s.localNodeId →
        knows ((s.mergeFullState A t₁).mergeFullState B t₂).members x =
          knows ((s.mergeFullState B t₃).mergeFullState A t₄).members x := by
  intro hclaim
  have hstranger := hclaim
    (SwimProtocol.new "local" "10.0.0.1:9000" (SwimConfig.default fun _ => 4000))
    [SwimMember.new "n1" "10.0.0.2:9000" 0]
    [{ SwimMember.new "n1" "10.0.0.2:9000" 0 with state := .dead }]
    (by decide) (by decide) 1 2 1 2 "n1" (by decide)
  exact absurd hstranger (by decide)

end SwimProtocol

end PlexSpaces.Swim
