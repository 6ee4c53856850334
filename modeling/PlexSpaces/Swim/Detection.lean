import PlexSpaces.Lib.Suspicion
import PlexSpaces.Swim.Standing

/-!
# What an operation does to one entry

An operation about one member leaves every other entry as it is, the clock readings included
(`lookup_perform_of_ne`).  A check for overdue suspects makes one dead just where its own timeout
has passed (`lookup_checkSuspectTimeouts`).
-/

namespace PlexSpaces.Swim

open PlexSpaces.Lib

/-- What an entry says of its member; a member that left is as good as dead. -/
def trust : Option SwimMember → Trust
  | some m =>
      match m.state with
      | .alive => .trusted
      | .suspect => .suspected m.stateChangedAt
      | .dead | .left => .dead m.stateChangedAt
  | none => .gone

namespace SwimProtocol

def TableOp.about : TableOp → Option String
  | .upsertMember member => some member.nodeId
  | .processAlive nodeId _ _ => some nodeId
  | .processSuspect nodeId _ => some nodeId
  | .suspectMember nodeId => some nodeId
  | .declareDead nodeId => some nodeId
  | .removeMemberSilently nodeId => some nodeId
  | _ => none

variable {s : SwimProtocol} {x : String}

theorem lookup_declareDead_of_ne {k : String} (hk : x ≠ k) (now : Nat) :
    (s.declareDead k now).members.lookup x = s.members.lookup x := by
  unfold declareDead
  cases s.members.lookup k with
  | none => rfl
  | some m =>
    dsimp only
    split
    · exact Assoc.lookup_insert_of_ne _ _ hk
    · rfl

theorem lookup_perform_of_ne {op : TableOp} {k : String} (hop : op.about = some k) (hk : x ≠ k)
    (now : Nat) : (s.perform (op, now)).members.lookup x = s.members.lookup x := by
  cases op with
  | upsertMember m =>
    cases hop
    show (s.upsertMember m now).members.lookup x = _
    unfold upsertMember
    cases s.members.lookup m.nodeId with
    | none => exact Assoc.lookup_insert_of_ne _ _ hk
    | some e =>
      dsimp only
      split
      · exact Assoc.lookup_insert_of_ne _ _ hk
      · rfl
  | processAlive k' inc addr =>
    cases hop
    show (s.processAlive k inc addr now).members.lookup x = _
    unfold processAlive
    cases s.members.lookup k with
    | none => exact Assoc.lookup_insert_of_ne _ _ hk
    | some e =>
      dsimp only
      split
      · exact Assoc.lookup_insert_of_ne _ _ hk
      · rfl
  | processSuspect k' inc =>
    cases hop
    show (s.processSuspect k inc now).members.lookup x = _
    unfold processSuspect
    split
    · rfl
    · cases s.members.lookup k with
      | none => rfl
      | some e => exact Assoc.lookup_insert_of_ne _ _ hk
  | suspectMember k' =>
    cases hop
    show (s.suspectMember k now).members.lookup x = _
    unfold suspectMember
    cases s.members.lookup k with
    | none => rfl
    | some e =>
      dsimp only
      split
      · exact Assoc.lookup_insert_of_ne _ _ hk
      · rfl
  | declareDead k' =>
    cases hop
    exact lookup_declareDead_of_ne hk now
  | removeMemberSilently k' =>
    cases hop
    exact AList.lookup_erase_ne hk
  | checkSuspectTimeouts => cases hop
  | applyUpdates us => cases hop
  | mergeFullState rs => cases hop
  | reapDeadNodes => cases hop

/-! ## Suspicion -/

def doubted (now : Nat) (m : SwimMember) : SwimMember :=
  if m.state = .alive then { m with state := .suspect, stateChangedAt := now } else m

theorem doubted_doubted (now now' : Nat) (m : SwimMember) :
    doubted now' (doubted now m) = doubted now m := by
  unfold doubted
  by_cases h : m.state = .alive
  · rw [if_pos h, if_neg (by simp)]
  · rw [if_neg h, if_neg h]

theorem lookup_suspectMember_self (now : Nat) :
    (s.suspectMember x now).members.lookup x = (s.members.lookup x).map (doubted now) := by
  unfold suspectMember
  cases hm : s.members.lookup x with
  | none => exact hm
  | some m =>
    dsimp only [Option.map_some]
    unfold doubted
    by_cases h : m.state = .alive
    · rw [if_pos h, if_pos h]
      exact Assoc.lookup_insert_self _ _ _
    · rw [if_neg h, if_neg h]
      exact hm

theorem trust_doubted (now : Nat) (m : SwimMember) :
    trust (some (doubted now m)) = (trust (some m)).suspect now := by
  cases hst : m.state <;> simp [trust, doubted, hst, Trust.suspect]

/-! ## Overdue suspects -/

def buried (now : Nat) (m : SwimMember) : SwimMember :=
  if m.state ≠ .dead ∧ m.state ≠ .left then { m with state := .dead, stateChangedAt := now } else m

theorem buried_buried (now : Nat) (m : SwimMember) : buried now (buried now m) = buried now m := by
  unfold buried
  by_cases h : m.state ≠ .dead ∧ m.state ≠ .left
  · rw [if_pos h, if_neg (by simp)]
  · rw [if_neg h, if_neg h]

theorem lookup_declareDead_self (now : Nat) :
    (s.declareDead x now).members.lookup x = (s.members.lookup x).map (buried now) := by
  unfold declareDead
  cases hm : s.members.lookup x with
  | none => exact hm
  | some m =>
    dsimp only [Option.map_some]
    unfold buried
    by_cases h : m.state ≠ .dead ∧ m.state ≠ .left
    · rw [if_pos h, if_pos h]
      exact Assoc.lookup_insert_self _ _ _
    · rw [if_neg h, if_neg h]
      exact hm

theorem lookup_run_declareDead (s : SwimProtocol) (now : Nat) (ks : List String) :
    (run (fun s k => s.declareDead k now) s ks).members.lookup x
      = if x ∈ ks then (s.members.lookup x).map (buried now) else s.members.lookup x := by
  induction ks generalizing s with
  | nil => rfl
  | cons k ks ih =>
    rw [run_cons, ih]
    by_cases hk : x = k
    · subst hk
      rw [if_pos List.mem_cons_self, lookup_declareDead_self]
      split
      · rw [Option.map_map]
        congr 1
        exact funext fun m => buried_buried now m
      · rfl
    · rw [lookup_declareDead_of_ne hk]
      simp only [List.mem_cons, hk, false_or]

theorem mem_toDeclareDead_iff (hkeyed : WellKeyed s.members) {now : Nat} :
    x ∈ s.toDeclareDead now ↔ ∃ m, s.members.lookup x = some m ∧ m.state = .suspect ∧
      s.config.suspicionTimeout s.clusterSize < now - m.stateChangedAt := by
  unfold toDeclareDead
  simp only [List.mem_map, List.mem_filter, Bool.and_eq_true, decide_eq_true_eq, Assoc.mem_values]
  constructor
  · rintro ⟨m, ⟨⟨k, hk⟩, hst, hover⟩, rfl⟩
    exact ⟨m, hkeyed k m hk ▸ hk, hst, hover⟩
  · rintro ⟨m, hm, hst, hover⟩
    exact ⟨m, ⟨⟨x, hm⟩, hst, hover⟩, hkeyed x m hm⟩

theorem trust_checkSuspectTimeouts (hkeyed : WellKeyed s.members) (now : Nat) :
    trust ((s.checkSuspectTimeouts now).members.lookup x)
      = (trust (s.members.lookup x)).check (s.config.suspicionTimeout s.clusterSize) now := by
  rw [checkSuspectTimeouts, lookup_run_declareDead]
  cases hm : s.members.lookup x with
  | none => simp [trust, Trust.check]
  | some m =>
    have hmem : x ∈ s.toDeclareDead now ↔ m.state = .suspect ∧
        s.config.suspicionTimeout s.clusterSize < now - m.stateChangedAt := by
      rw [mem_toDeclareDead_iff hkeyed, hm]
      simp
    by_cases hsus : m.state = .suspect
    · by_cases hover : s.config.suspicionTimeout s.clusterSize < now - m.stateChangedAt
      · rw [if_pos (hmem.2 ⟨hsus, hover⟩)]
        simp [trust, buried, hsus, Trust.check, hover]
      · rw [if_neg fun h => hover (hmem.1 h).2]
        simp [trust, hsus, Trust.check, hover]
    · rw [if_neg fun h => hsus (hmem.1 h).1]
      cases hst : m.state with
      | alive => simp [trust, hst, Trust.check]
      | suspect => exact absurd hst hsus
      | dead => simp [trust, hst, Trust.check]
      | left => simp [trust, hst, Trust.check]

theorem trust_reapDeadNodes (now : Nat) :
    trust ((s.reapDeadNodes now).members.lookup x)
      = (trust (s.members.lookup x)).reap s.config.deadNodeReapTimeout now := by
  rw [lookup_reapDeadNodes]
  cases hm : s.members.lookup x with
  | none => rfl
  | some m =>
    rw [Option.filter_some]
    unfold SwimMember.shouldReap
    cases hst : m.state with
    | alive => simp [trust, hst, Trust.reap, NodeState.isActive]
    | suspect => simp [trust, hst, Trust.reap, NodeState.isActive]
    | dead =>
      by_cases hover : s.config.deadNodeReapTimeout < now - m.stateChangedAt
      · simp [trust, hst, Trust.reap, NodeState.isActive, hover]
      · simp [trust, hst, Trust.reap, NodeState.isActive, hover]
    | left =>
      by_cases hover : s.config.deadNodeReapTimeout < now - m.stateChangedAt
      · simp [trust, hst, Trust.reap, NodeState.isActive, hover]
      · simp [trust, hst, Trust.reap, NodeState.isActive, hover]

end SwimProtocol

end PlexSpaces.Swim
