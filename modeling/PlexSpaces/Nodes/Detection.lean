import Mathlib.Data.List.Rotate
import PlexSpaces.Nodes.SwimLoop
import PlexSpaces.Swim.Detection

/-!
# Detecting a silent node

A node that nobody reaches any more is detected by the loop in three stages, and the loop does to
its entry what the rounds of a failure detector do (`trust_run`).  So it is declared dead just
where a tick has probed it in time and a later check finds it overdue
(`silent_member_detected`).

As long as the table keeps its members and its order, the loop takes them in turn, and any window
of as many events as there are members takes each of them once (`TakesTurns.window`).  Both timers
draw from one counter, so a turn may fall to a tick of the anti-entropy timer, and a member whose
turns all do is never probed (`TakesTurns.starved`).
-/

namespace PlexSpaces.Swim.SwimProtocol

open PlexSpaces.Lib

variable {s : SwimProtocol}

/-- The parts of the state that a loop does not write: the configuration, and between two turns
the counter. -/
structure Kept (s s' : SwimProtocol) : Prop where
  config : s'.config = s.config
  probeSequence : s'.probeSequence = s.probeSequence
  localNodeId : s'.localNodeId = s.localNodeId

theorem Kept.refl (s : SwimProtocol) : Kept s s := ⟨rfl, rfl, rfl⟩

theorem Kept.trans {s' s'' : SwimProtocol} (h : Kept s s') (h' : Kept s' s'') : Kept s s'' :=
  ⟨h'.config.trans h.config, h'.probeSequence.trans h.probeSequence,
    h'.localNodeId.trans h.localNodeId⟩

theorem kept_declareDead (k : String) (now : Nat) : Kept s (s.declareDead k now) := by
  unfold declareDead
  cases s.members.lookup k with
  | none => exact .refl s
  | some m =>
    dsimp only
    split <;> exact ⟨rfl, rfl, rfl⟩

theorem kept_perform {op : TableOp} {k : String} (hop : op.about = some k) (now : Nat) :
    Kept s (s.perform (op, now)) := by
  cases op with
  | upsertMember m =>
    show Kept s (s.upsertMember m now)
    unfold upsertMember
    cases s.members.lookup m.nodeId with
    | none => exact ⟨rfl, rfl, rfl⟩
    | some e =>
      dsimp only
      split <;> exact ⟨rfl, rfl, rfl⟩
  | processAlive k' inc addr =>
    show Kept s (s.processAlive k' inc addr now)
    unfold processAlive
    cases s.members.lookup k' with
    | none => exact ⟨rfl, rfl, rfl⟩
    | some e =>
      dsimp only
      split <;> exact ⟨rfl, rfl, rfl⟩
  | processSuspect k' inc =>
    show Kept s (s.processSuspect k' inc now)
    unfold processSuspect
    split
    · exact ⟨rfl, rfl, rfl⟩
    · cases s.members.lookup k' <;> exact ⟨rfl, rfl, rfl⟩
  | suspectMember k' =>
    show Kept s (s.suspectMember k' now)
    unfold suspectMember
    cases s.members.lookup k' with
    | none => exact .refl s
    | some e =>
      dsimp only
      split <;> exact ⟨rfl, rfl, rfl⟩
  | declareDead k' => exact kept_declareDead k' now
  | removeMemberSilently k' => exact ⟨rfl, rfl, rfl⟩
  | checkSuspectTimeouts => cases hop
  | applyUpdates us => cases hop
  | mergeFullState rs => cases hop
  | reapDeadNodes => cases hop

theorem kept_checkSuspectTimeouts (now : Nat) : Kept s (s.checkSuspectTimeouts now) :=
  run_invariant (I := fun s' : SwimProtocol => Kept s s')
    (fun k _ _ h => h.trans (kept_declareDead k now)) (.refl s)

theorem suspicionTimeout_le (c : SwimConfig) (n : Nat) : c.suspicionTimeout n ≤ c.suspicionMax :=
  min_le_right _ _

theorem le_suspicionTimeout (c : SwimConfig) (n : Nat) :
    min c.suspicionMin c.suspicionMax ≤ c.suspicionTimeout n :=
  min_le_min_right _ (le_max_right _ _)

end PlexSpaces.Swim.SwimProtocol

namespace PlexSpaces.Nodes

open PlexSpaces.Lib PlexSpaces.Swim
open PlexSpaces.Swim.SwimProtocol (TableOp)

/-- No ping reaches `x`, and nobody answers in its name. -/
structure Silent (net : Network) (x : String) : Prop where
  direct : ∀ target response, net.directPing target = .ok response →
    target.nodeId ≠ x ∧ response.resolvedNodeId target ≠ x
  indirect : ∀ i target, target.nodeId = x → (net.indirectPing i target).isOk = false

def LoopEvent.SilentFor (x : String) : LoopEvent → Prop
  | .protocol t => Silent t.net x
  | .antiEntropy _ => True

namespace NodeRegistry

variable {σ : Type} (reg : ObjectRegistry σ) {s : NodeRegistry σ} {x : String}

/-! ## What a probe does to the table -/

/-- The table of `s'` comes from that of `s` by operations about the members of `ids`. -/
def ReachedBy (ids : List String) (s s' : NodeRegistry σ) : Prop :=
  ∃ ops : List (TableOp × Nat), s'.swim = run SwimProtocol.perform s.swim ops ∧
    ∀ a ∈ ops, ∃ k ∈ ids, a.1.about = some k

namespace ReachedBy

variable {ids : List String} {s' s'' : NodeRegistry σ}

theorem refl (h : s'.swim = s.swim) : ReachedBy ids s s' := ⟨[], h, by simp⟩

theorem trans (h : ReachedBy ids s s') (h' : ReachedBy ids s' s'') : ReachedBy ids s s'' := by
  obtain ⟨ops, hs, hops⟩ := h
  obtain ⟨ops', hs', hops'⟩ := h'
  refine ⟨ops ++ ops', by rw [hs', hs, run_append], fun a ha => ?_⟩
  rcases List.mem_append.1 ha with ha | ha
  · exact hops a ha
  · exact hops' a ha

theorem onSwim {op : TableOp} {k : String} (hk : k ∈ ids) (hop : op.about = some k)
    (clock : Clock) : ReachedBy ids s (s.onSwim op clock) :=
  ⟨[(op, clock.now)], rfl, by simpa using ⟨k, hk, hop⟩⟩

theorem lookup (h : ReachedBy ids s s') (hx : x ∉ ids) :
    s'.swim.members.lookup x = s.swim.members.lookup x := by
  obtain ⟨ops, hs, hops⟩ := h
  rw [hs]
  apply run_invariant (I := fun t : SwimProtocol => t.members.lookup x = s.swim.members.lookup x)
  · intro a ha t ht
    obtain ⟨k, hk, hop⟩ := hops a ha
    have hne : x ≠ k := by
      rintro rfl
      exact hx hk
    exact (SwimProtocol.lookup_perform_of_ne hop hne a.2).trans ht
  · rfl

theorem kept (h : ReachedBy ids s s') : SwimProtocol.Kept s.swim s'.swim := by
  obtain ⟨ops, hs, hops⟩ := h
  rw [hs]
  apply run_invariant (I := fun t : SwimProtocol => SwimProtocol.Kept s.swim t)
  · intro a ha t ht
    obtain ⟨k, -, hop⟩ := hops a ha
    exact ht.trans (SwimProtocol.kept_perform hop a.2)
  · exact .refl s.swim

end ReachedBy

theorem reachedBy_unregisterDiscoveredNode {ids : List String} {nodeId : String}
    (h : nodeId ∈ ids) (clock : Clock) :
    ReachedBy ids s (unregisterDiscoveredNode reg s nodeId clock) := by
  unfold unregisterDiscoveredNode
  dsimp only
  split
  · have hremoved : ReachedBy ids s (s.onSwim (.removeMemberSilently nodeId) clock) :=
      ReachedBy.onSwim h rfl clock
    exact hremoved.trans (.refl rfl)
  · have hdead : ReachedBy ids s (s.onSwim (.declareDead nodeId) clock) :=
      ReachedBy.onSwim h rfl clock
    exact hdead.trans (.refl rfl)

theorem reachedBy_reconcilePingResponse {target : SwimMember} {response : PingResponse}
    (localCluster : String) (clock : Clock) :
    ReachedBy [target.nodeId, response.resolvedNodeId target] s
      (reconcilePingResponse reg s target response localCluster clock).2 := by
  have hupsert : ∀ s : NodeRegistry σ,
      ReachedBy [target.nodeId, response.resolvedNodeId target] s (s.onSwim
        (.upsertMember (memberFor (response.registration target localCluster clock) clock))
        clock) :=
    fun s => ReachedBy.onSwim (k := response.resolvedNodeId target) (by simp) rfl clock
  unfold reconcilePingResponse
  split
  · exact reachedBy_unregisterDiscoveredNode reg (by simp) clock
  · dsimp only
    split
    · exact (reachedBy_unregisterDiscoveredNode reg (by simp) clock).trans
        ((hupsert _).trans (.refl rfl))
    · exact (hupsert _).trans (.refl rfl)

/-- The members a probe is about: its target, and who answers the direct ping. -/
def Concerns (net : Network) (target : SwimMember) (k : String) : Prop :=
  k = target.nodeId ∨ ∃ response, net.directPing target = .ok response ∧
    k = response.resolvedNodeId target

theorem not_concerns {net : Network} (hsilent : Silent net x) {target : SwimMember}
    (hne : target.nodeId ≠ x) : ¬ Concerns net target x := by
  rintro (rfl | ⟨response, hping, rfl⟩)
  · exact hne rfl
  · exact (hsilent.direct target response hping).2 rfl

theorem reachedBy_probeNode (net : Network) (target : SwimMember) (localCluster : String)
    (clock : Clock) :
    ∃ ids, target.nodeId ∈ ids ∧ (∀ k ∈ ids, Concerns net target k) ∧
      ReachedBy ids s (probeNode reg s net target localCluster clock).2 := by
  unfold probeNode
  cases hping : net.directPing target with
  | ok response =>
    refine ⟨[target.nodeId, response.resolvedNodeId target], by simp, ?_, ?_⟩
    · intro k hk
      rcases List.mem_pair.1 hk with rfl | rfl
      · exact Or.inl rfl
      · exact Or.inr ⟨response, hping, rfl⟩
    · have h : ReachedBy [target.nodeId, response.resolvedNodeId target] s
          (reconcilePingResponse reg s target response localCluster clock).2 :=
        reachedBy_reconcilePingResponse reg localCluster clock
      dsimp only
      split
      · next heq =>
        rw [heq] at h
        exact h
      · next heq =>
        rw [heq] at h
        exact h
  | error e =>
    refine ⟨[target.nodeId], by simp, fun k hk => Or.inl (List.mem_singleton.1 hk), ?_⟩
    dsimp only
    split
    · exact ReachedBy.onSwim (by simp) rfl clock
    · split
      · exact ReachedBy.onSwim (by simp) rfl clock
      · exact ReachedBy.onSwim (by simp) rfl clock

/-- A whole turn is about the same members as its probe. -/
theorem reachedBy_probeTarget (t : ProtocolTick) (target : SwimMember) :
    ∃ ids, (∀ k ∈ ids, Concerns t.net target k) ∧
      ReachedBy ids s (s.probeTarget reg t target) := by
  obtain ⟨ids, htarget, hids, hprobe⟩ :=
    reachedBy_probeNode reg (s := s) t.net target s.localCluster t.probedAt
  refine ⟨ids, hids, ?_⟩
  unfold probeTarget
  split
  · split
    · next heq =>
      rw [heq] at hprobe
      exact hprobe.trans (ReachedBy.onSwim htarget rfl t.suspectedAt)
    · next heq =>
      rw [heq] at hprobe
      exact hprobe
  · exact .refl rfl

theorem probeNode_of_silent {net : Network} (hsilent : Silent net x) {target : SwimMember}
    (hx : target.nodeId = x) (localCluster : String) (clock : Clock) :
    probeNode reg s net target localCluster clock
      = (.suspect, s.onSwim (.suspectMember x) clock) := by
  unfold probeNode
  cases hping : net.directPing target with
  | ok response => exact absurd hx (hsilent.direct target response hping).1
  | error e =>
    have hnone : ¬ ((s.swim.selectIndirectTargets net.shuffle target.nodeId).any
        fun i => (net.indirectPing i target).isOk) = true := by
      simp [hsilent.indirect _ target hx]
    dsimp only
    rw [if_neg hnone, ite_self, hx]

/-! ## What a tick does to one entry -/

/-- The tick probes `x`. -/
def Hits (s : NodeRegistry σ) (x : String) (t : ProtocolTick) : Bool :=
  (s.takeTurn t.walk).1.any fun target =>
    decide (target.nodeId = x) && shouldProbeMember target t.selectedAt

/-- What a tick of the protocol timer means for `x`. -/
def detectionRound (s : NodeRegistry σ) (x : String) (t : ProtocolTick) : DetectionRound where
  hit := s.Hits x t
  probed := t.probedAt.now
  timeout := (s.probeTurn reg t).swim.config.suspicionTimeout (s.probeTurn reg t).swim.clusterSize
  checked := t.checkedAt.now
  reapAfter := s.swim.config.deadNodeReapTimeout
  reaped := t.reapedAt.now

theorem takeTurn_members (walk : IterationOrder) :
    (s.takeTurn walk).2.swim.members = s.swim.members :=
  SwimProtocol.selectProbeTargetIn_members _ _

theorem lookup_of_takeTurn {walk : IterationOrder} {target : SwimMember}
    (h : (s.takeTurn walk).1 = some target) :
    s.swim.members.lookup target.nodeId = some target := by
  have hmem := SwimProtocol.mem_probeCandidates_of_select h
  have hactive := SwimProtocol.mem_activeMembers.1 (List.mem_filter.1 hmem).1
  obtain ⟨k, hk⟩ := hactive.1
  rwa [s.keyed k target hk]

theorem kept_probeTarget (t : ProtocolTick) (target : SwimMember) :
    SwimProtocol.Kept s.swim (s.probeTarget reg t target).swim := by
  obtain ⟨ids, -, hprobe⟩ := s.reachedBy_probeTarget reg t target
  exact hprobe.kept

theorem lookup_probeTarget_of_ne {t : ProtocolTick} (hsilent : Silent t.net x)
    {target : SwimMember} (hne : target.nodeId ≠ x) :
    (s.probeTarget reg t target).swim.members.lookup x = s.swim.members.lookup x := by
  obtain ⟨ids, hids, hprobe⟩ := s.reachedBy_probeTarget reg t target
  exact hprobe.lookup fun hx => not_concerns hsilent hne (hids x hx)

/-- What a tick does after its turn is taken leaves the counter alone. -/
theorem kept_probeTurn (t : ProtocolTick) :
    SwimProtocol.Kept (s.takeTurn t.walk).2.swim (s.probeTurn reg t).swim := by
  unfold probeTurn
  cases s.takeTurn t.walk with
  | mk picked s' =>
    cases picked with
    | none => exact .refl s'.swim
    | some target => exact s'.kept_probeTarget reg t target

theorem kept_protocolTick (t : ProtocolTick) :
    SwimProtocol.Kept (s.takeTurn t.walk).2.swim (s.protocolTick reg t).swim :=
  (s.kept_probeTurn reg t).trans
    ((SwimProtocol.kept_checkSuspectTimeouts _).trans ⟨rfl, rfl, rfl⟩)

theorem takeTurn_config (walk : IterationOrder) :
    (s.takeTurn walk).2.swim.config = s.swim.config :=
  SwimProtocol.selectProbeTargetIn_config _ _

theorem probeTurn_config (t : ProtocolTick) : (s.probeTurn reg t).swim.config = s.swim.config :=
  (s.kept_probeTurn reg t).config.trans (s.takeTurn_config t.walk)

theorem protocolTick_config (t : ProtocolTick) :
    (s.protocolTick reg t).swim.config = s.swim.config :=
  (s.kept_protocolTick reg t).config.trans (s.takeTurn_config t.walk)

theorem trust_probeTarget_self {t : ProtocolTick} (hsilent : Silent t.net x)
    {target : SwimMember} (hx : target.nodeId = x) (hentry : s.swim.members.lookup x = some target)
    (hage : shouldProbeMember target t.selectedAt = true) :
    trust ((s.probeTarget reg t target).swim.members.lookup x)
      = (trust (some target)).suspect t.probedAt.now := by
  unfold probeTarget
  rw [if_pos hage, probeNode_of_silent reg hsilent hx]
  dsimp only
  rw [hx, ← SwimProtocol.trust_doubted]
  have hfirst : (s.onSwim (.suspectMember x) t.probedAt).swim.members.lookup x
      = some (SwimProtocol.doubted t.probedAt.now target) := by
    show (s.swim.suspectMember x t.probedAt.now).members.lookup x = _
    rw [SwimProtocol.lookup_suspectMember_self, hentry]
    rfl
  calc trust (((s.onSwim (.suspectMember x) t.probedAt).swim.suspectMember x
        t.suspectedAt.now).members.lookup x)
      = trust ((some (SwimProtocol.doubted t.probedAt.now target)).map
          (SwimProtocol.doubted t.suspectedAt.now)) := by
        rw [SwimProtocol.lookup_suspectMember_self, hfirst]
    _ = trust (some (SwimProtocol.doubted t.probedAt.now target)) := by
        rw [Option.map_some, SwimProtocol.doubted_doubted]

theorem trust_probeTurn {t : ProtocolTick} (hsilent : Silent t.net x) :
    trust ((s.probeTurn reg t).swim.members.lookup x)
      = if s.Hits x t then (trust (s.swim.members.lookup x)).suspect t.probedAt.now
        else trust (s.swim.members.lookup x) := by
  have hmembers := s.takeTurn_members t.walk
  have hlookup (target : SwimMember) (h : (s.takeTurn t.walk).1 = some target) :
      s.swim.members.lookup target.nodeId = some target := s.lookup_of_takeTurn h
  unfold probeTurn Hits
  cases hsel : s.takeTurn t.walk with
  | mk picked s' =>
    rw [hsel] at hmembers hlookup
    dsimp only at hmembers hlookup
    cases picked with
    | none =>
      dsimp only
      rw [hmembers]
      rfl
    | some target =>
      dsimp only [Option.any_some]
      by_cases hx : target.nodeId = x
      · have hentry : s.swim.members.lookup x = some target := hx ▸ hlookup target rfl
        by_cases hage : shouldProbeMember target t.selectedAt = true
        · rw [if_pos (by simp [hx, hage]), hentry]
          exact s'.trust_probeTarget_self reg hsilent hx (hmembers ▸ hentry) hage
        · rw [if_neg (by simp [hage]), ← hmembers]
          unfold probeTarget
          rw [if_neg hage]
      · rw [if_neg (by simp [hx]), s'.lookup_probeTarget_of_ne reg hsilent hx, hmembers]

/-- The step lemma: a tick is one round of the detector. -/
theorem trust_protocolTick {t : ProtocolTick} (hsilent : Silent t.net x) :
    trust ((s.protocolTick reg t).swim.members.lookup x)
      = (trust (s.swim.members.lookup x)).round (s.detectionRound reg x t) := by
  have hprobe := s.trust_probeTurn reg hsilent
  have hconfig : ((s.probeTurn reg t).onSwim .checkSuspectTimeouts t.checkedAt).swim.config
      = s.swim.config :=
    (SwimProtocol.kept_checkSuspectTimeouts _).config.trans (s.probeTurn_config reg t)
  have hcheck : trust (((s.probeTurn reg t).onSwim .checkSuspectTimeouts
      t.checkedAt).swim.members.lookup x) = _ :=
    SwimProtocol.trust_checkSuspectTimeouts (s.probeTurn reg t).keyed t.checkedAt.now
  calc trust ((s.protocolTick reg t).swim.members.lookup x)
      = (trust (((s.probeTurn reg t).onSwim .checkSuspectTimeouts
          t.checkedAt).swim.members.lookup x)).reap s.swim.config.deadNodeReapTimeout
          t.reapedAt.now := by
        rw [← hconfig]
        exact SwimProtocol.trust_reapDeadNodes _
    _ = (trust (s.swim.members.lookup x)).round (s.detectionRound reg x t) := by
        rw [hcheck, hprobe]
        rfl

/-! ## Whole runs -/

/-- The rounds that a run of the loop amounts to. -/
def rounds (x : String) : NodeRegistry σ → List LoopEvent → List DetectionRound
  | _, [] => []
  | s, .protocol t :: es =>
      s.detectionRound reg x t :: rounds x (s.protocolTick reg t) es
  | s, .antiEntropy walk :: es => rounds x (s.takeTurn walk).2 es

/-- The run lemma: what becomes of a silent node is what becomes of a member of the detector. -/
theorem trust_run {es : List LoopEvent} (hsilent : ∀ e ∈ es, e.SilentFor x) :
    trust ((run (loopStep reg) s es).swim.members.lookup x)
      = run Trust.round (trust (s.swim.members.lookup x)) (s.rounds reg x es) := by
  induction es generalizing s with
  | nil => rfl
  | cons e es ih =>
    obtain ⟨he, hes⟩ := List.forall_mem_cons.1 hsilent
    rw [run_cons, ih hes]
    cases e with
    | protocol t =>
      show run Trust.round (trust ((s.protocolTick reg t).swim.members.lookup x)) _ = _
      rw [s.trust_protocolTick reg he]
      rfl
    | antiEntropy walk =>
      show run Trust.round (trust ((s.takeTurn walk).2.swim.members.lookup x)) _ = _
      rw [s.takeTurn_members walk]
      rfl

/-- Every check of a run goes by a timeout within the configured bounds. -/
theorem timeout_of_mem_rounds {es : List LoopEvent} {r : DetectionRound}
    (h : r ∈ s.rounds reg x es) :
    min s.swim.config.suspicionMin s.swim.config.suspicionMax ≤ r.timeout ∧
      r.timeout ≤ s.swim.config.suspicionMax := by
  induction es generalizing s with
  | nil => cases h
  | cons e es ih =>
    cases e with
    | protocol t =>
      rcases List.mem_cons.1 h with rfl | h
      · show min _ _ ≤ (s.probeTurn reg t).swim.config.suspicionTimeout _ ∧
          (s.probeTurn reg t).swim.config.suspicionTimeout _ ≤ _
        rw [s.probeTurn_config reg t]
        exact ⟨SwimProtocol.le_suspicionTimeout _ _, SwimProtocol.suspicionTimeout_le _ _⟩
      · rw [← s.protocolTick_config reg t]
        exact ih h
    | antiEntropy walk =>
      rw [← s.takeTurn_config walk]
      exact ih h

/-- What the loop makes of a silent node, exactly. -/
structure DetectsSilent (s : NodeRegistry σ) (x : String) (es : List LoopEvent) : Prop where
  /-- It is trusted as long as no tick probes it, -/
  trusted_iff : trust ((run (loopStep reg) s es).swim.members.lookup x) = .trusted ↔
    ∀ r ∈ s.rounds reg x es, r.hit = false
  /-- and it is declared dead once a check finds overdue the suspicion of its first probe. -/
  declared_iff : (trust ((run (loopStep reg) s es).swim.members.lookup x)).Declared ↔
    ∃ r after, Trust.FirstHit (s.rounds reg x es) r after ∧
      ∃ f ∈ r :: after, f.Overdue r.probed
  /-- Never before the shortest timeout has passed, and at the first check after the longest. -/
  timeouts : ∀ r ∈ s.rounds reg x es,
    min s.swim.config.suspicionMin s.swim.config.suspicionMax ≤ r.timeout ∧
      r.timeout ≤ s.swim.config.suspicionMax

/-- In any run of the loop a node that nobody reaches is detected as the rounds say. -/
theorem silent_member_detected (s : NodeRegistry σ) (x : String) (es : List LoopEvent)
    (hentry : trust (s.swim.members.lookup x) = .trusted)
    (hsilent : ∀ e ∈ es, e.SilentFor x) : s.DetectsSilent reg x es where
  trusted_iff := by
    rw [s.trust_run reg hsilent, hentry]
    exact Trust.trusted_iff
  declared_iff := by
    rw [s.trust_run reg hsilent, hentry]
    exact Trust.declared_iff
  timeouts _ hr := s.timeout_of_mem_rounds reg hr

/-! ## A node that goes silent -/

def onePeer : NodeRegistry (List ObjectRegistration) :=
  (NodeRegistry.new [] "local" "10.0.0.1:9000" "" (SwimConfig.default fun _ => 4000)
    ⟨30 * 10 ^ 9, false, 10⟩).onSwim (.upsertMember (SwimMember.new "n1" "10.0.0.2:9000" 0)) ⟨0, 0⟩

def deafTick (now : Nat) : ProtocolTick where
  walk := ⟨id, List.Perm.refl⟩
  net := ⟨fun _ => .error "unreachable", fun _ _ => .error "unreachable", id⟩
  selectedAt := now
  probedAt := ⟨now, now⟩
  suspectedAt := ⟨now, now⟩
  checkedAt := ⟨now, now⟩
  reapedAt := ⟨now, now⟩

theorem silent_deafTick (now : Nat) (x : String) : Silent (deafTick now).net x where
  direct _ _ h := by cases h
  indirect _ _ _ := rfl

theorem silent_member_detected_onePeer :
    onePeer.DetectsSilent listRegistry "n1"
      [.protocol (deafTick (10 ^ 9)), .protocol (deafTick (60 * 10 ^ 9))] :=
  silent_member_detected listRegistry onePeer "n1" _ rfl (by
    intro e he
    rcases List.mem_pair.1 he with rfl | rfl
    · exact silent_deafTick _ _
    · exact silent_deafTick _ _)

end NodeRegistry

end PlexSpaces.Nodes

/-!
## Whose turn it is
-/

namespace PlexSpaces.Nodes

open PlexSpaces.Lib PlexSpaces.Swim

def LoopEvent.walk : LoopEvent → IterationOrder
  | .protocol t => t.walk
  | .antiEntropy walk => walk

namespace NodeRegistry

variable {σ : Type} (reg : ObjectRegistry σ) {s : NodeRegistry σ}

def turn (s : NodeRegistry σ) (e : LoopEvent) : Option String :=
  (s.takeTurn e.walk).1.map SwimMember.nodeId

def turns : NodeRegistry σ → List LoopEvent → List (Option String)
  | _, [] => []
  | s, e :: es => s.turn e :: turns (s.loopStep reg e) es

/-- The members that can be dialled are these, in this order. -/
def Steady (ids : List String) (s : NodeRegistry σ) (e : LoopEvent) : Prop :=
  (e.walk.order s.swim.probeCandidates).map SwimMember.nodeId = ids

variable {ids : List String} {e : LoopEvent}

theorem turn_of_steady (hids : ids ≠ []) (h : s.Steady ids e) :
    s.turn e = ids[s.swim.probeSequence % ids.length]? := by
  have hne : (e.walk.order s.swim.probeCandidates).isEmpty = false := by
    rw [← Bool.not_eq_true, List.isEmpty_iff]
    intro hnil
    rw [Steady, hnil] at h
    exact hids h.symm
  unfold turn takeTurn SwimProtocol.selectProbeTargetIn
  dsimp only
  rw [if_neg (by simp [hne]), ← h, List.getElem?_map, List.length_map]

theorem probeSequence_loopStep (hids : ids ≠ []) (h : s.Steady ids e) :
    (s.loopStep reg e).swim.probeSequence = (s.swim.probeSequence + 1) % 2 ^ 64 := by
  have hne : (e.walk.order s.swim.probeCandidates).isEmpty = false := by
    rw [← Bool.not_eq_true, List.isEmpty_iff]
    intro hnil
    rw [Steady, hnil] at h
    exact hids h.symm
  have hturn : (s.takeTurn e.walk).2.swim.probeSequence = (s.swim.probeSequence + 1) % 2 ^ 64 := by
    unfold takeTurn SwimProtocol.selectProbeTargetIn
    dsimp only
    rw [if_neg (by simp [hne])]
  cases e with
  | protocol t => exact (s.kept_protocolTick reg t).probeSequence.trans hturn
  | antiEntropy walk => exact hturn

theorem getElem?_turns (hids : ids ≠ []) {es : List LoopEvent}
    (hsteady : Along (loopStep reg) (Steady ids) s es)
    (hcounter : s.swim.probeSequence + es.length ≤ 2 ^ 64) {i : Nat} (hi : i < es.length) :
    (s.turns reg es)[i]? = some ids[(s.swim.probeSequence + i) % ids.length]? := by
  induction es generalizing s i with
  | nil => cases hi
  | cons e es ih =>
    obtain ⟨he, hes⟩ := hsteady
    simp only [List.length_cons] at hcounter hi
    cases i with
    | zero =>
      show some (s.turn e) = _
      rw [turn_of_steady hids he, Nat.add_zero]
    | succ i =>
      have hnext := s.probeSequence_loopStep reg hids he
      rcases Nat.eq_zero_or_pos es.length with hnil | hpos
      · omega
      · rw [Nat.mod_eq_of_lt (by omega)] at hnext
        show ((s.loopStep reg e).turns reg es)[i]? = _
        rw [ih hes (by omega) (by omega), hnext, Nat.add_assoc, Nat.add_comm 1 i]

/-- A round that hits `x` is a tick of the protocol timer at a turn of `x`. -/
theorem exists_turn_of_hit {x : String} {es : List LoopEvent} {r : DetectionRound}
    (hr : r ∈ s.rounds reg x es) (hhit : r.hit = true) :
    ∃ (i : Nat) (t : ProtocolTick),
      es[i]? = some (.protocol t) ∧ (s.turns reg es)[i]? = some (some x) := by
  induction es generalizing s with
  | nil => cases hr
  | cons e es ih =>
    cases e with
    | protocol t =>
      rcases List.mem_cons.1 hr with rfl | hr
      · refine ⟨0, t, rfl, ?_⟩
        have hx : (s.takeTurn t.walk).1.any (fun target => decide (target.nodeId = x) &&
            shouldProbeMember target t.selectedAt) = true := hhit
        show some ((s.takeTurn t.walk).1.map SwimMember.nodeId) = some (some x)
        cases hsel : (s.takeTurn t.walk).1 with
        | none =>
          rw [hsel] at hx
          cases hx
        | some target =>
          rw [hsel, Option.any_some, Bool.and_eq_true, decide_eq_true_eq] at hx
          rw [Option.map_some, hx.1]
      · obtain ⟨i, t', ht', hi⟩ := ih hr
        exact ⟨i + 1, t', ht', hi⟩
    | antiEntropy walk =>
      obtain ⟨i, t', ht', hi⟩ := ih hr
      exact ⟨i + 1, t', ht', hi⟩

/-- How a steady table is gone through. -/
structure TakesTurns (s : NodeRegistry σ) (ids : List String) (es : List LoopEvent) : Prop where
  /-- Any window of as many events as there are members takes each of them once, -/
  window : ∀ k, k + ids.length ≤ es.length →
    (((s.turns reg es).drop k).take ids.length).Perm (ids.map some)
  /-- and a member whose turns all fall to the anti-entropy timer is never probed. -/
  starved : ∀ x, (∀ (i : Nat) (t : ProtocolTick), es[i]? = some (.protocol t) →
      ids[(s.swim.probeSequence + i) % ids.length]? ≠ some x) →
    ∀ r ∈ s.rounds reg x es, r.hit = false

/-- The loop takes turns as long as the table is steady and the counter does not wrap. -/
theorem loop_takes_turns (s : NodeRegistry σ) (ids : List String) (es : List LoopEvent)
    (hids : ids ≠ []) (hsteady : Along (loopStep reg) (Steady ids) s es)
    (hcounter : s.swim.probeSequence + es.length ≤ 2 ^ 64) : s.TakesTurns reg ids es where
  window k hk := by
    have hrot : ((s.turns reg es).drop k).take ids.length
        = (ids.rotate (s.swim.probeSequence + k)).map some := by
      apply List.ext_getElem?
      intro i
      rw [List.getElem?_map]
      rcases Nat.lt_or_ge i ids.length with hi | hi
      · have hmod : (s.swim.probeSequence + (k + i)) % ids.length < ids.length :=
          Nat.mod_lt _ (by omega)
        rw [List.getElem?_take_of_lt hi, List.getElem?_drop,
          s.getElem?_turns reg hids hsteady hcounter (by omega), List.getElem?_rotate hi,
          show i + (s.swim.probeSequence + k) = s.swim.probeSequence + (k + i) by omega,
          List.getElem?_eq_getElem hmod]
        rfl
      · rw [List.getElem?_eq_none (by simp; omega), List.getElem?_eq_none (by simpa using hi)]
        rfl
    rw [hrot]
    exact (List.rotate_perm _ _).map _
  starved x hx r hr := by
    by_contra hhit
    obtain ⟨i, t, ht, hi⟩ := s.exists_turn_of_hit reg hr (by simpa using hhit)
    have hlt : i < es.length := (List.getElem?_eq_some_iff.1 ht).1
    rw [s.getElem?_turns reg hids hsteady hcounter hlt] at hi
    exact hx i t ht (Option.some.inj hi)

def twoPeers : NodeRegistry (List ObjectRegistration) :=
  onePeer.onSwim (.upsertMember (SwimMember.new "n2" "10.0.0.3:9000" 0)) ⟨0, 0⟩

/-- The timers alternate, so one of the two members is never probed. -/
def alternating : List LoopEvent :=
  [.protocol (deafTick (10 ^ 9)), .antiEntropy ⟨id, List.Perm.refl⟩,
    .protocol (deafTick (2 * 10 ^ 9)), .antiEntropy ⟨id, List.Perm.refl⟩]

theorem loop_takes_turns_twoPeers :
    twoPeers.TakesTurns listRegistry ["n2", "n1"] alternating :=
  loop_takes_turns listRegistry twoPeers ["n2", "n1"] alternating (by simp)
    ⟨rfl, rfl, rfl, rfl, trivial⟩ (by decide)

end NodeRegistry

end PlexSpaces.Nodes
