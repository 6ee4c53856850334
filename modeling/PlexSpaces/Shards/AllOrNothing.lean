import PlexSpaces.Lib.Run
import PlexSpaces.Shards.CreateGroup
/-!
# Shard groups are created wholly or not at all

A call that leaves the loop through `?` leaves its earlier shards running, and a rollback
stops local actors only.  The group map is looked at before the spawns and written after
them without another look, so two calls can create one group (`not_creates_wholly`).

A call leaves nothing behind as long as it has nothing running when it leaves through `?`,
has only local shards when it rolls back, and no spawn that fails has started its actor; and
one call at most creates a group if no insert finds it there (`creates_wholly`).
-/

namespace PlexSpaces.Shards

open PlexSpaces.Lib PlexSpaces.Actors

def Phase.group : Phase → Option ShardGroup
  | .returned (.ok group) => some group
  | _ => none

def Phase.config : Phase → Option ShardGroupConfig
  | .checked config => some config
  | .spawning loop => some loop.config
  | .created group => some group.config
  | .returned (.ok group) => some group.config
  | _ => none

def parsesToNode (nodeId actorId : String) : Bool :=
  match ActorId.fromCanonical actorId with
  | .ok id => id.nodeId == nodeId
  | .error _ => false

def Stoppable (localNodeId : String) (a : Actor) : Prop :=
  a.1 = localNodeId ∧ parsesToNode localNodeId a.2.asStr

instance (localNodeId : String) (a : Actor) : Decidable (Stoppable localNodeId a) :=
  inferInstanceAs (Decidable (_ ∧ _))

/-- A turn that leaves the loop has started nothing.  It comes before any shard, or it rolls
back shards that the rollback reaches. -/
def LeavesNothing (localNodeId : String) (started running : List Actor) : SpawnResult → Prop
  | .pushed _ => True
  | .exit _ => started = [] ∧ running = []
  | .rollback _ => started = [] ∧ ∀ a ∈ running, Stoppable localNodeId a

instance (localNodeId : String) (started running : List Actor) (result : SpawnResult) :
    Decidable (LeavesNothing localNodeId started running result) :=
  match result with
  | .pushed _ => isTrue trivial
  | .exit _ => inferInstanceAs (Decidable (_ ∧ _))
  | .rollback _ => inferInstanceAs (Decidable (_ ∧ _))

namespace Service

variable {ι : Type} (service : Service ι)

def groupId (i : ι) : Option String := (service.request i).config.map ShardGroupConfig.groupId

/-- No call that failed has a running shard, and the entry of a group changes only where a
call on it returned `Ok`. -/
structure AllOrNothing (groups : Assoc String ShardGroup) (w : World ι) : Prop where
  stopped : ∀ i e, (w.calls i).phase = .returned (.error e) → (w.calls i).running = []
  unchanged : ∀ key, w.groups.lookup key = groups.lookup key ∨
    ∃ i, (w.calls i).phase.group.isSome ∧ service.groupId i = some key

/-- Of the calls on one group at most one has returned `Ok`. -/
def Exclusive (w : World ι) : Prop :=
  ∀ i j, (w.calls i).phase.group.isSome → (w.calls j).phase.group.isSome →
    service.groupId i = service.groupId j → i = j

/-- The next turn of a call, if it leaves the loop, leaves nothing behind. -/
def TurnLeavesNothing (i : ι) (answer : SpawnAnswer) (running : List Actor) : Phase → Prop
  | .spawning loop =>
      LeavesNothing service.localNodeId
        (startedActor service.localNodeId (service.nsName i) loop answer) running
        (spawnShard service.localNodeId (service.nsName i) loop answer)
  | _ => True

instance (i : ι) (answer : SpawnAnswer) (running : List Actor) (phase : Phase) :
    Decidable (service.TurnLeavesNothing i answer running phase) :=
  match phase with
  | .spawning _ => inferInstanceAs (Decidable (LeavesNothing _ _ _ _))
  | .idle | .checked _ | .rollingBack _ _ | .created _ | .returned _ => isTrue trivial

/-- The group that a call is to insert is not there. -/
def Absent (groups : Assoc String ShardGroup) : Phase → Prop
  | .created group => groups.lookup group.config.groupId = none
  | _ => True

instance (groups : Assoc String ShardGroup) (phase : Phase) : Decidable (Absent groups phase) :=
  match phase with
  | .created _ => inferInstanceAs (Decidable (_ = none))
  | .idle | .checked _ | .spawning _ | .rollingBack _ _ | .returned _ => isTrue trivial

/-- A turn that leaves the loop leaves nothing behind, a rollback stops the local actors, and
no insert finds its group there. -/
def KeepsShards (w : World ι) : Step ι → Prop
  | .check _ | .resolve _ _ => True
  | .spawn i answer =>
      service.TurnLeavesNothing i answer (w.calls i).running (w.calls i).phase
  | .stop _ ok => ok = true
  | .insert i => Absent w.groups (w.calls i).phase

instance (w : World ι) (s : Step ι) : Decidable (service.KeepsShards w s) :=
  match s with
  | .check _ | .resolve _ _ => isTrue trivial
  | .spawn _ _ => inferInstanceAs (Decidable (service.TurnLeavesNothing _ _ _ _))
  | .stop _ _ => inferInstanceAs (Decidable (_ = true))
  | .insert _ => inferInstanceAs (Decidable (Absent _ _))

/-- What a call has running, by where it is. -/
def Clean (call : Call) : Prop :=
  match call.phase with
  | .idle | .checked _ | .returned (.error _) => call.running = []
  | .spawning loop =>
      ∀ a ∈ call.running, a.1 = service.localNodeId → a.2.asStr ∈ loop.shardActorIds
  | .rollingBack ids _ =>
      ∀ a ∈ call.running, Stoppable service.localNodeId a ∧ a.2.asStr ∈ ids
  | .created _ | .returned (.ok _) => True

/-- What every good step keeps. -/
structure Sound (groups : Assoc String ShardGroup) (w : World ι) : Prop where
  clean : ∀ i, service.Clean (w.calls i)
  asked : ∀ i config, (w.calls i).phase.config = some config →
    (service.request i).config = some config
  stored : ∀ i group, (w.calls i).phase.group = some group →
    w.groups.lookup group.config.groupId = some group
  unchanged : ∀ key, w.groups.lookup key = groups.lookup key ∨
    ∃ i group, (w.calls i).phase.group = some group ∧ group.config.groupId = key
  sole : ∀ i j group group', (w.calls i).phase.group = some group →
    (w.calls j).phase.group = some group' → group.config.groupId = group'.config.groupId → i = j

variable {service} {groups : Assoc String ShardGroup} {w : World ι} {i : ι}

theorem config_of_group {phase : Phase} {group : ShardGroup} (h : phase.group = some group) :
    phase.config = some group.config := by
  cases phase with
  | returned result =>
      cases result with
      | ok group' =>
          cases h
          rfl
      | error e => cases h
  | _ => cases h

theorem Sound.groupId_eq (h : service.Sound groups w) {group : ShardGroup}
    (hgroup : (w.calls i).phase.group = some group) :
    service.groupId i = some group.config.groupId :=
  congrArg (Option.map ShardGroupConfig.groupId) (h.asked i _ (config_of_group hgroup))

theorem Sound.allOrNothing (h : service.Sound groups w) : service.AllOrNothing groups w where
  stopped := by
    intro i e hphase
    have hclean := h.clean i
    rw [Clean, hphase] at hclean
    exact hclean
  unchanged := by
    intro key
    refine (h.unchanged key).imp id ?_
    rintro ⟨i, group, hgroup, hkey⟩
    exact ⟨i, Option.isSome_of_mem hgroup, (h.groupId_eq hgroup).trans (congrArg some hkey)⟩

theorem Sound.exclusive (h : service.Sound groups w) : service.Exclusive w := by
  intro i j hi hj hsame
  obtain ⟨group, hgroup⟩ := Option.isSome_iff_exists.mp hi
  obtain ⟨group', hgroup'⟩ := Option.isSome_iff_exists.mp hj
  rw [h.groupId_eq hgroup, h.groupId_eq hgroup'] at hsame
  exact h.sole i j group group' hgroup hgroup' (Option.some.inj hsame)

section Set

variable [DecidableEq ι] {call : Call}

@[simp] theorem set_calls_self (w : World ι) (i : ι) (call : Call) :
    (w.set i call).calls i = call :=
  Function.update_self _ _ _

theorem set_calls_of_ne (w : World ι) (call : Call) {j : ι} (hj : j ≠ i) :
    (w.set i call).calls j = w.calls j :=
  Function.update_of_ne hj _ _

/-- A call that has not created its group moves and does not return it. -/
theorem Sound.set (h : service.Sound groups w) (hold : (w.calls i).phase.group = none)
    (hnew : call.phase.group = none) (hclean : service.Clean call)
    (hasked : ∀ config, call.phase.config = some config →
      (service.request i).config = some config) : service.Sound groups (w.set i call) := by
  have hgroup : ∀ j, ((w.set i call).calls j).phase.group = (w.calls j).phase.group := by
    intro j
    by_cases hj : j = i
    · rw [hj, set_calls_self, hnew, hold]
    · rw [set_calls_of_ne w call hj]
  constructor
  · intro j
    by_cases hj : j = i
    · rw [hj, set_calls_self]
      exact hclean
    · rw [set_calls_of_ne w call hj]
      exact h.clean j
  · intro j
    by_cases hj : j = i
    · rw [hj, set_calls_self]
      exact hasked
    · rw [set_calls_of_ne w call hj]
      exact h.asked j
  · intro j group hj
    exact h.stored j group ((hgroup j).symm.trans hj)
  · intro key
    refine (h.unchanged key).imp id ?_
    rintro ⟨j, group, hj, hkey⟩
    exact ⟨j, group, (hgroup j).trans hj, hkey⟩
  · intro j j' group group' hj hj'
    exact h.sole j j' group group' ((hgroup j).symm.trans hj) ((hgroup j').symm.trans hj')

/-- A call stores its group where none is, and returns it. -/
theorem Sound.insert (h : service.Sound groups w) {group : ShardGroup}
    (hcreated : (w.calls i).phase = .created group)
    (hfree : w.groups.lookup group.config.groupId = none) :
    service.Sound groups ({ w with
      groups := w.groups.insert group.config.groupId group }.goTo i (.returned (.ok group))) := by
  have hother : ∀ j group', j ≠ i → (w.calls j).phase.group = some group' →
      group'.config.groupId ≠ group.config.groupId := by
    intro j group' _ hj hkey
    have hstored := h.stored j group' hj
    rw [hkey, hfree] at hstored
    cases hstored
  have hnone : (w.calls i).phase.group = none := by
    rw [hcreated]
    rfl
  unfold World.goTo
  constructor
  · intro j
    by_cases hj : j = i
    · rw [hj, set_calls_self]
      trivial
    · rw [set_calls_of_ne _ _ hj]
      exact h.clean j
  · intro j config hconfig
    by_cases hj : j = i
    · rw [hj, set_calls_self] at hconfig
      cases hconfig
      exact hj ▸ h.asked i group.config (by rw [hcreated, Phase.config])
    · rw [set_calls_of_ne _ _ hj] at hconfig
      exact h.asked j config hconfig
  · intro j group' hj'
    by_cases hj : j = i
    · rw [hj, set_calls_self] at hj'
      cases hj'
      exact Assoc.lookup_insert_self _ _ _
    · rw [set_calls_of_ne _ _ hj] at hj'
      exact (Assoc.lookup_insert_of_ne _ _ (hother j group' hj hj')).trans
        (h.stored j group' hj')
  · intro key
    by_cases hkey : key = group.config.groupId
    · refine .inr ⟨i, group, ?_, hkey.symm⟩
      rw [set_calls_self, Phase.group]
    · refine (h.unchanged key).imp (Assoc.lookup_insert_of_ne _ _ hkey).trans ?_
      rintro ⟨j, group', hj', hkey'⟩
      refine ⟨j, group', ?_, hkey'⟩
      have hj : j ≠ i := by
        rintro rfl
        exact absurd (hnone.symm.trans hj') (Option.some_ne_none _).symm
      rw [set_calls_of_ne _ _ hj]
      exact hj'
  · intro j j' group₁ group₂ hj hj' hsame
    by_cases hji : j = i
    · by_cases hji' : j' = i
      · exact hji.trans hji'.symm
      · rw [hji, set_calls_self] at hj
        cases hj
        rw [set_calls_of_ne _ _ hji'] at hj'
        exact absurd hsame.symm (hother j' group₂ hji' hj')
    · rw [set_calls_of_ne _ _ hji] at hj
      by_cases hji' : j' = i
      · rw [hji', set_calls_self] at hj'
        cases hj'
        exact absurd hsame (hother j group₁ hji hj)
      · rw [set_calls_of_ne _ _ hji'] at hj'
        exact h.sole j j' group₁ group₂ hj hj' hsame

end Set

section Steps

theorem config_of_checkRequest {req : CreateShardGroupRequest} {config : ShardGroupConfig}
    (h : checkRequest req = .ok config) : req.config = some config := by
  unfold checkRequest at h
  split at h
  · cases h
  next config' hconfig =>
    split_ifs at h
    cases h
    exact hconfig

/-- A local actor that a good turn has started is the one that it pushes. -/
theorem asStr_eq_of_started {localNodeId nsName actorId : String} {loop : SpawnLoop}
    {answer : SpawnAnswer} (hpushed : spawnShard localNodeId nsName loop answer = .pushed actorId)
    {a : Actor} (ha : a ∈ startedActor localNodeId nsName loop answer)
    (hlocal : a.1 = localNodeId) : a.2.asStr = actorId := by
  unfold spawnShard at hpushed
  unfold startedActor at ha
  cases hid : shardIdentity nsName loop answer with
  | error e =>
      rw [hid] at ha
      cases ha
  | ok fullId =>
      simp only [hid] at hpushed ha
      split at ha
      · obtain rfl := List.mem_singleton.mp ha
        rw [if_pos hlocal] at hpushed
        split at hpushed
        · exact SpawnResult.pushed.inj hpushed
        · cases hpushed
      · cases ha

/-- A stop removes the local actors that are at the head of the rollback. -/
theorem rollbackOne_subset {localNodeId actorId : String} {running : List Actor} {a : Actor}
    (ha : a ∈ rollbackOne localNodeId running actorId true) :
    a ∈ running ∧ (Stoppable localNodeId a → a.2.asStr ≠ actorId) := by
  unfold rollbackOne at ha
  split at ha
  next hparse =>
    refine ⟨ha, fun hstop htext => ?_⟩
    have hnode := hstop.2
    rw [parsesToNode, htext, hparse] at hnode
    cases hnode
  next id hparse =>
    split at ha
    · obtain ⟨hmem, hkeep⟩ := List.mem_filter.mp ha
      refine ⟨hmem, fun hstop htext => ?_⟩
      have hsame : (a.2 == id) = true := by
        rw [← htext] at hparse
        exact ActorId.beq_iff.mpr (ActorId.asStr_of_fromCanonical hparse).symm
      rw [hsame, beq_iff_eq.mpr hstop.1] at hkeep
      cases hkeep
    next hnode =>
      refine ⟨ha, fun hstop htext => hnode ⟨?_, rfl⟩⟩
      have hparses := hstop.2
      rw [parsesToNode, htext, hparse] at hparses
      exact beq_iff_eq.mp hparses

variable [DecidableEq ι]

theorem Sound.fail (h : service.Sound groups w) (hold : (w.calls i).phase.group = none)
    (hrunning : (w.calls i).running = []) (e : CreateError) :
    service.Sound groups (w.goTo i (.returned (.error e))) := by
  apply h.set hold rfl
  · exact hrunning
  · intro config hconfig
    cases hconfig

theorem check_sound (h : service.Sound groups w) :
    service.Sound groups (service.step w (.check i)) := by
  rw [step]
  split
  next hphase =>
    have hold : (w.calls i).phase.group = none := by
      rw [hphase]
      rfl
    have hrunning : (w.calls i).running = [] := by
      have hclean := h.clean i
      rwa [Clean, hphase] at hclean
    split
    · exact h.fail hold hrunning _
    next config hcheck =>
      split
      · exact h.fail hold hrunning _
      · apply h.set hold rfl
        · exact hrunning
        · intro config' hconfig
          cases hconfig
          exact config_of_checkRequest hcheck
  · exact h

theorem resolve_sound (h : service.Sound groups w) (services : Option Services) :
    service.Sound groups (service.step w (.resolve i services)) := by
  rw [step]
  split
  next config hphase =>
    have hold : (w.calls i).phase.group = none := by
      rw [hphase]
      rfl
    have hrunning : (w.calls i).running = [] := by
      have hclean := h.clean i
      rwa [Clean, hphase] at hclean
    split
    · exact h.fail hold hrunning _
    · split
      · exact h.fail hold hrunning _
      · split
        · apply h.set hold rfl
          · intro a ha
            rw [hrunning] at ha
            cases ha
          · intro config' hconfig
            cases hconfig
            exact h.asked i config (by rw [hphase]; rfl)
        · exact h.fail hold hrunning _
  · exact h

theorem spawn_sound (h : service.Sound groups w) {answer : SpawnAnswer}
    (hkeep : service.KeepsShards w (.spawn i answer)) :
    service.Sound groups (service.step w (.spawn i answer)) := by
  rw [step]
  split
  next loop hphase =>
    have hleaves : LeavesNothing service.localNodeId
        (startedActor service.localNodeId (service.nsName i) loop answer) (w.calls i).running
        (spawnShard service.localNodeId (service.nsName i) loop answer) := by
      rwa [KeepsShards, hphase, TurnLeavesNothing] at hkeep
    have hclean : ∀ a ∈ (w.calls i).running,
        a.1 = service.localNodeId → a.2.asStr ∈ loop.shardActorIds := by
      have hclean := h.clean i
      rwa [Clean, hphase] at hclean
    have hold : (w.calls i).phase.group = none := by
      rw [hphase]
      rfl
    have hconfig : (service.request i).config = some loop.config :=
      h.asked i loop.config (by rw [hphase]; rfl)
    cases hresult : spawnShard service.localNodeId (service.nsName i) loop answer with
    | pushed actorId =>
        have hrunning : ∀ a ∈ (w.calls i).running ++
            startedActor service.localNodeId (service.nsName i) loop answer,
            a.1 = service.localNodeId → a.2.asStr ∈ loop.shardActorIds ++ [actorId] := by
          intro a ha hlocal
          rcases List.mem_append.mp ha with ha | ha
          · exact List.mem_append_left _ (hclean a ha hlocal)
          · rw [asStr_eq_of_started hresult ha hlocal]
            exact List.mem_append_right _ (List.mem_singleton_self _)
        dsimp only
        unfold afterShard
        split_ifs
        · apply h.set hold rfl
          · exact hrunning
          · intro config hc
            cases hc
            exact hconfig
        · apply h.set hold rfl
          · trivial
          · intro config hc
            cases hc
            exact hconfig
    | exit e =>
        rw [hresult] at hleaves
        apply h.set hold rfl
        · exact List.append_eq_nil_iff.mpr ⟨hleaves.2, hleaves.1⟩
        · intro config hc
          cases hc
    | rollback e =>
        rw [hresult] at hleaves
        apply h.set hold rfl
        · intro a ha
          rw [hleaves.1, List.append_nil] at ha
          exact ⟨hleaves.2 a ha, hclean a ha (hleaves.2 a ha).1⟩
        · intro config hc
          cases hc
  · exact h

theorem stop_sound (h : service.Sound groups w) :
    service.Sound groups (service.step w (.stop i true)) := by
  rw [step]
  split
  next e hphase =>
    have hclean := h.clean i
    rw [Clean, hphase] at hclean
    apply h.fail
    · rw [hphase]
      rfl
    · exact List.eq_nil_iff_forall_not_mem.mpr fun a ha => List.not_mem_nil (hclean a ha).2
  next actorId rest e hphase =>
    have hclean := h.clean i
    rw [Clean, hphase] at hclean
    apply h.set
    · rw [hphase]
      rfl
    · rfl
    · intro a ha
      obtain ⟨hmem, hne⟩ := rollbackOne_subset ha
      obtain ⟨hstop, htext⟩ := hclean a hmem
      exact ⟨hstop, (List.mem_cons.mp htext).resolve_left (hne hstop)⟩
    · intro config hc
      cases hc
  · exact h

theorem insert_sound (h : service.Sound groups w) (hkeep : service.KeepsShards w (.insert i)) :
    service.Sound groups (service.step w (.insert i)) := by
  rw [step]
  split
  next group hphase =>
    rw [KeepsShards, hphase, Absent] at hkeep
    exact h.insert hphase hkeep
  · exact h

theorem step_sound (w : World ι) (s : Step ι) (h : service.Sound groups w)
    (hkeep : service.KeepsShards w s) : service.Sound groups (service.step w s) := by
  cases s with
  | check i => exact check_sound h
  | resolve i services => exact resolve_sound h services
  | spawn i answer => exact spawn_sound h hkeep
  | stop i ok =>
      obtain rfl : ok = true := hkeep
      exact stop_sound h
  | insert i => exact insert_sound h hkeep

omit [DecidableEq ι] in
theorem initial_sound (service : Service ι) (groups : Assoc String ShardGroup) :
    service.Sound groups { groups := groups } where
  clean := fun _ => rfl
  asked := by
    intro i config h
    cases h
  stored := by
    intro i group h
    cases h
  unchanged := fun _ => .inl rfl
  sole := by
    intro i j group group' h
    cases h

/-- Every interleaving of calls whose steps keep the shards: a call that fails leaves no shard
and no group, and of the calls on one group at most one returns `Ok`. -/
theorem creates_wholly (service : Service ι) (groups : Assoc String ShardGroup)
    {steps : List (Step ι)}
    (hrun : Along service.step service.KeepsShards { groups := groups } steps) :
    service.AllOrNothing groups (run service.step { groups := groups } steps) ∧
      service.Exclusive (run service.step { groups := groups } steps) :=
  have hsound := hrun.invariant step_sound (initial_sound service groups)
  ⟨hsound.allOrNothing, hsound.exclusive⟩

end Steps

section Examples

/-- Two calls on one group of two shards, on two nodes. -/
def counters (placement : Option NodePlacement) : Service Bool where
  localNodeId := "node-1"
  request := fun _ => ⟨some ⟨"counters", 2, placement⟩, "counter"⟩
  nsName := fun _ => "default"

def services : Services := ⟨none, "", true, "counter"⟩

def enter (i : Bool) : List (Step Bool) := [.check i, .resolve i (some services)]

/-- A spawn with the ULID that goes well on the local node. -/
def spawned (ulid : String) : SpawnAnswer := ⟨ulid, true, .ok (), .ok (), .error ""⟩

/-- The second spawn of a call fails, its first shard is stopped, and another call creates
the group. -/
def rolledBack : List (Step Bool) :=
  enter true ++
    [.spawn true (spawned "01"), .spawn true ⟨"02", false, .error "timeout", .ok (), .error ""⟩,
      .stop true true, .stop true true] ++
    enter false ++ [.spawn false (spawned "03"), .spawn false (spawned "04"), .insert false]

theorem creates_wholly_rolledBack :
    (counters none).AllOrNothing ∅
        (run (counters none).step { groups := ∅ } rolledBack) ∧
      (counters none).Exclusive (run (counters none).step { groups := ∅ } rolledBack) :=
  creates_wholly (counters none) ∅ (by decide +kernel)

/-- The second shard goes to a node without a client. -/
def clientFails : List (Step Bool) :=
  enter true ++
    [.spawn true (spawned "01"),
      .spawn true ⟨"02", false, .ok (), .error "no route", .error ""⟩]

/-- Both calls look at the map before either inserts. -/
def createTwice : List (Step Bool) :=
  enter true ++ enter false ++
    [.spawn true (spawned "01"), .spawn true (spawned "02"), .spawn false (spawned "03"),
      .spawn false (spawned "04"), .insert true, .insert false]

theorem not_creates_wholly :
    (¬∀ steps : List (Step Bool),
      (counters (some ⟨strategyNodeIds, "", ["node-1", "node-2"]⟩)).AllOrNothing ∅
        (run (counters (some ⟨strategyNodeIds, "", ["node-1", "node-2"]⟩)).step
          { groups := ∅ } steps)) ∧
    ¬∀ steps : List (Step Bool),
      (counters none).Exclusive (run (counters none).step { groups := ∅ } steps) := by
  constructor
  · intro h
    have hrunning := (h clientFails).stopped true
      (.message "Failed to get client for node node-2: no route") ?_
    · revert hrunning
      decide +kernel
    · decide +kernel
  · intro h
    have hsame := h createTwice true false (by decide +kernel) (by decide +kernel) rfl
    exact Bool.false_ne_true hsame.symm

end Examples

end Service

end PlexSpaces.Shards
