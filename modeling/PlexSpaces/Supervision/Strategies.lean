import PlexSpaces.Supervision.Supervisor
/-!
# The children that a strategy restarts

When no child has reached its limit and every restart succeeds, a call of
`handleFailure` visits the children in the scope of the strategy, and each visited
child is restarted when its own policy answers the exit of the failed child with a
restart (`restartEach_settled`).

`prescribed` is what the strategies ask for.  A temporary child is never restarted, also
when a sibling has failed (`not_prescribed`); apart from that a failure that calls for
a restart restarts the prescribed children (`restarts_prescribed`).
-/

namespace PlexSpaces.Supervision

open PlexSpaces.Lib

namespace Supervisor

variable {ι : Type} [DecidableEq ι]

/-- The children that the strategy prescribes to restart: none when the id is not a child
or the policy of the failed child asks for no restart, else its whole scope. -/
def prescribed (s : Supervisor ι) (id : ι) (exitReason : Option (ExitReason ι)) : List ι :=
  match s.children.find id with
  | none => []
  | some child =>
      if child.restartPolicy.shouldRestart exitReason then
        match s.strategy with
        | .oneForOne _ _ => [id]
        | .oneForAll _ _ => s.children.rows.map (·.actorId)
        | .restForOne _ _ => (s.fromFailed id).map (·.actorId)
        | _ => []
      else []

/-- No child has reached its limit when it is visited. -/
def WithinLimits (s : Supervisor ι) (env : Env ι) (maxRestarts : UInt32)
    (withinSeconds : UInt64) (children : List (SupervisedActor ι)) : Prop :=
  ∀ child ∈ children, (child.recent (s.now env child.actorId)
    (fromSecs withinSeconds)).length < maxRestarts.toNat

section Settled

variable {s : Supervisor ι} {env : Env ι} {maxRestarts : UInt32} {withinSeconds : UInt64}
  (exitReason : Option (ExitReason ι)) (hstart : ∀ id, ∃ time, env.start id = .started time)

include hstart

/-- A child within its limit is visited without error, and restarted when its policy says
so. -/
theorem restartOne_settled {child : SupervisedActor ι}
    (hfind : s.children.find child.actorId = some child)
    (hlimit : s.WithinLimits env maxRestarts withinSeconds [child]) :
    ∃ s' visit, s.restartOne env child.actorId maxRestarts withinSeconds exitReason =
        (.ok (), s') ∧ s'.log = visit :: s.log ∧ s.clock ≤ s'.clock ∧
      restartedIds [visit] = ([child].filter fun c =>
        c.restartPolicy.shouldRestart exitReason).map (·.actorId) ∧
      ∀ k, k ≠ child.actorId → s'.children.find k = s.children.find k := by
  obtain ⟨s', hres, -, hclock, hlog, hchildren⟩ :=
    restartOne_of_find env hfind maxRestarts withinSeconds exitReason
  have hbelow := hlimit child (List.mem_singleton_self child)
  obtain ⟨time, htime⟩ := hstart child.actorId
  have hclock' : s.clock ≤ s'.clock := by
    rw [hclock]
    exact le_max_left _ _
  have hrest : ∀ k, k ≠ child.actorId → s'.children.find k = s.children.find k := by
    intro k hk
    rw [hchildren, if_neg hk]
  rcases child.visit_cases s.stats maxRestarts (fromSecs withinSeconds)
      (s.now env child.actorId) exitReason (env.start child.actorId) with
    ⟨hover, -⟩ | ⟨-, hpolicy, t, stats', -, hvisit⟩ | ⟨-, -, -, -, hnot, -⟩ |
    ⟨-, hpolicy, hvisit⟩
  · omega
  · rw [hvisit] at hres hlog
    exact ⟨s', _, hres, hlog, hclock', by simp [restartedIds, hpolicy], hrest⟩
  · exact absurd htime (hnot time)
  · rw [hvisit] at hres hlog
    exact ⟨s', _, hres, hlog, hclock', by simp [restartedIds, hpolicy], hrest⟩

/-- The loop visits every child of a group that is within its limits. -/
theorem restartEach_settled {children : List (SupervisedActor ι)}
    (hfind : ∀ child ∈ children, s.children.find child.actorId = some child)
    (hnodup : (children.map (·.actorId)).Nodup)
    (hlimit : s.WithinLimits env maxRestarts withinSeconds children) :
    ∃ s' visits, restartEach env maxRestarts withinSeconds exitReason
        (children.map (·.actorId)) s = (.ok (), s') ∧ s'.log = visits ++ s.log ∧
      restartedIds visits = ((children.filter fun c =>
        c.restartPolicy.shouldRestart exitReason).map (·.actorId)).reverse := by
  induction children generalizing s with
  | nil => exact ⟨s, [], rfl, rfl, rfl⟩
  | cons child rest ih =>
      obtain ⟨hfresh, hnodup⟩ := List.nodup_cons.mp hnodup
      obtain ⟨s₁, visit, hres, hlog, hclock, hids, hkeep⟩ :=
        restartOne_settled exitReason hstart (hfind child List.mem_cons_self)
          (fun c hc => hlimit c (List.mem_cons.mpr (.inl (List.mem_singleton.mp hc))))
      obtain ⟨s₂, visits, hrest, hlog₂, hids₂⟩ := ih (find_of_mem_rest hfind hfresh hkeep) hnodup
        (by
          -- the clock has moved on, so the histories have only become shorter
          intro c hc
          have hlater : s.now env c.actorId ≤ s₁.now env c.actorId :=
            max_le_max hclock le_rfl
          exact (c.recent_sublist hlater _).length_le.trans_lt
            (hlimit c (List.mem_cons_of_mem _ hc)))
      refine ⟨s₂, visits ++ [visit], ?_, ?_, ?_⟩
      · rw [List.map_cons, restartEach, hres]
        exact hrest
      · rw [hlog₂, hlog, List.append_assoc]
        rfl
      · have happend : restartedIds (visits ++ [visit]) =
            restartedIds visits ++ restartedIds [visit] := by
          simp [restartedIds]
        have hcons : child :: rest = [child] ++ rest := rfl
        rw [happend, hids₂, hids, hcons, List.filter_append, List.map_append,
          List.reverse_append]
        congr 1
        by_cases hpolicy : child.restartPolicy.shouldRestart exitReason = true
        · simp [hpolicy]
        · simp [hpolicy]

theorem mem_restarted_of_group {children : List (SupervisedActor ι)}
    (hchildren : children.Sublist s.children.rows)
    (hlimit : s.WithinLimits env maxRestarts withinSeconds s.children.rows) (x : ι) :
    x ∈ restarted s (restartEach env maxRestarts withinSeconds exitReason
        (children.map (·.actorId)) s).2 ↔
      ∃ c ∈ children, c.restartPolicy.shouldRestart exitReason = true ∧ c.actorId = x := by
  obtain ⟨s', visits, hres, hlog, hids⟩ := restartEach_settled exitReason hstart
    (fun c hc => Table.find_of_mem (hchildren.subset hc))
    ((hchildren.map _).nodup s.children.nodup)
    (fun c hc => hlimit c (hchildren.subset hc))
  rw [hres, restarted, newVisits_of_log visits hlog, hids]
  simp [and_assoc]

end Settled

omit [DecidableEq ι] in
theorem shouldRestart_of_ne_temporary {policy : RestartPolicy}
    {exitReason : Option (ExitReason ι)} (hne : policy ≠ .temporary)
    (htransient : policy = .transient →
      RestartPolicy.transient.shouldRestart exitReason = true) :
    policy.shouldRestart exitReason = true := by
  cases policy with
  | unspecified => rfl
  | permanent => rfl
  | transient => exact htransient rfl
  | temporary => exact absurd rfl hne
  | exponentialBackoff => rfl

/-- What a call restarts, for every strategy with limits: each child in the scope whose
policy answers the exit with a restart. -/
theorem mem_restarted_iff (ids : ActorIds ι) (s : Supervisor ι) (f : Failure ι)
    {maxRestarts : UInt32} {withinSeconds : UInt64}
    (hlimits : s.strategy.limits = some (maxRestarts, withinSeconds))
    (hlimit : s.WithinLimits f.env maxRestarts withinSeconds s.children.rows)
    (hstart : ∀ id, ∃ time, f.env.start id = .started time) (x : ι) :
    x ∈ restarted s (handleFailure ids s f.env f.id f.reason f.exitReason).2 ↔
      ∃ c ∈ s.visitScope f.id, c.restartPolicy.shouldRestart (s.visitExit ids f) = true ∧
        c.actorId = x := by
  obtain ⟨s₁, henters, hcall⟩ := handleFailure_loop ids f hlimits
  have hsame : ∀ s', restarted s s' = restarted s₁ s' := by
    intro s'
    rw [restarted, restarted, newVisits, newVisits, henters.log]
  have hlimit₁ : s₁.WithinLimits f.env maxRestarts withinSeconds s₁.children.rows := by
    rw [henters.children]
    intro c hc
    rw [now, henters.clock]
    exact hlimit c hc
  rcases hcall with hcall | ⟨hempty, hcall⟩
  · rw [hcall, hsame]
    apply mem_restarted_of_group (s.visitExit ids f) hstart _ hlimit₁
    rw [henters.children]
    exact s.visitScope_sublist f.id
  · rw [hcall, hsame, restarted, newVisits_of_log [] rfl, hempty]
    simp [restartedIds]

section Prescribed

variable {s : Supervisor ι} {id : ι} {exit : Option (ExitReason ι)} {child : SupervisedActor ι}
  {maxRestarts : UInt32} {withinSeconds : UInt64}

theorem mem_prescribed_of_one (hstrategy : s.strategy = .oneForOne maxRestarts withinSeconds)
    (x : ι) : x ∈ s.prescribed id exit ↔ ∃ c ∈ (s.children.find id).toList,
      c.restartPolicy.shouldRestart exit = true ∧ c.actorId = x := by
  cases hfind : s.children.find id with
  | none => simp [prescribed, hfind]
  | some c =>
      have hid : c.actorId = id := Table.key_of_find hfind
      cases hpolicy : c.restartPolicy.shouldRestart exit with
      | false => simp [prescribed, hfind, hpolicy]
      | true => simp [prescribed, hfind, hpolicy, hstrategy, hid, @eq_comm _ x id]

/-- A group restart: `scope` are the children in the scope of the strategy, and each of
them is restarted when its policy says so. -/
theorem prescribed_of_group (scope : List (SupervisedActor ι)) {restarts : List ι}
    (hscope : scope ⊆ s.children.rows)
    (hprescribed : s.prescribed id exit = scope.map (·.actorId))
    (hrestarts : ∀ x, x ∈ restarts ↔
      ∃ c ∈ scope, c.restartPolicy.shouldRestart exit = true ∧ c.actorId = x) :
    (∀ x ∈ restarts, x ∈ s.prescribed id exit ∧
      ∀ c, s.children.find x = some c → c.restartPolicy ≠ .temporary) ∧
    (∀ x ∈ s.prescribed id exit, ∀ c, s.children.find x = some c →
      c.restartPolicy ≠ .temporary → (c.restartPolicy = .transient →
        RestartPolicy.transient.shouldRestart exit = true) → x ∈ restarts) := by
  constructor
  · intro x hx
    obtain ⟨c, hc, hpolicy, rfl⟩ := (hrestarts x).mp hx
    refine ⟨hprescribed ▸ List.mem_map_of_mem hc, ?_⟩
    intro c' hfind htemporary
    rw [Table.find_of_mem (hscope hc)] at hfind
    cases hfind
    rw [htemporary] at hpolicy
    cases hpolicy
  · intro x hx c hfind hne htransient
    rw [hprescribed] at hx
    obtain ⟨c', hc', rfl⟩ := List.mem_map.mp hx
    have hsame := Table.find_of_mem (hscope hc')
    rw [hfind] at hsame
    cases hsame
    exact (hrestarts _).mpr ⟨c, hc', shouldRestart_of_ne_temporary hne htransient, rfl⟩

end Prescribed

/-- One-for-one restarts what is prescribed, and rest-for-one nothing for an unknown id.
When the failed child is to be restarted, the group strategies restart the prescribed
children except the temporary ones, and a transient one only on an exit that calls for
its restart. -/
theorem restarts_prescribed (ids : ActorIds ι) (s : Supervisor ι) (env : Env ι) (id : ι)
    (reason : String) (exitReason : Option (ExitReason ι)) (maxRestarts : UInt32)
    (withinSeconds : UInt64)
    (hlimit : s.WithinLimits env maxRestarts withinSeconds s.children.rows)
    (hstart : ∀ id, ∃ time, env.start id = .started time) :
    let exit := exitReason.or (some (ExitReason.fromStr ids reason))
    let restarts := restarted s (handleFailure ids s env id reason exitReason).2
    (s.strategy = .oneForOne maxRestarts withinSeconds →
      ∀ x, x ∈ restarts ↔ x ∈ s.prescribed id exit) ∧
    (s.strategy = .restForOne maxRestarts withinSeconds → s.children.find id = none →
      restarts = []) ∧
    (s.strategy = .oneForAll maxRestarts withinSeconds ∨
        s.strategy = .restForOne maxRestarts withinSeconds →
      ∀ child, s.children.find id = some child →
        child.restartPolicy.shouldRestart exit = true →
        (∀ x ∈ restarts, x ∈ s.prescribed id exit ∧
          ∀ c, s.children.find x = some c → c.restartPolicy ≠ .temporary) ∧
        (∀ x ∈ s.prescribed id exit, ∀ c, s.children.find x = some c →
          c.restartPolicy ≠ .temporary → (c.restartPolicy = .transient →
            RestartPolicy.transient.shouldRestart exit = true) → x ∈ restarts)) := by
  intro exit restarts
  have hiff : ∀ scope, s.strategy.limits = some (maxRestarts, withinSeconds) →
      s.visitExit ids ⟨env, id, reason, exitReason⟩ = exit → s.visitScope id = scope →
      ∀ x, x ∈ restarts ↔
        ∃ c ∈ scope, c.restartPolicy.shouldRestart exit = true ∧ c.actorId = x := by
    rintro scope hlimits hexit rfl x
    rw [← hexit]
    exact mem_restarted_iff ids s ⟨env, id, reason, exitReason⟩ hlimits hlimit hstart x
  refine ⟨?_, ?_, ?_⟩
  · intro hstrategy x
    rw [mem_prescribed_of_one hstrategy]
    exact hiff _ (by rw [hstrategy]; rfl) (by rw [visitExit, hstrategy])
      (by rw [visitScope, hstrategy]) x
  · intro hstrategy hfind
    have hnone := hiff [] (by rw [hstrategy]; rfl) (by rw [visitExit, hstrategy])
      (by rw [visitScope, hstrategy]; exact fromFailed_of_find_none hfind)
    apply List.eq_nil_iff_forall_not_mem.mpr
    intro x hx
    obtain ⟨c, hc, -⟩ := (hnone x).mp hx
    cases hc
  · rintro (hstrategy | hstrategy) child hfind hpolicy
    · apply prescribed_of_group s.children.rows (List.Subset.refl _)
      · simp [prescribed, hfind, hpolicy, hstrategy]
      · exact hiff _ (by rw [hstrategy]; rfl) (by rw [visitExit, hstrategy])
          (by rw [visitScope, hstrategy])
    · apply prescribed_of_group (s.fromFailed id) (List.dropWhile_subset _)
      · simp [prescribed, hfind, hpolicy, hstrategy]
      · exact hiff _ (by rw [hstrategy]; rfl) (by rw [visitExit, hstrategy])
          (by rw [visitScope, hstrategy])

def freshChild (id : Nat) (restart : Int) : SupervisedActor Nat := ⟨id, restart, 0, none, []⟩

/-- A permanent and a temporary child under one-for-all. -/
def mixedGroup : Supervisor Nat where
  strategy := .oneForAll 3 60
  children := ⟨[freshChild 0 1, freshChild 1 3], by decide⟩
  stats := ⟨0, 0, 0, 0, ∅⟩
  clock := 0
  log := []

def smoothEnv : Env Nat := ⟨fun _ => 0, fun _ => .started 0⟩

def natIds : ActorIds Nat := ⟨fun _ => none, 0⟩

theorem restarts_prescribed_mixedGroup :
    mixedGroup.WithinLimits smoothEnv 3 60 mixedGroup.children.rows ∧
      (∀ id, ∃ time, smoothEnv.start id = .started time) ∧
      ∀ x ∈ restarted mixedGroup (handleFailure natIds mixedGroup smoothEnv 0 "crash"
        (some (.error "crash"))).2, x ∈ mixedGroup.prescribed 0 (some (.error "crash")) := by
  have hlimit : mixedGroup.WithinLimits smoothEnv 3 60 mixedGroup.children.rows := by
    unfold WithinLimits
    decide
  have hstart : ∀ id, ∃ time, smoothEnv.start id = .started time := fun _ => ⟨0, rfl⟩
  have h := restarts_prescribed natIds mixedGroup smoothEnv 0 "crash" (some (.error "crash")) 3 60
    hlimit hstart
  refine ⟨hlimit, hstart, ?_⟩
  intro x hx
  exact ((h.2.2 (.inl rfl) (freshChild 0 1) rfl rfl).1 x hx).1

/-- The temporary sibling of a failed permanent child is not restarted. -/
theorem not_prescribed :
    ¬∀ (ids : ActorIds Nat) (s : Supervisor Nat) (env : Env Nat) (id : Nat) (reason : String)
      (exitReason : Option (ExitReason Nat)) (maxRestarts : UInt32) (withinSeconds : UInt64),
      s.WithinLimits env maxRestarts withinSeconds s.children.rows →
      (∀ id, ∃ time, env.start id = .started time) →
      s.strategy = .oneForAll maxRestarts withinSeconds →
      ∀ x, x ∈ restarted s (handleFailure ids s env id reason exitReason).2 ↔
        x ∈ s.prescribed id (exitReason.or (some (ExitReason.fromStr ids reason))) := by
  intro h
  have hlimit : mixedGroup.WithinLimits smoothEnv 3 60 mixedGroup.children.rows := by
    unfold WithinLimits
    decide
  have hone := h natIds mixedGroup smoothEnv 0 "crash" (some (.error "crash")) 3 60 hlimit
    (fun _ => ⟨0, rfl⟩) rfl 1
  have hprescribed : 1 ∈ mixedGroup.prescribed 0 (some (.error "crash")) := by decide
  have hrestarted : 1 ∉ restarted mixedGroup (handleFailure natIds mixedGroup smoothEnv 0 "crash"
      (some (.error "crash"))).2 := by
    decide +kernel
  exact hrestarted (hone.mpr hprescribed)

end Supervisor

end PlexSpaces.Supervision
