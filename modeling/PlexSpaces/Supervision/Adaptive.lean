import PlexSpaces.Supervision.GroupRestart
/-!
# An adaptive strategy and its initial strategy

While the restarts do not fail too often, an adaptive strategy applies its initial
strategy, but it does not pass the exit of the failed child on.  A transient child is
then restarted after every exit, and a call differs from the same call under the initial
strategy when its loop gets to a transient child that the exit should have left alone
(`fallback_iff`).
-/

namespace PlexSpaces.Supervision

open PlexSpaces.Lib

def StartOutcome.failure : StartOutcome → Option String
  | .started _ => none
  | .creationFailed message | .startFailed message | .invalidRef message => some message
  | .startedSupervisor => some "Cannot restart actor as supervisor"

/-- The strategies that an adaptive strategy can fall back to, with their limits. -/
inductive SupervisionStrategy.Basic :
    SupervisionStrategy → UInt32 → UInt64 → Prop
  | oneForOne (m : UInt32) (w : UInt64) : Basic (.oneForOne m w) m w
  | oneForAll (m : UInt32) (w : UInt64) : Basic (.oneForAll m w) m w
  | restForOne (m : UInt32) (w : UInt64) : Basic (.restForOne m w) m w

theorem RestartPolicy.shouldRestart_eq_none {ι : Type} {policy : RestartPolicy}
    (hpolicy : policy ≠ .transient) (exitReason : Option (ExitReason ι)) :
    policy.shouldRestart exitReason = policy.shouldRestart (none : Option (ExitReason ι)) := by
  cases policy with
  | transient => exact absurd rfl hpolicy
  | _ => rfl

namespace SupervisedActor

variable {ι : Type} {child : SupervisedActor ι} {maxRestarts : UInt32} {window now : Nat}
  {start : StartOutcome} {stats : SupervisorStats}

/-- A visit depends on the exit only through the answer of the policy, and not at all when
the child has reached its limit. -/
theorem visit_congr {exit exit' : Option (ExitReason ι)}
    (h : ¬maxRestarts.toNat ≤ (child.recent now window).length →
      child.restartPolicy.shouldRestart exit = child.restartPolicy.shouldRestart exit') :
    child.visit stats maxRestarts window now exit start =
      child.visit stats maxRestarts window now exit' start := by
  by_cases hlimit : maxRestarts.toNat ≤ (child.recent now window).length
  · simp only [visit, if_pos hlimit]
  · have hpolicy : ({ child with restartTimestamps := child.recent now window ++ [now] } :
        SupervisedActor ι).restartPolicy = child.restartPolicy := rfl
    simp only [visit, hpolicy, h hlimit]

def noted (child : SupervisedActor ι) (now window : Nat) : SupervisedActor ι :=
  { child with restartTimestamps := child.recent now window ++ [now] }

variable {exitReason : Option (ExitReason ι)}
  (hlimit : ¬maxRestarts.toNat ≤ (child.recent now window).length)

include hlimit

theorem visit_of_not_shouldRestart
    (hpolicy : child.restartPolicy.shouldRestart exitReason = false) :
    child.visit stats maxRestarts window now exitReason start =
      (.ok (), child.noted now window, stats, .notRestarted) := by
  have hpolicy' : ¬(child.noted now window).restartPolicy.shouldRestart exitReason = true := by
    change ¬child.restartPolicy.shouldRestart exitReason = true
    rw [hpolicy]
    exact Bool.false_ne_true
  simp only [visit, if_neg hlimit]
  exact if_neg hpolicy'

theorem visit_of_failure (stats : SupervisorStats)
    (hpolicy : child.restartPolicy.shouldRestart exitReason = true)
    {message : String} (hstart : start.failure = some message) :
    ∃ stats', child.visit stats maxRestarts window now exitReason start =
      (.error (.restartFailed message), child.noted now window, stats', .failed) := by
  have hpolicy' : (child.noted now window).restartPolicy.shouldRestart exitReason = true :=
    hpolicy
  simp only [visit, if_neg hlimit]
  refine (exists_congr fun stats' => Eq.congr_left (if_pos hpolicy')).mpr ?_
  cases start with
  | started time => cases hstart
  | _ => cases hstart; exact ⟨_, rfl⟩

theorem visit_of_started (stats : SupervisorStats)
    (hpolicy : child.restartPolicy.shouldRestart exitReason = true)
    (hstart : start.failure = none) :
    ∃ child' stats', child.visit stats maxRestarts window now exitReason start =
      (.ok (), child', stats', .restarted) ∧ child'.restartCount = child.restartCount + 1 := by
  have hpolicy' : (child.noted now window).restartPolicy.shouldRestart exitReason = true :=
    hpolicy
  simp only [visit, if_neg hlimit]
  refine (exists_congr fun child' => exists_congr fun stats' => and_congr_left' <|
    Eq.congr_left (if_pos hpolicy')).mpr ?_
  cases start with
  | started time => exact ⟨_, _, rfl, rfl⟩
  | _ => cases hstart

end SupervisedActor

namespace Supervisor

variable {ι : Type} [DecidableEq ι]

def withStrategy (s : Supervisor ι) (strategy : SupervisionStrategy) : Supervisor ι :=
  { s with strategy := strategy }

/-- Two calls from `s` end alike: they have the same result, they leave each child with the
same history, count and time of restart, and they have restarted the same children. -/
structure SameEffect (s : Supervisor ι)
    (r r' : Except (SupervisorError ι) Unit × Supervisor ι) : Prop where
  result : r.1 = r'.1
  children : ∀ k, r.2.children.find k = r'.2.children.find k
  restarted : ∀ k, k ∈ restarted s r.2 ↔ k ∈ restarted s r'.2

/-- A call from `s` ends with `message` and leaves every child as it is. -/
structure EndsUnseen (s : Supervisor ι) (message : String)
    (r : Except (SupervisorError ι) Unit × Supervisor ι) : Prop where
  result : r.1 = .error (.restartFailed message)
  children : ∀ k, r.2.children.find k = s.children.find k

section Scope

omit [DecidableEq ι]

variable (env : Env ι) (maxRestarts : UInt32) (withinSeconds : UInt64)
  (exitReason : Option (ExitReason ι))

/-- From the time `clock` on, the loop passes children that it does not restart and whose
histories stay as they are, up to a child whose start fails with `message`.  A history
stays as it is only when the window is empty. -/
def FailsUnseen (message : String) : Nat → List (SupervisedActor ι) → Prop
  | _, [] => False
  | clock, child :: rest =>
      let now := max clock (env.now child.actorId)
      ¬OverLimit maxRestarts withinSeconds now child ∧
        child.recent now (fromSecs withinSeconds) ++ [now] = child.restartTimestamps ∧
        if child.restartPolicy.shouldRestart exitReason then
          (env.start child.actorId).failure = some message
        else FailsUnseen message now rest

/-- From the time `clock` on, the loop gets to no transient child within its limit; or the
start of the first one fails, and the loop that leaves it alone fails in the same way
later on. -/
def SparesTransient : Nat → List (SupervisedActor ι) → Prop
  | _, [] => True
  | clock, child :: rest =>
      let now := max clock (env.now child.actorId)
      ¬OverLimit maxRestarts withinSeconds now child →
        if child.restartPolicy = .transient then
          ∃ message, (env.start child.actorId).failure = some message ∧
            FailsUnseen env maxRestarts withinSeconds exitReason message now rest
        else Passes env none child → SparesTransient now rest

end Scope

section Visit

variable {env : Env ι} {maxRestarts : UInt32} {withinSeconds : UInt64}
  {exitReason : Option (ExitReason ι)} {s : Supervisor ι} {child : SupervisedActor ι}
  (hfind : s.children.find child.actorId = some child)
  (hover : ¬OverLimit maxRestarts withinSeconds (s.now env child.actorId) child)

include hfind hover

/-- A child that the policy leaves alone: the loop goes on. -/
theorem restartOne_of_not_shouldRestart
    (hpolicy : child.restartPolicy.shouldRestart exitReason = false) :
    ∃ s', s.restartOne env child.actorId maxRestarts withinSeconds exitReason = (.ok (), s') ∧
      s'.clock = s.now env child.actorId ∧
      s'.log = ⟨child.actorId, s.now env child.actorId, .notRestarted⟩ :: s.log ∧
      ∀ k, s'.children.find k = if k = child.actorId then
        some (child.noted (s.now env child.actorId) (fromSecs withinSeconds))
        else s.children.find k := by
  obtain ⟨s', hres, -, hclock, hlog, hchildren⟩ :=
    restartOne_of_find env hfind maxRestarts withinSeconds exitReason
  rw [SupervisedActor.visit_of_not_shouldRestart hover hpolicy] at hres hlog hchildren
  exact ⟨s', hres, hclock, hlog, hchildren⟩

theorem restartOne_of_failure (hpolicy : child.restartPolicy.shouldRestart exitReason = true)
    {message : String} (hstart : (env.start child.actorId).failure = some message) :
    ∃ s', s.restartOne env child.actorId maxRestarts withinSeconds exitReason =
        (.error (.restartFailed message), s') ∧
      s'.log = ⟨child.actorId, s.now env child.actorId, .failed⟩ :: s.log ∧
      ∀ k, s'.children.find k = if k = child.actorId then
        some (child.noted (s.now env child.actorId) (fromSecs withinSeconds))
        else s.children.find k := by
  obtain ⟨s', hres, -, -, hlog, hchildren⟩ :=
    restartOne_of_find env hfind maxRestarts withinSeconds exitReason
  obtain ⟨stats', hvisit⟩ := SupervisedActor.visit_of_failure hover s.stats hpolicy hstart
  rw [hvisit] at hres hlog hchildren
  exact ⟨s', hres, hlog, hchildren⟩

theorem restartOne_of_started (hpolicy : child.restartPolicy.shouldRestart exitReason = true)
    (hstart : (env.start child.actorId).failure = none) :
    ∃ s' child', s.restartOne env child.actorId maxRestarts withinSeconds exitReason =
        (.ok (), s') ∧ s'.children.find child.actorId = some child' ∧
      child'.restartCount = child.restartCount + 1 := by
  obtain ⟨s', hres, -, -, -, hchildren⟩ :=
    restartOne_of_find env hfind maxRestarts withinSeconds exitReason
  obtain ⟨child', stats', hvisit, hcount⟩ := SupervisedActor.visit_of_started hover s.stats hpolicy
    hstart
  rw [hvisit] at hres hchildren
  exact ⟨s', child', hres, by rw [hchildren, if_pos rfl], hcount⟩

/-- A loop that restarts its first child leaves it with another count. -/
theorem restartEach_of_started (hpolicy : child.restartPolicy.shouldRestart exitReason = true)
    (hstart : (env.start child.actorId).failure = none) {ids : List ι}
    (hfresh : child.actorId ∉ ids) :
    ∃ child', (restartEach env maxRestarts withinSeconds exitReason (child.actorId :: ids)
        s).2.children.find child.actorId = some child' ∧
      child'.restartCount ≠ child.restartCount := by
  obtain ⟨s', child', hres, hchild', hcount⟩ := restartOne_of_started hfind hover hpolicy hstart
  refine ⟨child', ?_, ?_⟩
  · rw [restartEach, hres]
    dsimp only
    rw [restartEach_find_of_not_mem hfresh, hchild']
  · rw [hcount]
    simp

end Visit

section Loop

variable {env : Env ι} {maxRestarts : UInt32} {withinSeconds : UInt64}
  {exitReason : Option (ExitReason ι)} {s : Supervisor ι}
  {children : List (SupervisedActor ι)}

omit [DecidableEq ι] in
theorem noted_eq_self_iff {child : SupervisedActor ι} {now window : Nat} :
    child.noted now window = child ↔
      child.recent now window ++ [now] = child.restartTimestamps := by
  constructor
  · intro h
    exact congrArg SupervisedActor.restartTimestamps h
  · intro h
    rw [SupervisedActor.noted, h]

/-- A visit that only adds to a history changes nothing exactly when the history stays as it
is. -/
theorem find_eq_iff_noted {s' : Supervisor ι} {child : SupervisedActor ι} {now window : Nat}
    (hself : s.children.find child.actorId = some child)
    (hchildren : ∀ k, s'.children.find k = if k = child.actorId then
      some (child.noted now window) else s.children.find k) :
    (∀ k, s'.children.find k = s.children.find k) ↔ child.noted now window = child := by
  constructor
  · intro h
    have hsame := h child.actorId
    rw [hchildren, if_pos rfl, hself] at hsame
    exact Option.some.inj hsame
  · intro hnoted k
    rw [hchildren]
    split_ifs with hk
    · rw [hk, hself, hnoted]
    · rfl

section Unseen

variable {message : String} {child : SupervisedActor ι} {rest : List (SupervisedActor ι)}
  (hself : s.children.find child.actorId = some child)
  (hover : ¬OverLimit maxRestarts withinSeconds (s.now env child.actorId) child)

include hself hover

/-- The first child is left alone, and the rest of the loop fails unseen. -/
theorem endsUnseen_iff_of_spared (hfresh : child.actorId ∉ rest.map (·.actorId))
    (hpolicy : child.restartPolicy.shouldRestart exitReason = false)
    (htail : ∀ s' : Supervisor ι, s'.clock = s.now env child.actorId →
      (∀ k, k ≠ child.actorId → s'.children.find k = s.children.find k) →
      (s'.EndsUnseen message
          (restartEach env maxRestarts withinSeconds exitReason (rest.map (·.actorId)) s') ↔
        FailsUnseen env maxRestarts withinSeconds exitReason message
          (s.now env child.actorId) rest)) :
    s.EndsUnseen message (restartEach env maxRestarts withinSeconds exitReason
        ((child :: rest).map (·.actorId)) s) ↔
      FailsUnseen env maxRestarts withinSeconds exitReason message s.clock (child :: rest) := by
  obtain ⟨s', hres, hclock, -, hchildren⟩ :=
    restartOne_of_not_shouldRestart hself hover hpolicy
  have htail := htail s' hclock fun k hk => by rw [hchildren, if_neg hk]
  have hsame := find_eq_iff_noted hself hchildren
  rw [List.map_cons, restartEach, hres]
  simp only [FailsUnseen, hpolicy, Bool.false_eq_true, if_false]
  rw [← Supervisor.now, ← htail, ← noted_eq_self_iff]
  constructor
  · rintro ⟨hresult, hkeep⟩
    have hkeep' := hkeep child.actorId
    rw [restartEach_find_of_not_mem hfresh, hchildren, if_pos rfl, hself] at hkeep'
    have hnoted := Option.some.inj hkeep'
    refine ⟨hover, hnoted, hresult, ?_⟩
    intro k
    rw [hkeep k, hsame.mpr hnoted]
  · rintro ⟨-, hnoted, hresult, hkeep⟩
    refine ⟨hresult, ?_⟩
    intro k
    rw [hkeep k, hsame.mpr hnoted]

theorem endsUnseen_iff_of_failure
    (hpolicy : child.restartPolicy.shouldRestart exitReason = true) {message' : String}
    (hstart : (env.start child.actorId).failure = some message') :
    s.EndsUnseen message (restartEach env maxRestarts withinSeconds exitReason
        ((child :: rest).map (·.actorId)) s) ↔
      FailsUnseen env maxRestarts withinSeconds exitReason message s.clock (child :: rest) := by
  obtain ⟨s', hres, -, hchildren⟩ := restartOne_of_failure hself hover hpolicy hstart
  have hsame := find_eq_iff_noted hself hchildren
  rw [List.map_cons, restartEach, hres]
  simp only [FailsUnseen, hpolicy, if_true]
  rw [← Supervisor.now, ← noted_eq_self_iff, hstart]
  constructor
  · rintro ⟨hresult, hkeep⟩
    cases hresult
    exact ⟨hover, hsame.mp hkeep, rfl⟩
  · rintro ⟨-, hnoted, hmessage⟩
    cases hmessage
    exact ⟨rfl, hsame.mpr hnoted⟩

theorem not_endsUnseen_of_started (hfresh : child.actorId ∉ rest.map (·.actorId))
    (hpolicy : child.restartPolicy.shouldRestart exitReason = true)
    (hstart : (env.start child.actorId).failure = none) :
    ¬s.EndsUnseen message (restartEach env maxRestarts withinSeconds exitReason
      ((child :: rest).map (·.actorId)) s) := by
  obtain ⟨child', hchild', hcount⟩ := restartEach_of_started hself hover hpolicy hstart hfresh
  intro hunseen
  have hsame := hunseen.children child.actorId
  rw [List.map_cons, hchild', hself] at hsame
  rw [Option.some.inj hsame] at hcount
  exact hcount rfl

end Unseen

theorem restartEach_unseen_iff (message : String)
    (hfind : ∀ child ∈ children, s.children.find child.actorId = some child)
    (hnodup : (children.map (·.actorId)).Nodup) :
    s.EndsUnseen message
        (restartEach env maxRestarts withinSeconds exitReason (children.map (·.actorId)) s) ↔
      FailsUnseen env maxRestarts withinSeconds exitReason message s.clock children := by
  induction children generalizing s with
  | nil =>
      refine iff_of_false ?_ id
      rintro ⟨h, -⟩
      cases h
  | cons child rest ih =>
      obtain ⟨hfresh, hnodup⟩ := List.nodup_cons.mp hnodup
      have hself := hfind child List.mem_cons_self
      by_cases hover : OverLimit maxRestarts withinSeconds (s.now env child.actorId) child
      · obtain ⟨s', hres, -⟩ := restartOne_of_overLimit exitReason hself hover
        rw [List.map_cons, restartEach, hres]
        refine iff_of_false ?_ fun h => h.1 hover
        rintro ⟨h, -⟩
        cases h
      cases hpolicy : child.restartPolicy.shouldRestart exitReason with
      | false =>
          refine endsUnseen_iff_of_spared hself hover hfresh hpolicy ?_
          intro s' hclock hkeep
          rw [← hclock]
          exact ih (find_of_mem_rest hfind hfresh hkeep) hnodup
      | true =>
          cases hstart : (env.start child.actorId).failure with
          | none =>
              refine iff_of_false (not_endsUnseen_of_started hself hover hfresh hpolicy hstart) ?_
              simp [FailsUnseen, hpolicy, hstart]
          | some message' => exact endsUnseen_iff_of_failure hself hover hpolicy hstart

omit [DecidableEq ι] in
theorem restartedIds_append (visits visits' : List (Visit ι)) :
    restartedIds (visits ++ visits') = restartedIds visits ++ restartedIds visits' := by
  simp [restartedIds]

theorem restartEach_log_of_unseen {message : String}
    (hfind : ∀ child ∈ children, s.children.find child.actorId = some child)
    (hnodup : (children.map (·.actorId)).Nodup)
    (hunseen : FailsUnseen env maxRestarts withinSeconds exitReason message s.clock children) :
    ∃ visits, (restartEach env maxRestarts withinSeconds exitReason (children.map (·.actorId))
        s).2.log = visits ++ s.log ∧ restartedIds visits = [] := by
  induction children generalizing s with
  | nil => exact hunseen.elim
  | cons child rest ih =>
      obtain ⟨hfresh, hnodup⟩ := List.nodup_cons.mp hnodup
      have hself := hfind child List.mem_cons_self
      obtain ⟨hover, -, hunseen⟩ := hunseen
      cases hpolicy : child.restartPolicy.shouldRestart exitReason with
      | false =>
          obtain ⟨s', hres, hclock, hlog, hchildren⟩ :=
            restartOne_of_not_shouldRestart hself hover hpolicy
          rw [hpolicy, if_neg Bool.false_ne_true] at hunseen
          have hrest := find_of_mem_rest hfind hfresh
            fun k hk => by rw [hchildren, if_neg hk]
          obtain ⟨visits, hvisits, hnone⟩ := ih hrest hnodup (by rw [hclock]; exact hunseen)
          refine ⟨visits ++ [⟨child.actorId, s.now env child.actorId, .notRestarted⟩], ?_, ?_⟩
          · rw [List.map_cons, restartEach, hres]
            rw [hvisits, hlog, List.append_assoc]
            rfl
          · rw [restartedIds_append, hnone]
            rfl
      | true =>
          rw [hpolicy, if_pos rfl] at hunseen
          obtain ⟨s', hres, hlog, -⟩ := restartOne_of_failure hself hover hpolicy hunseen
          refine ⟨[⟨child.actorId, s.now env child.actorId, .failed⟩], ?_, rfl⟩
          rw [List.map_cons, restartEach, hres]
          exact hlog

/-- The visit of a child depends on the exit only through the answer of its policy. -/
theorem restartOne_congr {child : SupervisedActor ι} {exit exit' : Option (ExitReason ι)}
    (hfind : s.children.find child.actorId = some child)
    (h : ¬OverLimit maxRestarts withinSeconds (s.now env child.actorId) child →
      child.restartPolicy.shouldRestart exit = child.restartPolicy.shouldRestart exit') :
    s.restartOne env child.actorId maxRestarts withinSeconds exit =
      s.restartOne env child.actorId maxRestarts withinSeconds exit' := by
  have hvisit : child.visit s.stats maxRestarts (fromSecs withinSeconds)
      (s.now env child.actorId) exit (env.start child.actorId) =
      child.visit s.stats maxRestarts (fromSecs withinSeconds)
      (s.now env child.actorId) exit' (env.start child.actorId) := SupervisedActor.visit_congr h
  unfold restartOne
  rw [hfind]
  simp only [hvisit]
  congr 2
  apply Table.update_congr
  intro r hr
  rw [hfind] at hr
  rw [← Option.some.inj hr, hvisit]

/-- A loop over children whose policies give the same answer to both exits. -/
theorem restartEach_congr {exit exit' : Option (ExitReason ι)}
    (hfind : ∀ child ∈ children, s.children.find child.actorId = some child)
    (hnodup : (children.map (·.actorId)).Nodup)
    (h : ∀ child ∈ children,
      child.restartPolicy.shouldRestart exit = child.restartPolicy.shouldRestart exit') :
    restartEach env maxRestarts withinSeconds exit (children.map (·.actorId)) s =
      restartEach env maxRestarts withinSeconds exit' (children.map (·.actorId)) s := by
  induction children generalizing s with
  | nil => rfl
  | cons child rest ih =>
      obtain ⟨hfresh, hnodup⟩ := List.nodup_cons.mp hnodup
      have hself := hfind child List.mem_cons_self
      have hone : s.restartOne env child.actorId maxRestarts withinSeconds exit =
          s.restartOne env child.actorId maxRestarts withinSeconds exit' :=
        restartOne_congr hself fun _ => h child List.mem_cons_self
      obtain ⟨s', hres, -, -, -, hchildren⟩ :=
        restartOne_of_find env hself maxRestarts withinSeconds exit'
      rw [List.map_cons, restartEach, restartEach, hone, hres]
      split
      · next heq =>
          obtain ⟨-, rfl⟩ := Prod.mk.inj heq
          exact ih (find_of_mem_rest hfind hfresh fun k hk => by rw [hchildren, if_neg hk]) hnodup
            fun c hc => h c (List.mem_cons_of_mem _ hc)
      · rfl

/-- A loop that has failed at a child, and one that goes on without it. -/
theorem sameEffect_of_failed_iff {s₀ s' : Supervisor ι} {visits visits' : List (Visit ι)}
    {message : String} (hsame : ∀ k, s'.children.find k = s.children.find k)
    (hfind : ∀ child ∈ children, s.children.find child.actorId = some child)
    (hnodup : (children.map (·.actorId)).Nodup)
    (hlog : s.log = visits ++ s₀.log) (hlog' : s'.log = visits' ++ s₀.log)
    (hids : restartedIds visits' = restartedIds visits) :
    s₀.SameEffect (.error (.restartFailed message), s')
        (restartEach env maxRestarts withinSeconds exitReason (children.map (·.actorId)) s) ↔
      FailsUnseen env maxRestarts withinSeconds exitReason message s.clock children := by
  rw [← restartEach_unseen_iff message hfind hnodup]
  constructor
  · intro heffect
    refine ⟨heffect.result.symm, ?_⟩
    intro k
    rw [← heffect.children k, hsame]
  · intro hends
    have hunseen := (restartEach_unseen_iff message hfind hnodup).mp hends
    obtain ⟨hresult, hkeep⟩ := hends
    obtain ⟨after, hlog₂, hnone⟩ := restartEach_log_of_unseen hfind hnodup hunseen
    refine ⟨hresult.symm, ?_, ?_⟩
    · intro k
      rw [hsame, hkeep]
    · intro k
      rw [restarted, restarted, newVisits_of_log visits' hlog',
        newVisits_of_log (after ++ visits) (by rw [hlog₂, hlog, List.append_assoc]),
        restartedIds_append, hnone, hids]
      simp

/-- The loops part at a transient child that one of them restarts and the other leaves
alone. -/
theorem restartEach_sameEffect_of_transient {s₀ : Supervisor ι} {visits : List (Visit ι)}
    {child : SupervisedActor ι} {rest : List (SupervisedActor ι)}
    (hlog : s.log = visits ++ s₀.log)
    (hfind : ∀ c ∈ child :: rest, s.children.find c.actorId = some c)
    (hnodup : ((child :: rest).map (·.actorId)).Nodup)
    (hover : ¬OverLimit maxRestarts withinSeconds (s.now env child.actorId) child)
    (hnone : child.restartPolicy.shouldRestart (none : Option (ExitReason ι)) = true)
    (hexit : child.restartPolicy.shouldRestart exitReason = false) :
    s₀.SameEffect
        (restartEach env maxRestarts withinSeconds none ((child :: rest).map (·.actorId)) s)
        (restartEach env maxRestarts withinSeconds exitReason
          ((child :: rest).map (·.actorId)) s) ↔
      ∃ message, (env.start child.actorId).failure = some message ∧
        FailsUnseen env maxRestarts withinSeconds exitReason message (s.now env child.actorId)
          rest := by
  obtain ⟨hfresh, hnodup⟩ := List.nodup_cons.mp hnodup
  have hself := hfind child List.mem_cons_self
  obtain ⟨s', hres, hclock, hlog', hchildren⟩ :=
    restartOne_of_not_shouldRestart hself hover hexit
  have hloop : restartEach env maxRestarts withinSeconds exitReason
      ((child :: rest).map (·.actorId)) s =
      restartEach env maxRestarts withinSeconds exitReason (rest.map (·.actorId)) s' := by
    rw [List.map_cons, restartEach, hres]
  rw [hloop]
  have hrest := find_of_mem_rest hfind hfresh fun k hk => by rw [hchildren, if_neg hk]
  cases hstart : (env.start child.actorId).failure with
  | none =>
      obtain ⟨child', hchild', hcount⟩ := restartEach_of_started hself hover hnone hstart hfresh
      refine iff_of_false ?_ ?_
      · intro hsame
        have hsame' := hsame.children child.actorId
        rw [List.map_cons, hchild', restartEach_find_of_not_mem hfresh, hchildren,
          if_pos rfl] at hsame'
        rw [Option.some.inj hsame'] at hcount
        exact hcount rfl
      · rintro ⟨message, hmessage, -⟩
        cases hmessage
  | some message =>
      obtain ⟨s'', hres'', hlog'', hchildren''⟩ := restartOne_of_failure hself hover hnone hstart
      have hfailed : restartEach env maxRestarts withinSeconds none
          ((child :: rest).map (·.actorId)) s = (.error (.restartFailed message), s'') := by
        rw [List.map_cons, restartEach, hres'']
      have hsame : ∀ k, s''.children.find k = s'.children.find k := by
        intro k
        rw [hchildren, hchildren'']
      rw [hlog, ← List.cons_append] at hlog' hlog''
      rw [hfailed, ← hclock, sameEffect_of_failed_iff hsame hrest hnodup hlog' hlog'' rfl]
      constructor
      · exact fun h => ⟨message, rfl, h⟩
      · rintro ⟨message', hmessage, hunseen⟩
        cases hmessage
        exact hunseen

/-- The loop without an exit and the loop with one that a transient child is not restarted
on. -/
theorem restartEach_sameEffect_iff {s₀ : Supervisor ι}
    (hexit : RestartPolicy.transient.shouldRestart exitReason = false)
    (hlog : ∃ visits, s.log = visits ++ s₀.log)
    (hfind : ∀ child ∈ children, s.children.find child.actorId = some child)
    (hnodup : (children.map (·.actorId)).Nodup) :
    s₀.SameEffect
        (restartEach env maxRestarts withinSeconds none (children.map (·.actorId)) s)
        (restartEach env maxRestarts withinSeconds exitReason (children.map (·.actorId)) s) ↔
      SparesTransient env maxRestarts withinSeconds exitReason s.clock children := by
  induction children generalizing s with
  | nil => exact iff_of_true ⟨rfl, fun _ => rfl, fun _ => Iff.rfl⟩ trivial
  | cons child rest ih =>
      obtain ⟨visits, hlog⟩ := hlog
      have hself := hfind child List.mem_cons_self
      have hfresh := (List.nodup_cons.mp hnodup).1
      by_cases htransient : child.restartPolicy = .transient ∧
          ¬OverLimit maxRestarts withinSeconds (s.now env child.actorId) child
      · obtain ⟨hpolicy, hover⟩ := htransient
        rw [restartEach_sameEffect_of_transient hlog hfind hnodup hover (by rw [hpolicy]; rfl)
          (by rw [hpolicy]; exact hexit)]
        constructor
        · intro h _
          rw [if_pos hpolicy]
          exact h
        · intro h
          have hspares := h hover
          rw [if_pos hpolicy] at hspares
          exact hspares
      · -- both loops do the same to this child
        have hone : s.restartOne env child.actorId maxRestarts withinSeconds none =
            s.restartOne env child.actorId maxRestarts withinSeconds exitReason := by
          refine restartOne_congr hself fun hover => ?_
          have hpolicy : child.restartPolicy ≠ .transient := fun h => htransient ⟨h, hover⟩
          exact (RestartPolicy.shouldRestart_eq_none hpolicy exitReason).symm
        rw [List.map_cons, restartEach, restartEach, ← hone]
        by_cases hover : OverLimit maxRestarts withinSeconds (s.now env child.actorId) child
        · obtain ⟨s', hres, -⟩ := restartOne_of_overLimit none hself hover
          rw [hres]
          exact iff_of_true ⟨rfl, fun _ => rfl, fun _ => Iff.rfl⟩ fun h => absurd hover h
        · obtain ⟨result, s', hres, hclock, ⟨outcome, hlog'⟩, hresult, hkeep, -⟩ :=
            restartOne_of_not_overLimit none hself hover
          have hpolicy : child.restartPolicy ≠ .transient := fun h => htransient ⟨h, hover⟩
          rw [hres]
          rcases hresult with ⟨rfl, hpasses⟩ | ⟨⟨message, rfl⟩, hpasses⟩
          · have hlog'' : ∃ visits, s'.log = visits ++ s₀.log :=
              ⟨_ :: visits, by rw [hlog', hlog]; rfl⟩
            have htail := ih hlog'' (find_of_mem_rest hfind hfresh hkeep)
              (List.nodup_cons.mp hnodup).2
            rw [hclock] at htail
            refine htail.trans ⟨?_, ?_⟩
            · intro h _
              rw [if_neg hpolicy]
              exact fun _ => h
            · intro h
              have hspares := h hover
              rw [if_neg hpolicy] at hspares
              exact hspares hpasses
          · refine iff_of_true ⟨rfl, fun _ => rfl, fun _ => Iff.rfl⟩ ?_
            intro _
            rw [if_neg hpolicy]
            exact fun h => absurd h hpasses

end Loop

section Fallback

variable (ids : ActorIds ι) (s : Supervisor ι) (env : Env ι) (id : ι) (reason : String)
  (exitReason : Option (ExitReason ι)) (initial : SupervisionStrategy) (learningRate : Float)

/-- A call under the adaptive strategy and the same call under its initial strategy end
alike. -/
def FallsBack : Prop :=
  s.SameEffect
    (handleFailure ids (s.withStrategy (.adaptive initial learningRate)) env id reason exitReason)
    (handleFailure ids (s.withStrategy initial) env id reason exitReason)

theorem restartOne_withStrategy (strategy : SupervisionStrategy) (maxRestarts : UInt32)
    (withinSeconds : UInt64) :
    (s.withStrategy strategy).restartOne env id maxRestarts withinSeconds exitReason =
      ((s.restartOne env id maxRestarts withinSeconds exitReason).1,
        (s.restartOne env id maxRestarts withinSeconds exitReason).2.withStrategy strategy) := by
  have hfind : (s.withStrategy strategy).children.find id = s.children.find id := rfl
  unfold restartOne
  rw [hfind]
  cases s.children.find id with
  | none => rfl
  | some child => rfl

theorem restartEach_withStrategy (strategy : SupervisionStrategy) (maxRestarts : UInt32)
    (withinSeconds : UInt64) (scope : List ι) :
    restartEach env maxRestarts withinSeconds exitReason scope (s.withStrategy strategy) =
      ((restartEach env maxRestarts withinSeconds exitReason scope s).1,
        (restartEach env maxRestarts withinSeconds exitReason scope s).2.withStrategy
          strategy) := by
  induction scope generalizing s with
  | nil => rfl
  | cons k scope ih =>
      rw [restartEach, restartEach, restartOne_withStrategy]
      rcases s.restartOne env k maxRestarts withinSeconds exitReason with ⟨result, s'⟩
      cases result with
      | ok => exact ih s'
      | error e => rfl

variable {s env id reason exitReason initial learningRate ids} {maxRestarts : UInt32}
  {withinSeconds : UInt64}

/-- Two calls that are loops over one scope, without and with the exit. -/
theorem fallsBack_iff_of_loops {scope : List (SupervisedActor ι)}
    (hscope : scope.Sublist s.children.rows)
    (hadaptive : handleFailure ids (s.withStrategy (.adaptive initial learningRate)) env id reason
        exitReason = restartEach env maxRestarts withinSeconds none (scope.map (·.actorId))
          ((s.recordPattern reason).withStrategy (.adaptive initial learningRate)))
    (hinitial : handleFailure ids (s.withStrategy initial) env id reason exitReason =
      restartEach env maxRestarts withinSeconds
        (exitReason.or (some (ExitReason.fromStr ids reason))) (scope.map (·.actorId))
        ((s.recordPattern reason).withStrategy initial)) :
    FallsBack ids s env id reason exitReason initial learningRate ↔
      RestartPolicy.transient.shouldRestart
          (exitReason.or (some (ExitReason.fromStr ids reason))) = true ∨
        SparesTransient env maxRestarts withinSeconds
          (exitReason.or (some (ExitReason.fromStr ids reason))) s.clock scope := by
  have hfind : ∀ child ∈ scope, (s.recordPattern reason).children.find child.actorId =
      some child := fun c hc => Table.find_of_mem (hscope.subset hc)
  have hnodup : (scope.map (·.actorId)).Nodup :=
    (hscope.map (·.actorId)).nodup s.children.nodup
  set exit := exitReason.or (some (ExitReason.fromStr ids reason))
  -- neither the strategy nor the statistics are part of the effect on the children
  have hdef : FallsBack ids s env id reason exitReason initial learningRate ↔
      s.SameEffect
        (restartEach env maxRestarts withinSeconds none (scope.map (·.actorId))
          (s.recordPattern reason))
        (restartEach env maxRestarts withinSeconds exit (scope.map (·.actorId))
          (s.recordPattern reason)) := by
    rw [FallsBack, hadaptive, hinitial, restartEach_withStrategy, restartEach_withStrategy]
    exact ⟨fun h => ⟨h.result, h.children, h.restarted⟩,
      fun h => ⟨h.result, h.children, h.restarted⟩⟩
  rw [hdef]
  cases hexit : RestartPolicy.transient.shouldRestart exit with
  | true =>
      refine iff_of_true ?_ (.inl rfl)
      have hsame : ∀ child ∈ scope, child.restartPolicy.shouldRestart
          (none : Option (ExitReason ι)) = child.restartPolicy.shouldRestart exit := by
        intro child _
        by_cases hpolicy : child.restartPolicy = .transient
        · rw [hpolicy, hexit]
          rfl
        · exact (RestartPolicy.shouldRestart_eq_none hpolicy exit).symm
      rw [restartEach_congr hfind hnodup hsame]
      exact ⟨rfl, fun _ => rfl, fun _ => Iff.rfl⟩
  | false =>
      have hlog : ∃ visits, (s.recordPattern reason).log = visits ++ s.log := ⟨[], rfl⟩
      rw [restartEach_sameEffect_iff hexit hlog hfind hnodup]
      exact (or_iff_right Bool.false_ne_true).symm

/-- While the restarts do not fail too often, a call under an adaptive strategy ends like
the same call under its initial strategy if and only if a transient child is to be
restarted on the exit, or the loop of the initial strategy gets to no transient child
within its limit (or fails to restart it and then fails in the same way unseen). -/
theorem fallback_iff (ids : ActorIds ι) (s : Supervisor ι) (env : Env ι) (id : ι)
    (reason : String) (exitReason : Option (ExitReason ι)) (initial : SupervisionStrategy)
    (learningRate : Float) (maxRestarts : UInt32) (withinSeconds : UInt64)
    (hbasic : initial.Basic maxRestarts withinSeconds)
    (hstats : s.stats.failedRestarts ≤ 2 * s.stats.successfulRestarts) :
    FallsBack ids s env id reason exitReason initial learningRate ↔
      RestartPolicy.transient.shouldRestart
          (exitReason.or (some (ExitReason.fromStr ids reason))) = true ∨
        SparesTransient env maxRestarts withinSeconds
          (exitReason.or (some (ExitReason.fromStr ids reason))) s.clock
          ((s.withStrategy initial).visitScope id) := by
  let t : Supervisor ι := (s.recordPattern reason).withStrategy (.adaptive initial learningRate)
  have hcalm : ¬t.stats.successfulRestarts * 2 < t.stats.failedRestarts := by
    change ¬s.stats.successfulRestarts * 2 < s.stats.failedRestarts
    omega
  have hcall : handleFailure ids (s.withStrategy (.adaptive initial learningRate)) env id reason
      exitReason = t.applyAdaptiveStrategy env id initial learningRate := rfl
  have hscope : ((s.withStrategy initial).visitScope id).Sublist s.children.rows :=
    (s.withStrategy initial).visitScope_sublist id
  cases hbasic with
  | oneForOne =>
      apply fallsBack_iff_of_loops hscope
      · rw [hcall]
        simp only [applyAdaptiveStrategy, hcalm, decide_false]
        exact restartOne_eq_restartEach id
      · exact restartOne_eq_restartEach id
  | oneForAll =>
      apply fallsBack_iff_of_loops hscope
      · rw [hcall]
        simp only [applyAdaptiveStrategy]
        rfl
      · rfl
  | restForOne =>
      have hrest : t.applyAdaptiveStrategy env id (.restForOne maxRestarts withinSeconds)
          learningRate = t.restartRestForOne env id maxRestarts withinSeconds none := by
        simp only [applyAdaptiveStrategy]
      cases hfind : s.children.find id with
      | none =>
          -- both calls report the unknown child
          have hnil : (s.withStrategy (.restForOne maxRestarts withinSeconds)).visitScope id = [] :=
            fromFailed_of_find_none hfind
          have hinitial : handleFailure ids
              (s.withStrategy (.restForOne maxRestarts withinSeconds)) env id reason exitReason =
              (.error (.childNotFound id), (s.recordPattern reason).withStrategy
                (.restForOne maxRestarts withinSeconds)) := restartRestForOne_of_unknown hfind
          rw [hnil]
          refine iff_of_true ?_ (.inr trivial)
          rw [FallsBack, hcall, hrest, restartRestForOne_of_unknown (s := t) hfind, hinitial]
          exact ⟨rfl, fun _ => rfl, fun _ => Iff.rfl⟩
      | some child =>
          apply fallsBack_iff_of_loops hscope
          · rw [hcall, hrest]
            exact restartRestForOne_of_known (s := t) hfind
          · exact restartRestForOne_of_known hfind

end Fallback

def oneTransient : Supervisor Nat where
  strategy := .oneForOne 3 60
  children := ⟨[⟨0, 2, 0, none, []⟩], by decide⟩
  stats := ⟨0, 0, 0, 0, ∅⟩
  clock := 0
  log := []

def startingEnv : Env Nat := ⟨fun _ => 0, fun _ => .started 0⟩

def noActorIds : ActorIds Nat := ⟨fun _ => none, 0⟩

theorem fallback_iff_oneTransient :
    (SupervisionStrategy.oneForOne 3 60).Basic 3 60 ∧
      oneTransient.stats.failedRestarts ≤ 2 * oneTransient.stats.successfulRestarts ∧
      FallsBack noActorIds oneTransient startingEnv 0 "killed" (some .killed)
        (.oneForOne 3 60) 0.1 :=
  ⟨.oneForOne 3 60, by decide, (fallback_iff noActorIds oneTransient startingEnv 0 "killed"
    (some .killed) (.oneForOne 3 60) 0.1 3 60 (.oneForOne 3 60) (by decide)).mpr (.inl rfl)⟩

/-- The child ends normally: the adaptive strategy restarts it, its initial strategy does
not. -/
theorem not_fallback :
    ¬∀ (ids : ActorIds Nat) (s : Supervisor Nat) (env : Env Nat) (id : Nat) (reason : String)
      (exitReason : Option (ExitReason Nat)) (initial : SupervisionStrategy)
      (learningRate : Float) (maxRestarts : UInt32) (withinSeconds : UInt64),
      initial.Basic maxRestarts withinSeconds →
      s.stats.failedRestarts ≤ 2 * s.stats.successfulRestarts →
      FallsBack ids s env id reason exitReason initial learningRate := by
  intro h
  have hsame := h noActorIds oneTransient startingEnv 0 "normal" (some .normal) (.oneForOne 3 60)
    0.1 3 60 (.oneForOne 3 60) (by decide)
  have hadaptive : 0 ∈ restarted oneTransient (handleFailure noActorIds
      (oneTransient.withStrategy (.adaptive (.oneForOne 3 60) 0.1)) startingEnv 0 "normal"
      (some .normal)).2 := by decide +kernel
  have hinitial : 0 ∉ restarted oneTransient (handleFailure noActorIds
      (oneTransient.withStrategy (.oneForOne 3 60)) startingEnv 0 "normal"
      (some .normal)).2 := by decide +kernel
  exact hinitial ((hsame.restarted 0).mp hadaptive)

end Supervisor

end PlexSpaces.Supervision
