import PlexSpaces.Elastic.Exclusivity
/-!
# Workers and waiters

Three things go wrong with a worker that becomes idle.  A return serves the first waiter
of the queue although its checkout may have given up, and the worker is lost; it looks at
the queue in another section than the one that puts the worker back; and spawning never
looks at the queue.  A run in which none of this happens (`Proper`) loses no worker and
leaves no waiter behind.
-/

namespace PlexSpaces.Elastic

open PlexSpaces.Lib

/-- The call has ended, is not there, has left its worker with a client, or waits for a
response. -/
def Call.quiet : Call → Bool
  | .idle | .held _ | .failed _ | .checkinFailed _ | .done | .waiting none => true
  | _ => false

theorem Call.held_of_quiet {call : Call} {worker : String} (hquiet : call.quiet)
    (hworker : call.worker? = some worker) : call = .held worker := by
  cases call with
  | held w => exact congrArg Call.held (Option.some.inj hworker)
  | waiting response =>
      cases response with
      | none => cases hworker
      | some result =>
          cases result with
          | ok => cases hquiet
          | error => cases hworker
  | idle | failed _ | checkinFailed _ | done => cases hworker
  | _ => cases hquiet

namespace ElasticPool

/-- The only calls in progress are checkouts that wait for a response. -/
def Quiet (s : ElasticPool) : Prop := ∀ c, (s.calls c).quiet

def NobodyWaits (s : ElasticPool) : Prop := ∀ c ∈ s.checkoutQueue, (s.calls c).waits = false

/-- No worker is lost, and no waiter is left in the queue beside an idle worker. -/
def Settled (s : ElasticPool) : Prop :=
  (∀ worker ∈ s.workers, worker ∈ s.availableWorkers ∨ ∃ c, s.Holds c worker) ∧
    (s.availableWorkers ≠ [] → s.NobodyWaits)

/-- A checkout joins the queue while no worker is idle, a worker joins the idle ones while nobody
waits, a response goes to a checkout that waits, and none gives up after a worker was sent to
it. -/
def Proper (s : ElasticPool) : Step → Prop
  | .advance c _ =>
      match s.calls c with
      | .enqueue => s.availableWorkers = []
      | .giveBack _ => s.NobodyWaits
      | .spawn count => count = 0 ∨ s.NobodyWaits
      | .respond _ waiter => (s.calls waiter).waits
      | _ => True
  | .timeout c =>
      match s.calls c with
      | .waiting (some (.ok _)) => False
      | _ => True
  | _ => True

variable {s : ElasticPool} {c : Nat} {config : PoolConfig}

theorem Proper.not_loses {a : Step} (h : s.Proper a) : ¬s.Loses a := by
  intro hloses
  cases a with
  | advance c ids =>
      rw [Loses] at hloses
      rw [Proper] at h
      split at hloses
      · next hcall =>
          rw [hcall] at h
          exact hloses h
      · exact hloses
  | timeout c =>
      rw [Loses] at hloses
      rw [Proper] at h
      split at hloses
      · next hcall =>
          rw [hcall] at h
          exact h
      · exact hloses
  | start => exact hloses
  | checkin => exact hloses

/-- An idle worker and a waiter do not meet. -/
def Served (s : ElasticPool) : Prop := s.availableWorkers = [] ∨ s.NobodyWaits

theorem NobodyWaits.put {next : Call} (h : s.NobodyWaits) (hnext : next.waits = false) :
    (s.put c next).NobodyWaits := by
  intro c' hc'
  by_cases hc : c' = c
  · subst hc
    exact (congrArg Call.waits (Function.update_self ..)).trans hnext
  · exact (congrArg Call.waits (Function.update_of_ne hc ..)).trans (h c' hc')

theorem Served.put {next : Call} (h : s.Served) (hnext : next.waits = false) :
    (s.put c next).Served :=
  h.imp_right fun h => h.put hnext

theorem Served.send {waiter : Nat} (h : s.Served) (response : Except ElasticPoolError String) :
    (s.send waiter response).Served := by
  rw [ElasticPool.send]
  split
  · exact h.put rfl
  · exact h

theorem Served.shrink (h : s.Served) {workers : Assoc String WorkerState} {rest : List String}
    (hsub : rest ⊆ s.availableWorkers) :
    ({ s with workers, availableWorkers := rest } : ElasticPool).Served :=
  h.imp_left fun hnil : s.availableWorkers = [] => List.subset_nil.mp (hnil ▸ hsub)

theorem advance_served (config : PoolConfig) (hex : s.custody.Exclusive) (hs : s.Served)
    {ids : List String} (hproper : s.Proper (.advance c ids)) :
    (s.advance config c ids).Served := by
  rw [Proper] at hproper
  have hsection := advance_cases config ids fun worker h => (hex.held c worker h).1
  generalize s.advance config c ids = s' at hsection ⊢
  cases hsection with
  | stays => exact hs
  | @goes workers draining scalingState next _ _ hnext =>
      exact Served.put (s := { s with workers, draining, scalingState }) hs hnext
  | @takes worker rest hcall hqueue =>
      have hrest : ({ s with availableWorkers := rest } : ElasticPool).Served :=
        hs.shrink (hqueue ▸ List.subset_cons_self worker rest)
      exact hrest.put rfl
  | queues hcall =>
      rw [hcall] at hproper
      exact .inl hproper
  | @serves worker waiter rest hcall hqueue =>
      have hrest : ({ s with checkoutQueue := rest } : ElasticPool).Served :=
        hs.imp_right fun h c hc => h c (hqueue ▸ List.mem_cons_of_mem waiter hc)
      exact hrest.put rfl
  | responds hcall => exact (hs.send _).put rfl
  | refuses hcall => exact (hs.send _).put rfl
  | givesBack hcall =>
      rw [hcall] at hproper
      exact .inr (NobodyWaits.put (s := { s with availableWorkers := _ }) hproper rfl)
  | @spawns ids hcall hfresh =>
      rw [hcall] at hproper
      refine Served.put ?_ rfl
      rcases hproper with hzero | hnobody
      · obtain rfl := List.eq_nil_of_length_eq_zero hzero
        exact hs.imp_left fun hnil : s.availableWorkers = [] => by
          rw [spawnWorkers, hnil]
          rfl
      · exact .inr hnobody
  | removes hcall => exact (hs.shrink (List.filter_subset_self _)).put rfl
  | removesLast hcall => exact (hs.shrink (List.take_subset _ _)).put rfl

theorem step_served (config : PoolConfig) (hex : s.custody.Exclusive) (hs : s.Served) {a : Step}
    (hproper : s.Proper a) : (s.step config a).Served := by
  cases a with
  | advance c ids => exact advance_served config hex hs hproper
  | start c request =>
      rw [step]
      split
      · refine hs.put ?_
        cases request <;> rfl
      · exact hs
  | checkin c =>
      rw [step]
      split
      · exact hs.put rfl
      · exact hs
  | timeout c =>
      rw [step]
      split
      · exact hs.put rfl
      · exact hs.put rfl
      · exact hs

/-- No worker is in two places or lost, and no waiter meets an idle worker. -/
structure Sound (s : ElasticPool) : Prop where
  exclusive : s.custody.Exclusive
  accounted : s.custody.Accounted
  served : s.Served

theorem Sound.step (config : PoolConfig) (hs : s.Sound) {a : Step} (hproper : s.Proper a) :
    (s.step config a).Sound where
  exclusive := step_exclusive config hs.exclusive a
  accounted := by
    rcases step_custody config hs.exclusive a with hpasses | ⟨hloses, -⟩
    · exact hpasses.accounted hs.accounted
    · exact absurd hloses hproper.not_loses
  served := step_served config hs.exclusive hs.served hproper

theorem empty_sound : empty.Sound :=
  ⟨empty_exclusive, fun _ h => (AList.notMem_empty _ h).elim, .inl rfl⟩

/-- In every run of proper steps, whenever no call but waiting checkouts is in progress, every
worker is idle or held by a client, and nobody waits beside an idle worker. -/
theorem settled_of_proper (config : PoolConfig) (steps : List Step)
    (hproper : Along (step config) Proper empty steps)
    (hquiet : (run (step config) empty steps).Quiet) :
    (run (step config) empty steps).Settled := by
  have hsound : (run (step config) empty steps).Sound :=
    hproper.invariant (fun s a h hproper => h.step config hproper) empty_sound
  refine ⟨fun worker hmem => ?_, fun hidle => hsound.served.resolve_left hidle⟩
  refine (hsound.accounted worker hmem).imp_right fun ⟨c, hhand⟩ => ?_
  exact ⟨c, Call.held_of_quiet (hquiet c) hhand⟩

/-- A worker is checked out while a second checkout waits for it. -/
def oneWorker : List Step :=
  [.start 0 (.spawnWorkers 1), .advance 0 ["w1"],
    .start 1 .checkout, .advance 1 [], .advance 1 [], .advance 1 [], .advance 1 [],
    .start 2 .checkout, .advance 2 [], .advance 2 [], .advance 2 []]

def returned : List Step :=
  [.checkin 1, .advance 1 [], .advance 1 [], .advance 1 [], .advance 1 []]

theorem settled_of_proper_handover :
    (run (step ⟨0, 1, id⟩) empty (oneWorker ++ returned ++ [.advance 2 []])).Settled :=
  settled_of_proper ⟨0, 1, id⟩ _
    ⟨trivial, .inr fun _ h => (List.not_mem_nil h).elim, trivial, trivial, trivial, trivial,
      trivial, trivial, trivial, trivial, rfl, trivial, trivial, trivial, trivial, rfl, trivial,
      trivial⟩
    fun c => match c with
      | 0 | 1 | 2 => rfl
      | _ + 3 => rfl

/-- The second checkout times out, and the worker is sent to it. -/
theorem not_settled :
    ¬∀ (config : PoolConfig) (steps : List Step),
      (run (step config) empty steps).Quiet → (run (step config) empty steps).Settled := by
  intro h
  have hquiet : (run (step ⟨0, 1, id⟩) empty (oneWorker ++ [.timeout 2] ++ returned)).Quiet :=
    fun c => match c with
      | 0 | 1 | 2 => rfl
      | _ + 3 => rfl
  have hmem : "w1" ∈
      (run (step ⟨0, 1, id⟩) empty (oneWorker ++ [.timeout 2] ++ returned)).workers := by
    decide
  rcases (h _ _ hquiet).1 "w1" hmem with hidle | ⟨c, hheld⟩
  · revert hidle
    decide
  · match c with
    | 0 | 1 | 2 => cases hheld
    | _ + 3 => cases hheld

end ElasticPool

end PlexSpaces.Elastic
