import PlexSpaces.Scheduler.Background
/-!
# Scheduling under a live lease

The lease is kept by the heartbeat task and asked for by `start`; the worker asks nobody.
A lease that runs out, because the heartbeat task is late, has given up, or was the one task
that `stop` woke, leaves the worker at its requests (`not_schedules_under_live_lease`).  And
the lease key has the node in it, so two nodes hold two leases and process requests at one
time.

A worker processes under a live lease as long as time stops short of the expiry of each
lease that is served, `start` gives a lease back only after its worker has gone, and no
worker is spawned while another one runs (`schedules_under_live_lease`).
-/

namespace PlexSpaces.Scheduler

open PlexSpaces.Lib PlexSpaces.Locks

/-- `start` has the lease and has not spawned its tasks. -/
def StartAt.isLeased : StartAt → Bool
  | leased _ => true
  | _ => false

/-- The task has been spawned and has not ended. -/
def WorkerAt.isAlive {μ : Type} : WorkerAt μ → Bool
  | off | ended => false
  | subscribing | polling | waiting | processing _ => true

/-- The call has got its lease, and its worker has not ended. -/
def Call.Serving {μ : Type} (call : Call μ) : Prop :=
  call.start.isLeased ∨ call.worker.isAlive

instance {μ : Type} (call : Call μ) : Decidable call.Serving :=
  inferInstanceAs (Decidable (_ ∨ _))

theorem Call.not_serving_new {μ : Type} : ¬({} : Call μ).Serving := by
  rintro (h | h)
  · cases h
  · cases h

namespace World

variable {σ ι κ π μ : Type} [DecidableEq ι] [DecidableEq κ]

/-- The state before any call of `start`. -/
def initial (locks : σ) (clock : SystemTime) : World σ ι κ π μ where
  locks := locks
  clock := clock

omit [DecidableEq ι] [DecidableEq κ] in
/-- The worker of a call is inside `process_request`. -/
def Processing (w : World σ ι κ π μ) (i : ι) : Prop :=
  ∃ msg, (w.calls i).worker = .processing msg

/-- The step changes the call `i` at most, starts nothing there, and leaves the locks and
the clock alone. -/
structure Quiet (w w' : World σ ι κ π μ) (i : ι) : Prop where
  locks : w'.locks = w.locks
  clock : w'.clock = w.clock
  others : ∀ j, j ≠ i → w'.calls j = w.calls j
  serving : (w'.calls i).Serving → (w.calls i).Serving
  alive : (w'.calls i).worker.isAlive → (w.calls i).worker.isAlive

/-- Only what the tasks share besides the locks has changed. -/
structure Shares (w w' : World σ ι κ π μ) : Prop where
  locks : w'.locks = w.locks
  clock : w'.clock = w.clock
  calls : w'.calls = w.calls

section Quiet

variable {w w' : World σ ι κ π μ} {i : ι}

omit [DecidableEq ι] in
theorem shares_of_await {k : κ} {t : ι × Task} {b : Bool} (h : w.await k t = (b, w')) :
    Shares w w' := by
  obtain rfl : (w.await k t).2 = w' := congrArg Prod.snd h
  exact ⟨rfl, rfl, rfl⟩

theorem shares_dropNotified (k : κ) (t : ι × Task) : Shares w (w.dropNotified k t) := by
  unfold dropNotified
  split_ifs
  · exact ⟨rfl, rfl, rfl⟩
  · exact ⟨rfl, rfl, rfl⟩

omit [DecidableEq ι] [DecidableEq κ] in
theorem Shares.quiet (h : Shares w w') : Quiet w w' i := by
  refine ⟨h.locks, h.clock, fun j _ => congrFun h.calls j, ?_, ?_⟩
  · exact congrFun h.calls i ▸ id
  · exact congrFun h.calls i ▸ id

omit [DecidableEq ι] [DecidableEq κ] in
theorem Quiet.refl (w : World σ ι κ π μ) (i : ι) : Quiet w w i :=
  Shares.quiet ⟨rfl, rfl, rfl⟩

omit [DecidableEq κ] in
@[simp] theorem set_calls_self (call : Call μ) : (w.set i call).calls i = call :=
  Function.update_self _ _ _

omit [DecidableEq κ] in
theorem quiet_set (h : Shares w w') {call : Call μ}
    (hserving : call.Serving → (w.calls i).Serving)
    (halive : call.worker.isAlive → (w.calls i).worker.isAlive) : Quiet w (w'.set i call) i where
  locks := h.locks
  clock := h.clock
  others := fun j hj => (Function.update_of_ne hj _ _).trans (congrFun h.calls j)
  serving := by rwa [set_calls_self]
  alive := by rwa [set_calls_self]

omit [DecidableEq κ] in
/-- Any move of `start` but to the lease. -/
theorem quiet_setStart (h : Shares w w') {at' : StartAt} (hat : at'.isLeased = false) :
    Quiet w (w'.setStart i at') i := by
  unfold setStart
  rw [h.calls]
  exact quiet_set h (Or.imp (fun hlease => absurd (hat.symm.trans hlease) Bool.false_ne_true) id) id

omit [DecidableEq κ] in
theorem quiet_setWorker (h : Shares w w') {at' : WorkerAt μ}
    (hat : at'.isAlive → (w.calls i).worker.isAlive) : Quiet w (w'.setWorker i at') i := by
  unfold setWorker
  rw [h.calls]
  exact quiet_set h (Or.imp id hat) hat

omit [DecidableEq κ] in
theorem quiet_endWorker (h : Shares w w') : Quiet w (w'.setWorker i .ended) i :=
  quiet_setWorker h fun hended => absurd hended Bool.false_ne_true

omit [DecidableEq κ] in
theorem quiet_setHeartbeat (h : Shares w w') {at' : HeartbeatAt} :
    Quiet w (w'.setHeartbeat i at') i := by
  unfold setHeartbeat
  rw [h.calls]
  exact quiet_set h id id

end Quiet

end World

namespace Cluster

variable {σ ρ ι κ π μ : Type} [DecidableEq ι] [DecidableEq κ] [DecidableEq π]
  (c : Cluster σ ρ ι κ π)

/-- The scheduler of the call holds an unexpired lease on its key at `now`. -/
def HoldsLease (locks : σ) (now : SystemTime) (i : ι) : Prop :=
  Live (c.lockManager.owner locks) (c.self i).leaseId (c.self i).nodeId now

instance (locks : σ) (now : SystemTime) (i : ι) : Decidable (c.HoldsLease locks now i) :=
  inferInstanceAs (Decidable (Live _ _ _ _))

/-- Requests are processed under a live lease, and by one worker. -/
def SchedulesUnderLiveLease (w : World σ ι κ π μ) : Prop :=
  (∀ i, w.Processing i → c.HoldsLease w.locks w.clock i) ∧
    ∀ i j, w.Processing i → w.Processing j → i = j

/-- Time stops short of the expiry of each lease that is served; no worker is spawned while
another one runs; and no lease is released that is served. -/
def KeepsLease (w : World σ ι κ π μ) : Step ι κ μ ρ → Prop
  | .pass elapsed =>
      ∀ i, (w.calls i).Serving → c.HoldsLease w.locks (w.clock + elapsed) i
  | .start i .spawn => ∀ j, j ≠ i → ¬(w.calls j).worker.isAlive
  | .start i (.release _) =>
      ∀ j, (w.calls j).Serving → (c.self j).leaseId ≠ (c.self i).leaseId
  | _ => True

/-- What every good step keeps. -/
structure Sound (w : World σ ι κ π μ) : Prop where
  live : ∀ i, (w.calls i).Serving → c.HoldsLease w.locks w.clock i
  sole : ∀ i j, (w.calls i).worker.isAlive → (w.calls j).worker.isAlive → i = j

variable {c}

section Sound

variable {w w' : World σ ι κ π μ} {i : ι}

omit [DecidableEq ι] [DecidableEq κ] [DecidableEq π] in
theorem Sound.schedules (h : c.Sound w) : c.SchedulesUnderLiveLease w := by
  have halive : ∀ i, w.Processing i → (w.calls i).worker.isAlive := by
    rintro i ⟨msg, hmsg⟩
    rw [hmsg]
    rfl
  constructor
  · intro i hi
    exact h.live i (.inr (halive i hi))
  · intro i j hi hj
    exact h.sole i j (halive i hi) (halive j hj)

omit [DecidableEq κ] [DecidableEq π] in
theorem Sound.quiet (h : c.Sound w) (hq : w.Quiet w' i) : c.Sound w' := by
  have hserving : ∀ j, (w'.calls j).Serving → (w.calls j).Serving := by
    intro j
    by_cases hj : j = i
    · exact hj ▸ hq.serving
    · exact hq.others j hj ▸ id
  have halive : ∀ j, (w'.calls j).worker.isAlive → (w.calls j).worker.isAlive := by
    intro j
    by_cases hj : j = i
    · exact hj ▸ hq.alive
    · exact hq.others j hj ▸ id
  constructor
  · intro j hj
    rw [hq.locks, hq.clock]
    exact h.live j (hserving j hj)
  · intro j j' hj hj'
    exact h.sole j j' (halive j hj) (halive j' hj')

omit [DecidableEq ι] [DecidableEq κ] [DecidableEq π] in
/-- The locks change, and no lease that is served is lost. -/
theorem Sound.relock (h : c.Sound w) {locks : σ}
    (hlive : ∀ j, (w.calls j).Serving → c.HoldsLease w.locks w.clock j →
      c.HoldsLease locks w.clock j) :
    c.Sound { w with locks := locks } where
  live := fun j hj => hlive j hj (h.live j hj)
  sole := h.sole

end Sound

omit [DecidableEq ι] [DecidableEq κ] [DecidableEq π] in
theorem nodeId_eq_of_leaseId_eq {i j : ι} (h : (c.self j).leaseId = (c.self i).leaseId) :
    (c.self j).nodeId = (c.self i).nodeId :=
  (String.append_right_inj _).mp (congrArg (·.2.2) h)

omit [DecidableEq ι] [DecidableEq κ] [DecidableEq π] in
theorem HoldsLease.asked {locks : σ} {now : SystemTime} {i j : ι}
    {answer : LockResult Lock × σ} (hdur : 0 < (c.self i).leaseDurationSecs.toNat)
    (hanswer : Leases c.lockManager.owner locks (c.self i).leaseId (c.self i).nodeId
      (c.self i).leaseDurationSecs now answer) (h : c.HoldsLease locks now j) :
    c.HoldsLease answer.2 now j := by
  cases hres : answer.1 with
  | error e =>
      rw [hanswer.refused e hres]
      exact h
  | ok lock =>
      by_cases hkey : (c.self j).leaseId = (c.self i).leaseId
      · unfold HoldsLease
        rw [hkey, nodeId_eq_of_leaseId_eq hkey]
        exact hanswer.granted lock hres hdur
      · obtain ⟨e, howner, he⟩ := h
        exact ⟨e, (hanswer.frame _ hkey).trans howner, he⟩

section Asked

variable {w : World σ ι κ π μ} {i : ι}

omit [DecidableEq ι] [DecidableEq κ] [DecidableEq π] in
theorem Sound.asked (h : c.Sound w) {answer : LockResult Lock × σ}
    (hdur : 0 < (c.self i).leaseDurationSecs.toNat)
    (hanswer : Leases c.lockManager.owner w.locks (c.self i).leaseId (c.self i).nodeId
      (c.self i).leaseDurationSecs w.clock answer) : c.Sound { w with locks := answer.2 } :=
  h.relock fun _ _ hj => hj.asked hdur hanswer

omit [DecidableEq ι] [DecidableEq κ] [DecidableEq π] in
theorem Sound.unserved (h : c.Sound w) {key : LockId}
    (hkey : ∀ j, (w.calls j).Serving → (c.self j).leaseId ≠ key) {locks : σ}
    (hframe : ∀ k, k ≠ key → c.lockManager.owner locks k = c.lockManager.owner w.locks k) :
    c.Sound { w with locks := locks } := by
  apply h.relock
  intro j hserving hj
  obtain ⟨e, howner, he⟩ := hj
  exact ⟨e, (hframe _ (hkey j hserving)).trans howner, he⟩

omit [DecidableEq κ] [DecidableEq π] in
/-- A call with a lease starts to serve, alone if its worker runs. -/
theorem Sound.serve (h : c.Sound w) {call : Call μ} (hlive : c.HoldsLease w.locks w.clock i)
    (hsole : call.worker.isAlive → ∀ j, j ≠ i → ¬(w.calls j).worker.isAlive) :
    c.Sound (w.set i call) := by
  have hother : ∀ j, j ≠ i → (w.set i call).calls j = w.calls j :=
    fun j hj => Function.update_of_ne hj _ _
  constructor
  · intro j hj
    by_cases hji : j = i
    · exact hji ▸ hlive
    · rw [hother j hji] at hj
      exact h.live j hj
  · intro j j' hj hj'
    by_cases hji : j = i
    · by_cases hji' : j' = i
      · exact hji.trans hji'.symm
      · rw [hji, World.set_calls_self] at hj
        rw [hother j' hji'] at hj'
        exact absurd hj' (hsole hj j' hji')
    · rw [hother j hji] at hj
      by_cases hji' : j' = i
      · rw [hji', World.set_calls_self] at hj'
        exact absurd hj (hsole hj' j hji)
      · rw [hother j' hji'] at hj'
        exact h.sole j j' hj hj'

end Asked

section Steps

variable {w : World σ ι κ π μ}

omit [DecidableEq π] in
theorem workerStep_quiet (w : World σ ι κ π μ) (i : ι) (action : WorkerAction μ) :
    w.Quiet (c.workerStep w i action) i := by
  have hsame : w.Shares w := ⟨rfl, rfl, rfl⟩
  have hmove : ∀ {w' at'}, w.Shares w' → (w.calls i).worker.isAlive →
      w.Quiet (w'.setWorker i at') i :=
    fun hs halive => World.quiet_setWorker hs fun _ => halive
  cases action with
  | subscribe ok =>
      rw [workerStep]
      split
      next hat =>
        exact hmove hsame (by rw [hat]; rfl)
      · exact .refl w i
  | poll =>
      rw [workerStep]
      split
      next hat =>
        split
        next hawait => exact World.quiet_endWorker (World.shares_of_await hawait)
        next hawait =>
          exact hmove (World.shares_of_await hawait) (by rw [hat]; rfl)
      · exact .refl w i
  | next msg =>
      rw [workerStep]
      split
      next hat =>
        exact hmove hsame (by rw [hat]; rfl)
      next hat =>
        exact hmove (World.shares_dropNotified _ _) (by rw [hat]; rfl)
      · exact .refl w i
  | processed =>
      rw [workerStep]
      split
      next hat =>
        exact hmove hsame (by rw [hat]; rfl)
      · exact .refl w i
  | wake =>
      rw [workerStep]
      split
      · split
        · exact World.quiet_endWorker ⟨rfl, rfl, rfl⟩
        · exact .refl w i
      · exact .refl w i
  | drop =>
      rw [workerStep]
      split
      · split
        · exact World.quiet_endWorker (World.shares_dropNotified _ _)
        · exact World.quiet_endWorker hsame
      · exact .refl w i

omit [DecidableEq π] in
/-- The heartbeat task asks for the lease of its scheduler and does nothing to the workers. -/
theorem heartbeatStep_sound (h : c.Sound w) {i : ι}
    (hdur : 0 < (c.self i).leaseDurationSecs.toNat) (action : HeartbeatAction ρ) :
    c.Sound (c.heartbeatStep w i action) := by
  have hsame : w.Shares w := ⟨rfl, rfl, rfl⟩
  cases action with
  | begin =>
      rw [heartbeatStep]
      split
      · split
        · exact h.quiet (World.quiet_setHeartbeat hsame)
        · exact h.quiet (World.quiet_set hsame id id)
      · exact h
  | poll =>
      rw [heartbeatStep]
      split
      · split
        next hawait => exact h.quiet (World.quiet_setHeartbeat (World.shares_of_await hawait))
        next hawait => exact h.quiet (World.quiet_setHeartbeat (World.shares_of_await hawait))
      · exact h
  | tick =>
      rw [heartbeatStep]
      split
      · split
        · exact h.quiet (World.quiet_set hsame id id)
        · have hdrop : c.Sound (w.dropNotified (c.target i) (i, .heartbeat)) :=
            h.quiet (i := i) (World.shares_dropNotified _ _).quiet
          exact hdrop.quiet (World.quiet_set ⟨rfl, rfl, rfl⟩ id id)
        · exact h
      · exact h
  | renew r =>
      rw [heartbeatStep]
      split
      · exact h.quiet (World.quiet_setHeartbeat hsame)
      next lease hat =>
        have hlocks := h.asked hdur (c.lockManager.renews w.locks
          BackgroundScheduler.defaultContext ((c.self i).renewOptions lease) w.clock r)
        split
        next hres =>
          rw [hres] at hlocks
          exact hlocks.quiet (World.quiet_setHeartbeat ⟨rfl, rfl, rfl⟩)
        next hres =>
          rw [hres] at hlocks
          exact hlocks.quiet (World.quiet_setHeartbeat ⟨rfl, rfl, rfl⟩)
        next hres =>
          rw [hres] at hlocks
          exact hlocks.quiet (World.quiet_setHeartbeat ⟨rfl, rfl, rfl⟩)
      · exact h
  | adopt r =>
      rw [heartbeatStep]
      split
      · split
        · split <;> exact h.quiet (World.quiet_setHeartbeat hsame)
        · exact h.quiet (World.quiet_setHeartbeat hsame)
      · exact h
  | retry =>
      rw [heartbeatStep]
      split
      · split
        · exact h.quiet (World.quiet_setHeartbeat hsame)
        · exact h
      · split
        · exact h.quiet (World.quiet_setHeartbeat hsame)
        · exact h
      · exact h
  | acquire r =>
      rw [heartbeatStep]
      split
      · have hlocks := h.asked hdur (c.lockManager.acquires w.locks
          BackgroundScheduler.defaultContext (c.self i).acquireOptions w.clock r)
        split
        next hres =>
          rw [hres] at hlocks
          exact hlocks.quiet (World.quiet_setHeartbeat ⟨rfl, rfl, rfl⟩)
        next hres =>
          rw [hres] at hlocks
          exact hlocks.quiet (World.quiet_setHeartbeat ⟨rfl, rfl, rfl⟩)
      · exact h
  | store =>
      rw [heartbeatStep]
      split
      · refine h.quiet (World.quiet_setHeartbeat ?_)
        exact ⟨rfl, rfl, rfl⟩
      · exact h
  | wake =>
      rw [heartbeatStep]
      split
      · split
        · refine h.quiet (World.quiet_setHeartbeat ?_)
          exact ⟨rfl, rfl, rfl⟩
        · exact h
      · exact h
  | drop =>
      rw [heartbeatStep]
      split
      · split
        · exact h.quiet (World.quiet_setHeartbeat (World.shares_dropNotified _ _))
        · exact h.quiet (World.quiet_setHeartbeat hsame)
      · exact h

omit [DecidableEq κ] [DecidableEq π] in
theorem abortTasks_quiet {w' : World σ ι κ π μ} (hs : w.Shares w') (i : ι) :
    w.Quiet (abortTasks w' i) i := by
  unfold abortTasks
  rw [hs.calls]
  refine World.quiet_set hs ?_ id
  rintro (hlease | halive)
  · cases hlease
  · exact .inr halive

omit [DecidableEq κ] in
theorem releaseNodeStart_quiet {w' : World σ ι κ π μ} (hs : w.Shares w') (i : ι)
    (result : BackgroundSchedulerResult Unit) :
    w.Quiet (c.releaseNodeStart w' i result) i := by
  unfold releaseNodeStart
  apply World.quiet_setStart
  · exact ⟨hs.locks, hs.clock, hs.calls⟩
  · rfl

theorem startStep_sound (h : c.Sound w) {i : ι}
    (hdur : 0 < (c.self i).leaseDurationSecs.toNat) {action : StartAction ρ}
    (hkeep : c.KeepsLease w (.start i action)) : c.Sound (c.startStep w i action) := by
  have hsame : w.Shares w := ⟨rfl, rfl, rfl⟩
  have hmove : ∀ {w' at'}, w.Shares w' → at'.isLeased = false →
      c.Sound (w'.setStart i at') :=
    fun hs hat => h.quiet (World.quiet_setStart hs hat)
  cases action with
  | claim =>
      rw [startStep]
      split
      · split
        · exact hmove hsame rfl
        · refine hmove ?_ rfl
          exact ⟨rfl, rfl, rfl⟩
      · exact h
  | acquire r =>
      rw [startStep]
      split
      · have hanswer := c.lockManager.acquires w.locks BackgroundScheduler.defaultContext
          (c.self i).acquireOptions w.clock r
        have hlocks := h.asked hdur hanswer
        split
        next lease locks hres =>
          rw [hres] at hanswer hlocks
          refine hlocks.serve (hanswer.granted lease rfl hdur) fun halive j hj halive' => ?_
          exact hj (h.sole j i halive' halive)
        next hres =>
          rw [hres] at hlocks
          exact hlocks.quiet (releaseNodeStart_quiet ⟨rfl, rfl, rfl⟩ i _)
      · exact h
  | spawn =>
      rw [startStep]
      split
      next lease hat =>
        have hstored : c.Sound
            { w with
              currentLease := Function.update w.currentLease (c.target i) (some lease) } :=
          h.quiet (i := i) (World.Shares.quiet ⟨rfl, rfl, rfl⟩)
        exact hstored.serve (h.live i (.inl (by rw [hat]; rfl))) fun _ => hkeep
      · exact h
  | poll =>
      rw [startStep]
      split
      · split
        next hawait => exact h.quiet (abortTasks_quiet (World.shares_of_await hawait) i)
        next hawait =>
          exact hmove (World.shares_of_await hawait) rfl
      · exact h
  | wake =>
      rw [startStep]
      split
      · split
        · refine h.quiet (abortTasks_quiet ?_ i)
          exact ⟨rfl, rfl, rfl⟩
        · exact h
      · exact h
  | readLease =>
      rw [startStep]
      split
      · exact hmove hsame rfl
      · exact h
  | release r =>
      rw [startStep]
      split
      next lease hat =>
        have hlocks := h.unserved hkeep (c.lockManager.releases w.locks
          BackgroundScheduler.defaultContext ((c.self i).releaseOptions lease) w.clock r)
        exact hlocks.quiet (World.quiet_setStart ⟨rfl, rfl, rfl⟩ rfl)
      · exact h.quiet (releaseNodeStart_quiet hsame i _)
      · exact h
  | finish =>
      rw [startStep]
      split
      · refine h.quiet (releaseNodeStart_quiet ?_ i _)
        exact ⟨rfl, rfl, rfl⟩
      · exact h.quiet (releaseNodeStart_quiet hsame i _)
      · exact h

/-- Every good step of the schedulers keeps the leases that are served. -/
theorem step_sound (hdur : ∀ k, 0 < (c.scheduler k).leaseDurationSecs.toNat)
    (s : Step ι κ μ ρ) (h : c.Sound w) (hkeep : c.KeepsLease w s) : c.Sound (c.step w s) := by
  cases s with
  | pass elapsed => exact ⟨hkeep, h.sole⟩
  | stop k => exact ⟨h.live, h.sole⟩
  | start i action => exact startStep_sound h (hdur _) hkeep
  | worker i action => exact h.quiet (workerStep_quiet w i action)
  | heartbeat i action => exact heartbeatStep_sound h (hdur _) action

end Steps

omit [DecidableEq ι] [DecidableEq κ] [DecidableEq π] in
theorem initial_sound (locks : σ) (clock : SystemTime) :
    c.Sound (World.initial locks clock : World σ ι κ π μ) where
  live := fun _ h => absurd h Call.not_serving_new
  sole := fun _ _ h => absurd h Bool.false_ne_true

/-- Any number of schedulers with leases of at least a second: requests are processed under
a live lease and by one worker in every run whose steps keep the leases. -/
theorem schedules_under_live_lease (c : Cluster σ ρ ι κ π)
    (hdur : ∀ k, 0 < (c.scheduler k).leaseDurationSecs.toNat) (locks : σ) (clock : SystemTime)
    {steps : List (Step ι κ μ ρ)}
    (hrun : Along c.step c.KeepsLease (World.initial locks clock) steps) :
    c.SchedulesUnderLiveLease (run c.step (World.initial locks clock) steps) :=
  (hrun.invariant (fun _ s h hkeep => step_sound hdur s h hkeep)
    (initial_sound locks clock)).schedules

def twoNodes : Cluster LockStore String Bool Bool Bool where
  lockManager := Memory.lockManager
  scheduler := fun b => ⟨if b then "node-1" else "node-2", 60, 15, b⟩
  target := id

/-- The node starts its tasks, and its worker subscribes. -/
def begin (i : Bool) (version : String) : List (Step Bool Bool String String) :=
  [.start i .claim, .start i (.acquire version), .start i .spawn, .worker i (.subscribe true)]

/-- The heartbeat task renews the lease when it is due, and after a minute the worker gets a
request. -/
def renewed : List (Step Bool Bool String String) :=
  begin true "v1" ++
    [.heartbeat true .begin, .heartbeat true .poll, .pass (fromSecs 15), .heartbeat true .tick,
      .heartbeat true (.renew "v2"), .heartbeat true .store, .pass (fromSecs 50),
      .worker true (.next (some "request"))]

theorem schedules_under_live_lease_renewed :
    twoNodes.SchedulesUnderLiveLease (run twoNodes.step (World.initial ∅ 0) renewed) := by
  refine schedules_under_live_lease twoNodes (by decide) ∅ 0 ?_
  refine ⟨trivial, trivial, ?_, trivial, trivial, trivial, ?_, trivial, trivial, trivial, ?_,
    trivial, trivial⟩
  · intro j hj
    cases j with
    | true => exact absurd rfl hj
    | false => exact Bool.false_ne_true
  · rw [KeepsLease]
    decide +kernel
  · rw [KeepsLease]
    decide +kernel

/-- The heartbeat task is never run, and the worker gets a request when the lease is over. -/
def lateHeartbeat : List (Step Bool Bool String String) :=
  begin true "v1" ++ [.pass (fromSecs 60), .worker true (.next (some "request"))]

def bothNodes : List (Step Bool Bool String String) :=
  begin true "v1" ++ begin false "v2" ++
    [.worker true (.next (some "request-1")), .worker false (.next (some "request-2"))]

theorem not_schedules_under_live_lease :
    (¬∀ (steps : List (Step Bool Bool String String)) (i : Bool),
      (run twoNodes.step (World.initial ∅ 0) steps).Processing i →
        twoNodes.HoldsLease (run twoNodes.step (World.initial ∅ 0) steps).locks
          (run twoNodes.step (World.initial ∅ 0) steps).clock i) ∧
    ¬∀ (steps : List (Step Bool Bool String String)) (i j : Bool),
      (run twoNodes.step (World.initial ∅ 0) steps).Processing i →
        (run twoNodes.step (World.initial ∅ 0) steps).Processing j → i = j := by
  constructor
  · intro h
    have hlive := h lateHeartbeat true ⟨"request", by decide +kernel⟩
    revert hlive
    decide +kernel
  · intro h
    have hsame := h bothNodes true false ⟨"request-1", by decide +kernel⟩
      ⟨"request-2", by decide +kernel⟩
    exact Bool.false_ne_true hsame.symm

end Cluster

end PlexSpaces.Scheduler
