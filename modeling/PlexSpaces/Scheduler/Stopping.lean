import PlexSpaces.Scheduler.LiveLease
/-!
# Stopping a scheduler

`stop` notifies one task, and three tasks wait: `start`, the worker and the heartbeat task.
The worker and the heartbeat task end on the notification and tell nobody, so `start` waits
for ever when it was not the first in the queue (`not_stopEndsStart`).  Nor is the lease
released when the heartbeat task has renewed it and is stopped before it recorded the new
version.

`start` is notified as long as neither of the other tasks takes the notification up, and
gives the lease back as long as `current_lease` is the last one that the heartbeat task got
(`stopEndsStart`).
-/

namespace PlexSpaces.Scheduler

open PlexSpaces.Lib PlexSpaces.Locks

namespace StartAt

/-- `start` has its lease and has not been notified. -/
def isServing : StartAt → Bool
  | leased _ | polling | waiting => true
  | _ => false

/-- `start` has not spawned its tasks. -/
def isFresh : StartAt → Bool
  | idle | claimed | leased _ => true
  | _ => false

def isNotified : StartAt → Bool
  | stopping | releasing _ | released _ | returned _ => true
  | _ => false

/-- `start` has read the lease that it releases. -/
def hasRead : StartAt → Bool
  | releasing _ | released _ | returned _ => true
  | _ => false

theorem not_isNotified_of_isFresh {at' : StartAt} (h : at'.isFresh) : ¬at'.isNotified := by
  cases at' <;> first | exact Bool.false_ne_true | exact absurd h Bool.false_ne_true

end StartAt

def HeartbeatAt.isAsking : HeartbeatAt → Bool
  | renewing _ _ | acquiring _ => true
  | _ => false

namespace Call

variable {μ : Type}

/-- The task is suspended at `notified()`. -/
def Waits (call : Call μ) : Unit × Task → Prop
  | (_, .start) => call.start = .waiting
  | (_, .worker) => call.worker = .waiting
  | (_, .heartbeat) => call.heartbeat = .waiting

/-- The tasks run once they are spawned, and are aborted once `start` is notified. -/
structure Fresh (call : Call μ) : Prop where
  off : call.start.isFresh → call.worker = .off ∧ call.heartbeat = .off
  aborted : call.aborted → call.start.isNotified

/-- Only the task `t` has gone on, and `start` not backwards. -/
structure Moves (t : Unit × Task) (call call' : Call μ) : Prop where
  others : ∀ s, s ≠ t → call.Waits s → call'.Waits s
  notified : call.start.isNotified → call'.start.isNotified

variable {call : Call μ}

theorem moves_worker (at' : WorkerAt μ) :
    Moves ((), .worker) call { call with worker := at' } where
  others := by
    rintro ⟨_, task⟩ hs h
    cases task with
    | start => exact h
    | worker => exact absurd rfl hs
    | heartbeat => exact h
  notified := id

theorem moves_heartbeat (at' : HeartbeatAt) (nextTick : SystemTime) :
    Moves ((), .heartbeat) call { call with heartbeat := at', nextTick := nextTick } where
  others := by
    rintro ⟨_, task⟩ hs h
    cases task with
    | start => exact h
    | worker => exact h
    | heartbeat => exact absurd rfl hs
  notified := id

theorem moves_start {at' : StartAt} (aborted : Bool)
    (h : call.start.isNotified → at'.isNotified) :
    Moves ((), .start) call { call with start := at', aborted := aborted } where
  others := by
    rintro ⟨_, task⟩ hs h
    cases task with
    | start => exact absurd rfl hs
    | worker => exact h
    | heartbeat => exact h
  notified := h

end Call

namespace World

variable {σ π μ : Type}

/-- `start` waits, there is no permit, and no task that was notified is still to go on. -/
def Stuck (w : World σ Unit Unit π μ) : Prop :=
  (w.calls ()).start = .waiting ∧ ¬(w.shutdown ()).HasPermit ∧
    ∀ t ∈ w.woken, ¬(w.calls ()).Waits t

end World

namespace Cluster

variable {σ ρ π μ : Type} [DecidableEq π]

/-- One scheduler and one call of `start` on it. -/
def solo (lockManager : LockManager σ ρ) (scheduler : BackgroundScheduler π) :
    Cluster σ ρ Unit Unit π where
  lockManager := lockManager
  scheduler := fun _ => scheduler
  target := id

variable (lockManager : LockManager σ ρ) (scheduler : BackgroundScheduler π)

def NoLease (w : World σ Unit Unit π μ) : Prop :=
  ∀ h t, w.clock ≤ t → ¬Live (lockManager.owner w.locks) scheduler.leaseId h t

/-- `start` does not wait for ever, and when it has returned the lease is released and the
node may start again. -/
structure StopEndsStart (w : World σ Unit Unit π μ) : Prop where
  notStuck : ¬w.Stuck
  released : ∀ result, (w.calls ()).start = .returned result →
    NoLease lockManager scheduler w ∧ scheduler.nodeId ∉ w.active scheduler.process

/-- The worker and the heartbeat task do not take the notification up.  The heartbeat task has
recorded its lease when it is dropped and when `start` reads the lease, and asks for none after
that.  The backend does not fail when the lease is released. -/
def StopsClean (w : World σ Unit Unit π μ) : Step Unit Unit μ ρ → Prop
  | .worker _ .poll => (w.calls ()).worker = .polling → ¬(w.shutdown ()).HasPermit
  | .worker _ .wake => (w.calls ()).worker = .waiting → ((), .worker) ∉ w.woken
  | .heartbeat _ .poll => (w.calls ()).heartbeat = .polling → ¬(w.shutdown ()).HasPermit
  | .heartbeat _ .wake => (w.calls ()).heartbeat = .waiting → ((), .heartbeat) ∉ w.woken
  | .heartbeat _ (.renew _) | .heartbeat _ (.acquire _) =>
      (w.calls ()).heartbeat.isAsking → (w.calls ()).start.hasRead = false
  | .heartbeat _ .drop =>
      (w.calls ()).aborted → (w.calls ()).start.hasRead = false →
        ∀ lease, (w.calls ()).heartbeat ≠ .storing lease
  | .start _ .readLease =>
      (w.calls ()).start = .stopping → ∀ lease, (w.calls ()).heartbeat ≠ .storing lease
  | .start _ (.release r) =>
      ∀ lease, (w.calls ()).start = .releasing (some lease) → ∀ message,
        (lockManager.releaseLock w.locks BackgroundScheduler.defaultContext
          (scheduler.releaseOptions lease) w.clock r).1 ≠ .error (.backendError message)
  | _ => True

end Cluster

/-! ## The notification -/

section Notification

variable {μ : Type}

/-- The tasks that are registered wait, and after `stop` the notification is on its way or has
come to `start`. -/
structure Tracks (told : Prop) (n : Notify (Unit × Task)) (woken : List (Unit × Task))
    (call : Call μ) : Prop where
  registered : n.Registered woken call.Waits
  owed : told → n.Owed woken ∨ call.start.isNotified

variable {told : Prop} {n : Notify (Unit × Task)} {woken : List (Unit × Task)}
  {call call' : Call μ} {t : Unit × Task}

theorem Tracks.quiet (h : Tracks told n woken call) (hmoves : call.Moves t call')
    (ht : ¬call.Waits t) : Tracks told n woken call' where
  registered := h.registered.mono fun s _ hs => hmoves.others s (fun hst => ht (hst ▸ hs)) hs
  owed := fun htold => (h.owed htold).imp_right hmoves.notified

theorem Tracks.poll (h : Tracks told n woken call) (hmoves : call.Moves t call')
    (ht : ¬call.Waits t) (hwaits : (n.await t).1 = false → call'.Waits t)
    (htaken : told → n.HasPermit → call'.start.isNotified) :
    Tracks told (n.await t).2 woken call' where
  registered := h.registered.await ht hmoves.others hwaits
  owed := by
    intro htold
    by_cases hpermit : n.HasPermit
    · exact .inr (htaken htold hpermit)
    · rcases h.owed htold with howed | hnotified
      · exact .inl (howed.await hpermit)
      · exact .inr (hmoves.notified hnotified)

theorem Tracks.take (h : Tracks told n woken call) (hmoves : call.Moves t call')
    (ht : t ∈ woken) (htaken : told → call'.start.isNotified) :
    Tracks told n (woken.erase t) call' where
  registered := h.registered.take ht hmoves.others
  owed := fun htold => .inr (htaken htold)

theorem Tracks.notifyOne (h : Tracks told n woken call) :
    Tracks True n.notifyOne.2 (n.notifyOne.1.toList ++ woken) call where
  registered := h.registered.notifyOne
  owed := fun _ => .inl (n.owed_notifyOne woken)

end Notification

namespace World

variable {σ π μ : Type} {told : Prop} {w : World σ Unit Unit π μ} {call : Call μ}
  {t : Unit × Task}

/-- `Tracks` of the state. -/
def Tracks (told : Prop) (w : World σ Unit Unit π μ) : Prop :=
  Scheduler.Tracks told (w.shutdown ()) w.woken (w.calls ())

theorem tracks_set (h : Scheduler.Tracks told (w.shutdown ()) w.woken call) :
    (w.set () call).Tracks told := by
  rw [Tracks, set_calls_self]
  exact h

/-- A task drops `notified()` and goes on. -/
theorem Tracks.leave (h : w.Tracks told)
    (hmoves : ((w.dropNotified () t).calls ()).Moves t call) :
    ((w.dropNotified () t).set () call).Tracks told := by
  rw [(shares_dropNotified () t).calls] at hmoves
  apply tracks_set
  unfold dropNotified
  split
  next ht =>
    have htaken : Scheduler.Tracks False (w.shutdown ()) (w.woken.erase t) call :=
      ⟨h.registered.take ht hmoves.others, False.elim⟩
    refine ⟨?_, fun _ => ?_⟩
    · simpa only [notifyOne, Function.update_self] using htaken.notifyOne.registered
    · simpa only [notifyOne, Function.update_self] using htaken.notifyOne.owed trivial
  next ht =>
    simp only [Function.update_self]
    refine ⟨h.registered.cancel ht hmoves.others, fun htold => ?_⟩
    exact (h.owed htold).imp (fun howed => howed.cancel t) hmoves.notified

/-- A task polls `notified()` for the first time. -/
theorem Tracks.await (h : w.Tracks told) {b : Bool} {w' : World σ Unit Unit π μ}
    (hawait : w.await () t = (b, w')) (ht : ¬(w.calls ()).Waits t)
    (hmoves : (w'.calls ()).Moves t call) (hwaits : b = false → call.Waits t)
    (htaken : told → (w.shutdown ()).HasPermit → b = true → call.start.isNotified) :
    (w'.set () call).Tracks told := by
  simp only [World.await, Prod.mk.injEq] at hawait
  obtain ⟨rfl, rfl⟩ := hawait
  apply tracks_set
  simp only [Function.update_self]
  refine Scheduler.Tracks.poll h hmoves ht hwaits fun htold hpermit => ?_
  exact htaken htold hpermit (by rw [Notify.await_of_permit hpermit])

end World

namespace Cluster

variable {σ ρ π μ : Type} [DecidableEq π] {lockManager : LockManager σ ρ}
  {scheduler : BackgroundScheduler π} {told : Prop} {w : World σ Unit Unit π μ}

omit [DecidableEq π] in
theorem workerStep_tracks (h : w.Tracks told) {action : WorkerAction μ}
    (hclean : told → StopsClean lockManager scheduler w (.worker () action)) :
    ((solo lockManager scheduler).workerStep w () action).Tracks told := by
  have hmove : ∀ {at' : WorkerAt μ}, (w.calls ()).worker ≠ .waiting →
      (w.setWorker () at').Tracks told :=
    fun hne => World.tracks_set (Scheduler.Tracks.quiet h (Call.moves_worker _) hne)
  cases action with
  | subscribe ok =>
      rw [workerStep]
      split
      next hat => exact hmove (by simp [hat])
      · exact h
  | poll =>
      rw [workerStep]
      split
      next hat =>
        have hne : (w.calls ()).worker ≠ .waiting := by simp [hat]
        split
        next hawait =>
          refine World.Tracks.await h hawait hne (Call.moves_worker _) (by simp) ?_
          exact fun htold hpermit _ => absurd hpermit (hclean htold hat)
        next hawait =>
          exact World.Tracks.await h hawait hne (Call.moves_worker _) (fun _ => rfl) (by simp)
      · exact h
  | next msg =>
      rw [workerStep]
      split
      next hat => exact hmove (by simp [hat])
      next hat => exact h.leave (Call.moves_worker _)
      · exact h
  | processed =>
      rw [workerStep]
      split
      next hat => exact hmove (by simp [hat])
      · exact h
  | wake =>
      rw [workerStep]
      split
      next hat =>
        split
        next hwoken =>
          refine World.tracks_set (Scheduler.Tracks.take h (Call.moves_worker _) hwoken ?_)
          exact fun htold => absurd hwoken (hclean htold hat)
        · exact h
      · exact h
  | drop =>
      rw [workerStep]
      split
      · split
        · exact h.leave (Call.moves_worker _)
        next hne => exact hmove hne
      · exact h

omit [DecidableEq π] in
theorem heartbeatStep_tracks (h : w.Tracks told) {action : HeartbeatAction ρ}
    (hclean : told → StopsClean lockManager scheduler w (.heartbeat () action)) :
    ((solo lockManager scheduler).heartbeatStep w () action).Tracks told := by
  have hmove : ∀ {at' : HeartbeatAt}, (w.calls ()).heartbeat ≠ .waiting →
      (w.setHeartbeat () at').Tracks told :=
    fun hne => World.tracks_set (Scheduler.Tracks.quiet h (Call.moves_heartbeat _ _) hne)
  -- The same with new locks, which the notification does not see.
  have hrelock : ∀ {at' : HeartbeatAt} {locks : σ}, (w.calls ()).heartbeat ≠ .waiting →
      ({ w with locks := locks }.setHeartbeat () at').Tracks told :=
    fun hne => World.tracks_set (Scheduler.Tracks.quiet h (Call.moves_heartbeat _ _) hne)
  cases action with
  | begin =>
      rw [heartbeatStep]
      split
      next hat =>
        have hne : (w.calls ()).heartbeat ≠ .waiting := by simp [hat]
        split
        · exact hmove hne
        · exact World.tracks_set (Scheduler.Tracks.quiet h (Call.moves_heartbeat _ _) hne)
      · exact h
  | poll =>
      rw [heartbeatStep]
      split
      next hat =>
        have hne : (w.calls ()).heartbeat ≠ .waiting := by simp [hat]
        split
        next hawait =>
          refine World.Tracks.await h hawait hne (Call.moves_heartbeat _ _) (by simp) ?_
          exact fun htold hpermit _ => absurd hpermit (hclean htold hat)
        next hawait =>
          exact World.Tracks.await h hawait hne (Call.moves_heartbeat _ _) (fun _ => rfl) (by simp)
      · exact h
  | tick =>
      rw [heartbeatStep]
      split
      · split
        next hat =>
          refine World.tracks_set (Scheduler.Tracks.quiet h (Call.moves_heartbeat _ _) ?_)
          exact fun hwaits => absurd (hat.symm.trans hwaits) (by simp)
        next hat => exact h.leave (Call.moves_heartbeat _ _)
        · exact h
      · exact h
  | renew r =>
      rw [heartbeatStep]
      split
      next hat => exact hmove (by simp [hat])
      next hat =>
        split
        · exact hrelock (by simp [hat])
        · exact hrelock (by simp [hat])
        · exact hrelock (by simp [hat])
      · exact h
  | adopt r =>
      rw [heartbeatStep]
      split
      next hat =>
        split
        · split
          · exact hmove (by simp [hat])
          · exact hmove (by simp [hat])
        · exact hmove (by simp [hat])
      · exact h
  | retry =>
      rw [heartbeatStep]
      split
      next hat =>
        split
        · exact hmove (by simp [hat])
        · exact h
      next hat =>
        split
        · exact hmove (by simp [hat])
        · exact h
      · exact h
  | acquire r =>
      rw [heartbeatStep]
      split
      next hat =>
        split
        · exact hrelock (by simp [hat])
        · exact hrelock (by simp [hat])
      · exact h
  | store =>
      rw [heartbeatStep]
      split
      next hat =>
        refine World.tracks_set (Scheduler.Tracks.quiet h (Call.moves_heartbeat _ _) ?_)
        exact fun hwaits => absurd (hat.symm.trans hwaits) (by simp)
      · exact h
  | wake =>
      rw [heartbeatStep]
      split
      next hat =>
        split
        next hwoken =>
          refine World.tracks_set (Scheduler.Tracks.take h (Call.moves_heartbeat _ _) hwoken ?_)
          exact fun htold => absurd hwoken (hclean htold hat)
        · exact h
      · exact h
  | drop =>
      rw [heartbeatStep]
      split
      · split
        · exact h.leave (Call.moves_heartbeat _ _)
        next hne => exact hmove hne
      · exact h

/-- `start` takes a notification up by going on. -/
theorem startStep_tracks (h : w.Tracks told) (hfresh : (w.calls ()).Fresh)
    (action : StartAction ρ) :
    ((solo lockManager scheduler).startStep w () action).Tracks told := by
  -- A move of `start` in a state with the same notifications.
  have hmove : ∀ {at' : StartAt} {w' : World σ Unit Unit π μ}, w'.shutdown = w.shutdown →
      w'.woken = w.woken → w'.calls = w.calls → (w.calls ()).start ≠ .waiting →
      ((w.calls ()).start.isNotified → at'.isNotified) → (w'.setStart () at').Tracks told := by
    intro at' w' hshutdown hwoken hcalls hne hnotified
    apply World.tracks_set
    rw [hshutdown, hwoken, hcalls]
    exact Scheduler.Tracks.quiet h (Call.moves_start _ hnotified) hne
  cases action with
  | claim =>
      rw [startStep]
      split
      next hat =>
        split
        · exact hmove rfl rfl rfl (by simp [hat]) (fun _ => rfl)
        · exact hmove rfl rfl rfl (by simp [hat]) (by simp [hat, StartAt.isNotified])
      · exact h
  | acquire r =>
      rw [startStep]
      split
      next hat =>
        split
        · exact hmove rfl rfl rfl (by simp [hat]) (by simp [hat, StartAt.isNotified])
        · exact hmove rfl rfl rfl (by simp [hat]) (fun _ => rfl)
      · exact h
  | spawn =>
      rw [startStep]
      split
      next hat =>
        obtain ⟨hworker, hheartbeat⟩ := hfresh.off (by rw [hat]; rfl)
        apply World.tracks_set
        constructor
        · refine h.registered.mono ?_
          rintro ⟨_, task⟩ _ hwaits
          cases task with
          | start => exact absurd (hat.symm.trans hwaits) (by simp)
          | worker => exact absurd (hworker.symm.trans hwaits) (by simp)
          | heartbeat => exact absurd (hheartbeat.symm.trans hwaits) (by simp)
        · intro htold
          refine (h.owed htold).imp_right fun hnotified => ?_
          rw [hat] at hnotified
          exact absurd hnotified Bool.false_ne_true
      · exact h
  | poll =>
      rw [startStep]
      split
      next hat =>
        have hne : (w.calls ()).start ≠ .waiting := by simp [hat]
        split
        next hawait =>
          exact World.Tracks.await h hawait hne (Call.moves_start _ fun _ => rfl) (by simp)
            (fun _ _ _ => rfl)
        next w' hawait =>
          have hcalls := (World.shares_of_await hawait).calls
          refine World.Tracks.await h hawait hne (Call.moves_start _ ?_) (fun _ => rfl) (by simp)
          rw [hcalls, hat]
          simp [StartAt.isNotified]
      · exact h
  | wake =>
      rw [startStep]
      split
      · split
        next hwoken =>
          exact World.tracks_set (Scheduler.Tracks.take h (Call.moves_start _ fun _ => rfl) hwoken
            fun _ => rfl)
        · exact h
      · exact h
  | readLease =>
      rw [startStep]
      split
      next hat => exact hmove rfl rfl rfl (by simp [hat]) (fun _ => rfl)
      · exact h
  | release r =>
      rw [startStep]
      split
      next hat => exact hmove rfl rfl rfl (by simp [hat]) (fun _ => rfl)
      next hat => exact hmove rfl rfl rfl (by simp [hat]) (fun _ => rfl)
      · exact h
  | finish =>
      rw [startStep]
      split
      next hat => exact hmove rfl rfl rfl (by simp [hat]) (fun _ => rfl)
      next hat => exact hmove rfl rfl rfl (by simp [hat]) (fun _ => rfl)
      · exact h

/-! ## The tasks before they are spawned -/

omit [DecidableEq π] in
theorem workerStep_off (hworker : (w.calls ()).worker = .off)
    (haborted : (w.calls ()).aborted = false) (action : WorkerAction μ) :
    (solo lockManager scheduler).workerStep w () action = w := by
  cases action <;> simp only [workerStep, hworker, haborted, Bool.false_eq_true, if_false]

omit [DecidableEq π] in
theorem heartbeatStep_off (hheartbeat : (w.calls ()).heartbeat = .off)
    (haborted : (w.calls ()).aborted = false) (action : HeartbeatAction ρ) :
    (solo lockManager scheduler).heartbeatStep w () action = w := by
  cases action <;>
    simp only [heartbeatStep, hheartbeat, haborted, Bool.false_eq_true, if_false, ite_self]

end Cluster

/-! ## The lease -/

namespace World

variable {σ π μ : Type} {w w' : World σ Unit Unit π μ}

/-- Only the notifications have changed. -/
structure OnlyNotifies (w w' : World σ Unit Unit π μ) : Prop where
  locks : w'.locks = w.locks
  clock : w'.clock = w.clock
  active : w'.active = w.active
  currentLease : w'.currentLease = w.currentLease
  calls : w'.calls = w.calls

theorem OnlyNotifies.refl (w : World σ Unit Unit π μ) : OnlyNotifies w w :=
  ⟨rfl, rfl, rfl, rfl, rfl⟩

theorem onlyNotifies_await {t : Unit × Task} {b : Bool} (h : w.await () t = (b, w')) :
    OnlyNotifies w w' := by
  obtain rfl : (w.await () t).2 = w' := congrArg Prod.snd h
  exact ⟨rfl, rfl, rfl, rfl, rfl⟩

theorem onlyNotifies_dropNotified (t : Unit × Task) : OnlyNotifies w (w.dropNotified () t) := by
  unfold dropNotified
  split_ifs
  · exact ⟨rfl, rfl, rfl, rfl, rfl⟩
  · exact ⟨rfl, rfl, rfl, rfl, rfl⟩

end World

namespace Cluster

variable {σ ρ π μ : Type} [DecidableEq π] (lockManager : LockManager σ ρ)
  (current : σ → LockId → Option Lock) (scheduler : BackgroundScheduler π)

def IsLease (locks : σ) (lease : Lock) : Prop :=
  current locks scheduler.leaseId = some lease ∧ lease.holderId = scheduler.nodeId

/-- The stored lock is in `current_lease`, or the heartbeat task is about to put it there. -/
def Synced (locks : σ) (currentLease : Option Lock) (heartbeat : HeartbeatAt) : Prop :=
  ∃ lease, IsLease current scheduler locks lease ∧
    (heartbeat = .storing lease ∨
      (∀ other, heartbeat ≠ .storing other) ∧ currentLease = some lease)

/-- What holds of the lease while `start` is at a place; past the notification, once `told`. -/
def LeaseAt (told : Prop) (w : World σ Unit Unit π μ) : StartAt → Prop
  | .idle | .claimed => ¬told
  | .leased lease => IsLease current scheduler w.locks lease
  | .polling | .waiting =>
      Synced current scheduler w.locks (w.currentLease ()) (w.calls ()).heartbeat
  | .stopping =>
      told → Synced current scheduler w.locks (w.currentLease ()) (w.calls ()).heartbeat
  | .releasing lease =>
      told → ∃ l, lease = some l ∧ IsLease current scheduler w.locks l
  | .released _ => told → NoLease lockManager scheduler w
  | .returned _ =>
      told → NoLease lockManager scheduler w ∧ scheduler.nodeId ∉ w.active scheduler.process

/-- `LeaseAt` where `start` is. -/
def Keeps (told : Prop) (w : World σ Unit Unit π μ) : Prop :=
  LeaseAt lockManager current scheduler told w (w.calls ()).start

variable {lockManager current scheduler} {told : Prop} {w w' : World σ Unit Unit π μ}
  {call : Call μ}

omit [DecidableEq π] in
theorem Synced.quiet {locks : σ} {currentLease : Option Lock} {heartbeat heartbeat' : HeartbeatAt}
    (h : Synced current scheduler locks currentLease heartbeat)
    (hne : ∀ lease, heartbeat ≠ .storing lease) (hne' : ∀ lease, heartbeat' ≠ .storing lease) :
    Synced current scheduler locks currentLease heartbeat' := by
  obtain ⟨lease, hlease, hstoring | ⟨-, hcurrent⟩⟩ := h
  · exact absurd hstoring (hne lease)
  · exact ⟨lease, hlease, .inr ⟨hne', hcurrent⟩⟩

omit [DecidableEq π] in
theorem Keeps.set (h : Keeps lockManager current scheduler told w) (hlocks : w'.locks = w.locks)
    (hclock : w'.clock = w.clock) (hactive : w'.active = w.active)
    (hstart : call.start = (w.calls ()).start)
    (hsynced : (w.calls ()).start.hasRead = false → ((w.calls ()).start.isNotified → told) →
      Synced current scheduler w.locks (w.currentLease ()) (w.calls ()).heartbeat →
        Synced current scheduler w'.locks (w'.currentLease ()) call.heartbeat) :
    Keeps lockManager current scheduler told (w'.set () call) := by
  unfold Keeps at h ⊢
  rw [World.set_calls_self, hstart]
  unfold LeaseAt NoLease at h ⊢
  simp only [World.set_calls_self]
  cases hat : (w.calls ()).start with
  | idle | claimed => rw [hat] at h; exact h
  | leased lease => rw [hat] at h; rw [← hlocks] at h; exact h
  | polling | waiting =>
      rw [hat] at h hsynced
      exact hsynced rfl nofun h
  | stopping =>
      rw [hat] at h hsynced
      exact fun htold => hsynced rfl (fun _ => htold) (h htold)
  | releasing lease => rw [hat] at h; rw [← hlocks] at h; exact h
  | released result => rw [hat] at h; rw [← hlocks, ← hclock] at h; exact h
  | returned result => rw [hat] at h; rw [← hlocks, ← hclock, ← hactive] at h; exact h

omit [DecidableEq π] in
/-- A step of the worker changes the worker and the notifications, and nothing else. -/
theorem workerStep_cases (w : World σ Unit Unit π μ) (action : WorkerAction μ) :
    (solo lockManager scheduler).workerStep w () action = w ∨
      ∃ w' at', w.OnlyNotifies w' ∧
        (solo lockManager scheduler).workerStep w () action = w'.setWorker () at' := by
  have hsame := World.OnlyNotifies.refl w
  cases action with
  | subscribe ok =>
      rw [workerStep]
      split
      · exact .inr ⟨_, _, hsame, rfl⟩
      · exact .inl rfl
  | poll =>
      rw [workerStep]
      split
      · split
        next hawait => exact .inr ⟨_, _, World.onlyNotifies_await hawait, rfl⟩
        next hawait => exact .inr ⟨_, _, World.onlyNotifies_await hawait, rfl⟩
      · exact .inl rfl
  | next msg =>
      rw [workerStep]
      split
      · exact .inr ⟨_, _, hsame, rfl⟩
      · exact .inr ⟨_, _, World.onlyNotifies_dropNotified _, rfl⟩
      · exact .inl rfl
  | processed =>
      rw [workerStep]
      split
      · exact .inr ⟨_, _, hsame, rfl⟩
      · exact .inl rfl
  | wake =>
      rw [workerStep]
      split
      · split
        · exact .inr ⟨{ w with woken := w.woken.erase ((), .worker) }, _,
            ⟨rfl, rfl, rfl, rfl, rfl⟩, rfl⟩
        · exact .inl rfl
      · exact .inl rfl
  | drop =>
      rw [workerStep]
      split
      · split
        · exact .inr ⟨_, _, World.onlyNotifies_dropNotified _, rfl⟩
        · exact .inr ⟨_, _, hsame, rfl⟩
      · exact .inl rfl

omit [DecidableEq π] in
theorem workerStep_keeps (h : Keeps lockManager current scheduler told w)
    (action : WorkerAction μ) :
    Keeps lockManager current scheduler told
      ((solo lockManager scheduler).workerStep w () action) := by
  rcases workerStep_cases w action with hstep | ⟨w', at', ho, hstep⟩
  · rw [hstep]
    exact h
  · rw [hstep]
    refine h.set ho.locks ho.clock ho.active (by rw [ho.calls]) fun _ _ hsynced => ?_
    rw [ho.locks, ho.currentLease, ho.calls]
    exact hsynced

omit [DecidableEq π] in
theorem Keeps.grant (h : Keeps lockManager current scheduler told w)
    (hfresh : (w.calls ()).Fresh) (hon : (w.calls ()).heartbeat ≠ .off)
    (hread : told → (w.calls ()).start.hasRead = false) {locks : σ} {lease : Lock}
    (hlease : IsLease current scheduler locks lease) :
    Keeps lockManager current scheduler told
      ({ w with locks := locks }.setHeartbeat () (.storing lease)) := by
  have hsynced : Synced current scheduler locks (w.currentLease ()) (.storing lease) :=
    ⟨lease, hlease, .inl rfl⟩
  unfold Keeps at h ⊢
  simp only [World.setHeartbeat, World.set_calls_self]
  unfold LeaseAt at h ⊢
  simp only [World.set_calls_self]
  cases hat : (w.calls ()).start with
  | idle | claimed => rw [hat] at h; exact h
  | leased _ => exact absurd (hfresh.off (by rw [hat]; rfl)).2 hon
  | polling | waiting => exact hsynced
  | stopping => exact fun _ => hsynced
  | releasing _ | released _ | returned _ =>
      rw [hat] at hread
      exact fun htold => absurd (hread htold) nofun

omit [DecidableEq π] in
/-- The heartbeat task moves between two places neither of which is `storing`. -/
theorem Keeps.move (h : Keeps lockManager current scheduler told w) (ho : w.OnlyNotifies w')
    (hstart : call.start = (w.calls ()).start)
    (hne : ∀ lease, (w.calls ()).heartbeat ≠ .storing lease)
    (hne' : ∀ lease, call.heartbeat ≠ .storing lease) :
    Keeps lockManager current scheduler told (w'.set () call) := by
  refine h.set ho.locks ho.clock ho.active hstart fun _ _ hsynced => ?_
  rw [ho.locks, ho.currentLease]
  exact hsynced.quiet hne hne'

omit [DecidableEq π] in
theorem Keeps.renewFailed (h : Keeps lockManager current scheduler told w)
    (hne : ∀ lease, (w.calls ()).heartbeat ≠ .storing lease) (attempt : Nat) :
    Keeps lockManager current scheduler told (renewFailed w () attempt) := by
  refine h.move (.refl w) rfl hne fun lease => ?_
  simp only
  split <;> nofun

omit [DecidableEq π] in
theorem isLease_of_acquireLock (hversions : lockManager.Versions current) {clock : Nat} {r : ρ}
    {locks locks' : σ} {lease : Lock}
    (hres : lockManager.acquireLock locks BackgroundScheduler.defaultContext
      scheduler.acquireOptions clock r = (.ok lease, locks')) :
    IsLease current scheduler locks' lease := by
  have hlease := hversions.acquired locks BackgroundScheduler.defaultContext
    scheduler.acquireOptions clock r lease (congrArg Prod.fst hres)
  rw [hres] at hlease
  exact hlease

omit [DecidableEq π] in
theorem isLease_of_renewLock (hversions : lockManager.Versions current) {clock : Nat} {r : ρ}
    {locks locks' : σ} {lease renewed : Lock}
    (hres : lockManager.renewLock locks BackgroundScheduler.defaultContext
      (scheduler.renewOptions lease) clock r = (.ok renewed, locks')) :
    IsLease current scheduler locks' renewed := by
  have hrenewed := hversions.renewed locks BackgroundScheduler.defaultContext
    (scheduler.renewOptions lease) clock r renewed (congrArg Prod.fst hres)
  rw [hres] at hrenewed
  exact hrenewed

omit [DecidableEq π] in
theorem renew_keeps (hversions : lockManager.Versions current)
    (h : Keeps lockManager current scheduler told w) (hfresh : (w.calls ()).Fresh) {r : ρ}
    (hclean : told → StopsClean lockManager scheduler w (.heartbeat () (.renew r))) :
    Keeps lockManager current scheduler told
      ((solo lockManager scheduler).heartbeatStep w () (.renew r)) := by
  rw [heartbeatStep]
  split
  next hat => exact h.renewFailed (by simp [hat]) _
  next attempt lease hat =>
    have hne : ∀ lease, (w.calls ()).heartbeat ≠ .storing lease := by simp [hat]
    have hanswer := lockManager.renews w.locks BackgroundScheduler.defaultContext
      (scheduler.renewOptions lease) w.clock r
    split
    next renewed locks hres =>
      refine h.grant hfresh (by simp [hat]) (fun htold => hclean htold ?_)
        (isLease_of_renewLock hversions hres)
      rw [hat]
      rfl
    next expected actual locks hres =>
      obtain rfl : locks = w.locks :=
        (congrArg Prod.snd hres).symm.trans (hanswer.refused _ (congrArg Prod.fst hres))
      exact h.move (.refl w) rfl hne (by simp)
    next e locks _ hres =>
      obtain rfl : locks = w.locks :=
        (congrArg Prod.snd hres).symm.trans (hanswer.refused _ (congrArg Prod.fst hres))
      exact h.renewFailed hne _
  · exact h

omit [DecidableEq π] in
theorem acquire_keeps (hversions : lockManager.Versions current)
    (h : Keeps lockManager current scheduler told w) (hfresh : (w.calls ()).Fresh) {r : ρ}
    (hclean : told → StopsClean lockManager scheduler w (.heartbeat () (.acquire r))) :
    Keeps lockManager current scheduler told
      ((solo lockManager scheduler).heartbeatStep w () (.acquire r)) := by
  rw [heartbeatStep]
  split
  next attempt hat =>
    have hne : ∀ lease, (w.calls ()).heartbeat ≠ .storing lease := by simp [hat]
    have hanswer := lockManager.acquires w.locks BackgroundScheduler.defaultContext
      scheduler.acquireOptions w.clock r
    split
    next lease locks hres =>
      refine h.grant hfresh (by simp [hat]) (fun htold => hclean htold ?_)
        (isLease_of_acquireLock hversions hres)
      rw [hat]
      rfl
    next e locks hres =>
      obtain rfl : locks = w.locks :=
        (congrArg Prod.snd hres).symm.trans (hanswer.refused _ (congrArg Prod.fst hres))
      refine h.move (.refl w) rfl hne fun lease => ?_
      simp only
      split <;> simp
  · exact h

omit [DecidableEq π] in
theorem heartbeatStep_keeps (hversions : lockManager.Versions current)
    (h : Keeps lockManager current scheduler told w) (hfresh : (w.calls ()).Fresh)
    {action : HeartbeatAction ρ}
    (hclean : told → StopsClean lockManager scheduler w (.heartbeat () action)) :
    Keeps lockManager current scheduler told
      ((solo lockManager scheduler).heartbeatStep w () action) := by
  have ho := World.onlyNotifies_dropNotified (w := w) ((), .heartbeat)
  have hdropped := congrArg (fun calls => (calls ()).start) ho.calls
  cases action with
  | begin =>
      rw [heartbeatStep]
      split
      next hat =>
        have hne : ∀ lease, (w.calls ()).heartbeat ≠ .storing lease := by simp [hat]
        split
        · exact h.move (.refl w) rfl hne (by simp)
        · exact h.move (.refl w) rfl hne (by simp)
      · exact h
  | poll =>
      rw [heartbeatStep]
      split
      next hat =>
        have hne : ∀ lease, (w.calls ()).heartbeat ≠ .storing lease := by simp [hat]
        split
        next hawait =>
          have ho := World.onlyNotifies_await hawait
          exact h.move ho (by rw [ho.calls]) hne (by simp)
        next hawait =>
          have ho := World.onlyNotifies_await hawait
          exact h.move ho (by rw [ho.calls]) hne (by simp)
      · exact h
  | tick =>
      rw [heartbeatStep]
      split
      · split
        next hat => exact h.move (.refl w) rfl (by simp [hat]) (by simp)
        next hat => exact h.move ho hdropped (by simp [hat]) (by simp)
        · exact h
      · exact h
  | renew r => exact renew_keeps hversions h hfresh hclean
  | adopt r =>
      rw [heartbeatStep]
      split
      next attempt hat =>
        have hne : ∀ lease, (w.calls ()).heartbeat ≠ .storing lease := by simp [hat]
        split
        next lock hres =>
          split
          next hholder =>
            have hlock := hversions.read w.locks BackgroundScheduler.defaultContext
              scheduler.leaseKey r lock hres
            refine h.set rfl rfl rfl rfl fun _ _ _ => ?_
            exact ⟨lock, ⟨hlock, hholder.1⟩, .inl rfl⟩
          · exact h.renewFailed hne _
        · exact h.renewFailed hne _
      · exact h
  | retry =>
      rw [heartbeatStep]
      split
      next hat =>
        split
        · exact h.move (.refl w) rfl (by simp [hat]) (by simp)
        · exact h
      next hat =>
        split
        · exact h.move (.refl w) rfl (by simp [hat]) (by simp)
        · exact h
      · exact h
  | acquire r => exact acquire_keeps hversions h hfresh hclean
  | store =>
      rw [heartbeatStep]
      split
      next lease hat =>
        refine h.set rfl rfl rfl rfl fun _ _ hsynced => ?_
        obtain ⟨other, hother, hstoring | ⟨hne, -⟩⟩ := hsynced
        · obtain rfl : lease = other := HeartbeatAt.storing.inj (hat.symm.trans hstoring)
          exact ⟨lease, hother, .inr ⟨by simp, Function.update_self () (some lease) w.currentLease⟩⟩
        · exact absurd hat (hne lease)
      · exact h
  | wake =>
      rw [heartbeatStep]
      split
      next hat =>
        split
        · exact h.move ⟨rfl, rfl, rfl, rfl, rfl⟩ rfl (by simp [hat]) (by simp)
        · exact h
      · exact h
  | drop =>
      rw [heartbeatStep]
      split
      next haborted =>
        split
        next hat => exact h.move ho hdropped (by simp [hat]) (by simp)
        · refine h.set rfl rfl rfl rfl fun hread htold hsynced => ?_
          exact hsynced.quiet (hclean (htold (hfresh.aborted haborted)) haborted hread) (by simp)
      · exact h

omit [DecidableEq π] in
/-- `start` goes on in a state in which the lease is as it must be there. -/
theorem keeps_set (h : LeaseAt lockManager current scheduler told w call.start)
    (hheartbeat : call.heartbeat = (w.calls ()).heartbeat) :
    Keeps lockManager current scheduler told (w.set () call) := by
  unfold Keeps
  rw [World.set_calls_self]
  unfold LeaseAt NoLease at h ⊢
  simp only [World.set_calls_self, hheartbeat]
  exact h

theorem startStep_keeps (hversions : lockManager.Versions current)
    (h : Keeps lockManager current scheduler told w) {action : StartAction ρ}
    (hclean : told → StopsClean lockManager scheduler w (.start () action)) :
    Keeps lockManager current scheduler told
      ((solo lockManager scheduler).startStep w () action) := by
  have hhere := h
  unfold Keeps at hhere
  cases action with
  | claim =>
      rw [startStep]
      split
      next hat =>
        rw [hat] at hhere
        split
        · exact keeps_set (fun htold => absurd htold hhere) rfl
        · exact keeps_set hhere rfl
      · exact h
  | acquire r =>
      rw [startStep]
      split
      next hat =>
        rw [hat] at hhere
        split
        next lease locks hres => exact keeps_set (isLease_of_acquireLock hversions hres) rfl
        · exact keeps_set (fun htold => absurd htold hhere) rfl
      · exact h
  | spawn =>
      rw [startStep]
      split
      next lease hat =>
        rw [hat] at hhere
        have hcurrent : Function.update w.currentLease () (some lease) () = some lease :=
          Function.update_self _ _ _
        unfold Keeps
        rw [World.set_calls_self]
        refine ⟨lease, hhere, .inr ⟨?_, hcurrent⟩⟩
        rw [World.set_calls_self]
        simp
      · exact h
  | poll =>
      rw [startStep]
      split
      next hat =>
        rw [hat] at hhere
        have hsynced : ∀ {w' : World σ Unit Unit π μ}, w.OnlyNotifies w' →
            Synced current scheduler w'.locks (w'.currentLease ()) (w'.calls ()).heartbeat := by
          intro w' ho
          rw [ho.locks, ho.currentLease, ho.calls]
          exact hhere
        split
        next hawait =>
          exact keeps_set (fun _ => hsynced (World.onlyNotifies_await hawait)) rfl
        next hawait => exact keeps_set (hsynced (World.onlyNotifies_await hawait)) rfl
      · exact h
  | wake =>
      rw [startStep]
      split
      next hat =>
        rw [hat] at hhere
        split
        · exact keeps_set (fun _ => hhere) rfl
        · exact h
      · exact h
  | readLease =>
      rw [startStep]
      split
      next hat =>
        rw [hat] at hhere
        refine keeps_set (fun htold => ?_) rfl
        obtain ⟨lease, hlease, hstoring | ⟨-, hcurrent⟩⟩ := hhere htold
        · exact absurd hstoring (hclean htold hat lease)
        · exact ⟨lease, hcurrent, hlease⟩
      · exact h
  | release r =>
      rw [startStep]
      split
      next lease hat =>
        rw [hat] at hhere
        refine keeps_set (fun htold => ?_) rfl
        obtain ⟨_, ⟨⟩, hcurrent, hholder⟩ := hhere htold
        exact hversions.released w.locks BackgroundScheduler.defaultContext
          (scheduler.releaseOptions lease) w.clock r lease hcurrent rfl hholder
          (hclean htold lease hat)
      next hat =>
        rw [hat] at hhere
        refine keeps_set (fun htold => ?_) rfl
        obtain ⟨_, ⟨⟩, -⟩ := hhere htold
      · exact h
  | finish =>
      -- The node is taken out of the set of its process.
      have hgone : scheduler.nodeId ∉ Function.update w.active scheduler.process
          ((w.active scheduler.process).filter (· ≠ scheduler.nodeId)) scheduler.process := by
        rw [Function.update_self]
        simp
      rw [startStep]
      split
      next hat =>
        rw [hat] at hhere
        exact keeps_set (fun htold => ⟨hhere htold, hgone⟩) rfl
      next hat =>
        rw [hat] at hhere
        exact keeps_set (fun htold => ⟨hhere htold, hgone⟩) rfl
      · exact h

/-! ## Runs -/

omit [DecidableEq π] in
/-- The heartbeat task leaves `start` alone. -/
theorem heartbeatStep_start (w : World σ Unit Unit π μ) (action : HeartbeatAction ρ) :
    (((solo lockManager scheduler).heartbeatStep w () action).calls ()).start =
        (w.calls ()).start ∧
      (((solo lockManager scheduler).heartbeatStep w () action).calls ()).aborted =
        (w.calls ()).aborted := by
  have hdropped := (World.shares_dropNotified (w := w) () ((), Task.heartbeat)).calls
  cases action with
  | poll =>
      rw [heartbeatStep]
      split
      · split
        next hawait =>
          simp [World.setHeartbeat, (World.shares_of_await hawait).calls]
        next hawait =>
          simp [World.setHeartbeat, (World.shares_of_await hawait).calls]
      · exact ⟨rfl, rfl⟩
  | _ =>
      simp only [heartbeatStep]
      repeat' split
      all_goals simp [World.setHeartbeat, renewFailed, ticked, solo, hdropped]

omit [DecidableEq π] in
/-- The steps of a task that is not spawned yet do nothing. -/
theorem fresh_of_unspawned (h : (w.calls ()).Fresh)
    (hstart : (w'.calls ()).start = (w.calls ()).start)
    (haborted : (w'.calls ()).aborted = (w.calls ()).aborted)
    (hoff : (w.calls ()).worker = .off → (w.calls ()).heartbeat = .off →
      (w.calls ()).aborted = false → w' = w) : (w'.calls ()).Fresh where
  off := by
    intro hfresh
    rw [hstart] at hfresh
    obtain ⟨hworker, hheartbeat⟩ := h.off hfresh
    have hsame := hoff hworker hheartbeat <| Bool.eq_false_iff.mpr fun hab =>
      StartAt.not_isNotified_of_isFresh hfresh (h.aborted hab)
    rw [hsame]
    exact ⟨hworker, hheartbeat⟩
  aborted := by
    rw [hstart, haborted]
    exact h.aborted

theorem fresh_of_notified {call : Call μ} (h : call.start.isNotified) : call.Fresh where
  off := fun hfresh => absurd h (StartAt.not_isNotified_of_isFresh hfresh)
  aborted := fun _ => h

theorem startStep_fresh (h : (w.calls ()).Fresh) (action : StartAction ρ) :
    (((solo lockManager scheduler).startStep w () action).calls ()).Fresh := by
  -- The task has not been notified, so it has not aborted the others.
  have hmove : ∀ {at' : StartAt}, (w.calls ()).start.isNotified = false →
      (at'.isFresh → (w.calls ()).start.isFresh) →
      ({ w.calls () with start := at' } : Call μ).Fresh := by
    intro at' hnotified hfresh
    refine ⟨fun hat => h.off (hfresh hat), fun haborted => ?_⟩
    rw [h.aborted haborted] at hnotified
    cases hnotified
  have hset : ∀ {w' : World σ Unit Unit π μ} {call : Call μ}, call.Fresh →
      ((w'.set () call).calls ()).Fresh := by
    intro w' call hcall
    rw [World.set_calls_self]
    exact hcall
  cases action with
  | claim =>
      rw [startStep]
      split
      next hat =>
        split
        · exact hset (fresh_of_notified rfl)
        · exact hset (hmove (by rw [hat]; rfl) (by rw [hat]; exact id))
      · exact h
  | acquire r =>
      rw [startStep]
      split
      next hat =>
        split
        · exact hset (hmove (by rw [hat]; rfl) (by rw [hat]; exact id))
        · exact hset (fresh_of_notified rfl)
      · exact h
  | spawn =>
      rw [startStep]
      split
      · refine hset ⟨?_, ?_⟩
        · simp [StartAt.isFresh]
        · simp
      · exact h
  | poll =>
      rw [startStep]
      split
      next hat =>
        split
        · exact hset (fresh_of_notified rfl)
        next hawait =>
          unfold World.setStart
          rw [(World.shares_of_await hawait).calls]
          exact hset (hmove (by rw [hat]; rfl) (by simp [StartAt.isFresh]))
      · exact h
  | wake =>
      rw [startStep]
      split
      · split
        · exact hset (fresh_of_notified rfl)
        · exact h
      · exact h
  | readLease =>
      rw [startStep]
      split
      · exact hset (fresh_of_notified rfl)
      · exact h
  | release r =>
      rw [startStep]
      split
      · exact hset (fresh_of_notified rfl)
      · exact hset (fresh_of_notified rfl)
      · exact h
  | finish =>
      rw [startStep]
      split
      · exact hset (fresh_of_notified rfl)
      · exact hset (fresh_of_notified rfl)
      · exact h

theorem stop_tracks (h : w.Tracks told) {told' : Prop} :
    ((solo lockManager scheduler).step w (.stop ())).Tracks told' := by
  have hnotified := Scheduler.Tracks.notifyOne h
  refine ⟨?_, fun _ => ?_⟩
  · simpa [World.notifyOne, Cluster.step] using hnotified.registered
  · simpa [World.notifyOne, Cluster.step] using hnotified.owed trivial

/-- What every step keeps; `told` when `stop` has been called. -/
structure Stops (lockManager : LockManager σ ρ) (current : σ → LockId → Option Lock)
    (scheduler : BackgroundScheduler π) (told : Prop) (w : World σ Unit Unit π μ) : Prop where
  fresh : (w.calls ()).Fresh
  tracks : w.Tracks told
  keeps : Keeps lockManager current scheduler told w

theorem Stops.step (hversions : lockManager.Versions current)
    (h : Stops lockManager current scheduler told w) (s : Step Unit Unit μ ρ)
    (hclean : told → StopsClean lockManager scheduler w s) :
    Stops lockManager current scheduler told ((solo lockManager scheduler).step w s) := by
  cases s with
  | pass elapsed =>
      refine ⟨h.fresh, h.tracks, ?_⟩
      have hkeeps := h.keeps
      have hlater : NoLease lockManager scheduler w →
          NoLease lockManager scheduler { w with clock := w.clock + elapsed } :=
        fun hnone holder t ht => hnone holder t (le_trans (Nat.le_add_right _ _) ht)
      unfold Keeps LeaseAt at hkeeps ⊢
      simp only [Cluster.step]
      cases hat : (w.calls ()).start with
      | released _ => rw [hat] at hkeeps; exact fun htold => hlater (hkeeps htold)
      | returned _ =>
          rw [hat] at hkeeps
          exact fun htold => ⟨hlater (hkeeps htold).1, (hkeeps htold).2⟩
      | _ => rw [hat] at hkeeps; exact hkeeps
  | stop k => exact ⟨h.fresh, stop_tracks h.tracks, h.keeps⟩
  | start i action =>
      exact ⟨startStep_fresh h.fresh action, startStep_tracks h.tracks h.fresh action,
        startStep_keeps hversions h.keeps hclean⟩
  | worker i action =>
      have hothers : (((solo lockManager scheduler).workerStep w () action).calls ()).start =
          (w.calls ()).start ∧
          (((solo lockManager scheduler).workerStep w () action).calls ()).aborted =
            (w.calls ()).aborted := by
        rcases workerStep_cases w action with hstep | ⟨w', at', ho, hstep⟩
        · rw [hstep]
          exact ⟨rfl, rfl⟩
        · rw [hstep]
          simp [World.setWorker, ho.calls]
      exact ⟨fresh_of_unspawned h.fresh hothers.1 hothers.2
          fun hworker _ haborted => workerStep_off hworker haborted action,
        workerStep_tracks h.tracks hclean, workerStep_keeps h.keeps action⟩
  | heartbeat i action =>
      obtain ⟨hstart, haborted⟩ := heartbeatStep_start w action
      exact ⟨fresh_of_unspawned h.fresh hstart haborted
          fun _ hheartbeat hnot => heartbeatStep_off hheartbeat hnot action,
        heartbeatStep_tracks h.tracks hclean,
        heartbeatStep_keeps hversions h.keeps h.fresh hclean⟩

omit [DecidableEq π] in
theorem stops_initial (locks : σ) (clock : SystemTime) :
    Stops lockManager current scheduler False (World.initial locks clock : World σ Unit Unit π μ)
    where
  fresh := ⟨fun _ => ⟨rfl, rfl⟩, nofun⟩
  tracks := ⟨Notify.registered_new, False.elim⟩
  keeps := id

/-- `stop` is called while `start` serves. -/
theorem Stops.stop (h : Stops lockManager current scheduler False w)
    (hserving : (w.calls ()).start.isServing) :
    Stops lockManager current scheduler True ((solo lockManager scheduler).step w (.stop ())) where
  fresh := h.fresh
  tracks := stop_tracks h.tracks
  keeps := by
    have hkeeps := h.keeps
    unfold Keeps LeaseAt at hkeeps ⊢
    simp only [Cluster.step, World.notifyOne]
    cases hat : (w.calls ()).start with
    | leased _ | polling | waiting => rw [hat] at hkeeps; exact hkeeps
    | _ => rw [hat] at hserving; cases hserving

omit [DecidableEq π] in
theorem Stops.ends (h : Stops lockManager current scheduler True w) :
    StopEndsStart lockManager scheduler w where
  notStuck := by
    rintro ⟨hwaiting, hpermit, hwoken⟩
    rcases h.tracks.owed trivial with (howed | howed) | hnotified
    · exact hpermit howed
    · obtain ⟨t, ht⟩ := List.exists_mem_of_ne_nil _ howed
      exact hwoken t ht (h.tracks.registered.waits t (List.mem_append_right _ ht))
    · rw [hwaiting] at hnotified
      cases hnotified
  released := by
    intro result hat
    have hkeeps := h.keeps
    unfold Keeps at hkeeps
    rw [hat] at hkeeps
    exact hkeeps trivial

/-- After a `stop` that is called while `start` serves, `start` does not wait for ever, and
releases the lease and the node, in every run whose steps after it stop the tasks cleanly. -/
theorem stopEndsStart (lockManager : LockManager σ ρ) (current : σ → LockId → Option Lock)
    (hversions : lockManager.Versions current) (scheduler : BackgroundScheduler π)
    (locks : σ) (clock : SystemTime) (before after : List (Step Unit Unit μ ρ))
    (hserving : ((run (solo lockManager scheduler).step (World.initial locks clock)
      before).calls ()).start.isServing)
    (hclean : Along (solo lockManager scheduler).step (StopsClean lockManager scheduler)
      (run (solo lockManager scheduler).step (World.initial locks clock) (before ++ [.stop ()]))
      after) :
    StopEndsStart lockManager scheduler
      (run (solo lockManager scheduler).step (World.initial locks clock)
        (before ++ .stop () :: after)) := by
  have hbefore : Stops lockManager current scheduler False
      (run (solo lockManager scheduler).step (World.initial locks clock) before) :=
    run_invariant (fun s _ _ h => h.step hversions s False.elim) (stops_initial locks clock)
  rw [run_concat] at hclean
  rw [run_append, run_cons]
  exact (hclean.invariant (fun _ s h hs => h.step hversions s fun _ => hs)
    (hbefore.stop hserving)).ends

def oneNode : BackgroundScheduler Unit := ⟨"node-1", 60, 15, ()⟩

def started : List (Step Unit Unit String String) :=
  [.start () .claim, .start () (.acquire "v1"), .start () .spawn, .worker () (.subscribe true),
    .heartbeat () .begin]

/-- `start` is the first that waits, and is stopped. -/
def stopped : List (Step Unit Unit String String) :=
  [.start () .wake, .worker () .drop, .heartbeat () .drop, .start () .readLease,
    .start () (.release ""), .start () .finish]

theorem stopEndsStart_stopped : StopEndsStart Memory.lockManager oneNode
    (run (solo Memory.lockManager oneNode).step (World.initial ∅ 0)
      ((started ++ [.start () .poll, .worker () .poll, .heartbeat () .poll]) ++
        .stop () :: stopped)) := by
  refine stopEndsStart Memory.lockManager Memory.current Memory.lockManager_versions oneNode ∅ 0
    _ _ (by decide +kernel) ?_
  refine ⟨trivial, trivial, ?_, ?_, ?_, trivial, trivial⟩
  · intro _ _ lease
    nofun
  · intro _ lease
    nofun
  · rintro lease ⟨⟩ message
    nofun

/-- The worker waits before `start` does. -/
def workerFirst : List (Step Unit Unit String String) :=
  started ++ [.worker () .poll, .start () .poll, .heartbeat () .poll]

/-- The heartbeat task renews the lease while `start` is the first that waits. -/
def renewing : List (Step Unit Unit String String) :=
  started ++ [.start () .poll, .worker () .poll, .heartbeat () .poll, .pass (fromSecs 15),
    .heartbeat () .tick, .heartbeat () (.renew "v2")]

def afterSteps (steps : List (Step Unit Unit String String)) :
    World LockStore Unit Unit Unit String :=
  run (solo Memory.lockManager oneNode).step (World.initial ∅ 0) steps

/-- The worker takes the notification and `start` waits for ever; and a lease whose renewal
was not recorded is not released. -/
theorem not_stopEndsStart :
    (∃ before after, ((afterSteps before).calls ()).start.isServing ∧
      (afterSteps (before ++ .stop () :: after)).Stuck) ∧
    ∃ before after, ((afterSteps before).calls ()).start.isServing ∧
      (∃ result, ((afterSteps (before ++ .stop () :: after)).calls ()).start =
        .returned result) ∧
      Live (Memory.lockManager.owner (afterSteps (before ++ .stop () :: after)).locks)
        oneNode.leaseId "node-1" (afterSteps (before ++ .stop () :: after)).clock := by
  constructor
  · exact ⟨workerFirst, [.worker () .wake], by decide +kernel, rfl, nofun, nofun⟩
  · exact ⟨renewing, stopped, by decide +kernel, ⟨_, rfl⟩, by decide +kernel⟩

end Cluster

end PlexSpaces.Scheduler
