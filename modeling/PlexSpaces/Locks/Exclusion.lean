import Mathlib.Logic.Function.Basic
import PlexSpaces.Lib.Lease
import PlexSpaces.Lib.Run
import PlexSpaces.Locks.Memory
/-!
# Exclusion among the clients of the in-memory lock manager

Any number of calls run at once.  A step of the system is one critical section
under the mutex, or the passing of time; a renewal waits between its two sections.
The log records what the calls returned, so exclusion is `Exclusive` of the log.

The second section of a renewal writes without looking.  If the lock has expired
and been taken over since the first section, the renewal returns a second live
lock (`not_exclusive`); a renewal may also cut its own lease short, and the rest
of the lease it returned before is then given away.  Exclusion holds in every run
whose renewals do neither (`exclusive_of_renewsInPlace`).
-/

namespace PlexSpaces.Locks

open PlexSpaces.Lib

/-- A renewal that waits for the semaphore, with what it carries over the wait. -/
structure RenewCall where
  ctx : RequestContext
  options : RenewLockOptions
  holderId : String

/-- The lock manager with the calls `ι` in flight, the clock, and the log of the
calls that returned `Ok`. -/
structure Clients (ι : Type) where
  locks : LockStore
  waiting : ι → Option RenewCall
  clock : SystemTime
  log : List (LeaseEvent LockId String SystemTime)

inductive Section (ι : Type)
  | pass (elapsed : Nat)
  | acquire (ctx : RequestContext) (options : AcquireLockOptions) (newVersion : String)
  | renewCheck (i : ι) (ctx : RequestContext) (options : RenewLockOptions)
  | renewWrite (i : ι) (newVersion : String)
  | release (ctx : RequestContext) (options : ReleaseLockOptions)

namespace Clients

variable {ι : Type} [DecidableEq ι]

/-- `MemoryLockManager::new`, before any call. -/
def start (clock : SystemTime) : Clients ι where
  locks := ∅
  waiting := fun _ => none
  clock := clock
  log := []

/-- Record a call on `key` that returned a lock. -/
def returnLock (w : Clients ι) (key : LockId) (answer : LockResult Lock × LockStore) :
    Clients ι :=
  match answer with
  | (.ok lock, locks) =>
      { w with
        locks := locks
        log := .granted key lock.holderId w.clock lock.expiresAt :: w.log }
  | (.error _, locks) => { w with locks := locks }

def step (w : Clients ι) : Section ι → Clients ι
  | .pass elapsed => { w with clock := w.clock + elapsed }
  | .acquire ctx options newVersion =>
      w.returnLock (ctx.lockId options.lockKey)
        (Memory.acquireLock w.locks ctx options w.clock newVersion)
  | .renewCheck i ctx options =>
      match Memory.renewCheck w.locks ctx options w.clock with
      | .ok holderId =>
          { w with waiting := Function.update w.waiting i (some ⟨ctx, options, holderId⟩) }
      | .error _ => w
  | .renewWrite i newVersion =>
      match w.waiting i with
      | some call =>
          { w with waiting := Function.update w.waiting i none }.returnLock
            (call.ctx.lockId call.options.lockKey)
            (Memory.renewWrite w.locks call.ctx call.options call.holderId w.clock newVersion)
      | none => w
  | .release ctx options =>
      match Memory.releaseLock w.locks ctx options with
      | (.ok (), locks) =>
          { w with
            locks := locks
            log := .released (ctx.lockId options.lockKey) options.holderId w.clock :: w.log }
      | (.error _, _) => w

/-- The live lock that a renewal finds when it writes is its own, and its new lease
ends no earlier.  Every other step is free. -/
def RenewsInPlace (w : Clients ι) : Section ι → Prop
  | .renewWrite i _ =>
      ∀ call, w.waiting i = some call →
        ∀ entry, w.locks.lookup (call.ctx.lockId call.options.lockKey) = some entry →
          entry.expired w.clock = false →
            entry.holderId = call.holderId ∧
            entry.expiresAt ≤ w.clock + fromSecs call.options.leaseDurationSecs.toNat
  | _ => True

end Clients

def LockStore.owner (locks : LockStore) (key : LockId) : Option (String × SystemTime) :=
  match locks.lookup key with
  | some entry => if entry.locked then some (entry.holderId, entry.expiresAt) else none
  | none => none

namespace LockStore

variable {locks : LockStore} {key : LockId}

theorem owner_of_lookup {entry : LockEntry} (hfound : locks.lookup key = some entry)
    (hlocked : entry.locked = true) :
    LockStore.owner locks key = some (entry.holderId, entry.expiresAt) := by
  simp [owner, hfound, hlocked]

theorem exists_of_owner {h : String} {e : SystemTime}
    (howner : LockStore.owner locks key = some (h, e)) :
    ∃ entry, locks.lookup key = some entry ∧ entry.locked = true ∧
      entry.holderId = h ∧ entry.expiresAt = e := by
  cases hfound : locks.lookup key with
  | none => simp [owner, hfound] at howner
  | some entry =>
      cases hlocked : entry.locked with
      | false => simp [owner, hfound, hlocked] at howner
      | true =>
          rw [owner_of_lookup hfound hlocked] at howner
          cases howner
          exact ⟨entry, rfl, hlocked, rfl, rfl⟩

theorem owner_congr {locks' : LockStore} (h : locks'.lookup key = locks.lookup key) :
    LockStore.owner locks' key = LockStore.owner locks key := by
  simp only [owner, h]

end LockStore

/-- What every good step keeps: nobody was answered out of turn, and the store
still has every lease that was returned and not released. -/
structure Sound (locks : LockStore) (clock : SystemTime)
    (log : List (LeaseEvent LockId String SystemTime)) : Prop where
  exclusive : Exclusive log
  covered : Covered (LockStore.owner locks) clock log

namespace Sound

variable {locks locks' : LockStore} {clock : SystemTime} {key : LockId} {entry : LockEntry}
  {log : List (LeaseEvent LockId String SystemTime)}

theorem pass (hs : Sound locks clock log) (elapsed : Nat) :
    Sound locks (clock + elapsed) log where
  exclusive := hs.exclusive
  covered := hs.covered.later (Nat.le_add_right clock elapsed)

/-- A call returns the lock `entry`, which the store then has, and no live lock of
another holder or with a longer lease was there before. -/
theorem grant (hs : Sound locks clock log) (hself : locks'.lookup key = some entry)
    (hlocked : entry.locked = true)
    (hrest : ∀ k, k ≠ key → locks'.lookup k = locks.lookup k)
    (hfree : ∀ old, locks.lookup key = some old → old.expired clock = false →
      old.holderId = entry.holderId ∧ old.expiresAt ≤ entry.expiresAt) :
    Sound locks' clock (.granted key entry.holderId clock entry.expiresAt :: log) := by
  have howner : ∀ h e, LockStore.owner locks key = some (h, e) → clock < e →
      h = entry.holderId ∧ e ≤ entry.expiresAt := by
    intro h e howner he
    obtain ⟨old, hfound, hlocked, rfl, rfl⟩ := LockStore.exists_of_owner howner
    exact hfree old hfound (LockEntry.expired_eq_false.mpr ⟨he, hlocked⟩)
  constructor
  · apply hs.covered.exclusive_cons hs.exclusive rfl
    intro h e hown he
    exact (howner h e hown he).1
  · apply hs.covered.grant (LockStore.owner_of_lookup hself hlocked) _ howner
    intro k hk
    exact LockStore.owner_congr (hrest k hk)

theorem release (hs : Sound locks clock log) (hfound : locks.lookup key = some entry)
    (hrest : ∀ k, k ≠ key → locks'.lookup k = locks.lookup k) :
    Sound locks' clock (.released key entry.holderId clock :: log) := by
  have howner : ∀ h e, LockStore.owner locks key = some (h, e) → h = entry.holderId := by
    intro h e howner
    obtain ⟨old, hold, -, rfl, -⟩ := LockStore.exists_of_owner howner
    rw [hfound] at hold
    cases hold
    rfl
  constructor
  · apply hs.covered.exclusive_cons hs.exclusive rfl
    intro h e hown _
    exact howner h e hown
  · apply hs.covered.release _ howner
    intro k hk
    exact LockStore.owner_congr (hrest k hk)

end Sound

namespace Clients

variable {ι : Type} [DecidableEq ι]

/-- The state of the manager matches what it has answered. -/
def Consistent (w : Clients ι) : Prop := Sound w.locks w.clock w.log

omit [DecidableEq ι] in
theorem start_consistent (clock : SystemTime) : (start clock : Clients ι).Consistent where
  exclusive := trivial
  covered := fun _ _ _ hs _ => hs.elim

theorem acquire_consistent {w : Clients ι} (hw : w.Consistent) (ctx : RequestContext)
    (options : AcquireLockOptions) (newVersion : String) :
    (w.step (.acquire ctx options newVersion)).Consistent := by
  rw [step]
  rcases Memory.acquireLock_cases w.locks ctx w.clock newVersion options with
    ⟨entry, -, -, -, hres⟩ | ⟨entry, hfound, hlive, -, hres⟩ | ⟨hdead, hres⟩
  · rw [hres]
    exact hw
  · rw [hres]
    apply Sound.grant hw hfound (LockEntry.expired_eq_false.mp hlive).2 (fun _ _ => rfl)
    intro old hold _
    rw [hfound] at hold
    cases hold
    exact ⟨rfl, le_rfl⟩
  · rw [hres]
    apply Sound.grant hw (Assoc.lookup_insert_self _ _ _) rfl
    · intro k hk
      exact Assoc.lookup_insert_of_ne _ _ hk
    · intro old hold hlive
      rw [hdead old hold] at hlive
      cases hlive

theorem renewWrite_consistent {w : Clients ι} (hw : w.Consistent) {i : ι} {newVersion : String}
    (hplace : w.RenewsInPlace (.renewWrite i newVersion)) :
    (w.step (.renewWrite i newVersion)).Consistent := by
  rw [step]
  cases hcall : w.waiting i with
  | none => exact hw
  | some call =>
      apply Sound.grant hw (Assoc.lookup_insert_self _ _ _) rfl
      · intro k hk
        exact Assoc.lookup_insert_of_ne _ _ hk
      · exact hplace call hcall

theorem release_consistent {w : Clients ι} (hw : w.Consistent) (ctx : RequestContext)
    (options : ReleaseLockOptions) : (w.step (.release ctx options)).Consistent := by
  rw [step]
  rcases Memory.releaseLock_cases w.locks ctx options with
    ⟨error, hres⟩ | ⟨entry, hfound, hholder, -, hres⟩
  · rw [hres]
    exact hw
  · rw [hres, ← hholder]
    apply Sound.release hw hfound
    intro k hk
    split_ifs
    · exact AList.lookup_erase_ne hk
    · exact Assoc.lookup_insert_of_ne _ _ hk

theorem step_consistent (w : Clients ι) (s : Section ι) (hw : w.Consistent)
    (hplace : w.RenewsInPlace s) : (w.step s).Consistent := by
  cases s with
  | pass elapsed => exact Sound.pass hw elapsed
  | acquire ctx options newVersion => exact acquire_consistent hw ctx options newVersion
  | renewCheck i ctx options =>
      rw [step]
      split <;> exact hw
  | renewWrite i newVersion => exact renewWrite_consistent hw hplace
  | release ctx options => exact release_consistent hw ctx options

/-- In every interleaving whose renewals write in place, no call of another holder
returns `Ok` before a lease that was returned and not released has expired. -/
theorem exclusive_of_renewsInPlace (clock : SystemTime) (sections : List (Section ι))
    (hrun : Along step RenewsInPlace (start clock) sections) :
    Exclusive (run step (start clock) sections).log :=
  (hrun.invariant step_consistent (start_consistent clock)).exclusive

/-- A renewal in the middle of its lease, after which another holder is refused. -/
def timelyRenewal : List (Section Unit) :=
  [.acquire ⟨"t", "n"⟩ ⟨"k", "h1", 10, ∅⟩ "v1",
    .renewCheck () ⟨"t", "n"⟩ ⟨"k", "h1", "v1", 10, ∅⟩,
    .pass (fromSecs 5),
    .renewWrite () "v2",
    .acquire ⟨"t", "n"⟩ ⟨"k", "h2", 10, ∅⟩ "v3"]

theorem exclusive_of_renewsInPlace_timely :
    Along step RenewsInPlace (start 0) timelyRenewal ∧
      Exclusive (run step (start 0) timelyRenewal).log := by
  have hrun : Along step RenewsInPlace (start 0) timelyRenewal := by
    refine ⟨trivial, trivial, trivial, ?_, trivial, trivial⟩
    intro call hcall entry hentry _
    cases hcall
    have hlock : entry = LockEntry.lease "h1" "v1" 0 10 ∅ := by
      refine Option.some.inj (hentry.symm.trans ?_)
      decide +kernel
    subst hlock
    decide
  exact ⟨hrun, exclusive_of_renewsInPlace 0 timelyRenewal hrun⟩

/-- The first renewal is checked, its lease runs out, a second holder takes the lock
for ten seconds, and the renewal then returns a lease for the same time. -/
def overtakenRenewal : List (Section Unit) :=
  [.acquire ⟨"t", "n"⟩ ⟨"k", "h1", 10, ∅⟩ "v1",
    .renewCheck () ⟨"t", "n"⟩ ⟨"k", "h1", "v1", 10, ∅⟩,
    .pass (fromSecs 10),
    .acquire ⟨"t", "n"⟩ ⟨"k", "h2", 10, ∅⟩ "v2",
    .renewWrite () "v3"]

theorem overtakenRenewal_log :
    (run step (start 0) overtakenRenewal).log =
      [.granted ("t", "n", "k") "h1" (fromSecs 10) (fromSecs 20),
        .granted ("t", "n", "k") "h2" (fromSecs 10) (fromSecs 20),
        .granted ("t", "n", "k") "h1" 0 (fromSecs 10)] := by
  decide +kernel

theorem not_exclusive :
    ¬∀ (clock : SystemTime) (sections : List (Section Unit)),
      Exclusive (run step (start clock) sections).log := by
  intro h
  have hlog := h 0 overtakenRenewal
  rw [overtakenRenewal_log] at hlog
  have hsame : "h2" = "h1" :=
    hlog.1 "h2" (fromSecs 20) (.inl ⟨rfl, rfl, rfl⟩) (by decide)
  exact absurd hsame (by decide)

end Clients

end PlexSpaces.Locks
