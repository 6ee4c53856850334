import PlexSpaces.Locks.Lock
/-!
# In-memory lock manager

`MemoryLockManager` keeps its entries in one hash map behind a mutex.  Each
definition below is one critical section under that mutex.  `renew_lock` has two:
`renewCheck` validates the entry, and after the wait for the semaphore of the
entry `renewWrite` puts a new entry in its place without looking at the old one.
-/

namespace PlexSpaces.Locks

open PlexSpaces.Lib

structure LockEntry where
  holderId : String
  version : String
  expiresAt : SystemTime
  leaseDurationSecs : UInt32
  lastHeartbeat : SystemTime
  locked : Bool
  metadata : Metadata
  deriving DecidableEq

abbrev LockStore := Assoc LockId LockEntry

namespace LockEntry

def expired (e : LockEntry) (now : SystemTime) : Bool :=
  decide (e.expiresAt ≤ now) || !e.locked

/-- A locked entry whose lease starts at `now`. -/
def lease (holderId version : String) (now : SystemTime) (leaseDurationSecs : UInt32)
    (metadata : Metadata) : LockEntry where
  holderId := holderId
  version := version
  expiresAt := now + fromSecs leaseDurationSecs.toNat
  leaseDurationSecs := leaseDurationSecs
  lastHeartbeat := now
  locked := true
  metadata := metadata

theorem expired_eq_false {e : LockEntry} {now : SystemTime} :
    e.expired now = false ↔ now < e.expiresAt ∧ e.locked = true := by
  simp [expired]

end LockEntry

namespace Memory

def lockToProto (lockKey : String) (entry : LockEntry) : Lock where
  lockKey := lockKey
  holderId := entry.holderId
  version := entry.version
  expiresAt := entry.expiresAt
  leaseDurationSecs := entry.leaseDurationSecs
  lastHeartbeat := entry.lastHeartbeat
  metadata := entry.metadata
  locked := entry.locked

def acquireLock (locks : LockStore) (ctx : RequestContext) (options : AcquireLockOptions)
    (now : SystemTime) (newVersion : String) : LockResult Lock × LockStore :=
  let key := ctx.lockId options.lockKey
  let newEntry := LockEntry.lease options.holderId newVersion now options.leaseDurationSecs
    options.metadata
  match locks.lookup key with
  | some entry =>
      if !entry.expired now && entry.holderId != options.holderId then
        (.error (.lockAlreadyHeld entry.holderId), locks)
      else if !entry.expired now && entry.holderId == options.holderId then
        (.ok (lockToProto options.lockKey entry), locks)
      else
        (.ok (lockToProto options.lockKey newEntry), locks.insert key newEntry)
  | none => (.ok (lockToProto options.lockKey newEntry), locks.insert key newEntry)

/-- The first critical section of `renew_lock`; it returns the holder it found. -/
def renewCheck (locks : LockStore) (ctx : RequestContext) (options : RenewLockOptions)
    (now : SystemTime) : LockResult String :=
  match locks.lookup (ctx.lockId options.lockKey) with
  | none => .error (.lockNotFound options.lockKey)
  | some entry =>
      if entry.holderId != options.holderId then
        .error (.invalidHolderId entry.holderId)
      else if entry.expired now then
        .error (.lockExpired options.lockKey)
      else
        .ok entry.holderId

/-- The second critical section of `renew_lock`, after the semaphore wait. -/
def renewWrite (locks : LockStore) (ctx : RequestContext) (options : RenewLockOptions)
    (holderId : String) (now : SystemTime) (newVersion : String) :
    LockResult Lock × LockStore :=
  let newEntry := LockEntry.lease holderId newVersion now options.leaseDurationSecs
    options.metadata
  (.ok (lockToProto options.lockKey newEntry), locks.insert (ctx.lockId options.lockKey) newEntry)

/-- `renew_lock` when nothing happens during the semaphore wait. -/
def renewLock (locks : LockStore) (ctx : RequestContext) (options : RenewLockOptions)
    (now : SystemTime) (newVersion : String) : LockResult Lock × LockStore :=
  match renewCheck locks ctx options now with
  | .error e => (.error e, locks)
  | .ok holderId => renewWrite locks ctx options holderId now newVersion

def releaseLock (locks : LockStore) (ctx : RequestContext) (options : ReleaseLockOptions) :
    LockResult Unit × LockStore :=
  let key := ctx.lockId options.lockKey
  match locks.lookup key with
  | none => (.error (.lockNotFound options.lockKey), locks)
  | some entry =>
      if entry.holderId != options.holderId then
        (.error (.invalidHolderId entry.holderId), locks)
      else if entry.version != options.version then
        (.error (.versionMismatch entry.version options.version), locks)
      else if options.deleteLock then
        (.ok (), locks.erase key)
      else
        (.ok (), locks.insert key { entry with locked := false })

def getLock (locks : LockStore) (ctx : RequestContext) (lockKey : String) :
    LockResult (Option Lock) :=
  match locks.lookup (ctx.lockId lockKey) with
  | some entry => .ok (some (lockToProto lockKey entry))
  | none => .ok none

section Cases

variable (locks : LockStore) (ctx : RequestContext) (now : SystemTime) (newVersion : String)

/-- Where no live lock is, `acquire_lock` puts a fresh lease. -/
theorem acquireLock_of_expired {locks : LockStore} {ctx : RequestContext} {now : SystemTime}
    {newVersion : String} {options : AcquireLockOptions}
    (hdead : ∀ entry, locks.lookup (ctx.lockId options.lockKey) = some entry →
      entry.expired now = true) :
    acquireLock locks ctx options now newVersion =
      (.ok (lockToProto options.lockKey (LockEntry.lease options.holderId newVersion now
          options.leaseDurationSecs options.metadata)),
        locks.insert (ctx.lockId options.lockKey) (LockEntry.lease options.holderId newVersion
          now options.leaseDurationSecs options.metadata)) := by
  cases hfound : locks.lookup (ctx.lockId options.lockKey) with
  | none => simp [acquireLock, hfound]
  | some entry => simp [acquireLock, hfound, hdead entry hfound]

/-- What `acquire_lock` can do: refuse a lock that another holder has, return the
lock its own holder has, or put a fresh lease where no live lock is. -/
theorem acquireLock_cases (options : AcquireLockOptions) :
    (∃ entry, locks.lookup (ctx.lockId options.lockKey) = some entry ∧
      entry.expired now = false ∧ entry.holderId ≠ options.holderId ∧
      acquireLock locks ctx options now newVersion =
        (.error (.lockAlreadyHeld entry.holderId), locks)) ∨
    (∃ entry, locks.lookup (ctx.lockId options.lockKey) = some entry ∧
      entry.expired now = false ∧ entry.holderId = options.holderId ∧
      acquireLock locks ctx options now newVersion =
        (.ok (lockToProto options.lockKey entry), locks)) ∨
    ((∀ entry, locks.lookup (ctx.lockId options.lockKey) = some entry →
        entry.expired now = true) ∧
      acquireLock locks ctx options now newVersion =
        (.ok (lockToProto options.lockKey (LockEntry.lease options.holderId newVersion now
            options.leaseDurationSecs options.metadata)),
          locks.insert (ctx.lockId options.lockKey) (LockEntry.lease options.holderId newVersion
            now options.leaseDurationSecs options.metadata))) := by
  cases hfound : locks.lookup (ctx.lockId options.lockKey) with
  | none => exact .inr (.inr ⟨by simp, acquireLock_of_expired (by simp [hfound])⟩)
  | some entry =>
      cases hexp : entry.expired now with
      | true =>
          exact .inr (.inr ⟨by simp [hexp], acquireLock_of_expired (by simp [hfound, hexp])⟩)
      | false =>
          by_cases hholder : entry.holderId = options.holderId
          · refine .inr (.inl ⟨entry, rfl, hexp, hholder, ?_⟩)
            simp [acquireLock, hfound, hexp, hholder]
          · refine .inl ⟨entry, rfl, hexp, hholder, ?_⟩
            simp [acquireLock, hfound, hexp, hholder]

/-- What `release_lock` can do: fail and leave the store alone, or end the lock of
its own holder. -/
theorem releaseLock_cases (options : ReleaseLockOptions) :
    (∃ error, releaseLock locks ctx options = (.error error, locks)) ∨
    (∃ entry, locks.lookup (ctx.lockId options.lockKey) = some entry ∧
      entry.holderId = options.holderId ∧ entry.version = options.version ∧
      releaseLock locks ctx options = (.ok (),
        if options.deleteLock then locks.erase (ctx.lockId options.lockKey)
        else locks.insert (ctx.lockId options.lockKey) { entry with locked := false })) := by
  cases hfound : locks.lookup (ctx.lockId options.lockKey) with
  | none => exact .inl ⟨_, by simp only [releaseLock, hfound]; rfl⟩
  | some entry =>
      by_cases hholder : entry.holderId = options.holderId
      · by_cases hversion : entry.version = options.version
        · refine .inr ⟨entry, rfl, hholder, hversion, ?_⟩
          cases hdel : options.deleteLock <;> simp [releaseLock, hfound, hholder, hversion, hdel]
        · refine .inl ⟨.versionMismatch entry.version options.version, ?_⟩
          simp [releaseLock, hfound, hholder, hversion]
      · refine .inl ⟨.invalidHolderId entry.holderId, ?_⟩
        simp [releaseLock, hfound, hholder]

end Cases

end Memory

end PlexSpaces.Locks
