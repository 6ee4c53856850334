import PlexSpaces.Locks.Exclusion
/-!
# The lock manager trait

A component that takes an `Arc<dyn LockManager>` runs on any backend.  `LockManager` has
the calls of the trait and what its documentation promises of them: `acquire_lock` and
`renew_lock` of a holder give it a lease that has not expired, or they fail and change
nothing, and no call touches the lease of another key.

The in-memory backend keeps the promises (`Memory.lockManager`).
-/

namespace PlexSpaces.Locks

open PlexSpaces.Lib

def LockError.display : LockError → String
  | lockNotFound lockKey => "Lock not found: " ++ lockKey
  | lockAlreadyHeld holder => "Lock already held by: " ++ holder
  | lockNotHeld lockKey => "Lock not held: " ++ lockKey
  | lockExpired lockKey => "Lock expired: " ++ lockKey
  | versionMismatch expected actual =>
      "Version mismatch: expected " ++ expected ++ ", got " ++ actual
  | invalidHolderId holder => "Invalid holder ID: " ++ holder
  | backendError message => "Backend error: " ++ message

/-- The holder `h` has a lease on `key` that has not expired. -/
def Live (owner : LockId → Option (String × SystemTime)) (key : LockId) (h : String)
    (now : SystemTime) : Prop :=
  ∃ e, owner key = some (h, e) ∧ now < e

instance (owner : LockId → Option (String × SystemTime)) (key : LockId) (h : String)
    (now : SystemTime) : Decidable (Live owner key h now) :=
  match howner : owner key with
  | none => isFalse fun ⟨e, he, _⟩ => Option.some_ne_none (h, e) (he.symm.trans howner)
  | some (h', e) =>
      decidable_of_iff (h' = h ∧ now < e) <| by
        unfold Live
        rw [howner]
        constructor
        · rintro ⟨rfl, he⟩
          exact ⟨e, rfl, he⟩
        · rintro ⟨_, hsame, he⟩
          cases hsame
          exact ⟨rfl, he⟩

/-- The answer of a call by which `holder` asks for a lease on `key`. -/
structure Leases {σ : Type} (owner : σ → LockId → Option (String × SystemTime)) (s : σ)
    (key : LockId) (holder : String) (leaseDurationSecs : UInt32) (now : SystemTime)
    (answer : LockResult Lock × σ) : Prop where
  refused : ∀ e, answer.1 = .error e → answer.2 = s
  granted : ∀ lock, answer.1 = .ok lock → 0 < leaseDurationSecs.toNat →
    Live (owner answer.2) key holder now
  frame : ∀ k, k ≠ key → owner answer.2 k = owner s k

/-- `trait LockManager` over the stored locks `σ`.  What a call takes from outside, such as
the new version string or an error of the database, is in `ρ`. -/
structure LockManager (σ ρ : Type) where
  acquireLock : σ → RequestContext → AcquireLockOptions → SystemTime → ρ → LockResult Lock × σ
  renewLock : σ → RequestContext → RenewLockOptions → SystemTime → ρ → LockResult Lock × σ
  releaseLock : σ → RequestContext → ReleaseLockOptions → SystemTime → ρ → LockResult Unit × σ
  getLock : σ → RequestContext → String → ρ → LockResult (Option Lock)
  owner : σ → LockId → Option (String × SystemTime)
  acquires : ∀ s ctx options now r, Leases owner s (ctx.lockId options.lockKey)
    options.holderId options.leaseDurationSecs now (acquireLock s ctx options now r)
  renews : ∀ s ctx options now r, Leases owner s (ctx.lockId options.lockKey)
    options.holderId options.leaseDurationSecs now (renewLock s ctx options now r)
  releases : ∀ s ctx options now r k, k ≠ ctx.lockId options.lockKey →
    owner (releaseLock s ctx options now r).2 k = owner s k

/-- The versions of the trait: `current` is the lock stored under a key.  A lock that a call
returns is the one that is stored, and releasing the version that is stored leaves no lease,
unless the backend fails. -/
structure LockManager.Versions {σ ρ : Type} (m : LockManager σ ρ)
    (current : σ → LockId → Option Lock) : Prop where
  acquired : ∀ s ctx options now r lock, (m.acquireLock s ctx options now r).1 = .ok lock →
    current (m.acquireLock s ctx options now r).2 (ctx.lockId options.lockKey) = some lock ∧
      lock.holderId = options.holderId
  renewed : ∀ s ctx options now r lock, (m.renewLock s ctx options now r).1 = .ok lock →
    current (m.renewLock s ctx options now r).2 (ctx.lockId options.lockKey) = some lock ∧
      lock.holderId = options.holderId
  read : ∀ s ctx lockKey r lock, m.getLock s ctx lockKey r = .ok (some lock) →
    current s (ctx.lockId lockKey) = some lock
  released : ∀ s ctx options now r lock, current s (ctx.lockId options.lockKey) = some lock →
    lock.version = options.version → lock.holderId = options.holderId →
    (∀ message, (m.releaseLock s ctx options now r).1 ≠ .error (.backendError message)) →
    ∀ h t, now ≤ t →
      ¬Live (m.owner (m.releaseLock s ctx options now r).2) (ctx.lockId options.lockKey) h t

namespace Memory

variable (locks : LockStore) (ctx : RequestContext) (now : SystemTime) (newVersion : String)

theorem lt_add_fromSecs {d : Nat} (h : 0 < d) : now < now + fromSecs d :=
  Nat.lt_add_of_pos_right (Nat.mul_pos h (by decide))

/-- A fresh lease of `holder` in the place of what was stored. -/
theorem leases_insert {key : LockId} {holder : String} {d : UInt32} {metadata : Metadata}
    {lock : Lock} :
    Leases LockStore.owner locks key holder d now
      (.ok lock, locks.insert key (LockEntry.lease holder newVersion now d metadata)) where
  refused := by
    intro e h
    cases h
  granted := by
    intro _ _ hd
    refine ⟨_, LockStore.owner_of_lookup (Assoc.lookup_insert_self _ _ _) rfl, ?_⟩
    exact lt_add_fromSecs now hd
  frame := fun k hk => LockStore.owner_congr (Assoc.lookup_insert_of_ne _ _ hk)

theorem leases_refused {key : LockId} {holder : String} {d : UInt32} {e : LockError} :
    Leases LockStore.owner locks key holder d now (.error e, locks) where
  refused := fun _ _ => rfl
  granted := by
    intro lock h
    cases h
  frame := fun _ _ => rfl

theorem acquireLock_leases (options : AcquireLockOptions) :
    Leases LockStore.owner locks (ctx.lockId options.lockKey) options.holderId
      options.leaseDurationSecs now (acquireLock locks ctx options now newVersion) := by
  rcases acquireLock_cases locks ctx now newVersion options with
    ⟨entry, -, -, -, hres⟩ | ⟨entry, hfound, hlive, hholder, hres⟩ | ⟨-, hres⟩
  · rw [hres]
    exact leases_refused locks now
  · rw [hres]
    obtain ⟨hexpiry, hlocked⟩ := LockEntry.expired_eq_false.mp hlive
    refine ⟨fun _ _ => rfl, ?_, fun _ _ => rfl⟩
    intro _ _ _
    exact ⟨_, hholder ▸ LockStore.owner_of_lookup hfound hlocked, hexpiry⟩
  · rw [hres]
    exact leases_insert locks now newVersion

theorem renewLock_leases (options : RenewLockOptions) :
    Leases LockStore.owner locks (ctx.lockId options.lockKey) options.holderId
      options.leaseDurationSecs now (renewLock locks ctx options now newVersion) := by
  unfold renewLock renewCheck
  cases hfound : locks.lookup (ctx.lockId options.lockKey) with
  | none => exact leases_refused locks now
  | some entry =>
      by_cases hholder : entry.holderId = options.holderId
      · cases hexp : entry.expired now with
        | true =>
            simp only [hholder, hexp, bne_self_eq_false, Bool.false_eq_true, if_false, if_true]
            exact leases_refused locks now
        | false =>
            simp only [hholder, hexp, bne_self_eq_false, Bool.false_eq_true, if_false]
            exact leases_insert locks now newVersion
      · simp only [bne_iff_ne.mpr hholder, if_true]
        exact leases_refused locks now

theorem releaseLock_frame (options : ReleaseLockOptions) {k : LockId}
    (hk : k ≠ ctx.lockId options.lockKey) :
    LockStore.owner (releaseLock locks ctx options).2 k = LockStore.owner locks k := by
  rcases releaseLock_cases locks ctx options with ⟨error, hres⟩ | ⟨entry, -, -, -, hres⟩
  · rw [hres]
  · rw [hres]
    apply LockStore.owner_congr
    split_ifs
    · exact AList.lookup_erase_ne hk
    · exact Assoc.lookup_insert_of_ne _ _ hk

/-- `MemoryLockManager` behind the trait.  A call takes the version it draws from outside. -/
def lockManager : LockManager LockStore String where
  acquireLock := acquireLock
  renewLock := renewLock
  releaseLock := fun locks ctx options _ _ => releaseLock locks ctx options
  getLock := fun locks ctx lockKey _ => getLock locks ctx lockKey
  owner := LockStore.owner
  acquires := fun locks ctx options now r => acquireLock_leases locks ctx now r options
  renews := fun locks ctx options now r => renewLock_leases locks ctx now r options
  releases := fun locks ctx options _ _ _ hk => releaseLock_frame locks ctx options hk

def current (locks : LockStore) (key : LockId) : Option Lock :=
  (locks.lookup key).map (lockToProto key.2.2)

variable {locks ctx now} in
theorem holderId_of_renewCheck {options : RenewLockOptions} {holderId : String}
    (h : renewCheck locks ctx options now = .ok holderId) : holderId = options.holderId := by
  unfold renewCheck at h
  split at h
  · cases h
  · split at h
    · cases h
    next hholder =>
      split at h
      · cases h
      · cases h
        simpa using hholder

variable {locks ctx} in
theorem releaseLock_of_version {options : ReleaseLockOptions} {entry : LockEntry}
    (hfound : locks.lookup (ctx.lockId options.lockKey) = some entry)
    (hholder : entry.holderId = options.holderId) (hversion : entry.version = options.version) :
    (releaseLock locks ctx options).2 =
      if options.deleteLock then locks.erase (ctx.lockId options.lockKey)
      else locks.insert (ctx.lockId options.lockKey) { entry with locked := false } := by
  cases hdel : options.deleteLock <;> simp [releaseLock, hfound, hholder, hversion, hdel]

theorem lockManager_versions : lockManager.Versions current where
  acquired := by
    intro locks ctx options now r lock h
    change (acquireLock locks ctx options now r).1 = .ok lock at h
    change current (acquireLock locks ctx options now r).2 _ = _ ∧ _
    rcases acquireLock_cases locks ctx now r options with
      ⟨entry, -, -, -, hres⟩ | ⟨entry, hfound, -, hholder, hres⟩ | ⟨-, hres⟩
    · rw [hres] at h
      cases h
    · rw [hres] at h ⊢
      cases h
      exact ⟨by rw [current, hfound]; rfl, hholder⟩
    · rw [hres] at h ⊢
      cases h
      exact ⟨by rw [current, Assoc.lookup_insert_self]; rfl, rfl⟩
  renewed := by
    intro locks ctx options now r lock h
    change (renewLock locks ctx options now r).1 = .ok lock at h
    change current (renewLock locks ctx options now r).2 _ = _ ∧ _
    unfold renewLock at h ⊢
    cases hcheck : renewCheck locks ctx options now with
    | error e => rw [hcheck] at h; cases h
    | ok holderId =>
        rw [hcheck] at h
        cases h
        refine ⟨?_, holderId_of_renewCheck hcheck⟩
        simp only [renewWrite, current, Assoc.lookup_insert_self]
        rfl
  read := by
    intro locks ctx lockKey r lock h
    change getLock locks ctx lockKey = _ at h
    unfold getLock at h
    cases hfound : locks.lookup (ctx.lockId lockKey) with
    | none => rw [hfound] at h; cases h
    | some entry =>
        rw [hfound] at h
        cases h
        rw [current, hfound]
        rfl
  released := by
    intro locks ctx options now r lock hcurrent hversion hholder _ h t _
    change ¬Live (LockStore.owner (releaseLock locks ctx options).2) _ h t
    obtain ⟨entry, hfound, rfl⟩ := Option.map_eq_some_iff.mp hcurrent
    rintro ⟨e, howner, -⟩
    rw [releaseLock_of_version hfound hholder hversion] at howner
    cases hdel : options.deleteLock with
    | true => simp [LockStore.owner, hdel] at howner
    | false => simp [LockStore.owner, hdel] at howner

end Memory

end PlexSpaces.Locks
