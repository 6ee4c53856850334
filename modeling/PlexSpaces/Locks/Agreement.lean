import PlexSpaces.Lib.Run
import PlexSpaces.Locks.Memory
import PlexSpaces.Locks.Sqlite
/-!
# Agreement of the in-memory and the SQLite lock manager

Both backends serve the same sequence of calls with the same clock and the same
version strings.  A call agrees when the two answers are equal and a returned lock
is what `get_lock` then returns.

The backends differ when a call overwrites an existing lock.  SQLite keeps the old
metadata when the call brings none, and an `acquire_lock` returns the old lease
duration with the new lock; the heartbeat of an inserted row is read from the clock
once more for the lock that is returned.  All calls of a sequence agree if and only
if none of them makes such a difference visible (`backends_agree_iff`).
-/

namespace PlexSpaces.Locks

open PlexSpaces.Lib

/-- A call with the version it generates and its clock readings in seconds. -/
inductive Call
  | acquire (ctx : RequestContext) (options : AcquireLockOptions) (newVersion : String)
      (now inserted returned : Nat)
  | renew (ctx : RequestContext) (options : RenewLockOptions) (newVersion : String) (now : Nat)
  | release (ctx : RequestContext) (options : ReleaseLockOptions)
  | get (ctx : RequestContext) (lockKey : String)

inductive Answer
  | lock (result : LockResult Lock)
  | done (result : LockResult Unit)
  | found (result : LockResult (Option Lock))
  deriving DecidableEq

namespace Call

def ctx : Call → RequestContext
  | acquire ctx _ _ _ _ _ => ctx
  | renew ctx _ _ _ => ctx
  | release ctx _ => ctx
  | get ctx _ => ctx

def lockKey : Call → String
  | acquire _ options _ _ _ _ => options.lockKey
  | renew _ options _ _ => options.lockKey
  | release _ options => options.lockKey
  | get _ lockKey => lockKey

def metadata : Call → Metadata
  | acquire _ options _ _ _ _ => options.metadata
  | renew _ options _ _ => options.metadata
  | _ => ∅

end Call

structure Backends where
  memory : LockStore
  sqlite : LockTable

namespace Backends

variable (json : SerdeJson)

def start : Backends := ⟨∅, Table.empty⟩

def memoryAnswer (b : Backends) : Call → Answer × LockStore
  | .acquire ctx options newVersion now _ _ =>
      (Memory.acquireLock b.memory ctx options (fromSecs now) newVersion).map .lock id
  | .renew ctx options newVersion now =>
      (Memory.renewLock b.memory ctx options (fromSecs now) newVersion).map .lock id
  | .release ctx options => (Memory.releaseLock b.memory ctx options).map .done id
  | .get ctx lockKey => (.found (Memory.getLock b.memory ctx lockKey), b.memory)

def sqliteAnswer (b : Backends) : Call → Answer × LockTable
  | .acquire ctx options newVersion now inserted returned =>
      (Sqlite.acquireLock json b.sqlite ctx options now inserted returned newVersion).map .lock id
  | .renew ctx options newVersion now =>
      (Sqlite.renewLock json b.sqlite ctx options now newVersion).map .lock id
  | .release ctx options => (Sqlite.releaseLock b.sqlite ctx options).map .done id
  | .get ctx lockKey => (.found (Sqlite.getLock json b.sqlite ctx lockKey), b.sqlite)

def step (b : Backends) (call : Call) : Backends :=
  ⟨(b.memoryAnswer call).2, (b.sqliteAnswer json call).2⟩

/-- Both backends give the same answer, and a lock that either returns is the one
that its `get_lock` returns right after. -/
structure Agree (b : Backends) (call : Call) : Prop where
  same : (b.memoryAnswer call).1 = (b.sqliteAnswer json call).1
  memoryReads : ∀ lock, (b.memoryAnswer call).1 = .lock (.ok lock) →
    Memory.getLock (b.step json call).memory call.ctx call.lockKey = .ok (some lock)
  sqliteReads : ∀ lock, (b.sqliteAnswer json call).1 = .lock (.ok lock) →
    Sqlite.getLock json (b.step json call).sqlite call.ctx call.lockKey = .ok (some lock)

/-- The call keeps nothing of the lock that it overwrites: it brings metadata where
the old lock has some, and an acquisition asks for the same lease again.  An
acquisition that inserts a lock reads the same second each time. -/
def KeepsNothing (b : Backends) : Call → Prop
  | .acquire ctx options _ now inserted returned =>
      match b.memory.lookup (ctx.lockId options.lockKey) with
      | none => inserted = now ∧ returned = now
      | some entry =>
          entry.expired (fromSecs now) = true →
            entry.leaseDurationSecs = options.leaseDurationSecs ∧
            (options.metadata = ∅ → entry.metadata = ∅)
  | .renew ctx options _ now =>
      match b.memory.lookup (ctx.lockId options.lockKey) with
      | none => True
      | some entry =>
          entry.holderId = options.holderId → entry.expired (fromSecs now) = false →
            options.metadata = ∅ → entry.metadata = ∅
  | _ => True

end Backends

/-- A row and the entry that it stores. -/
structure RowOf (json : SerdeJson) (entry : LockEntry) (row : LockRow) : Prop where
  holderId : row.holderId = entry.holderId
  version : row.version = entry.version
  expiresAt : fromSecs row.expiresAt = entry.expiresAt
  leaseDurationSecs : row.leaseDurationSecs = entry.leaseDurationSecs.toNat
  lastHeartbeat : fromSecs row.lastHeartbeat = entry.lastHeartbeat
  locked : (row.locked != 0) = entry.locked
  metadata : Sqlite.readMetadata json row.metadata = .ok entry.metadata

theorem fromSecs_add (a b : Nat) : fromSecs (a + b) = fromSecs a + fromSecs b :=
  Nat.add_mul a b 1000000000

theorem fromSecs_le {a b : Nat} : fromSecs a ≤ fromSecs b ↔ a ≤ b :=
  Nat.mul_le_mul_right_iff (by decide)

theorem fromSecs_inj {a b : Nat} : fromSecs a = fromSecs b ↔ a = b :=
  Nat.mul_left_inj (by decide)

namespace RowOf

variable {json : SerdeJson} {entry : LockEntry} {row : LockRow}

theorem expired (h : RowOf json entry row) (now : Nat) :
    Sqlite.expired row now = entry.expired (fromSecs now) := by
  rw [Sqlite.expired, LockEntry.expired, ← h.expiresAt, ← h.locked]
  simp [fromSecs_le, bne]

theorem lockFromRow (h : RowOf json entry row) (lockKey : String) :
    Sqlite.lockFromRow json lockKey row.holderId row.version row.expiresAt
      row.leaseDurationSecs row.lastHeartbeat row.locked row.metadata =
      .ok (Memory.lockToProto lockKey entry) := by
  rw [Sqlite.lockFromRow, h.metadata, h.holderId, h.version, h.expiresAt, h.leaseDurationSecs,
    h.lastHeartbeat, h.locked, UInt32.ofNat_toNat]
  rfl

end RowOf

/-- The metadata that is stored when a call with `metadata` overwrites `old`. -/
def keptMetadata (metadata old : Metadata) : Metadata :=
  if metadata = ∅ then old else metadata

theorem metadataJsonNew_eq {json : SerdeJson} {metadata old : Metadata} {text : Option String}
    (hjson : metadata ≠ ∅ → json.RoundTrips metadata)
    (hold : Sqlite.readMetadata json text = .ok old) :
    ∃ new, Sqlite.metadataJsonNew json metadata text = .ok new ∧
      Sqlite.readMetadata json new = .ok (keptMetadata metadata old) := by
  by_cases hempty : metadata = ∅
  · refine ⟨text, ?_, ?_⟩
    · rw [Sqlite.metadataJsonNew, if_pos hempty]
    · rw [hold, keptMetadata, if_pos hempty]
  · obtain ⟨new, hto, hne, hfrom⟩ := hjson hempty
    refine ⟨some new, ?_, ?_⟩
    · simp [Sqlite.metadataJsonNew, hempty, hto]
    · simp [Sqlite.readMetadata, hne, hfrom, keptMetadata, hempty]

theorem keptMetadata_eq_iff {metadata old : Metadata} :
    metadata = keptMetadata metadata old ↔ (metadata = ∅ → old = ∅) := by
  unfold keptMetadata
  split_ifs with h
  · simp [h, eq_comm]
  · simp [h]

namespace Backends

variable {json : SerdeJson} {b : Backends} {ctx : RequestContext}

/-- Every lock is stored in both backends, or in neither. -/
def Mirrors (json : SerdeJson) (b : Backends) : Prop :=
  ∀ key, Option.Rel (RowOf json) (b.memory.lookup key) (b.sqlite.find key)

theorem start_mirrors : Mirrors json start := fun _ => .none

namespace Mirrors

theorem find_eq_none (hb : b.Mirrors json) {key : LockId} (h : b.memory.lookup key = none) :
    b.sqlite.find key = none := by
  have hrel := hb key
  rw [h] at hrel
  cases hrow : b.sqlite.find key with
  | none => rfl
  | some row =>
      rw [hrow] at hrel
      cases hrel

theorem find_eq_some (hb : b.Mirrors json) {key : LockId} {entry : LockEntry}
    (h : b.memory.lookup key = some entry) :
    ∃ row, b.sqlite.find key = some row ∧ RowOf json entry row := by
  have hrel := hb key
  rw [h] at hrel
  cases hrow : b.sqlite.find key with
  | none =>
      rw [hrow] at hrel
      cases hrel
  | some row =>
      rw [hrow] at hrel
      cases hrel with
      | some hof => exact ⟨row, rfl, hof⟩

/-- Both backends write the same lock at `key`, or delete it there. -/
theorem write (hb : b.Mirrors json) {key : LockId} {b' : Backends} {entry : Option LockEntry}
    {row : Option LockRow} (hof : Option.Rel (RowOf json) entry row)
    (hmemory : ∀ k, b'.memory.lookup k = if k = key then entry else b.memory.lookup k)
    (hsqlite : ∀ k, b'.sqlite.find k = if k = key then row else b.sqlite.find k) :
    b'.Mirrors json := by
  intro k
  rw [hmemory, hsqlite]
  split_ifs
  · exact hof
  · exact hb k

theorem getLock_eq (hb : b.Mirrors json) (ctx : RequestContext) (lockKey : String) :
    Sqlite.getLock json b.sqlite ctx lockKey = Memory.getLock b.memory ctx lockKey := by
  cases hfound : b.memory.lookup (ctx.lockId lockKey) with
  | none => simp [Sqlite.getLock, Memory.getLock, hfound, hb.find_eq_none hfound]
  | some entry =>
      obtain ⟨row, hrow, hof⟩ := hb.find_eq_some hfound
      have hkey : row.lockKey = lockKey := congrArg (·.2.2) (Table.key_of_find hrow)
      simp only [Sqlite.getLock, Memory.getLock, hfound, hrow, hkey, hof.lockFromRow]
      rfl

end Mirrors

section Sqlite

variable {table : LockTable} {entry : LockEntry} {row : LockRow}

/-- `acquire_lock` of a lock that has no row. -/
theorem sqlite_acquire_absent {options : AcquireLockOptions} (newVersion : String)
    (now inserted returned : Nat)
    (hfind : table.find (ctx.lockId options.lockKey) = none)
    (hjson : options.metadata ≠ ∅ → json.RoundTrips options.metadata) :
    ∃ row' table', Sqlite.acquireLock json table ctx options now inserted returned newVersion =
        (.ok { Memory.lockToProto options.lockKey (LockEntry.lease options.holderId newVersion
            (fromSecs now) options.leaseDurationSecs options.metadata) with
          lastHeartbeat := fromSecs returned }, table') ∧
      RowOf json { LockEntry.lease options.holderId newVersion (fromSecs now)
          options.leaseDurationSecs options.metadata with
        lastHeartbeat := fromSecs inserted } row' ∧
      ∀ k, table'.find k =
        if k = ctx.lockId options.lockKey then some row' else table.find k := by
  obtain ⟨text, hnew, hread⟩ := metadataJsonNew_eq hjson
    (show Sqlite.readMetadata json none = .ok ∅ from rfl)
  have hkept : keptMetadata options.metadata ∅ = options.metadata :=
    (keptMetadata_eq_iff.mpr fun _ => rfl).symm
  rw [hkept] at hread
  let row' : LockRow :=
    { tenantId := ctx.tenantId
      nsName := ctx.nsName
      lockKey := options.lockKey
      holderId := options.holderId
      version := newVersion
      expiresAt := now + options.leaseDurationSecs.toNat
      leaseDurationSecs := options.leaseDurationSecs.toNat
      lastHeartbeat := inserted
      locked := 1
      metadata := text }
  cases hins : table.insert? row' with
  | none =>
      obtain ⟨r, hr⟩ := Table.mem_map_key_iff.mp (Table.insert?_eq_none_iff.mp hins)
      rw [show row'.key = ctx.lockId options.lockKey from rfl, hfind] at hr
      cases hr
  | some table' =>
      refine ⟨row', table', ?_, ?_, Table.find_insert? hins⟩
      · simp only [Sqlite.acquireLock, hfind, hnew]
        rw [hins]
        simp [Sqlite.lockFromRow, hread, fromSecs_add, Memory.lockToProto, LockEntry.lease]
      · exact ⟨rfl, rfl, fromSecs_add _ _, rfl, rfl, rfl, hread⟩

/-- `acquire_lock` of a lock whose row is expired or released: the lock that it
returns has the old lease duration. -/
theorem sqlite_acquire_expired {options : AcquireLockOptions} (newVersion : String)
    {now : Nat} (inserted returned : Nat)
    (hfind : table.find (ctx.lockId options.lockKey) = some row) (hof : RowOf json entry row)
    (hexp : entry.expired (fromSecs now) = true)
    (hjson : options.metadata ≠ ∅ → json.RoundTrips options.metadata) :
    ∃ row' table', Sqlite.acquireLock json table ctx options now inserted returned newVersion =
        (.ok { Memory.lockToProto options.lockKey (LockEntry.lease options.holderId newVersion
            (fromSecs now) options.leaseDurationSecs
            (keptMetadata options.metadata entry.metadata)) with
          leaseDurationSecs := entry.leaseDurationSecs }, table') ∧
      RowOf json (LockEntry.lease options.holderId newVersion (fromSecs now)
        options.leaseDurationSecs (keptMetadata options.metadata entry.metadata)) row' ∧
      ∀ k, table'.find k =
        if k = ctx.lockId options.lockKey then some row' else table.find k := by
  obtain ⟨text, hnew, hread⟩ := metadataJsonNew_eq hjson hof.metadata
  have hkey : row.lockKey = options.lockKey := congrArg (·.2.2) (Table.key_of_find hfind)
  have hexp' : Sqlite.expired row now = true := (hof.expired now).trans hexp
  let set : LockRow → LockRow := fun r =>
    { r with
      holderId := options.holderId
      version := newVersion
      expiresAt := now + options.leaseDurationSecs.toNat
      leaseDurationSecs := options.leaseDurationSecs.toNat
      lastHeartbeat := now
      locked := 1
      metadata := text }
  have hset : ∀ r, (set r).key = r.key := fun _ => rfl
  refine ⟨set row, table.update (ctx.lockId options.lockKey) set hset, ?_, ?_, ?_⟩
  · simp only [Sqlite.acquireLock, hfind, hexp', hnew, Bool.not_true, Bool.false_and,
      Bool.false_eq_true, if_false]
    simp only [Sqlite.lockFromRow, hread, hkey, hof.leaseDurationSecs, UInt32.ofNat_toNat,
      fromSecs_add]
    rfl
  · exact ⟨rfl, rfl, fromSecs_add _ _, rfl, rfl, rfl, hread⟩
  · intro k
    rw [Table.find_update, hfind, Option.map_some]

/-- `renew_lock` of a live lock by its holder. -/
theorem sqlite_renew_live {options : RenewLockOptions} (newVersion : String) {now : Nat}
    (hfind : table.find (ctx.lockId options.lockKey) = some row) (hof : RowOf json entry row)
    (hholder : entry.holderId = options.holderId) (hlive : entry.expired (fromSecs now) = false)
    (hjson : options.metadata ≠ ∅ → json.RoundTrips options.metadata) :
    ∃ row' table', Sqlite.renewLock json table ctx options now newVersion =
        (.ok (Memory.lockToProto options.lockKey (LockEntry.lease options.holderId newVersion
          (fromSecs now) options.leaseDurationSecs
          (keptMetadata options.metadata entry.metadata))), table') ∧
      RowOf json (LockEntry.lease options.holderId newVersion (fromSecs now)
        options.leaseDurationSecs (keptMetadata options.metadata entry.metadata)) row' ∧
      ∀ k, table'.find k =
        if k = ctx.lockId options.lockKey then some row' else table.find k := by
  obtain ⟨text, hnew, hread⟩ := metadataJsonNew_eq hjson hof.metadata
  have hlive' : Sqlite.expired row now = false := (hof.expired now).trans hlive
  have hlocked : (row.locked != 0) = true :=
    hof.locked.trans (LockEntry.expired_eq_false.mp hlive).2
  have hsame : row.holderId = options.holderId := hof.holderId.trans hholder
  let set : LockRow → LockRow := fun r =>
    { r with
      version := newVersion
      expiresAt := now + options.leaseDurationSecs.toNat
      leaseDurationSecs := options.leaseDurationSecs.toNat
      lastHeartbeat := now
      metadata := text }
  have hset : ∀ r, (set r).key = r.key := fun _ => rfl
  refine ⟨set row, table.update (ctx.lockId options.lockKey) set hset, ?_, ?_, ?_⟩
  · simp only [Sqlite.renewLock, hfind, hlive', hsame, hnew, bne_self_eq_false,
      Bool.false_eq_true, if_false]
    simp only [Sqlite.lockFromRow, hread, UInt32.ofNat_toNat, fromSecs_add]
    rfl
  · exact ⟨hsame, rfl, fromSecs_add _ _, rfl, rfl, hlocked, hread⟩
  · intro k
    rw [Table.find_update, hfind, Option.map_some]

end Sqlite

/-- Memory writes the entry `ours` and returns it; SQLite writes a row that stores
`stored` and returns the lock `theirs`. -/
theorem agree_iff_of_writes (call : Call) {ours stored : LockEntry} {theirs : Lock}
    {row : LockRow} {table : LockTable} (hb : b.Mirrors json)
    (hmemory : b.memoryAnswer call = (.lock (.ok (Memory.lockToProto call.lockKey ours)),
      b.memory.insert (call.ctx.lockId call.lockKey) ours))
    (hsqlite : b.sqliteAnswer json call = (.lock (.ok theirs), table))
    (hof : RowOf json stored row)
    (hfind : ∀ k, table.find k =
      if k = call.ctx.lockId call.lockKey then some row else b.sqlite.find k) :
    (b.Agree json call ↔ Memory.lockToProto call.lockKey ours = theirs ∧
        theirs = Memory.lockToProto call.lockKey stored) ∧
      (ours = stored → (b.step json call).Mirrors json) := by
  -- a state in which both backends have stored what SQLite has stored
  have hmirror : Mirrors json
      ⟨b.memory.insert (call.ctx.lockId call.lockKey) stored, table⟩ :=
    hb.write (.some hof) (fun k => Assoc.lookup_insert _ _ k _) hfind
  have hget : ∀ entry, Memory.getLock (b.memory.insert (call.ctx.lockId call.lockKey) entry)
      call.ctx call.lockKey = .ok (some (Memory.lockToProto call.lockKey entry)) := by
    intro entry
    rw [Memory.getLock, Assoc.lookup_insert_self]
  have hstored := (hmirror.getLock_eq call.ctx call.lockKey).trans (hget stored)
  refine ⟨⟨?_, ?_⟩, ?_⟩
  · rintro ⟨hsame, -, hreads⟩
    rw [hmemory, hsqlite] at hsame
    have hread := hreads theirs (by rw [hsqlite])
    rw [step, hsqlite] at hread
    have heq := hread.symm.trans hstored
    cases hsame
    exact ⟨rfl, by simpa using heq⟩
  · rintro ⟨hours, htheirs⟩
    refine ⟨?_, ?_, ?_⟩
    · rw [hmemory, hsqlite, hours]
    · intro lock hlock
      rw [hmemory] at hlock
      cases hlock
      rw [step, hmemory]
      exact hget ours
    · intro lock hlock
      rw [hsqlite] at hlock
      cases hlock
      rw [step, hsqlite, htheirs]
      exact hstored
  · rintro rfl
    rw [step, hmemory, hsqlite]
    exact hmirror

/-- What is shown of each call: when the backends agree on it, and that they then
still mirror each other. -/
def Settles (json : SerdeJson) (b : Backends) (call : Call) : Prop :=
  (b.KeepsNothing call ↔ b.Agree json call) ∧
    (b.KeepsNothing call → (b.step json call).Mirrors json)

/-- A call that keeps nothing by its form, on which both backends give one answer and
after which they mirror each other. -/
theorem settles_of_same {call : Call} (hkeep : b.KeepsNothing call)
    (hsame : (b.memoryAnswer call).1 = (b.sqliteAnswer json call).1)
    (hmirror : (b.step json call).Mirrors json)
    (hread : ∀ lock, (b.memoryAnswer call).1 = .lock (.ok lock) →
      Memory.getLock (b.step json call).memory call.ctx call.lockKey = .ok (some lock)) :
    Settles json b call := by
  refine ⟨iff_of_true hkeep ⟨hsame, hread, ?_⟩, fun _ => hmirror⟩
  intro lock hlock
  rw [hmirror.getLock_eq]
  exact hread lock (hsame.trans hlock)

theorem settles_of_unchanged {call : Call} (hb : b.Mirrors json) (hkeep : b.KeepsNothing call)
    (answer : Answer) (hmemory : b.memoryAnswer call = (answer, b.memory))
    (hsqlite : b.sqliteAnswer json call = (answer, b.sqlite))
    (hread : ∀ lock, answer = .lock (.ok lock) →
      Memory.getLock b.memory call.ctx call.lockKey = .ok (some lock)) :
    Settles json b call := by
  have hstep : b.step json call = b := by
    rw [step, hmemory, hsqlite]
  apply settles_of_same hkeep
  · rw [hmemory, hsqlite]
  · rw [hstep]
    exact hb
  · intro lock hlock
    rw [hmemory] at hlock
    rw [hstep]
    exact hread lock hlock

section Acquire

variable {options : AcquireLockOptions} {entry : LockEntry}

theorem memoryAnswer_acquire (newVersion : String) {now : Nat} (inserted returned : Nat)
    (hdead : ∀ entry, b.memory.lookup (ctx.lockId options.lockKey) = some entry →
      entry.expired (fromSecs now) = true) :
    b.memoryAnswer (.acquire ctx options newVersion now inserted returned) =
      (.lock (.ok (Memory.lockToProto options.lockKey (LockEntry.lease options.holderId
        newVersion (fromSecs now) options.leaseDurationSecs options.metadata))),
      b.memory.insert (ctx.lockId options.lockKey) (LockEntry.lease options.holderId
        newVersion (fromSecs now) options.leaseDurationSecs options.metadata)) := by
  rw [memoryAnswer, Memory.acquireLock_of_expired hdead]
  rfl

/-- The lock is new: the backends agree when the clock stands still. -/
theorem acquire_settles_absent (hb : b.Mirrors json) (newVersion : String)
    (now inserted returned : Nat)
    (hjson : options.metadata ≠ ∅ → json.RoundTrips options.metadata)
    (hfound : b.memory.lookup (ctx.lockId options.lockKey) = none) :
    Settles json b (.acquire ctx options newVersion now inserted returned) := by
  obtain ⟨row', table', hres, hof, hfind⟩ := sqlite_acquire_absent newVersion now inserted
    returned (hb.find_eq_none hfound) hjson
  have h := agree_iff_of_writes (.acquire ctx options newVersion now inserted returned) hb
    (memoryAnswer_acquire newVersion inserted returned (by simp [hfound]))
    (by rw [sqliteAnswer, hres]; rfl) hof hfind
  have hcond : b.KeepsNothing (.acquire ctx options newVersion now inserted returned) ↔
      inserted = now ∧ returned = now := by
    simp only [KeepsNothing, hfound]
  rw [Settles, hcond, h.1]
  constructor
  · simp only [Memory.lockToProto, LockEntry.lease, Call.lockKey, Lock.mk.injEq, fromSecs_inj]
    grind
  · rintro ⟨rfl, -⟩
    exact h.2 rfl

/-- The lock is taken over: SQLite keeps its lease duration in the answer, and its metadata
when there is no new one. -/
theorem acquire_settles_expired (hb : b.Mirrors json) (newVersion : String) {now : Nat}
    (inserted returned : Nat)
    (hjson : options.metadata ≠ ∅ → json.RoundTrips options.metadata)
    (hfound : b.memory.lookup (ctx.lockId options.lockKey) = some entry)
    (hexp : entry.expired (fromSecs now) = true) :
    Settles json b (.acquire ctx options newVersion now inserted returned) := by
  obtain ⟨row, hrow, hof⟩ := hb.find_eq_some hfound
  obtain ⟨row', table', hres, hof', hfind⟩ :=
    sqlite_acquire_expired newVersion inserted returned hrow hof hexp hjson
  have h := agree_iff_of_writes (.acquire ctx options newVersion now inserted returned) hb
    (memoryAnswer_acquire newVersion inserted returned (by simp [hfound, hexp]))
    (by rw [sqliteAnswer, hres]; rfl) hof' hfind
  have hcond : b.KeepsNothing (.acquire ctx options newVersion now inserted returned) ↔
      entry.leaseDurationSecs = options.leaseDurationSecs ∧
        (options.metadata = ∅ → entry.metadata = ∅) := by
    simp only [KeepsNothing, hfound, hexp, forall_const]
  rw [Settles, hcond, h.1, ← keptMetadata_eq_iff]
  constructor
  · simp only [Memory.lockToProto, LockEntry.lease, Call.lockKey, Lock.mk.injEq]
    grind
  · rintro ⟨-, hkept⟩
    apply h.2
    rw [← hkept]

/-- The lock is held: its holder gets it again, and everybody else is refused. -/
theorem acquire_settles_live (hb : b.Mirrors json) (newVersion : String) {now : Nat}
    (inserted returned : Nat)
    (hfound : b.memory.lookup (ctx.lockId options.lockKey) = some entry)
    (hexp : entry.expired (fromSecs now) = false) :
    Settles json b (.acquire ctx options newVersion now inserted returned) := by
  obtain ⟨row, hrow, hof⟩ := hb.find_eq_some hfound
  have hkey : row.lockKey = options.lockKey := congrArg (·.2.2) (Table.key_of_find hrow)
  have hexp' : Sqlite.expired row now = false := (hof.expired now).trans hexp
  have hkeep : b.KeepsNothing (.acquire ctx options newVersion now inserted returned) := by
    simp [KeepsNothing, hfound, hexp]
  by_cases hholder : entry.holderId = options.holderId
  · have hsame : row.holderId = options.holderId := hof.holderId.trans hholder
    have hlock := hof.lockFromRow options.lockKey
    rw [hsame] at hlock
    apply settles_of_unchanged hb hkeep (.lock (.ok (Memory.lockToProto options.lockKey entry)))
    · simp [memoryAnswer, Memory.acquireLock, hfound, hexp, hholder]
    · simp [sqliteAnswer, Sqlite.acquireLock, hrow, hexp', hsame, hkey, hlock]
    · intro lock hlock
      cases hlock
      simp only [Memory.getLock, Call.ctx, Call.lockKey, hfound]
  · apply settles_of_unchanged hb hkeep (.lock (.error (.lockAlreadyHeld entry.holderId)))
    · simp [memoryAnswer, Memory.acquireLock, hfound, hexp, hholder]
    · simp [sqliteAnswer, Sqlite.acquireLock, hrow, hexp', hof.holderId, hholder]
    · intro lock hlock
      cases hlock

end Acquire

theorem acquire_settles (hb : b.Mirrors json) (ctx : RequestContext)
    (options : AcquireLockOptions) (newVersion : String) (now inserted returned : Nat)
    (hjson : options.metadata ≠ ∅ → json.RoundTrips options.metadata) :
    Settles json b (.acquire ctx options newVersion now inserted returned) := by
  cases hfound : b.memory.lookup (ctx.lockId options.lockKey) with
  | none => exact acquire_settles_absent hb newVersion now inserted returned hjson hfound
  | some entry =>
      cases hexp : entry.expired (fromSecs now) with
      | true => exact acquire_settles_expired hb newVersion inserted returned hjson hfound hexp
      | false => exact acquire_settles_live hb newVersion inserted returned hfound hexp

/-- The holder renews a live lock: both backends write a new lease. -/
theorem renew_settles_live (hb : b.Mirrors json) {ctx : RequestContext}
    {options : RenewLockOptions} (newVersion : String) {now : Nat} {entry : LockEntry}
    (hfound : b.memory.lookup (ctx.lockId options.lockKey) = some entry)
    (hholder : entry.holderId = options.holderId)
    (hexp : entry.expired (fromSecs now) = false)
    (hjson : options.metadata ≠ ∅ → json.RoundTrips options.metadata) :
    Settles json b (.renew ctx options newVersion now) := by
  obtain ⟨row, hrow, hof⟩ := hb.find_eq_some hfound
  obtain ⟨row', table', hres, hof', hfind⟩ :=
    sqlite_renew_live newVersion hrow hof hholder hexp hjson
  have hwrite : b.memoryAnswer (.renew ctx options newVersion now) =
      (.lock (.ok (Memory.lockToProto options.lockKey (LockEntry.lease options.holderId
        newVersion (fromSecs now) options.leaseDurationSecs options.metadata))),
      b.memory.insert (ctx.lockId options.lockKey) (LockEntry.lease options.holderId
        newVersion (fromSecs now) options.leaseDurationSecs options.metadata)) := by
    simp [memoryAnswer, Memory.renewLock, Memory.renewCheck, Memory.renewWrite, hfound,
      hholder, hexp]
  have h := agree_iff_of_writes (.renew ctx options newVersion now) hb hwrite
    (by rw [sqliteAnswer, hres]; rfl) hof' hfind
  have hcond : b.KeepsNothing (.renew ctx options newVersion now) ↔
      (options.metadata = ∅ → entry.metadata = ∅) := by
    simp only [KeepsNothing, hfound, hholder, hexp, forall_const]
  rw [Settles, hcond, h.1, ← keptMetadata_eq_iff]
  constructor
  · simp [Memory.lockToProto, LockEntry.lease, Call.lockKey]
  · intro hkept
    apply h.2
    rw [← hkept]

theorem renew_settles (hb : b.Mirrors json) (ctx : RequestContext) (options : RenewLockOptions)
    (newVersion : String) (now : Nat)
    (hjson : options.metadata ≠ ∅ → json.RoundTrips options.metadata) :
    Settles json b (.renew ctx options newVersion now) := by
  cases hfound : b.memory.lookup (ctx.lockId options.lockKey) with
  | none =>
      apply settles_of_unchanged hb (by simp [KeepsNothing, hfound])
        (.lock (.error (.lockNotFound options.lockKey)))
      · simp [memoryAnswer, Memory.renewLock, Memory.renewCheck, hfound]
      · simp [sqliteAnswer, Sqlite.renewLock, hb.find_eq_none hfound]
      · intro lock hlock
        cases hlock
  | some entry =>
      obtain ⟨row, hrow, hof⟩ := hb.find_eq_some hfound
      by_cases hholder : entry.holderId = options.holderId
      · cases hexp : entry.expired (fromSecs now) with
        | true =>
            apply settles_of_unchanged hb (by simp [KeepsNothing, hfound, hexp])
              (.lock (.error (.lockExpired options.lockKey)))
            · simp [memoryAnswer, Memory.renewLock, Memory.renewCheck, hfound, hholder, hexp]
            · simp [sqliteAnswer, Sqlite.renewLock, hrow, hof.holderId, hholder, hof.expired, hexp]
            · intro lock hlock
              cases hlock
        | false =>
            exact renew_settles_live hb newVersion hfound hholder hexp hjson
      · apply settles_of_unchanged hb (by simp [KeepsNothing, hfound, hholder])
          (.lock (.error (.invalidHolderId entry.holderId)))
        · simp [memoryAnswer, Memory.renewLock, Memory.renewCheck, hfound, hholder]
        · simp [sqliteAnswer, Sqlite.renewLock, hrow, hof.holderId, hholder]
        · intro lock hlock
          cases hlock

/-- A release by the holder: both backends write, and both delete or both keep the row. -/
theorem release_settles_held (hb : b.Mirrors json) {options : ReleaseLockOptions}
    {entry : LockEntry} (hfound : b.memory.lookup (ctx.lockId options.lockKey) = some entry)
    (hholder : entry.holderId = options.holderId) (hversion : entry.version = options.version) :
    Settles json b (.release ctx options) := by
  obtain ⟨row, hrow, hof⟩ := hb.find_eq_some hfound
  have hmemory : Memory.releaseLock b.memory ctx options = (.ok (),
      if options.deleteLock then b.memory.erase (ctx.lockId options.lockKey)
      else b.memory.insert (ctx.lockId options.lockKey) { entry with locked := false }) := by
    cases hdel : options.deleteLock <;>
      simp [Memory.releaseLock, hfound, hholder, hversion, hdel]
  have hsqlite : Sqlite.releaseLock b.sqlite ctx options = (.ok (),
      if options.deleteLock then b.sqlite.deleteKeys [ctx.lockId options.lockKey]
      else b.sqlite.update (ctx.lockId options.lockKey) (fun r => { r with locked := 0 })
        fun _ => rfl) := by
    cases hdel : options.deleteLock <;>
      simp [Sqlite.releaseLock, hrow, hof.holderId, hof.version, hholder, hversion, hdel]
  have hkeep : b.KeepsNothing (.release ctx options) := trivial
  apply settles_of_same hkeep
  · rw [memoryAnswer, sqliteAnswer, hmemory, hsqlite]
    rfl
  · rw [step, memoryAnswer, sqliteAnswer, hmemory, hsqlite]
    cases hdel : options.deleteLock with
    | true =>
        exact hb.write .none (fun k => Assoc.lookup_erase _ _ k)
          (fun k => Table.find_deleteKeys _ _ k)
    | false =>
        have hof' : RowOf json { entry with locked := false } { row with locked := 0 } :=
          { hof with locked := rfl }
        have hset : ∀ r : LockRow, ({ r with locked := 0 } : LockRow).key = r.key :=
          fun _ => rfl
        apply hb.write (.some hof') (fun k => Assoc.lookup_insert _ _ k _)
        intro k
        refine (Table.find_update _ _ _ hset k).trans ?_
        rw [hrow, Option.map_some]
  · rw [memoryAnswer, hmemory]
    intro lock hlock
    cases hlock

theorem release_settles (hb : b.Mirrors json) (ctx : RequestContext)
    (options : ReleaseLockOptions) : Settles json b (.release ctx options) := by
  have hkeep : b.KeepsNothing (.release ctx options) := trivial
  cases hfound : b.memory.lookup (ctx.lockId options.lockKey) with
  | none =>
      apply settles_of_unchanged hb hkeep (.done (.error (.lockNotFound options.lockKey)))
      · simp [memoryAnswer, Memory.releaseLock, hfound]
      · simp [sqliteAnswer, Sqlite.releaseLock, hb.find_eq_none hfound]
      · intro lock hlock
        cases hlock
  | some entry =>
      obtain ⟨row, hrow, hof⟩ := hb.find_eq_some hfound
      by_cases hholder : entry.holderId = options.holderId
      · by_cases hversion : entry.version = options.version
        · exact release_settles_held hb hfound hholder hversion
        · apply settles_of_unchanged hb hkeep
            (.done (.error (.versionMismatch entry.version options.version)))
          · simp [memoryAnswer, Memory.releaseLock, hfound, hholder, hversion]
          · simp [sqliteAnswer, Sqlite.releaseLock, hrow, hof.holderId, hof.version, hholder,
              hversion]
          · intro lock hlock
            cases hlock
      · apply settles_of_unchanged hb hkeep (.done (.error (.invalidHolderId entry.holderId)))
        · simp [memoryAnswer, Memory.releaseLock, hfound, hholder]
        · simp [sqliteAnswer, Sqlite.releaseLock, hrow, hof.holderId, hholder]
        · intro lock hlock
          cases hlock

theorem get_settles (hb : b.Mirrors json) (ctx : RequestContext) (lockKey : String) :
    Settles json b (.get ctx lockKey) := by
  have hkeep : b.KeepsNothing (.get ctx lockKey) := trivial
  apply settles_of_unchanged hb hkeep (.found (Memory.getLock b.memory ctx lockKey)) rfl
  · rw [sqliteAnswer, hb.getLock_eq]
  · intro lock hlock
    cases hlock

theorem call_settles (hb : b.Mirrors json) (call : Call)
    (hjson : call.metadata ≠ ∅ → json.RoundTrips call.metadata) : Settles json b call := by
  cases call with
  | acquire ctx options newVersion now inserted returned =>
      exact acquire_settles hb ctx options newVersion now inserted returned hjson
  | renew ctx options newVersion now => exact renew_settles hb ctx options newVersion now hjson
  | release ctx options => exact release_settles hb ctx options
  | get ctx lockKey => exact get_settles hb ctx lockKey

/-- The backends agree on every call of a sequence if and only if no call keeps
anything of a lock that it overwrites. -/
theorem backends_agree_iff (json : SerdeJson) (calls : List Call)
    (hjson : ∀ call ∈ calls, call.metadata ≠ ∅ → json.RoundTrips call.metadata) :
    Along (step json) (Agree json) start calls ↔
      Along (step json) KeepsNothing start calls := by
  refine (along_congr_of_mem (I := Mirrors json) ?_ ?_ start_mirrors).symm
  · intro call hcall b hb
    exact (call_settles hb call (hjson call hcall)).1
  · intro call hcall b hb
    exact (call_settles hb call (hjson call hcall)).2

/-- The metadata of one lock, and JSON functions that know it. -/
def teamMetadata : Metadata := Finmap.insert "team" "a" ∅

def teamJson : SerdeJson where
  toStr m := if m = teamMetadata then .ok "\x7b\"team\":\"a\"\x7d" else .error "unknown map"
  fromStr text :=
    if text = "\x7b\"team\":\"a\"\x7d" then .ok teamMetadata else .error "unknown text"

/-- The second holder takes over an expired lock with the same lease and with its own
metadata, renews it, and releases it. -/
def cleanTakeover : List Call :=
  [.acquire ⟨"t", "n"⟩ ⟨"k", "h1", 10, teamMetadata⟩ "v1" 0 0 0,
    .acquire ⟨"t", "n"⟩ ⟨"k", "h2", 10, teamMetadata⟩ "v2" 10 10 10,
    .renew ⟨"t", "n"⟩ ⟨"k", "h2", "v2", 30, teamMetadata⟩ "v3" 15,
    .release ⟨"t", "n"⟩ ⟨"k", "h2", "v3", false⟩]

theorem backends_agree_iff_clean :
    (∀ call ∈ cleanTakeover, call.metadata ≠ ∅ → teamJson.RoundTrips call.metadata) ∧
      (Along (step teamJson) (Agree teamJson) start cleanTakeover ↔
        Along (step teamJson) KeepsNothing start cleanTakeover) := by
  have hjson : ∀ call ∈ cleanTakeover, call.metadata ≠ ∅ →
      teamJson.RoundTrips call.metadata := by
    have hteam : teamJson.RoundTrips teamMetadata :=
      ⟨"\x7b\"team\":\"a\"\x7d", by decide +kernel, by decide, by decide +kernel⟩
    simp [cleanTakeover, Call.metadata, hteam]
  exact ⟨hjson, backends_agree_iff teamJson cleanTakeover hjson⟩

/-- The second holder takes over an expired lock and asks for a longer lease: SQLite
returns the lease of the first. -/
def longerTakeover : List Call :=
  [.acquire ⟨"t", "n"⟩ ⟨"k", "h1", 10, ∅⟩ "v1" 0 0 0,
    .acquire ⟨"t", "n"⟩ ⟨"k", "h2", 20, ∅⟩ "v2" 10 10 10]

theorem not_backends_agree :
    ¬∀ calls : List Call, Along (step teamJson) (Agree teamJson) start calls := by
  intro h
  have hsame := (h longerTakeover).2.1.same
  revert hsame
  decide +kernel

end Backends

end PlexSpaces.Locks
