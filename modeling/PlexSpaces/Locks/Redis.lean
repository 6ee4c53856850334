import Mathlib.Logic.Function.Basic
import PlexSpaces.Lib.Run
import PlexSpaces.Lib.Separator
import PlexSpaces.Locks.Lock
/-!
# Redis lock manager

`RedisLockManager` stores the text `holder:version` under the key
`tenant#namespace#lock`.  Every call is one Redis command or one script, and Redis
runs them one after the other; keys disappear when their time to live is over.

Holder ids, tenants, namespaces and lock keys may contain the separators.  A triple
shares its Redis key with no other exactly when it is free of `#`, and a stored lock
belongs to nobody but the holder that wrote it exactly when that holder is free of
`:` (`redis_ownership_iff`).
-/

namespace PlexSpaces.Locks

open PlexSpaces.Lib

/-- A version string: 26 characters of Crockford's base 32. -/
structure Ulid where
  text : String
  length : text.toList.length = 26
  crockford : ∀ c ∈ text.toList, c ∈ "0123456789ABCDEFGHJKMNPQRSTVWXYZ".toList

/-- A string value with the time of its expiry in milliseconds. -/
structure RedisValue where
  value : String
  expiresAt : Nat

abbrev RedisDb := Assoc String RedisValue

namespace RedisDb

def get (db : RedisDb) (now : Nat) (key : String) : Option String :=
  match db.lookup key with
  | some v => if now < v.expiresAt then some v.value else none
  | none => none

/-- `SET key value PX ttl`. -/
def setPx (db : RedisDb) (now : Nat) (key value : String) (ttlMs : Nat) :
    Except String RedisDb :=
  if ttlMs = 0 then .error "ERR invalid expire time in 'set' command"
  else .ok (db.insert key ⟨value, now + ttlMs⟩)

/-- `SET key value NX PX ttl`; `none` when the key exists. -/
def setNxPx (db : RedisDb) (now : Nat) (key value : String) (ttlMs : Nat) :
    Except String (Option RedisDb) :=
  if ttlMs = 0 then .error "ERR invalid expire time in 'set' command"
  else if (db.get now key).isSome then .ok none
  else .ok (some (db.insert key ⟨value, now + ttlMs⟩))

def del (db : RedisDb) (key : String) : RedisDb := db.erase key

end RedisDb

namespace Redis

def redisKey (ctx : RequestContext) (lockKey : String) : String :=
  ctx.tenantId ++ "#" ++ ctx.nsName ++ "#" ++ lockKey

def buildLock (lockKey holderId version : String) (leaseDurationSecs : UInt32)
    (now : SystemTime) : Lock where
  lockKey := lockKey
  holderId := holderId
  version := version
  expiresAt := now + fromSecs leaseDurationSecs.toNat
  leaseDurationSecs := leaseDurationSecs
  lastHeartbeat := now
  metadata := ∅
  locked := true

/-- `string.sub(cur, 1, #prefix) == prefix`. -/
def startsWith (cur expectedPrefix : String) : Bool :=
  expectedPrefix.toList.isPrefixOf cur.toList

/-- The text before and after the first `sep`. -/
def splitOnce (s : String) (sep : Char) : Option (String × String) :=
  (cut sep s.toList).map fun p => (String.ofList p.1, String.ofList p.2)

/-- `acquire_lock` at the server time `now`, in milliseconds; `clock` is the time of the
client when the command has returned. -/
def acquireLock (db : RedisDb) (ctx : RequestContext) (options : AcquireLockOptions)
    (version : Ulid) (now : Nat) (clock : SystemTime) : LockResult Lock × RedisDb :=
  let value := options.holderId ++ ":" ++ version.text
  let ttlMs := options.leaseDurationSecs.toNat * 1000
  match db.setNxPx now (redisKey ctx options.lockKey) value ttlMs with
  | .error e => (.error (.backendError ("redis SET NX: " ++ e)), db)
  | .ok none => (.error (.lockAlreadyHeld options.lockKey), db)
  | .ok (some db) =>
      (.ok (buildLock options.lockKey options.holderId version.text options.leaseDurationSecs
        clock), db)

def renewLock (db : RedisDb) (ctx : RequestContext) (options : RenewLockOptions)
    (newVersion : Ulid) (now : Nat) (clock : SystemTime) : LockResult Lock × RedisDb :=
  let key := redisKey ctx options.lockKey
  let newValue := options.holderId ++ ":" ++ newVersion.text
  let newTtlMs := options.leaseDurationSecs.toNat * 1000
  match db.get now key with
  | none => (.error (.lockNotHeld options.lockKey), db)
  | some cur =>
      if startsWith cur (options.holderId ++ ":") then
        match db.setPx now key newValue newTtlMs with
        | .error e => (.error (.backendError ("redis renew script: " ++ e)), db)
        | .ok db =>
            (.ok (buildLock options.lockKey options.holderId newVersion.text
              options.leaseDurationSecs clock), db)
      else (.error (.lockNotHeld options.lockKey), db)

def releaseLock (db : RedisDb) (ctx : RequestContext) (options : ReleaseLockOptions)
    (now : Nat) : LockResult Unit × RedisDb :=
  let key := redisKey ctx options.lockKey
  match db.get now key with
  | none => (.error (.lockNotHeld options.lockKey), db)
  | some cur =>
      if startsWith cur (options.holderId ++ ":") then (.ok (), db.del key)
      else (.error (.lockNotHeld options.lockKey), db)

/-- `get_lock`; `ttlMs` is the reply to the `PTTL` that follows the `GET`. -/
def getLock (db : RedisDb) (ctx : RequestContext) (lockKey : String) (now : Nat) (ttlMs : Int)
    (clock : SystemTime) : LockResult (Option Lock) :=
  match db.get now (redisKey ctx lockKey) with
  | none => .ok none
  | some raw =>
      match splitOnce raw ':' with
      | none => .ok none
      | some (holderId, version) =>
          let leaseDurationSecs : UInt32 :=
            if 0 < ttlMs then UInt32.ofNat ((ttlMs.toNat + 999) / 1000) else 0
          .ok (some (buildLock lockKey holderId version leaseDurationSecs clock))

/-- A call that fails and leaves the database alone, or that writes `value` at `key`. -/
def Writes (db : RedisDb) (key value : String) (result : LockResult Lock × RedisDb) : Prop :=
  (∃ e, result = (.error e, db)) ∨
    ∃ lock expiresAt, result = (.ok lock, db.insert key ⟨value, expiresAt⟩)

theorem acquireLock_writes (db : RedisDb) (ctx : RequestContext) (options : AcquireLockOptions)
    (version : Ulid) (now : Nat) (clock : SystemTime) :
    Writes db (redisKey ctx options.lockKey) (options.holderId ++ ":" ++ version.text)
      (acquireLock db ctx options version now clock) := by
  simp only [acquireLock, RedisDb.setNxPx]
  split_ifs
  · exact .inl ⟨_, rfl⟩
  · exact .inl ⟨_, rfl⟩
  · exact .inr ⟨_, _, rfl⟩

theorem renewLock_writes (db : RedisDb) (ctx : RequestContext) (options : RenewLockOptions)
    (newVersion : Ulid) (now : Nat) (clock : SystemTime) :
    Writes db (redisKey ctx options.lockKey) (options.holderId ++ ":" ++ newVersion.text)
      (renewLock db ctx options newVersion now clock) := by
  simp only [renewLock, RedisDb.setPx]
  cases db.get now (redisKey ctx options.lockKey) with
  | none => exact .inl ⟨_, rfl⟩
  | some cur =>
      dsimp only
      split_ifs
      · exact .inl ⟨_, rfl⟩
      · exact .inr ⟨_, _, rfl⟩
      · exact .inl ⟨_, rfl⟩

/-- `renew_lock` succeeds only on a value that starts with the holder. -/
theorem startsWith_of_renewLock {db : RedisDb} {ctx : RequestContext} {options : RenewLockOptions}
    {newVersion : Ulid} {now : Nat} {clock : SystemTime} {cur : String} {lock : Lock}
    (hcur : db.get now (redisKey ctx options.lockKey) = some cur)
    (hok : (renewLock db ctx options newVersion now clock).1 = .ok lock) :
    startsWith cur (options.holderId ++ ":") = true := by
  by_contra hnot
  simp [renewLock, hcur, hnot] at hok

theorem releaseLock_ok_iff {db : RedisDb} {ctx : RequestContext} {options : ReleaseLockOptions}
    {now : Nat} {cur : String} (hcur : db.get now (redisKey ctx options.lockKey) = some cur) :
    (releaseLock db ctx options now).1 = .ok () ↔
      startsWith cur (options.holderId ++ ":") = true := by
  cases hstarts : startsWith cur (options.holderId ++ ":") <;> simp [releaseLock, hcur, hstarts]

theorem redisKey_toList (ctx : RequestContext) (lockKey : String) :
    (redisKey ctx lockKey).toList =
      joined '#' ctx.tenantId.toList ctx.nsName.toList lockKey.toList := by
  simp [redisKey, joined]

/-- A triple is told apart from every other by its Redis key exactly when no part of it
contains the separator. -/
theorem redisKey_unique_iff (ctx : RequestContext) (lockKey : String) :
    (∀ ctx' lockKey', redisKey ctx' lockKey' = redisKey ctx lockKey →
        ctx'.lockId lockKey' = ctx.lockId lockKey) ↔
      '#' ∉ ctx.tenantId.toList ∧ '#' ∉ ctx.nsName.toList ∧ '#' ∉ lockKey.toList := by
  rw [← joined_unique_iff]
  constructor
  · intro h x y z heq
    have hkey : redisKey ⟨String.ofList x, String.ofList y⟩ (String.ofList z) =
        redisKey ctx lockKey := by
      rw [← String.toList_inj, redisKey_toList, redisKey_toList]
      simpa using heq
    have hid := h _ _ hkey
    simp only [RequestContext.lockId, Prod.mk.injEq] at hid
    obtain ⟨hx, hy, hz⟩ := hid
    simp [← hx, ← hy, ← hz]
  · intro h ctx' lockKey' heq
    have hlist := congrArg String.toList heq
    rw [redisKey_toList, redisKey_toList] at hlist
    obtain ⟨hx, hy, hz⟩ := h _ _ _ hlist
    rw [RequestContext.lockId, RequestContext.lockId, String.toList_inj.mp hx,
      String.toList_inj.mp hy, String.toList_inj.mp hz]

theorem startsWith_iff {cur expectedPrefix : String} :
    startsWith cur expectedPrefix = true ↔ expectedPrefix.toList <+: cur.toList := by
  rw [startsWith, List.isPrefixOf_iff_prefix]

end Redis

theorem Ulid.no_colon (version : Ulid) : ':' ∉ version.text.toList := by
  intro h
  exact absurd (version.crockford ':' h) (by decide)

/-- A Redis server with its clock, and for each key the holder whose call wrote the
value last. -/
structure RedisServer where
  db : RedisDb
  now : Nat
  writer : String → String

inductive RedisCall
  | pass (elapsedMs : Nat)
  | acquire (ctx : RequestContext) (options : AcquireLockOptions) (version : Ulid)
      (clock : SystemTime)
  | renew (ctx : RequestContext) (options : RenewLockOptions) (newVersion : Ulid)
      (clock : SystemTime)
  | release (ctx : RequestContext) (options : ReleaseLockOptions)

namespace RedisServer

def start : RedisServer where
  db := ∅
  now := 0
  writer := fun _ => ""

/-- The server after a call of `holder` that writes `key` when it succeeds. -/
def answer (s : RedisServer) (key holder : String) (result : LockResult Lock × RedisDb) :
    RedisServer :=
  match result with
  | (.ok _, db) => { s with db := db, writer := Function.update s.writer key holder }
  | (.error _, db) => { s with db := db }

def step (s : RedisServer) : RedisCall → RedisServer
  | .pass elapsedMs => { s with now := s.now + elapsedMs }
  | .acquire ctx options version clock =>
      s.answer (Redis.redisKey ctx options.lockKey) options.holderId
        (Redis.acquireLock s.db ctx options version s.now clock)
  | .renew ctx options newVersion clock =>
      s.answer (Redis.redisKey ctx options.lockKey) options.holderId
        (Redis.renewLock s.db ctx options newVersion s.now clock)
  | .release ctx options => { s with db := (Redis.releaseLock s.db ctx options s.now).2 }

/-- Every stored value is the last writer of its key with a version. -/
def Signed (s : RedisServer) : Prop :=
  ∀ key v, s.db.lookup key = some v → ∃ version : Ulid,
    v.value = s.writer key ++ ":" ++ version.text

theorem answer_signed {s : RedisServer} (hs : s.Signed) {key holder : String} {version : Ulid}
    {result : LockResult Lock × RedisDb}
    (hresult : Redis.Writes s.db key (holder ++ ":" ++ version.text) result) :
    (s.answer key holder result).Signed := by
  rcases hresult with ⟨e, rfl⟩ | ⟨lock, expiresAt, rfl⟩
  · exact hs
  · intro k v hv
    simp only [answer] at hv ⊢
    rw [Assoc.lookup_insert] at hv
    by_cases hk : k = key
    · subst hk
      rw [if_pos rfl] at hv
      cases hv
      exact ⟨version, by rw [Function.update_self]⟩
    · rw [if_neg hk] at hv
      rw [Function.update_of_ne hk]
      exact hs k v hv

theorem release_signed {s : RedisServer} (hs : s.Signed) (ctx : RequestContext)
    (options : ReleaseLockOptions) : (s.step (.release ctx options)).Signed := by
  have hsub : ∀ k v, (Redis.releaseLock s.db ctx options s.now).2.lookup k = some v →
      s.db.lookup k = some v := by
    intro k v hv
    simp only [Redis.releaseLock, RedisDb.del] at hv
    split at hv
    · exact hv
    · split_ifs at hv
      · rw [Assoc.lookup_erase] at hv
        split_ifs at hv
        exact hv
      · exact hv
  intro k v hv
  exact hs k v (hsub k v hv)

theorem step_signed (s : RedisServer) (hs : s.Signed) (call : RedisCall) :
    (s.step call).Signed := by
  cases call with
  | pass elapsedMs => exact hs
  | acquire ctx options version clock =>
      exact answer_signed hs (Redis.acquireLock_writes s.db ctx options version s.now clock)
  | renew ctx options newVersion clock =>
      exact answer_signed hs (Redis.renewLock_writes s.db ctx options newVersion s.now clock)
  | release ctx options => exact release_signed hs ctx options

theorem run_signed (calls : List RedisCall) : (run step start calls).Signed := by
  apply run_invariant (fun call _ s hs => step_signed s hs call)
  intro key v hv
  cases hv

/-- The lock belongs to `holder`: a renewal or a release of it succeeds for nobody
else, and `get_lock` names this holder. -/
structure OwnedBy (s : RedisServer) (ctx : RequestContext) (lockKey holder : String) : Prop where
  renew : ∀ (options : RenewLockOptions) newVersion clock lock, options.lockKey = lockKey →
    (Redis.renewLock s.db ctx options newVersion s.now clock).1 = .ok lock →
      options.holderId = holder
  release : ∀ options : ReleaseLockOptions, options.lockKey = lockKey →
    (Redis.releaseLock s.db ctx options s.now).1 = .ok () → options.holderId = holder
  get : ∀ ttlMs clock, ∃ lock, Redis.getLock s.db ctx lockKey s.now ttlMs clock = .ok (some lock) ∧
    lock.holderId = holder

theorem value_signed {s : RedisServer} (hs : s.Signed) {key cur : String}
    (hcur : s.db.get s.now key = some cur) :
    ∃ version : Ulid, cur.toList = (s.writer key).toList ++ ':' :: version.text.toList := by
  unfold RedisDb.get at hcur
  split at hcur
  · next v hv =>
      split_ifs at hcur
      obtain ⟨version, hvalue⟩ := hs key v hv
      cases hcur
      exact ⟨version, by simp [hvalue]⟩
  · cases hcur

/-- A stored lock belongs to its writer exactly when the writer is free of the separator
of the value. -/
theorem ownedBy_writer_iff {s : RedisServer} (hs : s.Signed) {ctx : RequestContext}
    {lockKey cur : String} (hcur : s.db.get s.now (Redis.redisKey ctx lockKey) = some cur) :
    s.OwnedBy ctx lockKey (s.writer (Redis.redisKey ctx lockKey)) ↔
      ':' ∉ (s.writer (Redis.redisKey ctx lockKey)).toList := by
  obtain ⟨version, hlist⟩ := value_signed hs hcur
  generalize s.writer (Redis.redisKey ctx lockKey) = writer at hlist ⊢
  -- whoever passes the test of the scripts is the writer
  have hstarts : ':' ∉ writer.toList → ∀ holder : String,
      Redis.startsWith cur (holder ++ ":") = true → holder = writer := by
    intro hfree holder hstart
    rw [Redis.startsWith_iff, String.toList_append, hlist] at hstart
    exact String.toList_inj.mp
      ((prefix_unique_iff version.no_colon).mpr hfree holder.toList hstart)
  constructor
  · intro howned
    obtain ⟨lock, hget, hholder⟩ := howned.get 0 0
    rw [← cut_fst_iff (v := version.text.toList), ← hlist]
    simp only [Redis.getLock, hcur, Redis.splitOnce] at hget
    cases hcut : cut ':' cur.toList with
    | none => simp [hcut] at hget
    | some p =>
        simp only [hcut, Option.map_some] at hget
        cases hget
        refine ⟨p.2, ?_⟩
        rw [← hholder]
        simp [Redis.buildLock]
  · intro hfree
    refine ⟨?_, ?_, ?_⟩
    · rintro options newVersion clock lock rfl hok
      exact hstarts hfree _ (Redis.startsWith_of_renewLock hcur hok)
    · rintro options rfl hok
      exact hstarts hfree _ ((Redis.releaseLock_ok_iff hcur).mp hok)
    · intro ttlMs clock
      have hcut : cut ':' cur.toList = some (writer.toList, version.text.toList) := by
        rw [hlist, cut_append_cons hfree]
      simp [Redis.getLock, hcur, Redis.splitOnce, hcut, Redis.buildLock]

/-- A triple shares its Redis key with no other exactly when it is free of `#`, and in
every state that calls reach, a stored lock belongs to the holder that wrote it exactly
when that holder is free of `:`. -/
theorem redis_ownership_iff (calls : List RedisCall) (ctx : RequestContext) (lockKey : String) :
    ((∀ ctx' lockKey', Redis.redisKey ctx' lockKey' = Redis.redisKey ctx lockKey →
        ctx'.lockId lockKey' = ctx.lockId lockKey) ↔
      '#' ∉ ctx.tenantId.toList ∧ '#' ∉ ctx.nsName.toList ∧ '#' ∉ lockKey.toList) ∧
    ∀ cur, (run step start calls).db.get (run step start calls).now
        (Redis.redisKey ctx lockKey) = some cur →
      ((run step start calls).OwnedBy ctx lockKey
          ((run step start calls).writer (Redis.redisKey ctx lockKey)) ↔
        ':' ∉ ((run step start calls).writer (Redis.redisKey ctx lockKey)).toList) := by
  refine ⟨Redis.redisKey_unique_iff ctx lockKey, ?_⟩
  intro cur hcur
  exact ownedBy_writer_iff (run_signed calls) hcur

def sampleUlid : Ulid where
  text := "01ARZ3NDEKTSV4RRFFQ69G5FAV"
  length := by decide +kernel
  crockford := by
    have hall : ("01ARZ3NDEKTSV4RRFFQ69G5FAV".toList.all fun c =>
        "0123456789ABCDEFGHJKMNPQRSTVWXYZ".toList.contains c) = true := by
      decide +kernel
    intro c hc
    exact List.contains_iff_mem.mp (List.all_eq_true.mp hall c hc)

/-- One acquisition, by `holder`, for ten seconds. -/
def acquiredBy (holder : String) : RedisServer :=
  run step start [.acquire ⟨"t", "n"⟩ ⟨"k", holder, 10, ∅⟩ sampleUlid 0]

theorem redis_ownership_iff_plain :
    (acquiredBy "h1").db.get 0 "t#n#k" = some "h1:01ARZ3NDEKTSV4RRFFQ69G5FAV" ∧
      (acquiredBy "h1").OwnedBy ⟨"t", "n"⟩ "k" "h1" := by
  have hcur : (acquiredBy "h1").db.get 0 "t#n#k" =
      some "h1:01ARZ3NDEKTSV4RRFFQ69G5FAV" := by
    decide +kernel
  have howned := (redis_ownership_iff
    [.acquire ⟨"t", "n"⟩ ⟨"k", "h1", 10, ∅⟩ sampleUlid 0] ⟨"t", "n"⟩ "k").2 _ hcur
  exact ⟨hcur, howned.mpr (by decide +kernel)⟩

/-- Two triples with one Redis key, and a lock of the holder `a:b` that the holder `a`
can release. -/
theorem not_redis_ownership :
    ¬(∀ ctx lockKey ctx' lockKey', Redis.redisKey ctx' lockKey' = Redis.redisKey ctx lockKey →
        ctx'.lockId lockKey' = ctx.lockId lockKey) ∧
    ¬∀ (calls : List RedisCall) (ctx : RequestContext) (lockKey cur : String),
      (run step start calls).db.get (run step start calls).now
          (Redis.redisKey ctx lockKey) = some cur →
        (run step start calls).OwnedBy ctx lockKey
          ((run step start calls).writer (Redis.redisKey ctx lockKey)) := by
  constructor
  · intro h
    have hid := h ⟨"a#b", "c"⟩ "d" ⟨"a", "b#c"⟩ "d" (by decide +kernel)
    revert hid
    decide +kernel
  · intro h
    have howned := h [.acquire ⟨"t", "n"⟩ ⟨"k", "a:b", 10, ∅⟩ sampleUlid 0] ⟨"t", "n"⟩ "k"
      "a:b:01ARZ3NDEKTSV4RRFFQ69G5FAV" (by decide +kernel)
    have hholder := howned.release ⟨"k", "a", "", false⟩ rfl (by decide +kernel)
    revert hholder
    decide +kernel

end RedisServer

end PlexSpaces.Locks
