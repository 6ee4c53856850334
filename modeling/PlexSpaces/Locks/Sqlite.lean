import PlexSpaces.Lib.Table
import PlexSpaces.Locks.Lock
/-!
# SQLite lock manager

`SqliteLockManager` keeps one row per lock in the table `locks`, with times in
whole seconds and the metadata as JSON text.  Each call is one transaction.  The
lock it returns is not read back from the table: `lockFromRow` builds it from
columns of the row that was found and from the new values.

The JSON functions come from a library and are a parameter.
-/

namespace PlexSpaces.Locks

open PlexSpaces.Lib

structure LockRow where
  tenantId : String
  nsName : String
  lockKey : String
  holderId : String
  version : String
  expiresAt : Nat
  leaseDurationSecs : Nat
  lastHeartbeat : Nat
  locked : Nat
  metadata : Option String
  deriving DecidableEq

/-- `PRIMARY KEY (tenant_id, namespace, lock_key)`. -/
def LockRow.key (r : LockRow) : LockId := (r.tenantId, r.nsName, r.lockKey)

abbrev LockTable := Table LockRow LockRow.key

/-- `serde_json::to_string` and `serde_json::from_str` on string maps. -/
structure SerdeJson where
  toStr : Metadata → Except String String
  fromStr : String → Except String Metadata

/-- The JSON text of `m` is not empty and reads back as `m`. -/
def SerdeJson.RoundTrips (json : SerdeJson) (m : Metadata) : Prop :=
  ∃ text, json.toStr m = .ok text ∧ text ≠ "" ∧ json.fromStr text = .ok m

namespace Sqlite

variable (json : SerdeJson)

/-- The metadata column after a write: the old value when the call brings none. -/
def metadataJsonNew (metadata : Metadata) (old : Option String) :
    LockResult (Option String) :=
  if metadata = ∅ then .ok old
  else
    match json.toStr metadata with
    | .ok text => .ok (some text)
    | .error e => .error (.backendError ("encode metadata: " ++ e))

def readMetadata (metadataJson : Option String) : LockResult Metadata :=
  match metadataJson with
  | none => .ok ∅
  | some text =>
      if text = "" then .ok ∅
      else
        match json.fromStr text with
        | .ok metadata => .ok metadata
        | .error e => .error (.backendError ("invalid metadata json: " ++ e))

def lockFromRow (lockKey holderId version : String)
    (expiresAt leaseDurationSecs lastHeartbeat locked : Nat) (metadataJson : Option String) :
    LockResult Lock :=
  match readMetadata json metadataJson with
  | .error e => .error e
  | .ok metadata => .ok
      { lockKey := lockKey
        holderId := holderId
        version := version
        expiresAt := fromSecs expiresAt
        leaseDurationSecs := UInt32.ofNat leaseDurationSecs
        lastHeartbeat := fromSecs lastHeartbeat
        metadata := metadata
        locked := locked != 0 }

def expired (row : LockRow) (now : Nat) : Bool :=
  decide (row.expiresAt ≤ now) || row.locked == 0

/-- `acquire_lock`.  The clock is read at the start, again for the heartbeat of an
inserted row, and again for the heartbeat of the lock returned with it. -/
def acquireLock (table : LockTable) (ctx : RequestContext) (options : AcquireLockOptions)
    (now inserted returned : Nat) (newVersion : String) : LockResult Lock × LockTable :=
  let key := ctx.lockId options.lockKey
  let leaseSecs := options.leaseDurationSecs.toNat
  let expiresAt := now + leaseSecs
  match table.find key with
  | some row =>
      if !expired row now && row.holderId != options.holderId then
        (.error (.lockAlreadyHeld row.holderId), table)
      else if !expired row now && row.holderId == options.holderId then
        (lockFromRow json row.lockKey row.holderId row.version row.expiresAt
          row.leaseDurationSecs row.lastHeartbeat row.locked row.metadata, table)
      else
        match metadataJsonNew json options.metadata row.metadata with
        | .error e => (.error e, table)
        | .ok metadata =>
            (lockFromRow json row.lockKey options.holderId newVersion expiresAt
                row.leaseDurationSecs now 1 metadata,
              table.update key
                (fun r =>
                  { r with
                    holderId := options.holderId
                    version := newVersion
                    expiresAt := expiresAt
                    leaseDurationSecs := leaseSecs
                    lastHeartbeat := now
                    locked := 1
                    metadata := metadata })
                fun _ => rfl)
  | none =>
      match metadataJsonNew json options.metadata none with
      | .error e => (.error e, table)
      | .ok metadata =>
          match table.insert?
              { tenantId := ctx.tenantId
                nsName := ctx.nsName
                lockKey := options.lockKey
                holderId := options.holderId
                version := newVersion
                expiresAt := expiresAt
                leaseDurationSecs := leaseSecs
                lastHeartbeat := inserted
                locked := 1
                metadata := metadata } with
          | none => (.error (.backendError "insert lock: UNIQUE constraint failed"), table)
          | some table =>
              (lockFromRow json options.lockKey options.holderId newVersion expiresAt leaseSecs
                returned 1 metadata, table)

def renewLock (table : LockTable) (ctx : RequestContext) (options : RenewLockOptions)
    (now : Nat) (newVersion : String) : LockResult Lock × LockTable :=
  let key := ctx.lockId options.lockKey
  let leaseSecs := options.leaseDurationSecs.toNat
  let newExpires := now + leaseSecs
  match table.find key with
  | none => (.error (.lockNotFound options.lockKey), table)
  | some row =>
      if row.holderId != options.holderId then
        (.error (.invalidHolderId row.holderId), table)
      else if expired row now then
        (.error (.lockExpired options.lockKey), table)
      else
        match metadataJsonNew json options.metadata row.metadata with
        | .error e => (.error e, table)
        | .ok metadata =>
            (lockFromRow json options.lockKey options.holderId newVersion newExpires leaseSecs
                now 1 metadata,
              table.update key
                (fun r =>
                  { r with
                    version := newVersion
                    expiresAt := newExpires
                    leaseDurationSecs := leaseSecs
                    lastHeartbeat := now
                    metadata := metadata })
                fun _ => rfl)

def releaseLock (table : LockTable) (ctx : RequestContext) (options : ReleaseLockOptions) :
    LockResult Unit × LockTable :=
  let key := ctx.lockId options.lockKey
  match table.find key with
  | none => (.error (.lockNotFound options.lockKey), table)
  | some row =>
      if row.holderId != options.holderId then
        (.error (.invalidHolderId row.holderId), table)
      else if row.version != options.version then
        (.error (.versionMismatch row.version options.version), table)
      else if options.deleteLock then
        (.ok (), table.deleteKeys [key])
      else
        (.ok (), table.update key (fun r => { r with locked := 0 }) fun _ => rfl)

def getLock (table : LockTable) (ctx : RequestContext) (lockKey : String) :
    LockResult (Option Lock) :=
  match table.find (ctx.lockId lockKey) with
  | none => .ok none
  | some row =>
      (lockFromRow json row.lockKey row.holderId row.version row.expiresAt
        row.leaseDurationSecs row.lastHeartbeat row.locked row.metadata).map some

end Sqlite

end PlexSpaces.Locks
