import PlexSpaces.Lib.Assoc
/-!
# Lock manager interface

The types that every lock backend shares: the lock as clients see it, the options
of the calls, and the errors.  Times are nanoseconds since the epoch; a lease is
a 32-bit number of seconds.
-/

namespace PlexSpaces.Locks

open PlexSpaces.Lib

abbrev SystemTime := Nat

def fromSecs (n : Nat) : SystemTime := n * 1000000000

abbrev Metadata := FMap String String

structure RequestContext where
  tenantId : String
  nsName : String
  deriving DecidableEq

structure Lock where
  lockKey : String
  holderId : String
  version : String
  expiresAt : SystemTime
  leaseDurationSecs : UInt32
  lastHeartbeat : SystemTime
  metadata : Metadata
  locked : Bool
  deriving DecidableEq

structure AcquireLockOptions where
  lockKey : String
  holderId : String
  leaseDurationSecs : UInt32
  metadata : Metadata

structure RenewLockOptions where
  lockKey : String
  holderId : String
  version : String
  leaseDurationSecs : UInt32
  metadata : Metadata

structure ReleaseLockOptions where
  lockKey : String
  holderId : String
  version : String
  deleteLock : Bool

inductive LockError
  | lockNotFound (lockKey : String)
  | lockAlreadyHeld (holder : String)
  | lockNotHeld (lockKey : String)
  | lockExpired (lockKey : String)
  | versionMismatch (expected actual : String)
  | invalidHolderId (holder : String)
  | backendError (message : String)
  deriving DecidableEq

abbrev LockResult (α : Type) := Except LockError α

abbrev LockId := String × String × String

def RequestContext.lockId (ctx : RequestContext) (lockKey : String) : LockId :=
  (ctx.tenantId, ctx.nsName, lockKey)

end PlexSpaces.Locks
