import PlexSpaces.Journaling.Namespaces
import PlexSpaces.Lib.Table
/-!
# The key-value store in SQLite

Every operation of `SqliteKVStore` on the rows of `kv_store`: what it returns,
the rows it leaves and the events it sends to the watchers.  The clock is read
once a call.  An operation on a connection that fails is not modelled.
-/

namespace PlexSpaces.KeyValue

open PlexSpaces.Lib

/-- What the store reads of a request context. -/
structure RequestContext where
  tenantId : String
  nsName : String
  admin : Bool := false
  internal : Bool := false

def RequestContext.shouldSkipNamespaceFilter (ctx : RequestContext) : Bool :=
  (ctx.admin || ctx.internal) && ctx.nsName.isEmpty

structure KvRow where
  tenantId : String
  nsName : String
  key : String
  value : List UInt8
  expiresAt : Option Int
  deriving DecidableEq

def KvRow.id (row : KvRow) : String × String × String := (row.tenantId, row.nsName, row.key)

abbrev KvTable := Table KvRow KvRow.id

inductive KVError where
  | keyNotFound (key : String)
  | invalidValue (message : String)
  deriving DecidableEq

inductive KVEventType where
  | put
  | delete
  deriving DecidableEq

structure KVEvent where
  key : String
  eventType : KVEventType
  oldValue : Option (List UInt8)
  newValue : Option (List UInt8)
  deriving DecidableEq

structure KVStats where
  totalKeys : Nat
  totalSizeBytes : Nat
  backendType : String
  deriving DecidableEq

/-- What an operation returns, the rows it leaves and the events it sends. -/
structure Effect (α : Type) where
  result : Except KVError α
  table : KvTable
  events : List KVEvent := []

/-! ## Numbers and times -/

/-- A number as an `i64`. -/
def asI64 (n : Int) : Int := n.bmod (2 ^ 64)

def nowTimestamp (secs : Nat) : Int := asI64 secs

def expiryFromTtl (now : Int) (ttl : Nat) : Int := asI64 (now + asI64 ttl)

def encodeI64 (value : Int) : List UInt8 :=
  [7, 6, 5, 4, 3, 2, 1, 0].map fun i => UInt8.ofNat ((value % 2 ^ 64).toNat / 256 ^ i % 256)

def decodeI64 (bytes : List UInt8) : Except KVError Int :=
  if bytes.length ≠ 8 then
    .error (.invalidValue s!"Expected 8 bytes for i64, got {bytes.length}")
  else .ok (asI64 (bytes.foldl (fun n byte => n * 256 + byte.toNat) 0 : Nat))

/-! ## Conditions -/

/-- `expires_at IS NULL OR expires_at > ?`. -/
def KvRow.live (now : Int) (row : KvRow) : Bool := row.expiresAt.all fun exp => now < exp

namespace RequestContext

/-- The columns before the key, of a statement that writes. -/
def owns (ctx : RequestContext) (row : KvRow) : Bool :=
  row.tenantId == ctx.tenantId && row.nsName == ctx.nsName

/-- The columns before the key, of a statement that reads. -/
def sees (ctx : RequestContext) (row : KvRow) : Bool :=
  row.tenantId == ctx.tenantId && (ctx.shouldSkipNamespaceFilter || row.nsName == ctx.nsName)

def rowId (ctx : RequestContext) (key : String) : String × String × String :=
  (ctx.tenantId, ctx.nsName, key)

end RequestContext

/-- `key LIKE ?` with the prefix and a wildcard. -/
def likePrefix (keyPrefix key : String) : Bool :=
  Journaling.sqlite.like (keyPrefix ++ "%").toList key.toList

/-! ## Operations -/

variable (ctx : RequestContext) (now : Int) (db : KvTable)

/-- The row that a `SELECT` of one key fetches. -/
def fetch (key : String) : Option KvRow :=
  (db.select fun row => ctx.sees row && row.key == key && row.live now).head?

def get (key : String) : Option (List UInt8) := (fetch ctx now db key).map (·.value)

/-- The `INSERT .. ON CONFLICT DO UPDATE` that sets the value and the expiry. -/
def write (key : String) (value : List UInt8) (expiresAt : Option Int) : KvTable :=
  db.upsert ⟨ctx.tenantId, ctx.nsName, key, value, expiresAt⟩
    (fun row => { row with value, expiresAt }) fun _ => rfl

def put (key : String) (value : List UInt8) : Effect Unit where
  result := .ok ()
  table := write ctx db key value none
  events := [⟨key, .put, get ctx now db key, some value⟩]

def delete (key : String) : Effect Unit where
  result := .ok ()
  table := db.deleteWhere fun row => ctx.owns row && row.key == key
  events :=
    match get ctx now db key with
    | some oldVal => [⟨key, .delete, some oldVal, none⟩]
    | none => []

def existsKey (key : String) : Bool := (fetch ctx now db key).isSome

def list (keyPrefix : String) : List String :=
  (db.select fun row => ctx.sees row && likePrefix keyPrefix row.key && row.live now).map (·.key)

def multiGet (keys : List String) : List (Option (List UInt8)) := keys.map (get ctx now db)

def multiPut (pairs : List (String × List UInt8)) : Effect Unit where
  result := .ok ()
  table := pairs.foldl (fun db pair => write ctx db pair.1 pair.2 none) db
  events := pairs.map fun pair => ⟨pair.1, .put, none, some pair.2⟩

def putWithTtl (key : String) (value : List UInt8) (ttl : Nat) : Effect Unit where
  result := .ok ()
  table := write ctx db key value (some (expiryFromTtl now ttl))
  events := [⟨key, .put, get ctx now db key, some value⟩]

def refreshTtl (key : String) (ttl : Nat) : Effect Unit :=
  let affected := fun row : KvRow => ctx.owns row && row.key == key && row.live now
  if (db.select affected).isEmpty then ⟨.error (.keyNotFound key), db, []⟩
  else
    ⟨.ok (), db.updateWhere affected
      (fun row => { row with expiresAt := some (expiryFromTtl now ttl) }) fun _ => rfl, []⟩

/-- The rest of the time to live, in seconds. -/
def getTtl (key : String) : Option Nat :=
  (fetch ctx now db key).bind fun row =>
    row.expiresAt.map fun exp => ((exp - now) % 2 ^ 64).toNat

def cas (key : String) (expected : Option (List UInt8)) (newValue : List UInt8) : Effect Bool :=
  let current := get ctx now db key
  if current = expected then
    ⟨.ok true, write ctx db key newValue none, [⟨key, .put, current, some newValue⟩]⟩
  else ⟨.ok false, db, []⟩

/-- The `INSERT .. ON CONFLICT DO UPDATE` that leaves the expiry of a row as it is. -/
def writeValue (key : String) (value : List UInt8) : KvTable :=
  db.upsert ⟨ctx.tenantId, ctx.nsName, key, value, none⟩ (fun row => { row with value })
    fun _ => rfl

/-- The sum wraps, as in a release build; where overflows are checked the call panics instead, and
the runs of which more is said are those whose sums fit. -/
def increment (key : String) (delta : Int) : Effect Int :=
  match (get ctx now db key).elim (.ok 0) decodeI64 with
  | .error e => ⟨.error e, db, []⟩
  | .ok current =>
      let newValue := asI64 (current + delta)
      ⟨.ok newValue, writeValue ctx db key (encodeI64 newValue),
        [⟨key, .put, some (encodeI64 current), some (encodeI64 newValue)⟩]⟩

def decrement (key : String) (delta : Int) : Effect Int :=
  increment ctx now db key (asI64 (-delta))

def clearPrefix (keyPrefix : String) : Effect Nat :=
  let matching := fun row : KvRow => ctx.owns row && likePrefix keyPrefix row.key
  ⟨.ok (db.select matching).length, db.deleteWhere matching, []⟩

def countPrefix (keyPrefix : String) : Nat :=
  (db.select fun row => ctx.sees row && likePrefix keyPrefix row.key && row.live now).length

/-- `LENGTH` counts the letters of a text and the bytes of a blob. -/
def getStats : KVStats :=
  let rows := db.select fun row => ctx.sees row && row.live now
  { totalKeys := rows.length
    totalSizeBytes := (rows.map fun row => row.key.length + row.value.length).sum
    backendType := "SQLite" }

/-! ## Calls -/

inductive Operation where
  | get (key : String)
  | put (key : String) (value : List UInt8)
  | delete (key : String)
  | existsKey (key : String)
  | list (keyPrefix : String)
  | multiGet (keys : List String)
  | multiPut (pairs : List (String × List UInt8))
  | putWithTtl (key : String) (value : List UInt8) (ttl : Nat)
  | refreshTtl (key : String) (ttl : Nat)
  | getTtl (key : String)
  | cas (key : String) (expected : Option (List UInt8)) (newValue : List UInt8)
  | increment (key : String) (delta : Int)
  | decrement (key : String) (delta : Int)
  | clearPrefix (keyPrefix : String)
  | countPrefix (keyPrefix : String)
  | getStats

/-- What a call returns when it does not fail. -/
inductive Reply where
  | unit
  | value (value : Option (List UInt8))
  | values (values : List (Option (List UInt8)))
  | flag (flag : Bool)
  | keys (keys : List String)
  | ttl (ttl : Option Nat)
  | number (n : Int)
  | count (n : Nat)
  | stats (stats : KVStats)
  deriving DecidableEq

def Effect.map {α : Type} (f : α → Reply) (effect : Effect α) : Effect Reply :=
  { effect with result := effect.result.map f }

def Effect.read (reply : Reply) : Effect Reply := ⟨.ok reply, db, []⟩

def perform : Operation → Effect Reply
  | .get key => .read db (.value (get ctx now db key))
  | .put key value => (put ctx now db key value).map fun _ => .unit
  | .delete key => (delete ctx now db key).map fun _ => .unit
  | .existsKey key => .read db (.flag (existsKey ctx now db key))
  | .list keyPrefix => .read db (.keys (list ctx now db keyPrefix))
  | .multiGet keys => .read db (.values (multiGet ctx now db keys))
  | .multiPut pairs => (multiPut ctx db pairs).map fun _ => .unit
  | .putWithTtl key value ttl => (putWithTtl ctx now db key value ttl).map fun _ => .unit
  | .refreshTtl key ttl => (refreshTtl ctx now db key ttl).map fun _ => .unit
  | .getTtl key => .read db (.ttl (getTtl ctx now db key))
  | .cas key expected newValue => (cas ctx now db key expected newValue).map .flag
  | .increment key delta => (increment ctx now db key delta).map .number
  | .decrement key delta => (decrement ctx now db key delta).map .number
  | .clearPrefix keyPrefix => (clearPrefix ctx db keyPrefix).map .count
  | .countPrefix keyPrefix => .read db (.count (countPrefix ctx now db keyPrefix))
  | .getStats => .read db (.stats (getStats ctx now db))

end PlexSpaces.KeyValue
