import Mathlib.Algebra.Order.Group.Nat
import Mathlib.Data.List.Sort
import PlexSpaces.Lib.Table
/-!
# The object registry's table

`SqliteObjectRegistryRepository` keeps one row per object, under tenant, namespace and object
id, with the registration as a blob and, beside it, the columns that change without it.  Two
unique indexes stand over the table: no two objects have the same alias, and in one namespace
no two node objects have the same node id.

Encoding a registration and decoding it again gives the registration; the blob is the
registration itself.
-/

namespace PlexSpaces.Registry

open PlexSpaces.Lib

/-- What the statements bind of a request context. -/
structure Scope where
  tenantId : String
  nsName : String
deriving DecidableEq, Repr

structure RequestContext where
  scope : Scope
  isAdmin : Bool
deriving DecidableEq, Repr

inductive HealthStatus
  | unknown
  | healthy
  | degraded
  | dead
  | starting
  | stopping
deriving DecidableEq, Repr

namespace HealthStatus

def toI32 : HealthStatus → Int
  | unknown => 0
  | healthy => 1
  | degraded => 2
  | dead => 3
  | starting => 4
  | stopping => 5

def tryFrom (i : Int) : Option HealthStatus :=
  [unknown, healthy, degraded, dead, starting, stopping].find? fun status => status.toI32 = i

/-- An instance that a new one must not displace. -/
def isActive : HealthStatus → Bool
  | healthy | degraded | starting => true
  | _ => false

end HealthStatus

/-- `ObjectType::ObjectTypeNode`. -/
def objectTypeNode : Int := 7

structure ObjectRegistration where
  objectId : String
  objectType : Int
  tenantId : String
  nsName : String
  nodeId : String
  grpcAddress : String
  healthStatus : Int
  lastHeartbeat : Option Int
  aliasName : String
  maxHeartbeatFailures : Nat
  heartbeatFailureCount : Nat
  createdAt : Option Nat
  updatedAt : Option Nat
deriving DecidableEq, Repr

abbrev ObjectKey := Scope × String

structure Row where
  scope : Scope
  objectId : String
  objectType : Int
  nodeId : String
  healthStatus : Int
  lastHeartbeat : Option Int
  createdAt : Nat
  aliasName : Option String
  maxHeartbeatFailures : Nat
  heartbeatFailureCount : Nat
  registration : ObjectRegistration
deriving DecidableEq, Repr

/-- `PRIMARY KEY (tenant_id, namespace, object_id)`. -/
def Row.key (r : Row) : ObjectKey := (r.scope, r.objectId)

inductive RepositoryError
  | notFound (id : String)
  | storage (message : String)
deriving DecidableEq, Repr

namespace Row

/-- The row of an insertion at the second `now`. -/
def ofRegistration (scope : Scope) (registration : ObjectRegistration) (now : Nat) : Row where
  scope := scope
  objectId := registration.objectId
  objectType := registration.objectType
  nodeId := registration.nodeId
  healthStatus := registration.healthStatus
  lastHeartbeat := registration.lastHeartbeat
  createdAt := now
  aliasName := if registration.aliasName = "" then none else some registration.aliasName
  maxHeartbeatFailures :=
    if registration.maxHeartbeatFailures = 0 then 3 else registration.maxHeartbeatFailures
  heartbeatFailureCount := 0
  registration := registration

/-- `DO UPDATE SET ..`: all but the key and `created_at`. -/
def overwrite (new old : Row) : Row :=
  { new with scope := old.scope, objectId := old.objectId, createdAt := old.createdAt }

theorem key_overwrite (new old : Row) : (new.overwrite old).key = old.key := rfl

def setHeartbeat (timestamp : Int) (r : Row) : Row := { r with lastHeartbeat := some timestamp }

theorem key_setHeartbeat (timestamp : Int) (r : Row) : (r.setHeartbeat timestamp).key = r.key := rfl

def setHealth (status : HealthStatus) (r : Row) : Row := { r with healthStatus := status.toI32 }

theorem key_setHealth (status : HealthStatus) (r : Row) : (r.setHealth status).key = r.key := rfl

def countFailure (r : Row) : Row :=
  { r with heartbeatFailureCount := r.heartbeatFailureCount + 1 }

theorem key_countFailure (r : Row) : r.countFailure.key = r.key := rfl

def resetFailures (r : Row) : Row := { r with heartbeatFailureCount := 0 }

theorem key_resetFailures (r : Row) : r.resetFailures.key = r.key := rfl

def mergeIndexedRow (r : Row) : ObjectRegistration :=
  { r.registration with
    healthStatus := r.healthStatus
    heartbeatFailureCount := r.heartbeatFailureCount % 2 ^ 32
    maxHeartbeatFailures :=
      if 0 < r.maxHeartbeatFailures then r.maxHeartbeatFailures % 2 ^ 32
      else r.registration.maxHeartbeatFailures }

/-- What `get` makes of a row: the heartbeat is merged as well. -/
def merge (r : Row) : ObjectRegistration :=
  { r.mergeIndexedRow with
    lastHeartbeat :=
      match r.lastHeartbeat with
      | none => r.registration.lastHeartbeat
      | some ts => some ts }

/-- The two rows are in one another's way on `idx_object_registrations_alias`. -/
def SameAlias (r r' : Row) : Prop := r.aliasName ≠ none ∧ r.aliasName = r'.aliasName

instance (r r' : Row) : Decidable (r.SameAlias r') := inferInstanceAs (Decidable (_ ∧ _))

/-- The row is under the index `idx_object_registrations_unique_node_registration`. -/
def IsNode (r : Row) : Prop := r.objectType = objectTypeNode ∧ r.nodeId ≠ ""

instance (r : Row) : Decidable r.IsNode := inferInstanceAs (Decidable (_ ∧ _))

def SameNode (r r' : Row) : Prop :=
  r.IsNode ∧ r'.IsNode ∧ r.scope = r'.scope ∧ r.nodeId = r'.nodeId

instance (r r' : Row) : Decidable (r.SameNode r') := inferInstanceAs (Decidable (_ ∧ _))

end Row

abbrev RegistryTable := Table Row Row.key

inductive Statement
  | put (scope : Scope) (registration : ObjectRegistration) (now : Nat)
  | get (scope : Scope) (objectId : String)
  /-- The flag says whether `unregister` or a registration makes the statement. -/
  | delete (scope : Scope) (objectId : String) (unregister : Bool)
  /-- `discover` for the node objects with a node id, the first two. -/
  | discoverNodes (ctx : RequestContext) (nodeId : String)
  | updateHeartbeat (scope : Scope) (objectId : String) (timestamp : Int)
  | updateHealthStatus (scope : Scope) (objectId : String) (status : HealthStatus)
  | getByAlias (scope : Scope) (aliasName : String)
  | incrementHeartbeatFailures (scope : Scope) (objectId : String)
  | resetHeartbeatFailures (scope : Scope) (objectId : String)
  | markDeadByNodeId (scope : Scope) (nodeId : String)
deriving Repr

@[reducible] def Statement.Answer : Statement → Type
  | get _ _ | getByAlias _ _ => Option ObjectRegistration
  | discoverNodes _ _ => List ObjectRegistration
  | incrementHeartbeatFailures _ _ | markDeadByNodeId _ _ => Nat
  | put _ _ _ | delete _ _ _ | updateHeartbeat _ _ _ | updateHealthStatus _ _ _
  | resetHeartbeatFailures _ _ => Unit

def updateFound (t : RegistryTable) (k : ObjectKey) (f : Row → Row) (hf : ∀ r, (f r).key = r.key) :
    Except RepositoryError Unit × RegistryTable :=
  match t.find k with
  | none => (.error (.notFound k.2), t)
  | some _ => (.ok (), t.update k f hf)

/-- The health statuses that a dead node takes its objects out of. -/
def liveStatuses : List Int := [1, 2, 4]

namespace RegistryTable

def perform (t : RegistryTable) : (s : Statement) → Except RepositoryError s.Answer × RegistryTable
  | .put scope registration now =>
      let new := Row.ofRegistration scope registration now
      let others := t.rows.filter fun r => r.key ≠ new.key
      if others.any fun r => r.SameAlias new then
        (.error (.storage "UNIQUE constraint failed: object_registrations.alias"), t)
      else if others.any fun r => r.SameNode new then
        (.error (.storage ("UNIQUE constraint failed: object_registrations.tenant_id, " ++
          "object_registrations.namespace, object_registrations.node_id")), t)
      else (.ok (), t.upsert new new.overwrite new.key_overwrite)
  | .get scope objectId => (.ok ((t.find (scope, objectId)).map Row.merge), t)
  | .delete scope objectId _ => (.ok (), t.deleteWhere fun r => r.key = (scope, objectId))
  | .discoverNodes ctx nodeId =>
      let matching := t.rows.filter fun r =>
        (ctx.isAdmin || r.scope.tenantId = ctx.scope.tenantId) &&
          (ctx.scope.nsName = "" || r.scope.nsName = ctx.scope.nsName) &&
          r.objectType = objectTypeNode && r.nodeId = nodeId
      let ordered := matching.insertionSort fun r r' => r.createdAt ≤ r'.createdAt
      (.ok ((ordered.take 2).map Row.registration), t)
  | .updateHeartbeat scope objectId timestamp =>
      updateFound t (scope, objectId) (Row.setHeartbeat timestamp) (Row.key_setHeartbeat timestamp)
  | .updateHealthStatus scope objectId status =>
      updateFound t (scope, objectId) (Row.setHealth status) (Row.key_setHealth status)
  | .getByAlias scope aliasName =>
      if aliasName = "" then (.ok none, t)
      else
        let row := t.rows.find? fun r => r.scope = scope && r.aliasName = some aliasName
        (.ok (row.map Row.mergeIndexedRow), t)
  | .incrementHeartbeatFailures scope objectId =>
      match t.find (scope, objectId) with
      | none => (.error (.notFound objectId), t)
      | some row =>
          (.ok ((row.heartbeatFailureCount + 1) % 2 ^ 32),
            t.update (scope, objectId) Row.countFailure Row.key_countFailure)
  | .resetHeartbeatFailures scope objectId =>
      (.ok (), t.update (scope, objectId) Row.resetFailures Row.key_resetFailures)
  | .markDeadByNodeId scope nodeId =>
      let p : Row → Bool := fun r =>
        r.scope = scope && r.nodeId = nodeId && r.healthStatus ∈ liveStatuses
      (.ok (t.rows.countP p), t.updateWhere p (Row.setHealth .dead) (Row.key_setHealth .dead))

end RegistryTable

end PlexSpaces.Registry
