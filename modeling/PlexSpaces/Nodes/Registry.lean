import Mathlib.Data.List.Basic
import PlexSpaces.Swim.Standing

/-!
# The node registry

Three layers answer a lookup: a cache whose entries expire, the SWIM table, and
an object registry.  The object registry is a trait object in the source, so it
is a parameter here: any state `σ` with any operations on it, each of which may
fail.  The registry touches the SWIM table only through the operations of
`TableOp`, and so keeps it well keyed.

An operation reads the clocks once: `now` is the monotonic instant, `wall` the
system time in nanoseconds since the epoch.

The comparison key of a node address comes first: scheme and path are dropped, loopback
aliases collapse and the host is lower-cased.  Strings are handled as lists of
characters, which is what the source's string functions do one `char` at a time.
-/

namespace PlexSpaces.Nodes

def unknownNodeIdPrefix : String := "_unknown_"

def isUnknownNodeId (nodeId : String) : Bool :=
  unknownNodeIdPrefix.toList.isPrefixOf nodeId.toList

def looksLikeAddress (target : String) : Bool :=
  "http://".toList.isPrefixOf target.toList || "https://".toList.isPrefixOf target.toList ||
    target.toList.contains ':'

/-- `split_once`: the text before and after the first occurrence. -/
def splitOnce (c : Char) : List Char → Option (List Char × List Char)
  | [] => none
  | d :: ds =>
      if d = c then some ([], ds)
      else (splitOnce c ds).map fun (before, after) => (d :: before, after)

/-- `rsplit_once`: the text before and after the last occurrence. -/
def rsplitOnce (c : Char) (s : List Char) : Option (List Char × List Char) :=
  (splitOnce c s.reverse).map fun (after, before) => (before.reverse, after.reverse)

def loopbackAliases : List String :=
  ["localhost", "127.0.0.1", "0.0.0.0", "::1", "[::1]", "[::]"]

def canonicalizeHost (host : List Char) : List Char :=
  if loopbackAliases.any fun a => a.toList = host then "loopback".toList
  else host.map Char.toLower

def trimAddress (address : List Char) : List Char :=
  let noScheme :=
    match "http://".toList.isPrefixOf? address with
    | some rest => rest
    | none =>
        match "https://".toList.isPrefixOf? address with
        | some rest => rest
        | none => address
  noScheme.takeWhile (· ≠ '/')

def splitHostPort (address : List Char) : List Char × List Char :=
  let trimmed := trimAddress address
  let bracketed :=
    match trimmed with
    | '[' :: stripped => splitOnce ']' stripped
    | _ => none
  match bracketed with
  | some (host, remainder) =>
      let port :=
        match remainder with
        | ':' :: port => port
        | _ => []
      (canonicalizeHost ('[' :: host ++ [']']), port)
  | none =>
      match rsplitOnce ':' trimmed with
      | some (host, port) => (canonicalizeHost host, port)
      | none => (canonicalizeHost trimmed, [])

def canonicalNodeAddressKey (address : String) : String :=
  let (host, port) := splitHostPort address.toList
  if port.isEmpty then String.ofList host else String.ofList (host ++ ':' :: port)

/-- The second canonicalisation is the source's: lookups compare against a key. -/
def addressesMatch (left right : String) : Bool :=
  canonicalNodeAddressKey left = canonicalNodeAddressKey right

example : canonicalNodeAddressKey "http://0.0.0.0:8116/status" =
    canonicalNodeAddressKey "localhost:8116" := by decide

example : canonicalNodeAddressKey "[FE80]:80" = "[fe80]:80" := by decide

end PlexSpaces.Nodes

namespace PlexSpaces.Nodes

open PlexSpaces.Lib PlexSpaces.Swim

structure Clock where
  now : Nat
  wall : Nat

abbrev Timestamp := Nat

def nodeRoleThin : Int := 2

/-- `NODE_STATUS_READY`, `NODE_STATUS_BUSY` and `NODE_STATUS_STOPPED`. -/
def nodeStatusReady : Int := 2

def nodeStatusBusy : Int := 3

def nodeStatusStopped : Int := 5

structure NodeRegistration where
  nodeRole : Int
  nodeId : String
  nodeAddress : String
  capabilities : Assoc String String
  status : Int
  lastHeartbeat : Option Timestamp
  actorCount : Nat
  messageCount : Nat
  errorCount : Nat
  registeredAt : Option Timestamp

/-- What the object registry stores about a node. -/
structure ObjectRegistration where
  objectId : String
  grpcAddress : String
  nsName : String
  capabilities : List String
  labels : Option (Assoc String String)
  createdAt : Option Timestamp
  updatedAt : Option Timestamp
  lastHeartbeat : Option Timestamp

/-- The context of a registry call.  All of them run as administrator under the
empty tenant, so the namespace tells them apart. -/
structure RequestContext where
  nsName : String

/-- The object registry, for objects of type node. -/
structure ObjectRegistry (σ : Type) where
  lookupFull : RequestContext → String → σ → Except String (Option ObjectRegistration) × σ
  discover : RequestContext → σ → Except String (List ObjectRegistration) × σ
  register : RequestContext → ObjectRegistration → σ → Except String Unit × σ
  unregister : RequestContext → String → σ → Except String Unit × σ
  markObjectsDeadByNode : RequestContext → String → σ → Except String Nat × σ

def RequestContext.sees (ctx : RequestContext) (o : ObjectRegistration) : Bool :=
  ctx.nsName = "" || o.nsName = ctx.nsName

def listRegistry : ObjectRegistry (List ObjectRegistration) where
  lookupFull := fun ctx id os => (.ok (os.find? fun o => o.objectId = id && ctx.sees o), os)
  discover := fun ctx os => (.ok (os.filter ctx.sees), os)
  register := fun _ o os => (.ok (), o :: os.filter fun o' => o'.objectId ≠ o.objectId)
  unregister := fun ctx id os =>
    if os.any fun o => o.objectId = id && ctx.sees o then
      (.ok (), os.filter fun o => !(o.objectId = id && ctx.sees o))
    else
      (.error ("Object not found: " ++ id), os)
  markObjectsDeadByNode := fun _ _ os => (.ok 0, os)

structure CachedNodeRegistration where
  registration : NodeRegistration
  expiresAt : Nat

def CachedNodeRegistration.isExpired (c : CachedNodeRegistration) (now : Nat) : Bool :=
  decide (c.expiresAt < now)

structure NodeRegistryConfig where
  cacheTtl : Nat
  useSharedDb : Bool
  dbMaxAttempts : Nat

structure NodeRegistry (σ : Type) where
  store : σ
  cache : Assoc String CachedNodeRegistration
  config : NodeRegistryConfig
  swim : SwimProtocol
  keyed : WellKeyed swim.members
  localCluster : String
  cacheHits : Nat
  cacheMisses : Nat
  dbFailures : Nat

/-! ## Conversions -/

def toNodeRegistration (o : ObjectRegistration) : NodeRegistration where
  nodeRole := 0
  nodeId := o.objectId
  nodeAddress := o.grpcAddress
  capabilities := o.capabilities.foldl
    (fun caps c => if c ∈ caps then caps else caps.insert c "true") (o.labels.getD ∅)
  status := nodeStatusReady
  lastHeartbeat := o.lastHeartbeat
  actorCount := 0
  messageCount := 0
  errorCount := 0
  registeredAt := o.createdAt

def toObjectRegistration (r : NodeRegistration) (ctx : RequestContext) (clock : Clock) :
    ObjectRegistration where
  objectId := r.nodeId
  grpcAddress := r.nodeAddress
  nsName := ctx.nsName
  capabilities := r.capabilities.keys
  labels := if r.capabilities.entries.isEmpty then none else some r.capabilities
  createdAt := r.registeredAt.or (some clock.wall)
  updatedAt := some clock.wall
  lastHeartbeat := r.lastHeartbeat.or (some clock.wall)

def swimMemberToNodeRegistration (m : SwimMember) (clock : Clock) : NodeRegistration where
  nodeRole := 0
  nodeId := m.nodeId
  nodeAddress := m.address
  capabilities := m.metadata
  status :=
    match m.state with
    | .alive => nodeStatusReady
    | .suspect => nodeStatusBusy
    | .dead | .left => nodeStatusStopped
  lastHeartbeat := m.lastProbeSuccess.map fun t => clock.wall - (clock.now - t)
  actorCount := 0
  messageCount := 0
  errorCount := m.failedProbes
  registeredAt := none

namespace NodeRegistry

variable {σ : Type}

def new (store : σ) (localNodeId localAddress localCluster : String)
    (swimConfig : SwimConfig) (config : NodeRegistryConfig) : NodeRegistry σ where
  store := store
  cache := ∅
  config := config
  swim := SwimProtocol.new localNodeId localAddress swimConfig
  keyed := WellKeyed.empty
  localCluster := localCluster
  cacheHits := 0
  cacheMisses := 0
  dbFailures := 0

def onSwim (s : NodeRegistry σ) (op : SwimProtocol.TableOp) (clock : Clock) : NodeRegistry σ :=
  { s with
    swim := s.swim.perform (op, clock.now)
    keyed := SwimProtocol.wellKeyed_perform s.keyed _ }

/-- The cluster named by the caller, else the local one, else none. -/
def systemRegistryContext (s : NodeRegistry σ) (cluster : Option String) : RequestContext :=
  let named := cluster.filter fun value => value ≠ ""
  ⟨(named.or (if s.localCluster = "" then none else some s.localCluster)).getD ""⟩

/-! ## The cache -/

def evictExpired (s : NodeRegistry σ) (clock : Clock) : NodeRegistry σ :=
  { s with cache := s.cache.retain fun _ c => !c.isExpired clock.now }

def getFromCache (s : NodeRegistry σ) (nodeId : String) (clock : Clock) :
    Option NodeRegistration × NodeRegistry σ :=
  match s.cache.lookup nodeId with
  | some c =>
      if c.isExpired clock.now then
        (none, { s with cacheMisses := s.cacheMisses + 1 })
      else
        (some c.registration, { s with cacheHits := s.cacheHits + 1 })
  | none => (none, { s with cacheMisses := s.cacheMisses + 1 })

def updateCache (s : NodeRegistry σ) (nodeId : String) (registration : NodeRegistration)
    (clock : Clock) : NodeRegistry σ :=
  { s with cache := s.cache.insert nodeId ⟨registration, clock.now + s.config.cacheTtl⟩ }

def removeFromCache (s : NodeRegistry σ) (nodeId : String) : NodeRegistry σ :=
  { s with cache := s.cache.erase nodeId }

/-- The first entry with a concrete node id, else the first one. -/
def preferConcrete {α : Type} (idOf : α → String) (candidates : List α) : Option α :=
  (candidates.find? fun a => !isUnknownNodeId (idOf a)).or candidates.head?

def lookupCachedOrSwimByAddress (s : NodeRegistry σ) (target : String) (clock : Clock) :
    Option NodeRegistration × NodeRegistry σ :=
  let targetKey := canonicalNodeAddressKey target
  let matching := s.swim.activeMembers.filter fun m => addressesMatch m.address targetKey
  match preferConcrete (·.nodeId) (matching.map (swimMemberToNodeRegistration · clock)) with
  | some registration => (some registration, s)
  | none =>
      let s' := s.evictExpired clock
      let cached := (s'.cache.values.filter fun c => !c.isExpired clock.now).map
        (·.registration)
      (preferConcrete (·.nodeId)
        (cached.filter fun r => addressesMatch r.nodeAddress targetKey), s')

/-! ## The object registry -/

/-- Retry a call until it succeeds or the attempts are used up; `0` attempts
means without end.  `fuel` bounds how long the caller is observed: `none` is a
call that has not returned by then. -/
def withDbBackoff {α : Type} (op : σ → Except String α × σ) :
    (fuel attempts : Nat) → NodeRegistry σ → Option (Except String α) × NodeRegistry σ
  | 0, _, s => (none, s)
  | fuel + 1, attempts, s =>
      match op s.store with
      | (.ok a, store) => (some (.ok a), { s with store := store })
      | (.error e, store) =>
          let s' := { s with store := store, dbFailures := s.dbFailures + 1 }
          if 0 < s.config.dbMaxAttempts ∧ s.config.dbMaxAttempts ≤ attempts then
            (some (.error e), s')
          else
            withDbBackoff op fuel (attempts + 1) s'

/-- In shared mode with retries, otherwise a single attempt. -/
def dbCall {α : Type} (op : σ → Except String α × σ) (fuel : Nat) (s : NodeRegistry σ) :
    Option (Except String α) × NodeRegistry σ :=
  if s.config.useSharedDb then
    withDbBackoff op fuel 0 s
  else
    (some (op s.store).1, { s with store := (op s.store).2 })

variable (reg : ObjectRegistry σ)

/-- By id, and for a target that looks like an address by address. -/
def lookupNodeInObjectRegistry (ctx : RequestContext) (target : String) (store : σ) :
    Except String (Option ObjectRegistration) × σ :=
  match reg.lookupFull ctx target store with
  | (.ok (some found), store) => (.ok (some found), store)
  | (_, store) =>
      if looksLikeAddress target then
        match reg.discover ctx store with
        | (.ok registrations, store) =>
            let targetKey := canonicalNodeAddressKey target
            (.ok (preferConcrete (·.objectId) (registrations.filter fun r =>
              canonicalNodeAddressKey r.grpcAddress = targetKey)), store)
        | (.error e, store) => (.error e, store)
      else
        (.ok none, store)

/-- Make room for a registration among the stored ones with its address: a
placeholder is unregistered, anything else wins over the newcomer.  `false` when
the newcomer is dropped. -/
def claimStoredAddress (ctx : RequestContext) (registration : NodeRegistration) :
    List ObjectRegistration → σ → Except String Bool × σ
  | [], store => (.ok true, store)
  | candidate :: rest, store =>
      if candidate.objectId = registration.nodeId ∨
          canonicalNodeAddressKey candidate.grpcAddress ≠
            canonicalNodeAddressKey registration.nodeAddress then
        claimStoredAddress ctx registration rest store
      else if isUnknownNodeId candidate.objectId && !isUnknownNodeId registration.nodeId then
        match reg.unregister ctx candidate.objectId store with
        | (.ok _, store) => claimStoredAddress ctx registration rest store
        | (.error e, store) => (.error e, store)
      else
        (.ok false, store)

def persistNodeRegistrationWithRegistry (ctx : RequestContext)
    (registration : NodeRegistration) (clock : Clock) (store : σ) : Except String Unit × σ :=
  match reg.discover ctx store with
  | (.error e, store) => (.error e, store)
  | (.ok existing, store) =>
      match claimStoredAddress reg ctx registration existing store with
      | (.error e, store) => (.error e, store)
      | (.ok false, store) => (.ok (), store)
      | (.ok true, store) =>
          reg.register ctx (toObjectRegistration registration ctx clock) store

/-- Forget a node in the object registry: find the namespace it is stored under,
mark its objects dead, unregister it.  Failures are logged. -/
def forgetStored (nodeId : String) (store : σ) : σ :=
  let (found, store) := reg.discover ⟨""⟩ store
  let stored :=
    match found with
    | .ok registrations =>
        ((registrations.find? fun r => r.objectId = nodeId).map (·.nsName)).getD ""
    | .error _ => ""
  let (_, store) := reg.markObjectsDeadByNode ⟨stored⟩ nodeId store
  (reg.unregister ⟨stored⟩ nodeId store).2

/-! ## Registration -/

/-- Make room among the local entries `(node id, address)` as
`claimStoredAddress` does among the stored ones; `drop` forgets a placeholder. -/
def reconcileAliases (registration : NodeRegistration)
    (drop : NodeRegistry σ → String → NodeRegistry σ) :
    List (String × String) → NodeRegistry σ → Bool × NodeRegistry σ
  | [], s => (true, s)
  | (nodeId, address) :: rest, s =>
      if nodeId = registration.nodeId ∨ canonicalNodeAddressKey address ≠
          canonicalNodeAddressKey registration.nodeAddress then
        reconcileAliases registration drop rest s
      else if isUnknownNodeId nodeId && !isUnknownNodeId registration.nodeId then
        reconcileAliases registration drop rest (drop s nodeId)
      else
        (false, s)

/-- First the active members of the table, then the cache. -/
def reconcileLocalRegistrationAliases (s : NodeRegistry σ) (registration : NodeRegistration)
    (clock : Clock) : Bool × NodeRegistry σ :=
  match reconcileAliases registration
      (fun s nodeId => (s.onSwim (.removeMemberSilently nodeId) clock).removeFromCache nodeId)
      (s.swim.activeMembers.map fun m => (m.nodeId, m.address)) s with
  | (false, s) => (false, s)
  | (true, s) =>
      let s := s.evictExpired clock
      reconcileAliases registration removeFromCache
        ((s.cache.values.filter fun c => !c.isExpired clock.now).map fun c =>
          (c.registration.nodeId, c.registration.nodeAddress)) s

/-- The member that announces a registration: alive, at incarnation 0. -/
def memberFor (registration : NodeRegistration) (clock : Clock) : SwimMember :=
  { SwimMember.new registration.nodeId registration.nodeAddress clock.now with
    metadata :=
      if registration.nodeRole = nodeRoleThin then
        registration.capabilities.insert swimNodeTypeKey swimNodeTypeThin
      else
        registration.capabilities }

/-- The record that is persisted: a thin node without an address gets one. -/
def persistedForm (registration : NodeRegistration) : NodeRegistration :=
  if registration.nodeRole = nodeRoleThin ∧ registration.nodeAddress = "" then
    { registration with nodeAddress := "ws://" ++ registration.nodeId }
  else
    registration

/-- Table, cache and object registry take the registration.  The call always
returns `Ok`: a failure to persist is logged. -/
def enrol (s : NodeRegistry σ) (registration : NodeRegistration) (clock : Clock) :
    NodeRegistry σ :=
  let s := s.onSwim (.upsertMember (memberFor registration clock)) clock
  let s := s.updateCache registration.nodeId registration clock
  let ctx := s.systemRegistryContext (registration.capabilities.lookup "cluster")
  { s with
    store := (persistNodeRegistrationWithRegistry reg ctx (persistedForm registration) clock
      s.store).2 }

def registerNode (s : NodeRegistry σ) (registration : NodeRegistration) (clock : Clock) :
    NodeRegistry σ :=
  if registration.nodeRole = nodeRoleThin then
    enrol reg s registration clock
  else
    match s.reconcileLocalRegistrationAliases registration clock with
    | (false, s) => s
    | (true, s) => enrol reg s registration clock

def unregisterNode (s : NodeRegistry σ) (nodeId : String) (clock : Clock) : NodeRegistry σ :=
  let s := s.onSwim (.declareDead nodeId) clock
  let s := s.removeFromCache nodeId
  { s with store := forgetStored reg nodeId s.store }

/-! ## Lookup -/

/-- The last resort of a lookup: ask the object registry, and remember what it
knows in the cache and the table. -/
def lookupStored (s : NodeRegistry σ) (target : String) (fuel : Nat) (clock : Clock) :
    Option (Option NodeRegistration) × NodeRegistry σ :=
  match dbCall (lookupNodeInObjectRegistry reg (s.systemRegistryContext none) target) fuel s with
  | (none, s) => (none, s)
  | (some (.ok (some o)), s) =>
      let registration := toNodeRegistration o
      let s := s.updateCache registration.nodeId registration clock
      let member := { SwimMember.new o.objectId o.grpcAddress clock.now with
        metadata := registration.capabilities }
      (some (some registration), s.onSwim (.upsertMember member) clock)
  | (some (.ok none), s) => (some none, s)
  | (some (.error _), s) => (some none, s)

/-- By id: the cache, then an active member, then the veto of a dead or departed
member, then the object registry. -/
def lookupById (s : NodeRegistry σ) (target : String) (fuel : Nat) (clock : Clock) :
    Option (Option NodeRegistration) × NodeRegistry σ :=
  match s.getFromCache target clock with
  | (some registration, s) => (some (some registration), s)
  | (none, s) =>
      match s.swim.getMember target with
      | some member =>
          if member.state.isActive then
            (some (some (swimMemberToNodeRegistration member clock)), s)
          else
            (some none, s)
      | none => lookupStored reg s target fuel clock

/-- The answer is `none` when the call has not returned within `fuel` attempts
of the object registry, `some none` when it returns no node. -/
def lookupNode (s : NodeRegistry σ) (target : String) (fuel : Nat) (clock : Clock) :
    Option (Option NodeRegistration) × NodeRegistry σ :=
  if looksLikeAddress target then
    match s.lookupCachedOrSwimByAddress target clock with
    | (some registration, s) => (some (some registration), s)
    | (none, s) => lookupById reg s target fuel clock
  else
    lookupById reg s target fuel clock

/-! ## Heartbeats and the shared database -/

def refreshNodeHeartbeatInRegistry (ctx : RequestContext) (nodeId : String)
    (heartbeat : Timestamp) (store : σ) : Except String Unit × σ :=
  match reg.lookupFull ctx nodeId store with
  | (.error e, store) => (.error e, store)
  | (.ok none, store) => (.ok (), store)
  | (.ok (some o), store) =>
      reg.register ctx { o with lastHeartbeat := some heartbeat, updatedAt := some heartbeat }
        store

/-- The member as a probe success leaves it goes back through `upsert_member`. -/
def refreshMember (s : NodeRegistry σ) (nodeId : String) (clock : Clock) : NodeRegistry σ :=
  match s.swim.getMember nodeId with
  | some member => s.onSwim (.upsertMember (member.recordProbeSuccess clock.now)) clock
  | none => s

/-- A heartbeat is stamped on the cached registration; it does not move its expiry. -/
def stampCached (s : NodeRegistry σ) (nodeId : String) (clock : Clock) : NodeRegistry σ :=
  match s.cache.lookup nodeId with
  | some c =>
      let refreshed := { c.registration with lastHeartbeat := some clock.wall }
      { s with cache := s.cache.insert nodeId { c with registration := refreshed } }
  | none => s

def isThinNode (s : NodeRegistry σ) (nodeId : String) : Bool :=
  match s.swim.getMember nodeId with
  | some member => SwimProtocol.isThin member
  | none => false

def sendHeartbeat (s : NodeRegistry σ) (nodeId : String) (fuel : Nat) (clock : Clock) :
    NodeRegistry σ :=
  let s := (s.refreshMember nodeId clock).stampCached nodeId clock
  if s.isThinNode nodeId then
    s
  else
    (dbCall (refreshNodeHeartbeatInRegistry reg (s.systemRegistryContext none) nodeId
      clock.wall) fuel s).2

/-- One stored registration: it renews the cache entry, and introduces the node
to the table when the table does not know it. -/
def syncRegistration (s : NodeRegistry σ) (o : ObjectRegistration) (clock : Clock) :
    NodeRegistry σ :=
  let registration := toNodeRegistration o
  let s := s.updateCache registration.nodeId registration clock
  match s.swim.getMember o.objectId with
  | some _ => s
  | none => s.onSwim (.upsertMember (memberFor registration clock)) clock

def syncWithDb (s : NodeRegistry σ) (fuel : Nat) (clock : Clock) : NodeRegistry σ :=
  if s.config.useSharedDb then
    match withDbBackoff (reg.discover (s.systemRegistryContext none)) fuel 0 s with
    | (some (.ok registrations), s) =>
        registrations.foldl (fun s o => s.syncRegistration o clock) s
    | (_, s) => s
  else
    s

end NodeRegistry

end PlexSpaces.Nodes
