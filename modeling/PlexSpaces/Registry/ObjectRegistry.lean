import PlexSpaces.Lib.Assoc
import PlexSpaces.Lib.Pool
import PlexSpaces.Registry.Repository
/-!
# The object registry

`ObjectRegistryImpl` of a node makes one statement on the shared table, or one access to the
node's own alias cache, after the other.  Any number of nodes work on the table at once, so a
method is an interaction, and the methods in progress form a pool.

Each look at the clock and each statement takes the next entry of a list of readings or of
faults: the clock may show anything and any statement may fail.
-/

namespace PlexSpaces.Registry

open PlexSpaces.Lib

/-! ## The alias cache -/

/-- `AliasLruCache`, with times in milliseconds. -/
structure AliasLruCache where
  capacity : Nat
  ttl : Nat
  map : Assoc String (Option ObjectRegistration × Nat)
  queue : List String

namespace AliasLruCache

def new (capacity ttl : Nat) : AliasLruCache := ⟨capacity, ttl, ∅, []⟩

def remove (c : AliasLruCache) (key : String) : AliasLruCache :=
  match c.map.lookup key with
  | some _ => { c with map := c.map.erase key, queue := c.queue.filter fun k => k ≠ key }
  | none => c

/-- The entry has reached its time to live; a clock that went back makes its age zero. -/
def expired (c : AliasLruCache) (key : String) (now : Nat) : Bool :=
  match c.map.lookup key with
  | some (_, ts) => now - ts ≥ c.ttl
  | none => true

def get (c : AliasLruCache) (key : String) (now : Nat) :
    Option (Option ObjectRegistration) × AliasLruCache :=
  if c.expired key now then (none, c.remove key)
  else ((c.map.lookup key).map Prod.fst, c)

def insert (c : AliasLruCache) (key : String) (value : Option ObjectRegistration) (now : Nat) :
    AliasLruCache :=
  match c.map.lookup key with
  | some _ => { c with map := c.map.insert key (value, now) }
  | none =>
    let c :=
      if c.map.entries.length ≥ c.capacity then
        match c.queue with
        | evict :: queue => { c with map := c.map.erase evict, queue := queue }
        | [] => c
      else c
    { c with map := c.map.insert key (value, now), queue := c.queue ++ [key] }

variable {c : AliasLruCache} {key k : String} {x : Option ObjectRegistration × Nat}

theorem lookup_remove (c : AliasLruCache) (key k : String) :
    (c.remove key).map.lookup k = if k = key then none else c.map.lookup k := by
  unfold remove
  cases hkey : c.map.lookup key with
  | none =>
      split_ifs with hk
      · rw [hk, hkey]
      · rfl
  | some y => exact Assoc.lookup_erase c.map key k

/-- A hit is an entry that has not reached its time to live. -/
theorem get_eq_some {value : Option ObjectRegistration} {now : Nat}
    (h : (c.get key now).1 = some value) :
    ∃ ts, c.map.lookup key = some (value, ts) ∧ now - ts < c.ttl := by
  unfold get expired at h
  cases hkey : c.map.lookup key with
  | none =>
      rw [hkey] at h
      cases h
  | some y =>
      rw [hkey] at h
      by_cases hexpired : now - y.2 ≥ c.ttl
      · simp [hexpired] at h
      · have hvalue : y.1 = value := by simpa [hexpired] using h
        exact ⟨y.2, by rw [← hvalue], Nat.lt_of_not_le hexpired⟩

theorem lookup_of_get {now : Nat} (h : (c.get key now).2.map.lookup k = some x) :
    c.map.lookup k = some x := by
  unfold get at h
  split_ifs at h
  · rw [lookup_remove] at h
    split_ifs at h
    exact h
  · exact h

/-- The cache that an insertion of a new key puts its entry into. -/
theorem lookup_of_insert {value : Option ObjectRegistration} {now : Nat}
    (h : (c.insert key value now).map.lookup k = some x) :
    (k = key ∧ x = (value, now)) ∨ c.map.lookup k = some x := by
  unfold insert at h
  cases hkey : c.map.lookup key with
  | some y =>
      rw [hkey] at h
      change (c.map.insert key (value, now)).lookup k = some x at h
      rw [Assoc.lookup_insert] at h
      split_ifs at h with hk
      · exact Or.inl ⟨hk, (Option.some.inj h).symm⟩
      · exact Or.inr h
  | none =>
      rw [hkey] at h
      dsimp only at h
      rw [Assoc.lookup_insert] at h
      split_ifs at h with hk hfull
      · exact Or.inl ⟨hk, (Option.some.inj h).symm⟩
      · cases hqueue : c.queue with
        | nil =>
            rw [hqueue] at h
            exact Or.inr h
        | cons evict queue =>
            rw [hqueue] at h
            change (c.map.erase evict).lookup k = some x at h
            rw [Assoc.lookup_erase] at h
            split_ifs at h
            exact Or.inr h
      · exact Or.inr h

/-- The queue holds the keys of the map, and not more than the capacity. -/
structure Fits (c : AliasLruCache) : Prop where
  keys : c.queue.Perm c.map.keys
  size : c.queue.length ≤ c.capacity

theorem new_fits (capacity ttl : Nat) : (new capacity ttl).Fits := ⟨List.Perm.nil, Nat.zero_le _⟩

theorem Fits.nodup (h : c.Fits) : c.queue.Nodup := h.keys.nodup_iff.mpr c.map.keys_nodup

theorem Fits.remove (h : c.Fits) (key : String) : (c.remove key).Fits := by
  unfold AliasLruCache.remove
  cases hkey : c.map.lookup key with
  | none => exact h
  | some y =>
      have hfilter : c.queue.filter (fun k => k ≠ key) = c.queue.erase key := by
        rw [h.nodup.erase_eq_filter]
        congr 1
        ext k
        by_cases hk : k = key <;> simp [hk]
      refine ⟨?_, Nat.le_trans (List.length_filter_le _ _) h.size⟩
      show (c.queue.filter fun k => k ≠ key).Perm (c.map.erase key).keys
      rw [hfilter, AList.keys_erase]
      exact h.keys.erase key

theorem Fits.get (h : c.Fits) (key : String) (now : Nat) : (c.get key now).2.Fits := by
  unfold AliasLruCache.get
  split_ifs
  · exact h.remove key
  · exact h

/-- A new key goes to the end of the queue, once the cache has room for it. -/
theorem Fits.push (h : c.Fits) (hroom : c.queue.length < c.capacity)
    (hkey : key ∉ c.map.keys) : Fits { c with
      map := c.map.insert key x
      queue := c.queue ++ [key] } := by
  refine ⟨?_, ?_⟩
  · show (c.queue ++ [key]).Perm (c.map.insert key x).keys
    rw [AList.keys_insert, List.erase_of_not_mem hkey]
    exact List.perm_append_comm.trans (List.Perm.cons key h.keys)
  · show (c.queue ++ [key]).length ≤ c.capacity
    rw [List.length_append, List.length_singleton]
    omega

theorem Fits.insert (h : c.Fits) (hcapacity : 0 < c.capacity) (key : String)
    (value : Option ObjectRegistration) (now : Nat) : (c.insert key value now).Fits := by
  have hlength : c.map.entries.length = c.queue.length := by
    rw [h.keys.length_eq]
    exact (List.length_map _).symm
  unfold AliasLruCache.insert
  cases hkey : c.map.lookup key with
  | some y =>
      refine ⟨?_, h.size⟩
      have hmem : key ∈ c.map.keys := by
        rw [← AList.mem_keys, ← AList.lookup_isSome, hkey]
        rfl
      show c.queue.Perm (c.map.insert key (value, now)).keys
      rw [AList.keys_insert]
      exact h.keys.trans (List.perm_cons_erase hmem)
  | none =>
      have hnew : key ∉ c.map.keys := by
        rw [← AList.mem_keys, ← AList.lookup_isSome, hkey]
        exact Bool.false_ne_true
      dsimp only
      split_ifs with hfull
      · -- the cache is full and gives up its oldest key
        cases hqueue : c.queue with
        | nil =>
            rw [hlength, hqueue, List.length_nil] at hfull
            omega
        | cons evict queue =>
            have hevicted : Fits { c with map := c.map.erase evict, queue := queue } := by
              refine ⟨?_, ?_⟩
              · show queue.Perm (c.map.erase evict).keys
                rw [AList.keys_erase]
                have hperm := h.keys.erase evict
                rw [hqueue, List.erase_cons_head] at hperm
                exact hperm
              · have hsize := h.size
                rw [hqueue, List.length_cons] at hsize
                exact Nat.le_of_succ_le hsize
            refine hevicted.push ?_ ?_
            · have hsize := h.size
              rw [hqueue, List.length_cons] at hsize
              exact hsize
            · show key ∉ (c.map.erase evict).keys
              rw [AList.keys_erase]
              exact fun hmem => hnew (List.mem_of_mem_erase hmem)
      · refine h.push ?_ hnew
        rw [hlength] at hfull
        exact Nat.lt_of_not_le hfull

end AliasLruCache

/-! ## Requests -/

/-- The accesses to the alias cache of one node. -/
inductive CacheOp
  | get (aliasName : String) (now : Nat)
  | insert (aliasName : String) (value : Option ObjectRegistration) (now : Nat)
  | remove (aliasName : String)
deriving Repr

@[reducible] def CacheOp.Answer : CacheOp → Type
  | get _ _ => Option (Option ObjectRegistration)
  | insert _ _ _ | remove _ => Unit

def CacheOp.perform : (op : CacheOp) → AliasLruCache → op.Answer × AliasLruCache
  | .get aliasName now, c => c.get aliasName now
  | .insert aliasName value now, c => ((), c.insert aliasName value now)
  | .remove aliasName, c => ((), c.remove aliasName)

inductive Request (ν : Type)
  | now
  | cache (node : ν) (op : CacheOp)
  | statement (s : Statement)

@[reducible] def Reply {ν : Type} : Request ν → Type
  | .now => Nat
  | .cache _ op => op.Answer
  | .statement s => Except RepositoryError s.Answer

/-- The table, the caches of the nodes, the coming clock readings and the coming faults. -/
structure Cluster (ν : Type) where
  table : RegistryTable
  caches : ν → AliasLruCache
  clock : List Nat
  faults : List (Option String)

variable {ν : Type}

/-- A cluster with an empty table and fresh caches. -/
def Cluster.start (clock : List Nat) (faults : List (Option String)) : Cluster ν where
  table := Table.empty
  caches := fun _ => AliasLruCache.new 10000 30000
  clock := clock
  faults := faults

def Cluster.execute (s : Statement) (c : Cluster ν) :
    Except RepositoryError s.Answer × Cluster ν :=
  match c.faults with
  | some message :: faults => (.error (.storage message), { c with faults := faults })
  | faults =>
      let (answer, table) := c.table.perform s
      (answer, { c with table := table, faults := faults.tail })

variable [DecidableEq ν]

def Cluster.serve : (request : Request ν) → Cluster ν → Reply request × Cluster ν
  | .now, c => (c.clock.headD 0, { c with clock := c.clock.tail })
  | .cache node op, c =>
      let (answer, cache) := op.perform (c.caches node)
      (answer, { c with caches := Function.update c.caches node cache })
  | .statement s, c => c.execute s

/-! ## Methods -/

inductive ObjectRegistryError
  | objectNotFound (id : String)
  | storageError (message : String)
  | invalidInput (message : String)
deriving DecidableEq, Repr

def ObjectRegistryError.ofRepositoryError : RepositoryError → ObjectRegistryError
  | .notFound id => .objectNotFound id
  | .storage message => .storageError message

inductive RegisterResult
  | registered
  | alreadyExists (grpcAddress objectId : String)
deriving DecidableEq, Repr

/-- What a method does with the table and the cache of a node. -/
abbrev Method (ν α : Type) := ExceptT ObjectRegistryError (Interaction (Reply (ν := ν))) α

def ask (request : Request ν) : Interaction (Reply (ν := ν)) (Reply request) :=
  Interaction.send request

/-- One statement; its error goes through `From`. -/
def statement (s : Statement) : Method ν s.Answer :=
  ExceptT.mk ((Except.mapError ObjectRegistryError.ofRepositoryError) <$> ask (.statement s))

def cache (node : ν) (op : CacheOp) : Method ν op.Answer :=
  ExceptT.lift (ask (.cache node op))

def readClock : Method ν Nat := ExceptT.lift (ask .now)

/-- The checks of `register` that need no repository. -/
def validate (ctx : RequestContext) (registration : ObjectRegistration) :
    Except ObjectRegistryError Unit :=
  if registration.objectId = "" then .error (.invalidInput "object_id is required")
  else if registration.grpcAddress = "" then .error (.invalidInput "grpc_address is required")
  else if registration.tenantId ≠ "" ∧ registration.tenantId ≠ ctx.scope.tenantId then
    .error (.invalidInput ("registration.tenant_id '" ++ registration.tenantId ++
      "' does not match RequestContext tenant_id '" ++ ctx.scope.tenantId ++ "'"))
  else if registration.nsName ≠ "" ∧ registration.nsName ≠ ctx.scope.nsName then
    .error (.invalidInput ("registration.namespace '" ++ registration.nsName ++
      "' does not match RequestContext namespace '" ++ ctx.scope.nsName ++ "'"))
  else .ok ()

def checkNodeId (ctx : RequestContext) (registration : ObjectRegistration) : Method ν Unit := do
  if registration.objectType = objectTypeNode ∧ registration.nodeId ≠ "" then
    let existing ← statement (.discoverNodes ctx registration.nodeId)
    if existing.any fun item => item.objectId ≠ registration.objectId then
      throw (.invalidInput ("node_id '" ++ registration.nodeId ++
        "' is already registered to a different node object"))

def register (node : ν) (ctx : RequestContext) (registration : ObjectRegistration) :
    Method ν Unit := do
  ExceptT.mk (pure (validate ctx registration))
  let registration :=
    { registration with tenantId := ctx.scope.tenantId, nsName := ctx.scope.nsName }
  checkNodeId ctx registration
  let now ← readClock
  let registration := { registration with createdAt := some now, updatedAt := some now }
  let storedAt ← readClock
  statement (.put ctx.scope registration (storedAt / 1000))
  if registration.aliasName ≠ "" then cache node (.remove registration.aliasName)

/-- The check for an instance that holds the alias; a stale one is removed. -/
def displaceStale (node : ν) (scope : Scope) (aliasName : String) :
    Method ν (Option RegisterResult) := do
  match ← statement (.getByAlias scope aliasName) with
  | none => return none
  | some existing =>
      let status := (HealthStatus.tryFrom existing.healthStatus).getD .unknown
      if status.isActive then
        return some (.alreadyExists existing.grpcAddress existing.objectId)
      else do
        statement (.delete scope existing.objectId false)
        cache node (.remove aliasName)
        return none

/-- The outcome of the check, if it is made and ends the registration. -/
def aliasConflict (node : ν) (ctx : RequestContext) (registration : ObjectRegistration)
    (enforceUnique : Bool) : Method ν (Option RegisterResult) :=
  if enforceUnique ∧ registration.aliasName ≠ "" then
    displaceStale node ctx.scope registration.aliasName
  else pure none

def registerWithUniqueAlias (node : ν) (ctx : RequestContext) (registration : ObjectRegistration)
    (enforceUnique : Bool) : Method ν RegisterResult := do
  match ← aliasConflict node ctx registration enforceUnique with
  | some result => return result
  | none =>
      register node ctx registration
      return .registered

def unregister (node : ν) (ctx : RequestContext) (objectId : String) : Method ν Unit := do
  match ← statement (.get ctx.scope objectId) with
  | none =>
      throw (.objectNotFound ("Object '" ++ objectId ++ "' not found in tenant '" ++
        ctx.scope.tenantId ++ "', namespace '" ++ ctx.scope.nsName ++ "'"))
  | some existing =>
      statement (.delete ctx.scope objectId true)
      if existing.aliasName ≠ "" then cache node (.remove existing.aliasName)

def heartbeat (ctx : RequestContext) (objectId : String) : Method ν Unit := do
  let now ← readClock
  statement (.updateHeartbeat ctx.scope objectId (now / 1000 : Nat))
  statement (.resetHeartbeatFailures ctx.scope objectId)
  statement (.updateHealthStatus ctx.scope objectId .healthy)

/-- The status after a failure that brings the count to `newCount`. -/
def statusAfter (registration : ObjectRegistration) (newCount : Nat) : HealthStatus :=
  let max :=
    if registration.maxHeartbeatFailures = 0 then 3 else registration.maxHeartbeatFailures
  if newCount ≥ max then .dead else .degraded

def recordHeartbeatFailure (node : ν) (ctx : RequestContext) (objectId : String) :
    Method ν HealthStatus := do
  let newCount ← statement (.incrementHeartbeatFailures ctx.scope objectId)
  match ← statement (.get ctx.scope objectId) with
  | none => throw (.objectNotFound objectId)
  | some registration =>
      let newStatus := statusAfter registration newCount
      statement (.updateHealthStatus ctx.scope objectId newStatus)
      if registration.aliasName ≠ "" then cache node (.remove registration.aliasName)
      if newStatus = .dead ∧ registration.objectType = objectTypeNode then do
        let _ ← statement (.markDeadByNodeId ctx.scope registration.objectId)
        return newStatus
      else return newStatus

def lookupByAlias (node : ν) (ctx : RequestContext) (aliasName : String) :
    Method ν (Option ObjectRegistration) := do
  let now ← readClock
  match ← cache node (.get aliasName now) with
  | some cached => return cached
  | none =>
      let result ← statement (.getByAlias ctx.scope aliasName)
      let filledAt ← readClock
      cache node (.insert aliasName result filledAt)
      return result

/-! ## Calls -/

inductive Call (ν : Type)
  | register (node : ν) (ctx : RequestContext) (registration : ObjectRegistration)
  | registerWithUniqueAlias (node : ν) (ctx : RequestContext) (registration : ObjectRegistration)
      (enforceUnique : Bool)
  | unregister (node : ν) (ctx : RequestContext) (objectId : String)
  | heartbeat (ctx : RequestContext) (objectId : String)
  | recordHeartbeatFailure (node : ν) (ctx : RequestContext) (objectId : String)
  | lookupByAlias (node : ν) (ctx : RequestContext) (aliasName : String)
  | updateHealthStatus (ctx : RequestContext) (objectId : String) (status : HealthStatus)
  | markObjectsDeadByNode (ctx : RequestContext) (nodeId : String)

/-- What a call returns; a lookup and a verdict come with what they are about. -/
inductive Returned (ν : Type)
  | done (result : Except ObjectRegistryError Unit)
  | registered (result : Except ObjectRegistryError RegisterResult)
  | lookedUp (node : ν) (ctx : RequestContext) (aliasName : String)
      (result : Except ObjectRegistryError (Option ObjectRegistration))
  | failureRecorded (ctx : RequestContext) (objectId : String)
      (result : Except ObjectRegistryError HealthStatus)
  | counted (result : Except ObjectRegistryError Nat)

def program : Call ν → Interaction (Reply (ν := ν)) (Returned ν)
  | .register node ctx registration => do
      return .done (← (register node ctx registration).run)
  | .registerWithUniqueAlias node ctx registration enforceUnique => do
      return .registered (← (registerWithUniqueAlias node ctx registration enforceUnique).run)
  | .unregister node ctx objectId => do
      return .done (← (unregister node ctx objectId).run)
  | .heartbeat ctx objectId => do
      return .done (← (heartbeat ctx objectId).run)
  | .recordHeartbeatFailure node ctx objectId => do
      return .failureRecorded ctx objectId (← (recordHeartbeatFailure node ctx objectId).run)
  | .lookupByAlias node ctx aliasName => do
      return .lookedUp node ctx aliasName (← (lookupByAlias node ctx aliasName).run)
  | .updateHealthStatus ctx objectId status => do
      return .done (← (statement (.updateHealthStatus ctx.scope objectId status)).run)
  | .markObjectsDeadByNode ctx nodeId => do
      return .counted (← (statement (.markDeadByNodeId ctx.scope nodeId)).run)

abbrev RegistryPool (ν : Type) := Pool (Reply (ν := ν)) (Cluster ν) (Returned ν)

abbrev LogEntry (ν : Type) := Event (Reply (ν := ν)) (Returned ν)

def step : RegistryPool ν → Move (Call ν) → RegistryPool ν := Pool.step program Cluster.serve

/-- The state after a schedule of calls on an empty table. -/
def after (clock : List Nat) (faults : List (Option String)) (moves : List (Move (Call ν))) :
    RegistryPool ν :=
  run step { server := Cluster.start clock faults } moves

end PlexSpaces.Registry
