import Mathlib.Logic.Function.Basic
import PlexSpaces.Actors.ActorId
import PlexSpaces.Lib.Assoc
/-!
# Creating a shard group

`create_shard_group_internal` checks the request and, in a read lock, that the group is not
there, spawns the shards one by one on the target nodes, and inserts the group in a write
lock.  A step is one of these lock sections, the look-up of the services, one spawn, or one
stop of a rollback; any number of calls run at once.

The services, the nodes and the clients answer from outside.  The actors that a call has
started and that run are kept with the call.
-/

namespace PlexSpaces.Shards

open PlexSpaces.Lib PlexSpaces.Actors

/-- `strategy` is the number of a `NodePlacementStrategy`. -/
structure NodePlacement where
  strategy : Int
  cluster : String
  nodeIds : List String
  deriving DecidableEq

structure ShardGroupConfig where
  groupId : String
  shardCount : UInt32
  placement : Option NodePlacement
  deriving DecidableEq

structure CreateShardGroupRequest where
  config : Option ShardGroupConfig
  actorType : String
  deriving DecidableEq

structure ShardGroup where
  config : ShardGroupConfig
  actorType : String
  shardActorIds : List String
  deriving DecidableEq

/-- The errors: a text, or an identity that is not valid. -/
inductive CreateError
  | message (text : String)
  | identity (name actorType nsName nodeId : String) (error : ActorIdError)
  deriving DecidableEq

/-- What the service locator has: `list_nodes` of the node registry, the cluster of the node
configuration, whether there is an actor factory, and the registered actor type. -/
structure Services where
  listNodes : Option (Option String → Except String (List String))
  clusterName : String
  actorFactory : Bool
  resolvedActorType : String

def strategyFromRegistry : Int := 2

def strategyNodeIds : Int := 3

def clusterFilter (placement : NodePlacement) (localCluster : String) : Option String :=
  if placement.cluster.isEmpty then
    if localCluster.isEmpty then none else some localCluster
  else some placement.cluster

def placementNodes (services : Services) (localNodeId : String) :
    Option NodePlacement → Except CreateError (List String)
  | none => .ok [localNodeId]
  | some placement =>
      if placement.strategy = strategyFromRegistry then
        match services.listNodes with
        | none => .error (.message "NodeRegistry not available for from_registry placement")
        | some listNodes =>
            match listNodes (clusterFilter placement services.clusterName) with
            | .ok nodes => .ok nodes
            | .error e => .error (.message ("list_nodes failed: " ++ e))
      else if placement.strategy = strategyNodeIds then .ok placement.nodeIds
      else .ok [localNodeId]

def resolveShardGroupTargetNodes (services : Services) (localNodeId : String)
    (placement : Option NodePlacement) :
    Except CreateError { nodes : List String // nodes ≠ [] } :=
  match placementNodes services localNodeId placement with
  | .error e => .error e
  | .ok nodes =>
      if h : nodes = [] then
        .error (.message "Placement produced no target nodes for shard group creation")
      else .ok ⟨nodes, h⟩

def checkRequest (req : CreateShardGroupRequest) : Except CreateError ShardGroupConfig :=
  match req.config with
  | none => .error (.message "config is required")
  | some config =>
      if config.shardCount = 0 then .error (.message "config.shard_count must be >= 1")
      else if 1000000000 < config.shardCount then
        .error (.message "config.shard_count must be <= 1000000000")
      else if config.groupId.isEmpty then .error (.message "config.group_id is required")
      else if req.actorType.isEmpty then .error (.message "actor_type is required")
      else .ok config

/-- The loop over the shards, before the shard `shardActorIds.length`. -/
structure SpawnLoop where
  config : ShardGroupConfig
  targetNodes : { nodes : List String // nodes ≠ [] }
  resolvedActorType : String
  shardActorIds : List String
  deriving DecidableEq

namespace SpawnLoop

variable (loop : SpawnLoop)

def shardId : Nat := loop.shardActorIds.length

/-- `target_nodes[shard_id % target_nodes.len()]`. -/
def targetNode : String :=
  loop.targetNodes.val.get ⟨loop.shardId % loop.targetNodes.val.length,
    Nat.mod_lt _ (List.length_pos_iff.mpr loop.targetNodes.property)⟩

end SpawnLoop

/-- What a spawn hears from outside: its ULID, whether the node has started the actor, and
the answers of the actor factory, of the client pool, and of the remote node, which is an
`actor_ref`. -/
structure SpawnAnswer where
  ulid : String
  started : Bool
  localSpawn : Except String Unit
  client : Except String Unit
  remoteSpawn : Except String String

/-- A shard is spawned, the loop is left through `?`, or the shards are rolled back. -/
inductive SpawnResult
  | pushed (actorId : String)
  | exit (error : CreateError)
  | rollback (error : CreateError)

abbrev Actor := String × ActorId

section Spawn

variable (localNodeId nsName : String) (loop : SpawnLoop) (answer : SpawnAnswer)

def shardName : String := loop.config.groupId ++ "-" ++ answer.ulid

/-- `build_canonical_actor_id` of the next shard. -/
def shardIdentity : Except ActorIdError ActorId :=
  ActorId.new (shardName loop answer) loop.resolvedActorType nsName loop.targetNode

def spawnShard : SpawnResult :=
  match shardIdentity nsName loop answer with
  | .error e =>
      .exit (.identity (shardName loop answer) loop.resolvedActorType nsName loop.targetNode e)
  | .ok fullId =>
      if loop.targetNode = localNodeId then
        match answer.localSpawn with
        | .ok () => .pushed fullId.asStr
        | .error e =>
            .rollback (.message
              ("Failed to spawn shard " ++ toString loop.shardId ++ " (local): " ++ e))
      else
        match answer.client with
        | .error e =>
            .exit (.message ("Failed to get client for node " ++ loop.targetNode ++ ": " ++ e))
        | .ok () =>
            match answer.remoteSpawn with
            | .error e =>
                .exit (.message ("Remote spawn to " ++ loop.targetNode ++ " failed: " ++ e))
            | .ok actorRef =>
                if actorRef.isEmpty then
                  .rollback (.message
                    ("Remote spawn to " ++ loop.targetNode ++ " returned empty actor_ref"))
                else .pushed actorRef

def startedActor : List Actor :=
  match shardIdentity nsName loop answer with
  | .error _ => []
  | .ok fullId =>
      if answer.started && (loop.targetNode == localNodeId || answer.client.isOk) then
        [(loop.targetNode, fullId)]
      else []

end Spawn

/-- `stop_actor` of the rollback on an id that was pushed.  An id that does not parse, or that
parses to another node, is passed over; `ok` is whether the factory stops a local actor. -/
def rollbackOne (localNodeId : String) (running : List Actor) (actorId : String) (ok : Bool) :
    List Actor :=
  match ActorId.fromCanonical actorId with
  | .error _ => running
  | .ok id =>
      if id.nodeId = localNodeId ∧ ok = true then
        running.filter fun a => !(a.1 == localNodeId && a.2 == id)
      else running

/-- Where a call is. -/
inductive Phase
  | idle
  | checked (config : ShardGroupConfig)
  | spawning (loop : SpawnLoop)
  | rollingBack (shardActorIds : List String) (error : CreateError)
  | created (group : ShardGroup)
  | returned (result : Except CreateError ShardGroup)
  deriving DecidableEq

structure Call where
  phase : Phase := .idle
  running : List Actor := []

/-- The service: its node, and the request and the namespace of each call. -/
structure Service (ι : Type) where
  localNodeId : String
  request : ι → CreateShardGroupRequest
  nsName : ι → String

structure World (ι : Type) where
  groups : Assoc String ShardGroup
  calls : ι → Call := fun _ => {}

inductive Step (ι : Type)
  | check (i : ι)
  | resolve (i : ι) (services : Option Services)
  | spawn (i : ι) (answer : SpawnAnswer)
  | stop (i : ι) (ok : Bool)
  | insert (i : ι)

namespace World

variable {ι : Type} [DecidableEq ι]

def set (w : World ι) (i : ι) (call : Call) : World ι :=
  { w with calls := Function.update w.calls i call }

def goTo (w : World ι) (i : ι) (phase : Phase) : World ι :=
  w.set i { w.calls i with phase := phase }

end World

namespace Service

variable {ι : Type} [DecidableEq ι] (service : Service ι)

def afterShard (i : ι) (loop : SpawnLoop) : Phase :=
  if loop.shardId < loop.config.shardCount.toNat then .spawning loop
  else .created ⟨loop.config, (service.request i).actorType, loop.shardActorIds⟩

def step (w : World ι) : Step ι → World ι
  | .check i =>
      match (w.calls i).phase with
      | .idle =>
          match checkRequest (service.request i) with
          | .error e => w.goTo i (.returned (.error e))
          | .ok config =>
              if (w.groups.lookup config.groupId).isSome then
                w.goTo i (.returned (.error (.message
                  ("ShardGroup " ++ config.groupId ++ " already exists"))))
              else w.goTo i (.checked config)
      | _ => w
  | .resolve i services =>
      match (w.calls i).phase with
      | .checked config =>
          match services with
          | none => w.goTo i (.returned (.error (.message "ActorRegistry not available")))
          | some services =>
              match resolveShardGroupTargetNodes services service.localNodeId
                  config.placement with
              | .error e => w.goTo i (.returned (.error e))
              | .ok targetNodes =>
                  if services.actorFactory then
                    w.goTo i (.spawning ⟨config, targetNodes, services.resolvedActorType, []⟩)
                  else w.goTo i (.returned (.error (.message "Actor factory not available")))
      | _ => w
  | .spawn i answer =>
      match (w.calls i).phase with
      | .spawning loop =>
          w.set i
            { phase :=
                match spawnShard service.localNodeId (service.nsName i) loop answer with
                | .pushed actorId =>
                    service.afterShard i
                      { loop with shardActorIds := loop.shardActorIds ++ [actorId] }
                | .exit e => .returned (.error e)
                | .rollback e => .rollingBack loop.shardActorIds e
              running := (w.calls i).running ++
                startedActor service.localNodeId (service.nsName i) loop answer }
      | _ => w
  | .stop i ok =>
      match (w.calls i).phase with
      | .rollingBack [] e => w.goTo i (.returned (.error e))
      | .rollingBack (actorId :: rest) e =>
          w.set i
            { phase := .rollingBack rest e
              running := rollbackOne service.localNodeId (w.calls i).running actorId ok }
      | _ => w
  | .insert i =>
      match (w.calls i).phase with
      | .created group =>
          { w with groups := w.groups.insert group.config.groupId group }.goTo i
            (.returned (.ok group))
      | _ => w

end Service

end PlexSpaces.Shards
