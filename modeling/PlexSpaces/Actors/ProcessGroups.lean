import PlexSpaces.Actors.ActorId
import PlexSpaces.Lib.KeyValue
/-!
# Process groups

The registry keeps the record of a group, its memberships and its messages in one
key-value store, under texts that are put together from the names.  `delete_group`,
`get_members` and the member count find the memberships of a group by the beginning
of their keys.  Records are stored as bytes; the codec and the text of a broadcast
message are parameters.
-/

namespace PlexSpaces.Actors

open PlexSpaces.Lib

inductive ProcessGroupError where
  | groupNotFound (groupName : String)
  | groupAlreadyExists (groupName : String)
  | actorNotInGroup (actorId : String) (groupName : String)
  | serializationError
deriving DecidableEq, Repr

structure ProcessGroup where
  groupName : String
  tenantId : String
  nsName : String
  memberIds : List String := []
  memberCount : UInt32 := 0
deriving DecidableEq, Repr

/-- `join_count` is an `i32`. -/
structure GroupMembership where
  groupName : String
  tenantId : String
  actorId : String
  nodeId : String
  joinCount : Int := 0
  topics : List String := []
deriving DecidableEq, Repr

structure BroadcastMessage where
  messageId : String
  groupName : String
  tenantId : String
  topic : Option String
  recipients : List String
  payload : List UInt8
  publishedAt : Int

/-- The wire format of the records. -/
structure Codec (Bytes : Type) where
  encodeGroup : ProcessGroup → Bytes
  decodeGroup : Bytes → Option ProcessGroup
  encodeMembership : GroupMembership → Bytes
  decodeMembership : Bytes → Option GroupMembership
  broadcastText : BroadcastMessage → Bytes
  decode_encodeGroup : ∀ group, decodeGroup (encodeGroup group) = some group
  decode_encodeMembership : ∀ membership,
    decodeMembership (encodeMembership membership) = some membership

/-- The registry of a node, for one tenant and namespace. -/
structure ProcessGroupRegistry (σ Bytes : Type) where
  storage : KeyValueStore σ Bytes
  codec : Codec Bytes
  nodeId : String
  tenantId : String
  nsName : String

/-- Addition on `i32`. -/
def addI32 (a b : Int) : Int := (a + b).bmod (2 ^ 32)

/-- `i32::saturating_sub`. -/
def saturatingSubI32 (a b : Int) : Int := max (-2 ^ 31) (min (a - b) (2 ^ 31 - 1))

namespace ProcessGroupRegistry

variable {σ Bytes : Type} (reg : ProcessGroupRegistry σ Bytes)

def groupKey (groupName : String) : String :=
  "tenant:" ++ reg.tenantId ++ ":group:" ++ groupName

def membershipKey (groupName actorId : String) : String :=
  "tenant:" ++ reg.tenantId ++ ":group:" ++ groupName ++ ":member:" ++ actorId

def membershipPrefix (groupName : String) : String :=
  "tenant:" ++ reg.tenantId ++ ":group:" ++ groupName ++ ":member:"

def messagePrefix (groupName : String) : String :=
  "tenant:" ++ reg.tenantId ++ ":group:" ++ groupName ++ ":message:"

def messageKey (groupName messageId : String) : String :=
  "tenant:" ++ reg.tenantId ++ ":group:" ++ groupName ++ ":message:" ++ messageId

def createGroup (groupName : String) (s : σ) : Except ProcessGroupError ProcessGroup × σ :=
  let key := reg.groupKey groupName
  if (reg.storage.get s key).isSome then (.error (.groupAlreadyExists groupName), s)
  else
    let group : ProcessGroup :=
      { groupName, tenantId := reg.tenantId, nsName := reg.nsName }
    (.ok group, reg.storage.put s key (reg.codec.encodeGroup group))

/-- The memberships are counted again, and their ids listed. -/
def updateMemberCount (groupName : String) (s : σ) : Except ProcessGroupError Unit × σ :=
  let key := reg.groupKey groupName
  match reg.storage.get s key with
  | none => (.error (.groupNotFound groupName), s)
  | some bytes =>
      match reg.codec.decodeGroup bytes with
      | none => (.error .serializationError, s)
      | some group =>
          let memberKeys := reg.storage.list s (reg.membershipPrefix groupName)
          let memberIds := memberKeys.filterMap fun key =>
            ((reg.storage.get s key).bind reg.codec.decodeMembership).map (·.actorId)
          let group := { group with memberCount := .ofNat memberKeys.length, memberIds }
          (.ok (), reg.storage.put s key (reg.codec.encodeGroup group))

def deleteGroup (groupName : String) (s : σ) : Except ProcessGroupError Unit × σ :=
  let s := reg.storage.delete s (reg.groupKey groupName)
  let s := reg.storage.deleteAll s (reg.storage.list s (reg.membershipPrefix groupName))
  let s := reg.storage.deleteAll s (reg.storage.list s (reg.messagePrefix groupName))
  (.ok (), s)

def mergeTopics (existing topics : List String) : List String :=
  if topics.isEmpty then existing else (existing ++ topics).dedup

def joinGroup (groupName : String) (actorId : ActorId) (topics : List String) (s : σ) :
    Except ProcessGroupError Unit × σ :=
  if (reg.storage.get s (reg.groupKey groupName)).isNone then
    (.error (.groupNotFound groupName), s)
  else
    let key := reg.membershipKey groupName actorId.asStr
    let found :=
      match reg.storage.get s key with
      | some bytes => reg.codec.decodeMembership bytes
      | none => some
          { groupName, tenantId := reg.tenantId, actorId := actorId.asStr, nodeId := reg.nodeId,
            topics }
    match found with
    | none => (.error .serializationError, s)
    | some membership =>
        let membership := { membership with
          topics := mergeTopics membership.topics topics
          joinCount := addI32 membership.joinCount 1 }
        let s := reg.storage.put s key (reg.codec.encodeMembership membership)
        if membership.joinCount = 1 then reg.updateMemberCount groupName s else (.ok (), s)

def leaveGroup (groupName : String) (actorId : ActorId) (s : σ) :
    Except ProcessGroupError Unit × σ :=
  let key := reg.membershipKey groupName actorId.asStr
  match reg.storage.get s key with
  | none => (.error (.actorNotInGroup actorId.asStr groupName), s)
  | some bytes =>
      match reg.codec.decodeMembership bytes with
      | none => (.error .serializationError, s)
      | some membership =>
          let wasRemoved := membership.joinCount = 1
          let membership :=
            { membership with joinCount := saturatingSubI32 membership.joinCount 1 }
          let s :=
            if membership.joinCount = 0 then reg.storage.delete s key
            else reg.storage.put s key (reg.codec.encodeMembership membership)
          if wasRemoved then reg.updateMemberCount groupName s else (.ok (), s)

/-- The memberships that are found by the beginning of their keys. -/
def memberships (groupName : String) (s : σ) : List GroupMembership :=
  (reg.storage.list s (reg.membershipPrefix groupName)).filterMap fun key =>
    (reg.storage.get s key).bind reg.codec.decodeMembership

def actorIds (memberships : List GroupMembership) : List ActorId :=
  memberships.filterMap fun membership => (ActorId.fromCanonical membership.actorId).toOption

def getMembers (groupName : String) (s : σ) : Except ProcessGroupError (List ActorId) :=
  if (reg.storage.get s (reg.groupKey groupName)).isNone then .error (.groupNotFound groupName)
  else .ok (actorIds (reg.memberships groupName s))

def receives (topic : Option String) (membership : GroupMembership) : Bool :=
  match topic with
  | some topic => membership.topics.isEmpty || membership.topics.contains topic
  | none => true

def publishToGroup (groupName : String) (topic : Option String) (payload : List UInt8)
    (messageId : String) (publishedAt : Int) (s : σ) :
    Except ProcessGroupError (List ActorId) × σ :=
  if (reg.storage.get s (reg.groupKey groupName)).isNone then
    (.error (.groupNotFound groupName), s)
  else
    let recipients := actorIds ((reg.memberships groupName s).filter (receives topic))
    let message : BroadcastMessage :=
      { messageId, groupName, tenantId := reg.tenantId, topic,
        recipients := recipients.map (·.asStr), payload, publishedAt }
    (.ok recipients,
      reg.storage.put s (reg.messageKey groupName messageId) (reg.codec.broadcastText message))

def storedGroup (groupName : String) (s : σ) : Option ProcessGroup :=
  (reg.storage.get s (reg.groupKey groupName)).bind reg.codec.decodeGroup

end ProcessGroupRegistry

/-! ## Calls -/

inductive GroupCall where
  | create (groupName : String)
  | delete (groupName : String)
  | join (groupName : String) (actorId : ActorId) (topics : List String)
  | leave (groupName : String) (actorId : ActorId)
  | publish (groupName : String) (topic : Option String) (payload : List UInt8)
      (messageId : String) (publishedAt : Int)

def GroupCall.groupName : GroupCall → String
  | create groupName | delete groupName | join groupName _ _ | leave groupName _
  | publish groupName _ _ _ _ => groupName

/-- Whether the call succeeded, and the store behind it. -/
def ProcessGroupRegistry.call {σ Bytes : Type} (reg : ProcessGroupRegistry σ Bytes) (s : σ) :
    GroupCall → Bool × σ
  | .create groupName => (reg.createGroup groupName s).map (·.isOk) id
  | .delete groupName => (reg.deleteGroup groupName s).map (·.isOk) id
  | .join groupName actorId topics => (reg.joinGroup groupName actorId topics s).map (·.isOk) id
  | .leave groupName actorId => (reg.leaveGroup groupName actorId s).map (·.isOk) id
  | .publish groupName topic payload messageId publishedAt =>
      (reg.publishToGroup groupName topic payload messageId publishedAt s).map (·.isOk) id

end PlexSpaces.Actors
