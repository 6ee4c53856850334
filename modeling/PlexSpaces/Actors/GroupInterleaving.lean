import PlexSpaces.Actors.JoinCounting
import PlexSpaces.Lib.Isolation
/-!
# Interleaved joins and leaves

The calls on one group as sequences of storage steps, from any number of nodes.
A call writes what it makes of what it has read, and nothing tells it that another
call has written in between.  Where none does, the memberships that are stored are
those that the successful calls count (`interleaved_counts_joins`).
-/

namespace PlexSpaces.Actors

open PlexSpaces.Lib

inductive MembershipCall where
  | create
  | delete
  | join (actorId : ActorId) (topics : List String)
  | leave (actorId : ActorId)

def MembershipCall.toGroupCall (groupName : String) : MembershipCall → GroupCall
  | create => .create groupName
  | delete => .delete groupName
  | join actorId topics => .join groupName actorId topics
  | leave actorId => .leave groupName actorId

structure NodeCall where
  nodeId : String
  call : MembershipCall

abbrev Storing (Bytes α : Type) := Interaction (StoreRequest.Reply (V := Bytes)) α

def store {Bytes : Type} (request : StoreRequest Bytes) : Storing Bytes request.Reply :=
  Interaction.send request

namespace ProcessGroupRegistry

variable {σ Bytes : Type} (reg : ProcessGroupRegistry σ Bytes)

/-! ## The operations in steps -/

def createGroupSteps (groupName : String) :
    Storing Bytes (Except ProcessGroupError ProcessGroup) := do
  let key := reg.groupKey groupName
  if (← store (.get key)).isSome then return .error (.groupAlreadyExists groupName)
  else
    let group : ProcessGroup :=
      { groupName, tenantId := reg.tenantId, nsName := reg.nsName }
    store (.put key (reg.codec.encodeGroup group))
    return .ok group

def readMemberIds : List String → Storing Bytes (List String)
  | [] => return []
  | key :: keys => do
      let bytes ← store (.get key)
      let memberIds ← readMemberIds keys
      return ((bytes.bind reg.codec.decodeMembership).map (·.actorId)).toList ++ memberIds

def updateMemberCountSteps (groupName : String) :
    Storing Bytes (Except ProcessGroupError Unit) := do
  let key := reg.groupKey groupName
  match ← store (.get key) with
  | none => return .error (.groupNotFound groupName)
  | some bytes =>
      match reg.codec.decodeGroup bytes with
      | none => return .error .serializationError
      | some group =>
          let memberKeys ← store (.list (reg.membershipPrefix groupName))
          let memberIds ← reg.readMemberIds memberKeys
          let group := { group with memberCount := .ofNat memberKeys.length, memberIds }
          store (.put key (reg.codec.encodeGroup group))
          return .ok ()

def deleteAllSteps : List String → Storing Bytes Unit
  | [] => return ()
  | key :: keys => do
      store (.delete key)
      deleteAllSteps keys

def deleteGroupSteps (groupName : String) : Storing Bytes (Except ProcessGroupError Unit) := do
  store (.delete (reg.groupKey groupName))
  deleteAllSteps (← store (.list (reg.membershipPrefix groupName)))
  deleteAllSteps (← store (.list (reg.messagePrefix groupName)))
  return .ok ()

def joinGroupSteps (groupName : String) (actorId : ActorId) (topics : List String) :
    Storing Bytes (Except ProcessGroupError Unit) := do
  if (← store (.get (reg.groupKey groupName))).isNone then
    return .error (.groupNotFound groupName)
  else
    let key := reg.membershipKey groupName actorId.asStr
    let found :=
      match ← store (.get key) with
      | some bytes => reg.codec.decodeMembership bytes
      | none => some
          { groupName, tenantId := reg.tenantId, actorId := actorId.asStr, nodeId := reg.nodeId,
            topics }
    match found with
    | none => return .error .serializationError
    | some membership =>
        let membership := { membership with
          topics := mergeTopics membership.topics topics
          joinCount := addI32 membership.joinCount 1 }
        store (.put key (reg.codec.encodeMembership membership))
        if membership.joinCount = 1 then reg.updateMemberCountSteps groupName else return .ok ()

def leaveGroupSteps (groupName : String) (actorId : ActorId) :
    Storing Bytes (Except ProcessGroupError Unit) := do
  let key := reg.membershipKey groupName actorId.asStr
  match ← store (.get key) with
  | none => return .error (.actorNotInGroup actorId.asStr groupName)
  | some bytes =>
      match reg.codec.decodeMembership bytes with
      | none => return .error .serializationError
      | some membership =>
          let wasRemoved := membership.joinCount = 1
          let membership :=
            { membership with joinCount := saturatingSubI32 membership.joinCount 1 }
          let written : Storing Bytes Unit :=
            if membership.joinCount = 0 then store (.delete key)
            else store (.put key (reg.codec.encodeMembership membership))
          written
          if wasRemoved then reg.updateMemberCountSteps groupName else return .ok ()

def callSteps (groupName : String) (call : MembershipCall) : Storing Bytes Bool :=
  match call with
  | .create => return (← reg.createGroupSteps groupName).isOk
  | .delete => return (← reg.deleteGroupSteps groupName).isOk
  | .join actorId topics => return (← reg.joinGroupSteps groupName actorId topics).isOk
  | .leave actorId => return (← reg.leaveGroupSteps groupName actorId).isOk

def on (nodeId : String) : ProcessGroupRegistry σ Bytes := { reg with nodeId }

def steps (groupName : String) (c : NodeCall) : Storing Bytes Bool :=
  (reg.on c.nodeId).callSteps groupName c.call

/-! ## Alone, a call does what the operation does -/

section Alone

open Interaction

variable {reg} {g : String} {s : σ}

theorem run_store (request : StoreRequest Bytes) :
    Interaction.run reg.storage.serve (store request) s = reg.storage.serve request s := rfl

theorem run_createGroupSteps :
    Interaction.run reg.storage.serve (reg.createGroupSteps g) s = reg.createGroup g s := by
  rw [createGroupSteps, createGroup, run_bind, run_store, reg.storage.serve_get]
  dsimp only
  split_ifs <;> rfl

theorem run_readMemberIds (keys : List String) :
    Interaction.run reg.storage.serve (reg.readMemberIds keys) s =
      (keys.filterMap fun key =>
        ((reg.storage.get s key).bind reg.codec.decodeMembership).map (·.actorId), s) := by
  induction keys with
  | nil => rfl
  | cons key keys ih =>
      rw [readMemberIds, run_bind, run_store, reg.storage.serve_get, run_bind, ih,
        List.filterMap_cons]
      dsimp only
      cases ((reg.storage.get s key).bind reg.codec.decodeMembership).map (·.actorId) <;> rfl

theorem run_updateMemberCountSteps :
    Interaction.run reg.storage.serve (reg.updateMemberCountSteps g) s =
      reg.updateMemberCount g s := by
  rw [updateMemberCountSteps, updateMemberCount, run_bind, run_store, reg.storage.serve_get]
  dsimp only
  cases reg.storage.get s (reg.groupKey g) with
  | none => rfl
  | some bytes =>
      dsimp only
      cases reg.codec.decodeGroup bytes with
      | none => rfl
      | some group =>
          dsimp only
          rw [run_bind, run_store, reg.storage.serve_list, run_bind, run_readMemberIds]
          rfl

theorem run_deleteAllSteps (keys : List String) :
    Interaction.run reg.storage.serve (deleteAllSteps keys) s =
      ((), reg.storage.deleteAll s keys) := by
  induction keys generalizing s with
  | nil => rfl
  | cons key keys ih =>
      rw [deleteAllSteps, run_bind, run_store]
      exact ih

theorem run_deleteGroupSteps :
    Interaction.run reg.storage.serve (reg.deleteGroupSteps g) s = reg.deleteGroup g s := by
  rw [deleteGroupSteps, deleteGroup, run_bind, run_store, run_bind, run_store, run_bind,
    run_deleteAllSteps, run_bind, run_store, run_bind, run_deleteAllSteps]
  rfl

theorem run_joinGroupSteps (a : ActorId) (topics : List String) :
    Interaction.run reg.storage.serve (reg.joinGroupSteps g a topics) s =
      reg.joinGroup g a topics s := by
  rw [joinGroupSteps, joinGroup, run_bind, run_store, reg.storage.serve_get]
  dsimp only
  split_ifs
  · rfl
  · rw [run_bind, run_store, reg.storage.serve_get]
    have hput : ∀ membership : GroupMembership,
        Interaction.run reg.storage.serve (do
          store (.put (reg.membershipKey g a.asStr) (reg.codec.encodeMembership membership))
          if membership.joinCount = 1 then reg.updateMemberCountSteps g else return .ok ()) s =
        let s := reg.storage.put s (reg.membershipKey g a.asStr)
          (reg.codec.encodeMembership membership)
        if membership.joinCount = 1 then reg.updateMemberCount g s else (.ok (), s) := by
      intro membership
      rw [run_bind, run_store, reg.storage.serve_put]
      dsimp only
      split_ifs
      · exact run_updateMemberCountSteps
      · rfl
    dsimp only
    cases reg.storage.get s (reg.membershipKey g a.asStr) with
    | none => exact hput _
    | some bytes =>
        dsimp only
        cases reg.codec.decodeMembership bytes with
        | none => rfl
        | some membership => exact hput _

theorem run_leaveGroupSteps (a : ActorId) :
    Interaction.run reg.storage.serve (reg.leaveGroupSteps g a) s = reg.leaveGroup g a s := by
  rw [leaveGroupSteps, leaveGroup, run_bind, run_store, reg.storage.serve_get]
  dsimp only
  cases reg.storage.get s (reg.membershipKey g a.asStr) with
  | none => rfl
  | some bytes =>
      dsimp only
      cases reg.codec.decodeMembership bytes with
      | none => rfl
      | some membership =>
          dsimp only
          rw [run_bind]
          split_ifs
          · exact run_updateMemberCountSteps
          · exact run_updateMemberCountSteps
          · rfl
          · rfl

theorem run_callSteps (call : MembershipCall) :
    Interaction.run reg.storage.serve (reg.callSteps g call) s =
      reg.call s (call.toGroupCall g) := by
  cases call with
  | create =>
      change Interaction.run _ (reg.createGroupSteps g >>= _) s = _
      rw [run_bind, run_createGroupSteps]
      rfl
  | delete =>
      change Interaction.run _ (reg.deleteGroupSteps g >>= _) s = _
      rw [run_bind, run_deleteGroupSteps]
      rfl
  | join a topics =>
      change Interaction.run _ (reg.joinGroupSteps g a topics >>= _) s = _
      rw [run_bind, run_joinGroupSteps]
      rfl
  | leave a =>
      change Interaction.run _ (reg.leaveGroupSteps g a >>= _) s = _
      rw [run_bind, run_leaveGroupSteps]
      rfl

theorem run_steps (c : NodeCall) : Interaction.run reg.storage.serve (reg.steps g c) s =
    (reg.on c.nodeId).call s (c.call.toGroupCall g) :=
  @run_callSteps σ Bytes (reg.on c.nodeId) g s c.call

end Alone

/-! ## A call that writes nothing has failed -/

section Unwritten

variable {reg} {g : String}

theorem unwritten_bind {α β : Type} {p : Storing Bytes α} {f : α → Storing Bytes β}
    {quiet : β → Prop} (h : p.Unwritten StoreRequest.writes fun a =>
      (f a).Unwritten StoreRequest.writes quiet) :
    (p >>= f).Unwritten StoreRequest.writes quiet := by
  change (p.bind f).Unwritten StoreRequest.writes quiet
  induction p with
  | done a => exact h
  | ask request next ih => exact h.imp_right fun hnext reply => ih reply (hnext reply)

theorem unwritten_store {request : StoreRequest Bytes} {quiet : request.Reply → Prop}
    (h : request.writes = true ∨ ∀ reply, quiet reply) :
    (store request).Unwritten StoreRequest.writes quiet := h

theorem unwritten_joinGroupSteps (a : ActorId) (topics : List String) :
    (reg.joinGroupSteps g a topics).Unwritten StoreRequest.writes (·.isOk = false) := by
  refine unwritten_bind (unwritten_store (.inr fun group => ?_))
  dsimp only
  split_ifs
  · rfl
  · refine unwritten_bind (unwritten_store (.inr fun found => ?_))
    split
    · rfl
    · exact unwritten_bind (unwritten_store (.inl rfl))

theorem unwritten_leaveGroupSteps (a : ActorId) :
    (reg.leaveGroupSteps g a).Unwritten StoreRequest.writes (·.isOk = false) := by
  refine unwritten_bind (unwritten_store (.inr fun found => ?_))
  dsimp only
  split
  · rfl
  · split
    · rfl
    · refine unwritten_bind ?_
      split_ifs <;> exact unwritten_store (.inl rfl)

theorem unwritten_callSteps (call : MembershipCall) :
    (reg.callSteps g call).Unwritten StoreRequest.writes (· = false) := by
  cases call with
  | create =>
      refine .inr fun found => ?_
      cases found with
      | none => exact .inl rfl
      | some bytes => rfl
  | delete => exact .inl rfl
  | join a topics => exact unwritten_bind (unwritten_joinGroupSteps a topics)
  | leave a => exact unwritten_bind (unwritten_leaveGroupSteps a)

end Unwritten

/-! ## What the calls leave -/

/-- The store holds no key of the group, or the group as counted. -/
def Pictures (g : String) (entry : Option (String → Int)) (s : σ) : Prop :=
  match entry with
  | none => ∀ key, reg.Owns g key → reg.storage.get s key = none
  | some count => reg.Counted g count s

/-- No join count is at its limit, and one more member can be counted. -/
structure HasRoom (g : String) (s : σ) : Prop where
  joinCount : ∀ t membership, (reg.storage.get s (reg.membershipKey g t)).bind
    reg.codec.decodeMembership = some membership → membership.joinCount < 2 ^ 31 - 1
  members : (reg.storage.list s (reg.membershipPrefix g)).length < 2 ^ 32 - 1

section Pictures

variable {reg} {g : String} {entry : Option (String → Int)} {s : σ}

/-- A call that succeeds is counted, and one that fails changes nothing. -/
theorem Pictures.call (h : reg.Pictures g entry s) (hroom : reg.HasRoom g s) (c : MembershipCall) :
    reg.Pictures g (if (reg.call s (c.toGroupCall g)).1 = true then
        JoinCounts.record (fun _ => entry) (c.toGroupCall g) g else entry)
      (reg.call s (c.toGroupCall g)).2 := by
  have hunchanged : (reg.call s (c.toGroupCall g)).1 = false ∧
      (reg.call s (c.toGroupCall g)).2 = s → reg.Pictures g
        (if (reg.call s (c.toGroupCall g)).1 = true then
          JoinCounts.record (fun _ => entry) (c.toGroupCall g) g else entry)
        (reg.call s (c.toGroupCall g)).2 := by
    rintro ⟨hfailed, hstore⟩
    rw [hfailed, hstore, if_neg Bool.false_ne_true]
    exact h
  have hcounted : ∀ entry', JoinCounts.record (fun _ => entry) (c.toGroupCall g) g = entry' →
      (reg.call s (c.toGroupCall g)).1 = true →
      reg.Pictures g entry' (reg.call s (c.toGroupCall g)).2 → reg.Pictures g
        (if (reg.call s (c.toGroupCall g)).1 = true then
          JoinCounts.record (fun _ => entry) (c.toGroupCall g) g else entry)
        (reg.call s (c.toGroupCall g)).2 := by
    intro entry' hrecord hok hpicture
    rwa [if_pos hok, hrecord]
  cases c with
  | create =>
      cases entry with
      | none =>
          obtain ⟨hok, hchange⟩ := createGroup_changes h
          exact hcounted (some fun _ => 0)
            (by rw [MembershipCall.toGroupCall, JoinCounts.record, Function.update_self]) hok
            (hchange.holds _ rfl).counted
      | some count =>
          obtain ⟨group, hget, -⟩ := h.group
          exact hunchanged (createGroup_exists (Option.isSome_of_mem hget))
  | delete =>
      exact hcounted none
        (by rw [MembershipCall.toGroupCall, JoinCounts.record, Function.update_self]) rfl
        (deleteGroup_changes.absent rfl)
  | join a topics =>
      cases entry with
      | none => exact hunchanged (joinGroup_absent (h _ owns_groupKey) a topics)
      | some count =>
          have hlimit : count a.asStr < 2 ^ 31 - 1 := by
            by_cases hpos : 0 < count a.asStr
            · obtain ⟨membership, hget, -, hcount⟩ := h.members.member a.asStr hpos
              rw [← hcount]
              refine hroom.joinCount a.asStr membership ?_
              rw [hget]
              exact reg.codec.decode_encodeMembership membership
            · omega
          obtain ⟨hok, -, hnext⟩ := joinGroup_counted topics h hlimit fun _ => hroom.members
          exact hcounted (some (Function.update count a.asStr (count a.asStr + 1)))
            (by rw [MembershipCall.toGroupCall, JoinCounts.record, Function.update_self]; rfl)
            hok hnext
  | leave a =>
      cases entry with
      | none => exact hunchanged (leaveGroup_absent (h _ owns_membershipKey))
      | some count =>
          by_cases hpos : 0 < count a.asStr
          · obtain ⟨hok, -, hnext⟩ := leaveGroup_counted h hpos
            exact hcounted (some (Function.update count a.asStr (count a.asStr - 1)))
              (by rw [MembershipCall.toGroupCall, JoinCounts.record, Function.update_self]; rfl)
              hok hnext
          · exact hunchanged (leaveGroup_absent (Option.not_isSome_iff_eq_none.mp
              fun hsome => hpos (h.members.only _ hsome)))

theorem counted_on {nodeId : String} {count : String → Int} :
    (reg.on nodeId).Counted g count s ↔ reg.Counted g count s :=
  ⟨fun h => ⟨h.group, ⟨h.members.member, h.members.only⟩, h.range⟩,
    fun h => ⟨h.group, ⟨h.members.member, h.members.only⟩, h.range⟩⟩

theorem pictures_on {nodeId : String} :
    (reg.on nodeId).Pictures g entry s ↔ reg.Pictures g entry s := by
  cases entry with
  | none => exact Iff.rfl
  | some count => exact counted_on

end Pictures

/-! ## Any interleaving -/

/-- The successful joins less the successful leaves of each actor since the group was created,
or none if it was deleted. -/
def countOf (g : String) (entry : Option (String → Int))
    (returned : List (Returned NodeCall Bool)) : Option (String → Int) :=
  returned.foldl (fun entry r => if r.value = true then
    JoinCounts.record (fun _ => entry) (r.call.call.toGroupCall g) g else entry) entry

def storedJoinCount (g t : String) (s : σ) : Int :=
  match (reg.storage.get s (reg.membershipKey g t)).bind reg.codec.decodeMembership with
  | some membership => membership.joinCount
  | none => 0

/-- The stored join counts are as counted, there are no other memberships, and the record has
their number. -/
def StoresCounts (g : String) (entry : Option (String → Int)) (s : σ) : Prop :=
  match entry with
  | none => reg.storedGroup g s = none ∧ ∀ t, reg.storage.get s (reg.membershipKey g t) = none
  | some count => (∀ t, reg.storedJoinCount g t s = count t) ∧
      (∀ t, (reg.storage.get s (reg.membershipKey g t)).isSome → 0 < count t) ∧
      ∃ group, reg.storedGroup g s = some group ∧
        group.memberCount.toNat = (reg.storage.list s (reg.membershipPrefix g)).length

section Interleaving

variable {reg} {g : String} {entry : Option (String → Int)} {s s' : σ}

theorem Pictures.storesCounts (h : reg.Pictures g entry s) : reg.StoresCounts g entry s := by
  cases entry with
  | none =>
      refine ⟨?_, fun t => h _ owns_membershipKey⟩
      rw [storedGroup, h _ owns_groupKey]
      rfl
  | some count =>
      refine ⟨fun t => ?_, h.members.only, ?_⟩
      · by_cases hpos : 0 < count t
        · obtain ⟨membership, hget, -, hcount⟩ := h.members.member t hpos
          rw [storedJoinCount, hget, Option.bind_some, reg.codec.decode_encodeMembership]
          exact hcount
        · have hnone : reg.storage.get s (reg.membershipKey g t) = none :=
            Option.not_isSome_iff_eq_none.mp fun hsome => hpos (h.members.only t hsome)
          have hzero := (h.range t).1
          rw [storedJoinCount, hnone]
          exact (Int.le_antisymm (Int.not_lt.mp hpos) hzero).symm
      · obtain ⟨group, hget, hlists⟩ := h.group
        obtain ⟨texts, hlist, hnodup, hmem⟩ := h.members.exists_list
        have hperm : group.memberIds.Perm texts :=
          (List.perm_ext_iff_of_nodup hlists.nodup hnodup).mpr fun t =>
            (hlists.mem t).trans (hmem t).symm
        refine ⟨group, ?_, ?_⟩
        · rw [storedGroup, hget]
          exact reg.codec.decode_encodeGroup group
        · rw [hlists.length, hperm.length_eq, hlist, List.length_map]

theorem Pictures.serial (h : reg.Pictures g entry s) {calls : List (Returned NodeCall Bool)}
    (hcalls : Callers.Serial (reg.steps g) reg.storage.serve (reg.HasRoom g) s calls s') :
    reg.Pictures g (countOf g entry calls) s' := by
  induction calls generalizing entry s with
  | nil =>
      cases hcalls
      exact h
  | cons r calls ih =>
      obtain ⟨hroom, hvalue, hrest⟩ := hcalls
      rw [run_steps] at hvalue hrest
      have hon : (reg.on r.call.nodeId).Pictures g entry s := pictures_on.mpr h
      have hnext := pictures_on.mp (hon.call ⟨hroom.joinCount, hroom.members⟩ r.call.call)
      rw [hvalue] at hnext
      exact ih hnext hrest

theorem countOf_filter {returned : List (Returned NodeCall Bool)}
    (h : ∀ r ∈ returned, r.wrote = false → r.value = false) :
    countOf g entry (returned.filter (·.wrote)) = countOf g entry returned := by
  induction returned generalizing entry with
  | nil => rfl
  | cons r returned ih =>
      obtain ⟨hr, hreturned⟩ := List.forall_mem_cons.mp h
      cases hwrote : r.wrote with
      | true =>
          rw [List.filter_cons_of_pos hwrote]
          exact ih hreturned
      | false =>
          rw [List.filter_cons_of_neg (by simp [hwrote]), ih hreturned]
          rw [countOf, countOf, List.foldl_cons, if_neg (by simp [hr hwrote])]

end Interleaving

/-- Once no call on the group is in progress, what is stored is what the calls count, if each
write came on current reads, apart from the writes of other calls, and found room. -/
theorem interleaved_counts_joins (g : String) {s : σ}
    (hs : ∀ key, reg.Owns g key → reg.storage.get s key = none) {κ : Type} [DecidableEq κ]
    {turns : List (Schedule κ NodeCall)}
    (hisolated : Along (Callers.step (reg.steps g) reg.storage.serve StoreRequest.writes)
      (Callers.Isolated StoreRequest.writes (reg.HasRoom g)) { server := s } turns)
    (hquiet : ∀ c, (run (Callers.step (reg.steps g) reg.storage.serve StoreRequest.writes)
      { server := s } turns).tasks c = none) :
    let last := run (Callers.step (reg.steps g) reg.storage.serve StoreRequest.writes)
      ({ server := s } : Callers _ σ κ NodeCall Bool) turns
    reg.StoresCounts g (countOf g none last.returned) last.server := by
  obtain ⟨hserial, hunwritten⟩ := Callers.run_serial
    (fun c : NodeCall => unwritten_callSteps c.call) reg.storage.serve_of_not_writes hisolated
    hquiet
  have hinit : reg.Pictures g none s := hs
  have hlast := (hinit.serial hserial).storesCounts
  rw [countOf_filter hunwritten] at hlast
  exact hlast

/-! ## Two joins at once -/

def createRoom : List (Schedule Bool NodeCall) :=
  [.start true ⟨"node-1", .create⟩, .advance true, .advance true]

/-- An actor joins on two nodes; both have read that it is no member before one of them has
written. -/
def joinTwice : List (Schedule Bool NodeCall) :=
  createRoom ++
    [.start true ⟨"node-1", .join worker []⟩, .start false ⟨"node-2", .join worker []⟩] ++
    List.replicate 2 (.advance true) ++ List.replicate 2 (.advance false) ++
    List.replicate 5 (.advance true) ++ List.replicate 5 (.advance false)

theorem interleaved_counts_joins_createRoom :
    let last := run (Callers.step (inMemory.steps "room") inMemory.storage.serve
      StoreRequest.writes) ({ server := ∅ } : Callers _ _ Bool NodeCall Bool) createRoom
    inMemory.StoresCounts "room" (countOf "room" none last.returned) last.server := by
  refine @interleaved_counts_joins _ _ inMemory "room" _ (fun _ _ => rfl) _ _ _ ?_ ?_
  · refine ⟨trivial, fun _ _ _ htask hrest hwrites => ?_, fun _ _ _ htask hrest hwrites => ?_,
      trivial⟩
    · cases htask
      cases hrest
      cases hwrites
    · cases htask
      refine ⟨rfl, ⟨nofun, by decide⟩, fun c task' htask' _ => ?_⟩
      cases c with
      | true => rfl
      | false => cases htask'
  · intro c
    cases c <;> rfl

/-- One of the joins is lost. -/
theorem not_interleaved_counts_joins : ¬∀ turns : List (Schedule Bool NodeCall),
    (∀ c, (run (Callers.step (inMemory.steps "room") inMemory.storage.serve StoreRequest.writes)
      { server := ∅ } turns).tasks c = none) →
    let last := run (Callers.step (inMemory.steps "room") inMemory.storage.serve
      StoreRequest.writes) ({ server := ∅ } : Callers _ _ Bool NodeCall Bool) turns
    inMemory.StoresCounts "room" (countOf "room" none last.returned) last.server := by
  intro h
  have hquiet : ∀ c, (run (Callers.step (inMemory.steps "room") inMemory.storage.serve
      StoreRequest.writes) { server := ∅ } joinTwice).tasks c = none := by
    intro c
    refine Option.isNone_iff_eq_none.mp ?_
    cases c <;> decide +kernel
  have hlast := h joinTwice hquiet
  have hcount : (countOf "room" none (run (Callers.step (inMemory.steps "room")
      inMemory.storage.serve StoreRequest.writes)
      ({ server := ∅ } : Callers _ _ Bool NodeCall Bool) joinTwice).returned).map
        (· worker.asStr) = some 2 := by decide +kernel
  have hstored : inMemory.storedJoinCount "room" worker.asStr (run (Callers.step
      (inMemory.steps "room") inMemory.storage.serve StoreRequest.writes)
      ({ server := ∅ } : Callers _ _ Bool NodeCall Bool) joinTwice).server = 1 := by decide +kernel
  obtain ⟨count, hsome, htwo⟩ := Option.map_eq_some_iff.mp hcount
  dsimp only at hlast
  rw [hsome] at hlast
  have hone := hlast.1 worker.asStr
  rw [hstored, htwo] at hone
  exact absurd hone (by decide)

end ProcessGroupRegistry

end PlexSpaces.Actors
