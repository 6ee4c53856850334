import PlexSpaces.Actors.GroupMembership
/-!
# Runs of the group registry

Each operation keeps the store a picture of the counted joins
(`Represents.step`), as long as no name in use continues another one.
-/

namespace PlexSpaces.Actors

open PlexSpaces.Lib

namespace ProcessGroupRegistry

variable {σ Bytes : Type} {reg : ProcessGroupRegistry σ Bytes}

/-! ## The keys of one group -/

section Keys

variable {g t t' key : String}

theorem toList_membershipKey :
    (reg.membershipKey g t).toList =
      (reg.groupKey g).toList ++ (":member:".toList ++ t.toList) := by
  simp [membershipKey, groupKey]

theorem toList_messageKey : (reg.messageKey g t).toList =
    (reg.groupKey g).toList ++ (":message:".toList ++ t.toList) := by
  simp [messageKey, groupKey]

theorem membershipKey_inj : reg.membershipKey g t = reg.membershipKey g t' ↔ t = t' := by
  simp [← String.toList_inj, toList_membershipKey]

theorem membershipKey_ne_groupKey : reg.membershipKey g t ≠ reg.groupKey g := by
  simp [← String.toList_inj.ne, toList_membershipKey]

theorem messageKey_ne_groupKey : reg.messageKey g t ≠ reg.groupKey g := by
  simp [← String.toList_inj.ne, toList_messageKey]

theorem messageKey_ne_membershipKey : reg.messageKey g t ≠ reg.membershipKey g t' := by
  simp [← String.toList_inj.ne, toList_messageKey, toList_membershipKey]

theorem owns_iff : reg.Owns g key ↔ key = reg.groupKey g ∨
    (reg.membershipPrefix g).toList <+: key.toList ∨
      (reg.messagePrefix g).toList <+: key.toList := by
  have hbegin : ∀ p : String, (∃ t, key = p ++ t) ↔ p.toList <+: key.toList := by
    intro p
    constructor
    · rintro ⟨t, rfl⟩
      exact ⟨t.toList, (String.toList_append ..).symm⟩
    · rintro ⟨rest, hrest⟩
      refine ⟨String.ofList rest, String.toList_inj.mp ?_⟩
      rw [String.toList_append, String.toList_ofList, hrest]
  exact or_congr_right (or_congr (hbegin _) (hbegin _))

theorem owns_groupKey : reg.Owns g (reg.groupKey g) := .inl rfl

theorem owns_membershipKey : reg.Owns g (reg.membershipKey g t) := .inr (.inl ⟨t, rfl⟩)

theorem owns_messageKey : reg.Owns g (reg.messageKey g t) := .inr (.inr ⟨t, rfl⟩)

end Keys

/-! ## One group -/

section Members

variable {g t : String} {count : String → Int} {n : Int} {s s' : σ}

theorem pos_update_iff (h : 0 < n ↔ 0 < count t) (t' : String) :
    0 < Function.update count t n t' ↔ 0 < count t' := by
  by_cases ht : t' = t
  · rw [ht, Function.update_self, h]
  · rw [Function.update_of_ne ht]

theorem Lists.congr {group : ProcessGroup} (h : Lists count group) {count' : String → Int}
    (hcount : ∀ t, 0 < count' t ↔ 0 < count t) : Lists count' group :=
  ⟨h.nodup, fun t => (h.mem t).trans (hcount t).symm, h.length⟩

theorem range_update (h : ∀ t, 0 ≤ count t ∧ count t < 2 ^ 31) (hn : 0 ≤ n ∧ n < 2 ^ 31)
    (t' : String) :
    0 ≤ Function.update count t n t' ∧ Function.update count t n t' < 2 ^ 31 := by
  by_cases ht : t' = t
  · rwa [ht, Function.update_self]
  · rw [Function.update_of_ne ht]
    exact h t'

theorem Proper.update (h : Proper count) (hn : 0 ≤ n ∧ n < 2 ^ 31)
    (hread : 0 < n → ∃ a, ActorId.fromCanonical t = .ok a ∧ a.asStr = t) :
    Proper (Function.update count t n) where
  range := range_update h.range hn
  readable := by
    intro t' hpos
    by_cases ht : t' = t
    · rw [ht, Function.update_self] at hpos
      exact ht ▸ hread hpos
    · rw [Function.update_of_ne ht] at hpos
      exact h.readable t' hpos

theorem HoldsMembers.congr (h : reg.HoldsMembers g count s)
    (hget : ∀ t, reg.storage.get s' (reg.membershipKey g t) =
      reg.storage.get s (reg.membershipKey g t)) : reg.HoldsMembers g count s' where
  member t ht := hget t ▸ h.member t ht
  only t ht := h.only t (hget t ▸ ht)

theorem Holds.congr (h : reg.Holds g count s)
    (hgroup : reg.storage.get s' (reg.groupKey g) = reg.storage.get s (reg.groupKey g))
    (hget : ∀ t, reg.storage.get s' (reg.membershipKey g t) =
      reg.storage.get s (reg.membershipKey g t)) : reg.Holds g count s' where
  group := hgroup ▸ h.group
  members := h.members.congr hget
  proper := h.proper

theorem HoldsMembers.put (h : reg.HoldsMembers g count s) {membership : GroupMembership}
    (hid : membership.actorId = t) (hcount : membership.joinCount = n) (hn : 0 < n) :
    reg.HoldsMembers g (Function.update count t n)
      (reg.storage.put s (reg.membershipKey g t) (reg.codec.encodeMembership membership)) where
  member := by
    intro t' hpos
    by_cases ht : t' = t
    · rw [ht, Function.update_self, reg.storage.get_put, if_pos rfl]
      exact ⟨membership, rfl, hid, hcount⟩
    · rw [Function.update_of_ne ht] at hpos ⊢
      rw [reg.storage.get_put, if_neg (mt membershipKey_inj.mp ht)]
      exact h.member t' hpos
  only := by
    intro t' hsome
    by_cases ht : t' = t
    · rwa [ht, Function.update_self]
    · rw [reg.storage.get_put, if_neg (mt membershipKey_inj.mp ht)] at hsome
      rw [Function.update_of_ne ht]
      exact h.only t' hsome

theorem HoldsMembers.delete (h : reg.HoldsMembers g count s) :
    reg.HoldsMembers g (Function.update count t 0)
      (reg.storage.delete s (reg.membershipKey g t)) where
  member := by
    intro t' hpos
    by_cases ht : t' = t
    · rw [ht, Function.update_self] at hpos
      exact absurd hpos (lt_irrefl 0)
    · rw [Function.update_of_ne ht] at hpos ⊢
      rw [reg.storage.get_delete, if_neg (mt membershipKey_inj.mp ht)]
      exact h.member t' hpos
  only := by
    intro t' hsome
    by_cases ht : t' = t
    · rw [ht, reg.storage.get_delete, if_pos rfl] at hsome
      cases hsome
    · rw [reg.storage.get_delete, if_neg (mt membershipKey_inj.mp ht)] at hsome
      rw [Function.update_of_ne ht]
      exact h.only t' hsome

theorem HoldsMembers.length_list_le (h : reg.HoldsMembers g count s) {ids : List String}
    (hids : ∀ t, 0 < count t → t ∈ ids) :
    (reg.storage.list s (reg.membershipPrefix g)).length ≤ ids.length := by
  obtain ⟨texts, hlist, hnodup, hmem⟩ := h.exists_list
  rw [hlist, List.length_map]
  exact (hnodup.subperm fun t ht => hids t ((hmem t).mp ht)).length_le

/-- Members that are new or gone: the record is written again, and the group is as counted. -/
theorem HoldsMembers.counted_updateMemberCount (hmembers : reg.HoldsMembers g count s)
    (hrange : ∀ t, 0 ≤ count t ∧ count t < 2 ^ 31) {group : ProcessGroup}
    (hgroup : reg.storage.get s (reg.groupKey g) = some (reg.codec.encodeGroup group))
    (hroom : (reg.storage.list s (reg.membershipPrefix g)).length < 2 ^ 32) :
    ∃ s', reg.updateMemberCount g s = (.ok (), s') ∧ reg.Counted g count s' ∧
      ∀ key, ¬reg.Owns g key → reg.storage.get s' key = reg.storage.get s key := by
  obtain ⟨group', hlists, heq⟩ := hmembers.updateMemberCount hgroup hroom
  refine ⟨_, heq, ⟨⟨group', ?_, hlists⟩, hmembers.congr fun t => ?_, hrange⟩, ?_⟩
  · rw [reg.storage.get_put, if_pos rfl]
  · rw [reg.storage.get_put, if_neg membershipKey_ne_groupKey]
  · intro key hkey
    rw [reg.storage.get_put, if_neg fun heq => hkey (.inl heq)]

end Members

/-! ## What an operation does to its group -/

/-- The keys of other groups are left as they are, and those of `g` are gone or hold the new
counts. -/
structure Changes (reg : ProcessGroupRegistry σ Bytes) (g : String)
    (entry : Option (String → Int)) (s s' : σ) : Prop where
  frame : ∀ key, ¬reg.Owns g key → reg.storage.get s' key = reg.storage.get s key
  absent : entry = none → ∀ key, reg.Owns g key → reg.storage.get s' key = none
  holds : ∀ count, entry = some count → reg.Holds g count s'

section Operations

variable {g t : String} {count : String → Int} {s : σ}

theorem createGroup_changes (h : ∀ key, reg.Owns g key → reg.storage.get s key = none) :
    (reg.createGroup g s).1.isOk = true ∧
      reg.Changes g (some fun _ => 0) s (reg.createGroup g s).2 := by
  have hgroup : reg.storage.get s (reg.groupKey g) = none := h _ owns_groupKey
  obtain ⟨group, heq, hlists⟩ : ∃ group, reg.createGroup g s =
      (.ok group, reg.storage.put s (reg.groupKey g) (reg.codec.encodeGroup group)) ∧
        Lists (fun _ => 0) group := by
    rw [createGroup, hgroup]
    exact ⟨_, rfl, List.nodup_nil,
      fun t => ⟨nofun, fun hpos => absurd hpos (lt_irrefl 0)⟩, rfl⟩
  rw [heq]
  refine ⟨rfl, fun key hkey => ?_, nofun, ?_⟩
  · rw [reg.storage.get_put, if_neg fun heq => hkey (.inl heq)]
  · rintro _ ⟨⟩
    refine ⟨⟨group, by rw [reg.storage.get_put, if_pos rfl], hlists⟩, ⟨?_, ?_⟩, ?_⟩
    · exact fun t hpos => absurd hpos (lt_irrefl 0)
    · intro t hsome
      rw [reg.storage.get_put, if_neg membershipKey_ne_groupKey, h _ owns_membershipKey] at hsome
      cases hsome
    · exact ⟨fun _ => ⟨le_rfl, by decide⟩, fun t hpos => absurd hpos (lt_irrefl 0)⟩

theorem createGroup_exists (h : (reg.storage.get s (reg.groupKey g)).isSome) :
    (reg.createGroup g s).1.isOk = false ∧ (reg.createGroup g s).2 = s := by
  rw [createGroup, if_pos h]
  exact ⟨rfl, rfl⟩

theorem get_deleteGroup (g : String) (s : σ) (key : String) :
    reg.storage.get (reg.deleteGroup g s).2 key =
      if (reg.messagePrefix g).toList <+: key.toList then none
      else if (reg.membershipPrefix g).toList <+: key.toList then none
      else if key = reg.groupKey g then none else reg.storage.get s key := by
  simp only [deleteGroup]
  rw [reg.storage.get_deleteAll_list, reg.storage.get_deleteAll_list, reg.storage.get_delete]

theorem deleteGroup_changes : reg.Changes g none s (reg.deleteGroup g s).2 := by
  refine ⟨fun key hkey => ?_, fun _ key hkey => ?_, nofun⟩
  · rw [owns_iff, not_or, not_or] at hkey
    rw [get_deleteGroup, if_neg hkey.2.2, if_neg hkey.2.1, if_neg hkey.1]
  · rw [get_deleteGroup]
    rcases owns_iff.mp hkey with rfl | hmember | hmessage
    · simp
    · simp [hmember]
    · simp [hmessage]

theorem publishToGroup_changes (h : reg.Holds g count s) (topic : Option String)
    (payload : List UInt8) (messageId : String) (publishedAt : Int) :
    reg.Changes g (some count) s
      (reg.publishToGroup g topic payload messageId publishedAt s).2 := by
  have hget : ∀ key, key ≠ reg.messageKey g messageId →
      reg.storage.get (reg.publishToGroup g topic payload messageId publishedAt s).2 key =
        reg.storage.get s key := by
    intro key hkey
    rw [publishToGroup]
    split_ifs
    · rfl
    · exact (reg.storage.get_put ..).trans (if_neg hkey)
  refine ⟨fun key hkey => hget key fun heq => hkey (heq ▸ owns_messageKey), nofun, ?_⟩
  rintro _ ⟨⟩
  exact h.congr (hget _ messageKey_ne_groupKey.symm) fun t =>
    hget _ messageKey_ne_membershipKey.symm

section Join

variable {a : ActorId} (topics : List String)

theorem joinGroup_of_none {b : Bytes} (hgroup : reg.storage.get s (reg.groupKey g) = some b)
    (hget : reg.storage.get s (reg.membershipKey g a.asStr) = none) :
    ∃ membership : GroupMembership, membership.actorId = a.asStr ∧ membership.joinCount = 1 ∧
      reg.joinGroup g a topics s = reg.updateMemberCount g (reg.storage.put s
        (reg.membershipKey g a.asStr) (reg.codec.encodeMembership membership)) := by
  simp only [joinGroup, hgroup, hget, Option.isNone_some, Bool.false_eq_true, if_false]
  exact ⟨_, rfl, rfl, rfl⟩

theorem joinGroup_of_some {b : Bytes} (hgroup : reg.storage.get s (reg.groupKey g) = some b)
    {membership : GroupMembership} (hget : reg.storage.get s (reg.membershipKey g a.asStr) =
      some (reg.codec.encodeMembership membership))
    (hjoin : addI32 membership.joinCount 1 ≠ 1) :
    ∃ membership' : GroupMembership, membership'.actorId = membership.actorId ∧
      membership'.joinCount = addI32 membership.joinCount 1 ∧
      reg.joinGroup g a topics s = (.ok (), reg.storage.put s (reg.membershipKey g a.asStr)
        (reg.codec.encodeMembership membership')) := by
  simp only [joinGroup, hgroup, hget, Option.isNone_some, Bool.false_eq_true, if_false,
    reg.codec.decode_encodeMembership, if_neg hjoin]
  exact ⟨{ membership with
    topics := mergeTopics membership.topics topics
    joinCount := addI32 membership.joinCount 1 }, rfl, rfl, rfl⟩

theorem joinGroup_counted (h : reg.Counted g count s) (hcount : count a.asStr < 2 ^ 31 - 1)
    (hroom : count a.asStr = 0 →
      (reg.storage.list s (reg.membershipPrefix g)).length < 2 ^ 32 - 1) :
    (reg.joinGroup g a topics s).1.isOk = true ∧
      (∀ key, ¬reg.Owns g key →
        reg.storage.get (reg.joinGroup g a topics s).2 key = reg.storage.get s key) ∧
      reg.Counted g (Function.update count a.asStr (count a.asStr + 1))
        (reg.joinGroup g a topics s).2 := by
  obtain ⟨group, hgroup, hlists⟩ := h.group
  have hrange := h.range a.asStr
  have hproper := range_update h.range (t := a.asStr) (n := count a.asStr + 1) (by omega)
  have hputGroup : ∀ b, reg.storage.get
      (reg.storage.put s (reg.membershipKey g a.asStr) b) (reg.groupKey g) =
        some (reg.codec.encodeGroup group) := by
    intro b
    rw [reg.storage.get_put, if_neg membershipKey_ne_groupKey.symm, hgroup]
  have hputFrame : ∀ b key, ¬reg.Owns g key → reg.storage.get
      (reg.storage.put s (reg.membershipKey g a.asStr) b) key = reg.storage.get s key := by
    intro b key hkey
    rw [reg.storage.get_put, if_neg fun heq => hkey (.inr (.inl ⟨_, heq⟩))]
  rcases hrange.1.eq_or_lt with hzero | hpos
  · -- a new member: the record is written again
    have habsent : reg.storage.get s (reg.membershipKey g a.asStr) = none := by
      rw [← Option.not_isSome_iff_eq_none]
      exact fun hsome => absurd (h.members.only _ hsome) (hzero ▸ lt_irrefl _)
    obtain ⟨membership, hid, hjoin, heq⟩ := joinGroup_of_none topics hgroup habsent
    have hone : membership.joinCount = count a.asStr + 1 := by omega
    have hmembers := h.members.put hid hone (by omega)
    have hlength : (reg.storage.list (reg.storage.put s (reg.membershipKey g a.asStr)
        (reg.codec.encodeMembership membership)) (reg.membershipPrefix g)).length < 2 ^ 32 := by
      obtain ⟨texts, hlist, -, hmem⟩ := h.members.exists_list
      have hbound := hroom hzero.symm
      rw [hlist, List.length_map] at hbound
      have hids : ∀ t, 0 < Function.update count a.asStr (count a.asStr + 1) t →
          t ∈ a.asStr :: texts := by
        intro t hpos
        by_cases ht : t = a.asStr
        · exact ht ▸ List.mem_cons_self
        · rw [Function.update_of_ne ht] at hpos
          exact List.mem_cons_of_mem _ ((hmem t).mpr hpos)
      have hle := hmembers.length_list_le hids
      rw [List.length_cons] at hle
      omega
    obtain ⟨s', hupdate, hcounted, hframe⟩ :=
      hmembers.counted_updateMemberCount hproper (hputGroup _) hlength
    rw [heq, hupdate]
    exact ⟨rfl, fun key hkey => (hframe key hkey).trans (hputFrame _ key hkey), hcounted⟩
  · obtain ⟨membership, hget, hid, hjoin⟩ := h.members.member a.asStr hpos
    have hadd : addI32 membership.joinCount 1 = count a.asStr + 1 := by
      rw [addI32, hjoin]
      exact Int.bmod_eq_of_le (by omega) (by omega)
    obtain ⟨membership', hid', hjoin', heq⟩ := joinGroup_of_some topics hgroup hget (by omega)
    rw [heq]
    refine ⟨rfl, hputFrame _,
      ⟨⟨group, hputGroup _, hlists.congr (pos_update_iff (by omega))⟩, ?_, hproper⟩⟩
    exact h.members.put (hid'.trans hid) (hjoin'.trans hadd) (by omega)

theorem joinGroup_changes (h : reg.Holds g count s)
    (hread : (ActorId.fromCanonical a.asStr).isOk = true) (hcount : count a.asStr < 2 ^ 31 - 1)
    (hroom : count a.asStr = 0 →
      (reg.storage.list s (reg.membershipPrefix g)).length < 2 ^ 32 - 1) :
    (reg.joinGroup g a topics s).1.isOk = true ∧
      reg.Changes g (some (Function.update count a.asStr (count a.asStr + 1))) s
        (reg.joinGroup g a topics s).2 := by
  have hrange := h.proper.range a.asStr
  have hproper : Proper (Function.update count a.asStr (count a.asStr + 1)) := by
    refine h.proper.update (by omega) fun _ => ?_
    cases hresult : ActorId.fromCanonical a.asStr with
    | ok b => exact ⟨b, rfl, ActorId.asStr_of_fromCanonical hresult⟩
    | error e => rw [hresult] at hread; cases hread
  obtain ⟨hok, hframe, hcounted⟩ := joinGroup_counted topics h.counted hcount hroom
  refine ⟨hok, hframe, nofun, ?_⟩
  rintro _ ⟨⟩
  exact hcounted.holds hproper

end Join

/-- The last leave takes the member away, and another one counts. -/
theorem leaveGroup_counted (h : reg.Counted g count s) {a : ActorId} (hcount : 0 < count a.asStr) :
    (reg.leaveGroup g a s).1.isOk = true ∧
      (∀ key, ¬reg.Owns g key →
        reg.storage.get (reg.leaveGroup g a s).2 key = reg.storage.get s key) ∧
      reg.Counted g (Function.update count a.asStr (count a.asStr - 1))
        (reg.leaveGroup g a s).2 := by
  obtain ⟨group, hgroup, hlists⟩ := h.group
  obtain ⟨membership, hget, hid, hjoin⟩ := h.members.member a.asStr hcount
  have hrange := h.range a.asStr
  have hproper := range_update h.range (t := a.asStr) (n := count a.asStr - 1) (by omega)
  have hsub : saturatingSubI32 membership.joinCount 1 = count a.asStr - 1 := by
    rw [saturatingSubI32, hjoin, min_eq_left (by omega), max_eq_right (by omega)]
  by_cases hone : membership.joinCount = 1
  · -- the membership is deleted, and the record written again
    have heq : reg.leaveGroup g a s =
        reg.updateMemberCount g (reg.storage.delete s (reg.membershipKey g a.asStr)) := by
      have hzero : saturatingSubI32 1 1 = 0 := by decide
      simp only [leaveGroup, hget, reg.codec.decode_encodeMembership, hone, if_true, hzero]
    have hnew : count a.asStr - 1 = 0 := by omega
    have hmembers : reg.HoldsMembers g (Function.update count a.asStr (count a.asStr - 1))
        (reg.storage.delete s (reg.membershipKey g a.asStr)) := hnew ▸ h.members.delete
    have hlength : (reg.storage.list (reg.storage.delete s (reg.membershipKey g a.asStr))
        (reg.membershipPrefix g)).length < 2 ^ 32 := by
      have hids : ∀ t, 0 < Function.update count a.asStr (count a.asStr - 1) t →
          t ∈ group.memberIds := by
        intro t hpos
        by_cases ht : t = a.asStr
        · exact (hlists.mem t).mpr (ht ▸ hcount)
        · rw [Function.update_of_ne ht] at hpos
          exact (hlists.mem t).mpr hpos
      have hle := hmembers.length_list_le hids
      have hsize := group.memberCount.toNat_lt
      rw [hlists.length] at hsize
      omega
    have hgroup' : reg.storage.get (reg.storage.delete s (reg.membershipKey g a.asStr))
        (reg.groupKey g) = some (reg.codec.encodeGroup group) := by
      rw [reg.storage.get_delete, if_neg membershipKey_ne_groupKey.symm, hgroup]
    obtain ⟨s', hupdate, hcounted, hframe⟩ :=
      hmembers.counted_updateMemberCount hproper hgroup' hlength
    rw [heq, hupdate]
    refine ⟨rfl, fun key hkey => (hframe key hkey).trans ?_, hcounted⟩
    rw [reg.storage.get_delete, if_neg fun heq => hkey (.inr (.inl ⟨_, heq⟩))]
  · have hne : saturatingSubI32 membership.joinCount 1 ≠ 0 := by omega
    have heq : reg.leaveGroup g a s = (.ok (), reg.storage.put s (reg.membershipKey g a.asStr)
        (reg.codec.encodeMembership
          { membership with joinCount := saturatingSubI32 membership.joinCount 1 })) := by
      simp only [leaveGroup, hget, reg.codec.decode_encodeMembership, if_neg hone, if_neg hne]
    rw [heq]
    refine ⟨rfl, fun key hkey => ?_,
      ⟨⟨group, ?_, hlists.congr (pos_update_iff (by omega))⟩, ?_, hproper⟩⟩
    · rw [reg.storage.get_put, if_neg fun heq => hkey (.inr (.inl ⟨_, heq⟩))]
    · rw [reg.storage.get_put, if_neg membershipKey_ne_groupKey.symm, hgroup]
    · exact h.members.put hid hsub (by omega)

theorem leaveGroup_changes (h : reg.Holds g count s) {a : ActorId} (hcount : 0 < count a.asStr) :
    (reg.leaveGroup g a s).1.isOk = true ∧
      reg.Changes g (some (Function.update count a.asStr (count a.asStr - 1))) s
        (reg.leaveGroup g a s).2 := by
  have hrange := h.proper.range a.asStr
  have hproper : Proper (Function.update count a.asStr (count a.asStr - 1)) :=
    h.proper.update (by omega) fun _ => h.proper.readable _ hcount
  obtain ⟨hok, hframe, hcounted⟩ := leaveGroup_counted h.counted hcount
  refine ⟨hok, hframe, nofun, ?_⟩
  rintro _ ⟨⟩
  exact hcounted.holds hproper

theorem leaveGroup_absent {a : ActorId}
    (h : reg.storage.get s (reg.membershipKey g a.asStr) = none) :
    (reg.leaveGroup g a s).1.isOk = false ∧ (reg.leaveGroup g a s).2 = s := by
  rw [leaveGroup, h]
  exact ⟨rfl, rfl⟩

/-- Nothing can be done with a group that is not there. -/
theorem joinGroup_absent (h : reg.storage.get s (reg.groupKey g) = none) (a : ActorId)
    (topics : List String) :
    (reg.joinGroup g a topics s).1.isOk = false ∧ (reg.joinGroup g a topics s).2 = s := by
  rw [joinGroup, h]
  exact ⟨rfl, rfl⟩

theorem publishToGroup_absent (h : reg.storage.get s (reg.groupKey g) = none)
    (topic : Option String) (payload : List UInt8) (messageId : String) (publishedAt : Int) :
    (reg.publishToGroup g topic payload messageId publishedAt s).2 = s := by
  rw [publishToGroup, h]
  rfl

end Operations

/-! ## All groups -/

section Represents

variable {names : String → Prop} {groups : Groups σ} {g : String}

theorem Owns.keyPrefix {key : String} (h : reg.Owns g key) :
    reg.keyPrefix.toList <+: key.toList := by
  obtain ⟨rest, htext, -⟩ := h.toList
  exact ⟨rest, htext.symm⟩

theorem Represents.init {s : σ}
    (h : ∀ key, reg.keyPrefix.toList <+: key.toList → reg.storage.get s key = none) :
    reg.Represents names { store := s } where
  named := nofun
  holds := nofun
  keys key hkey hsome := by
    rw [h key hkey] at hsome
    cases hsome

theorem Represents.absent (hnames : ∀ g g', names g → names g' → ¬Extends g g')
    (h : reg.Represents names groups) (hg : names g) (hcount : groups.counts g = none)
    {key : String} (hkey : reg.Owns g key) : reg.storage.get groups.store key = none := by
  rw [← Option.not_isSome_iff_eq_none]
  intro hsome
  obtain ⟨g', count, hcount', hkey'⟩ := h.keys key hkey.keyPrefix hsome
  have hg' := h.named g' count hcount'
  obtain rfl := eq_of_owns (hnames g g' hg hg') (hnames g' g hg' hg) hkey hkey'
  rw [hcount] at hcount'
  cases hcount'

/-- A change of one group keeps the picture of the others. -/
theorem Represents.update (hnames : ∀ g g', names g → names g' → ¬Extends g g')
    (h : reg.Represents names groups) (hg : names g) {groups' : Groups σ}
    {entry : Option (String → Int)}
    (hcounts : groups'.counts = Function.update groups.counts g entry)
    (hchange : reg.Changes g entry groups.store groups'.store) :
    reg.Represents names groups' where
  named := by
    intro g' count hcount
    by_cases heq : g' = g
    · exact heq ▸ hg
    · rw [hcounts, Function.update_of_ne heq] at hcount
      exact h.named g' count hcount
  holds := by
    intro g' count hcount
    by_cases heq : g' = g
    · rw [hcounts, heq, Function.update_self] at hcount
      exact heq ▸ hchange.holds count hcount
    · rw [hcounts, Function.update_of_ne heq] at hcount
      have hg' := h.named g' count hcount
      have hforeign : ∀ key, reg.Owns g' key →
          reg.storage.get groups'.store key = reg.storage.get groups.store key := fun key hkey =>
        hchange.frame key fun hown =>
          heq (eq_of_owns (hnames g' g hg' hg) (hnames g g' hg hg') hkey hown)
      exact (h.holds g' count hcount).congr (hforeign _ owns_groupKey) fun t =>
        hforeign _ owns_membershipKey
  keys := by
    intro key hkey hsome
    by_cases hown : reg.Owns g key
    · cases hentry : entry with
      | none =>
          rw [hchange.absent hentry key hown] at hsome
          cases hsome
      | some count =>
          exact ⟨g, count, by rw [hcounts, Function.update_self, hentry], hown⟩
    · rw [hchange.frame key hown] at hsome
      obtain ⟨g', count, hcount, hkey'⟩ := h.keys key hkey hsome
      have hne : g' ≠ g := fun heq => hown (heq ▸ hkey')
      exact ⟨g', count, by rw [hcounts, Function.update_of_ne hne, hcount], hkey'⟩

theorem Represents.step (hnames : ∀ g g', names g → names g' → ¬Extends g g')
    (h : reg.Represents names groups) {c : GroupCall} (hc : names c.groupName)
    (hjoin : reg.Joinable groups c) : reg.Represents names (reg.step groups c) := by
  have hunchanged : (reg.call groups.store c).1 = false →
      (reg.call groups.store c).2 = groups.store →
      reg.Represents names (reg.step groups c) := by
    intro hfailed hstore
    rw [ProcessGroupRegistry.step, hfailed, hstore]
    exact h
  have hupdate : ∀ entry, groups.counts.record c =
      Function.update groups.counts c.groupName entry → (reg.call groups.store c).1 = true →
      reg.Changes c.groupName entry groups.store (reg.call groups.store c).2 →
      reg.Represents names (reg.step groups c) := by
    intro entry hrecord hok hchange
    refine h.update hnames hc ?_ hchange
    rw [ProcessGroupRegistry.step, if_pos hok, hrecord]
  cases c with
  | create g =>
      cases hcount : groups.counts g with
      | none =>
          obtain ⟨hok, hchange⟩ := createGroup_changes fun key => h.absent hnames hc hcount
          exact hupdate _ rfl hok hchange
      | some count =>
          obtain ⟨group, hget, -⟩ := (h.holds g count hcount).group
          obtain ⟨hfailed, hstore⟩ := createGroup_exists (Option.isSome_of_mem hget)
          exact hunchanged hfailed hstore
  | delete g => exact hupdate _ rfl rfl deleteGroup_changes
  | join g a topics =>
      cases hcount : groups.counts g with
      | none =>
          obtain ⟨hfailed, hstore⟩ :=
            joinGroup_absent (h.absent hnames hc hcount owns_groupKey) a topics
          exact hunchanged hfailed hstore
      | some count =>
          obtain ⟨hread, hlimit, hroom⟩ := hjoin count hcount
          obtain ⟨hok, hchange⟩ :=
            joinGroup_changes topics (h.holds g count hcount) hread hlimit hroom
          exact hupdate _ (by rw [JoinCounts.record, hcount]; rfl) hok hchange
  | leave g a =>
      cases hcount : groups.counts g with
      | none =>
          obtain ⟨hfailed, hstore⟩ :=
            leaveGroup_absent (h.absent hnames hc hcount owns_membershipKey)
          exact hunchanged hfailed hstore
      | some count =>
          have hholds := h.holds g count hcount
          by_cases hpos : 0 < count a.asStr
          · obtain ⟨hok, hchange⟩ := leaveGroup_changes hholds hpos
            exact hupdate _ (by rw [JoinCounts.record, hcount]; rfl) hok hchange
          · obtain ⟨hfailed, hstore⟩ := leaveGroup_absent (Option.not_isSome_iff_eq_none.mp
              fun hsome => hpos (hholds.members.only _ hsome))
            exact hunchanged hfailed hstore
  | publish g topic payload messageId publishedAt =>
      have hrecord : (reg.step groups (.publish g topic payload messageId publishedAt)).counts =
          Function.update groups.counts g (groups.counts g) :=
        (ite_self _).trans (Function.update_eq_self ..).symm
      cases hcount : groups.counts g with
      | none =>
          have hstore := publishToGroup_absent (h.absent hnames hc hcount owns_groupKey) topic
            payload messageId publishedAt
          have hsame : reg.step groups (.publish g topic payload messageId publishedAt) = groups :=
            congrArg₂ Groups.mk hstore (ite_self _)
          exact hsame.symm ▸ h
      | some count =>
          refine h.update hnames hc hrecord ?_
          rw [hcount]
          exact publishToGroup_changes (h.holds g count hcount) topic payload messageId publishedAt

/-! ## Membership -/

theorem Represents.countsJoins (hnames : ∀ g g', names g → names g' → ¬Extends g g')
    (h : reg.Represents names groups) : reg.CountsJoins names groups := by
  intro g hg
  cases hcount : groups.counts g with
  | none =>
      have habsent := h.absent hnames hg hcount owns_groupKey
      refine ⟨?_, ?_⟩
      · rw [getMembers, habsent]
        rfl
      · rw [storedGroup, habsent]
        rfl
  | some count =>
      have hholds := h.holds g count hcount
      obtain ⟨members, hmembers, hnodup, hmem⟩ := hholds.getMembers
      obtain ⟨group, hget, hlists⟩ := hholds.group
      have hperm : group.memberIds.Perm (members.map (·.asStr)) :=
        (List.perm_ext_iff_of_nodup hlists.nodup hnodup).mpr fun t =>
          (hlists.mem t).trans (hmem t).symm
      refine ⟨members, hmembers, hnodup, fun a => hmem a.asStr, group, ?_, hperm, ?_⟩
      · rw [storedGroup, hget]
        exact reg.codec.decode_encodeGroup group
      · rw [hlists.length, hperm.length_eq, List.length_map]

theorem Represents.sameMembers (hnames : ∀ g g', names g → names g' → ¬Extends g g')
    (h : reg.Represents names groups) {groups' : Groups σ} (h' : reg.Represents names groups')
    (hg : names g) (hcounts : groups'.counts g = groups.counts g) :
    SameMembers (reg.getMembers g groups.store) (reg.getMembers g groups'.store) := by
  cases hcount : groups.counts g with
  | none =>
      rw [getMembers, getMembers, h.absent hnames hg hcount owns_groupKey,
        h'.absent hnames hg (hcounts.trans hcount) owns_groupKey]
      rfl
  | some count =>
      obtain ⟨members, hmembers, -, hmem⟩ := (h.holds g count hcount).getMembers
      obtain ⟨members', hmembers', -, hmem'⟩ := (h'.holds g count (hcounts.trans hcount)).getMembers
      rw [hmembers, hmembers']
      exact fun t => (hmem t).trans (hmem' t).symm

end Represents

theorem step_counts_of_ne {groups : Groups σ} {c : GroupCall} {g : String}
    (h : g ≠ c.groupName) : (reg.step groups c).counts g = groups.counts g := by
  rw [step]
  dsimp only
  split_ifs
  · cases c with
    | publish => rfl
    | _ => exact Function.update_of_ne h ..
  · rfl

/-- While no name in use continues another one and every join of a group that exists has an id
that is read back and finds room, the registry counts joins. -/
theorem membership_counts_joins (names : String → Prop)
    (hnames : ∀ g g', names g → names g' → ¬Extends g g') {s : σ}
    (hs : ∀ key, reg.keyPrefix.toList <+: key.toList → reg.storage.get s key = none)
    {calls : List GroupCall} (hcalls : ∀ c ∈ calls, names c.groupName)
    (hjoin : Along reg.step reg.Joinable { store := s } calls) :
    reg.CountsJoins names (run reg.step { store := s } calls) ∧
      Along reg.step (reg.LeavesOthers names) { store := s } calls := by
  have hinit : reg.Represents names { store := s } := .init hs
  have hgood : Along reg.step (fun groups c => names c.groupName ∧ reg.Joinable groups c)
      { store := s } calls := along_and.mpr ⟨along_of_forall hcalls _, hjoin⟩
  have hstep : ∀ groups c, reg.Represents names groups →
      names c.groupName ∧ reg.Joinable groups c → reg.Represents names (reg.step groups c) :=
    fun _ _ h hc => h.step hnames hc.1 hc.2
  refine ⟨(hgood.invariant hstep hinit).countsJoins hnames, ?_⟩
  refine hgood.of_invariant (fun groups c h hc => ⟨?_, hstep groups c h hc⟩) hinit
  exact fun g hg hne => h.sameMembers hnames (hstep groups c h hc) hg (step_counts_of_ne hne)

/-! ## A registry in memory -/

/-- The records as values of one type. -/
inductive StoredRecord where
  | group (group : ProcessGroup)
  | membership (membership : GroupMembership)
  | message (message : BroadcastMessage)

def recordCodec : Codec StoredRecord where
  encodeGroup := .group
  decodeGroup
    | .group group => some group
    | _ => none
  encodeMembership := .membership
  decodeMembership
    | .membership membership => some membership
    | _ => none
  broadcastText := .message
  decode_encodeGroup _ := rfl
  decode_encodeMembership _ := rfl

def inMemory : ProcessGroupRegistry (Assoc String StoredRecord) StoredRecord where
  storage := .ofAssoc
  codec := recordCodec
  nodeId := "node-1"
  tenantId := "t"
  nsName := "default"

theorem validateName_w : validateName "w" = .ok () := by decide +kernel

theorem validateRequired_default : validateRequired "namespace" "default" = .ok () := by
  decide +kernel

def worker : ActorId where
  canonical := "w//worker::default@node-1"
  name := "w"
  actorType := "worker"
  nsName := "default"
  nodeId := "node-1"
  name_valid := validateName_w
  actorType_valid := by decide +kernel
  nsName_valid := validateRequired_default
  nodeId_valid := by decide +kernel
  canonical_eq := by decide +kernel

def chatCalls : List GroupCall :=
  [.create "chat", .join "chat" worker [], .create "chats", .delete "chats"]

theorem membership_counts_joins_chat :
    inMemory.CountsJoins (fun g => g = "chat" ∨ g = "chats")
        (run inMemory.step { store := ∅ } chatCalls) ∧
      Along inMemory.step (inMemory.LeavesOthers fun g => g = "chat" ∨ g = "chats")
        { store := ∅ } chatCalls := by
  refine membership_counts_joins _ ?_ (fun _ _ => rfl) ?_ ?_
  · rintro _ _ (rfl | rfl) (rfl | rfl) <;> unfold Extends <;> decide +kernel
  · simp [chatCalls, GroupCall.groupName]
  · refine ⟨trivial, fun count hcount => ?_, trivial, trivial, trivial⟩
    have hok : (inMemory.call ∅ (.create "chat")).1 = true := by decide +kernel
    obtain rfl : count = fun _ => 0 := by
      simpa [step, hok, JoinCounts.record, eq_comm] using hcount
    exact ⟨by decide +kernel, by decide, fun _ => by decide +kernel⟩

def extendingCalls : List GroupCall := [.create "a", .create "a:member:x", .delete "a"]

/-- Deleting one group takes another one with it. -/
theorem not_membership_counts_joins :
    ¬∀ calls : List GroupCall,
      inMemory.CountsJoins (fun _ => True) (run inMemory.step { store := ∅ } calls) ∧
        Along inMemory.step (inMemory.LeavesOthers fun _ => True) { store := ∅ } calls := by
  intro h
  have hcounts := (h extendingCalls).1 "a:member:x" trivial
  have hcreated : ((run inMemory.step { store := ∅ } extendingCalls).counts
      "a:member:x").isSome = true := by decide +kernel
  have hgone : (inMemory.getMembers "a:member:x"
      (run inMemory.step { store := ∅ } extendingCalls).store).isOk = false := by decide +kernel
  split at hcounts
  · next hnone =>
      rw [hnone] at hcreated
      cases hcreated
  · obtain ⟨members, hmembers, -⟩ := hcounts
    rw [hmembers] at hgone
    cases hgone

end ProcessGroupRegistry

end PlexSpaces.Actors
