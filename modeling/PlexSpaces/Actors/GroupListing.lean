import PlexSpaces.Actors.JoinCounting
/-!
# Listing the groups

`list_groups` reads the names back from all keys of the tenant and passes over those
that look like memberships.  The keys of messages do not.  A name is shown when its
key is in the store and it does not contain `:member:` (`mem_listGroups`); each call
is told by the names that it shows or hides.
-/

namespace PlexSpaces.Actors

open PlexSpaces.Lib

/-- `str::strip_prefix`. -/
def stripPrefix (start text : String) : Option String :=
  if start.toList <+: text.toList then some (.ofList (text.toList.drop start.length)) else none

/-- `str::contains`. -/
def containsText (word text : String) : Bool := decide (word.toList <:+: text.toList)

theorem stripPrefix_append (start text : String) :
    stripPrefix start (start ++ text) = some text := by
  rw [stripPrefix, if_pos (by simp)]
  simp [← String.length_toList]

theorem eq_append_of_stripPrefix {start text rest : String}
    (h : stripPrefix start text = some rest) : text = start ++ rest := by
  rw [stripPrefix] at h
  split at h
  · next hprefix =>
      obtain ⟨t, ht⟩ := hprefix
      cases h
      rw [← String.toList_inj]
      simp [← ht, ← String.length_toList]
  · cases h

namespace ProcessGroupRegistry

variable {σ Bytes : Type} (reg : ProcessGroupRegistry σ Bytes)

def listGroups (s : σ) : List String :=
  (reg.storage.list s reg.keyPrefix).filterMap fun key =>
    (stripPrefix reg.keyPrefix key).filter fun groupName => !containsText ":member:" groupName

/-- The name is in the store, and does not look like that of a membership. -/
def Shown (s : σ) (name : String) : Prop :=
  (reg.storage.get s (reg.groupKey name)).isSome ∧ containsText ":member:" name = false

/-- The listing has every group that was created and not deleted since, and nothing else. -/
def ListsGroups (groups : Groups σ) : Prop :=
  (reg.listGroups groups.store).Nodup ∧
    ∀ name, name ∈ reg.listGroups groups.store ↔ (groups.counts name).isSome

section Shown

variable {reg} {s : σ} {name g t : String}

theorem groupKey_eq : reg.groupKey name = reg.keyPrefix ++ name := rfl

theorem mem_listGroups : name ∈ reg.listGroups s ↔ reg.Shown s name := by
  rw [listGroups, List.mem_filterMap, Shown, groupKey_eq]
  constructor
  · rintro ⟨key, hkey, hname⟩
    obtain ⟨hstrip, hmember⟩ := Option.filter_eq_some_iff.mp hname
    rw [← eq_append_of_stripPrefix hstrip]
    exact ⟨((reg.storage.mem_list s _ _).mp hkey).1, by simpa using hmember⟩
  · rintro ⟨hsome, hmember⟩
    refine ⟨reg.keyPrefix ++ name, (reg.storage.mem_list s _ _).mpr ⟨hsome, by simp⟩, ?_⟩
    rw [stripPrefix_append, Option.filter_eq_some_iff]
    exact ⟨rfl, by simpa using hmember⟩

theorem nodup_listGroups (s : σ) : (reg.listGroups s).Nodup := by
  refine (reg.storage.nodup_list s reg.keyPrefix).filterMap ?_
  intro key key' name hname hname'
  rw [eq_append_of_stripPrefix (Option.filter_eq_some_iff.mp hname).1,
    eq_append_of_stripPrefix (Option.filter_eq_some_iff.mp hname').1]

theorem containsText_member (g t : String) : containsText ":member:" (g ++ ":member:" ++ t) := by
  refine decide_eq_true ⟨g.toList, t.toList, ?_⟩
  simp

theorem membershipKey_eq : reg.membershipKey g t = reg.groupKey (g ++ ":member:" ++ t) := by
  simp [membershipKey, groupKey, String.append_assoc]

theorem messageKey_eq : reg.messageKey g t = reg.groupKey (g ++ ":message:" ++ t) := by
  simp [messageKey, groupKey, String.append_assoc]

theorem groupKey_inj {name' : String} : reg.groupKey name = reg.groupKey name' ↔ name = name' := by
  simp [groupKey, ← String.toList_inj]

/-! ## What the calls show and hide -/

theorem shown_put_groupKey (v : Bytes) :
    reg.Shown (reg.storage.put s (reg.groupKey g) v) name ↔
      (name = g ∧ containsText ":member:" g = false) ∨ reg.Shown s name := by
  simp only [Shown, reg.storage.get_put, groupKey_inj]
  by_cases hname : name = g
  · subst hname
    simp
  · simp [hname]

theorem shown_put_of_isSome (hsome : (reg.storage.get s (reg.groupKey g)).isSome) (v : Bytes) :
    reg.Shown (reg.storage.put s (reg.groupKey g) v) name ↔ reg.Shown s name := by
  rw [shown_put_groupKey]
  refine or_iff_right_of_imp ?_
  rintro ⟨rfl, hmember⟩
  exact ⟨hsome, hmember⟩

theorem shown_put_membershipKey (v : Bytes) :
    reg.Shown (reg.storage.put s (reg.membershipKey g t) v) name ↔ reg.Shown s name := by
  rw [membershipKey_eq, shown_put_groupKey, containsText_member]
  simp

theorem shown_delete_membershipKey :
    reg.Shown (reg.storage.delete s (reg.membershipKey g t)) name ↔ reg.Shown s name := by
  simp only [Shown, reg.storage.get_delete, membershipKey_eq, groupKey_inj]
  by_cases hname : name = g ++ ":member:" ++ t
  · rw [hname, containsText_member]
    simp
  · rw [if_neg hname]

theorem shown_updateMemberCount :
    reg.Shown (reg.updateMemberCount g s).2 name ↔ reg.Shown s name := by
  rw [updateMemberCount]
  cases hget : reg.storage.get s (reg.groupKey g) with
  | none => exact Iff.rfl
  | some bytes =>
      have hsome : (reg.storage.get s (reg.groupKey g)).isSome := Option.isSome_of_mem hget
      dsimp only
      split
      · exact Iff.rfl
      · exact shown_put_of_isSome hsome _

theorem shown_joinGroup (a : ActorId) (topics : List String) :
    reg.Shown (reg.joinGroup g a topics s).2 name ↔ reg.Shown s name := by
  rw [joinGroup]
  split
  · exact Iff.rfl
  · dsimp only
    split
    · exact Iff.rfl
    · split
      · exact shown_updateMemberCount.trans (shown_put_membershipKey _)
      · exact shown_put_membershipKey _

theorem shown_leaveGroup (a : ActorId) :
    reg.Shown (reg.leaveGroup g a s).2 name ↔ reg.Shown s name := by
  rw [leaveGroup]
  dsimp only
  split
  · exact Iff.rfl
  · split
    · exact Iff.rfl
    · next membership _ =>
        have hstore : reg.Shown
            (if saturatingSubI32 membership.joinCount 1 = 0 then
              reg.storage.delete s (reg.membershipKey g a.asStr)
            else reg.storage.put s (reg.membershipKey g a.asStr) (reg.codec.encodeMembership
              { membership with joinCount := saturatingSubI32 membership.joinCount 1 })) name ↔
            reg.Shown s name := by
          split
          · exact shown_delete_membershipKey
          · exact shown_put_membershipKey _
        split
        · exact shown_updateMemberCount.trans hstore
        · exact hstore

/-- A deletion hides the name of the group and all names that continue it with `:message:`. -/
theorem shown_deleteGroup :
    reg.Shown (reg.deleteGroup g s).2 name ↔
      reg.Shown s name ∧ name ≠ g ∧ ¬(g ++ ":message:").toList <+: name.toList := by
  have hmessage : (reg.messagePrefix g).toList <+: (reg.groupKey name).toList ↔
      (g ++ ":message:").toList <+: name.toList := by
    simp [messagePrefix, groupKey]
  have hmembership : (reg.membershipPrefix g).toList <+: (reg.groupKey name).toList →
      containsText ":member:" name := by
    intro hprefix
    have hname : g.toList ++ ":member:".toList <+: name.toList := by
      simpa [membershipPrefix, groupKey] using hprefix
    obtain ⟨rest, hrest⟩ := hname
    exact decide_eq_true ⟨g.toList, rest, hrest⟩
  rw [Shown, get_deleteGroup]
  by_cases hcontinues : (g ++ ":message:").toList <+: name.toList
  · rw [if_pos (hmessage.mpr hcontinues)]
    exact iff_of_false (by simp) fun h => h.2.2 hcontinues
  · rw [if_neg (mt hmessage.mp hcontinues)]
    by_cases hmember : (reg.membershipPrefix g).toList <+: (reg.groupKey name).toList
    · rw [if_pos hmember, Shown, hmembership hmember]
      simp
    · rw [if_neg hmember]
      simp only [groupKey_inj]
      by_cases hname : name = g
      · simp [hname]
      · rw [if_neg hname, ← Shown, and_iff_left ⟨hname, hcontinues⟩]

theorem shown_publishToGroup (topic : Option String) (payload : List UInt8) (messageId : String)
    (publishedAt : Int) :
    reg.Shown (reg.publishToGroup g topic payload messageId publishedAt s).2 name ↔
      ((reg.storage.get s (reg.groupKey g)).isSome ∧ name = g ++ ":message:" ++ messageId ∧
        containsText ":member:" (g ++ ":message:" ++ messageId) = false) ∨ reg.Shown s name := by
  rw [publishToGroup]
  cases hget : reg.storage.get s (reg.groupKey g) with
  | none => simp
  | some bytes =>
      simp only [Option.isNone_some, Bool.false_eq_true, if_false, messageKey_eq,
        Option.isSome_some, true_and]
      exact shown_put_groupKey _

theorem shown_createGroup :
    reg.Shown (reg.createGroup g s).2 name ↔
      (reg.storage.get s (reg.groupKey g) = none ∧ name = g ∧
        containsText ":member:" g = false) ∨ reg.Shown s name := by
  rw [createGroup]
  cases hget : reg.storage.get s (reg.groupKey g) with
  | none =>
      simp only [Option.isSome_none, Bool.false_eq_true, if_false, true_and]
      exact shown_put_groupKey _
  | some bytes => simp

end Shown

/-! ## Exact listings -/

/-- The call keeps the listing exact: a group is not created under a name like that of a
membership, none is deleted while the name of another one continues its name with
`:message:`, and what is published to a group shows no name. -/
def KeepsListing (groups : Groups σ) : GroupCall → Prop
  | .create g =>
      reg.storage.get groups.store (reg.groupKey g) = none → containsText ":member:" g = false
  | .delete g =>
      ∀ name, (groups.counts name).isSome → name ≠ g → ¬(g ++ ":message:").toList <+: name.toList
  | .join _ _ _ | .leave _ _ => True
  | .publish g _ _ messageId _ =>
      (reg.storage.get groups.store (reg.groupKey g)).isSome →
        containsText ":member:" (g ++ ":message:" ++ messageId) = false →
        (groups.counts (g ++ ":message:" ++ messageId)).isSome

section Exact

variable {reg} {groups : Groups σ}

theorem listsGroups_iff : reg.ListsGroups groups ↔
    ∀ name, reg.Shown groups.store name ↔ (groups.counts name).isSome := by
  rw [ListsGroups, and_iff_right (nodup_listGroups _)]
  simp only [mem_listGroups]

/-! ### Which groups exist -/

theorem counts_create {g name : String} :
    ((reg.step groups (.create g)).counts name).isSome ↔
      (reg.storage.get groups.store (reg.groupKey g) = none ∧ name = g) ∨
        (groups.counts name).isSome := by
  cases hget : reg.storage.get groups.store (reg.groupKey g) with
  | none =>
      have hok : (reg.call groups.store (.create g)).1 = true := by
        rw [call, createGroup, hget]
        rfl
      have hcounts : (reg.step groups (.create g)).counts =
          Function.update groups.counts g (some fun _ => 0) := if_pos hok
      rw [hcounts]
      by_cases hname : name = g
      · simp [hname]
      · rw [Function.update_of_ne hname]
        simp [hname]
  | some bytes =>
      have hfailed : ¬(reg.call groups.store (.create g)).1 = true := by
        rw [call, createGroup, hget]
        exact Bool.false_ne_true
      have hcounts : (reg.step groups (.create g)).counts = groups.counts := if_neg hfailed
      rw [hcounts]
      simp

theorem counts_delete {g name : String} :
    ((reg.step groups (.delete g)).counts name).isSome ↔
      (groups.counts name).isSome ∧ name ≠ g := by
  have hcounts : (reg.step groups (.delete g)).counts = Function.update groups.counts g none := rfl
  rw [hcounts]
  by_cases hname : name = g
  · simp [hname]
  · rw [Function.update_of_ne hname]
    simp [hname]

theorem counts_other {call : GroupCall} (hcall : ∀ g, call ≠ .create g ∧ call ≠ .delete g)
    {name : String} :
    ((reg.step groups call).counts name).isSome ↔ (groups.counts name).isSome := by
  have hmap {g : String} {f : (String → Int) → String → Int} :
      (Function.update groups.counts g ((groups.counts g).map f) name).isSome ↔
        (groups.counts name).isSome := by
    by_cases hname : name = g
    · rw [hname, Function.update_self, Option.isSome_map]
    · rw [Function.update_of_ne hname]
  rw [step]
  dsimp only
  split
  · cases call with
    | create g => exact absurd rfl (hcall g).1
    | delete g => exact absurd rfl (hcall g).2
    | join g a topics => exact hmap
    | leave g a => exact hmap
    | publish => exact Iff.rfl
  · exact Iff.rfl

/-- From an exact listing a call leads to one exactly if it keeps the listing. -/
theorem listsGroups_step_iff (h : reg.ListsGroups groups) (call : GroupCall) :
    reg.ListsGroups (reg.step groups call) ↔ reg.KeepsListing groups call := by
  rw [listsGroups_iff] at h ⊢
  cases call with
  | create g =>
      have hstore (name : String) : reg.Shown (reg.step groups (.create g)).store name ↔ _ :=
        shown_createGroup
      simp only [hstore, counts_create, KeepsListing, h]
      cases hget : reg.storage.get groups.store (reg.groupKey g) with
      | some bytes => simp
      | none =>
          have hfresh : (groups.counts g).isSome = false := by
            rw [← Bool.not_eq_true, ← h g, Shown, hget]
            simp
          refine ⟨fun hlists => ?_, fun hkeeps name => ?_⟩
          · have hg := (hlists g).mpr (.inl ⟨rfl, rfl⟩)
            rw [hfresh] at hg
            intro _
            simpa using hg
          · simp [hkeeps rfl]
  | delete g =>
      have hstore (name : String) : reg.Shown (reg.step groups (.delete g)).store name ↔ _ :=
        shown_deleteGroup
      simp only [hstore, counts_delete, KeepsListing, h]
      refine forall_congr' fun name => ?_
      tauto
  | join g a topics =>
      have hstore (name : String) : reg.Shown (reg.step groups (.join g a topics)).store name ↔ _ :=
        shown_joinGroup a topics
      refine iff_true_intro fun name => ?_
      rw [hstore, h, counts_other fun _ => ⟨GroupCall.noConfusion, GroupCall.noConfusion⟩]
  | leave g a =>
      have hstore (name : String) : reg.Shown (reg.step groups (.leave g a)).store name ↔ _ :=
        shown_leaveGroup a
      refine iff_true_intro fun name => ?_
      rw [hstore, h, counts_other fun _ => ⟨GroupCall.noConfusion, GroupCall.noConfusion⟩]
  | publish g topic payload messageId publishedAt =>
      have hstore (name : String) :
          reg.Shown (reg.step groups (.publish g topic payload messageId publishedAt)).store name ↔
            _ := shown_publishToGroup topic payload messageId publishedAt
      have hcounts (name : String) :
          ((reg.step groups (.publish g topic payload messageId publishedAt)).counts
            name).isSome ↔ (groups.counts name).isSome :=
        counts_other fun _ => ⟨GroupCall.noConfusion, GroupCall.noConfusion⟩
      simp only [hstore, h, hcounts, KeepsListing, or_iff_right_iff_imp]
      exact ⟨fun hlists hsome hvisible => hlists _ ⟨hsome, rfl, hvisible⟩,
        fun hkeeps name hname => hname.2.1 ▸ hkeeps hname.1 hname.2.2⟩

/-- After every beginning of a run from an empty registry the listing is exact, exactly if every
call of the run keeps it so. -/
theorem listsGroups_iff_along {s : σ}
    (hs : ∀ key, reg.keyPrefix.toList <+: key.toList → reg.storage.get s key = none)
    (calls : List GroupCall) :
    (∀ earlier, earlier <+: calls → reg.ListsGroups (run reg.step { store := s } earlier)) ↔
      Along reg.step reg.KeepsListing { store := s } calls := by
  have hempty : reg.ListsGroups { store := s } := by
    rw [listsGroups_iff]
    intro name
    have habsent := hs (reg.groupKey name) (by simp [groupKey_eq])
    rw [Shown, habsent]
    simp
  refine forall_prefix_iff_along (I := fun _ => True) (fun _ _ _ _ _ => trivial) ?_ trivial hempty
    calls
  exact fun _ call _ h => listsGroups_step_iff h call

end Exact

theorem listsGroups_iff_along_chat :
    (∀ earlier, earlier <+: chatCalls →
        inMemory.ListsGroups (run inMemory.step { store := ∅ } earlier)) ↔
      Along inMemory.step inMemory.KeepsListing { store := ∅ } chatCalls :=
  listsGroups_iff_along (fun _ _ => rfl) chatCalls

def newsCalls : List GroupCall := [.create "news", .publish "news" none [] "m1" 0]

/-- A message that was published is listed as a group. -/
theorem not_listsGroups :
    ¬∀ calls : List GroupCall, inMemory.ListsGroups (run inMemory.step { store := ∅ } calls) := by
  intro h
  have hlisted : "news:message:m1" ∈
      inMemory.listGroups (run inMemory.step { store := ∅ } newsCalls).store := by decide +kernel
  have hexists := ((h newsCalls).2 "news:message:m1").mp hlisted
  exact absurd hexists (by decide +kernel)

end ProcessGroupRegistry

end PlexSpaces.Actors
