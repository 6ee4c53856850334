import PlexSpaces.Actors.JoinCounting
import Mathlib.Data.Fintype.EquivFin
/-!
# Topics of an actor that joins several times

`TopicLog` runs the registry beside the topic lists of the successful joins of one
actor to one group since it last left for good.  The record of its membership holds the
union of these lists (`Subscribed`), and that union is empty both when no join named
a topic and when none was made.
-/

namespace PlexSpaces.Actors

open PlexSpaces.Lib

namespace ProcessGroupRegistry

variable {σ Bytes : Type} (reg : ProcessGroupRegistry σ Bytes)

/-- The registry, and the topic lists of the joins since the last full leave. -/
structure TopicLog (σ : Type) where
  store : σ
  joins : List (List String) := []

section Log

variable (g : String) (a : ActorId)

/-- The joins of `a` to `g` that count after a call, which succeeded or not and led to the
store `s`. -/
def recordTopics (joins : List (List String)) (ok : Bool) (s : σ) : GroupCall → List (List String)
  | .join g' a' topics => if ok ∧ g' = g ∧ a'.asStr = a.asStr then joins ++ [topics] else joins
  | .leave g' a' =>
      if ok ∧ g' = g ∧ a'.asStr = a.asStr ∧
        (reg.storage.get s (reg.membershipKey g a.asStr)).isNone then [] else joins
  | .delete g' => if g' = g then [] else joins
  | .create _ | .publish _ _ _ _ _ => joins

def topicStep (log : TopicLog σ) (c : GroupCall) : TopicLog σ where
  store := (reg.call log.store c).2
  joins := reg.recordTopics g a log.joins (reg.call log.store c).1 (reg.call log.store c).2 c

def Selected (topic : String) (s : σ) : Prop :=
  ∀ payload messageId publishedAt, ∃ recipients,
    (reg.publishToGroup g (some topic) payload messageId publishedAt s).1 = .ok recipients ∧
      a.asStr ∈ recipients.map (·.asStr)

end Log

/-! ## Keys that a call touches -/

def Touches : GroupCall → String → Prop
  | .create g, key => key = reg.groupKey g
  | .delete g, key =>
      key = reg.groupKey g ∨ (reg.membershipPrefix g).toList <+: key.toList ∨
        (reg.messagePrefix g).toList <+: key.toList
  | .join g a _, key | .leave g a, key =>
      key = reg.groupKey g ∨ key = reg.membershipKey g a.asStr
  | .publish g _ _ messageId _, key => key = reg.messageKey g messageId

/-- A call of another group touches neither the record nor the memberships of `g`. -/
def Apart (g : String) (c : GroupCall) : Prop :=
  c.groupName = g ∨
    ¬reg.Touches c (reg.groupKey g) ∧ ∀ t, ¬reg.Touches c (reg.membershipKey g t)

/-- The store after a leave has counted down the membership `m` under the text `t`. -/
def countDown (g t : String) (m : GroupMembership) (s : σ) : σ :=
  if saturatingSubI32 m.joinCount 1 = 0 then reg.storage.delete s (reg.membershipKey g t)
  else reg.storage.put s (reg.membershipKey g t) (reg.codec.encodeMembership
    { m with joinCount := saturatingSubI32 m.joinCount 1 })

section Touches

variable {reg} {g key : String} {s : σ}

theorem get_countDown {t : String} (m : GroupMembership) (hkey : key ≠ reg.membershipKey g t) :
    reg.storage.get (reg.countDown g t m s) key = reg.storage.get s key := by
  rw [countDown]
  split
  · exact (reg.storage.get_delete ..).trans (if_neg hkey)
  · exact (reg.storage.get_put ..).trans (if_neg hkey)

theorem leaveGroup_of_some {b : ActorId} {bytes : Bytes} {m : GroupMembership}
    (hget : reg.storage.get s (reg.membershipKey g b.asStr) = some bytes)
    (hdecode : reg.codec.decodeMembership bytes = some m) :
    reg.leaveGroup g b s =
      if m.joinCount = 1 then reg.updateMemberCount g (reg.countDown g b.asStr m s)
      else (.ok (), reg.countDown g b.asStr m s) := by
  simp only [leaveGroup, hget, hdecode, countDown]

theorem get_updateMemberCount (hkey : key ≠ reg.groupKey g) :
    reg.storage.get (reg.updateMemberCount g s).2 key = reg.storage.get s key := by
  rw [updateMemberCount]
  split
  · rfl
  · split
    · rfl
    · exact (reg.storage.get_put ..).trans (if_neg hkey)

theorem get_call_of_not_touches {c : GroupCall} (h : ¬reg.Touches c key) :
    reg.storage.get (reg.call s c).2 key = reg.storage.get s key := by
  cases c with
  | create g =>
      change reg.storage.get (reg.createGroup g s).2 key = _
      rw [createGroup]
      dsimp only
      split
      · rfl
      · exact (reg.storage.get_put ..).trans (if_neg h)
  | delete g =>
      have hnot := not_or.mp h
      have hprefix := not_or.mp hnot.2
      change reg.storage.get (reg.deleteGroup g s).2 key = _
      rw [get_deleteGroup, if_neg hprefix.2, if_neg hprefix.1, if_neg hnot.1]
  | join g a topics =>
      have hnot := not_or.mp h
      change reg.storage.get (reg.joinGroup g a topics s).2 key = _
      rw [joinGroup]
      split
      · rfl
      · dsimp only
        split
        · rfl
        · have hput (v : Bytes) :
              reg.storage.get (reg.storage.put s (reg.membershipKey g a.asStr) v) key =
                reg.storage.get s key := (reg.storage.get_put ..).trans (if_neg hnot.2)
          split
          · exact (get_updateMemberCount hnot.1).trans (hput _)
          · exact hput _
  | leave g a =>
      have hnot := not_or.mp h
      change reg.storage.get (reg.leaveGroup g a s).2 key = _
      cases hget : reg.storage.get s (reg.membershipKey g a.asStr) with
      | none => rw [(leaveGroup_absent hget).2]
      | some bytes =>
          cases hdecode : reg.codec.decodeMembership bytes with
          | none => simp only [leaveGroup, hget, hdecode]
          | some m =>
              rw [leaveGroup_of_some hget hdecode]
              split
              · exact (get_updateMemberCount hnot.1).trans (get_countDown m hnot.2)
              · exact get_countDown m hnot.2
  | publish g topic payload messageId publishedAt =>
      change reg.storage.get (reg.publishToGroup g topic payload messageId publishedAt s).2 key = _
      rw [publishToGroup]
      split
      · rfl
      · exact (reg.storage.get_put ..).trans (if_neg h)

end Touches

/-! ## The membership holds the union -/

/-- The record of `g` and its memberships can be read, and that of `a` has the topics of the
joins that count. -/
structure Subscribed (g : String) (a : ActorId) (joins : List (List String)) (s : σ) : Prop where
  group : ∀ bytes, reg.storage.get s (reg.groupKey g) = some bytes →
    ∃ group, reg.codec.decodeGroup bytes = some group
  members : ∀ t bytes, reg.storage.get s (reg.membershipKey g t) = some bytes →
    (reg.storage.get s (reg.groupKey g)).isSome ∧
      ∃ (b : ActorId) (m : GroupMembership), b.asStr = t ∧
        bytes = reg.codec.encodeMembership m ∧ m.actorId = t
  absent : joins = [] → reg.storage.get s (reg.membershipKey g a.asStr) = none
  topics : joins ≠ [] → ∃ m : GroupMembership,
    reg.storage.get s (reg.membershipKey g a.asStr) = some (reg.codec.encodeMembership m) ∧
      ∀ topic, topic ∈ m.topics ↔ ∃ topics ∈ joins, topic ∈ topics

theorem encodeMembership_inj {m m' : GroupMembership}
    (h : reg.codec.encodeMembership m = reg.codec.encodeMembership m') : m = m' := by
  have hdecode := congrArg reg.codec.decodeMembership h
  rwa [reg.codec.decode_encodeMembership, reg.codec.decode_encodeMembership,
    Option.some.injEq] at hdecode

section Subscribed

variable {reg} {g : String} {a b : ActorId} {joins : List (List String)} {s s' : σ}

theorem Subscribed.congr (h : reg.Subscribed g a joins s)
    (hgroup : reg.storage.get s' (reg.groupKey g) = reg.storage.get s (reg.groupKey g))
    (hmembers : ∀ t, reg.storage.get s' (reg.membershipKey g t) =
      reg.storage.get s (reg.membershipKey g t)) : reg.Subscribed g a joins s' where
  group := hgroup ▸ h.group
  members := by
    intro t bytes hget
    rw [hmembers] at hget
    rw [hgroup]
    exact h.members t bytes hget
  absent hjoins := (hmembers _).trans (h.absent hjoins)
  topics hjoins := hmembers a.asStr ▸ h.topics hjoins

theorem Subscribed.putGroup (h : reg.Subscribed g a joins s) (group : ProcessGroup) :
    reg.Subscribed g a joins
      (reg.storage.put s (reg.groupKey g) (reg.codec.encodeGroup group)) where
  group := by
    intro bytes hget
    rw [reg.storage.get_put, if_pos rfl] at hget
    cases hget
    exact ⟨group, reg.codec.decode_encodeGroup group⟩
  members := by
    intro t bytes hget
    rw [reg.storage.get_put, if_neg membershipKey_ne_groupKey] at hget
    refine ⟨?_, (h.members t bytes hget).2⟩
    rw [reg.storage.get_put, if_pos rfl]
    rfl
  absent hjoins := by
    rw [reg.storage.get_put, if_neg membershipKey_ne_groupKey]
    exact h.absent hjoins
  topics hjoins := by
    rw [reg.storage.get_put, if_neg membershipKey_ne_groupKey]
    exact h.topics hjoins

theorem Subscribed.updateMemberCount (h : reg.Subscribed g a joins s)
    (hsome : (reg.storage.get s (reg.groupKey g)).isSome) :
    ∃ group, reg.updateMemberCount g s =
      (.ok (), reg.storage.put s (reg.groupKey g) (reg.codec.encodeGroup group)) := by
  obtain ⟨bytes, hget⟩ := Option.isSome_iff_exists.mp hsome
  obtain ⟨group, hdecode⟩ := h.group bytes hget
  rw [ProcessGroupRegistry.updateMemberCount, hget]
  dsimp only
  rw [hdecode]
  exact ⟨_, rfl⟩

theorem Subscribed.putMember (h : reg.Subscribed g a joins s)
    (hsome : (reg.storage.get s (reg.groupKey g)).isSome) {m : GroupMembership}
    (hid : m.actorId = b.asStr) {joins' : List (List String)}
    (hother : b.asStr ≠ a.asStr → joins' = joins)
    (hself : b.asStr = a.asStr → joins' ≠ [] ∧
      ∀ topic, topic ∈ m.topics ↔ ∃ topics ∈ joins', topic ∈ topics) :
    reg.Subscribed g a joins'
      (reg.storage.put s (reg.membershipKey g b.asStr) (reg.codec.encodeMembership m)) where
  group := by
    rw [reg.storage.get_put, if_neg membershipKey_ne_groupKey.symm]
    exact h.group
  members := by
    intro t bytes hget
    rw [reg.storage.get_put, if_neg membershipKey_ne_groupKey.symm]
    refine ⟨hsome, ?_⟩
    by_cases ht : t = b.asStr
    · rw [ht, reg.storage.get_put, if_pos rfl] at hget
      cases hget
      exact ⟨b, m, ht.symm, rfl, ht ▸ hid⟩
    · rw [reg.storage.get_put, if_neg (mt membershipKey_inj.mp ht)] at hget
      exact (h.members t bytes hget).2
  absent hjoins := by
    by_cases hactor : b.asStr = a.asStr
    · exact absurd hjoins (hself hactor).1
    · rw [reg.storage.get_put, if_neg fun heq => hactor (membershipKey_inj.mp heq).symm]
      exact h.absent ((hother hactor).symm.trans hjoins)
  topics hjoins := by
    by_cases hactor : b.asStr = a.asStr
    · rw [hactor, reg.storage.get_put, if_pos rfl]
      exact ⟨m, rfl, (hself hactor).2⟩
    · rw [reg.storage.get_put, if_neg fun heq => hactor (membershipKey_inj.mp heq).symm]
      rw [hother hactor] at hjoins ⊢
      exact h.topics hjoins

theorem Subscribed.deleteMember (h : reg.Subscribed g a joins s) {joins' : List (List String)}
    (hother : b.asStr ≠ a.asStr → joins' = joins) (hself : b.asStr = a.asStr → joins' = []) :
    reg.Subscribed g a joins' (reg.storage.delete s (reg.membershipKey g b.asStr)) where
  group := by
    rw [reg.storage.get_delete, if_neg membershipKey_ne_groupKey.symm]
    exact h.group
  members := by
    intro t bytes hget
    rw [reg.storage.get_delete] at hget
    split at hget
    · cases hget
    · rw [reg.storage.get_delete, if_neg membershipKey_ne_groupKey.symm]
      exact h.members t bytes hget
  absent hjoins := by
    rw [reg.storage.get_delete]
    split
    · rfl
    · next hne =>
        have hactor : b.asStr ≠ a.asStr := fun heq => hne (membershipKey_inj.mpr heq.symm)
        exact h.absent ((hother hactor).symm.trans hjoins)
  topics hjoins := by
    have hactor : b.asStr ≠ a.asStr := fun heq => hjoins (hself heq)
    rw [reg.storage.get_delete, if_neg fun heq => hactor (membershipKey_inj.mp heq).symm]
    rw [hother hactor] at hjoins ⊢
    exact h.topics hjoins

/-! ### Joins -/

theorem mem_mergeTopics {existing topics : List String} {topic : String} :
    topic ∈ mergeTopics existing topics ↔ topic ∈ existing ∨ topic ∈ topics := by
  rw [mergeTopics]
  split
  · next hempty => simp [List.isEmpty_iff.mp hempty]
  · rw [List.mem_dedup, List.mem_append]

theorem isSome_group_put {b : Bytes} {t : String}
    (hsome : (reg.storage.get s (reg.groupKey g)).isSome) :
    (reg.storage.get (reg.storage.put s (reg.membershipKey g t) b) (reg.groupKey g)).isSome := by
  rwa [reg.storage.get_put, if_neg membershipKey_ne_groupKey.symm]

/-- The membership that a join goes on with: it belongs to the actor, and has the topics of its
joins so far, or those of a first join. -/
theorem Subscribed.found (h : reg.Subscribed g a joins s) (topics : List String) :
    ∃ m : GroupMembership, m.actorId = b.asStr ∧
      (reg.storage.get s (reg.membershipKey g b.asStr) = none ∧
          m = { groupName := g, tenantId := reg.tenantId, actorId := b.asStr, nodeId := reg.nodeId,
                topics } ∨
        reg.storage.get s (reg.membershipKey g b.asStr) = some (reg.codec.encodeMembership m)) ∧
      (b.asStr = a.asStr → ∀ topic, topic ∈ mergeTopics m.topics topics ↔
        ∃ l ∈ joins ++ [topics], topic ∈ l) := by
  cases hget : reg.storage.get s (reg.membershipKey g b.asStr) with
  | none =>
      refine ⟨_, rfl, .inl ⟨rfl, rfl⟩, fun hactor topic => ?_⟩
      have hjoins : joins = [] := by
        by_contra hne
        obtain ⟨m, hm, -⟩ := h.topics hne
        rw [← hactor, hget] at hm
        cases hm
      simp [mem_mergeTopics, hjoins]
  | some bytes =>
      obtain ⟨-, b', m, -, rfl, hid⟩ := h.members _ bytes hget
      refine ⟨m, hid, .inr rfl, fun hactor topic => ?_⟩
      have hne : joins ≠ [] := by
        intro hjoins
        have habsent := h.absent hjoins
        rw [← hactor, hget] at habsent
        cases habsent
      obtain ⟨m', hm', htopics⟩ := h.topics hne
      rw [← hactor, hget, Option.some.injEq] at hm'
      obtain rfl := reg.encodeMembership_inj hm'
      rw [mem_mergeTopics, htopics]
      simp only [List.mem_append, List.mem_singleton, or_and_right, exists_or, exists_eq_left]

theorem Subscribed.join (h : reg.Subscribed g a joins s) (b : ActorId) (topics : List String) :
    reg.Subscribed g a
      (reg.recordTopics g a joins (reg.joinGroup g b topics s).1.isOk
        (reg.joinGroup g b topics s).2 (.join g b topics))
      (reg.joinGroup g b topics s).2 := by
  cases hgroup : reg.storage.get s (reg.groupKey g) with
  | none =>
      obtain ⟨hfailed, hstore⟩ := joinGroup_absent hgroup b topics
      rw [hfailed, hstore]
      exact h
  | some bytes =>
      have hsome : (reg.storage.get s (reg.groupKey g)).isSome := Option.isSome_of_mem hgroup
      obtain ⟨m, hid, hfound, htopics⟩ := h.found (b := b) topics
      let m' : GroupMembership :=
        { m with topics := mergeTopics m.topics topics, joinCount := addI32 m.joinCount 1 }
      let joins' := if b.asStr = a.asStr then joins ++ [topics] else joins
      have hput : reg.Subscribed g a joins'
          (reg.storage.put s (reg.membershipKey g b.asStr) (reg.codec.encodeMembership m')) := by
        refine h.putMember (m := m') hsome hid (fun hactor => if_neg hactor) fun hactor => ?_
        have hjoins : joins' = joins ++ [topics] := if_pos hactor
        rw [hjoins]
        exact ⟨List.concat_ne_nil _ _, htopics hactor⟩
      have hjoin : reg.joinGroup g b topics s =
          if addI32 m.joinCount 1 = 1 then
            reg.updateMemberCount g
              (reg.storage.put s (reg.membershipKey g b.asStr) (reg.codec.encodeMembership m'))
          else (.ok (), reg.storage.put s (reg.membershipKey g b.asStr)
            (reg.codec.encodeMembership m')) := by
        rcases hfound with ⟨hget, rfl⟩ | hget
        · simp only [joinGroup, hgroup, hget, Option.isNone_some, Bool.false_eq_true, if_false, m']
        · simp only [joinGroup, hgroup, hget, reg.codec.decode_encodeMembership, Option.isNone_some,
            Bool.false_eq_true, if_false, m']
      obtain ⟨group, hupdate⟩ := hput.updateMemberCount (isSome_group_put hsome)
      have hrecord (s' : σ) :
          reg.recordTopics g a joins true s' (.join g b topics) = joins' := by
        simp [recordTopics, joins']
      have hok : (Except.ok () : Except ProcessGroupError Unit).isOk = true := rfl
      rw [hjoin]
      split
      · rw [hupdate, hok, hrecord]
        exact hput.putGroup group
      · rw [hok, hrecord]
        exact hput

/-! ### Leaves -/

/-- A leave takes the membership of the actor away, or writes it again with its topics. -/
theorem Subscribed.countDown (h : reg.Subscribed g a joins s) {m : GroupMembership}
    (hget : reg.storage.get s (reg.membershipKey g b.asStr) =
      some (reg.codec.encodeMembership m)) :
    reg.Subscribed g a
      (if b.asStr = a.asStr ∧ saturatingSubI32 m.joinCount 1 = 0 then [] else joins)
      (reg.countDown g b.asStr m s) := by
  obtain ⟨hsome, b', m', -, hencode, hid⟩ := h.members _ _ hget
  obtain rfl := reg.encodeMembership_inj hencode
  rw [ProcessGroupRegistry.countDown]
  by_cases hlast : saturatingSubI32 m.joinCount 1 = 0
  · simp only [hlast, and_true, if_true]
    exact h.deleteMember (fun hactor => if_neg hactor) fun hactor => if_pos hactor
  · simp only [hlast, and_false, if_false]
    refine h.putMember (m := { m with joinCount := saturatingSubI32 m.joinCount 1 }) hsome hid
      (fun _ => rfl) fun hactor => ?_
    have hne : joins ≠ [] := by
      intro hjoins
      have habsent := h.absent hjoins
      rw [← hactor, hget] at habsent
      cases habsent
    obtain ⟨m', hm', htopics⟩ := h.topics hne
    rw [← hactor, hget, Option.some.injEq] at hm'
    obtain rfl := reg.encodeMembership_inj hm'
    exact ⟨hne, htopics⟩

/-- The membership is gone exactly if its count has reached zero. -/
theorem get_countDown_eq_none (m : GroupMembership) (t : String) :
    reg.storage.get (reg.countDown g t m s) (reg.membershipKey g t) = none ↔
      saturatingSubI32 m.joinCount 1 = 0 := by
  rw [countDown]
  split
  · next hlast => simp [reg.storage.get_delete, hlast]
  · next hlast => simp [reg.storage.get_put, hlast]

theorem Subscribed.leave (h : reg.Subscribed g a joins s) (b : ActorId) :
    reg.Subscribed g a
      (reg.recordTopics g a joins (reg.leaveGroup g b s).1.isOk (reg.leaveGroup g b s).2
        (.leave g b))
      (reg.leaveGroup g b s).2 := by
  cases hget : reg.storage.get s (reg.membershipKey g b.asStr) with
  | none =>
      obtain ⟨hfailed, hstore⟩ := leaveGroup_absent hget
      rw [hfailed, hstore]
      simpa [recordTopics] using h
  | some bytes =>
      obtain ⟨hsome, -, m, -, rfl, -⟩ := h.members _ bytes hget
      have hmember := h.countDown hget
      have hgroup : (reg.storage.get (reg.countDown g b.asStr m s) (reg.groupKey g)).isSome := by
        rwa [get_countDown m membershipKey_ne_groupKey.symm]
      have hrecord {s' : σ} (hsame : reg.storage.get s' (reg.membershipKey g a.asStr) =
          reg.storage.get (reg.countDown g b.asStr m s) (reg.membershipKey g a.asStr)) :
          reg.recordTopics g a joins true s' (.leave g b) =
            if b.asStr = a.asStr ∧ saturatingSubI32 m.joinCount 1 = 0 then [] else joins := by
        rw [recordTopics, hsame]
        by_cases hactor : b.asStr = a.asStr
        · simp [← hactor, get_countDown_eq_none]
        · simp [hactor]
      obtain ⟨group, hupdate⟩ := hmember.updateMemberCount hgroup
      have hok : (Except.ok () : Except ProcessGroupError Unit).isOk = true := rfl
      rw [leaveGroup_of_some hget (reg.codec.decode_encodeMembership m)]
      split
      · rw [hupdate, hok, hrecord]
        · exact hmember.putGroup group
        · exact (reg.storage.get_put ..).trans (if_neg membershipKey_ne_groupKey)
      · rw [hok, hrecord rfl]
        exact hmember

/-! ### All calls -/

theorem Subscribed.create (h : reg.Subscribed g a joins s) :
    reg.Subscribed g a joins (reg.createGroup g s).2 := by
  rw [createGroup]
  dsimp only
  split
  · exact h
  · exact h.putGroup _

theorem Subscribed.delete : reg.Subscribed g a [] (reg.deleteGroup g s).2 := by
  have hgone {key : String} (hkey : reg.Owns g key) :
      reg.storage.get (reg.deleteGroup g s).2 key = none := deleteGroup_changes.absent rfl key hkey
  refine ⟨fun bytes hget => ?_, fun t bytes hget => ?_, fun _ => hgone owns_membershipKey,
    fun hne => absurd rfl hne⟩
  · rw [hgone owns_groupKey] at hget
    cases hget
  · rw [hgone owns_membershipKey] at hget
    cases hget

theorem recordTopics_of_ne {c : GroupCall} (hc : c.groupName ≠ g) (ok : Bool) (s' : σ) :
    reg.recordTopics g a joins ok s' c = joins := by
  cases c with
  | create | publish => rfl
  | delete g' => exact if_neg hc
  | join g' b topics => exact if_neg fun h => hc h.2.1
  | leave g' b => exact if_neg fun h => hc h.2.1

theorem Subscribed.step {log : TopicLog σ} (h : reg.Subscribed g a log.joins log.store)
    {c : GroupCall} (hc : reg.Apart g c) :
    reg.Subscribed g a (reg.topicStep g a log c).joins (reg.topicStep g a log c).store := by
  by_cases hgroup : c.groupName = g
  · cases c with
    | create g' =>
        obtain rfl : g' = g := hgroup
        exact h.create
    | delete g' =>
        obtain rfl : g' = g := hgroup
        have hjoins : (reg.topicStep g' a log (.delete g')).joins = [] := if_pos rfl
        rw [hjoins]
        exact Subscribed.delete
    | join g' b topics =>
        obtain rfl : g' = g := hgroup
        exact h.join b topics
    | leave g' b =>
        obtain rfl : g' = g := hgroup
        exact h.leave b
    | publish g' topic payload messageId publishedAt =>
        obtain rfl : g' = g := hgroup
        refine h.congr (get_call_of_not_touches ?_) fun t => get_call_of_not_touches ?_
        · exact messageKey_ne_groupKey.symm
        · exact messageKey_ne_membershipKey.symm
  · obtain ⟨hrecord, hmembers⟩ := hc.resolve_left hgroup
    have hjoins : (reg.topicStep g a log c).joins = log.joins := recordTopics_of_ne hgroup _ _
    rw [hjoins]
    exact h.congr (get_call_of_not_touches hrecord) fun t => get_call_of_not_touches (hmembers t)

theorem Subscribed.init
    (hs : ∀ key, reg.keyPrefix.toList <+: key.toList → reg.storage.get s key = none) :
    reg.Subscribed g a [] s := by
  have hgone {key : String} (hkey : reg.Owns g key) : reg.storage.get s key = none :=
    hs key hkey.keyPrefix
  refine ⟨fun bytes hget => ?_, fun t bytes hget => ?_, fun _ => hgone owns_membershipKey,
    fun hne => absurd rfl hne⟩
  · rw [hgone owns_groupKey] at hget
    cases hget
  · rw [hgone owns_membershipKey] at hget
    cases hget

/-! ## Whom a publication reaches -/

theorem Subscribed.mem_memberships (h : reg.Subscribed g a joins s) {m : GroupMembership} :
    m ∈ reg.memberships g s ↔
      (∃ b : ActorId, b.asStr = m.actorId) ∧
        reg.storage.get s (reg.membershipKey g m.actorId) =
          some (reg.codec.encodeMembership m) := by
  rw [memberships, List.mem_filterMap]
  constructor
  · rintro ⟨key, hkey, hread⟩
    obtain ⟨hsome, rest, hrest⟩ := (reg.storage.mem_list s _ key).mp hkey
    obtain ⟨bytes, hget, hdecode⟩ := Option.bind_eq_some_iff.mp hread
    obtain rfl : key = reg.membershipKey g (String.ofList rest) := by
      rw [← String.toList_inj, ← hrest]
      simp [membershipPrefix, membershipKey]
    obtain ⟨-, b, m', hb, rfl, hid⟩ := h.members _ bytes hget
    rw [reg.codec.decode_encodeMembership] at hdecode
    cases hdecode
    exact ⟨⟨b, hb.trans hid.symm⟩, hid ▸ hget⟩
  · rintro ⟨-, hget⟩
    refine ⟨_, (reg.storage.mem_list s _ _).mpr ⟨Option.isSome_of_mem hget, ?_⟩, ?_⟩
    · simp [membershipPrefix, membershipKey]
    · rw [hget]
      exact reg.codec.decode_encodeMembership m

theorem mem_map_actorIds {ms : List GroupMembership}
    (hms : ∀ m ∈ ms, ∃ b : ActorId, b.asStr = m.actorId) :
    a.asStr ∈ (actorIds ms).map (·.asStr) ↔
      (ActorId.fromCanonical a.asStr).isOk = true ∧ ∃ m ∈ ms, m.actorId = a.asStr := by
  simp only [actorIds, List.mem_map, List.mem_filterMap]
  constructor
  · rintro ⟨b, ⟨m, hm, hread⟩, htext⟩
    obtain ⟨c, hc⟩ := hms m hm
    have hok : ActorId.fromCanonical m.actorId = .ok b := by
      cases hresult : ActorId.fromCanonical m.actorId with
      | ok b' =>
          rw [hresult] at hread
          cases hread
          rfl
      | error e =>
          rw [hresult] at hread
          cases hread
    rw [← hc] at hok
    have hsame := ActorId.asStr_of_fromCanonical hok
    have hid : m.actorId = a.asStr := by rw [← hc, ← hsame, htext]
    refine ⟨?_, m, hm, hid⟩
    rw [← hid, ← hc, hok]
    rfl
  · rintro ⟨hread, m, hm, hid⟩
    cases hresult : ActorId.fromCanonical a.asStr with
    | ok b => exact ⟨b, ⟨m, hm, by rw [hid, hresult]; rfl⟩, ActorId.asStr_of_fromCanonical hresult⟩
    | error e =>
        rw [hresult] at hread
        cases hread

theorem receives_iff {m : GroupMembership} {topic : String}
    (htopics : ∀ topic, topic ∈ m.topics ↔ ∃ topics ∈ joins, topic ∈ topics) :
    receives (some topic) m = true ↔
      (∀ topics ∈ joins, topics = []) ∨ ∃ topics ∈ joins, topic ∈ topics := by
  have hempty : m.topics = [] ↔ ∀ topics ∈ joins, topics = [] := by
    simp only [List.eq_nil_iff_forall_not_mem, htopics]
    exact ⟨fun h topics hmem topic htopic => h topic ⟨topics, hmem, htopic⟩,
      fun h topic ⟨topics, hmem, htopic⟩ => h topics hmem topic htopic⟩
  rw [receives, Bool.or_eq_true, List.isEmpty_iff, List.contains_iff_mem, hempty, htopics]

/-- A publication reaches the actor if it has joined, its id is read back, and the topics of its
joins are none at all or have that of the publication. -/
theorem Subscribed.selected_iff (h : reg.Subscribed g a joins s) (topic : String) :
    reg.Selected g a topic s ↔
      joins ≠ [] ∧ (ActorId.fromCanonical a.asStr).isOk = true ∧
        ((∀ topics ∈ joins, topics = []) ∨ ∃ topics ∈ joins, topic ∈ topics) := by
  have hread : ∀ m ∈ (reg.memberships g s).filter (receives (some topic)),
      ∃ b : ActorId, b.asStr = m.actorId := fun m hm =>
    (h.mem_memberships.mp (List.mem_of_mem_filter hm)).1
  have hselected : reg.Selected g a topic s ↔
      (reg.storage.get s (reg.groupKey g)).isSome ∧
        a.asStr ∈ (actorIds ((reg.memberships g s).filter (receives (some topic)))).map
          (·.asStr) := by
    rw [Selected]
    simp only [publishToGroup]
    cases hgroup : reg.storage.get s (reg.groupKey g) with
    | none => simp
    | some bytes => simp
  rw [hselected, mem_map_actorIds hread]
  constructor
  · rintro ⟨-, hok, m, hm, hid⟩
    obtain ⟨hmem, hreceives⟩ := List.mem_filter.mp hm
    obtain ⟨-, hget⟩ := h.mem_memberships.mp hmem
    rw [hid] at hget
    have hjoins : joins ≠ [] := by
      intro hjoins
      rw [h.absent hjoins] at hget
      cases hget
    obtain ⟨m', hget', htopics⟩ := h.topics hjoins
    obtain rfl := reg.encodeMembership_inj (Option.some.inj (hget.symm.trans hget'))
    exact ⟨hjoins, hok, (receives_iff htopics).mp hreceives⟩
  · rintro ⟨hjoins, hok, htopics⟩
    obtain ⟨m, hget, hunion⟩ := h.topics hjoins
    obtain ⟨hsome, b, m', hb, hencode, hid⟩ := h.members _ _ hget
    obtain rfl := reg.encodeMembership_inj hencode
    have hmem : m ∈ reg.memberships g s :=
      h.mem_memberships.mpr ⟨⟨b, hb.trans hid.symm⟩, hid ▸ hget⟩
    exact ⟨hsome, hok, m, List.mem_filter.mpr ⟨hmem, (receives_iff hunion).mpr htopics⟩, hid⟩

end Subscribed

/-! ## Subscriptions accumulate -/

/-- A publication reaches the actor exactly if one of its joins was to all topics or to that of
the publication. -/
def Accumulates (g : String) (a : ActorId) (log : TopicLog σ) : Prop :=
  ∀ topic, reg.Selected g a topic log.store ↔ ∃ topics ∈ log.joins, topics = [] ∨ topic ∈ topics

section Accumulates

variable {reg} {g : String} {a : ActorId}

theorem exists_not_mem (lists : List (List String)) :
    ∃ topic, ∀ topics ∈ lists, topic ∉ topics := by
  obtain ⟨topic, htopic⟩ := Infinite.exists_notMem_finset lists.flatten.toFinset
  refine ⟨topic, fun topics hmem htopics => htopic ?_⟩
  exact List.mem_toFinset.mpr (List.mem_flatten.mpr ⟨topics, hmem, htopics⟩)

/-- The union of some lists stands for what they stand for one by one, if it does not mix lists
of all topics with others. -/
theorem union_iff {joins : List (List String)} (hjoins : joins ≠ []) :
    (∀ topic, ((∀ topics ∈ joins, topics = []) ∨ ∃ topics ∈ joins, topic ∈ topics) ↔
      ∃ topics ∈ joins, topics = [] ∨ topic ∈ topics) ↔
    (∀ topics ∈ joins, topics ≠ []) ∨ ∀ topics ∈ joins, topics = [] := by
  constructor
  · intro h
    by_contra hmixed
    obtain ⟨hsome, hnone⟩ := not_or.mp hmixed
    obtain ⟨topic, htopic⟩ := exists_not_mem joins
    have hall : ∃ topics ∈ joins, topics = [] ∨ topic ∈ topics := by
      by_contra hnot
      exact hsome fun topics hmem hnil => hnot ⟨topics, hmem, .inl hnil⟩
    rcases (h topic).mpr hall with hnil | ⟨topics, hmem, htopics⟩
    · exact hnone hnil
    · exact htopic topics hmem htopics
  · rintro (hsome | hnil) topic
    · constructor
      · rintro (hnil | ⟨topics, hmem, htopic⟩)
        · obtain ⟨topics, hmem⟩ := List.exists_mem_of_ne_nil joins hjoins
          exact absurd (hnil topics hmem) (hsome topics hmem)
        · exact ⟨topics, hmem, .inr htopic⟩
      · rintro ⟨topics, hmem, hempty | htopic⟩
        · exact absurd hempty (hsome topics hmem)
        · exact .inr ⟨topics, hmem, htopic⟩
    · refine iff_of_true (.inl hnil) ?_
      obtain ⟨topics, hmem⟩ := List.exists_mem_of_ne_nil joins hjoins
      exact ⟨topics, hmem, .inl (hnil topics hmem)⟩

/-- In a run in which no call of another group touches the keys of this one, the subscriptions
accumulate exactly if the actor has not joined, or its id is read back and its joins are all to
all topics or none is. -/
theorem accumulates_iff {s : σ}
    (hs : ∀ key, reg.keyPrefix.toList <+: key.toList → reg.storage.get s key = none)
    {calls : List GroupCall} (hcalls : ∀ c ∈ calls, reg.Apart g c) :
    reg.Accumulates g a (run (reg.topicStep g a) { store := s } calls) ↔
      (run (reg.topicStep g a) { store := s } calls).joins = [] ∨
        (ActorId.fromCanonical a.asStr).isOk = true ∧
          ((∀ topics ∈ (run (reg.topicStep g a) { store := s } calls).joins, topics ≠ []) ∨
            ∀ topics ∈ (run (reg.topicStep g a) { store := s } calls).joins, topics = []) := by
  have hsub : reg.Subscribed g a (run (reg.topicStep g a) { store := s } calls).joins
      (run (reg.topicStep g a) { store := s } calls).store :=
    run_invariant (I := fun log : TopicLog σ => reg.Subscribed g a log.joins log.store)
      (fun c hc _ h => h.step (hcalls c hc)) (.init hs)
  generalize run (reg.topicStep g a) { store := s } calls = log at hsub ⊢
  rw [Accumulates]
  simp only [hsub.selected_iff]
  by_cases hjoins : log.joins = []
  · simp [hjoins]
  · simp only [hjoins, false_or, ne_eq, not_false_iff, true_and]
    by_cases hread : (ActorId.fromCanonical a.asStr).isOk = true
    · simp only [hread, true_and]
      exact union_iff hjoins
    · refine iff_of_false (fun h => ?_) fun h => hread h.1
      obtain ⟨topics, hmem⟩ := List.exists_mem_of_ne_nil log.joins hjoins
      cases topics with
      | nil => exact hread ((h "").mpr ⟨[], hmem, .inl rfl⟩).1
      | cons topic topics =>
          exact hread ((h topic).mpr ⟨topic :: topics, hmem, .inr List.mem_cons_self⟩).1

end Accumulates

def eventsCalls (first second : List String) : List GroupCall :=
  [.create "events", .join "events" worker first, .join "events" worker second]

theorem accumulates_iff_events :
    inMemory.Accumulates "events" worker (run (inMemory.topicStep "events" worker) { store := ∅ }
        (eventsCalls ["login"] ["logout"])) ↔
      (run (inMemory.topicStep "events" worker) { store := ∅ }
          (eventsCalls ["login"] ["logout"])).joins = [] ∨
        (ActorId.fromCanonical worker.asStr).isOk = true ∧
          ((∀ topics ∈ (run (inMemory.topicStep "events" worker) { store := ∅ }
              (eventsCalls ["login"] ["logout"])).joins, topics ≠ []) ∨
            ∀ topics ∈ (run (inMemory.topicStep "events" worker) { store := ∅ }
              (eventsCalls ["login"] ["logout"])).joins, topics = []) :=
  accumulates_iff (fun _ _ => rfl) (by simp [eventsCalls, Apart, GroupCall.groupName])

/-- A join to all topics, then one to a single topic: only that topic remains. -/
theorem not_accumulates :
    ¬∀ calls : List GroupCall,
      inMemory.Accumulates "events" worker
        (run (inMemory.topicStep "events" worker) { store := ∅ } calls) := by
  intro h
  let log := run (inMemory.topicStep "events" worker) { store := ∅ } (eventsCalls [] ["login"])
  have hjoins : log.joins = [[], ["login"]] := by decide +kernel
  have hselected : inMemory.Selected "events" worker "logout" log.store :=
    (h _ "logout").mpr ⟨[], hjoins ▸ List.mem_cons_self, .inl rfl⟩
  obtain ⟨recipients, hpublish, hmem⟩ := hselected [] "m1" 0
  have hnobody : ((inMemory.publishToGroup "events" (some "logout") [] "m1" 0
      log.store).1.toOption.map List.length) = some 0 := by decide +kernel
  rw [hpublish] at hnobody
  rw [List.length_eq_zero_iff.mp (Option.some.inj hnobody)] at hmem
  cases hmem

end ProcessGroupRegistry

end PlexSpaces.Actors
