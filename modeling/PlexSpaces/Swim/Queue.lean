import PlexSpaces.Swim.Member
/-!
# The piggyback queue

Membership updates waiting to be broadcast.  The queue holds at most one update
per node and at most `maxSize` of them; both facts are fields of `UpdatesQueue`,
so a queue that breaks them cannot be built.  `find?_queueUpdate_self` is what a
caller needs to know: which update about a node is queued after `queue_update`.
-/

namespace PlexSpaces.Swim

/-- News about one node, as carried on protocol messages. -/
structure MembershipUpdate where
  nodeId : String
  state : NodeState
  incarnation : Nat
  address : Option String
  createdAt : Nat
  broadcastCount : Nat
  deriving DecidableEq, Repr

namespace MembershipUpdate

def new (nodeId : String) (state : NodeState) (incarnation now : Nat) :
    MembershipUpdate where
  nodeId := nodeId
  state := state
  incarnation := incarnation
  address := none
  createdAt := now
  broadcastCount := 0

def withAddress (u : MembershipUpdate) (address : String) : MembershipUpdate :=
  { u with address := some address }

def pair (u : MembershipUpdate) : Pair := toLex (u.incarnation, u.state)

end MembershipUpdate

/-- Replace the queued update about the same node unless it has a higher
incarnation; append when there is none. -/
def offerUpdate (u : MembershipUpdate) : List MembershipUpdate → List MembershipUpdate
  | [] => [u]
  | e :: q =>
      if e.nodeId = u.nodeId then
        if e.incarnation ≤ u.incarnation then u :: q else e :: q
      else
        e :: offerUpdate u q

def findUpdate (id : String) (q : List MembershipUpdate) : Option MembershipUpdate :=
  q.find? fun e => decide (e.nodeId = id)

theorem map_nodeId_offerUpdate (u : MembershipUpdate) (q : List MembershipUpdate) :
    (offerUpdate u q).map (·.nodeId) =
      if u.nodeId ∈ q.map (·.nodeId) then q.map (·.nodeId)
      else q.map (·.nodeId) ++ [u.nodeId] := by
  induction q with
  | nil => rfl
  | cons e q ih =>
      by_cases he : e.nodeId = u.nodeId
      · have hmem : u.nodeId ∈ (e :: q).map (·.nodeId) := by simp [he]
        rw [if_pos hmem, offerUpdate, if_pos he]
        split_ifs <;> simp [he]
      · have hiff : u.nodeId ∈ (e :: q).map (·.nodeId) ↔ u.nodeId ∈ q.map (·.nodeId) := by
          simp [Ne.symm he]
        rw [offerUpdate, if_neg he, List.map_cons, ih]
        by_cases hq : u.nodeId ∈ q.map (·.nodeId)
        · rw [if_pos hq, if_pos (hiff.mpr hq), List.map_cons]
        · rw [if_neg hq, if_neg (fun h => hq (hiff.mp h)), List.map_cons, List.cons_append]

theorem nodup_offerUpdate (u : MembershipUpdate) {q : List MembershipUpdate}
    (hq : (q.map (·.nodeId)).Nodup) : ((offerUpdate u q).map (·.nodeId)).Nodup := by
  rw [map_nodeId_offerUpdate]
  split_ifs with hmem
  · exact hq
  · refine List.nodup_append.mpr ⟨hq, List.nodup_singleton _, ?_⟩
    intro a ha b hb hab
    rw [List.mem_singleton] at hb
    subst hab hb
    exact hmem ha

theorem length_offerUpdate (u : MembershipUpdate) (q : List MembershipUpdate) :
    (offerUpdate u q).length =
      if (findUpdate u.nodeId q).isSome then q.length else q.length + 1 := by
  induction q with
  | nil => rfl
  | cons e q ih =>
      by_cases he : e.nodeId = u.nodeId
      · have hfind : findUpdate u.nodeId (e :: q) = some e := by simp [findUpdate, he]
        rw [offerUpdate, if_pos he, hfind, Option.isSome_some, if_pos rfl]
        split_ifs <;> simp
      · have hfind : findUpdate u.nodeId (e :: q) = findUpdate u.nodeId q := by
          simp [findUpdate, he]
        rw [offerUpdate, if_neg he, List.length_cons, ih, hfind]
        split_ifs <;> simp

theorem findUpdate_offerUpdate_self (u : MembershipUpdate) (q : List MembershipUpdate) :
    findUpdate u.nodeId (offerUpdate u q) =
      match findUpdate u.nodeId q with
      | some e => if e.incarnation ≤ u.incarnation then some u else some e
      | none => some u := by
  induction q with
  | nil => simp [offerUpdate, findUpdate]
  | cons e q ih =>
      by_cases he : e.nodeId = u.nodeId
      · have hfind : findUpdate u.nodeId (e :: q) = some e := by simp [findUpdate, he]
        rw [offerUpdate, if_pos he, hfind]
        by_cases hinc : e.incarnation ≤ u.incarnation
        · simp [findUpdate, hinc]
        · simp [findUpdate, he, hinc]
      · have hskip : ∀ q', findUpdate u.nodeId (e :: q') = findUpdate u.nodeId q' := by
          intro q'
          simp [findUpdate, he]
        rw [offerUpdate, if_neg he, hskip, hskip, ih]

theorem offerUpdate_eq_append {u : MembershipUpdate} {q : List MembershipUpdate}
    (h : findUpdate u.nodeId q = none) : offerUpdate u q = q ++ [u] := by
  induction q with
  | nil => rfl
  | cons e q ih =>
      by_cases he : e.nodeId = u.nodeId
      · simp [findUpdate, he] at h
      · have hq : findUpdate u.nodeId q = none := by simpa [findUpdate, he] using h
        rw [offerUpdate, if_neg he, ih hq, List.cons_append]

structure UpdatesQueue (maxSize : Nat) where
  entries : List MembershipUpdate
  nodup : (entries.map (·.nodeId)).Nodup
  bounded : entries.length ≤ maxSize

namespace UpdatesQueue

variable {maxSize : Nat}

def empty : UpdatesQueue maxSize := ⟨[], List.nodup_nil, Nat.zero_le _⟩

def find? (q : UpdatesQueue maxSize) (id : String) : Option MembershipUpdate :=
  findUpdate id q.entries

/-- `queue_update`: offer the update, then drop the oldest entries while the
queue is longer than its limit. -/
def queueUpdate (q : UpdatesQueue maxSize) (u : MembershipUpdate) :
    UpdatesQueue maxSize where
  entries := (offerUpdate u q.entries).drop ((offerUpdate u q.entries).length - maxSize)
  nodup := by
    rw [List.map_drop]
    exact (nodup_offerUpdate u q.nodup).sublist (List.drop_sublist _ _)
  bounded := by
    rw [List.length_drop]
    omega

theorem find?_eq_some_iff (q : UpdatesQueue maxSize) (e : MembershipUpdate) :
    q.find? e.nodeId = some e ↔ e ∈ q.entries := by
  have hnodup := q.nodup
  change findUpdate e.nodeId q.entries = some e ↔ e ∈ q.entries
  generalize q.entries = l at hnodup
  induction l with
  | nil => simp [findUpdate]
  | cons x l ih =>
      rw [List.map_cons, List.nodup_cons] at hnodup
      by_cases hx : x.nodeId = e.nodeId
      · have hfind : findUpdate e.nodeId (x :: l) = some x := by simp [findUpdate, hx]
        rw [hfind, Option.some.injEq, List.mem_cons]
        constructor
        · intro h
          exact Or.inl h.symm
        · rintro (h | h)
          · exact h.symm
          · exact absurd (List.mem_map.mpr ⟨e, h, hx.symm⟩) hnodup.1
      · have hfind : findUpdate e.nodeId (x :: l) = findUpdate e.nodeId l := by
          simp [findUpdate, hx]
        rw [hfind, ih hnodup.2, List.mem_cons]
        constructor
        · exact Or.inr
        · rintro (h | h)
          · exact absurd (congrArg MembershipUpdate.nodeId h.symm) hx
          · exact h

theorem pos_of_find?_eq_some (q : UpdatesQueue maxSize) {id : String} {e : MembershipUpdate}
    (h : q.find? id = some e) : 0 < maxSize := by
  have hlen := List.length_pos_of_mem (List.mem_of_find?_eq_some h)
  have hbound := q.bounded
  omega

/-- Trimming never drops the update just queued, unless nothing may be queued. -/
theorem find?_queueUpdate_self (q : UpdatesQueue maxSize) (u : MembershipUpdate)
    (hmax : 0 < maxSize) :
    (q.queueUpdate u).find? u.nodeId =
      match q.find? u.nodeId with
      | some e => if e.incarnation ≤ u.incarnation then some u else some e
      | none => some u := by
  have hoffer := findUpdate_offerUpdate_self u q.entries
  have hlen := length_offerUpdate u q.entries
  have hbound := q.bounded
  change findUpdate u.nodeId ((offerUpdate u q.entries).drop _) = _
  cases hfind : findUpdate u.nodeId q.entries with
  | some e =>
      rw [hfind, Option.isSome_some, if_pos rfl] at hlen
      rw [hlen, show q.entries.length - maxSize = 0 by omega, List.drop_zero, hoffer]
      rfl
  | none =>
      rw [hfind, Option.isSome_none, if_neg Bool.false_ne_true] at hlen
      have happ : offerUpdate u q.entries = q.entries ++ [u] :=
        offerUpdate_eq_append hfind
      have hdrop : q.entries.length + 1 - maxSize ≤ q.entries.length := by omega
      have hnone :
          findUpdate u.nodeId (q.entries.drop (q.entries.length + 1 - maxSize)) = none := by
        rw [findUpdate, List.find?_eq_none] at hfind ⊢
        intro e he
        exact hfind e (List.mem_of_mem_drop he)
      rw [hlen, happ, List.drop_append_of_le_length hdrop]
      change _ = match findUpdate u.nodeId q.entries with
        | some e => if e.incarnation ≤ u.incarnation then some u else some e
        | none => some u
      rw [hfind, findUpdate, List.find?_append]
      rw [findUpdate] at hnone
      rw [hnone]
      simp

end UpdatesQueue

end PlexSpaces.Swim
