import Mathlib.Logic.Function.Basic
import PlexSpaces.Lib.Run
import PlexSpaces.Swim.Protocol
/-!
# Piggybacking

Every outgoing message takes the first updates of the queue along that were not
broadcast often enough.  A run of `queue_update` and `get_piggyback_updates` counts
beside the queue how often the update that is queued for a node was returned; the
counter of the update itself is never behind (`Counts`).
-/

namespace PlexSpaces.Swim

open PlexSpaces.Lib

def MembershipUpdate.shouldDrop (u : MembershipUpdate) (maxBroadcasts : Nat) : Bool :=
  decide (maxBroadcasts ≤ u.broadcastCount)

/-- Count a broadcast of the update if it is among those returned. -/
def MembershipUpdate.counted (updates : List MembershipUpdate) (u : MembershipUpdate) :
    MembershipUpdate :=
  if updates.any fun v => v.nodeId = u.nodeId then
    { u with broadcastCount := u.broadcastCount + 1 }
  else u

theorem MembershipUpdate.counted_nodeId (updates : List MembershipUpdate) (u : MembershipUpdate) :
    (u.counted updates).nodeId = u.nodeId := by
  rw [counted]
  split_ifs <;> rfl

theorem MembershipUpdate.counted_incarnation (updates : List MembershipUpdate)
    (u : MembershipUpdate) : (u.counted updates).incarnation = u.incarnation := by
  rw [counted]
  split_ifs <;> rfl

namespace UpdatesQueue

variable {maxSize : Nat}

def piggybackUpdates (q : UpdatesQueue maxSize) (maxUpdates broadcastLimit : Nat) :
    List MembershipUpdate :=
  (q.entries.filter (!·.shouldDrop broadcastLimit)).take maxUpdates

theorem sublist_piggybackUpdates (q : UpdatesQueue maxSize) (maxUpdates broadcastLimit : Nat) :
    (q.piggybackUpdates maxUpdates broadcastLimit).Sublist q.entries :=
  (List.take_sublist _ _).trans List.filter_sublist

/-- `get_piggyback_updates`: what it returns, and the queue without the updates that are done. -/
def getPiggybackUpdates (q : UpdatesQueue maxSize) (maxUpdates broadcastLimit : Nat) :
    List MembershipUpdate × UpdatesQueue maxSize :=
  let updates := q.piggybackUpdates maxUpdates broadcastLimit
  (updates,
    { entries := (q.entries.map (·.counted updates)).filter (!·.shouldDrop broadcastLimit)
      nodup := by
        refine List.Nodup.sublist (List.filter_sublist.map _) ?_
        rw [List.map_map]
        exact (List.map_congr_left fun e _ => MembershipUpdate.counted_nodeId updates e) ▸ q.nodup
      bounded := (List.length_filter_le _ _).trans ((List.length_map _).trans_le q.bounded) })

end UpdatesQueue

inductive QueueOp
  | queueUpdate (update : MembershipUpdate)
  | getPiggybackUpdates

/-- The queue, how often the update queued for a node was returned since it was queued, and what
the calls have returned. -/
structure Piggyback (maxUpdates : Nat) where
  queue : UpdatesQueue (maxUpdates * 2)
  returned : String → Nat
  results : List (List MembershipUpdate)

namespace Piggyback

variable {maxUpdates : Nat}

def start (maxUpdates : Nat) : Piggyback maxUpdates := ⟨UpdatesQueue.empty, fun _ => 0, []⟩

def Accepts (s : Piggyback maxUpdates) (u : MembershipUpdate) : Prop :=
  ∀ e ∈ s.queue.find? u.nodeId, e.incarnation ≤ u.incarnation

instance (s : Piggyback maxUpdates) (u : MembershipUpdate) : Decidable (s.Accepts u) :=
  inferInstanceAs (Decidable (∀ e ∈ s.queue.find? u.nodeId, e.incarnation ≤ u.incarnation))

variable (broadcastLimit : Nat)

def step (s : Piggyback maxUpdates) : QueueOp → Piggyback maxUpdates
  | .queueUpdate u =>
      { s with
        queue := s.queue.queueUpdate u
        returned := if s.Accepts u then Function.update s.returned u.nodeId 0 else s.returned }
  | .getPiggybackUpdates =>
      let (updates, queue) := s.queue.getPiggybackUpdates maxUpdates broadcastLimit
      { queue
        returned := fun id =>
          if updates.any fun v => v.nodeId = id then s.returned id + 1 else s.returned id
        results := s.results ++ [updates] }

/-- The counters of the queued updates are not behind, and none was returned too often. -/
structure Counts (s : Piggyback maxUpdates) : Prop where
  counter : ∀ e ∈ s.queue.entries, s.returned e.nodeId ≤ e.broadcastCount
  limited : ∀ id, s.returned id ≤ broadcastLimit
  results : ∀ updates ∈ s.results,
    updates.length ≤ maxUpdates ∧ (updates.map (·.nodeId)).Nodup

variable {broadcastLimit} {s : Piggyback maxUpdates}

theorem mem_queueUpdate {q : UpdatesQueue (maxUpdates * 2)} {u e : MembershipUpdate}
    (he : e ∈ (q.queueUpdate u).entries) : e ∈ offerUpdate u q.entries :=
  List.mem_of_mem_drop he

/-- What is in the queue after an offer: the update, or one that was there about another node. -/
theorem mem_offerUpdate {u e : MembershipUpdate} {q : List MembershipUpdate}
    (hq : (q.map (·.nodeId)).Nodup) (he : e ∈ offerUpdate u q) :
    e = u ∧ (∀ e' ∈ findUpdate u.nodeId q, e'.incarnation ≤ u.incarnation) ∨
      e ∈ q ∧ (e.nodeId = u.nodeId → u.incarnation < e.incarnation) := by
  induction q with
  | nil =>
      left
      exact ⟨List.mem_singleton.mp he, fun e' he' => by cases he'⟩
  | cons first q ih =>
      rw [List.map_cons, List.nodup_cons] at hq
      rw [offerUpdate] at he
      by_cases hsame : first.nodeId = u.nodeId
      · have hfind : findUpdate u.nodeId (first :: q) = some first := by simp [findUpdate, hsame]
        have hother : ∀ e ∈ q, e.nodeId ≠ u.nodeId := fun e he hid =>
          hq.1 (List.mem_map.mpr ⟨e, he, hid.trans hsame.symm⟩)
        rw [if_pos hsame] at he
        split_ifs at he with hinc
        · rcases List.mem_cons.mp he with rfl | he
          · left
            refine ⟨rfl, fun e' he' => ?_⟩
            rw [hfind] at he'
            exact Option.some.inj he' ▸ hinc
          · exact .inr ⟨List.mem_cons_of_mem _ he, fun hid => absurd hid (hother e he)⟩
        · rcases List.mem_cons.mp he with rfl | he
          · exact .inr ⟨List.mem_cons_self, fun _ => Nat.lt_of_not_le hinc⟩
          · exact .inr ⟨List.mem_cons_of_mem _ he, fun hid => absurd hid (hother e he)⟩
      · have hfind : findUpdate u.nodeId (first :: q) = findUpdate u.nodeId q := by
          simp [findUpdate, hsame]
        rw [if_neg hsame] at he
        rw [hfind]
        rcases List.mem_cons.mp he with rfl | he
        · exact .inr ⟨List.mem_cons_self, fun hid => absurd hid hsame⟩
        · exact (ih hq.2 he).imp_right fun h => ⟨List.mem_cons_of_mem _ h.1, h.2⟩

theorem any_iff {updates : List MembershipUpdate} {id : String} :
    (updates.any fun v => v.nodeId = id) = true ↔ ∃ v ∈ updates, v.nodeId = id := by
  simp only [List.any_eq_true, decide_eq_true_eq]

theorem lt_of_mem_piggybackUpdates {q : UpdatesQueue (maxUpdates * 2)} {v : MembershipUpdate}
    (hv : v ∈ q.piggybackUpdates maxUpdates broadcastLimit) :
    v.broadcastCount < broadcastLimit := by
  have hkept := (List.mem_filter.mp (List.mem_of_mem_take hv)).2
  simpa [MembershipUpdate.shouldDrop] using hkept

theorem Counts.queueUpdate (h : s.Counts broadcastLimit) (u : MembershipUpdate) :
    (s.step broadcastLimit (.queueUpdate u)).Counts broadcastLimit := by
  have hreturned : ∀ id, (if s.Accepts u then Function.update s.returned u.nodeId 0
      else s.returned) id ≤ s.returned id := by
    intro id
    split_ifs
    · by_cases hid : id = u.nodeId
      · subst hid
        rw [Function.update_self]
        exact Nat.zero_le _
      · rw [Function.update_of_ne hid]
    · exact Nat.le_refl _
  refine ⟨fun e he => ?_, fun id => (hreturned id).trans (h.limited id), h.results⟩
  rcases mem_offerUpdate s.queue.nodup (mem_queueUpdate he) with ⟨rfl, haccepts⟩ | ⟨hold, -⟩
  · have hacc : s.Accepts e := haccepts
    have hnew : (s.step broadcastLimit (.queueUpdate e)).returned e.nodeId = 0 := by
      rw [step]
      dsimp only
      rw [if_pos hacc, Function.update_self]
    rw [hnew]
    exact Nat.zero_le _
  · exact (hreturned e.nodeId).trans (h.counter e hold)

theorem Counts.getPiggybackUpdates (h : s.Counts broadcastLimit) :
    (s.step broadcastLimit .getPiggybackUpdates).Counts broadcastLimit := by
  let updates := s.queue.piggybackUpdates maxUpdates broadcastLimit
  have hsub : updates.Sublist s.queue.entries :=
    s.queue.sublist_piggybackUpdates maxUpdates broadcastLimit
  refine ⟨fun e he => ?_, fun id => ?_, fun result hresult => ?_⟩
  · obtain ⟨old, hold, rfl⟩ := List.mem_map.mp (List.mem_filter.mp he).1
    have hcount := h.counter old hold
    change (if updates.any fun v => v.nodeId = (old.counted updates).nodeId then _ else _) ≤ _
    rw [MembershipUpdate.counted_nodeId, MembershipUpdate.counted]
    split_ifs
    · exact Nat.succ_le_succ hcount
    · exact hcount
  · change (if updates.any fun v => v.nodeId = id then _ else _) ≤ broadcastLimit
    split_ifs with hany
    · obtain ⟨v, hv, rfl⟩ := any_iff.mp hany
      have hcount := h.counter v (hsub.subset hv)
      have hlt : v.broadcastCount < broadcastLimit := lt_of_mem_piggybackUpdates hv
      omega
    · exact h.limited id
  · rcases List.mem_append.mp hresult with hresult | hresult
    · exact h.results result hresult
    · rw [List.mem_singleton.mp hresult]
      exact ⟨List.length_take_le _ _, s.queue.nodup.sublist (hsub.map _)⟩

theorem Counts.step (h : s.Counts broadcastLimit) (op : QueueOp) :
    (s.step broadcastLimit op).Counts broadcastLimit := by
  cases op with
  | queueUpdate u => exact h.queueUpdate u
  | getPiggybackUpdates => exact h.getPiggybackUpdates

/-- The update queued for a node is not replaced by one of a smaller incarnation. -/
def KeepsIncarnations (broadcastLimit : Nat) (s : Piggyback maxUpdates) (op : QueueOp) : Prop :=
  ∀ id, ∀ e ∈ s.queue.find? id, ∀ e' ∈ (s.step broadcastLimit op).queue.find? id,
    e.incarnation ≤ e'.incarnation

theorem nodeId_of_find? {maxSize : Nat} {q : UpdatesQueue maxSize} {id : String}
    {e : MembershipUpdate} (he : e ∈ q.find? id) : e.nodeId = id :=
  of_decide_eq_true (List.find?_some (p := fun e : MembershipUpdate => decide (e.nodeId = id)) he)

theorem keepsIncarnations (s : Piggyback maxUpdates) (op : QueueOp) :
    s.KeepsIncarnations broadcastLimit op := by
  intro id e he e' he'
  have hid := nodeId_of_find? he
  have hid' := nodeId_of_find? he'
  subst hid
  have hmem' : e' ∈ (s.step broadcastLimit op).queue.entries := List.mem_of_find?_eq_some he'
  have honly : ∀ v ∈ s.queue.entries, v.nodeId = e.nodeId → v = e := by
    intro v hv hsame
    have hfind := (s.queue.find?_eq_some_iff v).mpr hv
    rw [hsame] at hfind
    exact Option.some.inj (hfind.symm.trans he)
  cases op with
  | queueUpdate u =>
      rcases mem_offerUpdate s.queue.nodup (mem_queueUpdate hmem') with ⟨rfl, haccepts⟩ | ⟨hold, -⟩
      · rw [hid'] at haccepts
        exact haccepts e he
      · rw [honly e' hold hid']
  | getPiggybackUpdates =>
      obtain ⟨old, hold, rfl⟩ := List.mem_map.mp (List.mem_filter.mp hmem').1
      rw [MembershipUpdate.counted_nodeId] at hid'
      rw [MembershipUpdate.counted_incarnation, honly old hold hid']

/-- An offered update takes the place of the one queued for its node, unless that has a greater
incarnation: of two with one incarnation the later one stays. -/
def ReplacesQueued (broadcastLimit : Nat) (s : Piggyback maxUpdates) (op : QueueOp) : Prop :=
  ∀ u, op = .queueUpdate u → ∀ e ∈ s.queue.find? u.nodeId,
    (s.step broadcastLimit op).queue.find? u.nodeId =
      some (if e.incarnation ≤ u.incarnation then u else e)

theorem replacesQueued (s : Piggyback maxUpdates) (op : QueueOp) :
    s.ReplacesQueued broadcastLimit op := by
  rintro u rfl e he
  have hfind := s.queue.find?_queueUpdate_self u (UpdatesQueue.pos_of_find?_eq_some _ he)
  rw [show s.queue.find? u.nodeId = some e from he] at hfind
  change (s.queue.queueUpdate u).find? u.nodeId = _
  rw [hfind, apply_ite some]

/-- In every run the queue holds at most one update for a node and not more than twice what a
message takes along; a result is no longer than that and has no node twice; no queued update is
returned more often than the limit before it is replaced, and none is replaced by one of a smaller
incarnation, while one of the same incarnation replaces it. -/
theorem piggyback_bounded (maxUpdates broadcastLimit : Nat) (ops : List QueueOp) :
    let s := run (step broadcastLimit) (start maxUpdates) ops
    (s.queue.entries.map (·.nodeId)).Nodup ∧ s.queue.entries.length ≤ 2 * maxUpdates ∧
      (∀ updates ∈ s.results, updates.length ≤ maxUpdates ∧ (updates.map (·.nodeId)).Nodup) ∧
      (∀ id, s.returned id ≤ broadcastLimit) ∧
      Along (step broadcastLimit) (KeepsIncarnations broadcastLimit)
        (start maxUpdates) ops ∧
      Along (step broadcastLimit) (ReplacesQueued broadcastLimit) (start maxUpdates) ops := by
  have hstart : (start maxUpdates).Counts broadcastLimit :=
    ⟨fun e he => (List.not_mem_nil he).elim, fun _ => Nat.zero_le _,
      fun _ h => (List.not_mem_nil h).elim⟩
  have hcounts : (run (step broadcastLimit) (start maxUpdates) ops).Counts broadcastLimit :=
    run_invariant (I := fun s : Piggyback maxUpdates => s.Counts broadcastLimit)
      (fun op _ _ h => h.step op) hstart
  refine ⟨UpdatesQueue.nodup _, ?_, hcounts.results, hcounts.limited, ?_, ?_⟩
  · exact (UpdatesQueue.bounded _).trans_eq (Nat.mul_comm _ _)
  · exact along_of_invariant (I := fun _ => True)
      (fun s op _ => ⟨s.keepsIncarnations op, trivial⟩) trivial ops
  · exact along_of_invariant (I := fun _ => True)
      (fun s op _ => ⟨s.replacesQueued op, trivial⟩) trivial ops

/-- A queued suspicion is replaced by the news that the node is alive, of the same incarnation. -/
theorem not_severity_kept :
    ¬∀ (maxUpdates broadcastLimit : Nat) (before : List QueueOp) (op : QueueOp),
      let s := run (step broadcastLimit) (start maxUpdates) before
      ∀ id, ∀ e ∈ s.queue.find? id, ∀ e' ∈ (s.step broadcastLimit op).queue.find? id,
        e.pair ≤ e'.pair := by
  intro h
  have hle := h 1 5 [.queueUpdate (.new "node-1" .suspect 1 0)]
    (.queueUpdate (.new "node-1" .alive 1 0)) "node-1" _ rfl _ rfl
  revert hle
  decide

end Piggyback

end PlexSpaces.Swim
