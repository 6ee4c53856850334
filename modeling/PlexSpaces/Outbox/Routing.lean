import PlexSpaces.Outbox.Partitioned
/-!
# The messages of one target

`target` tells to which actor the message with an id goes.  The log of a whole
outbox, restricted to one target, is the log of the partition to which the
target is routed; so an order that every partition keeps for a target is kept by
the outbox (`Routed.inOrderFor`).
-/

namespace PlexSpaces.Outbox

open PlexSpaces.Lib PlexSpaces.Channel

def idsFor (target : String → String) (t : String) (messages : List Message) : List String :=
  (messages.map (·.id)).filter (target · = t)

def InOrderFor (target : String → String) (t : String) (delivered sent : List Message) : Prop :=
  (idsFor target t delivered).Sublist (idsFor target t sent)

instance (target : String → String) (t : String) (delivered sent : List Message) :
    Decidable (InOrderFor target t delivered sent) :=
  inferInstanceAs (Decidable (List.Sublist _ _))

def Partition.deliveries {σ : Type} (p : Partition σ) : List Message :=
  p.state.processed.filterMap (·.delivered?)

def PartitionedOutboxRelay.index {σ : Type} (outbox : PartitionedOutboxRelay σ) (t : String) :
    Nat :=
  (route outbox.numPartitions t).toNat

/-- A log of the partition with an index, empty where there is none. -/
def logAt {σ : Type} (partitions : List (Partition σ)) (log : Partition σ → List Message)
    (idx : Nat) : List Message :=
  (partitions[idx]?.map log).getD []

section Ids

variable {target : String → String} {t : String} {messages messages' : List Message}

theorem idsFor_append :
    idsFor target t (messages ++ messages') =
      idsFor target t messages ++ idsFor target t messages' := by
  rw [idsFor, List.map_append, List.filter_append]
  rfl

theorem idsFor_cons_self (message : Message) (messages : List Message) :
    idsFor target (target message.id) (message :: messages) =
      message.id :: idsFor target (target message.id) messages :=
  List.filter_cons_of_pos (decide_eq_true rfl)

theorem idsFor_cons_other {message : Message} (ht : target message.id ≠ t)
    (messages : List Message) : idsFor target t (message :: messages) = idsFor target t messages :=
  List.filter_cons_of_neg (by simpa using ht)

theorem mem_idsFor {id : String} :
    id ∈ idsFor target t messages ↔ (∃ m ∈ messages, m.id = id) ∧ target id = t := by
  rw [idsFor, List.mem_filter, List.mem_map, decide_eq_true_eq]

theorem idsFor_eq_nil (h : ∀ m ∈ messages, target m.id ≠ t) : idsFor target t messages = [] := by
  refine List.eq_nil_iff_forall_not_mem.mpr fun id hid => ?_
  obtain ⟨⟨m, hm, rfl⟩, ht⟩ := mem_idsFor.mp hid
  exact h m hm ht

theorem InOrderFor.of_sublist (h : (messages.map (·.id)).Sublist (messages'.map (·.id))) :
    InOrderFor target t messages messages' := h.filter _

end Ids

/-! ## Logs of the outbox and of its partitions -/

section Logs

variable {σ : Type} {target : String → String} {partitions : List (Partition σ)}
variable {idx : Nat} {p p' : Partition σ} {log : Partition σ → List Message}

/-- A log that is extended together with that of the partition which the new messages
belong to. -/
theorem idsFor_logAt_set {index : String → Nat} {all new : List Message}
    (hp : partitions[idx]? = some p)
    (hall : ∀ t, idsFor target t all = idsFor target t (logAt partitions log (index t)))
    (hnew : ∀ m ∈ new, index (target m.id) = idx) (hlog : log p' = log p ++ new) (t : String) :
    idsFor target t (all ++ new) =
      idsFor target t (logAt (partitions.set idx p') log (index t)) := by
  obtain ⟨hidx, -⟩ := List.getElem?_eq_some_iff.mp hp
  rw [idsFor_append, hall t]
  by_cases ht : index t = idx
  · rw [ht, logAt, logAt, hp, List.getElem?_set_self hidx, Option.map_some, Option.map_some,
      Option.getD_some, Option.getD_some, hlog, idsFor_append]
  · have hnone : idsFor target t new = [] := by
      refine idsFor_eq_nil fun m hm htarget => ht ?_
      rw [← htarget]
      exact hnew m hm
    rw [hnone, List.append_nil, logAt, logAt, List.getElem?_set_ne (Ne.symm ht)]

end Logs

namespace PartitionedOutboxRelay

variable {σ : Type} {target : String → String} {outbox : PartitionedOutboxRelay σ}

/-- The logs of the outbox are those of its partitions. -/
structure Routed (target : String → String) (outbox : PartitionedOutboxRelay σ) : Prop where
  accepted : ∀ idx p, outbox.partitions[idx]? = some p →
    ∀ m ∈ p.accepted, outbox.index (target m.id) = idx
  sent : ∀ t, idsFor target t outbox.sent =
    idsFor target t (logAt outbox.partitions (·.accepted) (outbox.index t))
  delivered : ∀ t, idsFor target t outbox.delivered =
    idsFor target t (logAt outbox.partitions (·.deliveries) (outbox.index t))

/-- Every partition delivers the messages of each target in order. -/
def PartitionsInOrder (target : String → String) (outbox : PartitionedOutboxRelay σ) : Prop :=
  ∀ p ∈ outbox.partitions, ∀ t, InOrderFor target t p.deliveries p.accepted

theorem Routed.inOrderFor (h : outbox.Routed target) (hp : outbox.PartitionsInOrder target)
    (t : String) : InOrderFor target t outbox.delivered outbox.sent := by
  rw [InOrderFor, h.sent, h.delivered, logAt, logAt]
  cases hidx : outbox.partitions[outbox.index t]? with
  | none => exact List.Sublist.refl _
  | some p => exact hp p (List.mem_of_getElem? hidx) t

theorem Routed.extend (h : outbox.Routed target) {idx : Nat} {p p' : Partition σ}
    (hp : outbox.partitions[idx]? = some p) {new done : List Message}
    (haccepted : p'.accepted = p.accepted ++ new)
    (hdeliveries : p'.deliveries = p.deliveries ++ done)
    (hnew : ∀ m ∈ new, outbox.index (target m.id) = idx)
    (hdone : ∀ m ∈ done, outbox.index (target m.id) = idx) :
    Routed target { outbox with
      partitions := outbox.partitions.set idx p'
      sent := outbox.sent ++ new
      delivered := outbox.delivered ++ done } where
  accepted idx' q hq m hm := by
    by_cases hidx : idx = idx'
    · subst hidx
      rw [List.getElem?_set_self (List.getElem?_eq_some_iff.mp hp).1] at hq
      cases hq
      rw [haccepted] at hm
      exact (List.mem_append.mp hm).elim (h.accepted idx p hp m) (hnew m)
    · rw [List.getElem?_set_ne hidx] at hq
      exact h.accepted idx' q hq m hm
  sent := idsFor_logAt_set hp h.sent hnew haccepted
  delivered := idsFor_logAt_set hp h.delivered hdone hdeliveries

/-- What a partition delivers is what it accepted, and so is routed to it. -/
theorem index_of_mem_deliveries {idx : Nat} {p : Partition σ}
    (haccepted : ∀ m ∈ p.accepted, outbox.index (target m.id) = idx)
    (hp : ∀ t, InOrderFor target t p.deliveries p.accepted) :
    ∀ m ∈ p.deliveries, outbox.index (target m.id) = idx := by
  intro m hm
  have hmem := (hp (target m.id)).subset (mem_idsFor.mpr ⟨⟨m, hm, rfl⟩, rfl⟩)
  obtain ⟨⟨m', hm', hid⟩, -⟩ := mem_idsFor.mp hmem
  rw [← hid]
  exact haccepted m' hm'

theorem deliveries_step (p : Partition σ) (action : RelayAction) :
    (p.step action).deliveries =
      p.deliveries ++ ((p.attempt? action).bind (·.delivered?)).toList := by
  rw [Partition.deliveries, Partition.processed_step, List.filterMap_append]
  cases p.attempt? action with
  | none => rfl
  | some a => cases a <;> rfl

def taken (p : Partition σ) (message : Message) : List Message :=
  if (p.send message).1 then [message] else []

theorem accepted_send (p : Partition σ) (message : Message) :
    (p.send message).2.accepted = p.accepted ++ taken p message := by
  rw [taken, Partition.send]
  dsimp only
  split
  · rfl
  · exact (List.append_nil _).symm

theorem step_send {t : String} {p : Partition σ} (message : Message)
    (hp : outbox.partitions[outbox.index t]? = some p) :
    outbox.step (.send t message) = { outbox with
      partitions := outbox.partitions.set (outbox.index t) (p.send message).2
      sent := outbox.sent ++ taken p message } := by
  rw [PartitionedOutboxRelay.step]
  dsimp only
  rw [← index, hp, taken]
  dsimp only
  split
  · rfl
  · rw [List.append_nil]

theorem step_relay {idx : Nat} {p : Partition σ} (action : RelayAction)
    (hp : outbox.partitions[idx]? = some p) :
    outbox.step (.relay idx action) = { outbox with
      partitions := outbox.partitions.set idx (p.step action)
      delivered := outbox.delivered ++ ((p.attempt? action).bind (·.delivered?)).toList } := by
  rw [PartitionedOutboxRelay.step, hp]

/-- A step whose message goes to the target that it is sent to. -/
theorem Routed.step (h : outbox.Routed target) {action : OutboxAction}
    (htarget : ∀ t message, action = .send t message → target message.id = t)
    (hin : (outbox.step action).PartitionsInOrder target) :
    (outbox.step action).Routed target := by
  cases action with
  | send t message =>
      cases hp : outbox.partitions[outbox.index t]? with
      | none =>
          have hstep : outbox.step (.send t message) = outbox := by
            rw [PartitionedOutboxRelay.step]
            dsimp only
            rw [← index, hp]
          rwa [hstep]
      | some p =>
          have hextend := h.extend hp (accepted_send p message)
            (List.append_nil _).symm ?_ (List.forall_mem_nil _)
          · rw [List.append_nil] at hextend
            rwa [step_send message hp]
          · intro m hm
            rw [taken] at hm
            split at hm
            · rw [List.mem_singleton.mp hm, htarget t message rfl]
            · exact absurd hm List.not_mem_nil
  | relay idx action =>
      cases hp : outbox.partitions[idx]? with
      | none =>
          have hstep : outbox.step (.relay idx action) = outbox := by
            rw [PartitionedOutboxRelay.step, hp]
          rwa [hstep]
      | some p =>
          rw [step_relay action hp] at hin ⊢
          have hidx := (List.getElem?_eq_some_iff.mp hp).1
          have hdeliveries := index_of_mem_deliveries (p := p.step action) (h.accepted idx p hp)
            (hin _ (List.mem_set hidx _))
          have haccepted : (p.step action).accepted = p.accepted ++ [] := (List.append_nil _).symm
          have hextend := h.extend hp haccepted (deliveries_step p action) (List.forall_mem_nil _)
            fun m hm => hdeliveries m ?_
          · rwa [List.append_nil] at hextend
          · rw [deliveries_step]
            exact List.mem_append_right _ hm

end PartitionedOutboxRelay

/-! ## In-memory partitions -/

theorem Partition.InOrder.inOrderFor {p : Partition InMemoryChannel} (h : p.InOrder)
    (target : String → String) (t : String) : InOrderFor target t p.deliveries p.accepted := by
  refine .of_sublist (List.Sublist.map _ ?_)
  have hdelivered : p.deliveries.Sublist (p.state.processed.map (·.message)) := by
    rw [Partition.deliveries]
    induction p.state.processed with
    | nil => exact .slnil
    | cons a attempts ih =>
        cases a with
        | refused message => exact ih.cons _
        | delivered message => exact ih.cons_cons _
        | failed message error => exact ih.cons _
  rw [h.accepted, List.append_assoc]
  exact hdelivered.trans (List.sublist_append_left _ _)

end PlexSpaces.Outbox
