import PlexSpaces.Outbox.Retry
import PlexSpaces.Outbox.Routing
/-!
# The order of deliveries to one target

In-memory partitions deliver the messages of a target in the order in which they
were sent: nothing that was received is put back.  Over SQLite channels a message
that is requeued with a delay comes after all that are not delayed, and a message
that is put back goes behind the rest of its batch.  `delivered_in_order` says
when the order is kept nevertheless.
-/

namespace PlexSpaces.Outbox

open PlexSpaces.Lib PlexSpaces.Channel

/-! ## Relays over injected channels -/

structure InjectedRelay where
  relay : OutboxRelay
  channel : SqliteChannel
  limiter : ConcurrencyLimiter
  db : Database

def InjectedRelay.partition (injected : InjectedRelay) : Partition Database where
  relay := injected.relay
  api := sqliteApi injected.channel
  state := { channel := injected.db, limiter := injected.limiter }

/-- `HashRouter` over the relays. -/
def PartitionedOutboxRelay.overRelays (relays : List InjectedRelay) :
    PartitionedOutboxRelay Database where
  numPartitions := .ofNat relays.length
  partitions := relays.map (·.partition)

/-- The limiter of an injected relay is shared, so that others may change it. -/
inductive InjectedAction where
  | outbox (action : OutboxAction)
  | limiter (partition : Nat) (limiter : ConcurrencyLimiter)

def Partition.withLimiter {σ : Type} (p : Partition σ) (limiter : ConcurrencyLimiter) :
    Partition σ :=
  { p with state := { p.state with limiter } }

def PartitionedOutboxRelay.stepInjected (outbox : PartitionedOutboxRelay Database) :
    InjectedAction → PartitionedOutboxRelay Database
  | .outbox action => outbox.step action
  | .limiter idx limiter =>
      match outbox.partitions[idx]? with
      | none => outbox
      | some p => { outbox with partitions := outbox.partitions.set idx (p.withLimiter limiter) }

/-! ## Keeping the place of a message -/

section Place

variable (target : String → String) (channel : SqliteChannel) (p : Partition Database)

def Partition.waiting : List ChannelMessage := p.state.channel.waiting channel.scope

/-- A new row for a target comes while no message to it waits for its time, except in the
current batch. -/
def Partition.SendsInTurn (message : Message) : Prop :=
  channel.Replaces message p.state.channel ∨
    ∀ row ∈ p.waiting channel, target row.id = target message.id → row.sendAt ≠ 0 →
      row.id ∈ p.state.batch.map (·.id)

/-- What is put back without a permit has no message to its target behind it in the batch; what
is requeued for a later time is the only message to its target that waits. -/
def Partition.RequeuesInTurn (action : RelayAction) : Prop :=
  match p.attempt? action with
  | some (.refused message) =>
      message.deliveryCount < maxRetriesFromConfig channel.config →
        ∀ message' ∈ p.state.batch.tail, target message'.id ≠ target message.id
  | some (.failed message error) =>
      shouldRetry p.relay.retryPolicy (message.deliveryCount + 1) error.toString = true →
        message.deliveryCount < maxRetriesFromConfig channel.config →
          ∀ row ∈ p.waiting channel, row.id ≠ message.id → target row.id ≠ target message.id
  | _ => True

instance (message : Message) : Decidable (p.SendsInTurn target channel message) :=
  inferInstanceAs (Decidable (_ ∨ ∀ row ∈ p.waiting channel, _ → _ → _))

instance (action : RelayAction) : Decidable (p.RequeuesInTurn target channel action) :=
  match h : p.attempt? action with
  | some (.refused message) =>
      decidable_of_iff (message.deliveryCount < maxRetriesFromConfig channel.config →
        ∀ message' ∈ p.state.batch.tail, target message'.id ≠ target message.id)
        (by rw [Partition.RequeuesInTurn, h])
  | some (.failed message error) =>
      decidable_of_iff (
        shouldRetry p.relay.retryPolicy (message.deliveryCount + 1) error.toString = true →
          message.deliveryCount < maxRetriesFromConfig channel.config →
            ∀ row ∈ p.waiting channel, row.id ≠ message.id → target row.id ≠ target message.id)
        (by rw [Partition.RequeuesInTurn, h])
  | some (.delivered _) => .isTrue (by rw [Partition.RequeuesInTurn, h]; trivial)
  | none => .isTrue (by rw [Partition.RequeuesInTurn, h]; trivial)

end Place

/-- The step keeps the places of the messages for each target. -/
def PartitionedOutboxRelay.KeepsPlaces (target : String → String) (channels : List SqliteChannel)
    (outbox : PartitionedOutboxRelay Database) : InjectedAction → Prop
  | .outbox (.send t message) =>
      ∀ channel ∈ channels[outbox.index t]?, ∀ p ∈ outbox.partitions[outbox.index t]?,
        p.SendsInTurn target channel message
  | .outbox (.relay idx action) =>
      ∀ channel ∈ channels[idx]?, ∀ p ∈ outbox.partitions[idx]?,
        p.RequeuesInTurn target channel action
  | .limiter _ _ => True

instance (target : String → String) (channels : List SqliteChannel)
    (outbox : PartitionedOutboxRelay Database) (action : InjectedAction) :
    Decidable (outbox.KeepsPlaces target channels action) :=
  match action with
  | .outbox (.send t message) =>
      inferInstanceAs (Decidable (∀ channel ∈ channels[outbox.index t]?,
        ∀ p ∈ outbox.partitions[outbox.index t]?, p.SendsInTurn target channel message))
  | .outbox (.relay idx action) =>
      inferInstanceAs (Decidable (∀ channel ∈ channels[idx]?, ∀ p ∈ outbox.partitions[idx]?,
        p.RequeuesInTurn target channel action))
  | .limiter _ _ => .isTrue trivial

/-! ## The rows of one target -/

def rowsFor (target : String → String) (t : String) (rows : List ChannelMessage) :
    List ChannelMessage :=
  rows.filter (target ·.id = t)

section Rows

variable {target : String → String} {t : String} {rows : List ChannelMessage}
variable {row : ChannelMessage} {id : String}

theorem mem_rowsFor : row ∈ rowsFor target t rows ↔ row ∈ rows ∧ target row.id = t := by
  rw [rowsFor, List.mem_filter, decide_eq_true_eq]

theorem rowsFor_map {f : ChannelMessage → ChannelMessage} (hf : ∀ row, (f row).id = row.id) :
    rowsFor target t (rows.map f) = (rowsFor target t rows).map f := by
  rw [rowsFor, List.filter_map]
  refine congrArg _ (List.filter_congr fun row _ => ?_)
  rw [Function.comp_apply, hf]

theorem rowsFor_concat_self (ht : target row.id = t) :
    rowsFor target t (rows ++ [row]) = rowsFor target t rows ++ [row] := by
  rw [rowsFor, List.filter_append]
  exact congrArg _ (List.filter_cons_of_pos (decide_eq_true ht))

theorem rowsFor_concat_other (ht : target row.id ≠ t) :
    rowsFor target t (rows ++ [row]) = rowsFor target t rows := by
  rw [rowsFor, List.filter_append, List.filter_cons_of_neg (by simpa using ht)]
  exact List.append_nil _

theorem rowsFor_gone (id : String) :
    rowsFor target t (rows.filter fun row => row.id ≠ id) =
      (rowsFor target t rows).filter fun row => row.id ≠ id := by
  rw [rowsFor, rowsFor, List.filter_filter, List.filter_filter]
  exact List.filter_congr fun row _ => Bool.and_comm _ _

theorem rowsFor_gone_other (ht : target id ≠ t) :
    rowsFor target t (rows.filter fun row => row.id ≠ id) = rowsFor target t rows := by
  rw [rowsFor_gone, List.filter_eq_self]
  intro row hrow
  refine decide_eq_true fun hid => ht ?_
  rw [← hid]
  exact (mem_rowsFor.mp hrow).2

theorem rowsFor_gone_head {rest : List ChannelMessage} (hnodup : (rows.map (·.id)).Nodup)
    (hrows : rowsFor target t rows = row :: rest) :
    rowsFor target t (rows.filter fun row' => row'.id ≠ row.id) = rest := by
  have hnodup' : ((rowsFor target t rows).map (·.id)).Nodup :=
    hnodup.sublist (List.filter_sublist.map _)
  rw [hrows, List.map_cons, List.nodup_cons] at hnodup'
  rw [rowsFor_gone, hrows, List.filter_cons_of_neg (by simp), List.filter_eq_self]
  intro row' hrow'
  refine decide_eq_true fun hid => hnodup'.1 ?_
  rw [← hid]
  exact List.mem_map_of_mem hrow'

/-- Sorting keeps the order of the selected rows if that is sorted. -/
theorem filter_insertionSort {q : ChannelMessage → Bool}
    (hsorted : (rows.filter q).Pairwise fun row row' => row.sortKey ≤ row'.sortKey) :
    (rows.insertionSort fun row row' => row.sortKey ≤ row'.sortKey).filter q = rows.filter q := by
  have hperm := List.perm_insertionSort
    (fun row row' : ChannelMessage => row.sortKey ≤ row'.sortKey) rows
  have hsub := (List.sublist_insertionSort hsorted List.filter_sublist).filter q
  rw [List.filter_filter] at hsub
  simp only [Bool.and_self] at hsub
  exact (hsub.eq_of_length (hperm.filter q).length_eq.symm).symm

end Rows

/-! ## What the steps keep -/

/-- Only the first of the rows may be delayed; if it is, then it is the only one or it is being
processed. -/
def Undelayed (batch : List Message) : List ChannelMessage → Prop
  | [] => True
  | row :: rest => (∀ row' ∈ rest, row'.sendAt = 0) ∧
      (row.sendAt = 0 ∨ rest = [] ∨ row.id ∈ batch.map (·.id))

theorem undelayed_of_forall {batch : List Message} {rows : List ChannelMessage}
    (h : ∀ row ∈ rows, row.sendAt = 0) : Undelayed batch rows := by
  cases rows with
  | nil => trivial
  | cons row rest =>
      exact ⟨fun row' hrow' => h row' (List.mem_cons_of_mem _ hrow'),
        .inl (h row List.mem_cons_self)⟩

theorem Undelayed.mono {batch : List Message} {rows : List ChannelMessage}
    (h : Undelayed [] rows) : Undelayed batch rows := by
  cases rows with
  | nil => trivial
  | cons row rest =>
      exact ⟨h.1, h.2.imp_right (Or.imp_right fun hmem => absurd hmem List.not_mem_nil)⟩

/-- For each target, what was delivered and what waits is in the order of the sends, and the
batch begins with what has waited longest. -/
structure Partition.Queued (target : String → String) (channel : SqliteChannel)
    (p : Partition Database) : Prop where
  ofChannel : p.api = sqliteApi channel
  delivered : ∀ t, (idsFor target t p.deliveries ++
    (rowsFor target t (p.waiting channel)).map (·.id)).Sublist (idsFor target t p.accepted)
  batch : ∀ t, idsFor target t p.state.batch <+: (rowsFor target t (p.waiting channel)).map (·.id)
  counts : ∀ message ∈ p.state.batch, ∃ row ∈ p.waiting channel,
    row.id = message.id ∧ message.deliveryCount = .ofNat row.deliveryCount
  created : (p.waiting channel).Pairwise fun row row' => row.createdAt ≤ row'.createdAt
  clock : ∀ row ∈ p.waiting channel, row.createdAt ≤ p.state.channel.clock
  place : ∀ t, Undelayed p.state.batch (rowsFor target t (p.waiting channel))

namespace Partition

section Process

variable {target : String → String} {channel : SqliteChannel} {p p' : Partition Database}
variable {message : Message} {batch : List Message}

theorem Queued.inOrderFor (h : p.Queued target channel) (t : String) :
    InOrderFor target t p.deliveries p.accepted :=
  (List.sublist_append_left _ _).trans (h.delivered t)

theorem nodup_waiting (p : Partition Database) (channel : SqliteChannel) :
    ((p.waiting channel).map (·.id)).Nodup := Database.nodup_waiting _ _

/-- The message in progress is the first of its target that waits. -/
theorem Queued.head (h : p.Queued target channel) (hbatch : p.state.batch = message :: batch) :
    ∃ row rest, rowsFor target (target message.id) (p.waiting channel) = row :: rest ∧
      row.id = message.id ∧ idsFor target (target message.id) batch <+: rest.map (·.id) := by
  have hbegin := h.batch (target message.id)
  rw [hbatch, idsFor_cons_self] at hbegin
  cases hrows : rowsFor target (target message.id) (p.waiting channel) with
  | nil =>
      rw [hrows] at hbegin
      exact absurd (List.prefix_nil.mp hbegin) (List.cons_ne_nil _ _)
  | cons row rest =>
      rw [hrows, List.map_cons, List.cons_prefix_cons] at hbegin
      exact ⟨row, rest, rfl, hbegin.1.symm, hbegin.2⟩

theorem Queued.rest_ne (h : p.Queued target channel) (hbatch : p.state.batch = message :: batch) :
    ∀ message' ∈ batch, message'.id ≠ message.id := by
  intro message' hmessage' hid
  obtain ⟨row, rest, hrows, hrow, hbegin⟩ := h.head hbatch
  have hmem : message.id ∈ idsFor target (target message.id) batch :=
    mem_idsFor.mpr ⟨⟨message', hmessage', hid⟩, rfl⟩
  have hnodup : ((rowsFor target (target message.id) (p.waiting channel)).map (·.id)).Nodup :=
    (p.nodup_waiting channel).sublist (List.filter_sublist.map _)
  rw [hrows, List.map_cons, List.nodup_cons, hrow] at hnodup
  exact hnodup.1 (hbegin.subset hmem)

theorem Queued.other (h : p.Queued target channel) (hbatch : p.state.batch = message :: batch)
    {t : String} (ht : target message.id ≠ t) :
    idsFor target t batch <+: (rowsFor target t (p.waiting channel)).map (·.id) ∧
      Undelayed batch (rowsFor target t (p.waiting channel)) := by
  have hbegin := h.batch t
  have hplace := h.place t
  rw [hbatch] at hbegin hplace
  rw [idsFor_cons_other ht] at hbegin
  refine ⟨hbegin, ?_⟩
  cases hrows : rowsFor target t (p.waiting channel) with
  | nil => trivial
  | cons row rest =>
      rw [hrows] at hplace
      refine ⟨hplace.1, hplace.2.imp_right (Or.imp_right fun hmem => ?_)⟩
      refine (List.mem_cons.mp hmem).resolve_left fun (hid : row.id = message.id) => ht ?_
      rw [← hid]
      exact (mem_rowsFor.mp (hrows ▸ List.mem_cons_self)).2

theorem Queued.gone (h : p.Queued target channel) (hbatch : p.state.batch = message :: batch)
    (hapi : p'.api = p.api) (haccepted : p'.accepted = p.accepted)
    (hrest : p'.state.batch = batch) {done : Option Message}
    (hdeliveries : p'.deliveries = p.deliveries ++ done.toList) (hdone : ∀ m ∈ done, m = message)
    (hclock : p.state.channel.clock ≤ p'.state.channel.clock)
    (hwaiting : p'.waiting channel = (p.waiting channel).filter fun row => row.id ≠ message.id) :
    p'.Queued target channel := by
  obtain ⟨row, rest, hrows, hrow, hbegin⟩ := h.head hbatch
  have hgone : rowsFor target (target message.id) (p'.waiting channel) = rest := by
    rw [hwaiting, ← hrow]
    exact rowsFor_gone_head (p.nodup_waiting channel) (hrow ▸ hrows)
  have hother {t : String} (ht : target message.id ≠ t) :
      rowsFor target t (p'.waiting channel) = rowsFor target t (p.waiting channel) := by
    rw [hwaiting]
    exact rowsFor_gone_other ht
  refine ⟨hapi.trans h.ofChannel, fun t => ?_, fun t => ?_, ?_, ?_, ?_, fun t => ?_⟩
  · rw [hdeliveries, haccepted, idsFor_append]
    by_cases ht : target message.id = t
    · subst ht
      have hsub := h.delivered (target message.id)
      rw [hrows, List.map_cons, hrow] at hsub
      rw [hgone, List.append_assoc]
      refine List.Sublist.trans (List.Sublist.append_left ?_ _) hsub
      cases done with
      | none => exact List.sublist_cons_self _ _
      | some m =>
          rw [hdone m rfl, Option.toList_some, idsFor_cons_self]
          exact List.Sublist.refl _
    · have hnone : idsFor target t done.toList = [] :=
        idsFor_eq_nil fun m hm => by rwa [hdone m (Option.mem_toList.mp hm)]
      rw [hother ht, hnone, List.append_nil]
      exact h.delivered t
  · rw [hrest]
    by_cases ht : target message.id = t
    · subst ht
      rwa [hgone]
    · rw [hother ht]
      exact (h.other hbatch ht).1
  · intro message' hmessage'
    rw [hrest] at hmessage'
    obtain ⟨row', hrow', hid', hcount⟩ :=
      h.counts message' (hbatch ▸ List.mem_cons_of_mem _ hmessage')
    refine ⟨row', hwaiting ▸ List.mem_filter.mpr ⟨hrow', decide_eq_true ?_⟩, hid', hcount⟩
    rw [hid']
    exact h.rest_ne hbatch message' hmessage'
  · rw [hwaiting]
    exact h.created.sublist List.filter_sublist
  · intro row' hrow'
    rw [hwaiting] at hrow'
    exact (h.clock row' (List.mem_filter.mp hrow').1).trans (Int.ofNat_le.mpr hclock)
  · rw [hrest]
    by_cases ht : target message.id = t
    · subst ht
      have hplace := h.place (target message.id)
      rw [hrows] at hplace
      rw [hgone]
      exact undelayed_of_forall hplace.1
    · rw [hother ht]
      exact (h.other hbatch ht).2

theorem Queued.requeued (h : p.Queued target channel)
    (hbatch : p.state.batch = message :: batch) (hapi : p'.api = p.api)
    (haccepted : p'.accepted = p.accepted) (hrest : p'.state.batch = batch)
    (hdeliveries : p'.deliveries = p.deliveries)
    (hclock : p.state.channel.clock ≤ p'.state.channel.clock) {sendAt : Int}
    (hwaiting : p'.waiting channel = (p.waiting channel).map fun row =>
      if row.id = message.id then row.requeued sendAt else row)
    (hinTurn : (sendAt = 0 ∧ ∀ message' ∈ batch, target message'.id ≠ target message.id) ∨
      ∀ row ∈ p.waiting channel, row.id ≠ message.id → target row.id ≠ target message.id) :
    p'.Queued target channel := by
  obtain ⟨row, rest, hrows, hrow, hbegin⟩ := h.head hbatch
  have hid (row' : ChannelMessage) :
      (if row'.id = message.id then row'.requeued sendAt else row').id = row'.id := by
    split <;> rfl
  have hcreated (row' : ChannelMessage) :
      (if row'.id = message.id then row'.requeued sendAt else row').createdAt =
        row'.createdAt := by
    split <;> rfl
  have hids (t : String) : (rowsFor target t (p'.waiting channel)).map (·.id) =
      (rowsFor target t (p.waiting channel)).map (·.id) := by
    rw [hwaiting, rowsFor_map hid, List.map_map]
    exact List.map_congr_left fun row' _ => hid row'
  -- rows of other messages are what they were
  have hsame {rows : List ChannelMessage} (hne : ∀ row' ∈ rows, row'.id ≠ message.id) :
      (rows.map fun row' => if row'.id = message.id then row'.requeued sendAt else row') = rows :=
    (List.map_congr_left fun row' hrow' => if_neg (hne row' hrow')).trans (List.map_id _)
  have hother {t : String} (ht : target message.id ≠ t) :
      rowsFor target t (p'.waiting channel) = rowsFor target t (p.waiting channel) := by
    rw [hwaiting, rowsFor_map hid]
    refine hsame fun row' hrow' hid' => ht ?_
    rw [← hid']
    exact (mem_rowsFor.mp hrow').2
  have hrest_ne : ∀ row' ∈ rest, row'.id ≠ message.id := by
    have hnodup : ((rowsFor target (target message.id) (p.waiting channel)).map (·.id)).Nodup :=
      (p.nodup_waiting channel).sublist (List.filter_sublist.map _)
    rw [hrows, List.map_cons, List.nodup_cons, hrow] at hnodup
    exact fun row' hrow' hid' => hnodup.1 (hid' ▸ List.mem_map_of_mem hrow')
  have hself : rowsFor target (target message.id) (p'.waiting channel) =
      row.requeued sendAt :: rest := by
    rw [hwaiting, rowsFor_map hid, hrows, List.map_cons, if_pos hrow, hsame hrest_ne]
  -- behind it no message to its target waits, or none is in the batch and it is not delayed
  have hbehind : (sendAt = 0 ∧ idsFor target (target message.id) batch = []) ∨ rest = [] := by
    refine hinTurn.imp (fun h => ⟨h.1, idsFor_eq_nil h.2⟩) fun honly => ?_
    refine List.eq_nil_iff_forall_not_mem.mpr fun row' hrow' => ?_
    obtain ⟨hmem, htarget⟩ := mem_rowsFor.mp (hrows ▸ List.mem_cons_of_mem _ hrow')
    exact honly row' hmem (hrest_ne row' hrow') htarget
  refine ⟨hapi.trans h.ofChannel, fun t => ?_, fun t => ?_, ?_, ?_, ?_, fun t => ?_⟩
  · rw [hdeliveries, haccepted, hids]
    exact h.delivered t
  · rw [hrest, hids]
    by_cases ht : target message.id = t
    · subst ht
      rcases hbehind with ⟨-, hnone⟩ | rfl
      · exact hnone ▸ List.nil_prefix
      · exact (List.prefix_nil.mp hbegin) ▸ List.nil_prefix
    · exact (h.other hbatch ht).1
  · intro message' hmessage'
    rw [hrest] at hmessage'
    obtain ⟨row', hrow', hid', hcount⟩ :=
      h.counts message' (hbatch ▸ List.mem_cons_of_mem _ hmessage')
    refine ⟨row', hwaiting ▸ List.mem_map.mpr ⟨row', hrow', if_neg ?_⟩, hid', hcount⟩
    rw [hid']
    exact h.rest_ne hbatch message' hmessage'
  · rw [hwaiting, List.pairwise_map]
    simpa only [hcreated] using h.created
  · intro row' hrow'
    rw [hwaiting] at hrow'
    obtain ⟨row₀, hrow₀, rfl⟩ := List.mem_map.mp hrow'
    rw [hcreated]
    exact (h.clock row₀ hrow₀).trans (Int.ofNat_le.mpr hclock)
  · rw [hrest]
    by_cases ht : target message.id = t
    · subst ht
      rw [hself]
      rcases hbehind with ⟨hnow, -⟩ | rfl
      · have hplace := h.place (target message.id)
        rw [hrows] at hplace
        exact ⟨hplace.1, .inl hnow⟩
      · exact ⟨nofun, .inr (.inl rfl)⟩
    · rw [hother ht]
      exact (h.other hbatch ht).2

/-- A message is to be requeued: it is put back, or the channel's limit makes it leave. -/
theorem Queued.nack_requeue (h : p.Queued target channel)
    (hbatch : p.state.batch = message :: batch) (hapi : p'.api = p.api)
    (haccepted : p'.accepted = p.accepted) (hrest : p'.state.batch = batch)
    (hdeliveries : p'.deliveries = p.deliveries) {delay : Option Nat}
    (hchannel : p'.state.channel = (Interaction.run Database.serve
      (channel.nack message.id true delay) p.state.channel).2)
    (hinTurn : message.deliveryCount < maxRetriesFromConfig channel.config →
      (delay = none ∧ ∀ message' ∈ batch, target message'.id ≠ target message.id) ∨
        ∀ row ∈ p.waiting channel, row.id ≠ message.id → target row.id ≠ target message.id) :
    p'.Queued target channel := by
  obtain ⟨row, hrow, hid, hcount⟩ := h.counts message (hbatch ▸ List.mem_cons_self)
  have hclock : p.state.channel.clock ≤ p'.state.channel.clock := hchannel ▸ clock_le_run _ _
  rw [hcount] at hinTurn
  rw [← hid] at hchannel
  by_cases hbelow : UInt32.ofNat row.deliveryCount < maxRetriesFromConfig channel.config
  · obtain ⟨sendAt, hnow, hwaiting⟩ := waiting_nack_requeue hrow hbelow delay
    rw [← hchannel, hid] at hwaiting
    exact h.requeued hbatch hapi haccepted hrest hdeliveries hclock hwaiting
      ((hinTurn hbelow).imp_left fun h => ⟨hnow h.1, h.2⟩)
  · have hwaiting := waiting_nack_gone hrow (fun _ : true = true => hbelow) delay
    have hdeliveries : p'.deliveries = p.deliveries ++ (none : Option Message).toList :=
      hdeliveries.trans (List.append_nil _).symm
    rw [← hchannel, hid] at hwaiting
    exact h.gone hbatch hapi haccepted hrest hdeliveries nofun hclock hwaiting

theorem Queued.process (h : p.Queued target channel) {outcome : Outcome}
    (hinTurn : p.RequeuesInTurn target channel (.process outcome)) :
    (p.step (.process outcome)).Queued target channel := by
  cases hbatch : p.state.batch with
  | nil =>
      have hstep : p.step (.process outcome) = p := by
        rw [Partition.step, OutboxRelay.step, hbatch]
      rwa [hstep]
  | cons message batch =>
      obtain ⟨a, hattempt, -, hrest, heffect⟩ := step_process p hbatch outcome
      obtain ⟨row, hrow, hid, -⟩ := h.counts message (hbatch ▸ List.mem_cons_self)
      have hdeliveries := PartitionedOutboxRelay.deliveries_step p (.process outcome)
      rw [RequeuesInTurn, hattempt, hbatch] at hinTurn
      rw [hattempt] at hdeliveries
      rw [h.ofChannel] at heffect
      cases heffect with
      | refused hpermit hchannel hstats =>
          exact h.nack_requeue hbatch rfl rfl hrest (hdeliveries.trans (List.append_nil _)) hchannel
            fun hbelow => .inl ⟨rfl, hinTurn hbelow⟩
      | delivered hchannel hstats =>
          have hwaiting := waiting_ack hrow
          rw [hid] at hwaiting
          exact h.gone hbatch rfl rfl hrest hdeliveries
            (fun m hm => (Option.mem_some_iff.mp hm).symm) (hchannel ▸ clock_le_run _ _)
            ((congrArg (·.waiting channel.scope) hchannel).trans hwaiting)
      | retried error backoff hretry hchannel hstats =>
          exact h.nack_requeue hbatch rfl rfl hrest (hdeliveries.trans (List.append_nil _)) hchannel
            fun hbelow => .inr (hinTurn hretry hbelow)
      | exhausted error hretry hchannel hstats =>
          have hwaiting := waiting_nack_gone hrow (fun h => absurd h Bool.false_ne_true) none
          rw [hid] at hwaiting
          exact h.gone hbatch rfl rfl hrest hdeliveries
            (fun m hm => absurd hm (Option.not_mem_none m)) (hchannel ▸ clock_le_run _ _)
            ((congrArg (·.waiting channel.scope) hchannel).trans hwaiting)

end Process

/-! ## Sends and batches -/

section Idle

variable {target : String → String} {channel : SqliteChannel} {p p' : Partition Database}

/-- What a send leaves as it is: nothing that was accepted is taken back. -/
structure Leaves (target : String → String) (p p' : Partition Database) : Prop where
  api : p'.api = p.api
  batch : p'.state.batch = p.state.batch
  deliveries : p'.deliveries = p.deliveries
  accepted : ∀ t, (idsFor target t p.accepted).Sublist (idsFor target t p'.accepted)
  clock : p.state.channel.clock ≤ p'.state.channel.clock

theorem Queued.created_le (h : p.Queued target channel) (hleaves : p.Leaves target p')
    {row : ChannelMessage} (hrow : row ∈ p.waiting channel) :
    row.createdAt ≤ p'.state.channel.clock :=
  (h.clock row hrow).trans (Int.ofNat_le.mpr hleaves.clock)

theorem Queued.rewritten (h : p.Queued target channel) (hleaves : p.Leaves target p')
    {f : ChannelMessage → ChannelMessage} (hf : ChannelMessage.Rewrites f)
    (hwaiting : p'.waiting channel = (p.waiting channel).map f) : p'.Queued target channel := by
  have hkey (row : ChannelMessage) :
      (f row).sendAt = row.sendAt ∧ (f row).createdAt = row.createdAt :=
    Prod.ext_iff.mp (hf.sortKey row)
  have hids (t : String) : (rowsFor target t (p'.waiting channel)).map (·.id) =
      (rowsFor target t (p.waiting channel)).map (·.id) := by
    rw [hwaiting, rowsFor_map hf.id, List.map_map]
    exact List.map_congr_left fun row _ => hf.id row
  refine ⟨hleaves.api.trans h.ofChannel, fun t => ?_, fun t => ?_, fun m hm => ?_, ?_,
    fun row' hrow' => ?_, fun t => ?_⟩
  · rw [hleaves.deliveries, hids]
    exact (h.delivered t).trans (hleaves.accepted t)
  · rw [hleaves.batch, hids]
    exact h.batch t
  · rw [hleaves.batch] at hm
    obtain ⟨row, hrow, hid, hcount⟩ := h.counts m hm
    refine ⟨f row, hwaiting ▸ List.mem_map_of_mem hrow, (hf.id row).trans hid, ?_⟩
    rw [hf.deliveryCount, hcount]
  · rw [hwaiting, List.pairwise_map]
    simpa only [hkey] using h.created
  · rw [hwaiting] at hrow'
    obtain ⟨row, hrow, rfl⟩ := List.mem_map.mp hrow'
    exact (hkey row).2.trans_le (h.created_le hleaves hrow)
  · rw [hleaves.batch, hwaiting, rowsFor_map hf.id]
    have hplace := h.place t
    cases hrows : rowsFor target t (p.waiting channel) with
    | nil => trivial
    | cons row rest =>
        rw [hrows] at hplace
        refine ⟨?_, hplace.2.imp (hkey row).1.trans
          (Or.imp (fun hnil => congrArg _ hnil) (hf.id row).symm.subst)⟩
        intro row' hrow'
        obtain ⟨row₀, hrow₀, rfl⟩ := List.mem_map.mp hrow'
        exact (hkey row₀).1.trans (hplace.1 row₀ hrow₀)

/-- A row for the message has been appended, which is not delayed. -/
theorem Queued.appended (h : p.Queued target channel) (hleaves : p.Leaves target p')
    {message : Message} (haccepted : p'.accepted = p.accepted ++ [message])
    {new : ChannelMessage} (hid : new.id = message.id) (hnow : new.sendAt = 0)
    (hnew : new.createdAt = p'.state.channel.clock)
    (hwaiting : p'.waiting channel = p.waiting channel ++ [new])
    (hinTurn : ∀ row ∈ p.waiting channel, target row.id = target message.id → row.sendAt ≠ 0 →
      row.id ∈ p.state.batch.map (·.id)) : p'.Queued target channel := by
  have hother {t : String} (ht : target message.id ≠ t) :
      rowsFor target t (p'.waiting channel) = rowsFor target t (p.waiting channel) := by
    rw [hwaiting]
    exact rowsFor_concat_other (hid ▸ ht)
  have hself : rowsFor target (target message.id) (p'.waiting channel) =
      rowsFor target (target message.id) (p.waiting channel) ++ [new] := by
    rw [hwaiting]
    exact rowsFor_concat_self (congrArg target hid)
  refine ⟨hleaves.api.trans h.ofChannel, fun t => ?_, fun t => ?_, fun m hm => ?_, ?_, ?_,
    fun t => ?_⟩
  · rw [hleaves.deliveries]
    by_cases ht : target message.id = t
    · subst ht
      rw [hself, haccepted, idsFor_append, idsFor_cons_self, List.map_append,
        ← List.append_assoc, List.map_singleton, hid]
      exact (h.delivered _).append (List.Sublist.refl _)
    · rw [hother ht]
      exact (h.delivered t).trans (hleaves.accepted t)
  · rw [hleaves.batch]
    by_cases ht : target message.id = t
    · subst ht
      rw [hself, List.map_append]
      exact (h.batch _).trans (List.prefix_append _ _)
    · rw [hother ht]
      exact h.batch t
  · rw [hleaves.batch] at hm
    obtain ⟨row, hrow, hid, hcount⟩ := h.counts m hm
    exact ⟨row, hwaiting ▸ List.mem_append_left _ hrow, hid, hcount⟩
  · rw [hwaiting, List.pairwise_append]
    refine ⟨h.created, List.pairwise_singleton _ _, fun row hrow row' hrow' => ?_⟩
    rw [List.mem_singleton.mp hrow', hnew]
    exact h.created_le hleaves hrow
  · rw [hwaiting]
    refine List.forall_mem_append.mpr ⟨fun row hrow => h.created_le hleaves hrow, ?_⟩
    exact List.forall_mem_singleton.mpr hnew.le
  · rw [hleaves.batch]
    by_cases ht : target message.id = t
    · subst ht
      have hplace := h.place (target message.id)
      rw [hself]
      cases hrows : rowsFor target (target message.id) (p.waiting channel) with
      | nil => exact ⟨List.forall_mem_nil _, .inl hnow⟩
      | cons row rest =>
          rw [hrows] at hplace
          obtain ⟨hrow, htarget⟩ := mem_rowsFor.mp (hrows ▸ List.mem_cons_self)
          refine ⟨List.forall_mem_append.mpr ⟨hplace.1, List.forall_mem_singleton.mpr hnow⟩, ?_⟩
          by_cases hnow' : row.sendAt = 0
          · exact .inl hnow'
          · exact .inr (.inr (hinTurn row hrow htarget hnow'))
    · rw [hother ht]
      exact h.place t

theorem Queued.send (h : p.Queued target channel) {message : Message}
    (hinTurn : p.SendsInTurn target channel message) :
    (p.send message).2.Queued target channel := by
  have hdb : (p.send message).2.state.channel =
      (Interaction.run Database.serve (channel.send message) p.state.channel).2 := by
    rw [Partition.send, h.ofChannel]
    rfl
  have hok : (p.send message).1 =
      (Interaction.run Database.serve (channel.send message) p.state.channel).1.isOk := by
    rw [Partition.send, h.ofChannel]
    rfl
  have haccepted := PartitionedOutboxRelay.accepted_send p message
  have hleaves : p.Leaves target (p.send message).2 := by
    refine ⟨rfl, rfl, rfl, ?_, hdb ▸ clock_le_run _ _⟩
    intro t
    rw [haccepted, idsFor_append]
    exact List.sublist_append_left _ _
  have htaken : (p.send message).1 = true → PartitionedOutboxRelay.taken p message = [message] :=
    fun h => if_pos h
  have hsent := @sent_send channel message p.state.channel
  rw [← hdb, ← hok] at hsent
  generalize (p.send message).1 = ok at hsent htaken
  cases hsent with
  | rewritten f hf hwaiting => exact h.rewritten hleaves hf hwaiting
  | appended timestamp hnew hfree hwaiting =>
      rw [htaken rfl] at haccepted
      exact h.appended hleaves haccepted rfl rfl rfl hwaiting (hinTurn.resolve_left hnew)
  | refused hwaiting =>
      refine h.rewritten hleaves ChannelMessage.rewrites_self ?_
      rw [List.map_id']
      exact hwaiting

/-- A batch begins, for each target, with what has waited longest. -/
theorem rowsFor_received {rows : List ChannelMessage} {t : String} (now : Int) (n : Nat)
    (hcreated : rows.Pairwise fun row row' => row.createdAt ≤ row'.createdAt)
    (hplace : Undelayed [] (rowsFor target t rows)) :
    rowsFor target t (((rows.filter (·.due now)).insertionSort fun row row' =>
      row.sortKey ≤ row'.sortKey).take n) <+: rowsFor target t rows := by
  have hdue : (rowsFor target t (rows.filter (·.due now))).Sublist (rowsFor target t rows) :=
    List.filter_sublist.filter _
  have hsorted : (rowsFor target t (rows.filter (·.due now))).Pairwise
      (fun row row' => row.sortKey ≤ row'.sortKey) ∧
      rowsFor target t (rows.filter (·.due now)) <+: rowsFor target t rows := by
    cases hrows : rowsFor target t rows with
    | nil =>
        rw [hrows] at hdue
        rw [List.sublist_nil.mp hdue]
        exact ⟨.nil, List.nil_prefix⟩
    | cons row rest =>
        rw [hrows] at hdue hplace
        obtain ⟨hrest, hnow | rfl | hbatch⟩ := hplace
        · -- none is delayed, so all are due and ordered by their creation
          have hzero : ∀ row' ∈ rowsFor target t rows, row'.sendAt = 0 := by
            rw [hrows]
            exact List.forall_mem_cons.mpr ⟨hnow, hrest⟩
          have hall : rowsFor target t (rows.filter (·.due now)) = rowsFor target t rows := by
            rw [rowsFor, List.filter_comm]
            refine List.filter_eq_self.mpr fun row' hrow' => ?_
            exact decide_eq_true (.inl (hzero row' hrow'))
          rw [hall, ← hrows]
          refine ⟨?_, List.prefix_refl _⟩
          refine (hcreated.sublist List.filter_sublist).imp_of_mem ?_
          intro row₁ row₂ h₁ h₂ hle
          rw [ChannelMessage.sortKey, ChannelMessage.sortKey, hzero row₁ h₁, hzero row₂ h₂]
          exact Prod.Lex.toLex_le_toLex.mpr (.inr ⟨rfl, hle⟩)
        · rcases List.sublist_cons_iff.mp hdue with hnone | ⟨rest, heq, hnone⟩
          · rw [List.sublist_nil.mp hnone]
            exact ⟨.nil, List.nil_prefix⟩
          · rw [heq, List.sublist_nil.mp hnone]
            exact ⟨List.pairwise_singleton _ _, List.prefix_refl _⟩
        · exact absurd hbatch List.not_mem_nil
  refine List.IsPrefix.trans ?_ hsorted.2
  refine ((List.take_prefix _ _).filter _).trans ?_
  exact (filter_insertionSort hsorted.1) ▸ List.prefix_refl _

theorem Queued.poll (h : p.Queued target channel) : (p.step .poll).Queued target channel := by
  rw [Partition.step, OutboxRelay.step]
  split
  next hidle =>
    rw [OutboxRelay.poll]
    dsimp only
    split
    next => exact ⟨h.ofChannel, h.delivered, h.batch, h.counts, h.created, h.clock, h.place⟩
    next =>
      obtain ⟨now, -, hreceived⟩ := receive_eq channel
        (min p.state.limiter.available p.relay.batchSize.toUInt32).toNat p.state.channel
      have hplace := h.place
      rw [hidle.2] at hplace
      rw [Database.deliverable_eq] at hreceived
      rw [h.ofChannel]
      refine ⟨rfl, h.delivered, fun t => ?_, fun m hm => ?_, h.created, fun row hrow => ?_,
        fun t => (hplace t).mono⟩
      · change idsFor target t (Interaction.run Database.serve (channel.receive _) _).1 <+: _
        rw [hreceived, idsFor, List.map_map, List.filter_map]
        exact (rowsFor_received now _ h.created (hplace t)).map _
      · change m ∈ (Interaction.run Database.serve (channel.receive _) p.state.channel).1 at hm
        rw [hreceived] at hm
        obtain ⟨row, hrow, rfl⟩ := List.mem_map.mp hm
        have hmem := (List.mem_insertionSort _).mp (List.mem_of_mem_take hrow)
        exact ⟨row, (List.mem_filter.mp hmem).1, rfl, rfl⟩
      · exact (h.clock row hrow).trans (Int.ofNat_le.mpr (clock_le_run (channel.receive
          (min p.state.limiter.available p.relay.batchSize.toUInt32).toNat) _))
  next => exact ⟨h.ofChannel, h.delivered, h.batch, h.counts, h.created, h.clock, h.place⟩

theorem Queued.step (h : p.Queued target channel) {action : RelayAction}
    (hinTurn : p.RequeuesInTurn target channel action) :
    (p.step action).Queued target channel := by
  cases action with
  | run => exact ⟨h.ofChannel, h.delivered, h.batch, h.counts, h.created, h.clock, h.place⟩
  | stop => exact ⟨h.ofChannel, h.delivered, h.batch, h.counts, h.created, h.clock, h.place⟩
  | poll => exact h.poll
  | process outcome => exact h.process hinTurn

end Idle

end Partition

/-! ## Runs -/

namespace PartitionedOutboxRelay

variable {target : String → String} {channels : List SqliteChannel}
variable {outbox : PartitionedOutboxRelay Database}

/-- Every partition keeps the order of its messages, over the channel with its index. -/
def Queued (target : String → String) (channels : List SqliteChannel)
    (outbox : PartitionedOutboxRelay Database) : Prop :=
  ∀ (idx : Nat) (p : Partition Database), outbox.partitions[idx]? = some p →
    ∃ channel, channels[idx]? = some channel ∧ p.Queued target channel

theorem Queued.partitionsInOrder (h : outbox.Queued target channels) :
    outbox.PartitionsInOrder target := by
  intro p hp t
  obtain ⟨idx, hidx⟩ := List.mem_iff_getElem?.mp hp
  obtain ⟨channel, -, hqueued⟩ := h idx p hidx
  exact hqueued.inOrderFor t

theorem Queued.set (h : outbox.Queued target channels) {idx : Nat} {p p' : Partition Database}
    (hp : outbox.partitions[idx]? = some p)
    (hqueued : ∀ channel, channels[idx]? = some channel → p.Queued target channel →
      p'.Queued target channel) {sent delivered : List Message} :
    Queued target channels { outbox with
      partitions := outbox.partitions.set idx p', sent, delivered } := by
  intro idx' q hq
  by_cases hidx : idx = idx'
  · subst hidx
    rw [List.getElem?_set_self (List.getElem?_eq_some_iff.mp hp).1] at hq
    cases hq
    obtain ⟨channel, hchannel, hold⟩ := h idx p hp
    exact ⟨channel, hchannel, hqueued channel hchannel hold⟩
  · rw [List.getElem?_set_ne hidx] at hq
    exact h idx' q hq

theorem Queued.step (h : outbox.Queued target channels) {action : InjectedAction}
    (hkeeps : outbox.KeepsPlaces target channels action) :
    (outbox.stepInjected action).Queued target channels := by
  cases action with
  | outbox action =>
      rw [stepInjected]
      cases action with
      | send t message =>
          cases hp : outbox.partitions[outbox.index t]? with
          | none =>
              rw [PartitionedOutboxRelay.step]
              dsimp only
              rwa [← index, hp]
          | some p =>
              rw [step_send message hp]
              exact h.set hp fun channel hchannel hqueued =>
                hqueued.send (hkeeps channel hchannel p hp)
      | relay idx action =>
          cases hp : outbox.partitions[idx]? with
          | none => rwa [PartitionedOutboxRelay.step, hp]
          | some p =>
              rw [step_relay action hp]
              exact h.set hp fun channel hchannel hqueued =>
                hqueued.step (hkeeps channel hchannel p hp)
  | limiter idx limiter =>
      rw [stepInjected]
      cases hp : outbox.partitions[idx]? with
      | none => exact h
      | some p =>
          change Queued target channels { outbox with
            partitions := outbox.partitions.set idx (p.withLimiter limiter) }
          refine h.set hp fun channel _ hqueued => ?_
          exact ⟨hqueued.ofChannel, hqueued.delivered, hqueued.batch, hqueued.counts,
            hqueued.created, hqueued.clock, hqueued.place⟩

/-- A message goes to the target that it is sent to. -/
def Addressed (target : String → String) : OutboxAction → Prop
  | .send t message => target message.id = t
  | .relay _ _ => True

theorem Routed.stepInjected (h : outbox.Routed target) {action : InjectedAction}
    (haddressed : ∀ a, action = .outbox a → Addressed target a)
    (hin : (outbox.stepInjected action).PartitionsInOrder target) :
    (outbox.stepInjected action).Routed target := by
  cases action with
  | outbox action =>
      refine Routed.step h ?_ hin
      rintro t message rfl
      exact haddressed _ rfl
  | limiter idx limiter =>
      rw [PartitionedOutboxRelay.stepInjected]
      cases hp : outbox.partitions[idx]? with
      | none => exact h
      | some p =>
          have haccepted : (p.withLimiter limiter).accepted = p.accepted ++ [] :=
            (List.append_nil _).symm
          have hdeliveries : (p.withLimiter limiter).deliveries = p.deliveries ++ [] :=
            (List.append_nil _).symm
          have hextend := h.extend hp haccepted hdeliveries nofun nofun
          rwa [List.append_nil, List.append_nil] at hextend

theorem routed_of_fresh {σ : Type} {outbox : PartitionedOutboxRelay σ}
    (hfresh : ∀ p ∈ outbox.partitions, p.accepted = [] ∧ p.deliveries = [])
    (hsent : outbox.sent = []) (hdelivered : outbox.delivered = []) : outbox.Routed target := by
  have hlog {log : Partition σ → List Message} (hlog : ∀ p ∈ outbox.partitions, log p = [])
      (idx : Nat) : logAt outbox.partitions log idx = [] := by
    rw [logAt]
    cases hp : outbox.partitions[idx]? with
    | none => rfl
    | some p => exact hlog p (List.mem_of_getElem? hp)
  refine ⟨fun idx p hp m hm => ?_, fun t => ?_, fun t => ?_⟩
  · rw [(hfresh p (List.mem_of_getElem? hp)).1] at hm
    exact absurd hm List.not_mem_nil
  · rw [hsent, hlog fun p hp => (hfresh p hp).1]
  · rw [hdelivered, hlog fun p hp => (hfresh p hp).2]

theorem routed_new {config : PartitionedOutboxConfig}
    {outbox : PartitionedOutboxRelay InMemoryChannel} (hnew : new config = some outbox) :
    outbox.Routed target := by
  obtain ⟨p, -, haccepted, hprocessed, rfl⟩ := eq_of_new hnew
  refine routed_of_fresh (fun q hq => ?_) rfl rfl
  rw [(List.mem_replicate.mp hq).2, Partition.deliveries, hprocessed]
  exact ⟨haccepted, rfl⟩

theorem routed_over (relays : List InjectedRelay) : (overRelays relays).Routed target := by
  refine routed_of_fresh (fun p hp => ?_) rfl rfl
  obtain ⟨injected, -, rfl⟩ := List.mem_map.mp hp
  exact ⟨rfl, rfl⟩

theorem InOrder.partitionsInOrder {outbox : PartitionedOutboxRelay InMemoryChannel}
    (h : outbox.InOrder) : outbox.PartitionsInOrder target :=
  fun p hp t => (h p hp).inOrderFor target t

theorem queued_over {relays : List InjectedRelay}
    (hempty : ∀ injected ∈ relays, injected.db.waiting injected.channel.scope = []) :
    (overRelays relays).Queued target (relays.map (·.channel)) := by
  intro idx p hp
  change (relays.map (·.partition))[idx]? = some p at hp
  rw [List.getElem?_map, Option.map_eq_some_iff] at hp
  obtain ⟨injected, hinjected, rfl⟩ := hp
  have hwaiting : injected.partition.waiting injected.channel = [] :=
    hempty injected (List.mem_of_getElem? hinjected)
  refine ⟨injected.channel, ?_, ⟨rfl, fun t => ?_, fun t => ?_, nofun, ?_, ?_, fun t => ?_⟩⟩
  · rw [List.getElem?_map, hinjected, Option.map_some]
  · rw [hwaiting]
    exact List.Sublist.refl _
  · exact List.nil_prefix
  · exact hwaiting ▸ .nil
  · exact hwaiting ▸ nofun
  · exact hwaiting ▸ trivial

end PartitionedOutboxRelay

/-- The messages of each target are delivered in the order of the sends: over in-memory
partitions always, over SQLite channels in every run whose steps keep the places of the messages
that wait. -/
theorem delivered_in_order (target : String → String) :
    (∀ (config : PartitionedOutboxConfig) (outbox : PartitionedOutboxRelay InMemoryChannel),
      PartitionedOutboxRelay.new config = some outbox →
      ∀ actions : List OutboxAction,
        (∀ a ∈ actions, PartitionedOutboxRelay.Addressed target a) →
        ∀ t, InOrderFor target t (run PartitionedOutboxRelay.step outbox actions).delivered
          (run PartitionedOutboxRelay.step outbox actions).sent) ∧
    (∀ relays : List InjectedRelay,
      (∀ injected ∈ relays, injected.db.waiting injected.channel.scope = []) →
      ∀ actions : List InjectedAction,
        (∀ a, .outbox a ∈ actions → PartitionedOutboxRelay.Addressed target a) →
        Along PartitionedOutboxRelay.stepInjected
          (PartitionedOutboxRelay.KeepsPlaces target (relays.map (·.channel)))
          (PartitionedOutboxRelay.overRelays relays) actions →
        ∀ t, InOrderFor target t
          (run PartitionedOutboxRelay.stepInjected (PartitionedOutboxRelay.overRelays relays)
            actions).delivered
          (run PartitionedOutboxRelay.stepInjected (PartitionedOutboxRelay.overRelays relays)
            actions).sent) := by
  constructor
  · intro config outbox hnew actions haddressed t
    have hstart : outbox.InOrder ∧ outbox.Routed target :=
      ⟨(inOrder_new hnew).1, PartitionedOutboxRelay.routed_new hnew⟩
    have hstep : ∀ a ∈ actions, ∀ outbox : PartitionedOutboxRelay InMemoryChannel,
        outbox.InOrder ∧ outbox.Routed target →
          (outbox.step a).InOrder ∧ (outbox.step a).Routed target := by
      intro a ha outbox h
      have hnext := h.1.step a
      refine ⟨hnext, h.2.step ?_ hnext.partitionsInOrder⟩
      rintro t message rfl
      exact haddressed _ ha
    have hlast := run_invariant hstep hstart
    exact hlast.2.inOrderFor hlast.1.partitionsInOrder t
  · intro relays hempty actions haddressed hkeeps t
    have hstart :
        (PartitionedOutboxRelay.overRelays relays).Queued target (relays.map (·.channel)) ∧
        (PartitionedOutboxRelay.overRelays relays).Routed target :=
      ⟨PartitionedOutboxRelay.queued_over hempty, PartitionedOutboxRelay.routed_over relays⟩
    have haddressed : ∀ action ∈ actions, ∀ a, action = .outbox a →
        PartitionedOutboxRelay.Addressed target a := by
      rintro _ ha a rfl
      exact haddressed a ha
    have hall := along_and.mpr ⟨along_of_forall haddressed _, hkeeps⟩
    have hstep : ∀ (outbox : PartitionedOutboxRelay Database) (action : InjectedAction),
        outbox.Queued target (relays.map (·.channel)) ∧ outbox.Routed target →
        (∀ a, action = .outbox a → PartitionedOutboxRelay.Addressed target a) ∧
          outbox.KeepsPlaces target (relays.map (·.channel)) action →
        (outbox.stepInjected action).Queued target (relays.map (·.channel)) ∧
          (outbox.stepInjected action).Routed target := by
      intro outbox action h ha
      have hnext := h.1.step ha.2
      exact ⟨hnext, h.2.stepInjected ha.1 hnext.partitionsInOrder⟩
    have hlast := hall.invariant hstep hstart
    exact hlast.2.inOrderFor hlast.1.partitionsInOrder t

/-- One relay over one channel, with three attempts for each message. -/
def oneRelay : InjectedRelay where
  relay := { retryPolicy := { maxAttempts := 3 }, batchSize := 100 }
  channel := {}
  limiter := somePermits
  db := { ticks := [0, 0, 0, 0, 0, 0, 200] }

theorem step_send_one {outbox : PartitionedOutboxRelay Database} {p : Partition Database}
    (hone : outbox.numPartitions = 1) (hp : outbox.partitions[0]? = some p) (t : String)
    (message : Message) :
    outbox.stepInjected (.outbox (.send t message)) = { outbox with
      partitions := outbox.partitions.set 0 (p.send message).2
      sent := outbox.sent ++ PartitionedOutboxRelay.taken p message } := by
  have hindex : outbox.index t = 0 := by
    rw [PartitionedOutboxRelay.index, hone, route_one]
    rfl
  rw [PartitionedOutboxRelay.stepInjected,
    PartitionedOutboxRelay.step_send message (hindex ▸ hp), hindex]

/-- The first of two messages in a batch fails once. -/
def retriedBehind : List InjectedAction :=
  [.outbox (.send "actor" { id := "first" }), .outbox (.send "actor" { id := "second" }),
    .outbox (.relay 0 .run), .outbox (.relay 0 .poll),
    .outbox (.relay 0 (.process (.failed (.transient "down") 100))),
    .outbox (.relay 0 (.process .delivered)), .outbox (.relay 0 .poll),
    .outbox (.relay 0 (.process .delivered))]

theorem not_delivered_in_order :
    ¬InOrderFor (fun _ => "actor") "actor"
      (run PartitionedOutboxRelay.stepInjected (PartitionedOutboxRelay.overRelays [oneRelay])
        retriedBehind).delivered
      (run PartitionedOutboxRelay.stepInjected (PartitionedOutboxRelay.overRelays [oneRelay])
        retriedBehind).sent := by
  rw [retriedBehind, run_cons, step_send_one rfl rfl, run_cons, step_send_one rfl rfl]
  decide +kernel

/-- A message that is retried while no other waits. -/
def retriedAlone : List InjectedAction :=
  [.outbox (.send "actor" { id := "first" }), .outbox (.relay 0 .run), .outbox (.relay 0 .poll),
    .outbox (.relay 0 (.process (.failed (.transient "down") 0))), .outbox (.relay 0 .poll),
    .outbox (.relay 0 (.process .delivered))]

theorem delivered_in_order_alone :
    InOrderFor (fun _ => "actor") "actor"
        (run PartitionedOutboxRelay.step retryingOutbox lostRetry).delivered
        (run PartitionedOutboxRelay.step retryingOutbox lostRetry).sent ∧
      InOrderFor (fun _ => "actor") "actor"
        (run PartitionedOutboxRelay.stepInjected (PartitionedOutboxRelay.overRelays [oneRelay])
          retriedAlone).delivered
        (run PartitionedOutboxRelay.stepInjected (PartitionedOutboxRelay.overRelays [oneRelay])
          retriedAlone).sent := by
  constructor
  · refine (delivered_in_order _).1 _ _ new_retryingConfig lostRetry ?_ _
    rw [lostRetry]
    simp [PartitionedOutboxRelay.Addressed]
  · refine (delivered_in_order _).2 [oneRelay] ?_ retriedAlone ?_ ?_ _
    · decide +kernel
    · rw [retriedAlone]
      simp [PartitionedOutboxRelay.Addressed]
    · rw [retriedAlone, along_cons, step_send_one rfl rfl]
      refine ⟨?_, by decide +kernel⟩
      intro channel hchannel p hp
      obtain rfl := List.mem_singleton.mp (List.mem_of_getElem? hchannel)
      obtain rfl := List.mem_singleton.mp (List.mem_of_getElem? hp)
      decide +kernel

end PlexSpaces.Outbox
