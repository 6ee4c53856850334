import Mathlib.Data.List.InsertIdx
import PlexSpaces.Lib.Run
import PlexSpaces.Mailbox.Mailbox
/-!
# What `DropOldest` drops

A full mailbox under `DropOldest` makes room by taking the message in front of its internal
queue: the one that is to be delivered next.  The messages are numbered here as they arrive.
The message in front arrived first in a queue in the order of arrival, last in a queue in the
opposite order, and anywhere in a queue by priority; and the messages that the background
tasks have carried out of the queue are older than all of them (`drops_oldest_iff`).
-/

namespace PlexSpaces.Mailbox

open PlexSpaces.Lib

/-- A data message with the number of its arrival. -/
structure Arrival where
  number : Nat
  message : Message
  deriving DecidableEq

namespace Arrival

def priority (e : Arrival) : Int := e.message.priority

end Arrival

/-- `MessageStorage::push` on numbered messages. -/
def insertArrival (ordering : OrderingStrategy) (pos : Nat) (e : Arrival)
    (queue : List Arrival) : List Arrival :=
  match ordering with
  | .lifo => e :: queue
  | .priority => insertByRank Arrival.priority e queue
  | .random => queue.insertIdx (min pos queue.length) e
  | _ => queue ++ [e]

theorem map_insertArrival {storage : MessageStorage} {ordering : OrderingStrategy}
    (hfits : storage.Fits ordering) {queue : List Arrival}
    (hshown : queue.map Arrival.message = storage.messages) (pos : Nat) (e : Arrival) :
    (insertArrival ordering pos e queue).map Arrival.message =
      (storage.push ordering pos e.message).messages := by
  cases storage with
  | priority heap =>
      cases hfits
      change (insertByRank (fun e : Arrival => e.message.priority) e queue).map Arrival.message = _
      rw [map_insertByRank, hshown]
      rfl
  | queue q =>
      have hq : queue.map Arrival.message = q := hshown
      subst hq
      cases ordering with
      | priority => exact absurd rfl hfits
      | lifo => rfl
      | random =>
          rw [insertArrival, List.map_insertIdx, MessageStorage.push, List.length_map]
          rfl
      | fifo => exact List.map_append
      | unspecified => exact List.map_append

theorem insertArrival_perm (ordering : OrderingStrategy) (pos : Nat) (e : Arrival)
    (queue : List Arrival) : (insertArrival ordering pos e queue).Perm (e :: queue) := by
  cases ordering with
  | lifo => exact List.Perm.refl _
  | priority => exact insertByRank_perm e queue
  | random => exact List.perm_insertIdx e queue (min_le_right _ _)
  | fifo => exact List.perm_append_singleton e queue
  | unspecified => exact List.perm_append_singleton e queue

theorem sublist_insertArrival (ordering : OrderingStrategy) (pos : Nat) (e : Arrival)
    (queue : List Arrival) : queue.Sublist (insertArrival ordering pos e queue) := by
  cases ordering with
  | lifo => exact List.sublist_cons_self e queue
  | priority => exact sublist_insertByRank e queue
  | random => exact List.sublist_insertIdx queue _ e
  | fifo => exact List.sublist_append_left queue [e]
  | unspecified => exact List.sublist_append_left queue [e]

/-- A mailbox under `DropOldest` with its numbered data messages: those of the internal queue in
the order of delivery, and those that background tasks have carried out of it and that the actor
has not received. -/
structure Waiting where
  mailbox : Mailbox
  queue : List Arrival
  carried : List Arrival
  arrived : Nat
  slow : mailbox.fastPath = false
  drops : mailbox.config.backpressure = .dropOldest
  fits : mailbox.Fits
  shown : queue.map Arrival.message = mailbox.internalQueue.messages

inductive WaitingEvent
  | enqueue (pos : Nat) (m : Message)
  | overwrite (m : Message)
  | rearrange (queue : List Arrival)
  | drain
  | leave (e : Arrival)
  | count (size : Nat)

theorem slow_of_new {env : Env} {config : MailboxConfig} {mb : Mailbox}
    (hnew : Mailbox.new env config = .ok mb) (hdrop : config.backpressure = .dropOldest) :
    mb.fastPath = false ∧ mb.config.backpressure = .dropOldest := by
  unfold Mailbox.new at hnew
  split at hnew
  · cases hnew
  · cases hnew
    refine ⟨?_, hdrop⟩
    simp [hdrop]

namespace Waiting

def ordering (w : Waiting) : OrderingStrategy := w.mailbox.config.ordering

def messages (w : Waiting) : List Arrival := w.carried ++ w.queue

def full (w : Waiting) : Bool := w.mailbox.maxCapacity ≤ w.mailbox.dataQueueSize

/-- A new mailbox, whose persistent channel may hold messages of an earlier life. -/
def start {env : Env} {config : MailboxConfig} {mb : Mailbox}
    (hnew : Mailbox.new env config = .ok mb) (hdrop : config.backpressure = .dropOldest)
    (rows : List Message) : Waiting where
  mailbox := mb
  queue := []
  carried := rows.mapIdx Arrival.mk
  arrived := rows.length
  slow := (slow_of_new hnew hdrop).1
  drops := (slow_of_new hnew hdrop).2
  fits := (Mailbox.new_spec hnew).1
  shown := (Mailbox.new_spec hnew).2.2.1.symm

theorem accept_eq (w : Waiting) (pos : Nat) (m : Message) :
    w.mailbox.accept pos m =
      (.queued, (if w.full then w.mailbox.dropOldest else w.mailbox).push pos m) := by
  unfold Mailbox.accept Mailbox.sendOrdered full
  rw [w.slow, w.drops, if_neg Bool.false_ne_true]
  by_cases hfull : w.mailbox.maxCapacity ≤ w.mailbox.dataQueueSize
  · simp [hfull]
  · simp [hfull]

/-- `enqueue` of a data message that its key has not turned away. -/
def enqueue (w : Waiting) (pos : Nat) (m : Message) : Waiting where
  mailbox := (w.mailbox.accept pos m).2
  queue :=
    insertArrival w.ordering pos ⟨w.arrived, m⟩ (if w.full then w.queue.tail else w.queue)
  carried := w.carried
  arrived := w.arrived + 1
  slow := by
    rw [accept_eq]
    split_ifs
    · exact w.slow
    · exact w.slow
  drops := by
    rw [accept_eq]
    split_ifs
    · exact w.drops
    · exact w.drops
  fits := by
    rw [accept_eq]
    split_ifs
    · exact MessageStorage.fits_push (MessageStorage.fits_dropOldest w.fits) pos m
    · exact MessageStorage.fits_push w.fits pos m
  shown := by
    rw [accept_eq]
    split_ifs
    · refine map_insertArrival (MessageStorage.fits_dropOldest w.fits) ?_ pos _
      rw [List.map_tail, w.shown, MessageStorage.messages_dropOldest]
    · exact map_insertArrival w.fits w.shown pos _

/-- The messages that an overwriting message removes are gone. -/
def overwrite (w : Waiting) (m : Message) : Waiting where
  mailbox := (w.mailbox.overwrite m).2
  queue := w.queue.filter fun e => m.retainedBy e.message
  carried := w.carried
  arrived := w.arrived
  slow := by simp [Mailbox.overwrite, w.slow]
  drops := by simp [Mailbox.overwrite, w.slow, w.drops]
  fits := by
    have hfits := MessageStorage.fits_overwrite w.fits m
    unfold Mailbox.overwrite
    rw [w.slow, if_neg Bool.false_ne_true]
    exact hfits
  shown := by
    have hmessages := MessageStorage.messages_overwrite w.mailbox.internalQueue m
    rw [← w.shown, List.filter_map] at hmessages
    simpa [Mailbox.overwrite, w.slow, Function.comp_def] using hmessages.symm

/-- A heap leaves open which of the messages of one priority it delivers first. -/
def rearrange (w : Waiting) (queue : List Arrival) : Waiting :=
  if h : w.ordering = .priority ∧ queue.Perm w.queue ∧
      queue.Pairwise fun a b => b.priority ≤ a.priority then
    { w with
      mailbox :=
        { w.mailbox with
          internalQueue :=
            .priority ⟨queue.map Arrival.message, List.pairwise_map.mpr h.2.2⟩ }
      queue := queue
      slow := w.slow
      drops := w.drops
      fits := h.1
      shown := rfl }
  else w

/-- The background task takes everything out of the queue. -/
def drain (w : Waiting) : Waiting :=
  { w with
    mailbox := { w.mailbox with internalQueue := w.mailbox.internalQueue.clear }
    queue := []
    carried := w.carried ++ w.queue
    slow := w.slow
    drops := w.drops
    fits := MessageStorage.fits_clear w.fits
    shown := MessageStorage.messages_clear.symm }

/-- A message behind the queue is received by the actor, or lost. -/
def leave (w : Waiting) (e : Arrival) : Waiting := { w with carried := w.carried.filter (· ≠ e) }

def count (w : Waiting) (size : Nat) : Waiting :=
  { w with
    mailbox := { w.mailbox with dataQueueSize := size }
    slow := w.slow
    drops := w.drops
    fits := w.fits
    shown := w.shown }

def step (w : Waiting) : WaitingEvent → Waiting
  | .enqueue pos m => w.enqueue pos m
  | .overwrite m => w.overwrite m
  | .rearrange queue => w.rearrange queue
  | .drain => w.drain
  | .leave e => w.leave e
  | .count size => w.count size

/-- The message that a full mailbox drops for `m` is the one that arrived first; the others are
still there in their order, as far as it is fixed, and `m` is there too. -/
def DropsOldest (w w' : Waiting) (m : Message) : Prop :=
  ∃ removed ∈ w.messages, (∀ e ∈ w.messages, removed.number ≤ e.number) ∧
    (∀ e, e ∈ w'.messages ↔ e = ⟨w.arrived, m⟩ ∨ e ∈ w.messages ∧ e ≠ removed) ∧
    ∀ a b, [a, b].Sublist w.messages → a ≠ removed → b ≠ removed →
      (w.ordering = .priority → a ∈ w.carried ∨ b.priority < a.priority) →
      [a, b].Sublist w'.messages

/-- Nothing has been carried out of the queue, and the message in front of it arrived first: the
first one there is in the order of arrival, the only one in the opposite order. -/
def OldestInFront (w : Waiting) : Prop :=
  w.carried = [] ∧
    match w.ordering with
    | .lifo => w.queue.length = 1
    | .priority | .random =>
        ∃ first rest, w.queue = first :: rest ∧ ∀ e ∈ rest, first.number < e.number
    | _ => w.queue ≠ []

/-! ## The numbers in the queue -/

def InOrder (ordering : OrderingStrategy) (queue : List Arrival) : Prop :=
  match ordering with
  | .lifo => queue.Pairwise fun a b => b.number < a.number
  | .priority | .random => queue.Pairwise fun a b => a.number ≠ b.number
  | _ => queue.Pairwise fun a b => a.number < b.number

theorem InOrder.sublist {ordering : OrderingStrategy} {queue queue' : List Arrival}
    (h : InOrder ordering queue) (hsub : queue'.Sublist queue) : InOrder ordering queue' := by
  cases ordering with
  | unspecified => exact List.Pairwise.sublist hsub h
  | fifo => exact List.Pairwise.sublist hsub h
  | priority => exact List.Pairwise.sublist hsub h
  | lifo => exact List.Pairwise.sublist hsub h
  | random => exact List.Pairwise.sublist hsub h

theorem InOrder.insert {ordering : OrderingStrategy} {queue : List Arrival}
    (h : InOrder ordering queue) (pos : Nat) {e : Arrival}
    (hnew : ∀ d ∈ queue, d.number < e.number) :
    InOrder ordering (insertArrival ordering pos e queue) := by
  have hdistinct : queue.Pairwise (fun a b => a.number ≠ b.number) →
      (e :: queue).Pairwise fun a b => a.number ≠ b.number :=
    fun hqueue => List.pairwise_cons.mpr ⟨fun d hd => (hnew d hd).ne', hqueue⟩
  have hsymm : ∀ {a b : Arrival}, a.number ≠ b.number → b.number ≠ a.number := Ne.symm
  have hlast : queue.Pairwise (fun a b => a.number < b.number) →
      (queue ++ [e]).Pairwise fun a b => a.number < b.number := by
    intro hqueue
    refine List.pairwise_append.mpr ⟨hqueue, List.pairwise_singleton _ e, ?_⟩
    intro d hd d' hd'
    rw [List.mem_singleton.mp hd']
    exact hnew d hd
  cases ordering with
  | unspecified => exact hlast h
  | fifo => exact hlast h
  | priority =>
      exact ((insertArrival_perm .priority pos e queue).pairwise_iff hsymm).mpr (hdistinct h)
  | lifo => exact List.pairwise_cons.mpr ⟨hnew, h⟩
  | random => exact ((insertArrival_perm .random pos e queue).pairwise_iff hsymm).mpr (hdistinct h)

theorem InOrder.distinct {ordering : OrderingStrategy} {queue : List Arrival}
    (h : InOrder ordering queue) : queue.Pairwise fun a b => a.number ≠ b.number := by
  cases ordering with
  | unspecified => exact List.Pairwise.imp Nat.ne_of_lt h
  | fifo => exact List.Pairwise.imp Nat.ne_of_lt h
  | priority => exact h
  | lifo => exact List.Pairwise.imp Nat.ne_of_gt h
  | random => exact h

/-- What was carried out of the queue arrived before what is in it. -/
structure Numbered (w : Waiting) : Prop where
  old : ∀ e ∈ w.messages, e.number < w.arrived
  behind : ∀ c ∈ w.carried, ∀ e ∈ w.queue, c.number < e.number
  inOrder : InOrder w.ordering w.queue

theorem ordering_enqueue (w : Waiting) (pos : Nat) (m : Message) :
    (w.enqueue pos m).ordering = w.ordering := by
  change (w.mailbox.accept pos m).2.config.ordering = w.mailbox.config.ordering
  rw [accept_eq]
  split_ifs
  · rfl
  · rfl

/-- What `enqueue` leaves of the queue. -/
theorem kept_sublist (w : Waiting) :
    (if w.full then w.queue.tail else w.queue).Sublist w.queue := by
  split_ifs
  · exact List.tail_sublist w.queue
  · exact List.Sublist.refl _

theorem Numbered.enqueue {w : Waiting} (h : w.Numbered) (pos : Nat) (m : Message) :
    (w.enqueue pos m).Numbered := by
  have hold : ∀ e ∈ w.queue, e.number < w.arrived :=
    fun e he => h.old e (List.mem_append_right _ he)
  have hmem : ∀ e, e ∈ (w.enqueue pos m).queue → e = ⟨w.arrived, m⟩ ∨ e ∈ w.queue := by
    intro e he
    rcases List.mem_cons.mp ((insertArrival_perm _ _ _ _).mem_iff.mp he) with heq | he
    · exact .inl heq
    · exact .inr (w.kept_sublist.subset he)
  refine ⟨?_, ?_, ?_⟩
  · intro e he
    change e.number < w.arrived + 1
    rcases List.mem_append.mp he with he | he
    · exact Nat.lt_succ_of_lt (h.old e (List.mem_append_left _ he))
    · rcases hmem e he with rfl | he
      · exact Nat.lt_succ_self _
      · exact Nat.lt_succ_of_lt (hold e he)
  · intro c hc e he
    rcases hmem e he with rfl | he
    · exact h.old c (List.mem_append_left _ hc)
    · exact h.behind c hc e he
  · rw [ordering_enqueue]
    refine (h.inOrder.sublist w.kept_sublist).insert pos ?_
    intro d hd
    exact hold d (w.kept_sublist.subset hd)

theorem ordering_overwrite (w : Waiting) (m : Message) :
    (w.overwrite m).ordering = w.ordering := by
  change (w.mailbox.overwrite m).2.config.ordering = _
  simp [Mailbox.overwrite, w.slow, ordering]

theorem Numbered.overwrite {w : Waiting} (h : w.Numbered) (m : Message) :
    (w.overwrite m).Numbered := by
  have hsub : (w.overwrite m).queue.Sublist w.queue := List.filter_sublist
  refine ⟨?_, ?_, ?_⟩
  · intro e he
    exact h.old e (((List.Sublist.refl w.carried).append hsub).subset he)
  · intro c hc e he
    exact h.behind c hc e (hsub.subset he)
  · rw [ordering_overwrite]
    exact h.inOrder.sublist hsub

theorem rearrange_cases (w : Waiting) (queue : List Arrival) :
    w.rearrange queue = w ∨
      w.ordering = .priority ∧ (w.rearrange queue).ordering = .priority ∧
        (w.rearrange queue).carried = w.carried ∧ (w.rearrange queue).arrived = w.arrived ∧
        (w.rearrange queue).queue.Perm w.queue ∧
        (w.rearrange queue).queue.Pairwise fun a b => b.priority ≤ a.priority := by
  unfold rearrange
  split_ifs with h
  · exact .inr ⟨h.1, h.1, rfl, rfl, h.2.1, h.2.2⟩
  · exact .inl rfl

theorem Numbered.rearrange {w : Waiting} (h : w.Numbered) (queue : List Arrival) :
    (w.rearrange queue).Numbered := by
  rcases w.rearrange_cases queue with heq | ⟨hordering, hordering', hcarried, harrived, hperm, -⟩
  · rw [heq]
    exact h
  · refine ⟨?_, ?_, ?_⟩
    · intro e he
      rw [messages, hcarried] at he
      rw [harrived]
      exact h.old e ((hperm.append_left w.carried).mem_iff.mp he)
    · intro c hc e he
      rw [hcarried] at hc
      exact h.behind c hc e (hperm.mem_iff.mp he)
    · have hqueue := h.inOrder
      rw [hordering] at hqueue
      rw [hordering']
      have hsymm : ∀ {a b : Arrival}, a.number ≠ b.number → b.number ≠ a.number := Ne.symm
      exact (hperm.pairwise_iff hsymm).mpr hqueue

theorem Numbered.drain {w : Waiting} (h : w.Numbered) : w.drain.Numbered := by
  refine ⟨?_, ?_, ?_⟩
  · intro e he
    change e ∈ (w.carried ++ w.queue) ++ [] at he
    rw [List.append_nil] at he
    exact h.old e he
  · intro c hc e he
    cases he
  · exact h.inOrder.sublist (List.nil_sublist _)

theorem Numbered.leave {w : Waiting} (h : w.Numbered) (e : Arrival) : (w.leave e).Numbered := by
  have hsub : (w.leave e).carried.Sublist w.carried := List.filter_sublist
  refine ⟨?_, ?_, h.inOrder⟩
  · intro d hd
    exact h.old d ((hsub.append (List.Sublist.refl w.queue)).subset hd)
  · intro c hc d hd
    exact h.behind c (hsub.subset hc) d hd

theorem Numbered.step {w : Waiting} (h : w.Numbered) (event : WaitingEvent) :
    (w.step event).Numbered := by
  cases event with
  | enqueue pos m => exact h.enqueue pos m
  | overwrite m => exact h.overwrite m
  | rearrange queue => exact h.rearrange queue
  | drain => exact h.drain
  | leave e => exact h.leave e
  | count size => exact ⟨h.old, h.behind, h.inOrder⟩

theorem numbered_start {env : Env} {config : MailboxConfig} {mb : Mailbox}
    (hnew : Mailbox.new env config = .ok mb) (hdrop : config.backpressure = .dropOldest)
    (rows : List Message) : (start hnew hdrop rows).Numbered := by
  refine ⟨?_, ?_, ?_⟩
  · intro e he
    rcases List.mem_append.mp he with he | he
    · obtain ⟨i, hi, rfl⟩ := List.mem_mapIdx.mp he
      exact hi
    · cases he
  · intro c hc e he
    cases he
  · unfold InOrder
    split
    · exact List.Pairwise.nil
    · exact List.Pairwise.nil
    · exact List.Pairwise.nil
    · exact List.Pairwise.nil

/-! ## Which message is dropped -/

/-- Whatever the ordering: the queue holds everything, and its first message arrived first. -/
theorem oldestInFront_iff {w : Waiting} (h : w.Numbered) :
    w.OldestInFront ↔ w.carried = [] ∧
      ∃ first rest, w.queue = first :: rest ∧ ∀ e ∈ rest, first.number < e.number := by
  unfold OldestInFront
  apply and_congr_right
  intro _
  have hqueue := h.inOrder
  have hforward : w.queue.Pairwise (fun a b => a.number < b.number) →
      (w.queue ≠ [] ↔
        ∃ first rest, w.queue = first :: rest ∧ ∀ e ∈ rest, first.number < e.number) := by
    intro hlt
    constructor
    · intro hne
      cases hw : w.queue with
      | nil => exact absurd hw hne
      | cons first rest =>
          rw [hw] at hlt
          exact ⟨first, rest, rfl, (List.pairwise_cons.mp hlt).1⟩
    · rintro ⟨first, rest, hw, -⟩
      rw [hw]
      exact List.cons_ne_nil _ _
  cases hordering : w.ordering with
  | unspecified =>
      rw [hordering] at hqueue
      exact hforward hqueue
  | fifo =>
      rw [hordering] at hqueue
      exact hforward hqueue
  | priority => exact Iff.rfl
  | random => exact Iff.rfl
  | lifo =>
      rw [hordering] at hqueue
      constructor
      · intro hlen
        obtain ⟨first, hw⟩ := List.length_eq_one_iff.mp hlen
        exact ⟨first, [], hw, nofun⟩
      · rintro ⟨first, rest, hw, hfirst⟩
        -- the numbers go down along the queue
        cases rest with
        | nil => rw [hw, List.length_singleton]
        | cons e rest =>
            change w.queue.Pairwise (fun a b => b.number < a.number) at hqueue
            rw [hw] at hqueue
            have hlt := (List.pairwise_cons.mp hqueue).1 e List.mem_cons_self
            have hgt := hfirst e List.mem_cons_self
            omega

/-- Of two items of a sorted list, the one of the higher priority stands in front. -/
theorem pair_sublist_of_priority {queue : List Arrival}
    (hsorted : queue.Pairwise fun a b => b.priority ≤ a.priority) {a b : Arrival}
    (ha : a ∈ queue) (hb : b ∈ queue) (hlt : b.priority < a.priority) :
    [a, b].Sublist queue := by
  induction queue with
  | nil => cases ha
  | cons c queue ih =>
      obtain ⟨hhead, htail⟩ := List.pairwise_cons.mp hsorted
      rcases List.mem_cons.mp ha with rfl | ha'
      · rcases List.mem_cons.mp hb with rfl | hb'
        · exact absurd hlt (lt_irrefl _)
        · exact (List.singleton_sublist.mpr hb').cons_cons a
      · rcases List.mem_cons.mp hb with rfl | hb'
        · exact absurd (hhead a ha') (not_le.mpr hlt)
        · exact (ih htail ha' hb').cons c

/-- What is in the mailbox after a full one has taken in `m`. -/
theorem mem_enqueue {w : Waiting} (hfull : w.full = true) (pos : Nat) (m : Message)
    (queue : List Arrival) (e : Arrival) :
    e ∈ ((w.enqueue pos m).rearrange queue).messages ↔
      e = ⟨w.arrived, m⟩ ∨ e ∈ w.carried ∨ e ∈ w.queue.tail := by
  have hmem : e ∈ (w.enqueue pos m).messages ↔
      e = ⟨w.arrived, m⟩ ∨ e ∈ w.carried ∨ e ∈ w.queue.tail := by
    have hperm := insertArrival_perm w.ordering pos ⟨w.arrived, m⟩ w.queue.tail
    change e ∈ w.carried ++ insertArrival w.ordering pos _ (if w.full then _ else _) ↔ _
    rw [if_pos hfull, List.mem_append, hperm.mem_iff, List.mem_cons]
    tauto
  rcases (w.enqueue pos m).rearrange_cases queue with heq | ⟨-, -, hcarried, -, hperm, -⟩
  · rw [heq]
    exact hmem
  · rw [← hmem, messages, messages, hcarried]
    exact (hperm.append_left _).mem_iff

/-- The messages behind the first one keep their order, as far as it is fixed. -/
theorem enqueue_keeps_order {w : Waiting} (hfull : w.full = true) (pos : Nat) (m : Message)
    (queue : List Arrival) {a b : Arrival} (hab : [a, b].Sublist w.queue.tail)
    (hfixed : w.ordering = .priority → b.priority < a.priority) :
    [a, b].Sublist ((w.enqueue pos m).rearrange queue).messages := by
  have hsub : [a, b].Sublist (w.enqueue pos m).queue := by
    change [a, b].Sublist (insertArrival w.ordering pos _ (if w.full then _ else _))
    rw [if_pos hfull]
    exact hab.trans (sublist_insertArrival _ _ _ _)
  rcases (w.enqueue pos m).rearrange_cases queue with
    heq | ⟨hordering, -, hcarried', -, hperm, hsorted⟩
  · rw [heq]
    exact hsub.trans (List.sublist_append_right _ _)
  · rw [ordering_enqueue] at hordering
    refine (pair_sublist_of_priority hsorted ?_ ?_ (hfixed hordering)).trans
      (List.sublist_append_right _ _)
    · exact hperm.mem_iff.mpr (hsub.subset List.mem_cons_self)
    · exact hperm.mem_iff.mpr (hsub.subset (List.mem_cons_of_mem _ List.mem_cons_self))

theorem dropsOldest_of_inFront {w : Waiting} (h : w.Numbered) (hfull : w.full = true)
    (pos : Nat) (m : Message) (queue : List Arrival) (hfront : w.OldestInFront) :
    DropsOldest w ((w.enqueue pos m).rearrange queue) m := by
  obtain ⟨hcarried, first, rest, hqueue, hfirst⟩ := (oldestInFront_iff h).mp hfront
  have hmessages : w.messages = first :: rest := by
    rw [messages, hcarried, hqueue, List.nil_append]
  refine ⟨first, ?_, ?_, ?_, ?_⟩
  · rw [hmessages]
    exact List.mem_cons_self
  · intro e he
    rw [hmessages] at he
    rcases List.mem_cons.mp he with rfl | he
    · exact le_rfl
    · exact (hfirst e he).le
  · intro e
    rw [mem_enqueue hfull, hmessages, hcarried, hqueue, List.tail_cons, List.mem_cons]
    have hne : e ∈ rest → e ≠ first := by
      rintro he rfl
      exact lt_irrefl _ (hfirst e he)
    constructor
    · rintro (heq | he | he)
      · exact .inl heq
      · cases he
      · exact .inr ⟨.inr he, hne he⟩
    · rintro (heq | ⟨heq | he, hother⟩)
      · exact .inl heq
      · exact absurd heq hother
      · exact .inr (.inr he)
  · intro a b hab ha hb hfixed
    apply enqueue_keeps_order hfull
    · rw [hmessages] at hab
      rw [hqueue, List.tail_cons]
      rcases List.sublist_cons_iff.mp hab with hrest | ⟨_, heq, -⟩
      · exact hrest
      · exact absurd (List.cons.inj heq).1 ha
    · intro hordering
      rcases hfixed hordering with hmem | hlt
      · rw [hcarried] at hmem
        cases hmem
      · exact hlt

theorem inFront_of_dropsOldest {w : Waiting} (h : w.Numbered) (hfull : w.full = true)
    {pos : Nat} {m : Message} {queue : List Arrival}
    (hdrops : DropsOldest w ((w.enqueue pos m).rearrange queue) m) : w.OldestInFront := by
  obtain ⟨removed, hremoved, holdest, hmem, -⟩ := hdrops
  have hgone : removed ∉ w.carried ∧ removed ∉ w.queue.tail := by
    have hnot : removed ∉ ((w.enqueue pos m).rearrange queue).messages := by
      rw [hmem]
      rintro (heq | ⟨-, hne⟩)
      · have hlt := h.old removed hremoved
        rw [heq] at hlt
        exact lt_irrefl _ hlt
      · exact hne rfl
    rw [mem_enqueue hfull] at hnot
    exact ⟨fun hc => hnot (.inr (.inl hc)), fun ht => hnot (.inr (.inr ht))⟩
  have hqueue : removed ∈ w.queue := (List.mem_append.mp hremoved).resolve_left hgone.1
  have hcarried : w.carried = [] := by
    cases hc : w.carried with
    | nil => rfl
    | cons c rest =>
        have hmemc : c ∈ w.carried := hc ▸ List.mem_cons_self
        have hle := holdest c (List.mem_append_left _ hmemc)
        have hlt := h.behind c hmemc removed hqueue
        omega
  refine (oldestInFront_iff h).mpr ⟨hcarried, ?_⟩
  cases hw : w.queue with
  | nil =>
      rw [hw] at hqueue
      cases hqueue
  | cons first rest =>
      have hfirst : removed = first := by
        rw [hw] at hqueue
        rcases List.mem_cons.mp hqueue with heq | hrest
        · exact heq
        · rw [hw] at hgone
          exact absurd hrest hgone.2
      refine ⟨first, rest, rfl, ?_⟩
      intro e he
      have hle := holdest e (List.mem_append_right _ (hw ▸ List.mem_cons_of_mem _ he))
      have hne : first.number ≠ e.number := by
        have hpairwise := h.inOrder.distinct
        rw [hw] at hpairwise
        exact (List.pairwise_cons.mp hpairwise).1 e he
      rw [hfirst] at hle
      omega

section Runs

variable {env : Env} {config : MailboxConfig} {mb : Mailbox}

theorem numbered_run (hnew : Mailbox.new env config = .ok mb)
    (hdrop : config.backpressure = .dropOldest) (rows : List Message)
    (events : List WaitingEvent) : (run step (start hnew hdrop rows) events).Numbered :=
  run_invariant (fun event _ _ h => h.step event) (numbered_start hnew hdrop rows)

/-- In every run, a full mailbox drops the message that arrived first if and only if that
message stands in front of the internal queue. -/
theorem drops_oldest_iff (hnew : Mailbox.new env config = .ok mb)
    (hdrop : config.backpressure = .dropOldest) (rows : List Message)
    (events : List WaitingEvent) (pos : Nat) (m : Message) (queue : List Arrival)
    (hfull : (run step (start hnew hdrop rows) events).full = true) :
    DropsOldest (run step (start hnew hdrop rows) events)
        (((run step (start hnew hdrop rows) events).enqueue pos m).rearrange queue) m ↔
      (run step (start hnew hdrop rows) events).OldestInFront := by
  have hnumbered := numbered_run hnew hdrop rows events
  constructor
  · exact inFront_of_dropsOldest hnumbered hfull
  · exact dropsOldest_of_inFront hnumbered hfull pos m queue

end Runs

/-- An in-memory mailbox under `DropOldest`. -/
def dropping (orderingStrategy : Int) (capacity : Nat) : MailboxConfig :=
  ⟨capacity, 2, orderingStrategy, 0, 0, 0⟩

def numberless (id : String) : Message := ⟨id, "data", 3, "", 0, ∅⟩

/-- Of the two messages in a full queue the first one goes. -/
theorem drops_oldest_iff_fifo :
    ∃ mb, ∃ hnew : Mailbox.new ⟨none, none, none⟩ (dropping 1 2) = .ok mb,
      DropsOldest
        (run step (start hnew rfl [])
          [.enqueue 0 (numberless "a"), .enqueue 0 (numberless "b")])
        (((run step (start hnew rfl [])
          [.enqueue 0 (numberless "a"), .enqueue 0 (numberless "b")]).enqueue 0
            (numberless "c")).rearrange []) (numberless "c") := by
  refine ⟨_, rfl, (drops_oldest_iff rfl rfl []
    [.enqueue 0 (numberless "a"), .enqueue 0 (numberless "b")] 0 (numberless "c") [] ?_).mpr
    ⟨rfl, ?_⟩⟩
  · decide
  · exact List.cons_ne_nil _ _

/-- In the order last in, first out, the full mailbox drops the message that came last. -/
theorem not_drops_oldest :
    ¬∀ (env : Env) (config : MailboxConfig) (mb : Mailbox)
      (hnew : Mailbox.new env config = .ok mb) (hdrop : config.backpressure = .dropOldest)
      (rows : List Message) (events : List WaitingEvent) (pos : Nat) (m : Message)
      (queue : List Arrival), (run step (start hnew hdrop rows) events).full = true →
      DropsOldest (run step (start hnew hdrop rows) events)
        (((run step (start hnew hdrop rows) events).enqueue pos m).rearrange queue) m := by
  intro h
  have hdrops := h ⟨none, none, none⟩ (dropping 3 2) _ rfl rfl []
    [.enqueue 0 (numberless "a"), .enqueue 0 (numberless "b")] 0 (numberless "c") [] (by decide)
  have hfront := inFront_of_dropsOldest (numbered_run rfl rfl _ _) (by decide) hdrops
  have hlen : 2 = 1 := hfront.2
  omega

end Waiting

end PlexSpaces.Mailbox
