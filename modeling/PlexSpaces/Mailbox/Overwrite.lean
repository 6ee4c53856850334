import Mathlib.Data.List.InsertIdx
import PlexSpaces.Mailbox.KeyedRetry
/-!
# Overwriting messages in a mailbox

A message in the overwrite mode is to leave only the newest message of its key in the queue.
The queued messages of the key are looked for in the internal queue alone, so on the fast path
nothing is overwritten (`not_overwrites`); a full mailbox loses the newest message; and the two
kinds of queue part ways where one key has two messages.  In a run in which none of this comes
up, each key keeps the newest message, in a queue as in a heap (`overwrite_keeps_newest`).
-/

namespace PlexSpaces.Mailbox

open PlexSpaces.Lib

namespace Message

/-- `i64::MIN`, which stands in for the number of a queued message that has none. -/
def minSequence : Int := -2 ^ 63

/-- The queued message is at least as new as the incoming one with the number `n`. -/
def NotOlder (queued : Message) (n : Int) : Prop := ∃ k, queued.sequenceNumber = some k ∧ n ≤ k

/-- The incoming message and the queued one of its key can be compared: both have numbers, or
the incoming one is above the number that stands in, or neither has one. -/
def Comparable (incoming queued : Message) : Prop :=
  match incoming.sequenceNumber with
  | some n => queued.sequenceNumber = none → minSequence < n
  | none => queued.sequenceNumber = none

theorem retainedBy_of_ne {incoming queued : Message}
    (h : queued.idempotencyKey ≠ incoming.idempotencyKey) :
    incoming.retainedBy queued = true := by
  rw [retainedBy, if_pos h]

theorem retainedBy_iff {incoming queued : Message}
    (hkey : queued.idempotencyKey = incoming.idempotencyKey)
    (hcomparable : incoming.Comparable queued) :
    incoming.retainedBy queued = true ↔
      ∃ n, incoming.sequenceNumber = some n ∧ queued.NotOlder n := by
  have hsame : ¬queued.idempotencyKey ≠ incoming.idempotencyKey := not_not.mpr hkey
  unfold Comparable at hcomparable
  unfold retainedBy NotOlder
  rw [if_neg hsame]
  cases hn : incoming.sequenceNumber with
  | none => simp
  | some n =>
      rw [hn] at hcomparable
      dsimp only at hcomparable ⊢
      cases hk : queued.sequenceNumber with
      | none =>
          have hlt := hcomparable hk
          unfold minSequence at hlt
          simp only [Option.getD_none, decide_eq_true_eq, Option.some.injEq, reduceCtorEq,
            false_and, exists_false, and_false, iff_false]
          omega
      | some k => simp

end Message

def ofKey (key : String) (l : List Message) : List Message :=
  l.filter (·.idempotencyKey = key)

def otherKeys (key : String) (l : List Message) : List Message :=
  l.filter (·.idempotencyKey ≠ key)

theorem mem_ofKey {key : String} {l : List Message} {m : Message} :
    m ∈ ofKey key l ↔ m ∈ l ∧ m.idempotencyKey = key := by
  simp [ofKey]

theorem eq_of_single {key : String} {l : List Message} (h : (ofKey key l).length ≤ 1)
    {a b : Message} (ha : a ∈ ofKey key l) (hb : b ∈ ofKey key l) : a = b := by
  cases hl : ofKey key l with
  | nil =>
      rw [hl] at ha
      cases ha
  | cons c rest =>
      rw [hl, List.length_cons] at h
      have hrest : rest = [] := List.length_eq_zero_iff.mp (by omega)
      rw [hl, hrest, List.mem_singleton] at ha hb
      rw [ha, hb]

section Storage

variable {storage : MessageStorage} {m : Message}

/-- A message of the key that is left is the only one of its key. -/
theorem filter_retainedBy_of_kept {l : List Message} {q : Message}
    (hsingle : (ofKey m.idempotencyKey l).length ≤ 1) (hq : q ∈ ofKey m.idempotencyKey l)
    (hretained : m.retainedBy q = true) : l.filter m.retainedBy = l := by
  apply List.filter_eq_self.mpr
  intro p hp
  by_cases hkey : p.idempotencyKey = m.idempotencyKey
  · rw [eq_of_single hsingle (mem_ofKey.mpr ⟨hp, hkey⟩) hq]
    exact hretained
  · exact Message.retainedBy_of_ne hkey

theorem filter_retainedBy_of_none {l : List Message}
    (hnone : ∀ q ∈ ofKey m.idempotencyKey l, m.retainedBy q = false) :
    l.filter m.retainedBy = otherKeys m.idempotencyKey l := by
  apply List.filter_congr
  intro p hp
  by_cases hkey : p.idempotencyKey = m.idempotencyKey
  · rw [hnone p (mem_ofKey.mpr ⟨hp, hkey⟩)]
    simp [hkey]
  · rw [Message.retainedBy_of_ne hkey]
    simp [hkey]

theorem any_otherKeys (key : String) (l : List Message) :
    (otherKeys key l).any (·.idempotencyKey = key) = false := by
  apply List.any_eq_false.mpr
  intro p hp
  have hne := (List.mem_filter.mp hp).2
  simpa using hne

/-- Where the key of the incoming message has at most one message in the queue, the message is
out of date exactly when that one is kept, in both kinds of queue. -/
theorem overwrite_spec (hsingle : (ofKey m.idempotencyKey storage.messages).length ≤ 1) :
    (∃ q ∈ ofKey m.idempotencyKey storage.messages, m.retainedBy q = true) ∧
        (storage.overwrite m).2.1 = true ∧
        (storage.overwrite m).2.2.messages = storage.messages ∨
      (∀ q ∈ ofKey m.idempotencyKey storage.messages, m.retainedBy q = false) ∧
        (storage.overwrite m).2.1 = false ∧
        (storage.overwrite m).2.2.messages = otherKeys m.idempotencyKey storage.messages := by
  rw [MessageStorage.messages_overwrite]
  by_cases hkept : ∃ q ∈ ofKey m.idempotencyKey storage.messages, m.retainedBy q = true
  · left
    obtain ⟨q, hq, hretained⟩ := hkept
    have hall := filter_retainedBy_of_kept hsingle hq hretained
    have hany : storage.messages.any (·.idempotencyKey = m.idempotencyKey) = true :=
      List.any_eq_true.mpr ⟨q, (mem_ofKey.mp hq).1, by simpa using (mem_ofKey.mp hq).2⟩
    refine ⟨⟨q, hq, hretained⟩, ?_, hall⟩
    cases storage with
    | queue queued =>
        change queued.filter m.retainedBy = queued at hall
        change decide (queued.length = (queued.filter m.retainedBy).length ∧
          (queued.filter m.retainedBy).any (·.idempotencyKey = m.idempotencyKey) = true) = true
        rw [hall]
        exact decide_eq_true ⟨rfl, hany⟩
    | priority heap =>
        change heap.items.filter m.retainedBy = heap.items at hall
        change (heap.items.filter m.retainedBy).any (·.idempotencyKey = m.idempotencyKey) = true
        rw [hall]
        exact hany
  · right
    have hnone : ∀ q ∈ ofKey m.idempotencyKey storage.messages, m.retainedBy q = false := by
      intro q hq
      by_contra hretained
      exact hkept ⟨q, hq, by simpa using hretained⟩
    have hothers := filter_retainedBy_of_none hnone
    have hany := any_otherKeys m.idempotencyKey storage.messages
    rw [← hothers] at hany
    refine ⟨hnone, ?_, hothers⟩
    cases storage with
    | queue queued =>
        change (queued.filter m.retainedBy).any _ = false at hany
        change decide (queued.length = (queued.filter m.retainedBy).length ∧
          (queued.filter m.retainedBy).any (·.idempotencyKey = m.idempotencyKey) = true) = false
        rw [hany]
        simp
    | priority heap => exact hany

/-- How many messages are removed where the incoming one is not out of date. -/
theorem removed_of_others
    (h : (storage.overwrite m).2.2.messages = otherKeys m.idempotencyKey storage.messages) :
    (storage.overwrite m).1 = (ofKey m.idempotencyKey storage.messages).length := by
  have hcount := MessageStorage.removed_overwrite storage m
  have hsplit := List.length_eq_length_filter_add (l := storage.messages)
    (fun q => decide (q.idempotencyKey = m.idempotencyKey))
  rw [h] at hcount
  unfold otherKeys at hcount
  unfold ofKey
  simp only [decide_not] at hcount
  omega

theorem filter_insertIdx {p : Message → Bool} (hp : p m = false) (i : Nat) (l : List Message) :
    (l.insertIdx i m).filter p = l.filter p := by
  induction l generalizing i with
  | nil =>
      cases i with
      | zero => simp [hp]
      | succ i => simp
  | cons q l ih =>
      cases i with
      | zero => simp [hp]
      | succ i => rw [List.insertIdx_succ_cons, List.filter_cons, List.filter_cons, ih]

/-- A message that is pushed leaves the others in their order. -/
theorem filter_push {ordering : OrderingStrategy} (hfits : storage.Fits ordering) (pos : Nat)
    {p : Message → Bool} (hp : p m = false) :
    (storage.push ordering pos m).messages.filter p = storage.messages.filter p := by
  cases storage with
  | priority heap =>
      cases hfits
      exact filter_insertByRank hp heap.items
  | queue queued =>
      have hlast : (queued ++ [m]).filter p = queued.filter p := by
        rw [List.filter_append, List.filter_singleton, hp]
        exact List.append_nil _
      cases ordering with
      | priority => exact absurd rfl hfits
      | lifo => exact List.filter_cons_of_neg (by simp [hp])
      | random => exact filter_insertIdx hp _ queued
      | fifo => exact hlast
      | unspecified => exact hlast

end Storage

/-- The messages that an overwriting message is to look at. -/
def queued (mb : Mailbox) : List Message :=
  if mb.fastPath then mb.data else mb.internalQueue.messages

/-- A mailbox with the messages that it has accepted since the background task has last emptied
its queue; the receiver of the fast path takes the first of them. -/
structure KeyedQueue (σ : Type) where
  history : History σ
  enqueued : List Message

/-- What happens to an endpoint, and a heap that changes its mind about which of the messages
of one priority comes first. -/
inductive KeyedQueueEvent
  | endpoint (event : EndpointEvent)
  | rearrange (messages : List Message)

namespace KeyedQueue

variable {σ : Type} (st : IdempotencyStore σ)

def mailbox (s : KeyedQueue σ) : Mailbox := s.history.endpoint.mailbox

def start (mb : Mailbox) : KeyedQueue σ := ⟨.start st mb, []⟩

def rearrange (s : KeyedQueue σ) (messages : List Message) : KeyedQueue σ :=
  if h : s.mailbox.config.ordering = .priority ∧ s.mailbox.fastPath = false ∧
      messages.Perm s.mailbox.internalQueue.messages ∧
      messages.Pairwise fun a b => b.priority ≤ a.priority then
    { s with
      history :=
        s.history.setMailbox
          { s.mailbox with internalQueue := .priority ⟨messages, h.2.2.2⟩ } }
  else s

def step (s : KeyedQueue σ) : KeyedQueueEvent → KeyedQueue σ
  | .endpoint event =>
      let history := s.history.step st event
      let enqueued :=
        match event with
        | .enqueue _ _ m =>
            if history.endpoint.mailbox.totalEnqueued = s.mailbox.totalEnqueued + 1 then
              s.enqueued ++ [m]
            else s.enqueued
        | .forward => if s.mailbox.fastPath then s.enqueued else []
        | .receive => if s.mailbox.fastPath then s.enqueued.tail else s.enqueued
        | _ => s.enqueued
      ⟨history, enqueued⟩
  | .rearrange messages => s.rearrange messages

/-- The messages are the same, in the same order as far as the ordering fixes it. -/
structure SameOrder (ordering : OrderingStrategy) (l l' : List Message) : Prop where
  perm : l'.Perm l
  exact : ordering ≠ .priority → l' = l
  sorted : ordering = .priority → l'.Pairwise fun a b => b.priority ≤ a.priority

/-- The branches for the queue and for the heap do the same to the messages `l`. -/
def BranchesAgree (m : Message) (l : List Message) : Prop :=
  ∀ (q : List Message) (heap : MaxHeap Message.priority), q.Perm l → heap.items.Perm l →
    (MessageStorage.overwrite m (.queue q)).2.1 =
        (MessageStorage.overwrite m (.priority heap)).2.1 ∧
      (MessageStorage.overwrite m (.queue q)).2.2.messages.Perm
        (MessageStorage.overwrite m (.priority heap)).2.2.messages

/-- An overwriting message `m` with the number `n` is left out if and only if a queued message
of its key is not older; then one message of the key is queued, with the greatest number of
those enqueued, and the messages of other keys are as they were. -/
structure KeepsNewest (s s' : KeyedQueue σ) (m : Message) (n : Int) : Prop where
  discarded_iff : s'.mailbox.totalEnqueued = s.mailbox.totalEnqueued ↔
    ∃ q ∈ ofKey m.idempotencyKey (queued s.mailbox), q.NotOlder n
  newest : ∃ q number, ofKey m.idempotencyKey (queued s'.mailbox) = [q] ∧ q ∈ s'.enqueued ∧
    q.sequenceNumber = some number ∧ n ≤ number ∧
    ∀ p ∈ ofKey m.idempotencyKey s'.enqueued, ∀ k, p.sequenceNumber = some k → k ≤ number
  others : SameOrder s.mailbox.config.ordering (otherKeys m.idempotencyKey (queued s.mailbox))
    (otherKeys m.idempotencyKey (queued s'.mailbox))
  branches : BranchesAgree m (queued s.mailbox)

/-- What is claimed of a step: the numbered overwriting messages keep the newest, whatever a
heap makes of equal priorities. -/
def Overwrites (s : KeyedQueue σ) : KeyedQueueEvent → Prop
  | .endpoint (.enqueue t pos m) =>
      m.isOverwrite = true → ∀ n, m.sequenceNumber = some n → ∀ messages,
        KeepsNewest s ((s.step st (.endpoint (.enqueue t pos m))).rearrange messages) m n
  | _ => True

/-- Once the queued message of its key is counted off, there is room for `m`. -/
def RoomFor (mb : Mailbox) (m : Message) : Prop :=
  fetchSub mb.dataQueueSize (ofKey m.idempotencyKey (queued mb)).length < mb.maxCapacity ∧
    (mb.fastPath = true → mb.receiverDropped = false ∧ mb.data.length < max mb.maxCapacity 1)

/-- The mailbox takes in the overwriting message `m`, or has one that is not older; the fast
path has none of the key at all. -/
structure Replaceable (mb : Mailbox) (m : Message) : Prop where
  data : m.isCtrlMessage = false
  accepting : Endpoint.refusesNew mb = false
  visible : mb.fastPath = true → ofKey m.idempotencyKey (queued mb) = []
  comparable : ∀ q ∈ ofKey m.idempotencyKey (queued mb), m.Comparable q
  room : (∃ n, m.sequenceNumber = some n ∧
    ∃ q ∈ ofKey m.idempotencyKey (queued mb), q.NotOlder n) ∨ RoomFor mb m

/-- A message in another mode finds no queued message of its key, and drops none that has a
key. -/
structure Unrelated (mb : Mailbox) (m : Message) : Prop where
  fresh : m.idempotencyKey ≠ "" → ofKey m.idempotencyKey (queued mb) = []
  drops : mb.config.backpressure = .dropOldest → mb.fastPath = false →
    mb.maxCapacity ≤ mb.dataQueueSize →
      ∀ q ∈ mb.internalQueue.messages.head?, q.idempotencyKey = ""

/-- What each step is to meet; a message that the idempotency store turns away, a control
message and one that comes after the shutdown do nothing to the queue. -/
def Orderly (s : KeyedQueue σ) : KeyedQueueEvent → Prop
  | .endpoint (.enqueue t _ m) =>
      if m.isOverwrite then Replaceable s.mailbox m
      else
        m.isCtrlMessage = false → Endpoint.refusesNew s.mailbox = false →
          (s.history.endpoint.checkKey st t m).1 ≠ .turnedAway → Unrelated s.mailbox m
  | _ => True

/-! ## What `enqueue` does to the queue -/

section Enqueue

variable {st} {n : Endpoint σ} {t : Readings} {pos : Nat} {m : Message} {mb : Mailbox}

/-- The mailbox behind `enqueue`. -/
theorem mailbox_enqueue (hdata : m.isCtrlMessage = false)
    (hopen : Endpoint.refusesNew n.mailbox = false) :
    (n.enqueue st t pos m).2.mailbox =
      if (n.checkKey st t m).1 = .turnedAway then (n.checkKey st t m).2.mailbox
      else ((n.checkKey st t m).2.mailbox.accept pos m).2 := by
  unfold Endpoint.enqueue
  rw [hdata, hopen, if_neg Bool.false_ne_true, if_neg Bool.false_ne_true]
  obtain ⟨check, n'⟩ := n.checkKey st t m
  cases check with
  | turnedAway => rfl
  | unclaimed =>
      dsimp only
      obtain ⟨admission, mb⟩ := n'.mailbox.accept pos m
      cases admission with
      | queued => rfl
      | closed => rfl
      | dropped => rfl
      | rejected error => rfl
  | claimed =>
      dsimp only
      obtain ⟨admission, mb⟩ := n'.mailbox.accept pos m
      cases admission with
      | queued => rfl
      | closed => rfl
      | dropped => rfl
      | rejected error => rfl

structure SameMailbox (mb mb' : Mailbox) : Prop where
  config : mb'.config = mb.config
  inMemory : mb'.isInMemory = mb.isInMemory
  fastPath : mb'.fastPath = mb.fastPath

/-- `m` has gone into the queue, next to the messages `base`. -/
structure Joined (mb mb' : Mailbox) (base : List Message) (m : Message) : Prop where
  same : SameMailbox mb mb'
  fits : mb.Fits → mb'.Fits
  counted : mb'.totalEnqueued = mb.totalEnqueued + 1
  perm : (queued mb').Perm (m :: base)
  others : ∀ p : Message → Bool, p m = false → (queued mb').filter p = base.filter p
  fast : mb.fastPath = true →
    mb'.data = mb.data ++ [m] ∧ mb'.internalQueue = mb.internalQueue

/-- The message has not gone into the queue, which is as it was. -/
structure Untouched (mb mb' : Mailbox) : Prop where
  same : SameMailbox mb mb'
  fits : mb.Fits → mb'.Fits
  counted : mb'.totalEnqueued = mb.totalEnqueued
  queue : mb'.internalQueue.messages = mb.internalQueue.messages
  data : mb'.data = mb.data

theorem Untouched.queued_eq {mb' : Mailbox} (h : Untouched mb mb') : queued mb' = queued mb := by
  unfold queued
  rw [h.same.fastPath, h.queue, h.data]

theorem queued_of_fast (hfast : mb.fastPath = true) : queued mb = mb.data := if_pos hfast

theorem queued_of_slow (hslow : mb.fastPath = false) :
    queued mb = mb.internalQueue.messages := if_neg (Bool.eq_false_iff.mp hslow)

theorem untouched_self : Untouched mb mb := ⟨⟨rfl, rfl, rfl⟩, id, rfl, rfl, rfl⟩

theorem untouched_dropped : Untouched mb { mb with totalDropped := mb.totalDropped + 1 } :=
  ⟨⟨rfl, rfl, rfl⟩, id, rfl, rfl, rfl⟩

theorem not_fast_of_slow {mb' : Mailbox} (hsame : SameMailbox mb mb')
    (hslow : mb.fastPath = false) {P : Prop} : mb'.fastPath = true → P := by
  intro hfast
  rw [hsame.fastPath, hslow] at hfast
  cases hfast

theorem joined_push (hslow : mb.fastPath = false) (hfits : mb.Fits) :
    Joined mb (mb.push pos m) mb.internalQueue.messages m := by
  have hqueued : queued (mb.push pos m) =
      (mb.internalQueue.push mb.config.ordering pos m).messages := queued_of_slow hslow
  refine ⟨⟨rfl, rfl, rfl⟩, fun h => MessageStorage.fits_push h pos m, rfl, ?_, ?_,
    not_fast_of_slow ⟨rfl, rfl, rfl⟩ hslow⟩
  · rw [hqueued]
    exact MessageStorage.push_perm hfits pos m
  · intro p hp
    rw [hqueued]
    exact filter_push hfits pos hp

theorem joined_dropOldest (hslow : mb.fastPath = false) (hfits : mb.Fits) :
    Joined mb (mb.dropOldest.push pos m) mb.internalQueue.messages.tail m := by
  have hjoined : Joined mb.dropOldest (mb.dropOldest.push pos m)
      mb.dropOldest.internalQueue.messages m :=
    joined_push hslow (MessageStorage.fits_dropOldest hfits)
  have htail : mb.dropOldest.internalQueue.messages = mb.internalQueue.messages.tail :=
    MessageStorage.messages_dropOldest
  rw [htail] at hjoined
  exact ⟨⟨rfl, rfl, rfl⟩, fun h => hjoined.fits (MessageStorage.fits_dropOldest h), rfl,
    hjoined.perm, hjoined.others, not_fast_of_slow ⟨rfl, rfl, rfl⟩ hslow⟩

theorem joined_data {mb' : Mailbox} (hfast : mb.fastPath = true) (hsame : SameMailbox mb mb')
    (hcounted : mb'.totalEnqueued = mb.totalEnqueued + 1) (hdata : mb'.data = mb.data ++ [m])
    (hqueue : mb'.internalQueue = mb.internalQueue) : Joined mb mb' (queued mb) m := by
  have hqueued' : queued mb' = queued mb ++ [m] := by
    rw [queued_of_fast hfast, queued_of_fast (hsame.fastPath.trans hfast), hdata]
  refine ⟨hsame, ?_, hcounted, ?_, ?_, fun _ => ⟨hdata, hqueue⟩⟩
  · intro hfits
    rw [Mailbox.Fits, hqueue, hsame.config]
    exact hfits
  · rw [hqueued']
    exact List.perm_append_singleton m _
  · intro p hp
    rw [hqueued', List.filter_append, List.filter_singleton, hp]
    exact List.append_nil _

def HasRoom (mb : Mailbox) : Prop :=
  mb.dataQueueSize < mb.maxCapacity ∧
    (mb.fastPath = true → mb.receiverDropped = false ∧ mb.data.length < max mb.maxCapacity 1)

theorem not_hasRoom_of_full (hfull : mb.maxCapacity ≤ mb.dataQueueSize) : ¬HasRoom mb :=
  fun h => absurd h.1 (Nat.not_lt.mpr hfull)

theorem sendFast_cases (hfast : mb.fastPath = true) (m : Message) :
    Untouched mb (mb.sendFast m).2 ∧ ¬HasRoom mb ∨ Joined mb (mb.sendFast m).2 (queued mb) m := by
  rw [Mailbox.sendFast]
  split_ifs with hfull hclosed hslots
  · refine .inl ⟨?_, not_hasRoom_of_full hfull⟩
    cases mb.config.backpressure with
    | unspecified => exact untouched_self
    | error => exact untouched_self
    | dropOldest => exact untouched_dropped
    | dropNewest => exact untouched_dropped
  · refine .inl ⟨untouched_self, fun h => ?_⟩
    have hopen := (h.2 hfast).1
    rw [hclosed] at hopen
    cases hopen
  · exact .inl ⟨untouched_self, fun h => absurd (h.2 hfast).2 (Nat.not_lt.mpr hslots)⟩
  · exact .inr (joined_data hfast ⟨rfl, rfl, rfl⟩ rfl rfl rfl)

theorem sendOrdered_cases (hslow : mb.fastPath = false) (hfits : mb.Fits) (pos : Nat)
    (m : Message) :
    Untouched mb (mb.sendOrdered pos m).2 ∧ ¬HasRoom mb ∨
      Joined mb (mb.sendOrdered pos m).2 (queued mb) m ∨
      Joined mb (mb.sendOrdered pos m).2 mb.internalQueue.messages.tail m ∧
        mb.config.backpressure = .dropOldest ∧ mb.maxCapacity ≤ mb.dataQueueSize := by
  rw [Mailbox.sendOrdered]
  split_ifs with hfull
  · have hnone := not_hasRoom_of_full hfull
    cases hback : mb.config.backpressure with
    | unspecified => exact .inl ⟨untouched_self, hnone⟩
    | error => exact .inl ⟨untouched_self, hnone⟩
    | dropNewest => exact .inl ⟨untouched_dropped, hnone⟩
    | dropOldest => exact .inr (.inr ⟨joined_dropOldest hslow hfits, rfl, hfull⟩)
  · rw [queued_of_slow hslow]
    exact .inr (.inl (joined_push hslow hfits))

/-- Behind the key, a message joins the queue, or nothing happens to it; a full mailbox under
`DropOldest` makes room in front. -/
theorem accept_cases (hfits : mb.Fits) (pos : Nat) (m : Message) :
    Untouched mb (mb.accept pos m).2 ∧ ¬HasRoom mb ∨
      Joined mb (mb.accept pos m).2 (queued mb) m ∨
      Joined mb (mb.accept pos m).2 mb.internalQueue.messages.tail m ∧
        mb.fastPath = false ∧ mb.config.backpressure = .dropOldest ∧
        mb.maxCapacity ≤ mb.dataQueueSize := by
  unfold Mailbox.accept
  cases hfast : mb.fastPath with
  | true =>
      rw [if_pos rfl]
      exact (sendFast_cases hfast m).imp_right .inl
  | false =>
      rw [if_neg Bool.false_ne_true]
      rcases sendOrdered_cases hfast hfits pos m with hsame | hjoined | ⟨hjoined, hback, hfull⟩
      · exact .inl hsame
      · exact .inr (.inl hjoined)
      · exact .inr (.inr ⟨hjoined, rfl, hback, hfull⟩)

end Enqueue

/-! ## One message a key -/

/-- A key has one queued message at most, which is as new as everything enqueued with the key;
what the fast path has enqueued is what is waiting in its channel. -/
structure Sound (mb : Mailbox) (enqueued : List Message) : Prop where
  fits : mb.Fits
  fast : mb.fastPath = true → mb.isInMemory = true ∧ mb.config.ordering ≠ .priority ∧
    mb.internalQueue.messages = [] ∧ enqueued = mb.data
  single : ∀ key ≠ "", (ofKey key (queued mb)).length ≤ 1
  newest : ∀ p ∈ enqueued, p.idempotencyKey ≠ "" → ∀ k, p.sequenceNumber = some k →
    ∃ q ∈ ofKey p.idempotencyKey (queued mb), q.NotOlder k
  present : ∀ q ∈ queued mb, q ∈ enqueued

section Keys

variable {key : String} {l base : List Message} {m : Message}

theorem ofKey_otherKeys : ofKey key (otherKeys key l) = [] := by
  apply List.filter_eq_nil_iff.mpr
  intro p hp
  have hne := (List.mem_filter.mp hp).2
  simpa using hne

theorem ofKey_otherKeys_of_ne {other : String} (h : key ≠ other) :
    ofKey key (otherKeys other l) = ofKey key l := by
  unfold ofKey otherKeys
  rw [List.filter_filter]
  apply List.filter_congr
  intro p _
  by_cases hkey : p.idempotencyKey = key
  · simp [hkey, h]
  · simp [hkey]

theorem otherKeys_of_ofKey (h : ofKey key l = []) : otherKeys key l = l := by
  apply List.filter_eq_self.mpr
  intro p hp
  by_contra hne
  have hmem : p ∈ ofKey key l := mem_ofKey.mpr ⟨hp, by simpa using hne⟩
  rw [h] at hmem
  cases hmem

theorem ofKey_perm {l' : List Message} (h : l.Perm l') : (ofKey key l).Perm (ofKey key l') :=
  h.filter _

/-- What the queue has of a key once `m` has joined the messages `base`. -/
theorem ofKey_joined {mb mb' : Mailbox} (h : Joined mb mb' base m)
    (hbase : ofKey m.idempotencyKey base = []) :
    ofKey m.idempotencyKey (queued mb') = [m] := by
  have hperm : (ofKey m.idempotencyKey (queued mb')).Perm
      (ofKey m.idempotencyKey (m :: base)) := ofKey_perm h.perm
  have hone : ofKey m.idempotencyKey (m :: base) = [m] := by
    unfold ofKey at hbase ⊢
    rw [List.filter_cons, hbase]
    simp
  rw [hone] at hperm
  exact List.perm_singleton.mp hperm

theorem ofKey_joined_of_ne {mb mb' : Mailbox} (h : Joined mb mb' base m)
    (hkey : key ≠ m.idempotencyKey) : ofKey key (queued mb') = ofKey key base :=
  h.others _ (by simpa using fun heq => hkey heq.symm)

end Keys

section Invariant

variable {mb mb' : Mailbox} {enqueued base : List Message} {m : Message}

theorem Sound.untouched (h : Sound mb enqueued) (hsame : Untouched mb mb') :
    Sound mb' enqueued := by
  have hqueued := hsame.queued_eq
  refine ⟨hsame.fits h.fits, ?_, ?_, ?_, ?_⟩
  · rw [hsame.same.fastPath, hsame.same.inMemory, hsame.same.config, hsame.queue, hsame.data]
    exact h.fast
  · rw [hqueued]
    exact h.single
  · rw [hqueued]
    exact h.newest
  · rw [hqueued]
    exact h.present

/-- A message that joins what is left of the queue, when that has none of its key and still has
everything of the other keys, and when the message is the newest of its key. -/
theorem Sound.joined (h : Sound mb enqueued) (hjoined : Joined mb mb' base m)
    (hsub : base ⊆ queued mb) (hfresh : m.idempotencyKey ≠ "" → ofKey m.idempotencyKey base = [])
    (hothers : ∀ key ≠ "", key ≠ m.idempotencyKey → ofKey key base = ofKey key (queued mb))
    (hnewest : m.idempotencyKey ≠ "" → ∀ p ∈ ofKey m.idempotencyKey enqueued, ∀ k,
      p.sequenceNumber = some k → m.NotOlder k) :
    Sound mb' (enqueued ++ [m]) := by
  refine ⟨hjoined.fits h.fits, ?_, ?_, ?_, ?_⟩
  · intro hfast
    rw [hjoined.same.fastPath] at hfast
    obtain ⟨hmemory, hordering, hempty, hdata⟩ := h.fast hfast
    obtain ⟨hdata', hqueue'⟩ := hjoined.fast hfast
    rw [hjoined.same.inMemory, hjoined.same.config, hqueue', hdata', hdata]
    exact ⟨hmemory, hordering, hempty, rfl⟩
  · intro key hkey
    by_cases hm : key = m.idempotencyKey
    · subst hm
      rw [ofKey_joined hjoined (hfresh hkey)]
      exact le_rfl
    · rw [ofKey_joined_of_ne hjoined hm, hothers key hkey hm]
      exact h.single key hkey
  · intro p hp hkey k hk
    by_cases hm : p.idempotencyKey = m.idempotencyKey
    · rw [hm] at hkey ⊢
      rw [ofKey_joined hjoined (hfresh hkey)]
      refine ⟨m, List.mem_singleton_self m, ?_⟩
      rcases List.mem_append.mp hp with hold | hnew
      · exact hnewest hkey p (mem_ofKey.mpr ⟨hold, hm⟩) k hk
      · rw [List.mem_singleton.mp hnew] at hk
        exact ⟨k, hk, le_rfl⟩
    · rw [ofKey_joined_of_ne hjoined hm, hothers _ hkey hm]
      rcases List.mem_append.mp hp with hold | hnew
      · exact h.newest p hold hkey k hk
      · exact absurd (congrArg Message.idempotencyKey (List.mem_singleton.mp hnew)) hm
  · intro q hq
    rcases List.mem_cons.mp (hjoined.perm.mem_iff.mp hq) with rfl | hold
    · exact List.mem_append_right _ (List.mem_singleton_self q)
    · exact List.mem_append_left _ (h.present q (hsub hold))

/-- A queued message of the key is not older than the incoming one. -/
def OutOfDate (mb : Mailbox) (m : Message) : Prop :=
  ∃ number, m.sequenceNumber = some number ∧
    ∃ q ∈ ofKey m.idempotencyKey (queued mb), q.NotOlder number

theorem retained_iff_outOfDate
    (hcomparable : ∀ q ∈ ofKey m.idempotencyKey (queued mb), m.Comparable q) :
    (∃ q ∈ ofKey m.idempotencyKey (queued mb), m.retainedBy q = true) ↔ OutOfDate mb m := by
  constructor
  · rintro ⟨q, hq, hretained⟩
    obtain ⟨number, hnumber, hold⟩ :=
      (Message.retainedBy_iff (mem_ofKey.mp hq).2 (hcomparable q hq)).mp hretained
    exact ⟨number, hnumber, q, hq, hold⟩
  · rintro ⟨number, hnumber, q, hq, hold⟩
    exact ⟨q, hq, (Message.retainedBy_iff (mem_ofKey.mp hq).2 (hcomparable q hq)).mpr
      ⟨number, hnumber, hold⟩⟩

/-- `mb'` is `mb` without the messages of the key of `m`. -/
structure Removed (mb mb' : Mailbox) (m : Message) : Prop where
  same : SameMailbox mb mb'
  fits : mb.Fits → mb'.Fits
  counted : mb'.totalEnqueued = mb.totalEnqueued
  others : queued mb' = otherKeys m.idempotencyKey (queued mb)
  fast : mb.fastPath = true → mb' = mb
  room : RoomFor mb m → HasRoom mb'

theorem Removed.joined {mb'' : Mailbox} (h : Removed mb mb' m)
    (hjoined : Joined mb' mb'' base m) : Joined mb mb'' base m := by
  refine ⟨?_, fun hfits => hjoined.fits (h.fits hfits), ?_, hjoined.perm, hjoined.others, ?_⟩
  · exact ⟨hjoined.same.config.trans h.same.config, hjoined.same.inMemory.trans h.same.inMemory,
      hjoined.same.fastPath.trans h.same.fastPath⟩
  · rw [hjoined.counted, h.counted]
  · intro hfast
    rw [h.fast hfast] at hjoined
    exact hjoined.fast hfast

/-- The fast path does not look for the key, and has none of it. -/
theorem overwrite_fast (hfast : mb.fastPath = true) (hm : Replaceable mb m) :
    (mb.overwrite m).1 = false ∧ Removed mb (mb.overwrite m).2 m ∧ ¬OutOfDate mb m := by
  have hnone := hm.visible hfast
  have hover : mb.overwrite m = (false, mb) := by rw [Mailbox.overwrite, if_pos hfast]
  rw [hover]
  refine ⟨rfl, ⟨⟨rfl, rfl, rfl⟩, id, rfl, ?_, fun _ => rfl, ?_⟩, ?_⟩
  · rw [otherKeys_of_ofKey hnone]
  · intro hroom
    rw [RoomFor, hnone] at hroom
    exact hroom
  · rintro ⟨-, -, q, hq, -⟩
    rw [hnone] at hq
    cases hq

theorem overwrite_slow (hslow : mb.fastPath = false)
    (hsingle : (ofKey m.idempotencyKey (queued mb)).length ≤ 1) (hm : Replaceable mb m) :
    (mb.overwrite m).1 = true ∧ Untouched mb (mb.overwrite m).2 ∧ OutOfDate mb m ∨
      (mb.overwrite m).1 = false ∧ Removed mb (mb.overwrite m).2 m ∧ ¬OutOfDate mb m := by
  have hqueued := queued_of_slow hslow
  have hnewer := retained_iff_outOfDate hm.comparable
  have hover : mb.overwrite m =
      ((mb.internalQueue.overwrite m).2.1,
        { mb with
          internalQueue := (mb.internalQueue.overwrite m).2.2
          dataQueueSize := fetchSub mb.dataQueueSize (mb.internalQueue.overwrite m).1 }) := by
    rw [Mailbox.overwrite, hslow, if_neg Bool.false_ne_true]
  rw [hqueued] at hsingle hnewer
  rw [hover]
  rcases overwrite_spec hsingle with ⟨hkept, hstale, hmessages⟩ | ⟨hnone, hstale, hmessages⟩
  · exact .inl ⟨hstale, ⟨⟨rfl, rfl, rfl⟩, fun hfits => MessageStorage.fits_overwrite hfits m,
      rfl, hmessages, rfl⟩, hnewer.mp hkept⟩
  · refine .inr ⟨hstale, ⟨⟨rfl, rfl, rfl⟩, fun hfits => MessageStorage.fits_overwrite hfits m,
      rfl, ?_, not_fast_of_slow ⟨rfl, rfl, rfl⟩ hslow, ?_⟩, ?_⟩
    · rw [hqueued, ← hmessages]
      exact queued_of_slow hslow
    · intro hroom
      rw [RoomFor, hqueued, ← removed_of_others hmessages] at hroom
      exact hroom
    · intro hnot
      obtain ⟨q, hq, hretained⟩ := hnewer.mpr hnot
      rw [hnone q hq] at hretained
      cases hretained

/-- What an overwriting message does: it is older than the one that is queued, or it takes the
place of what is queued of its key. -/
theorem enqueue_replaces {σ : Type} {st : IdempotencyStore σ} {n : Endpoint σ} {t : Readings}
    {pos : Nat} (h : Sound n.mailbox enqueued) (hoverwrite : m.isOverwrite = true)
    (hm : Replaceable n.mailbox m) :
    Untouched n.mailbox (n.enqueue st t pos m).2.mailbox ∧ OutOfDate n.mailbox m ∨
      Joined n.mailbox (n.enqueue st t pos m).2.mailbox
          (otherKeys m.idempotencyKey (queued n.mailbox)) m ∧ ¬OutOfDate n.mailbox m := by
  have hkey : m.idempotencyKey ≠ "" := (of_decide_eq_true hoverwrite).2
  have hcheck : n.checkKey st t m =
      (if (n.mailbox.overwrite m).1 then .turnedAway else .unclaimed,
        { n with mailbox := (n.mailbox.overwrite m).2 }) := by
    unfold Endpoint.checkKey
    rw [if_neg hkey, if_pos hoverwrite]
  have hunclaimed : KeyCheck.unclaimed ≠ .turnedAway := by decide
  have hcases : (n.mailbox.overwrite m).1 = true ∧ Untouched n.mailbox (n.mailbox.overwrite m).2 ∧
        OutOfDate n.mailbox m ∨
      (n.mailbox.overwrite m).1 = false ∧ Removed n.mailbox (n.mailbox.overwrite m).2 m ∧
        ¬OutOfDate n.mailbox m := by
    cases hfast : n.mailbox.fastPath with
    | true => exact .inr (overwrite_fast hfast hm)
    | false => exact overwrite_slow hfast (h.single _ hkey) hm
  rw [mailbox_enqueue hm.data hm.accepting, hcheck]
  rcases hcases with ⟨hstale, hsame, holder⟩ | ⟨hstale, hremoved, hnewer⟩
  · rw [hstale, if_pos rfl, if_pos rfl]
    exact .inl ⟨hsame, holder⟩
  · rw [hstale, if_neg Bool.false_ne_true, if_neg hunclaimed, ← hremoved.others]
    have hroom := hremoved.room (hm.room.resolve_left hnewer)
    refine .inr ⟨?_, hnewer⟩
    rcases accept_cases (hremoved.fits h.fits) pos m with
      ⟨-, hfull⟩ | hjoined | ⟨-, -, -, hfull⟩
    · exact absurd hroom hfull
    · exact hremoved.joined hjoined
    · exact absurd hroom (not_hasRoom_of_full hfull)

/-- A message in another mode joins a queue that has none of its key, or is left out. -/
theorem enqueue_unrelated {σ : Type} {st : IdempotencyStore σ} {n : Endpoint σ} {t : Readings}
    {pos : Nat} (h : Sound n.mailbox enqueued) (hoverwrite : m.isOverwrite = false)
    (hdata : m.isCtrlMessage = false) (hopen : Endpoint.refusesNew n.mailbox = false)
    (hm : (n.checkKey st t m).1 ≠ .turnedAway → Unrelated n.mailbox m) :
    Untouched n.mailbox (n.enqueue st t pos m).2.mailbox ∨
      ∃ base, Joined n.mailbox (n.enqueue st t pos m).2.mailbox base m ∧
        base ⊆ queued n.mailbox ∧
        (m.idempotencyKey ≠ "" → ofKey m.idempotencyKey (queued n.mailbox) = []) ∧
        (∀ key ≠ "", ofKey key base = ofKey key (queued n.mailbox)) := by
  have hmailbox : (n.checkKey st t m).2.mailbox = n.mailbox := by
    unfold Endpoint.checkKey
    split_ifs with hkey hmode
    · rfl
    · rw [hoverwrite] at hmode
      cases hmode
    · rfl
  rw [mailbox_enqueue hdata hopen, hmailbox]
  split_ifs with haway
  · exact .inl untouched_self
  · obtain ⟨hfresh, hdrops⟩ := hm haway
    rcases accept_cases h.fits pos m with ⟨hsame, -⟩ | hjoined | ⟨hjoined, hslow, hback, hfull⟩
    · exact .inl hsame
    · exact .inr ⟨_, hjoined, List.Subset.refl _, hfresh, fun _ _ => rfl⟩
    · have hqueued := queued_of_slow hslow
      refine .inr ⟨_, hjoined, ?_, hfresh, ?_⟩
      · rw [hqueued]
        exact List.tail_subset _
      · intro key hkey
        rw [hqueued]
        cases hmessages : n.mailbox.internalQueue.messages with
        | nil => rfl
        | cons q rest =>
            have hq := hdrops hback hslow hfull q (by rw [hmessages]; exact rfl)
            rw [List.tail_cons, ofKey, ofKey, List.filter_cons, if_neg]
            simpa [hq] using fun heq : "" = key => hkey heq.symm

end Invariant

section Steps

variable {st} {s : KeyedQueue σ}

theorem step_enqueue_of_untouched {t : Readings} {pos : Nat} {m : Message}
    (hsame : Untouched s.mailbox (s.history.endpoint.enqueue st t pos m).2.mailbox) :
    (s.step st (.endpoint (.enqueue t pos m))).mailbox =
        (s.history.endpoint.enqueue st t pos m).2.mailbox ∧
      (s.step st (.endpoint (.enqueue t pos m))).enqueued = s.enqueued := by
  have hcounted : ¬(s.history.endpoint.enqueue st t pos m).2.mailbox.totalEnqueued =
      s.mailbox.totalEnqueued + 1 := by
    rw [hsame.counted]
    omega
  unfold step mailbox at *
  simp only [History.step, if_neg hcounted]
  exact ⟨trivial, trivial⟩

theorem step_enqueue_of_joined {t : Readings} {pos : Nat} {m : Message} {base : List Message}
    (hjoined : Joined s.mailbox (s.history.endpoint.enqueue st t pos m).2.mailbox base m) :
    (s.step st (.endpoint (.enqueue t pos m))).mailbox =
        (s.history.endpoint.enqueue st t pos m).2.mailbox ∧
      (s.step st (.endpoint (.enqueue t pos m))).enqueued = s.enqueued ++ [m] := by
  have hcounted := hjoined.counted
  unfold step mailbox at *
  simp only [History.step, if_pos hcounted]
  exact ⟨trivial, trivial⟩

/-- Nothing enqueued with the key is newer than a message that is not out of date. -/
theorem Sound.not_newer {mb : Mailbox} {enqueued : List Message} {m : Message}
    (h : Sound mb enqueued) (hkey : m.idempotencyKey ≠ "")
    (hcomparable : ∀ q ∈ ofKey m.idempotencyKey (queued mb), m.Comparable q)
    (hnewer : ¬OutOfDate mb m) {p : Message} (hp : p ∈ ofKey m.idempotencyKey enqueued) {k : Int}
    (hk : p.sequenceNumber = some k) : m.NotOlder k := by
  obtain ⟨hpmem, hpkey⟩ := mem_ofKey.mp hp
  -- the message of the key that is queued is as new as `p`, and `m` is newer
  obtain ⟨q, hq, k', hk', hle⟩ := h.newest p hpmem (by rw [hpkey]; exact hkey) k hk
  rw [hpkey] at hq
  have hqcomparable := hcomparable q hq
  unfold Message.Comparable at hqcomparable
  cases hn : m.sequenceNumber with
  | none =>
      rw [hn] at hqcomparable
      dsimp only at hqcomparable
      rw [hk'] at hqcomparable
      cases hqcomparable
  | some n =>
      refine ⟨n, hn, ?_⟩
      by_contra hlt
      exact hnewer ⟨n, hn, q, hq, k', hk', by omega⟩

theorem Sound.enqueue_untouched (h : Sound s.mailbox s.enqueued) {t : Readings} {pos : Nat}
    {m : Message} (hsame : Untouched s.mailbox (s.history.endpoint.enqueue st t pos m).2.mailbox) :
    Sound (s.step st (.endpoint (.enqueue t pos m))).mailbox
      (s.step st (.endpoint (.enqueue t pos m))).enqueued := by
  obtain ⟨hmailbox, henqueued⟩ := step_enqueue_of_untouched hsame
  rw [hmailbox, henqueued]
  exact h.untouched hsame

theorem Sound.enqueue_overwriting (h : Sound s.mailbox s.enqueued) {t : Readings} {pos : Nat}
    {m : Message} (hoverwrite : m.isOverwrite = true) (hm : Replaceable s.mailbox m) :
    Sound (s.step st (.endpoint (.enqueue t pos m))).mailbox
      (s.step st (.endpoint (.enqueue t pos m))).enqueued := by
  rcases enqueue_replaces h hoverwrite hm with ⟨hsame, -⟩ | ⟨hjoined, hnewer⟩
  · exact h.enqueue_untouched hsame
  · obtain ⟨hmailbox, henqueued⟩ := step_enqueue_of_joined hjoined
    rw [hmailbox, henqueued]
    refine h.joined hjoined (List.filter_subset_self _) (fun _ => ofKey_otherKeys)
      (fun key _ hne => ofKey_otherKeys_of_ne hne) ?_
    intro hkey p hp k hk
    exact h.not_newer hkey hm.comparable hnewer hp hk

theorem Sound.enqueue_unrelated (h : Sound s.mailbox s.enqueued) {t : Readings} {pos : Nat}
    {m : Message} (hoverwrite : m.isOverwrite = false) (hdata : m.isCtrlMessage = false)
    (hopen : Endpoint.refusesNew s.mailbox = false)
    (hm : (s.history.endpoint.checkKey st t m).1 ≠ .turnedAway → Unrelated s.mailbox m) :
    Sound (s.step st (.endpoint (.enqueue t pos m))).mailbox
      (s.step st (.endpoint (.enqueue t pos m))).enqueued := by
  rcases KeyedQueue.enqueue_unrelated h hoverwrite hdata hopen hm with
    hsame | ⟨base, hjoined, hsub, hfresh, hothers⟩
  · exact h.enqueue_untouched hsame
  · obtain ⟨hmailbox, henqueued⟩ := step_enqueue_of_joined hjoined
    rw [hmailbox, henqueued]
    refine h.joined hjoined hsub ?_ (fun key hkey _ => hothers key hkey) ?_
    · intro hkey
      rw [hothers _ hkey]
      exact hfresh hkey
    · intro hkey p hp k hk
      obtain ⟨hpmem, hpkey⟩ := mem_ofKey.mp hp
      obtain ⟨q, hq, -⟩ := h.newest p hpmem (by rw [hpkey]; exact hkey) k hk
      have hnone : ofKey m.idempotencyKey (queued s.mailbox) = [] := hfresh hkey
      rw [hpkey, hnone] at hq
      cases hq

theorem Sound.enqueue (h : Sound s.mailbox s.enqueued) {t : Readings} {pos : Nat} {m : Message}
    (horderly : s.Orderly st (.endpoint (.enqueue t pos m))) :
    Sound (s.step st (.endpoint (.enqueue t pos m))).mailbox
      (s.step st (.endpoint (.enqueue t pos m))).enqueued := by
  change if m.isOverwrite then _ else _ at horderly
  cases hoverwrite : m.isOverwrite with
  | true =>
      rw [hoverwrite, if_pos rfl] at horderly
      exact h.enqueue_overwriting hoverwrite horderly
  | false =>
      rw [hoverwrite, if_neg Bool.false_ne_true] at horderly
      cases hdata : m.isCtrlMessage with
      | true =>
          apply h.enqueue_untouched
          unfold Endpoint.enqueue
          rw [hdata, if_pos rfl]
          exact ⟨⟨rfl, rfl, rfl⟩, id, rfl, rfl, rfl⟩
      | false =>
          cases hopen : Endpoint.refusesNew s.mailbox with
          | true =>
              apply h.enqueue_untouched
              unfold Endpoint.enqueue
              rw [hdata, if_neg Bool.false_ne_true]
              unfold mailbox at hopen
              rw [hopen, if_pos rfl]
              exact untouched_self
          | false => exact h.enqueue_unrelated hoverwrite hdata hopen (horderly hdata hopen)

section Behind

variable {mb mb' : Mailbox} {enqueued : List Message}

/-- On the fast path what is waiting is in the channel, from which the receiver takes. -/
theorem Sound.of_fast (h : Sound mb enqueued) (hsame : SameMailbox mb mb')
    (hfits : mb.Fits → mb'.Fits) (hfast : mb.fastPath = true)
    (hqueue : mb'.internalQueue.messages = []) (hsub : (mb'.data).Sublist mb.data) :
    Sound mb' mb'.data := by
  obtain ⟨hmemory, hordering, -, -⟩ := h.fast hfast
  have hqueued := queued_of_fast hfast
  have hqueued' := queued_of_fast (hsame.fastPath.trans hfast)
  refine ⟨hfits h.fits, ?_, ?_, ?_, ?_⟩
  · intro _
    rw [hsame.inMemory, hsame.config]
    exact ⟨hmemory, hordering, hqueue, rfl⟩
  · intro key hkey
    have hle := h.single key hkey
    rw [hqueued] at hle
    rw [hqueued']
    exact (hsub.filter _).length_le.trans hle
  · intro p hp _ k hk
    rw [hqueued']
    exact ⟨p, mem_ofKey.mpr ⟨hp, rfl⟩, k, hk, le_rfl⟩
  · intro q hq
    rw [hqueued'] at hq
    exact hq

/-- On the other path what is behind the internal queue does not matter. -/
theorem Sound.of_slow (h : Sound mb enqueued) (hsame : SameMailbox mb mb')
    (hfits : mb.Fits → mb'.Fits) (hslow : mb.fastPath = false)
    (hperm : mb'.internalQueue.messages.Perm mb.internalQueue.messages) : Sound mb' enqueued := by
  have hqueued : (queued mb').Perm (queued mb) := by
    rw [queued_of_slow hslow, queued_of_slow (hsame.fastPath.trans hslow)]
    exact hperm
  refine ⟨hfits h.fits, not_fast_of_slow hsame hslow, ?_, ?_, ?_⟩
  · intro key hkey
    rw [(ofKey_perm hqueued).length_eq]
    exact h.single key hkey
  · intro p hp hkey k hk
    obtain ⟨q, hq, hqk⟩ := h.newest p hp hkey k hk
    exact ⟨q, (ofKey_perm hqueued).mem_iff.mpr hq, hqk⟩
  · intro q hq
    exact h.present q (hqueued.mem_iff.mp hq)

theorem Sound.emptied (h : Sound mb enqueued) (hsame : SameMailbox mb mb')
    (hfits : mb.Fits → mb'.Fits) (hslow : mb.fastPath = false)
    (hempty : mb'.internalQueue.messages = []) : Sound mb' [] := by
  have hqueued : queued mb' = [] := by
    rw [queued_of_slow (hsame.fastPath.trans hslow), hempty]
  refine ⟨hfits h.fits, not_fast_of_slow hsame hslow, ?_, nofun, ?_⟩
  · intro key _
    rw [hqueued]
    exact Nat.zero_le 1
  · intro q hq
    rw [hqueued] at hq
    cases hq

end Behind

/-- What a heap may do to the queue, and what else stays. -/
theorem rearrange_spec (s : KeyedQueue σ) (messages : List Message) :
    (s.rearrange messages).enqueued = s.enqueued ∧
      SameMailbox s.mailbox (s.rearrange messages).mailbox ∧
      (s.rearrange messages).mailbox.totalEnqueued = s.mailbox.totalEnqueued ∧
      (s.mailbox.Fits → (s.rearrange messages).mailbox.Fits) ∧
      (queued (s.rearrange messages).mailbox).Perm (queued s.mailbox) ∧
      (s.mailbox.config.ordering ≠ .priority →
        queued (s.rearrange messages).mailbox = queued s.mailbox) := by
  unfold rearrange
  split_ifs with h
  · obtain ⟨hordering, hslow, hperm, hsorted⟩ := h
    refine ⟨rfl, ⟨rfl, rfl, rfl⟩, rfl, fun _ => hordering, ?_, fun hne => absurd hordering hne⟩
    have hqueued := queued_of_slow hslow
    have hqueued' : queued (s.history.setMailbox
        { s.mailbox with
          internalQueue := .priority ⟨messages, hsorted⟩ }).endpoint.mailbox = messages :=
      if_neg (Bool.eq_false_iff.mp hslow)
    rw [hqueued]
    exact (List.Perm.of_eq hqueued').trans hperm
  · exact ⟨rfl, ⟨rfl, rfl, rfl⟩, rfl, id, List.Perm.refl _, fun _ => rfl⟩

theorem Sound.rearrange (h : Sound s.mailbox s.enqueued) (messages : List Message) :
    Sound (s.rearrange messages).mailbox (s.rearrange messages).enqueued := by
  unfold KeyedQueue.rearrange
  split_ifs with hheap
  · exact h.of_slow ⟨rfl, rfl, rfl⟩ (fun _ => hheap.1) hheap.2.1 hheap.2.2.1
  · exact h

theorem Sound.forward (h : Sound s.mailbox s.enqueued) :
    Sound (s.step st (.endpoint .forward)).mailbox
      (s.step st (.endpoint .forward)).enqueued := by
  change Sound _ (if s.mailbox.fastPath then s.enqueued else [])
  cases hpath : s.mailbox.fastPath with
  | true =>
      obtain ⟨hmemory, -, hempty, hdata⟩ := h.fast hpath
      have hdata' : (s.step st (.endpoint .forward)).mailbox.data = s.mailbox.data := by
        change (if s.mailbox.isInMemory then
          s.mailbox.data ++ s.mailbox.internalQueue.messages else s.mailbox.data) = _
        rw [hmemory, if_pos rfl, hempty, List.append_nil]
      have hsound : Sound (s.step st (.endpoint .forward)).mailbox
          (s.step st (.endpoint .forward)).mailbox.data :=
        h.of_fast ⟨rfl, rfl, rfl⟩ MessageStorage.fits_clear hpath MessageStorage.messages_clear
          (by rw [hdata'])
      rw [hdata', ← hdata] at hsound
      exact hsound
  | false =>
      exact h.emptied ⟨rfl, rfl, rfl⟩ MessageStorage.fits_clear hpath
        MessageStorage.messages_clear

theorem Sound.arrive (h : Sound s.mailbox s.enqueued) (m : Message) :
    Sound (s.step st (.endpoint (.arrive m))).mailbox
      (s.step st (.endpoint (.arrive m))).enqueued := by
  change Sound _ s.enqueued
  cases hpath : s.mailbox.fastPath with
  | true =>
      refine h.untouched ⟨⟨rfl, rfl, rfl⟩, id, rfl, rfl, ?_⟩
      change (if s.mailbox.isInMemory then s.mailbox.data else _) = _
      rw [(h.fast hpath).1, if_pos rfl]
  | false => exact h.of_slow ⟨rfl, rfl, rfl⟩ id hpath (List.Perm.refl _)

theorem Sound.receive (h : Sound s.mailbox s.enqueued) :
    Sound (s.step st (.endpoint .receive)).mailbox
      (s.step st (.endpoint .receive)).enqueued := by
  change Sound ((s.history.step st .receive).endpoint.mailbox)
    (if s.mailbox.fastPath then s.enqueued.tail else s.enqueued)
  rw [History.step]
  cases hdata : s.history.endpoint.mailbox.data with
  | nil =>
      dsimp only
      cases hpath : s.mailbox.fastPath with
      | true =>
          have henqueued : s.enqueued = [] := (h.fast hpath).2.2.2.trans hdata
          rw [if_pos rfl, henqueued, List.tail_nil, ← henqueued]
          exact h
      | false => exact h
  | cons m rest =>
      dsimp only
      cases hpath : s.mailbox.fastPath with
      | true =>
          have henqueued : s.enqueued.tail = rest := by
            rw [(h.fast hpath).2.2.2, mailbox, hdata, List.tail_cons]
          rw [if_pos rfl, henqueued]
          have hsub : rest.Sublist s.mailbox.data := by
            rw [mailbox, hdata]
            exact List.sublist_cons_self m rest
          exact h.of_fast ⟨rfl, rfl, rfl⟩ id hpath (h.fast hpath).2.2.1 hsub
      | false => exact h.of_slow ⟨rfl, rfl, rfl⟩ id hpath (List.Perm.refl _)

theorem Sound.step (h : Sound s.mailbox s.enqueued) {event : KeyedQueueEvent}
    (horderly : s.Orderly st event) :
    Sound (s.step st event).mailbox (s.step st event).enqueued := by
  cases event with
  | rearrange messages => exact h.rearrange messages
  | endpoint event =>
      cases event with
      | enqueue t pos m => exact h.enqueue horderly
      | forward => exact h.forward
      | arrive m => exact h.arrive m
      | receive => exact h.receive
      | stop => exact h.untouched ⟨⟨rfl, rfl, rfl⟩, id, rfl, rfl, rfl⟩
      | shutdown => exact h.untouched ⟨⟨rfl, rfl, rfl⟩, id, rfl, rfl, rfl⟩
      | cleanup now => exact h

theorem sound_start {env : Env} {config : MailboxConfig} {mb : Mailbox}
    (hnew : Mailbox.new env config = .ok mb) : Sound (start st mb).mailbox [] := by
  obtain ⟨hfits, -, hempty, hdata, -⟩ := Mailbox.new_spec hnew
  have hqueued : queued mb = [] := by
    unfold queued
    split_ifs
    · exact hdata
    · exact hempty
  change Sound mb []
  refine ⟨hfits, ?_, ?_, nofun, ?_⟩
  · intro hfast
    unfold Mailbox.new at hnew
    split at hnew
    · cases hnew
    · cases hnew
      simp only [Bool.and_eq_true, Bool.not_eq_true', decide_eq_false_iff_not] at hfast
      exact ⟨hfast.1.1.1, hfast.1.1.2, hempty, rfl⟩
  · intro key _
    rw [hqueued]
    exact Nat.zero_le 1
  · intro q hq
    rw [hqueued] at hq
    cases hq

/-! ## The newest message is kept -/

/-- Where a key has one message at most, the queue and the heap keep the same messages. -/
theorem branchesAgree_of_single {m : Message} {l : List Message}
    (h : (ofKey m.idempotencyKey l).length ≤ 1) : BranchesAgree m l := by
  intro q heap hq hheap
  have hsame : ∀ storage : MessageStorage, storage.messages.Perm l →
      (ofKey m.idempotencyKey storage.messages).length ≤ 1 := by
    intro storage hperm
    rw [(ofKey_perm hperm).length_eq]
    exact h
  have hkept : (∃ p ∈ ofKey m.idempotencyKey q, m.retainedBy p = true) ↔
      ∃ p ∈ ofKey m.idempotencyKey heap.items, m.retainedBy p = true := by
    have hperm : (ofKey m.idempotencyKey q).Perm (ofKey m.idempotencyKey heap.items) :=
      ofKey_perm (hq.trans hheap.symm)
    exact ⟨fun ⟨p, hp, hr⟩ => ⟨p, hperm.mem_iff.mp hp, hr⟩,
      fun ⟨p, hp, hr⟩ => ⟨p, hperm.mem_iff.mpr hp, hr⟩⟩
  refine ⟨?_, ?_⟩
  · rcases overwrite_spec (hsame (.queue q) hq) with
      ⟨hleft, hstale, -⟩ | ⟨hleft, hstale, -⟩
    · rcases overwrite_spec (hsame (.priority heap) hheap) with
        ⟨-, hstale', -⟩ | ⟨hright, -, -⟩
      · rw [hstale, hstale']
      · obtain ⟨p, hp, hr⟩ := hkept.mp hleft
        rw [hright p hp] at hr
        cases hr
    · rcases overwrite_spec (hsame (.priority heap) hheap) with
        ⟨hright, -, -⟩ | ⟨-, hstale', -⟩
      · obtain ⟨p, hp, hr⟩ := hkept.mpr hright
        rw [hleft p hp] at hr
        cases hr
      · rw [hstale, hstale']
  · rw [MessageStorage.messages_overwrite, MessageStorage.messages_overwrite]
    exact (hq.trans hheap.symm).filter _

theorem sorted_of_fits {mb : Mailbox} (hfits : mb.Fits) (hordering : mb.config.ordering = .priority)
    (hslow : mb.fastPath = false) :
    (queued mb).Pairwise fun a b => b.priority ≤ a.priority := by
  unfold Mailbox.Fits at hfits
  rw [queued_of_slow hslow]
  cases hqueue : mb.internalQueue with
  | queue q =>
      rw [hqueue] at hfits
      exact absurd hordering hfits
  | priority heap => exact heap.sorted

/-- The messages of the other keys, after a step and whatever a heap does then. -/
theorem sameOrder_rearrange {s s' : KeyedQueue σ} (hfits : s'.mailbox.Fits)
    (hfast : s'.mailbox.fastPath = true → s'.mailbox.config.ordering ≠ .priority)
    (hconfig : s'.mailbox.config = s.mailbox.config) {key : String}
    (hothers : otherKeys key (queued s'.mailbox) = otherKeys key (queued s.mailbox))
    (messages : List Message) :
    SameOrder s.mailbox.config.ordering (otherKeys key (queued s.mailbox))
      (otherKeys key (queued (s'.rearrange messages).mailbox)) := by
  obtain ⟨-, hsame, -, hkeeps, hperm, hexact⟩ := s'.rearrange_spec messages
  rw [← hothers, ← hconfig]
  refine ⟨hperm.filter _, ?_, ?_⟩
  · intro hne
    rw [hexact hne]
  · intro hordering
    have hslow : (s'.rearrange messages).mailbox.fastPath = false := by
      rw [hsame.fastPath]
      by_contra hpath
      exact hfast (by simpa using hpath) hordering
    apply List.Pairwise.filter
    apply sorted_of_fits (hkeeps hfits) _ hslow
    rw [hsame.config]
    exact hordering

/-- What the newest message of a key is, seen through a rearrangement. -/
theorem newest_rearrange {s' : KeyedQueue σ} {m q : Message} {n number : Int}
    (honly : ofKey m.idempotencyKey (queued s'.mailbox) = [q]) (hmem : q ∈ s'.enqueued)
    (hnumber : q.sequenceNumber = some number) (hle : n ≤ number)
    (hmax : ∀ p ∈ ofKey m.idempotencyKey s'.enqueued, ∀ k, p.sequenceNumber = some k →
      k ≤ number) (messages : List Message) :
    ∃ q number, ofKey m.idempotencyKey (queued (s'.rearrange messages).mailbox) = [q] ∧
      q ∈ (s'.rearrange messages).enqueued ∧ q.sequenceNumber = some number ∧ n ≤ number ∧
      ∀ p ∈ ofKey m.idempotencyKey (s'.rearrange messages).enqueued, ∀ k,
        p.sequenceNumber = some k → k ≤ number := by
  obtain ⟨henqueued, -, -, -, hperm, -⟩ := s'.rearrange_spec messages
  have honly' : (ofKey m.idempotencyKey (queued (s'.rearrange messages).mailbox)).Perm [q] := by
    rw [← honly]
    exact ofKey_perm hperm
  rw [henqueued]
  exact ⟨q, number, List.perm_singleton.mp honly', hmem, hnumber, hle, hmax⟩

theorem ofKey_eq_singleton {key : String} {l : List Message} {q : Message}
    (hsingle : (ofKey key l).length ≤ 1) (hq : q ∈ ofKey key l) : ofKey key l = [q] := by
  cases hlist : ofKey key l with
  | nil =>
      rw [hlist] at hq
      cases hq
  | cons p rest =>
      have hp : p = q := eq_of_single hsingle (by rw [hlist]; exact List.mem_cons_self) hq
      rw [hlist, List.length_cons] at hsingle
      rw [hp, List.length_eq_zero_iff.mp (Nat.le_zero.mp (Nat.le_of_succ_le_succ hsingle))]

section KeepsNewest

variable {t : Readings} {pos : Nat} {m : Message} {n : Int}

/-- The message is left out for one that is not older. -/
theorem keepsNewest_of_untouched (h : Sound s.mailbox s.enqueued) (hkey : m.idempotencyKey ≠ "")
    (hn : m.sequenceNumber = some n)
    (hsame : Untouched s.mailbox (s.history.endpoint.enqueue st t pos m).2.mailbox)
    (holder : OutOfDate s.mailbox m) (messages : List Message) :
    KeepsNewest s ((s.step st (.endpoint (.enqueue t pos m))).rearrange messages) m n := by
  have hsingle := h.single _ hkey
  obtain ⟨-, -, hcounted, -, -, -⟩ :=
    (s.step st (.endpoint (.enqueue t pos m))).rearrange_spec messages
  obtain ⟨n', hn', q, hq, number, hnumber, hle⟩ := holder
  rw [hn, Option.some.injEq] at hn'
  subst hn'
  obtain ⟨hmailbox, henqueued⟩ := step_enqueue_of_untouched hsame
  have hone := ofKey_eq_singleton hsingle hq
  refine ⟨?_, ?_, ?_, branchesAgree_of_single hsingle⟩
  · rw [hcounted, hmailbox]
    exact iff_of_true hsame.counted ⟨q, hq, number, hnumber, hle⟩
  · refine newest_rearrange ?_ ?_ hnumber hle ?_ messages
    · rw [hmailbox, hsame.queued_eq]
      exact hone
    · rw [henqueued]
      exact h.present q (mem_ofKey.mp hq).1
    · intro p hp k hk
      rw [henqueued] at hp
      obtain ⟨hpmem, hpkey⟩ := mem_ofKey.mp hp
      obtain ⟨q', hq', k', hk', hlek⟩ := h.newest p hpmem (by rw [hpkey]; exact hkey) k hk
      rw [hpkey, hone, List.mem_singleton] at hq'
      rw [hq', hnumber, Option.some.injEq] at hk'
      omega
  · have hsound := h.untouched hsame
    rw [← hmailbox] at hsame hsound
    refine sameOrder_rearrange hsound.fits (fun hfast => (hsound.fast hfast).2.1)
      hsame.same.config ?_ messages
    rw [hsame.queued_eq]

/-- The message takes the place of what was queued of its key. -/
theorem keepsNewest_of_joined (h : Sound s.mailbox s.enqueued) (hkey : m.idempotencyKey ≠ "")
    (hn : m.sequenceNumber = some n) (hm : Replaceable s.mailbox m)
    (hjoined : Joined s.mailbox (s.history.endpoint.enqueue st t pos m).2.mailbox
      (otherKeys m.idempotencyKey (queued s.mailbox)) m)
    (hnewer : ¬OutOfDate s.mailbox m) (messages : List Message) :
    KeepsNewest s ((s.step st (.endpoint (.enqueue t pos m))).rearrange messages) m n := by
  obtain ⟨-, -, hcounted, -, -, -⟩ :=
    (s.step st (.endpoint (.enqueue t pos m))).rearrange_spec messages
  obtain ⟨hmailbox, henqueued⟩ := step_enqueue_of_joined hjoined
  refine ⟨?_, ?_, ?_, branchesAgree_of_single (h.single _ hkey)⟩
  · rw [hcounted, hmailbox, hjoined.counted]
    refine iff_of_false (Nat.succ_ne_self _) ?_
    rintro ⟨q, hq, hold⟩
    exact hnewer ⟨n, hn, q, hq, hold⟩
  · refine newest_rearrange ?_ ?_ hn le_rfl ?_ messages
    · rw [hmailbox]
      exact ofKey_joined hjoined ofKey_otherKeys
    · rw [henqueued]
      exact List.mem_append_right _ (List.mem_singleton_self m)
    · intro p hp k hk
      rw [henqueued] at hp
      obtain ⟨hpmem, hpkey⟩ := mem_ofKey.mp hp
      rcases List.mem_append.mp hpmem with hpold | hpnew
      · obtain ⟨n', hn', hle⟩ :=
          h.not_newer hkey hm.comparable hnewer (mem_ofKey.mpr ⟨hpold, hpkey⟩) hk
        rw [hn, Option.some.injEq] at hn'
        omega
      · rw [List.mem_singleton.mp hpnew, hn, Option.some.injEq] at hk
        omega
  · have hfits := hjoined.fits h.fits
    have hfast : (s.history.endpoint.enqueue st t pos m).2.mailbox.fastPath = true →
        (s.history.endpoint.enqueue st t pos m).2.mailbox.config.ordering ≠ .priority := by
      rw [hjoined.same.fastPath, hjoined.same.config]
      exact fun hpath => (h.fast hpath).2.1
    have hconfig := hjoined.same.config
    have hothers : otherKeys m.idempotencyKey
        (queued (s.history.endpoint.enqueue st t pos m).2.mailbox) =
          otherKeys m.idempotencyKey (queued s.mailbox) := by
      unfold otherKeys
      rw [hjoined.others _ (by simp), otherKeys, List.filter_filter]
      simp [mailbox]
    rw [← hmailbox] at hfits hfast hconfig hothers
    exact sameOrder_rearrange hfits hfast hconfig hothers messages

end KeepsNewest

/-- In a run whose steps are orderly every numbered overwriting message keeps the newest
message of its key. -/
theorem overwrite_keeps_newest {env : Env} {config : MailboxConfig} {mb : Mailbox}
    (hnew : Mailbox.new env config = .ok mb) (events : List KeyedQueueEvent)
    (horderly : Along (step st) (Orderly st) (start st mb) events) :
    Along (step st) (Overwrites st) (start st mb) events := by
  refine Along.of_invariant (I := fun s => Sound s.mailbox s.enqueued) ?_ horderly
    (sound_start hnew)
  intro s event h horderly
  refine ⟨?_, h.step horderly⟩
  cases event with
  | rearrange messages => trivial
  | endpoint event =>
      cases event with
      | forward => trivial
      | arrive m => trivial
      | receive => trivial
      | stop => trivial
      | shutdown => trivial
      | cleanup now => trivial
      | enqueue t pos m =>
          intro hoverwrite n hn messages
          change if m.isOverwrite then _ else _ at horderly
          rw [if_pos hoverwrite] at horderly
          have hkey : m.idempotencyKey ≠ "" := (of_decide_eq_true hoverwrite).2
          rcases enqueue_replaces h hoverwrite horderly with ⟨hsame, holder⟩ | ⟨hjoined, hnewer⟩
          · exact keepsNewest_of_untouched h hkey hn hsame holder messages
          · exact keepsNewest_of_joined h hkey hn horderly hjoined hnewer messages

end Steps

section Stack

/-- An in-memory mailbox of the order last in, first out, which has an internal queue. -/
def stackMailbox : Mailbox :=
  ⟨⟨4, 1, 3, 0, 0, 0⟩, true, false, 4, 100, false, 0, 0, 0, [], .queue [], [], false⟩

/-- A status message of the key `k` in the overwrite mode. -/
def status (id number : String) : Message :=
  ⟨id, "data", 3, "k", 1, AList.insert "sequence_number" number ∅⟩

def firstStatus : KeyedQueueEvent := .endpoint (.enqueue (.still 0) 0 (status "a" "1"))

def secondStatus : KeyedQueueEvent := .endpoint (.enqueue (.still 1) 0 (status "b" "2"))

theorem overwrite_keeps_newest_status :
    Along (step oneSlotStore) (Overwrites oneSlotStore) (start oneSlotStore stackMailbox)
      [firstStatus, secondStatus] := by
  have hnew : Mailbox.new ⟨none, none, none⟩ stackMailbox.config = .ok stackMailbox := rfl
  have hnumber : (status "b" "2").sequenceNumber = some 2 := by decide +kernel
  have hroom : RoomFor stackMailbox (status "a" "1") := ⟨by decide +kernel, nofun⟩
  have hroom' : RoomFor ((start oneSlotStore stackMailbox).step oneSlotStore firstStatus).mailbox
      (status "b" "2") := ⟨by decide +kernel, by decide +kernel⟩
  refine overwrite_keeps_newest hnew _
    ⟨⟨by decide +kernel, by decide +kernel, nofun, nofun, .inr hroom⟩,
      ⟨by decide +kernel, by decide +kernel, by decide +kernel, ?_, .inr hroom'⟩, trivial⟩
  intro q _
  unfold Message.Comparable
  rw [hnumber]
  intro _
  decide

/-- A mailbox in memory in the order of arrival, which takes the fast path. -/
def arrivalMailbox : Mailbox :=
  ⟨⟨4, 1, 1, 0, 0, 0⟩, true, true, 4, 100, false, 0, 0, 0, [], .queue [], [], false⟩

/-- On the fast path both messages of the key stay in the queue. -/
theorem not_overwrites :
    ¬∀ (σ : Type) (st : IdempotencyStore σ) (env : Env) (config : MailboxConfig) (mb : Mailbox),
      Mailbox.new env config = .ok mb → ∀ events : List KeyedQueueEvent,
        Along (step st) (Overwrites st) (start st mb) events := by
  intro h
  have hnew : Mailbox.new ⟨none, none, none⟩ arrivalMailbox.config = .ok arrivalMailbox := rfl
  have hnumber : (status "b" "2").sequenceNumber = some 2 := by decide +kernel
  have hrun := h _ oneSlotStore _ _ _ hnew [firstStatus, secondStatus]
  have hsecond := hrun.2.1 (by decide +kernel) 2 hnumber []
  obtain ⟨q, number, hone, -⟩ := hsecond.newest
  have hlength := congrArg List.length hone
  have htwo : (ofKey (status "b" "2").idempotencyKey
      (queued ((run (step oneSlotStore) (start oneSlotStore arrivalMailbox)
        [firstStatus, secondStatus]).rearrange []).mailbox)).length = 2 := by
    decide +kernel
  rw [List.length_singleton] at hlength
  exact absurd (htwo.symm.trans hlength) (by decide)

end Stack

end KeyedQueue

end PlexSpaces.Mailbox
