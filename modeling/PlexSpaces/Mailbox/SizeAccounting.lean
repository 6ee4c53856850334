import Mathlib.Algebra.Order.Ring.Nat
import PlexSpaces.Lib.Run
import PlexSpaces.Mailbox.Mailbox
/-!
# Accounting of the mailbox size

The calls of `enqueue`, the background tasks and the receiver take their steps in any order;
each operation on the counter, on a channel and on the locked queue is a step of its own.  A
call makes its message visible before it counts it, and the receiver takes a message before
it counts it off.

What holds throughout is a balance: the counter and the calls that have yet to count make up
the messages in the mailbox and those taken out that have yet to be counted off
(`Balanced`).  So the counter wraps exactly when something is counted off before enough has
been counted (`size_accounted`).  The balance itself is lost when `DropOldest` meets an empty
queue (`not_accounted`), when a message is lost or delivered twice behind the queue, and when
the persistent channel holds messages of an earlier life.
-/

namespace PlexSpaces.Mailbox

open PlexSpaces.Lib

/-- Where a call of `enqueue` for a data message is: the step that it takes next. -/
inductive CallAt
  | load (m : Message)
  | send (m : Message)
  | removeOld (m : Message)
  | subtract (removed : Nat) (stale : Bool) (m : Message)
  | acquire (m : Message)
  | held (m : Message)
  | pop (m : Message)
  | unsize (m : Message)
  | push (m : Message)
  | count
  | done
  deriving DecidableEq

/-- A mailbox with everything that is under way: the calls, the messages in the hands of the
processor, in the persistent channel and in the hands of the pump, and whether the receiver
has taken a message that it has not counted off.  `accepted`, `received` and `dropped` keep
the books. -/
structure Traffic where
  mailbox : Mailbox
  calls : List CallAt
  locked : Bool
  inHand : List Message
  processorGone : Bool
  rows : List Message
  batch : List Message
  pumpGone : Bool
  taken : Bool
  accepted : Nat
  received : Nat
  dropped : Nat
  deriving DecidableEq

inductive Action
  | enqueue (m : Message)
  | call (i : Nat) (pos : Nat)
  | drain
  | forward (outcome : SendOutcome)
  | tryReceive (count : Nat)
  | pump (acked : Bool)
  | receive
  | settle
  | stop

namespace Traffic

/-- A mailbox that has just been made, on a persistent channel with the messages `rows`. -/
def start (mb : Mailbox) (rows : List Message) : Traffic :=
  ⟨mb, [], false, [], false, rows, [], false, false, rows.length, 0, 0⟩

def setQueue (s : Traffic) (queue : MessageStorage) : Traffic :=
  { s with mailbox := { s.mailbox with internalQueue := queue } }

def setData (s : Traffic) (data : List Message) : Traffic :=
  { s with mailbox := { s.mailbox with data := data } }

def setSize (s : Traffic) (size : Nat) : Traffic :=
  { s with mailbox := { s.mailbox with dataQueueSize := size } }

def countDropped (s : Traffic) : Traffic :=
  { s with mailbox := { s.mailbox with totalDropped := s.mailbox.totalDropped + 1 } }

/-- The call `i` goes on at `c`. -/
def goOn (s : Traffic) (i : Nat) (c : CallAt) : Traffic := { s with calls := s.calls.set i c }

def full (s : Traffic) : Bool := s.mailbox.maxCapacity ≤ s.mailbox.dataQueueSize

/-- The next step of the call `i`, which is at `c`; `pos` is the random position. -/
def callStep (s : Traffic) (i pos : Nat) : CallAt → Traffic
  | .load m =>
      if s.full then
        match s.mailbox.config.backpressure with
        | .dropOldest => s.countDropped.goOn i .done
        | .dropNewest => s.countDropped.goOn i .done
        | _ => s.goOn i .done
      else s.goOn i (.send m)
  | .send m =>
      if s.mailbox.receiverDropped then s.goOn i .done
      else if max s.mailbox.maxCapacity 1 ≤ s.mailbox.data.length then s.goOn i .done
      else { (s.setData (s.mailbox.data ++ [m])).goOn i .count with accepted := s.accepted + 1 }
  | .removeOld m =>
      if s.locked then s
      else
        let (removed, stale, queue) := s.mailbox.internalQueue.overwrite m
        { (s.setQueue queue).goOn i (.subtract removed stale m) with
          locked := true
          dropped := s.dropped + removed }
  | .subtract removed stale m =>
      { (s.setSize (fetchSub s.mailbox.dataQueueSize removed)).goOn i
          (if stale then .done else .acquire m) with
        locked := false }
  | .acquire m => if s.locked then s else { s.goOn i (.held m) with locked := true }
  | .held m =>
      if s.full then
        match s.mailbox.config.backpressure with
        | .dropOldest => s.goOn i (.pop m)
        | .dropNewest => { s.countDropped.goOn i .done with locked := false }
        | _ => { s.goOn i .done with locked := false }
      else s.goOn i (.push m)
  | .pop m =>
      { ((s.setQueue s.mailbox.internalQueue.dropOldest).countDropped).goOn i (.unsize m) with
        dropped := s.dropped + min 1 s.mailbox.internalQueue.messages.length }
  | .unsize m => (s.setSize (fetchSub s.mailbox.dataQueueSize 1)).goOn i (.push m)
  | .push m =>
      { (s.setQueue (s.mailbox.internalQueue.push s.mailbox.config.ordering pos m)).goOn i
          .count with
        locked := false
        accepted := s.accepted + 1 }
  | .count =>
      { s.goOn i .done with
        mailbox :=
          { s.mailbox with
            dataQueueSize := s.mailbox.dataQueueSize + 1
            totalEnqueued := s.mailbox.totalEnqueued + 1 } }
  | .done => s

/-- Where a call begins, behind the shutdown guard and the deduplication. -/
def firstStep (mb : Mailbox) (m : Message) : CallAt :=
  if mb.fastPath then .load m else if m.isOverwrite then .removeOld m else .acquire m

def step (s : Traffic) : Action → Traffic
  | .enqueue m => { s with calls := s.calls ++ [firstStep s.mailbox m] }
  | .call i pos =>
      match s.calls[i]? with
      | none => s
      | some c => s.callStep i pos c
  | .drain =>
      if s.locked || s.processorGone || s.inHand ≠ [] then s
      else
        { s.setQueue s.mailbox.internalQueue.clear with
          inHand := s.mailbox.internalQueue.messages }
  | .forward outcome =>
      match s.inHand with
      | [] => s
      | m :: rest =>
          if s.mailbox.isInMemory then
            if s.mailbox.receiverDropped then
              { s with
                inHand := []
                processorGone := true
                dropped := s.dropped + s.inHand.length }
            else { s.setData (s.mailbox.data ++ [m]) with inHand := rest }
          else
            match outcome with
            | .stored => { s with inHand := rest, rows := s.rows ++ [m] }
            | .coalesced row =>
                { s with inHand := rest, rows := s.rows.set row m, dropped := s.dropped + 1 }
            | .failed => { s with inHand := rest, dropped := s.dropped + 1 }
            | .closed =>
                { s with
                  inHand := []
                  processorGone := true
                  dropped := s.dropped + s.inHand.length }
  | .tryReceive count =>
      if s.pumpGone || s.batch ≠ [] then s
      else { s with batch := s.rows.take (min count 32), rows := s.rows.drop (min count 32) }
  | .pump acked =>
      match s.batch with
      | [] => s
      | m :: rest =>
          if s.mailbox.receiverDropped then
            { s with batch := [], pumpGone := true, rows := s.batch ++ s.rows }
          else
            { s.setData (s.mailbox.data ++ [m]) with
              batch := rest
              rows := if acked then s.rows else m :: s.rows }
  | .receive =>
      if s.taken then s
      else
        match s.mailbox.data with
        | [] => s
        | _ :: rest => { s.setData rest with taken := true, received := s.received + 1 }
  | .settle =>
      if s.taken then
        { s.setSize (fetchSub s.mailbox.dataQueueSize 1) with taken := false }
      else s
  | .stop =>
      { s with
        mailbox := { s.mailbox with receiverDropped := true, data := [] }
        dropped := s.dropped + s.mailbox.data.length }

section Alone

variable {s : Traffic} {i pos : Nat} {c : CallAt} {m : Message}

theorem step_call (hc : s.calls[i]? = some c) : s.step (.call i pos) = s.callStep i pos c := by
  rw [step, hc]

theorem calls_set (hc : s.calls[i]? = some c) (c' : CallAt) :
    (s.calls.set i c')[i]? = some c' := by
  obtain ⟨hi, -⟩ := List.getElem?_eq_some_iff.mp hc
  exact List.getElem?_set_self hi

theorem run_done (hc : s.calls[i]? = some .done) (n : Nat) :
    run step s (List.replicate n (.call i pos)) = s := by
  induction n with
  | zero => rfl
  | succ n ih =>
      rw [List.replicate_succ, run_cons, step_call hc]
      exact ih

/-- The call `i`, with nothing in between, ends within `n` steps and leaves the mailbox `mb`. -/
def EndsWith (i pos n : Nat) (s : Traffic) (mb : Mailbox) : Prop :=
  (run step s (List.replicate n (.call i pos))).mailbox = mb

theorem endsWith_step {n : Nat} {mb : Mailbox} (hc : s.calls[i]? = some c)
    (h : EndsWith i pos n (s.callStep i pos c) mb) : EndsWith i pos (n + 1) s mb := by
  rw [EndsWith, List.replicate_succ, run_cons, step_call hc]
  exact h

theorem endsWith_done {mb : Mailbox} (hc : s.calls[i]? = some .done) (n : Nat)
    (hmailbox : s.mailbox = mb) : EndsWith i pos n s mb := by
  rw [EndsWith, run_done hc]
  exact hmailbox

theorem full_iff : s.full = true ↔ s.mailbox.maxCapacity ≤ s.mailbox.dataQueueSize :=
  decide_eq_true_iff

theorem count_alone {mb : Mailbox} (hc : s.calls[i]? = some .count) (n : Nat)
    (hmailbox : { s.mailbox with
      dataQueueSize := s.mailbox.dataQueueSize + 1
      totalEnqueued := s.mailbox.totalEnqueued + 1 } = mb) : EndsWith i pos (n + 1) s mb :=
  endsWith_step hc (endsWith_done (calls_set hc .done) n hmailbox)

theorem send_alone (hc : s.calls[i]? = some (.send m)) (n : Nat)
    (hroom : ¬s.mailbox.maxCapacity ≤ s.mailbox.dataQueueSize) :
    EndsWith i pos (n + 2) s (s.mailbox.sendFast m).2 := by
  refine endsWith_step hc ?_
  rw [Traffic.callStep, Mailbox.sendFast, if_neg hroom]
  split_ifs
  · exact endsWith_done (calls_set hc .done) (n + 1) rfl
  · exact endsWith_done (calls_set hc .done) (n + 1) rfl
  · exact count_alone (calls_set hc .count) n rfl

/-- A call of the fast path alone does what `enqueue` does behind the key. -/
theorem load_alone (hc : s.calls[i]? = some (.load m)) (n : Nat) :
    EndsWith i pos (n + 3) s (s.mailbox.sendFast m).2 := by
  refine endsWith_step hc ?_
  rw [Traffic.callStep]
  by_cases hfull : s.full = true
  · rw [if_pos hfull, Mailbox.sendFast, if_pos (full_iff.mp hfull)]
    cases s.mailbox.config.backpressure with
    | unspecified => exact endsWith_done (calls_set hc .done) (n + 2) rfl
    | error => exact endsWith_done (calls_set hc .done) (n + 2) rfl
    | dropOldest => exact endsWith_done (calls_set hc .done) (n + 2) rfl
    | dropNewest => exact endsWith_done (calls_set hc .done) (n + 2) rfl
  · rw [if_neg hfull]
    exact send_alone (calls_set hc (.send m)) n fun hle => hfull (full_iff.mpr hle)

theorem push_alone {mb : Mailbox} (hc : s.calls[i]? = some (.push m)) (n : Nat)
    (hmailbox : s.mailbox.push pos m = mb) : EndsWith i pos (n + 2) s mb :=
  endsWith_step hc (count_alone (calls_set hc .count) n hmailbox)

theorem pop_alone (hc : s.calls[i]? = some (.pop m)) (n : Nat) :
    EndsWith i pos (n + 4) s (s.mailbox.dropOldest.push pos m) := by
  refine endsWith_step hc (endsWith_step (calls_set hc (.unsize m)) ?_)
  exact push_alone (calls_set (calls_set hc (.unsize m)) (.push m)) n rfl

theorem held_alone (hc : s.calls[i]? = some (.held m)) (n : Nat) :
    EndsWith i pos (n + 5) s (s.mailbox.sendOrdered pos m).2 := by
  refine endsWith_step hc ?_
  rw [Traffic.callStep]
  by_cases hfull : s.full = true
  · rw [if_pos hfull, Mailbox.sendOrdered, if_pos (full_iff.mp hfull)]
    cases s.mailbox.config.backpressure with
    | unspecified => exact endsWith_done (calls_set hc .done) (n + 4) rfl
    | error => exact endsWith_done (calls_set hc .done) (n + 4) rfl
    | dropOldest => exact pop_alone (calls_set hc (.pop m)) n
    | dropNewest => exact endsWith_done (calls_set hc .done) (n + 4) rfl
  · rw [if_neg hfull, Mailbox.sendOrdered, if_neg fun hle => hfull (full_iff.mpr hle)]
    exact push_alone (calls_set hc (.push m)) (n + 2) rfl

theorem acquire_alone (hc : s.calls[i]? = some (.acquire m)) (hfree : s.locked = false)
    (n : Nat) : EndsWith i pos (n + 6) s (s.mailbox.sendOrdered pos m).2 := by
  refine endsWith_step hc ?_
  rw [Traffic.callStep, hfree, if_neg Bool.false_ne_true]
  exact held_alone (calls_set hc (.held m)) n

/-- A call alone does to the mailbox what `enqueue` does behind the key. -/
theorem call_alone (hfree : s.locked = false)
    (hc : s.calls[i]? = some (if s.mailbox.fastPath then .load m else .acquire m)) :
    EndsWith i pos 6 s (s.mailbox.accept pos m).2 := by
  unfold Mailbox.accept
  by_cases hfast : s.mailbox.fastPath = true
  · rw [if_pos hfast] at hc ⊢
    exact load_alone hc 3
  · rw [if_neg hfast] at hc ⊢
    exact acquire_alone hc hfree 0

end Alone

def live (s : Traffic) : Nat :=
  s.mailbox.data.length + s.mailbox.internalQueue.messages.length + s.inHand.length +
    s.rows.length + s.batch.length

end Traffic

namespace CallAt

/-- The messages that the call has made visible and not yet counted. -/
def uncounted : CallAt → Nat
  | .count => 1
  | _ => 0

/-- The messages that the call has removed and not yet counted off. -/
def owed : CallAt → Nat
  | .subtract removed _ _ => removed
  | .unsize _ => 1
  | _ => 0

end CallAt

namespace Traffic

def uncounted (s : Traffic) : Nat := (s.calls.map CallAt.uncounted).sum

def owed (s : Traffic) : Nat := (s.calls.map CallAt.owed).sum + s.taken.toNat

def subtracts (s : Traffic) : Action → Nat
  | .call i _ => (s.calls[i]?.map CallAt.owed).getD 0
  | .settle => s.taken.toNat
  | _ => 0

/-- No call is in progress, neither of `enqueue` nor of `recv`. -/
def Quiescent (s : Traffic) : Prop := (∀ c ∈ s.calls, c = .done) ∧ s.taken = false

/-- With no call in progress, the counter is the number of messages that were accepted and
neither received nor dropped. -/
def Accurate (s : Traffic) : Prop :=
  s.Quiescent → s.mailbox.dataQueueSize + s.received + s.dropped = s.accepted

/-- The step does not take the counter below zero. -/
def NoWrap (s : Traffic) (a : Action) : Prop := s.subtracts a ≤ s.mailbox.dataQueueSize

/-- What is counted off has been counted: the messages in the mailbox and those that have yet
to be counted off outnumber the calls that have yet to count. -/
def Counted (s : Traffic) (a : Action) : Prop := s.uncounted + s.subtracts a ≤ s.live + s.owed

/-- `DropOldest` finds a message in the queue, the persistent channel stores every message in
a row of its own and takes every acknowledgement, and the receiver stays. -/
def Undisturbed (s : Traffic) : Action → Prop
  | .call i _ =>
      match s.calls[i]? with
      | some (.pop _) => s.mailbox.internalQueue.messages ≠ []
      | _ => True
  | .forward outcome => s.mailbox.isInMemory = false → outcome = .stored
  | .pump acked => acked = true
  | .stop => False
  | _ => True

/-- What the steps keep. -/
structure Balanced (s : Traffic) : Prop where
  size : s.mailbox.dataQueueSize + s.uncounted = s.live + s.owed
  total : s.accepted = s.live + s.received + s.dropped
  fits : s.mailbox.Fits
  present : s.mailbox.receiverDropped = false

theorem sum_map_set {α : Type} (f : α → Nat) {l : List α} {i : Nat} {a : α} (h : l[i]? = some a)
    (b : α) : ((l.set i b).map f).sum + f a = (l.map f).sum + f b := by
  induction l generalizing i with
  | nil => simp at h
  | cons c l ih =>
      cases i with
      | zero =>
          simp only [List.getElem?_cons_zero, Option.some.injEq] at h
          subst h
          simp only [List.set_cons_zero, List.map_cons, List.sum_cons]
          omega
      | succ i =>
          have hrest := ih (i := i) (by simpa using h)
          simp only [List.set_cons_succ, List.map_cons, List.sum_cons]
          omega

section Steps

variable {s : Traffic} {i pos : Nat} {c : CallAt}

/-- A call that goes on at `c'` keeps the balance when the other changes make up for it. -/
theorem Balanced.goOn (h : s.Balanced) (hc : s.calls[i]? = some c) {s' : Traffic} {c' : CallAt}
    (hcalls : s'.calls = s.calls.set i c') (htaken : s'.taken = s.taken)
    (hsize : s'.mailbox.dataQueueSize + c'.uncounted + s.live + c.owed =
      s.mailbox.dataQueueSize + c.uncounted + s'.live + c'.owed)
    (htotal : s'.accepted + s.live + s.received + s.dropped =
      s.accepted + s'.live + s'.received + s'.dropped)
    (hfits : s'.mailbox.Fits) (hpresent : s'.mailbox.receiverDropped = false) : s'.Balanced := by
  have huncounted := sum_map_set CallAt.uncounted hc c'
  have howed := sum_map_set CallAt.owed hc c'
  have hsize₀ := h.size
  have htotal₀ := h.total
  refine ⟨?_, by omega, hfits, hpresent⟩
  simp only [Traffic.uncounted, Traffic.owed, hcalls, htaken] at hsize₀ ⊢
  omega

/-- A call that only moves on, perhaps with the lock or the count of dropped messages. -/
theorem Balanced.moveOn (h : s.Balanced) (hc : s.calls[i]? = some c) {c' : CallAt}
    {locked : Bool} {totalDropped : Nat}
    (hweight : c'.uncounted = c.uncounted ∧ c'.owed = c.owed) :
    ({ s with
      calls := s.calls.set i c'
      locked := locked
      mailbox := { s.mailbox with totalDropped := totalDropped } } : Traffic).Balanced := by
  obtain ⟨huncounted, howed⟩ := hweight
  refine h.goOn hc rfl rfl ?_ rfl h.fits h.present
  simp only [Traffic.live]
  omega

theorem Balanced.load (h : s.Balanced) {m : Message} (hc : s.calls[i]? = some (.load m)) :
    (s.callStep i pos (.load m)).Balanced := by
  rw [Traffic.callStep]
  split_ifs
  · split
    · exact h.moveOn hc ⟨rfl, rfl⟩
    · exact h.moveOn hc ⟨rfl, rfl⟩
    · exact h.moveOn hc ⟨rfl, rfl⟩
  · exact h.moveOn hc ⟨rfl, rfl⟩

theorem Balanced.send (h : s.Balanced) {m : Message} (hc : s.calls[i]? = some (.send m)) :
    (s.callStep i pos (.send m)).Balanced := by
  rw [Traffic.callStep]
  split_ifs
  · exact h.moveOn hc ⟨rfl, rfl⟩
  · exact h.moveOn hc ⟨rfl, rfl⟩
  · refine h.goOn hc rfl rfl ?_ ?_ h.fits h.present
    · simp only [Traffic.live, Traffic.setData, Traffic.goOn, CallAt.uncounted, CallAt.owed,
        List.length_append, List.length_singleton]
      omega
    · simp only [Traffic.live, Traffic.setData, Traffic.goOn, List.length_append,
        List.length_singleton]
      omega

theorem Balanced.removeOld (h : s.Balanced) {m : Message}
    (hc : s.calls[i]? = some (.removeOld m)) : (s.callStep i pos (.removeOld m)).Balanced := by
  have hremoved := MessageStorage.removed_overwrite s.mailbox.internalQueue m
  have hfits := MessageStorage.fits_overwrite h.fits m
  rw [Traffic.callStep]
  rcases hresult : s.mailbox.internalQueue.overwrite m with ⟨removed, stale, queue⟩
  rw [hresult] at hremoved hfits
  dsimp only at hremoved ⊢
  split_ifs
  · exact h
  · refine h.goOn hc rfl rfl ?_ ?_ hfits h.present
    · simp only [Traffic.live, Traffic.setQueue, Traffic.goOn, CallAt.uncounted, CallAt.owed]
      omega
    · simp only [Traffic.live, Traffic.setQueue, Traffic.goOn]
      omega

theorem Balanced.subtract (h : s.Balanced) {removed : Nat} {stale : Bool} {m : Message}
    (hc : s.calls[i]? = some (.subtract removed stale m))
    (hcounted : removed ≤ s.mailbox.dataQueueSize) :
    (s.callStep i pos (.subtract removed stale m)).Balanced := by
  have hsub : fetchSub s.mailbox.dataQueueSize removed = s.mailbox.dataQueueSize - removed :=
    if_pos hcounted
  have hnext : (if stale then CallAt.done else .acquire m).uncounted = 0 ∧
      (if stale then CallAt.done else .acquire m).owed = 0 := by
    cases stale with
    | true => exact ⟨rfl, rfl⟩
    | false => exact ⟨rfl, rfl⟩
  rw [Traffic.callStep]
  refine h.goOn hc rfl rfl ?_ rfl h.fits h.present
  rw [hnext.1, hnext.2]
  simp only [Traffic.live, Traffic.setSize, Traffic.goOn, CallAt.uncounted, CallAt.owed, hsub]
  omega

theorem Balanced.acquire (h : s.Balanced) {m : Message} (hc : s.calls[i]? = some (.acquire m)) :
    (s.callStep i pos (.acquire m)).Balanced := by
  rw [Traffic.callStep]
  split_ifs
  · exact h
  · exact h.moveOn hc ⟨rfl, rfl⟩

theorem Balanced.held (h : s.Balanced) {m : Message} (hc : s.calls[i]? = some (.held m)) :
    (s.callStep i pos (.held m)).Balanced := by
  rw [Traffic.callStep]
  split_ifs
  · split
    · exact h.moveOn hc ⟨rfl, rfl⟩
    · exact h.moveOn hc ⟨rfl, rfl⟩
    · exact h.moveOn hc ⟨rfl, rfl⟩
  · exact h.moveOn hc ⟨rfl, rfl⟩

theorem Balanced.pop (h : s.Balanced) {m : Message} (hc : s.calls[i]? = some (.pop m))
    (hqueue : s.mailbox.internalQueue.messages ≠ []) :
    (s.callStep i pos (.pop m)).Balanced := by
  have hlength := List.length_pos_iff.mpr hqueue
  rw [Traffic.callStep]
  refine h.goOn hc rfl rfl ?_ ?_ (MessageStorage.fits_dropOldest h.fits) h.present
  · simp only [Traffic.live, Traffic.setQueue, Traffic.countDropped, Traffic.goOn,
      CallAt.uncounted, CallAt.owed, MessageStorage.messages_dropOldest, List.length_tail]
    omega
  · simp only [Traffic.live, Traffic.setQueue, Traffic.countDropped, Traffic.goOn,
      MessageStorage.messages_dropOldest, List.length_tail]
    omega

theorem Balanced.unsize (h : s.Balanced) {m : Message} (hc : s.calls[i]? = some (.unsize m))
    (hcounted : 1 ≤ s.mailbox.dataQueueSize) : (s.callStep i pos (.unsize m)).Balanced := by
  have hsub : fetchSub s.mailbox.dataQueueSize 1 = s.mailbox.dataQueueSize - 1 :=
    if_pos hcounted
  rw [Traffic.callStep]
  refine h.goOn hc rfl rfl ?_ rfl h.fits h.present
  simp only [Traffic.live, Traffic.setSize, Traffic.goOn, CallAt.uncounted, CallAt.owed, hsub]
  omega

theorem Balanced.push (h : s.Balanced) {m : Message} (hc : s.calls[i]? = some (.push m)) :
    (s.callStep i pos (.push m)).Balanced := by
  have hlength : (s.mailbox.internalQueue.push s.mailbox.config.ordering pos m).messages.length =
      s.mailbox.internalQueue.messages.length + 1 :=
    (MessageStorage.push_perm h.fits pos m).length_eq
  rw [Traffic.callStep]
  refine h.goOn hc rfl rfl ?_ ?_ (MessageStorage.fits_push h.fits pos m) h.present
  · simp only [Traffic.live, Traffic.setQueue, Traffic.goOn, CallAt.uncounted, CallAt.owed,
      hlength]
    omega
  · simp only [Traffic.live, Traffic.setQueue, Traffic.goOn, hlength]
    omega

theorem Balanced.count (h : s.Balanced) (hc : s.calls[i]? = some .count) :
    (s.callStep i pos .count).Balanced := by
  rw [Traffic.callStep]
  refine h.goOn hc rfl rfl ?_ rfl h.fits h.present
  simp only [Traffic.live, Traffic.goOn, CallAt.uncounted, CallAt.owed]

theorem Balanced.callStep (h : s.Balanced) (hc : s.calls[i]? = some c)
    (hcounted : c.owed ≤ s.mailbox.dataQueueSize)
    (hpop : ∀ m, c = .pop m → s.mailbox.internalQueue.messages ≠ []) :
    (s.callStep i pos c).Balanced := by
  cases c with
  | load m => exact h.load hc
  | send m => exact h.send hc
  | removeOld m => exact h.removeOld hc
  | subtract removed stale m => exact h.subtract hc hcounted
  | acquire m => exact h.acquire hc
  | held m => exact h.held hc
  | pop m => exact h.pop hc (hpop m rfl)
  | unsize m => exact h.unsize hc hcounted
  | push m => exact h.push hc
  | count => exact h.count hc
  | done => exact h

/-- A step of the background tasks or the receiver keeps the balance when its changes make up
for each other. -/
theorem Balanced.carry (h : s.Balanced) {s' : Traffic} (hcalls : s'.calls = s.calls)
    (hsize : s'.mailbox.dataQueueSize + s.live + s.taken.toNat =
      s.mailbox.dataQueueSize + s'.live + s'.taken.toNat)
    (htotal : s'.accepted + s.live + s.received + s.dropped =
      s.accepted + s'.live + s'.received + s'.dropped)
    (hfits : s'.mailbox.Fits) (hpresent : s'.mailbox.receiverDropped = false) : s'.Balanced := by
  have hsize₀ := h.size
  have htotal₀ := h.total
  refine ⟨?_, by omega, hfits, hpresent⟩
  simp only [Traffic.uncounted, Traffic.owed, hcalls] at hsize₀ ⊢
  omega

theorem Balanced.enqueue (h : s.Balanced) (m : Message) : (s.step (.enqueue m)).Balanced := by
  have hfirst : (firstStep s.mailbox m).uncounted = 0 ∧ (firstStep s.mailbox m).owed = 0 := by
    unfold firstStep
    split_ifs
    · exact ⟨rfl, rfl⟩
    · exact ⟨rfl, rfl⟩
    · exact ⟨rfl, rfl⟩
  refine ⟨?_, h.total, h.fits, h.present⟩
  have hsize := h.size
  simp only [Traffic.step, Traffic.uncounted, Traffic.owed, Traffic.live, List.map_append,
    List.map_singleton, List.sum_append, List.sum_singleton, hfirst.1, hfirst.2] at hsize ⊢
  omega

theorem Balanced.drain (h : s.Balanced) : (s.step .drain).Balanced := by
  rw [Traffic.step]
  split_ifs with hbusy
  · exact h
  · have hinHand : s.inHand = [] := by
      by_contra hne
      simp [hne] at hbusy
    refine h.carry rfl ?_ ?_ (MessageStorage.fits_clear h.fits) h.present
    · simp only [Traffic.live, Traffic.setQueue, MessageStorage.messages_clear, hinHand,
        List.length_nil]
      omega
    · simp only [Traffic.live, Traffic.setQueue, MessageStorage.messages_clear, hinHand,
        List.length_nil]
      omega

theorem Balanced.forward (h : s.Balanced) {outcome : SendOutcome}
    (hstored : s.mailbox.isInMemory = false → outcome = .stored) :
    (s.step (.forward outcome)).Balanced := by
  rw [Traffic.step]
  cases hinHand : s.inHand with
  | nil => exact h
  | cons m rest =>
      dsimp only
      by_cases hmemory : s.mailbox.isInMemory = true
      · rw [if_pos hmemory, h.present, if_neg Bool.false_ne_true]
        refine h.carry rfl ?_ ?_ h.fits h.present
        · simp only [Traffic.live, Traffic.setData, hinHand, List.length_append,
            List.length_cons, List.length_nil]
          omega
        · simp only [Traffic.live, Traffic.setData, hinHand, List.length_append,
            List.length_cons, List.length_nil]
          omega
      · rw [if_neg hmemory, hstored (by simpa using hmemory)]
        refine h.carry rfl ?_ ?_ h.fits h.present
        · simp only [Traffic.live, hinHand, List.length_append, List.length_cons,
            List.length_nil]
          omega
        · simp only [Traffic.live, hinHand, List.length_append, List.length_cons,
            List.length_nil]
          omega

theorem Balanced.tryReceive (h : s.Balanced) (count : Nat) :
    (s.step (.tryReceive count)).Balanced := by
  rw [Traffic.step]
  split_ifs with hbusy
  · exact h
  · have hbatch : s.batch = [] := by
      by_contra hne
      simp [hne] at hbusy
    refine h.carry rfl ?_ ?_ h.fits h.present
    · simp only [Traffic.live, hbatch, List.length_nil, List.length_take, List.length_drop]
      omega
    · simp only [Traffic.live, hbatch, List.length_nil, List.length_take, List.length_drop]
      omega

theorem Balanced.pump (h : s.Balanced) : (s.step (.pump true)).Balanced := by
  rw [Traffic.step]
  cases hbatch : s.batch with
  | nil => exact h
  | cons m rest =>
      dsimp only
      rw [h.present, if_neg Bool.false_ne_true]
      refine h.carry rfl ?_ ?_ h.fits h.present
      · simp only [Traffic.live, Traffic.setData, hbatch, List.length_append, List.length_cons,
          List.length_nil, if_true]
        omega
      · simp only [Traffic.live, Traffic.setData, hbatch, List.length_append, List.length_cons,
          List.length_nil, if_true]
        omega

theorem Balanced.receive (h : s.Balanced) : (s.step .receive).Balanced := by
  rw [Traffic.step]
  cases htaken : s.taken with
  | true => exact h
  | false =>
      cases hdata : s.mailbox.data with
      | nil => exact h
      | cons m rest =>
          refine h.carry rfl ?_ ?_ h.fits h.present
          · simp [Traffic.live, Traffic.setData, hdata, htaken]
            omega
          · simp [Traffic.live, Traffic.setData, hdata]
            omega

theorem Balanced.settle (h : s.Balanced) (hcounted : s.NoWrap .settle) :
    (s.step .settle).Balanced := by
  rw [Traffic.step]
  cases htaken : s.taken with
  | false => exact h
  | true =>
      have hpositive : 1 ≤ s.mailbox.dataQueueSize := by
        simpa [Traffic.NoWrap, Traffic.subtracts, htaken] using hcounted
      have hsub : fetchSub s.mailbox.dataQueueSize 1 = s.mailbox.dataQueueSize - 1 :=
        if_pos hpositive
      refine h.carry rfl ?_ rfl h.fits h.present
      simp [Traffic.live, Traffic.setSize, htaken, hsub]
      omega

/-- The counter is counted off as far as messages have been counted. -/
theorem Balanced.noWrap_iff_counted (h : s.Balanced) (a : Action) : s.NoWrap a ↔ s.Counted a := by
  have hsize := h.size
  unfold Traffic.NoWrap Traffic.Counted
  omega

theorem Balanced.step (h : s.Balanced) {a : Action} (hquiet : s.Undisturbed a)
    (hcounted : s.NoWrap a) : (s.step a).Balanced := by
  cases a with
  | enqueue m => exact h.enqueue m
  | call i pos =>
      rw [Traffic.step]
      cases hc : s.calls[i]? with
      | none => exact h
      | some c =>
          refine h.callStep hc ?_ ?_
          · simpa [Traffic.NoWrap, Traffic.subtracts, hc] using hcounted
          · rintro m rfl
            rw [Traffic.Undisturbed, hc] at hquiet
            exact hquiet
  | drain => exact h.drain
  | forward outcome => exact h.forward hquiet
  | tryReceive count => exact h.tryReceive count
  | pump acked =>
      cases acked with
      | true => exact h.pump
      | false => cases hquiet
  | receive => exact h.receive
  | settle => exact h.settle hcounted
  | stop => exact absurd hquiet id

theorem Balanced.accurate (h : s.Balanced) : s.Accurate := by
  rintro ⟨hdone, htaken⟩
  have hsum : ∀ f : CallAt → Nat, f .done = 0 → (s.calls.map f).sum = 0 := by
    intro f hf
    rw [List.sum_eq_zero]
    intro n hn
    obtain ⟨c, hc, rfl⟩ := List.mem_map.mp hn
    rw [hdone c hc, hf]
  have hsize := h.size
  have htotal := h.total
  simp only [Traffic.uncounted, Traffic.owed, htaken, hsum CallAt.uncounted rfl,
    hsum CallAt.owed rfl, Bool.toNat_false] at hsize
  omega

theorem balanced_start {mb : Mailbox} {env : Env} {config : MailboxConfig}
    (h : Mailbox.new env config = .ok mb) : (start mb []).Balanced := by
  obtain ⟨hfits, hsize, hqueue, hdata, hpresent⟩ := new_spec h
  refine ⟨?_, ?_, hfits, hpresent⟩
  · simp [start, Traffic.uncounted, Traffic.owed, Traffic.live, hsize, hqueue, hdata]
  · simp [start, Traffic.live, hqueue, hdata]

end Steps

/-- In every run that nothing disturbs, the counter wraps exactly where something is counted
off before enough has been counted; where that does not happen, it is accurate whenever no
call is in progress. -/
theorem size_accounted {env : Env} {config : MailboxConfig} {mb : Mailbox}
    (hnew : Mailbox.new env config = .ok mb) (as : List Action)
    (hquiet : Along step Undisturbed (start mb []) as) :
    (Along step NoWrap (start mb []) as ↔ Along step Counted (start mb []) as) ∧
      (Along step Counted (start mb []) as → (run step (start mb []) as).Accurate) := by
  have hstart := balanced_start hnew
  have hagree : Along step (fun s a => s.Undisturbed a ∧ s.NoWrap a) (start mb []) as ↔
      Along step (fun s a => s.Undisturbed a ∧ s.Counted a) (start mb []) as :=
    along_congr (fun s a hs => and_congr_right fun _ => hs.noWrap_iff_counted a)
      (fun s a hs hgood => hs.step hgood.1 hgood.2) hstart as
  rw [along_and, along_and] at hagree
  have hiff : Along step NoWrap (start mb []) as ↔ Along step Counted (start mb []) as :=
    ⟨fun h => (hagree.mp ⟨hquiet, h⟩).2, fun h => (hagree.mpr ⟨hquiet, h⟩).2⟩
  refine ⟨hiff, ?_⟩
  intro hcounted
  have hgood := along_and.mpr ⟨hquiet, hiff.mpr hcounted⟩
  exact (hgood.invariant (fun s a hs hgood => hs.step hgood.1 hgood.2) hstart).accurate

section Runs

instance (s : Traffic) (a : Action) : Decidable (s.NoWrap a) :=
  inferInstanceAs (Decidable (_ ≤ _))

instance (s : Traffic) (a : Action) : Decidable (s.Counted a) :=
  inferInstanceAs (Decidable (_ ≤ _))

instance (s : Traffic) : Decidable s.Accurate :=
  inferInstanceAs (Decidable (((∀ c ∈ s.calls, c = .done) ∧ s.taken = false) → _))

def plain (id : String) : Message := ⟨id, "data", 3, "", 0, ∅⟩

def fifoMailbox : Mailbox :=
  ⟨⟨0, 1, 1, 0, 10, 0⟩, true, true, 10, 100, false, 0, 0, 0, [], .queue [], [], false⟩

/-- Last in, first out, with room for one message; a full mailbox drops the oldest. -/
def lifoMailbox : Mailbox :=
  ⟨⟨0, 2, 3, 0, 1, 0⟩, true, false, 1, 100, false, 0, 0, 0, [], .queue [], [], false⟩

/-- A message is sent, received and counted off before the call counts it. -/
def overtaken : List Action := [.enqueue (plain "1"), .call 0 0, .call 0 0, .receive, .settle]

/-- The second message comes when the first has left the queue for the channel. -/
def droppedOutOfEmpty : List Action :=
  [.enqueue (plain "1"), .call 0 0, .call 0 0, .call 0 0, .call 0 0, .drain, .forward .stored,
    .enqueue (plain "2"), .call 1 0, .call 1 0, .call 1 0, .call 1 0, .call 1 0, .call 1 0]

/-- The second call comes between the sections of the first, and the first message is received
before the second call has ended. -/
def inTurn : List Action :=
  [.enqueue (plain "1"), .call 0 0, .enqueue (plain "2"), .call 1 0, .call 0 0, .call 0 0,
    .call 1 0, .receive, .call 1 0, .settle, .receive, .settle]

theorem size_accounted_inTurn :
    Along step NoWrap (start fifoMailbox []) inTurn ∧
      (run step (start fifoMailbox []) inTurn).Accurate := by
  have hnew : Mailbox.new ⟨none, none, none⟩ ⟨0, 1, 1, 0, 10, 0⟩ = .ok fifoMailbox := rfl
  have hquiet : Along step Undisturbed (start fifoMailbox []) inTurn :=
    ⟨trivial, trivial, trivial, trivial, trivial, trivial, trivial, trivial, trivial, trivial,
      trivial, trivial, trivial⟩
  have hcounted : Along step Counted (start fifoMailbox []) inTurn := by decide +kernel
  have hsize := size_accounted hnew inTurn hquiet
  exact ⟨hsize.1.mpr hcounted, hsize.2 hcounted⟩

/-- The counter wraps when a call is overtaken; and after `DropOldest` on an empty queue it is
one short of the messages in the mailbox. -/
theorem not_accounted :
    ¬Along step NoWrap (start fifoMailbox []) overtaken ∧
      ¬(run step (start lifoMailbox []) droppedOutOfEmpty).Accurate := by
  decide +kernel

end Runs

end Traffic

end PlexSpaces.Mailbox
