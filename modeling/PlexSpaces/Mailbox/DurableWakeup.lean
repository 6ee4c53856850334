import PlexSpaces.Lib.Notify
import PlexSpaces.Lib.Run
import PlexSpaces.Mailbox.Mailbox
/-!
# Wake-ups of the durable mailbox

A durable mailbox has two tasks.  The enqueue processor takes the internal queue to the
persistent channel, and the pump takes the channel to the actor.  Both wait on one `Notify`,
which only `enqueue` notifies: the processor sends to the channel without a word to the pump,
and the pump may use up a wake-up that the processor needs.

So one message to an idle mailbox is stuck (`not_always_woken`).  A message keeps a wake-up
as long as the pump uses up none that the processor needs, and the processor does not fall
asleep over messages that the pump has not seen; where one of these happens, the tasks by
themselves come to a lost wake-up (`wakeups_kept`).
-/

namespace PlexSpaces.Mailbox

open PlexSpaces.Lib

inductive Task
  | processor
  | pump
  deriving DecidableEq

inductive ProcessorAt
  | check
  | await
  | waiting
  | drain
  | send (messages : List Message)
  | gone
  deriving DecidableEq

inductive PumpAt
  | receive
  | await
  | waiting
  | forward (messages : List Message)
  | gone
  deriving DecidableEq

/-- What the pump hears from the channel it receives from and acknowledges to, or that the
actor has stopped. -/
inductive PumpInput
  | ok (count : Nat)
  | failed
  | closed
  deriving DecidableEq

/-- A durable mailbox with its tasks and the number of calls that have pushed a message and
are still to notify. -/
structure DurableMailbox where
  queue : MessageStorage
  channel : List Message
  delivered : List Message
  notify : Notify Task
  processor : ProcessorAt
  pump : PumpAt
  unnotified : Nat
  deriving DecidableEq

inductive DurableStep
  | overwrite (m : Message)
  | dropOldest
  | push (ordering : OrderingStrategy) (pos : Nat) (m : Message)
  | notifyOne
  | processor (outcome : SendOutcome)
  | pump (input : PumpInput)

namespace DurableMailbox

/-- Both tasks are at the top of their loops; the channel may have messages already. -/
def start (queue : MessageStorage) (channel : List Message) : DurableMailbox :=
  ⟨queue, channel, [], .new, .check, .receive, 0⟩

def wake (s : DurableMailbox) : Option Task → DurableMailbox
  | some .processor => { s with processor := .drain }
  | some .pump => { s with pump := .receive }
  | none => s

def processorStep (s : DurableMailbox) (outcome : SendOutcome) : DurableMailbox :=
  match s.processor with
  | .check => { s with processor := if s.queue.messages = [] then .await else .drain }
  | .await =>
      let (goesOn, notify) := s.notify.await .processor
      { s with notify := notify, processor := if goesOn then .drain else .waiting }
  | .waiting => s
  | .drain => { s with queue := s.queue.clear, processor := .send s.queue.messages }
  | .send [] => { s with processor := .check }
  | .send (m :: rest) =>
      match outcome with
      | .stored => { s with channel := s.channel ++ [m], processor := .send rest }
      | .coalesced row => { s with channel := s.channel.set row m, processor := .send rest }
      | .failed => { s with processor := .send rest }
      | .closed => { s with processor := .gone }
  | .gone => s

/-- `try_receive` hands out up to 32 messages, and none only from an empty channel.  After an
error the pump sleeps and tries again; without its acknowledgement a message stays in the
channel. -/
def pumpStep (s : DurableMailbox) (input : PumpInput) : DurableMailbox :=
  match s.pump with
  | .receive =>
      match input with
      | .ok count =>
          if s.channel = [] then { s with pump := .await }
          else
            let n := max 1 (min count 32)
            { s with pump := .forward (s.channel.take n), channel := s.channel.drop n }
      | .failed => s
      | .closed => { s with pump := .gone }
  | .await =>
      let (goesOn, notify) := s.notify.await .pump
      { s with notify := notify, pump := if goesOn then .receive else .waiting }
  | .waiting => s
  | .forward [] => { s with pump := .receive }
  | .forward (m :: rest) =>
      match input with
      | .ok _ => { s with delivered := s.delivered ++ [m], pump := .forward rest }
      | .failed =>
          { s with
            delivered := s.delivered ++ [m]
            channel := m :: s.channel
            pump := .forward rest }
      | .closed => { s with channel := m :: rest ++ s.channel, pump := .gone }
  | .gone => s

def step (s : DurableMailbox) : DurableStep → DurableMailbox
  | .overwrite m => { s with queue := (s.queue.overwrite m).2.2 }
  | .dropOldest => { s with queue := s.queue.dropOldest }
  | .push ordering pos m =>
      { s with queue := s.queue.push ordering pos m, unnotified := s.unnotified + 1 }
  | .notifyOne =>
      if s.unnotified = 0 then s
      else
        let (woken, notify) := s.notify.notifyOne
        ({ s with notify := notify, unnotified := s.unnotified - 1 } : DurableMailbox).wake woken
  | .processor outcome => s.processorStep outcome
  | .pump input => s.pumpStep input

/-- Both tasks wait, with no permit stored and no `notify_one` to come, and there is a message
in the queue or in the channel. -/
structure Lost (s : DurableMailbox) : Prop where
  processor : s.processor = .waiting
  pump : s.pump = .waiting
  permit : ¬s.notify.HasPermit
  notified : s.unnotified = 0
  undelivered : s.queue.messages ≠ [] ∨ s.channel ≠ []

/-- The processor sleeps or is about to, with a message in the queue. -/
def ProcessorNeeded (s : DurableMailbox) : Prop :=
  s.queue.messages ≠ [] ∧ (s.processor = .await ∨ s.processor = .waiting)

/-- The pump sleeps or is about to, with a message in the channel. -/
def PumpNeeded (s : DurableMailbox) : Prop :=
  s.channel ≠ [] ∧ (s.pump = .await ∨ s.pump = .waiting)

/-- The pump uses up a wake-up only when the processor does not need it or another one is to
come, and the processor falls asleep only when the pump is not needed or a wake-up is to
come. -/
def Attentive (s : DurableMailbox) : DurableStep → Prop
  | .notifyOne =>
      1 ≤ s.unnotified → s.notify.notifyOne.1 = some .pump → s.ProcessorNeeded →
        2 ≤ s.unnotified
  | .processor _ =>
      s.processor = .await → ¬s.notify.HasPermit → s.PumpNeeded → 1 ≤ s.unnotified
  | .pump _ => s.pump = .await → s.notify.HasPermit → s.ProcessorNeeded → 1 ≤ s.unnotified
  | _ => True

/-- Whoever is needed has a wake-up coming; or, for the pump, the processor has not fallen
asleep yet. -/
structure Awaited (s : DurableMailbox) : Prop where
  processor : s.ProcessorNeeded → s.notify.HasPermit ∨ 1 ≤ s.unnotified
  pump : s.PumpNeeded → s.notify.HasPermit ∨ 1 ≤ s.unnotified ∨ s.processor ≠ .waiting

theorem Awaited.not_lost {s : DurableMailbox} (h : s.Awaited) : ¬s.Lost := by
  intro hlost
  have hnotified := hlost.notified
  rcases hlost.undelivered with hqueue | hchannel
  · rcases h.processor ⟨hqueue, .inr hlost.processor⟩ with hpermit | hcoming
    · exact hlost.permit hpermit
    · omega
  · rcases h.pump ⟨hchannel, .inr hlost.pump⟩ with hpermit | hcoming | hawake
    · exact hlost.permit hpermit
    · omega
    · exact hawake hlost.processor

section Steps

variable {s : DurableMailbox}

/-- The processor needs no wake-up while it is awake, and comes by the pump. -/
theorem awaited_of_processor (hawait : s.processor ≠ .await) (hwaiting : s.processor ≠ .waiting) :
    s.Awaited := by
  refine ⟨?_, fun _ => .inr (.inr hwaiting)⟩
  rintro ⟨-, hat | hat⟩
  · exact absurd hat hawait
  · exact absurd hat hwaiting

theorem awaited_of_pump (hprocessor : s.ProcessorNeeded → s.notify.HasPermit ∨ 1 ≤ s.unnotified)
    (hawait : s.pump ≠ .await) (hwaiting : s.pump ≠ .waiting) : s.Awaited := by
  refine ⟨hprocessor, ?_⟩
  rintro ⟨-, hat | hat⟩
  · exact absurd hat hawait
  · exact absurd hat hwaiting

theorem awaited_start (queue : MessageStorage) (channel : List Message) :
    (start queue channel).Awaited :=
  awaited_of_processor (by simp [start]) (by simp [start])

theorem Awaited.shrink (h : s.Awaited) {queue : MessageStorage}
    (hqueue : s.queue.messages = [] → queue.messages = []) :
    ({ s with queue := queue } : DurableMailbox).Awaited := by
  refine ⟨?_, h.pump⟩
  rintro ⟨hne, hasleep⟩
  exact h.processor ⟨fun hnil => hne (hqueue hnil), hasleep⟩

theorem Awaited.notifyOne (h : s.Awaited) (ha : s.Attentive .notifyOne) :
    (s.step .notifyOne).Awaited := by
  rw [DurableMailbox.step]
  by_cases hnone : s.unnotified = 0
  · rw [if_pos hnone]
    exact h
  · rw [if_neg hnone]
    rcases Notify.notifyOne_cases s.notify with ⟨t, tasks, hnotify⟩ | hnotify
    · rw [hnotify]
      cases t with
      | processor => exact awaited_of_processor (by simp [wake]) (by simp [wake])
      | pump =>
          refine awaited_of_pump ?_ (by simp [wake]) (by simp [wake])
          intro hneeded
          have htwo : 2 ≤ s.unnotified := ha (by omega) (by rw [hnotify]) hneeded
          right
          change 1 ≤ s.unnotified - 1
          omega
    · rw [hnotify]
      exact ⟨fun _ => .inl rfl, fun _ => .inl rfl⟩

theorem Awaited.processorStep (h : s.Awaited) (outcome : SendOutcome)
    (ha : s.Attentive (.processor outcome)) : (s.processorStep outcome).Awaited := by
  unfold DurableMailbox.processorStep
  cases hat : s.processor with
  | check =>
      dsimp only
      by_cases hqueue : s.queue.messages = []
      · rw [if_pos hqueue]
        refine ⟨fun hneeded => absurd hqueue hneeded.1, fun _ => .inr (.inr ?_)⟩
        intro hwaiting
        cases hwaiting
      · rw [if_neg hqueue]
        exact awaited_of_processor (by simp) (by simp)
  | await =>
      dsimp only
      by_cases hpermit : s.notify.HasPermit
      · rw [Notify.await_of_permit hpermit]
        exact awaited_of_processor (by simp) (by simp)
      · obtain ⟨tasks, hnotify⟩ := Notify.await_of_not_permit hpermit .processor
        rw [hnotify]
        refine ⟨?_, ?_⟩
        · rintro ⟨hqueue, -⟩
          exact .inr ((h.processor ⟨hqueue, .inl hat⟩).resolve_left hpermit)
        · intro hneeded
          exact .inr (.inl (ha hat hpermit hneeded))
  | waiting => exact h
  | drain => exact awaited_of_processor (by simp) (by simp)
  | send messages =>
      cases messages with
      | nil => exact awaited_of_processor (by simp) (by simp)
      | cons m rest =>
          cases outcome with
          | stored => exact awaited_of_processor (by simp) (by simp)
          | coalesced row => exact awaited_of_processor (by simp) (by simp)
          | failed => exact awaited_of_processor (by simp) (by simp)
          | closed => exact awaited_of_processor (by simp) (by simp)
  | gone => exact h

theorem Awaited.pumpStep (h : s.Awaited) (input : PumpInput) (ha : s.Attentive (.pump input)) :
    (s.pumpStep input).Awaited := by
  unfold DurableMailbox.pumpStep
  cases hat : s.pump with
  | receive =>
      cases input with
      | ok count =>
          dsimp only
          by_cases hchannel : s.channel = []
          · rw [if_pos hchannel]
            exact ⟨h.processor, fun hneeded => absurd hchannel hneeded.1⟩
          · rw [if_neg hchannel]
            exact awaited_of_pump h.processor (by simp) (by simp)
      | failed => exact h
      | closed => exact awaited_of_pump h.processor (by simp) (by simp)
  | await =>
      dsimp only
      by_cases hpermit : s.notify.HasPermit
      · rw [Notify.await_of_permit hpermit]
        exact awaited_of_pump (fun hneeded => .inr (ha hat hpermit hneeded)) (by simp) (by simp)
      · obtain ⟨tasks, hnotify⟩ := Notify.await_of_not_permit hpermit .pump
        rw [hnotify]
        refine ⟨?_, ?_⟩
        · intro hneeded
          exact .inr ((h.processor hneeded).resolve_left hpermit)
        · rintro ⟨hchannel, -⟩
          exact .inr ((h.pump ⟨hchannel, .inl hat⟩).resolve_left hpermit)
  | waiting => exact h
  | forward messages =>
      cases messages with
      | nil => exact awaited_of_pump h.processor (by simp) (by simp)
      | cons m rest =>
          cases input with
          | ok count => exact awaited_of_pump h.processor (by simp) (by simp)
          | failed => exact awaited_of_pump h.processor (by simp) (by simp)
          | closed => exact awaited_of_pump h.processor (by simp) (by simp)
  | gone => exact h

theorem Awaited.step (h : s.Awaited) {a : DurableStep} (ha : s.Attentive a) :
    (s.step a).Awaited := by
  cases a with
  | overwrite m =>
      refine h.shrink ?_
      intro hnil
      rw [MessageStorage.messages_overwrite, hnil, List.filter_nil]
  | dropOldest =>
      refine h.shrink ?_
      intro hnil
      rw [MessageStorage.messages_dropOldest, hnil, List.tail_nil]
  | push ordering pos m =>
      exact ⟨fun _ => .inr (Nat.le_add_left _ _), fun _ => .inr (.inl (Nat.le_add_left _ _))⟩
  | notifyOne => exact h.notifyOne ha
  | processor outcome => exact h.processorStep outcome ha
  | pump input => exact h.pumpStep input ha

end Steps

def TaskStep : DurableStep → Prop
  | .processor _ => True
  | .pump _ => True
  | _ => False

section Stuck

variable {s : DurableMailbox}

theorem lost_of_asleep (hprocessor : s.processor = .await ∨ s.processor = .waiting)
    (hpump : s.pump = .await ∨ s.pump = .waiting) (hpermit : ¬s.notify.HasPermit)
    (hnotified : s.unnotified = 0) (hleft : s.queue.messages ≠ [] ∨ s.channel ≠ []) :
    CanReach step TaskStep Lost s := by
  have hpumpAsleep : ∀ s : DurableMailbox, s.processor = .waiting →
      s.pump = .await ∨ s.pump = .waiting → ¬s.notify.HasPermit → s.unnotified = 0 →
      (s.queue.messages ≠ [] ∨ s.channel ≠ []) → CanReach step TaskStep Lost s := by
    intro s hprocessor hpump hpermit hnotified hleft
    rcases hpump with hawait | hwaiting
    · obtain ⟨tasks, hnotify⟩ := Notify.await_of_not_permit hpermit .pump
      have hstep : s.step (.pump .failed) =
          { s with notify := .waiting tasks, pump := .waiting } := by
        simp [step, pumpStep, hawait, hnotify]
      refine CanReach.head (a := .pump .failed) trivial (CanReach.refl ?_)
      rw [hstep]
      exact ⟨hprocessor, rfl, Notify.not_hasPermit_waiting tasks, hnotified, hleft⟩
    · exact CanReach.refl ⟨hprocessor, hwaiting, hpermit, hnotified, hleft⟩
  rcases hprocessor with hawait | hwaiting
  · obtain ⟨tasks, hnotify⟩ := Notify.await_of_not_permit hpermit .processor
    have hstep : s.step (.processor .stored) =
        { s with notify := .waiting tasks, processor := .waiting } := by
      simp [step, processorStep, hawait, hnotify]
    refine CanReach.head (a := .processor .stored) trivial ?_
    rw [hstep]
    exact hpumpAsleep _ rfl hpump (Notify.not_hasPermit_waiting tasks) hnotified hleft
  · exact hpumpAsleep s hwaiting hpump hpermit hnotified hleft

/-- The pump finds nothing for the processor: it empties the channel and falls asleep. -/
theorem lost_of_woken_pump (hpump : s.pump = .receive) (hneeded : s.ProcessorNeeded)
    (hpermit : ¬s.notify.HasPermit) (hnotified : s.unnotified = 0) :
    CanReach step TaskStep Lost s := by
  induction hchannel : s.channel generalizing s with
  | nil =>
      have hstep : s.step (.pump (.ok 1)) = { s with pump := .await } := by
        simp [step, pumpStep, hpump, hchannel]
      refine CanReach.head (a := .pump (.ok 1)) trivial ?_
      rw [hstep]
      exact lost_of_asleep hneeded.2 (.inl rfl) hpermit hnotified (.inl hneeded.1)
  | cons m rest ih =>
      -- one message is received, forwarded and acknowledged, and the loop begins again
      have hreceive : s.step (.pump (.ok 1)) =
          { s with pump := .forward [m], channel := rest } := by
        simp [step, pumpStep, hpump, hchannel]
      refine CanReach.head (a := .pump (.ok 1)) trivial ?_
      rw [hreceive]
      refine CanReach.head (a := .pump (.ok 1)) trivial ?_
      refine CanReach.head (a := .pump (.ok 1)) trivial ?_
      exact ih rfl hneeded hpermit hnotified rfl

/-- Where a task is not attentive, the tasks by themselves come to a lost wake-up. -/
theorem lost_of_not_attentive {a : DurableStep} (h : ¬s.Attentive a) :
    CanReach step TaskStep Lost (s.step a) := by
  cases a with
  | overwrite m => exact absurd trivial h
  | dropOldest => exact absurd trivial h
  | push ordering pos m => exact absurd trivial h
  | notifyOne =>
      simp only [Attentive, Classical.not_imp] at h
      obtain ⟨hone, hwoken, hneeded, hlast⟩ := h
      rw [step, if_neg (by omega)]
      rcases Notify.notifyOne_cases s.notify with ⟨t, tasks, hnotify⟩ | hnotify
      · rw [hnotify] at hwoken ⊢
        cases hwoken
        refine lost_of_woken_pump rfl hneeded (Notify.not_hasPermit_waiting tasks) ?_
        change s.unnotified - 1 = 0
        omega
      · rw [hnotify] at hwoken
        cases hwoken
  | processor outcome =>
      simp only [Attentive, Classical.not_imp] at h
      obtain ⟨hat, hpermit, hneeded, hlast⟩ := h
      obtain ⟨tasks, hnotify⟩ := Notify.await_of_not_permit hpermit .processor
      have hstep : s.step (.processor outcome) =
          { s with notify := .waiting tasks, processor := .waiting } := by
        simp [step, processorStep, hat, hnotify]
      rw [hstep]
      exact lost_of_asleep (.inr rfl) hneeded.2 (Notify.not_hasPermit_waiting tasks)
        (by change s.unnotified = 0; omega) (.inr hneeded.1)
  | pump input =>
      simp only [Attentive, Classical.not_imp] at h
      obtain ⟨hat, hpermit, hneeded, hlast⟩ := h
      have hstep : s.step (.pump input) = { s with notify := .waiting [], pump := .receive } := by
        simp [step, pumpStep, hat, Notify.await_of_permit hpermit]
      rw [hstep]
      exact lost_of_woken_pump rfl hneeded (Notify.not_hasPermit_waiting [])
        (by change s.unnotified = 0; omega)

end Stuck

/-- In every run in which the tasks are attentive no wake-up is lost; and from any step at
which they are not, they come to a lost wake-up by themselves. -/
theorem wakeups_kept (queue : MessageStorage) (channel : List Message) :
    (∀ as, Along step Attentive (start queue channel) as →
      ¬(run step (start queue channel) as).Lost) ∧
    ∀ s a, ¬Attentive s a → CanReach step TaskStep Lost (s.step a) := by
  refine ⟨?_, fun s a h => lost_of_not_attentive h⟩
  intro as hrun
  exact (hrun.invariant (fun s a hs ha => hs.step ha) (awaited_start queue channel)).not_lost

section Idle

/-- Both tasks go to sleep; a message is enqueued, and the processor takes it to the channel
and goes back to sleep. -/
def idleThenOne : List DurableStep :=
  [.processor .stored, .processor .stored, .pump (.ok 32), .pump (.ok 32),
    .push .fifo 0 ⟨"1", "data", 3, "", 0, ∅⟩, .notifyOne,
    .processor .stored, .processor .stored, .processor .stored, .processor .stored,
    .processor .stored]

theorem not_always_woken :
    ¬∀ as, ¬(run step (start (.queue []) []) as).Lost := by
  intro hnever
  refine hnever idleThenOne ⟨?_, ?_, ?_, ?_, ?_⟩
  · decide +kernel
  · decide +kernel
  · exact Notify.not_hasPermit_waiting [Task.pump, Task.processor]
  · decide +kernel
  · decide +kernel

end Idle

end DurableMailbox

end PlexSpaces.Mailbox
