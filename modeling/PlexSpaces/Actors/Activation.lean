import Mathlib.Data.List.Count
import Mathlib.Logic.Function.Basic
import PlexSpaces.Lib.Run
/-!
# The activation of a virtual actor

Senders that do not find a virtual actor race for the guard of its activation.  The winner
queues its message, activates the actor and releases the guard, which wakes the senders
that wait by then; a loser fetches the notifier in one step and waits on it in a later one.
Two things go wrong: a loser that starts to wait after the release is never woken, and a
message that was queued for an activation that failed goes to the outbox as well.
Nothing else does (`guarded_iff`).
-/

namespace PlexSpaces.Actors

open PlexSpaces.Lib

/-- Where a call of `tell_reliable` stands; notifiers are numbered. -/
inductive SendStage
  | idle
  | lookup
  | checkActive
  | checkTenant
  | lookupAgain
  | tryAcquire
  | lost (notify : Nat)
  | waiting (notify : Nat)
  | queueMessage
  | resolveFactory
  | activate
  | release (activated : Bool)
  | tell
  | outbox (queued : Bool)
  | sent
  | stored
  | failed (queued : Bool)
  deriving DecidableEq

namespace SendStage

def owns : SendStage → Bool
  | queueMessage | resolveFactory | activate | release _ => true
  | _ => false

/-- The copies of the message that there should be. -/
def copies : SendStage → Nat
  | resolveFactory | activate | release _ | outbox true | sent | stored | failed true => 1
  | _ => 0

theorem copies_le (stage : SendStage) : stage.copies ≤ 1 := by
  unfold copies
  split <;> decide

/-- The call has returned `Ok`. -/
def accepted : SendStage → Bool
  | sent | stored => true
  | _ => false

/-- A release of the guard wakes a call that waits on its notifier. -/
def wake (notify : Nat) (stage : SendStage) : SendStage :=
  if stage = waiting notify then lookupAgain else stage

theorem wake_owns (notify : Nat) (stage : SendStage) : (stage.wake notify).owns = stage.owns := by
  rw [wake]
  split_ifs with h
  · rw [h]
    rfl
  · rfl

theorem wake_copies (notify : Nat) (stage : SendStage) :
    (stage.wake notify).copies = stage.copies := by
  rw [wake]
  split_ifs with h
  · rw [h]
    rfl
  · rfl

end SendStage

/-- One virtual actor, the guard of its activation, and the calls that send to it, each its own
message. -/
structure Activation where
  live : Bool
  guard : Option Nat
  nextNotify : Nat
  delivered : List Nat
  pending : List Nat
  outbox : List Nat
  stage : Nat → SendStage

namespace Activation

def start : Activation := ⟨false, none, 0, [], [], [], fun _ => .idle⟩

def put (s : Activation) (c : Nat) (next : SendStage) : Activation :=
  { s with stage := Function.update s.stage c next }

def releaseActivationGuard (s : Activation) : Activation :=
  match s.guard with
  | some notify => { s with guard := none, stage := fun c => (s.stage c).wake notify }
  | none => s

/-- The next step of a call; `ok` is how a step ends that can fail. -/
def advance (s : Activation) (c : Nat) (ok : Bool) : Activation :=
  match s.stage c with
  | .lookup => s.put c (if s.live then .tell else .checkActive)
  | .checkActive => s.put c (if s.live then .tell else .checkTenant)
  | .checkTenant => s.put c (if ok then .lookupAgain else .outbox false)
  | .lookupAgain => s.put c (if s.live then .tell else .tryAcquire)
  | .tryAcquire =>
      match s.guard with
      | some notify => s.put c (.lost notify)
      | none =>
          { s with guard := some s.nextNotify, nextNotify := s.nextNotify + 1 }.put c .queueMessage
  | .lost notify => s.put c (.waiting notify)
  | .queueMessage => { s with pending := s.pending ++ [c] }.put c .resolveFactory
  | .resolveFactory => s.put c (if ok then .activate else .release false)
  | .activate =>
      -- an activation that succeeds delivers what is queued
      if ok then
        { s with live := true, delivered := s.delivered ++ s.pending, pending := [] }.put c
          (.release true)
      else s.put c (.release false)
  | .release activated =>
      s.releaseActivationGuard.put c (if activated then .sent else .outbox true)
  | .tell =>
      if ok then { s with delivered := s.delivered ++ [c] }.put c .sent
      else s.put c (.outbox false)
  | .outbox queued =>
      if ok then { s with outbox := s.outbox ++ [c] }.put c .stored
      else s.put c (.failed queued)
  | .idle | .waiting _ | .sent | .stored | .failed _ => s

inductive SendStep
  | call (c : Nat)
  | advance (c : Nat) (ok : Bool)

def step (s : Activation) : SendStep → Activation
  | .call c =>
      match s.stage c with
      | .idle => s.put c .lookup
      | _ => s
  | .advance c ok => s.advance c ok

def copies (s : Activation) (c : Nat) : Nat :=
  s.delivered.count c + s.pending.count c + s.outbox.count c

/-- One call at most activates the actor; whoever waits, waits for the notifier that a call in
progress will release; no message has two copies, and one that was accepted has one. -/
structure Guarded (s : Activation) : Prop where
  single : ∀ c c', s.stage c = .activate → s.stage c' = .activate → c = c'
  awaited : ∀ c notify, s.stage c = .waiting notify →
    s.guard = some notify ∧ ∃ c', (s.stage c').owns
  copies_le : ∀ c, s.copies c ≤ 1
  accepted : ∀ c, (s.stage c).accepted → s.copies c = 1

/-- A loser starts to wait while the guard that it lost to is held, and no message that was queued
for a failed activation is stored in the outbox. -/
def Timely (s : Activation) : SendStep → Prop
  | .advance c ok =>
      match s.stage c with
      | .lost notify => s.guard = some notify
      | .outbox true => ok = false
      | _ => True
  | .call _ => True

/-- The calls that hold the guard, that wait, and the copies of every message. -/
structure Sound (s : Activation) : Prop where
  single : ∀ c c', (s.stage c).owns → (s.stage c').owns → c = c'
  guarded : s.guard.isSome ↔ ∃ c, (s.stage c).owns
  waiting : ∀ c notify, s.stage c = .waiting notify → s.guard = some notify
  copies : ∀ c, s.copies c = (s.stage c).copies

variable {s s' : Activation} {c : Nat}

theorem start_sound : start.Sound where
  single _ _ h := by cases h
  guarded := ⟨fun h => (Bool.false_ne_true h).elim, fun ⟨_, h⟩ => by cases h⟩
  waiting _ _ h := by cases h
  copies _ := rfl

theorem Sound.guarded_of_sound (h : s.Sound) : s.Guarded where
  single c c' hc hc' := h.single c c' (by rw [hc]; rfl) (by rw [hc']; rfl)
  awaited c notify hc := by
    have hguard := h.waiting c notify hc
    exact ⟨hguard, h.guarded.mp (Option.isSome_of_eq_some hguard)⟩
  copies_le c := by
    rw [h.copies]
    exact (s.stage c).copies_le
  accepted c hc := by
    rw [h.copies]
    cases hstage : s.stage c <;> rw [hstage] at hc <;> first | rfl | cases hc

/-- One call goes on: it keeps or leaves the guard alone, waits only for the guard that is held,
and its message has the copies that it should have. -/
theorem Sound.go_on (h : s.Sound) {next : SendStage}
    (hstage : s'.stage = Function.update s.stage c next) (hguard : s'.guard = s.guard)
    (howns : next.owns = (s.stage c).owns) (hwaits : ∀ notify, next = .waiting notify →
      s.guard = some notify) (hothers : ∀ c', c' ≠ c → s'.copies c' = s.copies c')
    (hself : s'.copies c = next.copies) : s'.Sound := by
  have howner : ∀ c', (s'.stage c').owns = (s.stage c').owns := by
    rw [hstage, Function.forall_update_iff s.stage (p := fun c' x => x.owns = (s.stage c').owns)]
    exact ⟨howns, fun _ _ => rfl⟩
  refine ⟨fun c₁ c₂ h₁ h₂ => ?_, ?_, ?_, ?_⟩
  · rw [howner] at h₁ h₂
    exact h.single c₁ c₂ h₁ h₂
  · simp only [hguard, howner, h.guarded]
  · rw [hstage, hguard, Function.forall_update_iff s.stage
      (p := fun _ x => ∀ notify, x = .waiting notify → s.guard = some notify)]
    exact ⟨hwaits, fun c' _ => h.waiting c'⟩
  · rw [hstage, Function.forall_update_iff s.stage (p := fun c' x => s'.copies c' = x.copies)]
    exact ⟨hself, fun c' hc => (hothers c' hc).trans (h.copies c')⟩

/-- A call goes on without touching a message or the guard. -/
theorem Sound.put (h : s.Sound) {next : SendStage} (howns : next.owns = (s.stage c).owns)
    (hwaits : ∀ notify, next = .waiting notify → s.guard = some notify)
    (hcopies : next.copies = (s.stage c).copies) : (s.put c next).Sound :=
  h.go_on rfl rfl howns hwaits (fun _ _ => rfl) ((h.copies c).trans hcopies.symm)

theorem Sound.acquire (h : s.Sound) (hfree : s.guard = none)
    (hcopies : (s.stage c).copies = 0) :
    (({ s with guard := some s.nextNotify, nextNotify := s.nextNotify + 1 } : Activation).put c
      .queueMessage).Sound := by
  have hnobody : ∀ c', (s.stage c').owns = false := by
    intro c'
    by_contra howns
    have hsome := h.guarded.mpr ⟨c', (Bool.not_eq_false _).mp howns⟩
    rw [hfree] at hsome
    cases hsome
  have honly : ∀ c', (Function.update s.stage c .queueMessage c').owns → c' = c := by
    rw [Function.forall_update_iff s.stage (p := fun c' x => x.owns → c' = c)]
    refine ⟨fun _ => rfl, fun c' _ howns => ?_⟩
    rw [hnobody c'] at howns
    cases howns
  have howns : (Function.update s.stage c .queueMessage c).owns = true := by
    rw [Function.update_self]
    rfl
  refine ⟨fun c₁ c₂ h₁ h₂ => (honly c₁ h₁).trans (honly c₂ h₂).symm, iff_of_true rfl ⟨c, howns⟩,
    ?_, ?_⟩
  · refine (Function.forall_update_iff s.stage
      (p := fun _ x => ∀ notify, x = .waiting notify → some s.nextNotify = some notify)).mpr
        ⟨fun notify hself => ?_, fun c' _ notify hc' => ?_⟩
    · cases hself
    · have hwaiting := h.waiting c' notify hc'
      rw [hfree] at hwaiting
      cases hwaiting
  · exact (Function.forall_update_iff s.stage (p := fun c' x => s.copies c' = x.copies)).mpr
      ⟨(h.copies c).trans hcopies, fun c' _ => h.copies c'⟩

/-- The call that holds the guard releases it and wakes everyone who waits. -/
theorem Sound.release (h : s.Sound) (howns : (s.stage c).owns) {next : SendStage}
    (hnext : next.owns = false) (hwaits : ∀ notify, next ≠ .waiting notify)
    (hcopies : next.copies = (s.stage c).copies) :
    (s.releaseActivationGuard.put c next).Sound := by
  obtain ⟨notify, hguard⟩ := Option.isSome_iff_exists.mp (h.guarded.mpr ⟨c, howns⟩)
  have hreleased : s.releaseActivationGuard =
      { s with guard := none, stage := fun c' => (s.stage c').wake notify } := by
    rw [releaseActivationGuard, hguard]
  have hself : (s.releaseActivationGuard.put c next).stage c = next := Function.update_self ..
  have hother : ∀ c', c' ≠ c →
      (s.releaseActivationGuard.put c next).stage c' = (s.stage c').wake notify := by
    intro c' hc
    rw [hreleased]
    exact Function.update_of_ne hc ..
  have hnobody : ∀ c', ((s.releaseActivationGuard.put c next).stage c').owns = false := by
    intro c'
    by_cases hc : c' = c
    · subst hc
      rw [hself, hnext]
    · rw [hother c' hc, SendStage.wake_owns]
      by_contra hc'
      exact hc (h.single c' c ((Bool.not_eq_false _).mp hc') howns)
  refine ⟨fun c₁ _ h₁ => ?_, ?_, fun c' m hc' => ?_, fun c' => ?_⟩
  · rw [hnobody c₁] at h₁
    cases h₁
  · refine iff_of_false ?_ fun ⟨c', hc'⟩ => ?_
    · rw [hreleased]
      exact Bool.false_ne_true
    · rw [hnobody c'] at hc'
      cases hc'
  · by_cases hc : c' = c
    · subst hc
      exact absurd (hself.symm.trans hc') (hwaits m)
    · -- it would have waited for the guard that was held, and been woken
      rw [hother c' hc, SendStage.wake] at hc'
      split_ifs at hc' with hwoken
      have hm := h.waiting c' m hc'
      rw [hguard] at hm
      exact absurd (hc'.trans (congrArg SendStage.waiting (Option.some.inj hm).symm)) hwoken
  · have hkept : (s.releaseActivationGuard.put c next).copies c' = s.copies c' := by
      rw [hreleased]
      rfl
    rw [hkept, h.copies]
    by_cases hc : c' = c
    · subst hc
      rw [hself, hcopies]
    · rw [hother c' hc, SendStage.wake_copies]

theorem count_concat (l : List Nat) (c c' : Nat) :
    (l ++ [c]).count c' = l.count c' + if c' = c then 1 else 0 := by
  rw [List.count_append, List.count_singleton]
  by_cases hc : c' = c
  · simp [hc]
  · simp [hc, Ne.symm hc]

theorem Sound.copy (h : s.Sound) {next : SendStage}
    (hstage : s'.stage = Function.update s.stage c next) (hguard : s'.guard = s.guard)
    (howns : next.owns = (s.stage c).owns) (hwaits : ∀ notify, next ≠ .waiting notify)
    (hadd : ∀ c', s'.copies c' = s.copies c' + if c' = c then 1 else 0)
    (hnone : (s.stage c).copies = 0) (hone : next.copies = 1) : s'.Sound := by
  refine h.go_on hstage hguard howns (fun notify hnext => absurd hnext (hwaits notify))
    (fun c' hc => ?_) ?_
  · rw [hadd, if_neg hc, Nat.add_zero]
  · rw [hadd, if_pos rfl, h.copies, hnone, hone]

theorem advance_sound (h : s.Sound) {c : Nat} {ok : Bool} (htimely : s.Timely (.advance c ok)) :
    (s.advance c ok).Sound := by
  rw [advance]
  rw [Timely] at htimely
  cases hstage : s.stage c with
  | lookup | checkActive | checkTenant | lookupAgain | resolveFactory =>
      refine h.put ?_ (fun notify hnext => ?_) ?_
      · rw [hstage]
        split_ifs <;> rfl
      · split_ifs at hnext
      · rw [hstage]
        split_ifs <;> rfl
  | tryAcquire =>
      dsimp only
      split
      · exact h.put (by rw [hstage]; rfl) (fun _ hnext => by cases hnext) (by rw [hstage]; rfl)
      · next hfree => exact h.acquire hfree (by rw [hstage]; rfl)
  | lost notify =>
      rw [hstage] at htimely
      refine h.put (by rw [hstage]; rfl) (fun _ hnext => ?_) (by rw [hstage]; rfl)
      cases hnext
      exact htimely
  | queueMessage =>
      refine h.copy rfl rfl (by rw [hstage]; rfl) (fun _ hnext => by cases hnext) (fun c' => ?_)
        (by rw [hstage]; rfl) rfl
      have hpending := count_concat s.pending c c'
      simp only [copies, put]
      omega
  | activate =>
      dsimp only
      split_ifs
      · have hmoved : ∀ c', List.count c' (s.delivered ++ s.pending) + List.count c' [] +
            s.outbox.count c' = s.copies c' := by
          intro c'
          rw [List.count_append, List.count_nil, Nat.add_zero, copies]
        refine h.go_on rfl rfl (by rw [hstage]; rfl) (fun _ hnext => by cases hnext)
          (fun c' _ => hmoved c') ((hmoved c).trans ?_)
        rw [h.copies, hstage]
        rfl
      · exact h.put (by rw [hstage]; rfl) (fun _ hnext => by cases hnext) (by rw [hstage]; rfl)
  | release activated =>
      refine h.release (by rw [hstage]; rfl) ?_ (fun notify hnext => ?_) ?_
      · split_ifs <;> rfl
      · split_ifs at hnext
      · rw [hstage]
        split_ifs <;> rfl
  | tell =>
      dsimp only
      split_ifs
      · refine h.copy rfl rfl (by rw [hstage]; rfl) (fun _ hnext => by cases hnext) (fun c' => ?_)
          (by rw [hstage]; rfl) rfl
        have hdelivered := count_concat s.delivered c c'
        simp only [copies, put]
        omega
      · exact h.put (by rw [hstage]; rfl) (fun _ hnext => by cases hnext) (by rw [hstage]; rfl)
  | outbox queued =>
      rw [hstage] at htimely
      have hfailed : (s.put c (.failed queued)).Sound := by
        refine h.put (by rw [hstage]; rfl) (fun _ hnext => by cases hnext) ?_
        rw [hstage]
        cases queued <;> rfl
      dsimp only
      split_ifs with hok
      · cases queued with
        | true => exact absurd (hok.symm.trans htimely) (by decide)
        | false =>
            refine h.copy rfl rfl (by rw [hstage]; rfl) (fun _ hnext => by cases hnext)
              (fun c' => ?_) (by rw [hstage]; rfl) rfl
            have houtbox := count_concat s.outbox c c'
            simp only [copies, put]
            omega
      · exact hfailed
  | idle | waiting _ | sent | stored | failed _ => exact h

theorem step_sound (h : s.Sound) {a : SendStep} (htimely : s.Timely a) : (s.step a).Sound := by
  cases a with
  | advance c ok => exact advance_sound h htimely
  | call c =>
      rw [step]
      split
      · next hstage =>
          exact h.put (by rw [hstage]; rfl) (fun _ hnext => by cases hnext) (by rw [hstage]; rfl)
      · exact h

theorem timely_of_guarded (h : s.Sound) {a : SendStep} (hafter : (s.step a).Guarded) :
    s.Timely a := by
  cases a with
  | call c => trivial
  | advance c ok =>
      rw [Timely]
      rw [step, advance] at hafter
      split
      · next notify hstage =>
          rw [hstage] at hafter
          exact (hafter.awaited c notify (Function.update_self ..)).1
      · next hstage =>
          rw [hstage] at hafter
          by_contra hok
          rw [Bool.not_eq_false] at hok
          subst hok
          have hqueued := h.copies c
          have htwo := hafter.copies_le c
          have houtbox := count_concat s.outbox c c
          rw [hstage] at hqueued
          rw [if_pos rfl] at houtbox
          simp only [if_true, copies, put, SendStage.copies] at hqueued htwo
          omega
      · trivial

/-- In every interleaving of the calls the activation is guarded in every state reached if and only
if every loser starts to wait before the guard it lost to is released and no message that was queued
for a failed activation is stored in the outbox. -/
theorem guarded_iff (steps : List SendStep) :
    Along step (fun s a => (s.step a).Guarded) start steps ↔ Along step Timely start steps := by
  refine along_congr (fun s a hs => ?_) (fun s a hs hafter => ?_) start_sound steps
  · constructor
    · exact timely_of_guarded hs
    · exact fun htimely => (step_sound hs htimely).guarded_of_sound
  · exact step_sound hs (timely_of_guarded hs hafter)

/-- A sender wins the guard and activates the actor while a second one loses to it. -/
def race : List SendStep :=
  [.call 0, .advance 0 true, .advance 0 true, .advance 0 true, .advance 0 true, .advance 0 true,
    .call 1, .advance 1 true, .advance 1 true, .advance 1 true, .advance 1 true, .advance 1 true,
    .advance 0 true, .advance 0 true, .advance 0 true, .advance 0 true]

/-- The loser waits for a guard that has been released. -/
theorem not_guarded : ¬∀ steps, Along step (fun s a => (s.step a).Guarded) start steps := by
  intro h
  have hlast := (along_concat _ start race (.advance 1 true)).mp (h (race ++ [.advance 1 true]))
  have hguard := (hlast.2.awaited 1 0 rfl).1
  revert hguard
  decide

end Activation

end PlexSpaces.Actors
