import PlexSpaces.Breaker.CircuitBreaker
import PlexSpaces.Lib.Run
/-!
# Failures between closing and opening

A breaker that has closed should open again by itself only after as many failures as
its threshold says.  `transition_to_closed` resets the counters and keeps the window,
so failures from before the closing still count for the sliding window strategy.

The run below counts the failures since the breaker last closed, and the records of
the window that are older than that.  Old records are at the front of the window and
leave it first (`WindowSince.add`), so a closed breaker opens too early only with the
help of an old failure that is left in the window.  Apart from that only a probe that
fails after a manual trip opens the breaker before its time (`fresh_start`).
-/

namespace PlexSpaces.Breaker

open PlexSpaces.Lib

def failuresIn (window : List RequestRecord) : Nat := window.countP fun r => !r.success

/-- The records stand in the order of their times. -/
abbrev InOrder (window : List RequestRecord) : Prop :=
  window.Pairwise fun r r' => r.timestamp ≤ r'.timestamp

namespace CircuitBreaker

variable {config : CircuitBreakerConfig} {t : Readings} {b b' : CircuitBreaker}

/-- A breaker without a window configuration keeps no records. -/
def WindowConfigured (config : CircuitBreakerConfig) (b : CircuitBreaker) : Prop :=
  config.slidingWindow = none → b.requestWindow = []

theorem removeOld_suffix {window window' : List RequestRecord} {duration : Option Int64}
    (h : removeOld t window duration = some window') : window' <:+ window := by
  cases duration with
  | none =>
      cases h
      exact List.suffix_rfl
  | some d =>
      obtain ⟨cutoff, -, hwindow'⟩ := Option.bind_eq_some_iff.mp h
      cases hwindow'
      exact List.dropWhile_suffix _

theorem not_of_mem_dropWhile {α : Type} {p : α → Bool} {r : α → α → Prop}
    (hp : ∀ a b, r a b → p b = true → p a = true) {as : List α} (has : as.Pairwise r) {a : α}
    (ha : a ∈ as.dropWhile p) : p a = false := by
  induction as with
  | nil => cases ha
  | cons b as ih =>
      obtain ⟨hhead, htail⟩ := List.pairwise_cons.mp has
      cases hb : p b with
      | true =>
          rw [List.dropWhile_cons_of_pos hb] at ha
          exact ih htail ha
      | false =>
          rw [List.dropWhile_cons_of_neg (by simp [hb])] at ha
          rcases List.mem_cons.mp ha with rfl | ha
          · exact hb
          · cases hcase : p a with
            | false => rfl
            | true => exact absurd (hp b a (hhead a ha) hcase) (by simp [hb])

/-- Of records in the order of their times those are left that are not older than the duration. -/
theorem le_of_mem_removeOld {window window' : List RequestRecord} {duration : Option Int64}
    (h : removeOld t window duration = some window')
    (hsorted : InOrder window) {r : RequestRecord}
    (hr : r ∈ window') : ∀ d ∈ duration, t.cutoff ≤ r.timestamp + fromSecs d := by
  rintro d ⟨⟩
  obtain ⟨cutoff, hcutoff, hwindow'⟩ := Option.bind_eq_some_iff.mp h
  cases hwindow'
  have hold := not_of_mem_dropWhile (fun a b hab hb => by simp at hb ⊢; omega) hsorted hr
  rw [subDuration] at hcutoff
  split_ifs at hcutoff
  cases hcutoff
  simp at hold
  omega

/-- Records enter the window at its end and leave it at its front. -/
theorem addToWindow_suffix (hb : b.WindowConfigured config) {success : Bool}
    (h : b.addToWindow config t success = some b') :
    b'.requestWindow <:+ b.requestWindow ++ [⟨success, t.now⟩] := by
  unfold addToWindow at h
  cases hwindow : config.slidingWindow with
  | none =>
      rw [hwindow] at h
      cases h
      rw [hb hwindow]
      exact List.nil_suffix
  | some w =>
      rw [hwindow] at h
      obtain ⟨window, hold, hb'⟩ := Option.bind_eq_some_iff.mp h
      cases hb'
      exact (List.drop_suffix _ _).trans (removeOld_suffix hold)

/-- What is left in a window is not older than its duration, and has room in it. -/
theorem addToWindow_left {w : SlidingWindowConfig} (hwindow : config.slidingWindow = some w)
    {success : Bool} (h : b.addToWindow config t success = some b')
    (hsorted : InOrder (b.requestWindow ++ [⟨success, t.now⟩])) :
    (∀ r ∈ b'.requestWindow, ∀ d ∈ w.windowDuration, t.cutoff ≤ r.timestamp + fromSecs d) ∧
      b'.requestWindow.length ≤ w.windowSize.toNat := by
  unfold addToWindow at h
  rw [hwindow] at h
  obtain ⟨window, hold, hb'⟩ := Option.bind_eq_some_iff.mp h
  cases hb'
  refine ⟨fun r hr => le_of_mem_removeOld hold hsorted (List.mem_of_mem_drop hr), ?_⟩
  rw [List.length_drop]
  omega

/-- A call of `is_request_allowed` keeps the window, does not close the breaker, and
only resets the counter of failures. -/
theorem isRequestAllowed_frame (config : CircuitBreakerConfig) (now : Nat)
    (b : CircuitBreaker) :
    (b.isRequestAllowed config now).2.requestWindow = b.requestWindow ∧
      ((b.isRequestAllowed config now).2.state = .closed ↔ b.state = .closed) ∧
      (b.isRequestAllowed config now).2.consecutiveFailures ≤ b.consecutiveFailures := by
  unfold isRequestAllowed
  cases hstate : b.state with
  | closed => simp [hstate]
  | opened =>
      dsimp only
      split_ifs
      · simp [transitionToHalfOpen]
      · simp [hstate]
  | halfOpen =>
      dsimp only
      split_ifs
      · simp
      · simp [hstate]
  | disabled => simp [hstate]

theorem addToWindow_configured (hb : b.WindowConfigured config) {success : Bool}
    (h : b.addToWindow config t success = some b') : b'.WindowConfigured config := by
  intro hnone
  rw [addToWindow, hnone] at h
  cases h
  exact hb hnone

end CircuitBreaker

/-- A window whose `stale` oldest records are from before the breaker closed; `failures`
were recorded since.  While an old record is left, every later failure is in the window. -/
structure WindowSince (window : List RequestRecord) (failures stale : Nat) : Prop where
  stale_le : stale ≤ window.length
  fresh_le : failuresIn (window.drop stale) ≤ failures
  fresh_eq : 0 < stale → failuresIn (window.drop stale) = failures

namespace WindowSince

theorem closed (window : List RequestRecord) : WindowSince window 0 window.length where
  stale_le := le_rfl
  fresh_le := by simp [failuresIn]
  fresh_eq _ := by simp [failuresIn]

theorem add {window window' : List RequestRecord} {r : RequestRecord} {failures stale : Nat}
    (h : WindowSince window failures stale) (hsuffix : window' <:+ window ++ [r]) :
    WindowSince window' (failures + failuresIn [r])
      (stale - (window.length + 1 - window'.length)) := by
  have hstale := h.stale_le
  have hlen := hsuffix.length_le
  rw [List.length_append, List.length_singleton] at hlen
  have hold : (window ++ [r]).drop stale = window.drop stale ++ [r] :=
    List.drop_append_of_le_length hstale
  have hcount : failuresIn (window.drop stale ++ [r]) =
      failuresIn (window.drop stale) + failuresIn [r] := List.countP_append
  have hwindow' : window' = (window ++ [r]).drop (window.length + 1 - window'.length) := by
    simpa using List.suffix_iff_eq_drop.mp hsuffix
  have hfresh : ∀ n, window'.drop n =
      (window ++ [r]).drop (window.length + 1 - window'.length + n) := by
    intro n
    nth_rewrite 1 [hwindow']
    rw [List.drop_drop]
  refine ⟨by omega, ?_, ?_⟩
  · have hsub : window'.drop (stale - (window.length + 1 - window'.length)) <:+
        window.drop stale ++ [r] := by
      rw [hfresh, ← hold]
      exact List.drop_suffix_drop_left _ (by omega)
    calc failuresIn (window'.drop (stale - (window.length + 1 - window'.length)))
        ≤ failuresIn (window.drop stale ++ [r]) := hsub.sublist.countP_le
      _ = failuresIn (window.drop stale) + failuresIn [r] := hcount
      _ ≤ failures + failuresIn [r] := Nat.add_le_add_right h.fresh_le _
  · intro hpos
    have hsame : window.length + 1 - window'.length +
        (stale - (window.length + 1 - window'.length)) = stale := by omega
    rw [hfresh, hsame, hold, hcount, h.fresh_eq (by omega)]

end WindowSince

/-- The breaker with its clock.  Since it last closed: how many failures were recorded,
how many records of its window are older, and whether it was tripped by hand then. -/
structure Observed where
  breaker : CircuitBreaker
  clock : Nat
  failures : Nat
  stale : Nat
  tripped : Bool

namespace Observed

variable (config : CircuitBreakerConfig)

def start (clock : Nat) : Observed := ⟨CircuitBreaker.new, clock, 0, 0, false⟩

/-- The operation enters the closed state: the breaker recovers, or it is reset. -/
def closes (b b' : CircuitBreaker) (r : Request) : Bool :=
  r = .reset || (b.state != .closed && b'.state == .closed)

/-- The old records that are left after an operation. -/
def staleAfter (o : Observed) (b' : CircuitBreaker) : Request → Nat
  | .recordSuccess => o.stale - (o.breaker.requestWindow.length + 1 - b'.requestWindow.length)
  | .recordFailure => o.stale - (o.breaker.requestWindow.length + 1 - b'.requestWindow.length)
  | _ => o.stale

def next (o : Observed) (a : Call) (b' : CircuitBreaker) : Observed :=
  if closes o.breaker b' a.request then
    { breaker := b'
      clock := (a.readings o.clock).opened
      failures := 0
      stale := b'.requestWindow.length
      tripped := false }
  else
    { breaker := b'
      clock := (a.readings o.clock).opened
      failures := o.failures + if a.request = .recordFailure then 1 else 0
      stale := o.staleAfter b' a.request
      tripped := o.tripped || (a.request = .trip && o.breaker.state == .closed) }

/-- One call; a call that panics ends the process, and nothing is seen of it. -/
def step (o : Observed) (a : Call) : Observed :=
  match o.breaker.after config (a.readings o.clock) a.request with
  | none => o
  | some b' => o.next a b'

/-- When a failure opens the breaker, at least `failure_threshold` failures were recorded
since it closed. -/
def FreshStart (o : Observed) (a : Call) : Prop :=
  a.request = .recordFailure → o.breaker.state ≠ .opened →
    (o.step config a).breaker.state = .opened →
      config.failureThreshold.toNat ≤ (o.step config a).failures

/-- A failure from before the closing stays in the window: it is not older than the duration of
the window, and the record of the call does not push it out. -/
def LeavesStale (o : Observed) (a : Call) (w : SlidingWindowConfig) : Prop :=
  ∃ i < o.stale, ∃ r ∈ o.breaker.requestWindow[i]?, r.success = false ∧
    (∀ d ∈ w.windowDuration, (a.readings o.clock).cutoff ≤ r.timestamp + fromSecs d) ∧
    o.breaker.requestWindow.length + 1 ≤ i + w.windowSize.toNat

instance (o : Observed) (a : Call) (w : SlidingWindowConfig) : Decidable (o.LeavesStale a w) :=
  inferInstanceAs (Decidable (∃ i < o.stale, ∃ r ∈ o.breaker.requestWindow[i]?, _))

/-- A failure that a closed breaker counts in a window with such a failure does not fill the
window up to what it trips at. -/
def CountsFresh (o : Observed) (a : Call) : Prop :=
  a.request = .recordFailure → o.breaker.state = .closed → config.strategy = .slidingWindow →
    ∀ w ∈ config.slidingWindow, o.LeavesStale a w →
      o.breaker.requestWindow.length + 1 < w.minimumRequests.toNat ∨
        failuresIn o.breaker.requestWindow + 1 < config.failureThreshold.toNat

instance (o : Observed) (a : Call) : Decidable (o.CountsFresh config a) :=
  inferInstanceAs (Decidable (_ → _ → _ → ∀ w ∈ config.slidingWindow, _))

/-- No probe fails after the closed breaker was tripped by hand. -/
def ProbesUntripped (o : Observed) (a : Call) : Prop :=
  a.request = .recordFailure → o.breaker.state = .halfOpen → o.tripped = false

instance (o : Observed) (a : Call) : Decidable (o.ProbesUntripped a) :=
  inferInstanceAs (Decidable (_ → _ → _))

/-- What the observation knows in every state. -/
structure Tracked (o : Observed) : Prop where
  configured : o.breaker.WindowConfigured config
  sorted : InOrder o.breaker.requestWindow
  past : ∀ r ∈ o.breaker.requestWindow, r.timestamp ≤ o.clock
  window : WindowSince o.breaker.requestWindow o.failures o.stale
  consecutive : o.breaker.consecutiveFailures.toNat ≤ o.failures
  closed : o.breaker.state = .closed → o.tripped = false
  opened : o.breaker.state ≠ .closed → o.tripped = false →
    config.failureThreshold.toNat ≤ o.failures

theorem start_tracked (clock : Nat) : (start clock).Tracked config where
  configured := fun _ => rfl
  sorted := List.Pairwise.nil
  past := nofun
  window := WindowSince.closed []
  consecutive := le_rfl
  closed := fun _ => rfl
  opened := fun h => absurd rfl h

variable {config} {o : Observed} {a : Call} {b' : CircuitBreaker}

theorem step_of_panic (h : o.breaker.after config (a.readings o.clock) a.request = none) :
    o.step config a = o := by
  rw [step, h]

theorem step_of_after (h : o.breaker.after config (a.readings o.clock) a.request = some b') :
    o.step config a = o.next a b' := by
  rw [step, h]

theorem next_of_closes (h : closes o.breaker b' a.request = true) :
    o.next a b' =
      { breaker := b'
        clock := (a.readings o.clock).opened
        failures := 0
        stale := b'.requestWindow.length
        tripped := false } :=
  if_pos h

theorem next_of_not_closes (h : closes o.breaker b' a.request = false) :
    o.next a b' =
      { breaker := b'
        clock := (a.readings o.clock).opened
        failures := o.failures + if a.request = .recordFailure then 1 else 0
        stale := o.staleAfter b' a.request
        tripped := o.tripped || (a.request = .trip && o.breaker.state == .closed) } :=
  if_neg (by rw [h]; decide)

/-! ## A failure -/

structure FailureCounted (config : CircuitBreakerConfig) (o : Observed) (a : Call)
    (counted : CircuitBreaker) : Prop where
  suffix : counted.requestWindow <:+
    o.breaker.requestWindow ++ [⟨false, (a.readings o.clock).now⟩]
  window : WindowSince counted.requestWindow (o.failures + 1)
    (o.staleAfter counted .recordFailure)
  consecutive : counted.consecutiveFailures.toNat ≤ o.failures + 1

theorem Tracked.sorted_add (ho : o.Tracked config) (a : Call) (success : Bool) :
    InOrder (o.breaker.requestWindow ++ [⟨success, (a.readings o.clock).now⟩]) := by
  rw [InOrder, List.pairwise_append]
  refine ⟨ho.sorted, List.pairwise_singleton _ _, fun r hr r' hr' => ?_⟩
  rw [List.mem_singleton.mp hr']
  exact (ho.past r hr).trans (Nat.le_add_right _ _)

theorem Tracked.counted (ho : o.Tracked config) {counted : CircuitBreaker}
    (h : o.breaker.countFailure config (a.readings o.clock) = some counted) :
    FailureCounted config o a counted := by
  have hsuffix := CircuitBreaker.addToWindow_suffix (b := { o.breaker with
    consecutiveFailures := o.breaker.consecutiveFailures + 1
    consecutiveSuccesses := 0 }) ho.configured h
  refine ⟨hsuffix, ho.window.add hsuffix, ?_⟩
  have hle := ho.consecutive
  rw [CircuitBreaker.countFailure_eq h]
  dsimp only
  rw [UInt32.toNat_add]
  refine (Nat.mod_le _ _).trans ?_
  simpa using hle

theorem le_failures_of_consecutive {b : CircuitBreaker} (hstrategy : config.strategy = .consecutive)
    (htrip : b.shouldTrip config = true) :
    config.failureThreshold.toNat ≤ b.consecutiveFailures.toNat := by
  simpa [CircuitBreaker.shouldTrip, hstrategy, UInt32.le_iff_toNat_le] using htrip

theorem le_failures_of_slidingWindow {b : CircuitBreaker}
    (hstrategy : config.strategy = .slidingWindow) (htrip : b.shouldTrip config = true) :
    ∃ w, config.slidingWindow = some w ∧ w.minimumRequests.toNat ≤ b.requestWindow.length ∧
      config.failureThreshold.toNat ≤ failuresIn b.requestWindow := by
  simp only [CircuitBreaker.shouldTrip, hstrategy] at htrip
  split at htrip
  · next w hwindow =>
      split_ifs at htrip with hfew
      rw [decide_eq_true_eq, UInt32.le_iff_toNat_le, CircuitBreaker.countFailuresInWindow,
        UInt32.toNat_ofNat'] at htrip
      rw [UInt32.not_lt, UInt32.le_iff_toNat_le, UInt32.toNat_ofNat'] at hfew
      exact ⟨w, hwindow, hfew.trans (Nat.mod_le _ _), htrip.trans (Nat.mod_le _ _)⟩
  · cases htrip

/-- Where no failure from before the closing stays in the window, those that it counts were
recorded since. -/
theorem failuresIn_le_of_not_leavesStale (ho : o.Tracked config) {counted : CircuitBreaker}
    (h : o.breaker.countFailure config (a.readings o.clock) = some counted)
    {w : SlidingWindowConfig} (hwindow : config.slidingWindow = some w)
    (hnone : ¬o.LeavesStale a w) : failuresIn counted.requestWindow ≤ o.failures + 1 := by
  obtain ⟨hsuffix, hsince, -⟩ := ho.counted h
  obtain ⟨hyoung, hroom⟩ := CircuitBreaker.addToWindow_left hwindow h (ho.sorted_add a false)
  have hlen := hsuffix.length_le
  rw [List.length_append, List.length_singleton] at hlen
  have hdrop := List.suffix_iff_eq_drop.mp hsuffix
  rw [List.length_append, List.length_singleton] at hdrop
  have hold : failuresIn (counted.requestWindow.take (o.staleAfter counted .recordFailure)) = 0 := by
    rw [failuresIn, List.countP_eq_zero]
    intro r hr hfailed
    obtain ⟨j, hj⟩ := List.mem_iff_getElem?.mp hr
    rw [List.getElem?_take] at hj
    split_ifs at hj with hlt
    change j < o.stale - _ at hlt
    have hstale := ho.window.stale_le
    have hindex := hj
    rw [hdrop, List.getElem?_drop, List.getElem?_append_left (by omega)] at hindex
    refine hnone ⟨_, ?_, r, hindex, by simpa using hfailed, ?_, ?_⟩
    · omega
    · exact hyoung r (List.mem_of_getElem? hj)
    · omega
  calc failuresIn counted.requestWindow
      = failuresIn (counted.requestWindow.take (o.staleAfter counted .recordFailure)) +
          failuresIn (counted.requestWindow.drop (o.staleAfter counted .recordFailure)) := by
        rw [failuresIn, failuresIn, failuresIn, ← List.countP_append, List.take_append_drop]
    _ ≤ o.failures + 1 := by
        rw [hold, Nat.zero_add]
        exact hsince.fresh_le

theorem freshStart_of (ho : o.Tracked config)
    (hstrategy : config.strategy = .consecutive ∨ config.strategy = .slidingWindow)
    (hfresh : o.CountsFresh config a) (hprobe : o.ProbesUntripped a) : o.FreshStart config a := by
  intro hrequest hnot hopened
  cases hafter : o.breaker.after config (a.readings o.clock) a.request with
  | none =>
      rw [step_of_panic hafter] at hopened
      exact absurd hopened hnot
  | some b' =>
      have hcloses : closes o.breaker b' a.request = false := by
        rw [step_of_after hafter] at hopened
        have hstate : b'.state = .opened := by
          unfold next at hopened
          split_ifs at hopened <;> exact hopened
        simp [closes, hrequest, hstate]
      rw [step_of_after hafter, next_of_not_closes hcloses, if_pos hrequest] at hopened ⊢
      rw [hrequest] at hafter
      obtain ⟨counted, hcounted, ⟨htrip, -⟩ | ⟨-, -, rfl⟩⟩ :=
        CircuitBreaker.recordFailure_cases hafter
      · obtain ⟨hsuffix, -, hconsecutive⟩ := ho.counted hcounted
        rcases htrip with ⟨hclosed, htrip⟩ | hhalf
        · rcases hstrategy with hstrategy | hstrategy
          · exact (le_failures_of_consecutive hstrategy htrip).trans hconsecutive
          · obtain ⟨w, hwindow, hrequests, hfailures⟩ :=
              le_failures_of_slidingWindow hstrategy htrip
            by_cases hstale : o.LeavesStale a w
            · -- the window holds too little for the breaker to open
              have hlen := hsuffix.length_le
              have hcount : failuresIn counted.requestWindow ≤
                  failuresIn o.breaker.requestWindow + 1 := by
                refine hsuffix.sublist.countP_le.trans_eq ?_
                rw [List.countP_append]
                rfl
              rw [List.length_append, List.length_singleton] at hlen
              rcases hfresh hrequest hclosed hstrategy w hwindow hstale with hfew | hfew
              · omega
              · omega
            · exact hfailures.trans
                (failuresIn_le_of_not_leavesStale ho hcounted hwindow hstale)
        · exact (ho.opened (by simp [hhalf]) (hprobe hrequest hhalf)).trans (Nat.le_succ _)
      · rw [CircuitBreaker.countFailure_eq hcounted] at hopened
        exact absurd hopened hnot

/-! ## Every call -/

theorem clock_le_now (a : Call) (clock : Nat) : clock ≤ (a.readings clock).now :=
  Nat.le_add_right _ _

theorem now_le_opened (a : Call) (clock : Nat) :
    (a.readings clock).now ≤ (a.readings clock).opened :=
  (Nat.le_add_right _ _).trans (Nat.le_add_right _ _)

theorem Tracked.past_add (ho : o.Tracked config) {success : Bool} {window : List RequestRecord}
    (hsuffix : window <:+ o.breaker.requestWindow ++ [⟨success, (a.readings o.clock).now⟩]) :
    InOrder window ∧
      ∀ r ∈ window, r.timestamp ≤ (a.readings o.clock).opened := by
  refine ⟨(ho.sorted_add a success).sublist hsuffix.sublist, fun r hr => ?_⟩
  rcases List.mem_append.mp (hsuffix.subset hr) with hr | hr
  · exact (ho.past r hr).trans ((clock_le_now a _).trans (now_le_opened a _))
  · rw [List.mem_singleton.mp hr]
    exact now_le_opened a _

theorem Tracked.past_later (ho : o.Tracked config) :
    ∀ r ∈ o.breaker.requestWindow, r.timestamp ≤ (a.readings o.clock).opened :=
  fun r hr => (ho.past r hr).trans ((clock_le_now a _).trans (now_le_opened a _))

theorem isRequestAllowed_tracked (ho : o.Tracked config) (ha : a.request = .isRequestAllowed) :
    (o.step config a).Tracked config := by
  obtain ⟨hwindow, hclosed, hfailures⟩ :=
    o.breaker.isRequestAllowed_frame config (a.readings o.clock).now
  have hafter : o.breaker.after config (a.readings o.clock) a.request =
      some (o.breaker.isRequestAllowed config (a.readings o.clock).now).2 := by
    rw [ha]
    rfl
  rw [step_of_after hafter, next_of_not_closes (by simp [closes, ha, hclosed]), ha]
  refine ⟨fun hnone => ?_, ?_, ?_, ?_, ?_, ?_, ?_⟩
  · exact hwindow.trans (ho.configured hnone)
  · simpa [hwindow] using ho.sorted
  · simpa [hwindow] using ho.past_later (a := a)
  · simpa [hwindow, staleAfter] using ho.window
  · exact (UInt32.le_iff_toNat_le.mp hfailures).trans ho.consecutive
  · simpa [hclosed] using ho.closed
  · simpa [hclosed] using ho.opened

theorem recordFailure_tracked (ho : o.Tracked config) (ha : a.request = .recordFailure)
    (hgood : o.FreshStart config a) : (o.step config a).Tracked config := by
  cases hafter : o.breaker.after config (a.readings o.clock) a.request with
  | none =>
      rw [step_of_panic hafter]
      exact ho
  | some b' =>
      rw [FreshStart, step_of_after hafter] at hgood
      rw [step_of_after hafter]
      rw [ha] at hafter
      obtain ⟨counted, hcounted, hcase⟩ := CircuitBreaker.recordFailure_cases hafter
      obtain ⟨hsuffix, hsince, hconsecutive⟩ := ho.counted hcounted
      have hconfigured : counted.WindowConfigured config :=
        CircuitBreaker.addToWindow_configured (b := { o.breaker with
          consecutiveFailures := o.breaker.consecutiveFailures + 1
          consecutiveSuccesses := 0 }) ho.configured hcounted
      obtain ⟨hsorted, hpast⟩ := ho.past_add hsuffix
      rcases hcase with ⟨htrip, rfl⟩ | ⟨-, hnot, rfl⟩
      · have hcloses : closes o.breaker (counted.transitionToOpen (a.readings o.clock))
            a.request = false := by
          simp [closes, ha, CircuitBreaker.transitionToOpen]
        rw [next_of_not_closes hcloses] at hgood ⊢
        simp only [ha, if_true] at hgood ⊢
        refine ⟨hconfigured, hsorted, hpast, hsince, hconsecutive, nofun, fun _ htripped => ?_⟩
        by_cases hstate : o.breaker.state = .closed
        · exact hgood trivial (by simp [hstate]) rfl
        · exact (ho.opened hstate (by simpa using htripped)).trans (Nat.le_succ _)
      · have hstate : b'.state = o.breaker.state := by
          rw [CircuitBreaker.countFailure_eq hcounted]
        have hcloses : closes o.breaker b' a.request = false := by
          simp [closes, ha, hstate]
        rw [next_of_not_closes hcloses]
        simp only [ha, if_true]
        refine ⟨hconfigured, hsorted, hpast, hsince, hconsecutive, ?_, ?_⟩
        · simpa [hstate] using ho.closed
        · intro hnot htripped
          rw [hstate] at hnot
          exact (ho.opened hnot (by simpa using htripped)).trans (Nat.le_succ _)

theorem recordSuccess_tracked (ho : o.Tracked config) (ha : a.request = .recordSuccess) :
    (o.step config a).Tracked config := by
  cases hafter : o.breaker.after config (a.readings o.clock) a.request with
  | none =>
      rw [step_of_panic hafter]
      exact ho
  | some b' =>
      rw [step_of_after hafter]
      rw [ha] at hafter
      obtain ⟨counted, hcounted, hcase⟩ := CircuitBreaker.recordSuccess_cases hafter
      have hconfigured : counted.WindowConfigured config :=
        CircuitBreaker.addToWindow_configured (b := { o.breaker with
          consecutiveFailures := 0
          consecutiveSuccesses := o.breaker.consecutiveSuccesses + 1 }) ho.configured hcounted
      have hsuffix := CircuitBreaker.addToWindow_suffix (b := { o.breaker with
        consecutiveFailures := 0
        consecutiveSuccesses := o.breaker.consecutiveSuccesses + 1 }) ho.configured hcounted
      obtain ⟨hsorted, hpast⟩ := ho.past_add hsuffix
      rcases hcase with ⟨hhalf, -, rfl⟩ | ⟨-, rfl⟩
      · have hcloses : closes o.breaker counted.transitionToClosed a.request = true := by
          simp [closes, ha, hhalf, CircuitBreaker.transitionToClosed]
        rw [next_of_closes hcloses]
        exact ⟨hconfigured, hsorted, hpast, WindowSince.closed _, le_rfl, fun _ => rfl,
          fun h => absurd rfl h⟩
      · have hcounts := CircuitBreaker.countSuccess_eq hcounted
        have hstate : b'.state = o.breaker.state := by rw [hcounts]
        have hzero : b'.consecutiveFailures = 0 := by rw [hcounts]
        have hcloses : closes o.breaker b' a.request = false := by
          simp [closes, ha, hstate]
        rw [next_of_not_closes hcloses, ha]
        refine ⟨hconfigured, hsorted, hpast, ho.window.add hsuffix, ?_, ?_, ?_⟩
        · rw [hzero]
          exact Nat.zero_le _
        · simpa [hstate] using ho.closed
        · simpa [hstate] using ho.opened

theorem trip_tracked (ho : o.Tracked config) (ha : a.request = .trip) :
    (o.step config a).Tracked config := by
  have hafter : o.breaker.after config (a.readings o.clock) a.request =
      some (o.breaker.transitionToOpen (a.readings o.clock)) := by
    rw [ha]
    rfl
  have hcloses : closes o.breaker (o.breaker.transitionToOpen (a.readings o.clock))
      a.request = false := by
    simp [closes, ha, CircuitBreaker.transitionToOpen]
  rw [step_of_after hafter, next_of_not_closes hcloses, ha]
  refine ⟨ho.configured, ho.sorted, ho.past_later, ho.window, ho.consecutive, nofun,
    fun _ htripped => ?_⟩
  have htripped' : o.tripped = false ∧ o.breaker.state ≠ .closed := by
    simpa using htripped
  exact ho.opened htripped'.2 htripped'.1

theorem reset_tracked (ho : o.Tracked config) (ha : a.request = .reset) :
    (o.step config a).Tracked config := by
  have hafter : o.breaker.after config (a.readings o.clock) a.request =
      some o.breaker.transitionToClosed := by
    rw [ha]
    rfl
  rw [step_of_after hafter, next_of_closes (by simp [closes, ha])]
  exact ⟨ho.configured, ho.sorted, ho.past_later, WindowSince.closed _, le_rfl, fun _ => rfl,
    fun h => absurd rfl h⟩

theorem step_tracked (ho : o.Tracked config) (hgood : o.FreshStart config a) :
    (o.step config a).Tracked config := by
  cases hrequest : a.request with
  | isRequestAllowed => exact isRequestAllowed_tracked ho hrequest
  | recordSuccess => exact recordSuccess_tracked ho hrequest
  | recordFailure => exact recordFailure_tracked ho hrequest hgood
  | trip => exact trip_tracked ho hrequest
  | reset => exact reset_tracked ho hrequest

/-- Every automatic opening of a run comes after enough failures since the closing, if the
window counts no failure from before it and no probe fails after a manual trip. -/
theorem fresh_start (config : CircuitBreakerConfig)
    (hstrategy : config.strategy = .consecutive ∨ config.strategy = .slidingWindow)
    (clock : Nat) (requests : List Call)
    (hrun : Along (step config) (fun o a => o.CountsFresh config a ∧ o.ProbesUntripped a)
      (start clock) requests) :
    Along (step config) (FreshStart config) (start clock) requests :=
  hrun.of_invariant (I := Tracked config) (fun _ _ ho hgood =>
    have hfresh := freshStart_of ho hstrategy hgood.1 hgood.2
    ⟨hfresh, step_tracked ho hfresh⟩) (start_tracked config clock)

def threeInWindow (windowDuration : Option Int64) : CircuitBreakerConfig where
  failureStrategy := 1
  failureThreshold := 3
  successThreshold := 1
  timeout := some 60
  slidingWindow := some ⟨10, windowDuration, 1⟩
  maxHalfOpenRequests := 1

/-- Three failures open the breaker, a probe closes it, and one failure follows. -/
def recovery : List Call :=
  [.instant 0 .recordFailure, .instant 0 .recordFailure, .instant 0 .recordFailure,
    .instant (fromSecs 60) .isRequestAllowed, .instant 0 .recordSuccess,
    .instant 0 .recordFailure]

/-- A window of thirty seconds has left the failures behind when the breaker closes, so that three
more are needed. -/
theorem fresh_start_threeInWindow :
    Along (step (threeInWindow (some 30))) (FreshStart (threeInWindow (some 30)))
        (start (fromSecs 60))
        (recovery ++ [.instant 0 .recordFailure, .instant 0 .recordFailure]) ∧
      (run (step (threeInWindow (some 30))) (start (fromSecs 60))
        (recovery ++ [.instant 0 .recordFailure, .instant 0 .recordFailure])).breaker.state =
          .opened := by
  refine ⟨fresh_start _ (.inr rfl) _ _ ?_, ?_⟩
  · decide +kernel
  · decide +kernel

theorem not_fresh_start :
    ¬∀ (config : CircuitBreakerConfig),
      config.strategy = .consecutive ∨ config.strategy = .slidingWindow →
        ∀ (clock : Nat) (requests : List Call),
          Along (step config) (FreshStart config) (start clock) requests := by
  intro h
  have hlast := (h (threeInWindow none) (.inr rfl) 0 recovery).2.2.2.2.2.1
  have hfew := hlast rfl (by decide +kernel) (by decide +kernel)
  revert hfew
  decide +kernel

end Observed

end PlexSpaces.Breaker
