import PlexSpaces.Breaker.CircuitBreaker
import PlexSpaces.Lib.Run
/-!
# Recovery of the breaker

Callers ask for admission and record one outcome for every admitted request.  A
half-open breaker closes after `success_threshold` successes in a row, and its
admission counter is not given back when a probe ends: one probe by the transition
and `max_half_open_requests` more is all it admits.

When the threshold is within that budget, the breaker can be closed from every state
that callers reach; where the duration of the window is too long for the clock to have
a cutoff, callers wait before they record an outcome.  When it is not, a breaker whose
probes have all succeeded admits nothing and waits for nothing, and only a manual call
moves it again (`recovers_iff`).
-/

namespace PlexSpaces.Breaker

open PlexSpaces.Lib

/-- The breaker with its clock, and the admitted requests whose outcome is not recorded
yet. -/
structure Served where
  breaker : CircuitBreaker
  clock : Nat
  outstanding : Nat

namespace Served

variable (config : CircuitBreakerConfig)

def start (clock : Nat) : Served := ⟨CircuitBreaker.new, clock, 0⟩

def IsOutcome (r : Request) : Prop := r = .recordSuccess ∨ r = .recordFailure

instance (r : Request) : Decidable (IsOutcome r) := inferInstanceAs (Decidable (_ ∨ _))

/-- One call.  An outcome is only recorded for a request that is outstanding; a call that
panics ends the process, and nothing is seen of it. -/
def step (c : Served) (a : Call) : Served :=
  let t := a.readings c.clock
  if IsOutcome a.request ∧ c.outstanding = 0 then { c with clock := t.opened }
  else
    match c.breaker.after config t a.request with
    | none => c
    | some breaker =>
        { breaker := breaker
          clock := t.opened
          outstanding :=
            if IsOutcome a.request then c.outstanding - 1
            else c.outstanding + if c.breaker.admits config t a.request then 1 else 0 }

/-- The operation is not a manual `trip` or `reset`. -/
def Automatic (a : Call) : Prop := a.request ≠ .trip ∧ a.request ≠ .reset

/-- Callers can bring the breaker to the closed state. -/
def Recovers (c : Served) : Prop :=
  CanReach (step config) Automatic (fun c => c.breaker.state = .closed) c

/-- Half-open, with its admission counter, its successes and the outstanding requests. -/
structure ProbingWith (c : Served) (places successes outstanding : Nat) : Prop where
  state : c.breaker.state = .halfOpen
  places : c.breaker.halfOpenRequests.toNat = places
  successes : c.breaker.consecutiveSuccesses.toNat = successes
  outstanding : c.outstanding = outstanding

/-- What holds in every state that callers reach. -/
structure Reached (c : Served) : Prop where
  enabled : c.breaker.state ≠ .disabled
  opened : c.breaker.state = .opened → ∃ t, c.breaker.lastOpened = some t ∧ t ≤ c.clock
  halfOpen : c.breaker.state = .halfOpen →
    c.breaker.halfOpenRequests.toNat + 1 ≤
        c.breaker.consecutiveSuccesses.toNat + c.outstanding ∧
      c.breaker.consecutiveSuccesses.toNat < config.successThreshold.toNat

variable {config} {c : Served}

theorem automatic_isRequestAllowed (elapsed : Nat) :
    Automatic (.instant elapsed .isRequestAllowed) := ⟨nofun, nofun⟩

theorem automatic_recordSuccess (elapsed : Nat) : Automatic (.instant elapsed .recordSuccess) :=
  ⟨nofun, nofun⟩

theorem automatic_recordFailure (elapsed : Nat) : Automatic (.instant elapsed .recordFailure) :=
  ⟨nofun, nofun⟩

theorem step_of_admitted {a : Call} (ha : a.request = .isRequestAllowed) {b' : CircuitBreaker}
    (h : c.breaker.isRequestAllowed config (a.readings c.clock).now = (true, b')) :
    c.step config a = ⟨b', (a.readings c.clock).opened, c.outstanding + 1⟩ := by
  simp [step, IsOutcome, ha, CircuitBreaker.after, CircuitBreaker.admits, h]

theorem step_of_refused {a : Call} (ha : a.request = .isRequestAllowed)
    (h : c.breaker.isRequestAllowed config (a.readings c.clock).now = (false, c.breaker)) :
    c.step config a = { c with clock := (a.readings c.clock).opened } := by
  simp [step, IsOutcome, ha, CircuitBreaker.after, CircuitBreaker.admits, h]

theorem step_of_outcome {a : Call} (ha : IsOutcome a.request) (h : c.outstanding ≠ 0)
    {breaker : CircuitBreaker}
    (hafter : c.breaker.after config (a.readings c.clock) a.request = some breaker) :
    c.step config a = ⟨breaker, (a.readings c.clock).opened, c.outstanding - 1⟩ := by
  simp [step, ha, h, hafter]

theorem step_of_panic {a : Call} (h : c.outstanding ≠ 0)
    (hafter : c.breaker.after config (a.readings c.clock) a.request = none) :
    c.step config a = c := by
  simp [step, h, hafter]

theorem step_of_none_outstanding {a : Call} (ha : IsOutcome a.request) (h : c.outstanding = 0) :
    c.step config a = { c with clock := (a.readings c.clock).opened } := by
  simp [step, ha, h]

/-! ## Calls that return -/

def windowNanos (config : CircuitBreakerConfig) : Nat :=
  ((config.slidingWindow.bind (·.windowDuration)).map fromSecs).getD 0

theorem removeOld_of_le {t : Readings} {duration : Option Int64}
    (h : (duration.map fromSecs).getD 0 ≤ t.cutoff) (window : List RequestRecord) :
    ∃ window', CircuitBreaker.removeOld t window duration = some window' := by
  cases duration with
  | none => exact ⟨window, rfl⟩
  | some d =>
      have hle : fromSecs d ≤ t.cutoff := h
      rw [CircuitBreaker.removeOld, subDuration, if_pos hle]
      exact ⟨_, rfl⟩

/-- A clock that has run as long as the window has a cutoff. -/
theorem addToWindow_of_le {t : Readings} (h : windowNanos config ≤ t.cutoff) (b : CircuitBreaker)
    (success : Bool) : ∃ b', b.addToWindow config t success = some b' := by
  unfold CircuitBreaker.addToWindow
  rw [windowNanos] at h
  cases hwindow : config.slidingWindow with
  | none => exact ⟨_, rfl⟩
  | some w =>
      rw [hwindow, Option.bind_some] at h
      obtain ⟨window, hsome⟩ := removeOld_of_le h (b.requestWindow ++ [⟨success, t.now⟩])
      dsimp only
      rw [hsome]
      exact ⟨_, rfl⟩

theorem windowNanos_le_cutoff (config : CircuitBreakerConfig) (r : Request) (clock : Nat) :
    windowNanos config ≤ ((Call.instant (windowNanos config) r).readings clock).cutoff :=
  Nat.le_add_left _ _

section Probes

variable {places successes outstanding : Nat}

theorem probingWith_of_opened {timeout : Int64} (htimeout : config.timeout = some timeout)
    (hstate : c.breaker.state = .opened) {t : Nat} (hopened : c.breaker.lastOpened = some t)
    (ht : t ≤ c.clock) :
    (c.step config (.instant (fromSecs timeout) .isRequestAllowed)).ProbingWith 0 0
      (c.outstanding + 1) := by
  have hexp : c.breaker.timeoutExpired config (c.clock + fromSecs timeout) = true := by
    simp only [CircuitBreaker.timeoutExpired, htimeout, hopened, decide_eq_true_eq]
    omega
  rw [step_of_admitted rfl (CircuitBreaker.isRequestAllowed_of_expired hstate hexp)]
  exact ⟨rfl, rfl, rfl, rfl⟩

theorem ProbingWith.admit (h : c.ProbingWith places successes outstanding)
    (hplace : places < config.maxHalfOpenRequests.toNat) :
    (c.step config (.instant 0 .isRequestAllowed)).ProbingWith (places + 1) successes
      (outstanding + 1) := by
  have hlt : c.breaker.halfOpenRequests < config.maxHalfOpenRequests := by
    rw [UInt32.lt_iff_toNat_lt, h.places]
    exact hplace
  have hmax := config.maxHalfOpenRequests.toNat_lt
  rw [step_of_admitted rfl (CircuitBreaker.isRequestAllowed_of_place h.state hlt)]
  refine ⟨h.state, ?_, h.successes, ?_⟩
  · simp [h.places]
    omega
  · rw [h.outstanding]

theorem ProbingWith.next_successes (h : c.ProbingWith places successes outstanding)
    (hthr : successes + 1 ≤ config.successThreshold.toNat) :
    (c.breaker.consecutiveSuccesses + 1).toNat = successes + 1 := by
  have hlt := config.successThreshold.toNat_lt
  rw [UInt32.toNat_add, h.successes]
  apply Nat.mod_eq_of_lt
  simp only [UInt32.toNat_one]
  omega

theorem ProbingWith.succeed (h : c.ProbingWith places successes (outstanding + 1))
    (hbelow : successes + 1 < config.successThreshold.toNat) :
    (c.step config (.instant (windowNanos config) .recordSuccess)).ProbingWith places
      (successes + 1) outstanding := by
  have hnext := h.next_successes hbelow.le
  have hnot : ¬config.successThreshold ≤ c.breaker.consecutiveSuccesses + 1 := by
    rw [UInt32.le_iff_toNat_le, hnext]
    omega
  obtain ⟨counted, hcounted⟩ := addToWindow_of_le (windowNanos_le_cutoff config .recordSuccess
    c.clock) { c.breaker with
      consecutiveFailures := 0
      consecutiveSuccesses := c.breaker.consecutiveSuccesses + 1 } true
  have hafter := CircuitBreaker.recordSuccess_of_not_closes hcounted fun _ => hnot
  rw [step_of_outcome (a := .instant (windowNanos config) .recordSuccess) (.inl rfl)
      (by rw [h.outstanding]; omega) hafter,
    CircuitBreaker.countSuccess_eq hcounted]
  exact ⟨h.state, h.places, hnext, by simp [h.outstanding]⟩

theorem ProbingWith.close (h : c.ProbingWith places successes (outstanding + 1))
    (hthr : successes + 1 = config.successThreshold.toNat) :
    (c.step config (.instant (windowNanos config) .recordSuccess)).breaker.state = .closed := by
  have hnext := h.next_successes hthr.le
  have hle : config.successThreshold ≤ c.breaker.consecutiveSuccesses + 1 := by
    rw [UInt32.le_iff_toNat_le, hnext]
    omega
  obtain ⟨counted, hcounted⟩ := addToWindow_of_le (windowNanos_le_cutoff config .recordSuccess
    c.clock) { c.breaker with
      consecutiveFailures := 0
      consecutiveSuccesses := c.breaker.consecutiveSuccesses + 1 } true
  have hafter := CircuitBreaker.recordSuccess_of_closes hcounted h.state hle
  rw [step_of_outcome (a := .instant (windowNanos config) .recordSuccess) (.inl rfl)
    (by rw [h.outstanding]; omega) hafter]
  rfl

theorem ProbingWith.fail (config : CircuitBreakerConfig)
    (h : c.ProbingWith places successes (outstanding + 1)) :
    let c' := c.step config (.instant (windowNanos config) .recordFailure)
    c'.breaker.state = .opened ∧ c'.breaker.lastOpened = some c'.clock := by
  obtain ⟨counted, hcounted⟩ := addToWindow_of_le (windowNanos_le_cutoff config .recordFailure
    c.clock) { c.breaker with
      consecutiveFailures := c.breaker.consecutiveFailures + 1
      consecutiveSuccesses := 0 } false
  have hafter := CircuitBreaker.recordFailure_of_halfOpen hcounted h.state
  intro c'
  have hc' : c' = _ := step_of_outcome (.inr rfl) (by rw [h.outstanding]; omega) hafter
  rw [hc']
  exact ⟨rfl, rfl⟩

theorem ProbingWith.fill (left : Nat) (h : c.ProbingWith places successes outstanding)
    (hplaces : places + left ≤ config.maxHalfOpenRequests.toNat) :
    CanReach (step config) Automatic
      (ProbingWith · (places + left) successes (outstanding + left)) c := by
  induction left generalizing c places outstanding with
  | zero => exact CanReach.refl h
  | succ left ih =>
      have hnext : (c.step config (.instant 0 .isRequestAllowed)).ProbingWith (places + 1)
          successes (outstanding + 1) := h.admit (by omega)
      apply CanReach.head (automatic_isRequestAllowed _)
      have hrest := ih hnext (by omega)
      rwa [Nat.add_right_comm places, Nat.add_right_comm outstanding] at hrest

theorem ProbingWith.spend (n : Nat) (h : c.ProbingWith places successes (outstanding + n))
    (hbelow : successes + n < config.successThreshold.toNat) :
    CanReach (step config) Automatic (ProbingWith · places (successes + n) outstanding) c := by
  induction n generalizing c successes with
  | zero => exact CanReach.refl h
  | succ n ih =>
      have hnext : (c.step config (.instant (windowNanos config) .recordSuccess)).ProbingWith
          places (successes + 1) (outstanding + n) := h.succeed (by omega)
      apply CanReach.head (automatic_recordSuccess _)
      have hrest := ih hnext (by omega)
      rwa [Nat.add_right_comm successes] at hrest

/-- Outstanding probes and places that are enough to close the breaker. -/
theorem ProbingWith.recovers_of_enough (left : Nat)
    (h : c.ProbingWith places successes outstanding)
    (hplaces : places + left = config.maxHalfOpenRequests.toNat)
    (hbelow : successes < config.successThreshold.toNat)
    (henough : config.successThreshold.toNat ≤ successes + outstanding + left) :
    c.Recovers config := by
  obtain ⟨missing, hmissing⟩ : ∃ missing,
      successes + missing + 1 = config.successThreshold.toNat :=
    ⟨config.successThreshold.toNat - successes - 1, by omega⟩
  obtain ⟨rest, hrest⟩ : ∃ rest, outstanding + left = rest + 1 + missing :=
    ⟨outstanding + left - 1 - missing, by omega⟩
  apply (h.fill left hplaces.le).trans
  intro c' hfull
  rw [hrest] at hfull
  apply (hfull.spend missing (by omega)).trans
  intro c'' hlast
  exact CanReach.head (automatic_recordSuccess _)
    (CanReach.refl (hlast.close hmissing))

end Probes

section Recovery

variable {timeout : Int64} (htimeout : config.timeout = some timeout)
  (hpos : 1 ≤ config.successThreshold.toNat)
  (hbudget : config.successThreshold.toNat ≤ config.maxHalfOpenRequests.toNat + 1)

include htimeout hpos hbudget

theorem recovers_of_opened (hstate : c.breaker.state = .opened) {t : Nat}
    (hopened : c.breaker.lastOpened = some t) (ht : t ≤ c.clock) : c.Recovers config := by
  have hprobe := probingWith_of_opened htimeout hstate hopened ht
  apply CanReach.head (automatic_isRequestAllowed _)
  exact hprobe.recovers_of_enough config.maxHalfOpenRequests.toNat (by omega) hpos (by omega)

/-- A half-open breaker with a probe under way can be opened again. -/
theorem ProbingWith.recovers_of_pending {places successes outstanding : Nat}
    (h : c.ProbingWith places successes (outstanding + 1)) : c.Recovers config := by
  obtain ⟨hstate, hopened⟩ := h.fail config
  apply CanReach.head (automatic_recordFailure _)
  exact recovers_of_opened htimeout hpos hbudget hstate hopened le_rfl

theorem Reached.recovers (h : c.Reached config) : c.Recovers config := by
  cases hstate : c.breaker.state with
  | closed => exact CanReach.refl hstate
  | disabled => exact absurd hstate h.enabled
  | opened =>
      obtain ⟨t, hopened, ht⟩ := h.opened hstate
      exact recovers_of_opened htimeout hpos hbudget hstate hopened ht
  | halfOpen =>
      obtain ⟨hcount, hbelow⟩ := h.halfOpen hstate
      have hprobe : c.ProbingWith c.breaker.halfOpenRequests.toNat
          c.breaker.consecutiveSuccesses.toNat c.outstanding := ⟨hstate, rfl, rfl, rfl⟩
      rcases Nat.eq_zero_or_pos c.outstanding with hzero | hsome
      · -- all probes have succeeded, so there are fewer of them than places
        have hnext : (c.step config (.instant 0 .isRequestAllowed)).ProbingWith
            (c.breaker.halfOpenRequests.toNat + 1) c.breaker.consecutiveSuccesses.toNat
            (c.outstanding + 1) := hprobe.admit (by omega)
        apply CanReach.head (automatic_isRequestAllowed _)
        exact hnext.recovers_of_pending htimeout hpos hbudget
      · obtain ⟨rest, hrest⟩ := Nat.exists_eq_add_of_le' hsome
        rw [hrest] at hprobe
        exact hprobe.recovers_of_pending htimeout hpos hbudget

end Recovery

section Invariant

variable (hpos : 1 ≤ config.successThreshold.toNat)

theorem reached_of_closed (h : c.breaker.state = .closed) : c.Reached config := by
  constructor <;> simp [h]

theorem reached_of_opened (h : c.breaker.state = .opened) {t : Nat}
    (hopened : c.breaker.lastOpened = some t) (ht : t ≤ c.clock) : c.Reached config := by
  constructor
  · simp [h]
  · exact fun _ => ⟨t, hopened, ht⟩
  · simp [h]

theorem reached_of_halfOpen (h : c.breaker.state = .halfOpen)
    (hcount : c.breaker.halfOpenRequests.toNat + 1 ≤
      c.breaker.consecutiveSuccesses.toNat + c.outstanding)
    (hbelow : c.breaker.consecutiveSuccesses.toNat < config.successThreshold.toNat) :
    c.Reached config := by
  constructor
  · simp [h]
  · simp [h]
  · exact fun _ => ⟨hcount, hbelow⟩

theorem Reached.later (h : c.Reached config) {clock : Nat} (hclock : c.clock ≤ clock) :
    ({ c with clock } : Served).Reached config where
  enabled := h.enabled
  opened hstate := by
    obtain ⟨t, hopened, ht⟩ := h.opened hstate
    exact ⟨t, hopened, ht.trans hclock⟩
  halfOpen := h.halfOpen

theorem clock_le_opened (a : Call) (clock : Nat) : clock ≤ (a.readings clock).opened :=
  (Nat.le_add_right _ _).trans ((Nat.le_add_right _ _).trans (Nat.le_add_right _ _))

include hpos in
theorem isRequestAllowed_reached (h : c.Reached config) {a : Call}
    (ha : a.request = .isRequestAllowed) : (c.step config a).Reached config := by
  cases hstate : c.breaker.state with
  | closed =>
      apply reached_of_closed
      simp [step, IsOutcome, ha, CircuitBreaker.after, CircuitBreaker.isRequestAllowed, hstate]
  | disabled => exact absurd hstate h.enabled
  | opened =>
      cases hexp : c.breaker.timeoutExpired config (a.readings c.clock).now with
      | false =>
          rw [step_of_refused ha (CircuitBreaker.isRequestAllowed_of_not_expired hstate hexp)]
          exact h.later (clock_le_opened a c.clock)
      | true =>
          rw [step_of_admitted ha (CircuitBreaker.isRequestAllowed_of_expired hstate hexp)]
          apply reached_of_halfOpen rfl
          · simp [CircuitBreaker.transitionToHalfOpen]
          · exact hpos
  | halfOpen =>
      obtain ⟨hcount, hbelow⟩ := h.halfOpen hstate
      by_cases hlt : c.breaker.halfOpenRequests < config.maxHalfOpenRequests
      · rw [step_of_admitted ha (CircuitBreaker.isRequestAllowed_of_place hstate hlt)]
        apply reached_of_halfOpen
        · exact hstate
        · simp only [UInt32.toNat_add, UInt32.toNat_one]
          omega
        · exact hbelow
      · rw [step_of_refused ha (CircuitBreaker.isRequestAllowed_of_full hstate hlt)]
        exact h.later (clock_le_opened a c.clock)

theorem recordSuccess_reached (h : c.Reached config) {a : Call}
    (ha : a.request = .recordSuccess) : (c.step config a).Reached config := by
  by_cases hnone : c.outstanding = 0
  · rw [step_of_none_outstanding (.inl ha) hnone]
    exact h.later (clock_le_opened a c.clock)
  cases hafter : c.breaker.after config (a.readings c.clock) a.request with
  | none =>
      rw [step_of_panic hnone hafter]
      exact h
  | some breaker =>
      rw [step_of_outcome (.inl ha) hnone hafter]
      rw [ha] at hafter
      obtain ⟨counted, hcounted, ⟨-, -, rfl⟩ | ⟨hnot, rfl⟩⟩ :=
        CircuitBreaker.recordSuccess_cases hafter
      · exact reached_of_closed rfl
      · rw [CircuitBreaker.countSuccess_eq hcounted]
        by_cases hstate : c.breaker.state = .halfOpen
        · obtain ⟨hcount, hbelow⟩ := h.halfOpen hstate
          have hprobe : c.ProbingWith c.breaker.halfOpenRequests.toNat
              c.breaker.consecutiveSuccesses.toNat c.outstanding := ⟨hstate, rfl, rfl, rfl⟩
          have hnext := hprobe.next_successes hbelow
          have hclose := hnot hstate
          rw [UInt32.le_iff_toNat_le, hnext] at hclose
          apply reached_of_halfOpen
          · exact hstate
          · simp only [hnext]
            omega
          · simp only [hnext]
            omega
        · refine ⟨h.enabled, fun hopened => ?_, fun hhalf => absurd hhalf hstate⟩
          obtain ⟨t, hlast, ht⟩ := h.opened hopened
          exact ⟨t, hlast, ht.trans (clock_le_opened a c.clock)⟩

theorem recordFailure_reached (h : c.Reached config) {a : Call}
    (ha : a.request = .recordFailure) : (c.step config a).Reached config := by
  by_cases hnone : c.outstanding = 0
  · rw [step_of_none_outstanding (.inr ha) hnone]
    exact h.later (clock_le_opened a c.clock)
  cases hafter : c.breaker.after config (a.readings c.clock) a.request with
  | none =>
      rw [step_of_panic hnone hafter]
      exact h
  | some breaker =>
      rw [step_of_outcome (.inr ha) hnone hafter]
      rw [ha] at hafter
      obtain ⟨counted, hcounted, ⟨-, rfl⟩ | ⟨-, hnot, rfl⟩⟩ :=
        CircuitBreaker.recordFailure_cases hafter
      · exact reached_of_opened rfl rfl le_rfl
      · rw [CircuitBreaker.countFailure_eq hcounted]
        refine ⟨h.enabled, fun hopened => ?_, fun hhalf => absurd hhalf hnot⟩
        obtain ⟨t, hlast, ht⟩ := h.opened hopened
        exact ⟨t, hlast, ht.trans (clock_le_opened a c.clock)⟩

include hpos in
theorem step_reached (h : c.Reached config) (a : Call) : (c.step config a).Reached config := by
  cases hrequest : a.request with
  | isRequestAllowed => exact isRequestAllowed_reached hpos h hrequest
  | recordSuccess => exact recordSuccess_reached h hrequest
  | recordFailure => exact recordFailure_reached h hrequest
  | trip =>
      have hstep : c.step config a =
          ⟨c.breaker.transitionToOpen (a.readings c.clock), (a.readings c.clock).opened,
            c.outstanding⟩ := by
        simp [step, IsOutcome, hrequest, CircuitBreaker.after, CircuitBreaker.admits]
      rw [hstep]
      exact reached_of_opened rfl rfl le_rfl
  | reset =>
      apply reached_of_closed
      simp [step, IsOutcome, hrequest, CircuitBreaker.after, CircuitBreaker.transitionToClosed]

end Invariant

section Stuck

/-- Half-open, all places taken, and no outcome to wait for. -/
structure Stuck (config : CircuitBreakerConfig) (c : Served) : Prop where
  state : c.breaker.state = .halfOpen
  full : ¬c.breaker.halfOpenRequests < config.maxHalfOpenRequests
  idle : c.outstanding = 0

theorem Stuck.never_recovers (h : c.Stuck config) : ¬c.Recovers config := by
  refine not_canReach_of_invariant (I := Stuck config) ?_ ?_ h
  · rintro a c ⟨hnotTrip, hnotReset⟩ hc
    cases hrequest : a.request with
    | isRequestAllowed =>
        rw [step_of_refused hrequest (CircuitBreaker.isRequestAllowed_of_full hc.state hc.full)]
        exact ⟨hc.state, hc.full, hc.idle⟩
    | recordSuccess =>
        rw [step_of_none_outstanding (.inl hrequest) hc.idle]
        exact ⟨hc.state, hc.full, hc.idle⟩
    | recordFailure =>
        rw [step_of_none_outstanding (.inr hrequest) hc.idle]
        exact ⟨hc.state, hc.full, hc.idle⟩
    | trip => exact absurd hrequest hnotTrip
    | reset => exact absurd hrequest hnotReset
  · intro c hc hclosed
    rw [hc.state] at hclosed
    cases hclosed

/-- A threshold beyond the budget: after a manual trip every probe succeeds and the
breaker stays half-open. -/
theorem exists_stuck {timeout : Int64} (htimeout : config.timeout = some timeout)
    (hbeyond : config.maxHalfOpenRequests.toNat + 1 < config.successThreshold.toNat)
    (clock : Nat) : ∃ requests, (run (step config) (start clock) requests).Stuck config := by
  have hprobe : ((start clock).step config (.instant 0 .trip) |>.step config
      (.instant (fromSecs timeout) .isRequestAllowed)).ProbingWith 0 0 1 :=
    probingWith_of_opened htimeout rfl rfl le_rfl
  have hfill := hprobe.fill (config.maxHalfOpenRequests.toNat) (Nat.zero_add _).le
  have hspend : ∀ c : Served, c.ProbingWith (0 + config.maxHalfOpenRequests.toNat) 0
      (1 + config.maxHalfOpenRequests.toNat) → CanReach (step config) Automatic
        (ProbingWith · (0 + config.maxHalfOpenRequests.toNat)
          (0 + (1 + config.maxHalfOpenRequests.toNat)) 0) c := by
    intro c hfull
    apply ProbingWith.spend
    · rwa [Nat.zero_add (1 + _)]
    · omega
  obtain ⟨requests, -, hend⟩ := hfill.trans hspend
  refine ⟨.instant 0 .trip :: .instant (fromSecs timeout) .isRequestAllowed :: requests,
    hend.state, ?_, hend.outstanding⟩
  have hplaces := hend.places
  rw [UInt32.lt_iff_toNat_lt]
  simp only [run_cons]
  omega

end Stuck

/-- Callers can close the breaker from every state that they reach if and only if the
threshold is within the budget of probes. -/
theorem recovers_iff (config : CircuitBreakerConfig) {timeout : Int64}
    (htimeout : config.timeout = some timeout) (hthreshold : 1 ≤ config.successThreshold.toNat) :
    (∀ (clock : Nat) (requests : List Call),
        (run (step config) (start clock) requests).Recovers config) ↔
      config.successThreshold.toNat ≤ config.maxHalfOpenRequests.toNat + 1 := by
  constructor
  · intro hall
    by_contra hbeyond
    obtain ⟨requests, hstuck⟩ := exists_stuck htimeout (not_le.mp hbeyond) 0
    exact hstuck.never_recovers (hall 0 requests)
  · intro hbudget clock requests
    have hstart : (start clock).Reached config := reached_of_closed rfl
    have hreached : Reached config (run (step config) (start clock) requests) :=
      run_invariant (I := Reached config) (fun a _ c h => step_reached hthreshold h a) hstart
    exact hreached.recovers htimeout hthreshold hbudget

def onePlace (successThreshold : UInt32) : CircuitBreakerConfig where
  failureStrategy := 0
  failureThreshold := 3
  successThreshold := successThreshold
  timeout := some 60
  slidingWindow := none
  maxHalfOpenRequests := 1

theorem recovers_iff_onePlace :
    (∀ (clock : Nat) (requests : List Call),
        (run (step (onePlace 2)) (start clock) requests).Recovers (onePlace 2)) ↔
      (onePlace 2).successThreshold.toNat ≤ (onePlace 2).maxHalfOpenRequests.toNat + 1 :=
  recovers_iff (onePlace 2) rfl (by decide)

theorem not_recovers :
    ¬∀ (config : CircuitBreakerConfig) (timeout : Int64), config.timeout = some timeout →
      1 ≤ config.successThreshold.toNat → 1 ≤ config.maxHalfOpenRequests.toNat →
        ∀ (clock : Nat) (requests : List Call),
          (run (step config) (start clock) requests).Recovers config := by
  intro h
  have hrecovers := h (onePlace 3) 60 rfl (by decide) (by decide) 0
    [.instant 0 .trip, .instant (fromSecs 60) .isRequestAllowed, .instant 0 .isRequestAllowed,
      .instant 0 .recordSuccess, .instant 0 .recordSuccess]
  refine Stuck.never_recovers ⟨?_, ?_, ?_⟩ hrecovers
  · decide +kernel
  · decide +kernel
  · decide +kernel

end Served

end PlexSpaces.Breaker
