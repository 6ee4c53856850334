import PlexSpaces.Breaker.CircuitBreaker
import PlexSpaces.Lib.Run
/-!
# Admissions while half-open

The requests that a half-open breaker admits, from the transition on.  The call that
performs the transition admits its request without counting it, so the number of
admissions is one more than `halfOpenRequests` (`admitted_step`), and the
configured bound is passed by the call that takes the last counted place
(`admissions_bounded_iff`).
-/

namespace PlexSpaces.Breaker

open PlexSpaces.Lib

/-- The breaker with its clock, and the number of requests admitted since it became
half-open; `0` in the other states. -/
structure Probing where
  breaker : CircuitBreaker
  clock : Nat
  admitted : Nat

namespace CircuitBreaker

variable {config : CircuitBreakerConfig} {t : Readings} {b b' : CircuitBreaker}

/-- How a breaker is half-open after an operation: it became so, it admitted one more
request, or it stays as it is. -/
theorem after_halfOpen_cases {r : Request} (hafter : b.after config t r = some b')
    (h : b'.state = .halfOpen) :
    (b.state = .opened ∧ r = .isRequestAllowed ∧ b.timeoutExpired config t.now = true ∧
      b.admits config t r = true ∧ b'.halfOpenRequests = 0) ∨
    (b.state = .halfOpen ∧ r = .isRequestAllowed ∧
      b.halfOpenRequests < config.maxHalfOpenRequests ∧ b.admits config t r = true ∧
      b'.halfOpenRequests = b.halfOpenRequests + 1) ∨
    (b.state = .halfOpen ∧
      (r = .isRequestAllowed → ¬b.halfOpenRequests < config.maxHalfOpenRequests) ∧
      b.admits config t r = false ∧ b'.halfOpenRequests = b.halfOpenRequests) := by
  cases r with
  | isRequestAllowed =>
      cases hafter
      simp only [admits] at h ⊢
      cases hstate : b.state with
      | closed => simp [isRequestAllowed, hstate] at h
      | disabled => simp [isRequestAllowed, hstate] at h
      | opened =>
          cases hexp : b.timeoutExpired config t.now with
          | false => simp [isRequestAllowed_of_not_expired hstate hexp, hstate] at h
          | true => simp [isRequestAllowed_of_expired hstate hexp, transitionToHalfOpen]
      | halfOpen =>
          by_cases hlt : b.halfOpenRequests < config.maxHalfOpenRequests
          · simp [isRequestAllowed_of_place hstate hlt, hlt]
          · simp [isRequestAllowed_of_full hstate hlt, hlt]
  | recordSuccess =>
      obtain ⟨counted, hcounted, ⟨-, -, rfl⟩ | ⟨-, rfl⟩⟩ := recordSuccess_cases hafter
      · cases h
      · rw [countSuccess_eq hcounted] at h ⊢
        exact .inr (.inr ⟨h, fun hr => (by cases hr), rfl, rfl⟩)
  | recordFailure =>
      obtain ⟨counted, hcounted, ⟨-, rfl⟩ | ⟨-, hnot, rfl⟩⟩ := recordFailure_cases hafter
      · cases h
      · rw [countFailure_eq hcounted] at h
        exact absurd h hnot
  | trip =>
      cases hafter
      cases h
  | reset =>
      cases hafter
      cases h

theorem isRequestAllowed_of_halfOpen {now : Nat} (hstate : b.state = .halfOpen) :
    (b.isRequestAllowed config now).2.state = .halfOpen := by
  by_cases hlt : b.halfOpenRequests < config.maxHalfOpenRequests
  · rw [isRequestAllowed_of_place hstate hlt]
    exact hstate
  · rw [isRequestAllowed_of_full hstate hlt]
    exact hstate

end CircuitBreaker

namespace Probing

variable (config : CircuitBreakerConfig)

def start (clock : Nat) : Probing := ⟨CircuitBreaker.new, clock, 0⟩

/-- One call; a call that panics ends the process, and nothing is seen of it. -/
def step (p : Probing) (a : Call) : Probing :=
  match p.breaker.after config (a.readings p.clock) a.request with
  | none => p
  | some breaker =>
      { breaker := breaker
        clock := (a.readings p.clock).opened
        admitted :=
          if breaker.state = .halfOpen then
            (if p.breaker.state = .halfOpen then p.admitted else 0) +
              (if p.breaker.admits config (a.readings p.clock) a.request then 1 else 0)
          else 0 }

/-- At most `max_half_open_requests` admissions since the transition. -/
def Bounded (p : Probing) : Prop := p.admitted ≤ config.maxHalfOpenRequests.toNat

/-- The call does not take the last counted place of a half-open breaker, and does not
make a breaker half-open that has no places. -/
def LeavesAPlace (p : Probing) (a : Call) : Prop :=
  a.request = .isRequestAllowed →
    (p.breaker.state = .halfOpen →
      p.breaker.halfOpenRequests.toNat + 1 ≠ config.maxHalfOpenRequests.toNat) ∧
    (p.breaker.state = .opened →
      p.breaker.timeoutExpired config (a.readings p.clock).now = true →
        config.maxHalfOpenRequests.toNat ≠ 0)

/-- The admission that made the breaker half-open is not in its counter. -/
structure Counted (p : Probing) : Prop where
  halfOpen : p.breaker.state = .halfOpen →
    p.admitted = p.breaker.halfOpenRequests.toNat + 1 ∧ p.Bounded config
  other : p.breaker.state ≠ .halfOpen → p.admitted = 0

theorem start_counted (clock : Nat) : (start clock).Counted config :=
  ⟨nofun, fun _ => rfl⟩

variable {config} {p : Probing} {a : Call}

theorem step_of_panic (h : p.breaker.after config (a.readings p.clock) a.request = none) :
    p.step config a = p := by
  rw [step, h]

theorem step_of_after {breaker : CircuitBreaker}
    (h : p.breaker.after config (a.readings p.clock) a.request = some breaker) :
    p.step config a =
      { breaker := breaker
        clock := (a.readings p.clock).opened
        admitted :=
          if breaker.state = .halfOpen then
            (if p.breaker.state = .halfOpen then p.admitted else 0) +
              (if p.breaker.admits config (a.readings p.clock) a.request then 1 else 0)
          else 0 } := by
  rw [step, h]

theorem admitted_step (hp : p.Counted config)
    (hstate : (p.step config a).breaker.state = .halfOpen) :
    (p.step config a).admitted = (p.step config a).breaker.halfOpenRequests.toNat + 1 := by
  cases hafter : p.breaker.after config (a.readings p.clock) a.request with
  | none =>
      rw [step_of_panic hafter] at hstate ⊢
      exact (hp.halfOpen hstate).1
  | some breaker =>
      rw [step_of_after hafter] at hstate ⊢
      dsimp only at hstate ⊢
      rw [if_pos hstate]
      rcases CircuitBreaker.after_halfOpen_cases hafter hstate with
        ⟨hopen, -, -, hadmits, hcount⟩ | ⟨hhalf, -, hlt, hadmits, hcount⟩ |
        ⟨hhalf, -, hadmits, hcount⟩
      · simp [hopen, hadmits, hcount]
      · have hlt' := UInt32.lt_iff_toNat_lt.mp hlt
        have hmax := config.maxHalfOpenRequests.toNat_lt
        simp [hhalf, hadmits, hcount, (hp.halfOpen hhalf).1]
        omega
      · simp [hhalf, hadmits, hcount, (hp.halfOpen hhalf).1]

/-- A step keeps the bound if and only if it leaves a place. -/
theorem leavesAPlace_iff (hp : p.Counted config) (a : Call) :
    p.LeavesAPlace config a ↔ (p.step config a).Bounded config := by
  cases hafter : p.breaker.after config (a.readings p.clock) a.request with
  | none =>
      rw [step_of_panic hafter]
      refine iff_of_true (fun hallowed => ?_) ?_
      · rw [hallowed] at hafter
        cases hafter
      · by_cases hstate : p.breaker.state = .halfOpen
        · exact (hp.halfOpen hstate).2
        · rw [Bounded, hp.other hstate]
          exact Nat.zero_le _
  | some breaker =>
      by_cases hstate : breaker.state = .halfOpen
      · have hhalfOpen : (p.step config a).breaker.state = .halfOpen := by
          rw [step_of_after hafter]
          exact hstate
        have hsame : (p.step config a).breaker = breaker := by rw [step_of_after hafter]
        rw [Bounded, admitted_step hp hhalfOpen, hsame]
        rcases CircuitBreaker.after_halfOpen_cases hafter hstate with
          ⟨hopen, hreq, hexp, -, hcount⟩ | ⟨hhalf, hreq, hlt, -, hcount⟩ |
          ⟨hhalf, hreq, -, hcount⟩
        · simp only [LeavesAPlace, hreq, hopen, hexp, hcount]
          simp
          omega
        · have hlt' := UInt32.lt_iff_toNat_lt.mp hlt
          have hmax := config.maxHalfOpenRequests.toNat_lt
          have hone : breaker.halfOpenRequests.toNat =
              p.breaker.halfOpenRequests.toNat + 1 := by
            simp [hcount]
            omega
          simp only [LeavesAPlace, hreq, hhalf, hone]
          simp
          omega
        · have hbound := (hp.halfOpen hhalf).2
          rw [Bounded, (hp.halfOpen hhalf).1] at hbound
          rw [hcount]
          refine iff_of_true (fun hallowed => ?_) hbound
          have hfull := hreq hallowed
          rw [UInt32.lt_iff_toNat_lt] at hfull
          refine ⟨fun _ => by omega, fun hopen => ?_⟩
          rw [hhalf] at hopen
          cases hopen
      · have hzero : (p.step config a).admitted = 0 := by
          rw [step_of_after hafter]
          exact if_neg hstate
        have hbound : (p.step config a).Bounded config := by
          rw [Bounded, hzero]
          exact Nat.zero_le _
        refine iff_of_true (fun hallowed => ?_) hbound
        rw [hallowed] at hafter
        cases hafter
        -- a call that finds the breaker half-open, or its timeout over, leaves it half-open
        refine ⟨fun hhalf => absurd ?_ hstate, fun hopen hexp => absurd ?_ hstate⟩
        · exact CircuitBreaker.isRequestAllowed_of_halfOpen hhalf
        · rw [CircuitBreaker.isRequestAllowed_of_expired hopen hexp]
          rfl

theorem step_counted (hp : p.Counted config) (hgood : p.LeavesAPlace config a) :
    (p.step config a).Counted config where
  halfOpen hstate := ⟨admitted_step hp hstate, (leavesAPlace_iff hp a).mp hgood⟩
  other hstate := by
    cases hafter : p.breaker.after config (a.readings p.clock) a.request with
    | none =>
        rw [step_of_panic hafter] at hstate ⊢
        exact hp.other hstate
    | some breaker =>
        rw [step_of_after hafter] at hstate ⊢
        exact if_neg hstate

/-- The admissions stay bounded after every step of a run if and only if every call
leaves a place. -/
theorem admissions_bounded_iff (config : CircuitBreakerConfig) (clock : Nat)
    (requests : List Call) :
    Along (step config) (fun p a => (p.step config a).Bounded config) (start clock) requests ↔
      Along (step config) (LeavesAPlace config) (start clock) requests := by
  refine (along_congr (I := Counted config) ?_ ?_ (start_counted config clock) requests).symm
  · intro p a hp
    exact leavesAPlace_iff hp a
  · intro p a hp hgood
    exact step_counted hp hgood

/-- Two requests are to be admitted, three are: the call that finds the timeout over,
and two more. -/
def threeProbes : List Call :=
  [.instant 0 .trip, .instant (fromSecs 60) .isRequestAllowed, .instant 0 .isRequestAllowed,
    .instant 0 .isRequestAllowed]

def twoPlaces : CircuitBreakerConfig where
  failureStrategy := 0
  failureThreshold := 3
  successThreshold := 2
  timeout := some 60
  slidingWindow := none
  maxHalfOpenRequests := 2

theorem not_admissions_bounded :
    ¬∀ (config : CircuitBreakerConfig) (clock : Nat) (requests : List Call),
      Along (step config) (fun p a => (p.step config a).Bounded config) (start clock)
        requests := by
  intro h
  have hlast := (h twoPlaces 0 threeProbes).2.2.2.1
  revert hlast
  unfold Bounded
  decide +kernel

end Probing

end PlexSpaces.Breaker
