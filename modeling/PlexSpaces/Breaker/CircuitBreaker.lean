import Mathlib.Data.UInt
/-!
# Circuit breaker

`CircuitBreakerState` with every transition.  The breaker is closed, open, half-open
or disabled; requests are admitted by `isRequestAllowed` and their outcomes recorded
by `recordSuccess` and `recordFailure`.  An open breaker becomes half-open in the call
of `isRequestAllowed` that finds the timeout over.

Clock readings are in nanoseconds since the earliest instant that the clock can
represent.  An operation reads the clock up to three times; `Instant - Duration` panics
when the result would be earlier than that, and a panic aborts the process.  The 32-bit
counters wrap.  The counters that only feed the metrics are left out.
-/

namespace PlexSpaces.Breaker

inductive CircuitState
  | closed
  | opened
  | halfOpen
  | disabled
  deriving DecidableEq

inductive FailureStrategy
  | consecutive
  | slidingWindow
  | errorRate
  | custom
  deriving DecidableEq

/-- `FailureStrategy::try_from`. -/
def FailureStrategy.tryFrom : Int → Option FailureStrategy
  | 0 => some consecutive
  | 1 => some slidingWindow
  | 2 => some errorRate
  | 3 => some custom
  | _ => none

structure SlidingWindowConfig where
  windowSize : UInt32
  windowDuration : Option Int64
  minimumRequests : UInt32

structure CircuitBreakerConfig where
  failureStrategy : Int
  failureThreshold : UInt32
  successThreshold : UInt32
  timeout : Option Int64
  slidingWindow : Option SlidingWindowConfig
  maxHalfOpenRequests : UInt32

/-- `FailureStrategy::try_from(..).unwrap_or(..)`. -/
def CircuitBreakerConfig.strategy (config : CircuitBreakerConfig) : FailureStrategy :=
  (FailureStrategy.tryFrom config.failureStrategy).getD .consecutive

/-- `Duration::from_secs(seconds as u64)`, in nanoseconds. -/
def fromSecs (seconds : Int64) : Nat := seconds.toUInt64.toNat * 1000000000

structure RequestRecord where
  success : Bool
  timestamp : Nat
  deriving DecidableEq

structure CircuitBreaker where
  state : CircuitState
  consecutiveFailures : UInt32
  consecutiveSuccesses : UInt32
  requestWindow : List RequestRecord
  lastOpened : Option Nat
  halfOpenRequests : UInt32
  deriving DecidableEq

/-- What the clock shows during an operation: first, when a cutoff is computed, and when the breaker
opens. -/
structure Readings where
  now : Nat
  cutoff : Nat
  opened : Nat

/-- `Instant - Duration`; `none` when it panics. -/
def subDuration (instant duration : Nat) : Option Nat :=
  if duration ≤ instant then some (instant - duration) else none

namespace CircuitBreaker

def new : CircuitBreaker where
  state := .closed
  consecutiveFailures := 0
  consecutiveSuccesses := 0
  requestWindow := []
  lastOpened := none
  halfOpenRequests := 0

variable (config : CircuitBreakerConfig) (now : Nat) (t : Readings) (b : CircuitBreaker)

def transitionToOpen : CircuitBreaker :=
  { b with
    state := .opened
    lastOpened := some t.opened
    halfOpenRequests := 0 }

def transitionToHalfOpen : CircuitBreaker :=
  { b with
    state := .halfOpen
    consecutiveSuccesses := 0
    consecutiveFailures := 0
    halfOpenRequests := 0 }

def transitionToClosed : CircuitBreaker :=
  { b with
    state := .closed
    consecutiveFailures := 0
    consecutiveSuccesses := 0
    halfOpenRequests := 0 }

def timeoutExpired : Bool :=
  match config.timeout, b.lastOpened with
  | some timeout, some openedAt => decide (fromSecs timeout ≤ now - openedAt)
  | _, _ => false

def isRequestAllowed : Bool × CircuitBreaker :=
  match b.state with
  | .closed => (true, b)
  | .opened =>
      if timeoutExpired config now b then (true, b.transitionToHalfOpen) else (false, b)
  | .halfOpen =>
      if b.halfOpenRequests < config.maxHalfOpenRequests then
        (true, { b with halfOpenRequests := b.halfOpenRequests + 1 })
      else (false, b)
  | .disabled => (true, b)

/-- The window without the records that its duration has left behind. -/
def removeOld (window : List RequestRecord) : Option Int64 → Option (List RequestRecord)
  | none => some window
  | some d => do
      let cutoff ← subDuration t.cutoff (fromSecs d)
      return window.dropWhile fun oldest => decide (oldest.timestamp < cutoff)

/-- `add_to_window`; `none` when it panics. -/
def addToWindow (success : Bool) : Option CircuitBreaker :=
  match config.slidingWindow with
  | some w => do
      let window ← removeOld t (b.requestWindow ++ [⟨success, t.now⟩]) w.windowDuration
      return { b with requestWindow := window.drop (window.length - w.windowSize.toNat) }
  | none => some b

def countFailuresInWindow : UInt32 :=
  UInt32.ofNat (b.requestWindow.countP fun r => !r.success)

def shouldTrip : Bool :=
  match config.strategy with
  | .consecutive => decide (config.failureThreshold ≤ b.consecutiveFailures)
  | .slidingWindow =>
      match config.slidingWindow with
      | some w =>
          if UInt32.ofNat b.requestWindow.length < w.minimumRequests then false
          else decide (config.failureThreshold ≤ b.countFailuresInWindow)
      | none => false
  | .errorRate =>
      match config.slidingWindow with
      | some w =>
          if UInt32.ofNat b.requestWindow.length < w.minimumRequests then false
          else
            let errorRate := b.countFailuresInWindow.toNat.toFloat /
              (UInt32.ofNat b.requestWindow.length).toNat.toFloat
            decide (config.failureThreshold.toNat.toFloat / 100 ≤ errorRate)
      | none => false
  | .custom => false

/-- The counters and the window with one more success. -/
def countSuccess : Option CircuitBreaker :=
  addToWindow config t
    { b with
      consecutiveFailures := 0
      consecutiveSuccesses := b.consecutiveSuccesses + 1 } true

/-- The counters and the window with one more failure. -/
def countFailure : Option CircuitBreaker :=
  addToWindow config t
    { b with
      consecutiveFailures := b.consecutiveFailures + 1
      consecutiveSuccesses := 0 } false

def recordSuccess : Option CircuitBreaker := do
  let b ← b.countSuccess config t
  return if b.state = .halfOpen ∧ config.successThreshold ≤ b.consecutiveSuccesses then
    b.transitionToClosed
  else b

def recordFailure : Option CircuitBreaker := do
  let b ← b.countFailure config t
  return match b.state with
    | .closed => if shouldTrip config b then b.transitionToOpen t else b
    | .halfOpen => b.transitionToOpen t
    | _ => b

section Admission

variable {config now b}

theorem isRequestAllowed_of_expired (hstate : b.state = .opened)
    (hexp : b.timeoutExpired config now = true) :
    b.isRequestAllowed config now = (true, b.transitionToHalfOpen) := by
  simp [isRequestAllowed, hstate, hexp]

theorem isRequestAllowed_of_not_expired (hstate : b.state = .opened)
    (hexp : b.timeoutExpired config now = false) :
    b.isRequestAllowed config now = (false, b) := by
  simp [isRequestAllowed, hstate, hexp]

theorem isRequestAllowed_of_place (hstate : b.state = .halfOpen)
    (hlt : b.halfOpenRequests < config.maxHalfOpenRequests) :
    b.isRequestAllowed config now =
      (true, { b with halfOpenRequests := b.halfOpenRequests + 1 }) := by
  simp [isRequestAllowed, hstate, hlt]

theorem isRequestAllowed_of_full (hstate : b.state = .halfOpen)
    (hfull : ¬b.halfOpenRequests < config.maxHalfOpenRequests) :
    b.isRequestAllowed config now = (false, b) := by
  simp [isRequestAllowed, hstate, hfull]

end Admission

section Counting

variable {config t b} {b' : CircuitBreaker}

theorem addToWindow_eq {success : Bool} (h : b.addToWindow config t success = some b') :
    b' = { b with requestWindow := b'.requestWindow } := by
  unfold addToWindow at h
  split at h
  · obtain ⟨window, -, hb'⟩ := Option.bind_eq_some_iff.mp h
    cases hb'
    rfl
  · cases h
    rfl

/-- A success that is recorded changes the counters and the window. -/
theorem countSuccess_eq (h : b.countSuccess config t = some b') :
    b' = { b with
      consecutiveFailures := 0
      consecutiveSuccesses := b.consecutiveSuccesses + 1
      requestWindow := b'.requestWindow } := addToWindow_eq h

/-- A failure that is recorded changes the counters and the window. -/
theorem countFailure_eq (h : b.countFailure config t = some b') :
    b' = { b with
      consecutiveFailures := b.consecutiveFailures + 1
      consecutiveSuccesses := 0
      requestWindow := b'.requestWindow } := addToWindow_eq h

/-- A call of `record_success` that returns counts, and may close a half-open breaker. -/
theorem recordSuccess_cases (h : b.recordSuccess config t = some b') :
    ∃ counted, b.countSuccess config t = some counted ∧
      (b.state = .halfOpen ∧ config.successThreshold ≤ b.consecutiveSuccesses + 1 ∧
          b' = counted.transitionToClosed ∨
        (b.state = .halfOpen → ¬config.successThreshold ≤ b.consecutiveSuccesses + 1) ∧
          b' = counted) := by
  obtain ⟨counted, hcounted, hb'⟩ := Option.bind_eq_some_iff.mp h
  have hcount := countSuccess_eq hcounted
  have hstate : counted.state = b.state := by rw [hcount]
  have hsuccesses : counted.consecutiveSuccesses = b.consecutiveSuccesses + 1 := by rw [hcount]
  refine ⟨counted, hcounted, ?_⟩
  rw [hstate, hsuccesses] at hb'
  cases hb'
  split_ifs with hcloses
  · exact .inl ⟨hcloses.1, hcloses.2, rfl⟩
  · exact .inr ⟨fun hhalf hle => hcloses ⟨hhalf, hle⟩, rfl⟩

theorem recordSuccess_of_closes {counted : CircuitBreaker}
    (h : b.countSuccess config t = some counted) (hstate : b.state = .halfOpen)
    (hle : config.successThreshold ≤ b.consecutiveSuccesses + 1) :
    b.recordSuccess config t = some counted.transitionToClosed := by
  have hcount := countSuccess_eq h
  have hcloses : counted.state = .halfOpen ∧
      config.successThreshold ≤ counted.consecutiveSuccesses := by
    rw [hcount]
    exact ⟨hstate, hle⟩
  rw [recordSuccess, h]
  exact congrArg some (if_pos hcloses)

theorem recordSuccess_of_not_closes {counted : CircuitBreaker}
    (h : b.countSuccess config t = some counted)
    (hnot : b.state = .halfOpen → ¬config.successThreshold ≤ b.consecutiveSuccesses + 1) :
    b.recordSuccess config t = some counted := by
  have hcount := countSuccess_eq h
  have hcloses : ¬(counted.state = .halfOpen ∧
      config.successThreshold ≤ counted.consecutiveSuccesses) := by
    rw [hcount]
    exact fun hcloses => hnot hcloses.1 hcloses.2
  rw [recordSuccess, h]
  exact congrArg some (if_neg hcloses)

theorem recordFailure_of_halfOpen {counted : CircuitBreaker}
    (h : b.countFailure config t = some counted) (hstate : b.state = .halfOpen) :
    b.recordFailure config t = some (counted.transitionToOpen t) := by
  have hcounted : counted.state = .halfOpen := by
    rw [countFailure_eq h]
    exact hstate
  rw [recordFailure, h]
  change some _ = _
  rw [hcounted]

/-- A call of `record_failure` that returns counts, and may open the breaker. -/
theorem recordFailure_cases (h : b.recordFailure config t = some b') :
    ∃ counted, b.countFailure config t = some counted ∧
      ((b.state = .closed ∧ counted.shouldTrip config = true ∨ b.state = .halfOpen) ∧
          b' = counted.transitionToOpen t ∨
        (b.state = .closed → counted.shouldTrip config = false) ∧ b.state ≠ .halfOpen ∧
          b' = counted) := by
  obtain ⟨counted, hcounted, hb'⟩ := Option.bind_eq_some_iff.mp h
  have hstate : counted.state = b.state := by rw [countFailure_eq hcounted]
  refine ⟨counted, hcounted, ?_⟩
  rw [hstate] at hb'
  cases hcase : b.state with
  | closed =>
      rw [hcase] at hb'
      cases htrip : counted.shouldTrip config with
      | true =>
          rw [htrip] at hb'
          exact .inl ⟨.inl ⟨rfl, rfl⟩, (Option.some.inj hb').symm⟩
      | false =>
          rw [htrip] at hb'
          exact .inr ⟨fun _ => rfl, nofun, (Option.some.inj hb').symm⟩
  | halfOpen =>
      rw [hcase] at hb'
      exact .inl ⟨.inr rfl, (Option.some.inj hb').symm⟩
  | opened | disabled =>
      rw [hcase] at hb'
      exact .inr ⟨nofun, nofun, (Option.some.inj hb').symm⟩

end Counting

end CircuitBreaker

/-- An operation of the breaker. -/
inductive Request
  | isRequestAllowed
  | recordSuccess
  | recordFailure
  | trip
  | reset
  deriving DecidableEq

/-- A call: the time since the one before, and the times between its readings of the clock. -/
structure Call where
  elapsed : Nat
  request : Request
  toCutoff : Nat
  toOpened : Nat

def Call.instant (elapsed : Nat) (request : Request) : Call := ⟨elapsed, request, 0, 0⟩

/-- The readings of a call that comes after some instant. -/
def Call.readings (a : Call) (clock : Nat) : Readings where
  now := clock + a.elapsed
  cutoff := clock + a.elapsed + a.toCutoff
  opened := clock + a.elapsed + a.toCutoff + a.toOpened

namespace CircuitBreaker

variable (config : CircuitBreakerConfig) (t : Readings) (b : CircuitBreaker)

def after : Request → Option CircuitBreaker
  | .isRequestAllowed => some (b.isRequestAllowed config t.now).2
  | .recordSuccess => b.recordSuccess config t
  | .recordFailure => b.recordFailure config t
  | .trip => some (b.transitionToOpen t)
  | .reset => some b.transitionToClosed

/-- The operation is an `isRequestAllowed` that returns `true`. -/
def admits : Request → Bool
  | .isRequestAllowed => (b.isRequestAllowed config t.now).1
  | _ => false

end CircuitBreaker

end PlexSpaces.Breaker
