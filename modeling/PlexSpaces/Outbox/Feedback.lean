import PlexSpaces.Outbox.Limiter
/-!
# Feedback from the deliveries

The relay tells the limiter of every delivery that it makes.  The limit should be
the fold of the outcomes: one more after a success, a half after congestion and
no change after a transient failure, always within the limits that the
validated configuration gives.
-/

namespace PlexSpaces.Outbox

open PlexSpaces.Lib

def validateConfig (concurrency : Option ConcurrencyConfig) (relayBatchSize : UInt64) :
    Except String Unit := do
  if let some cc := concurrency then
    if cc.minLimit > cc.maxLimit ∧ cc.maxLimit > 0 then
      throw "concurrency.min_limit > max_limit"
  if relayBatchSize > 10000 then
    throw "relay_batch_size exceeds 10,000"

/-- The limiter of a section; without one it has the default values. -/
def newLimiter (concurrency : Option ConcurrencyConfig) : Option ConcurrencyLimiter :=
  ConcurrencyLimiter.new (concurrency.getD {})

/-! ## What the limit should be -/

def calledFor (l : ConcurrencyLimiter) (limit : Nat) : Outcome → Nat
  | .delivered => min (limit + 1) l.maxLimit.toNat
  | .failed (.capacity _ _) _ => max (limit / 2) l.minLimit.toNat
  | .failed (.transient _) _ => limit

/-- The limit moves as the outcome calls for: a transient failure finds it at its maximum,
and neither such a failure nor a success finds it at the largest number. -/
def Settled (limiter : ConcurrencyLimiter) : Outcome → Prop
  | .delivered => limiter.currentLimit ≠ 4294967295
  | .failed (.capacity _ _) _ => True
  | .failed (.transient _) _ =>
      limiter.currentLimit = limiter.maxLimit ∧ limiter.currentLimit ≠ 4294967295

instance (limiter : ConcurrencyLimiter) : DecidablePred (Settled limiter)
  | .delivered => inferInstanceAs (Decidable (_ ≠ _))
  | .failed (.capacity _ _) _ => inferInstanceAs (Decidable True)
  | .failed (.transient _) _ => inferInstanceAs (Decidable (_ ∧ _))

namespace OutboxRelay

variable {σ : Type} (relay : OutboxRelay) (api : ChannelApi σ)

def processNext (st : RelayState σ) (next : Channel.Message × Outcome) : RelayState σ :=
  relay.processMessage api next.1 next.2 st

/-- At every point of the sequence the limit is the fold of the outcomes so far. -/
def Follows (l : ConcurrencyLimiter) (st : RelayState σ) (limit : Nat)
    (messages : List (Channel.Message × Outcome)) : Prop :=
  ∀ earlier, earlier <+: messages →
    (run (relay.processNext api) st earlier).limiter.currentLimit.toNat =
      (earlier.map Prod.snd).foldl (calledFor l) limit

end OutboxRelay

/-! ## One message -/

section Message

variable {l : ConcurrencyLimiter} {limit : UInt32}

def fedBack (l : ConcurrencyLimiter) (limit : UInt32) : Outcome → UInt32
  | .delivered | .failed (.transient _) _ => min (limit + 1) l.maxLimit
  | .failed (.capacity _ _) _ => max (limit / 2) l.minLimit

/-- With a permit to give and none given, the relay delivers the message. -/
theorem limiter_processMessage {σ : Type} (relay : OutboxRelay) (api : ChannelApi σ)
    {st : RelayState σ} (hlimiter : st.limiter = l.withAtomics limit 0) (haimd : l.strategy = .aimd)
    (hpos : 0 < limit) (message : Channel.Message) (outcome : Outcome) :
    (relay.processMessage api message outcome st).limiter =
      l.withAtomics (fedBack l limit outcome) 0 := by
  have hacquire : (l.withAtomics limit 0).tryAcquire = some (l.withAtomics limit 1) :=
    if_neg (UInt32.not_le.mpr hpos)
  have hrelease (next : UInt32) : (l.withAtomics limit 1).release next = l.withAtomics next 0 := by
    have hstrategy : (l.withAtomics limit 1).strategy = .aimd := haimd
    rw [ConcurrencyLimiter.release, if_pos hstrategy]
    exact congrArg (fun flight => l.withAtomics next flight) (UInt32.sub_self (a := 1))
  rw [OutboxRelay.processMessage]
  simp only [hlimiter, hacquire]
  cases outcome with
  | delivered => exact hrelease _
  | failed error now =>
      cases error with
      | capacity | transient =>
          dsimp only
          split <;> exact hrelease _

/-- The additive increase is capped unless the sum does not fit. -/
theorem toNat_increase :
    (min (limit + 1) l.maxLimit).toNat =
      if limit = 4294967295 then 0 else min (limit.toNat + 1) l.maxLimit.toNat := by
  by_cases hlast : limit = 4294967295
  · rw [if_pos hlast, hlast]
    rw [UInt32.toNat_min]
    exact Nat.zero_min _
  · rw [if_neg hlast, UInt32.toNat_min, ConcurrencyLimiter.toNat_succ]
    rw [← UInt32.toNat_inj] at hlast
    have hlt := limit.toNat_lt
    have hmax : (4294967295 : UInt32).toNat = 4294967295 := rfl
    omega

/-- The feedback of a delivery is what its outcome calls for, if the limiter is settled. -/
theorem toNat_fedBack_iff (hlimit : l.Bounded limit) (outcome : Outcome) :
    (fedBack l limit outcome).toNat = calledFor l limit.toNat outcome ↔
      Settled (l.withAtomics limit 0) outcome := by
  have hbound := UInt32.le_iff_toNat_le.mp hlimit.2
  have hlast : (4294967295 : UInt32).toNat = 4294967295 := rfl
  match outcome with
  | .delivered =>
      rw [fedBack, toNat_increase, calledFor, Settled, ConcurrencyLimiter.withAtomics, Ne]
      by_cases hmax : limit = 4294967295
      · have hpos : 0 < l.maxLimit.toNat := by
          rw [hmax, hlast] at hbound
          omega
        rw [if_pos hmax]
        simp only [hmax, not_true, iff_false]
        omega
      · rw [if_neg hmax]
        simp only [hmax, not_false_iff]
  | .failed (.transient _) _ =>
      rw [fedBack, toNat_increase, calledFor, Settled, ConcurrencyLimiter.withAtomics, Ne]
      by_cases hmax : limit = 4294967295
      · rw [if_pos hmax]
        simp [hmax, hlast]
      · rw [if_neg hmax]
        simp only [hmax, not_false_iff, and_true, ← UInt32.toNat_inj]
        omega
  | .failed (.capacity _ _) _ =>
      have hhalf : (limit / 2).toNat = limit.toNat / 2 := UInt32.toNat_div limit 2
      rw [fedBack, calledFor, Settled, UInt32.toNat_max, hhalf]
      exact iff_true_intro rfl

theorem bounded_fedBack (hlimit : l.Bounded limit) {outcome : Outcome}
    (hsettled : Settled (l.withAtomics limit 0) outcome) : l.Bounded (fedBack l limit outcome) := by
  have hfits (hne : limit ≠ 4294967295) : limit.toNat + 1 < 2 ^ 32 := by
    rw [Ne, ← UInt32.toNat_inj] at hne
    have hlt := limit.toNat_lt
    have hlast : (4294967295 : UInt32).toNat = 4294967295 := rfl
    omega
  match outcome with
  | .delivered => exact hlimit.succ (hfits hsettled)
  | .failed (.transient _) _ => exact hlimit.succ (hfits hsettled.2)
  | .failed (.capacity _ _) _ => exact hlimit.half

end Message

/-! ## A sequence of messages -/

namespace OutboxRelay

section Sequence

variable {σ : Type} {relay : OutboxRelay} {api : ChannelApi σ} {l : ConcurrencyLimiter}

theorem follows_nil {st : RelayState σ} {limit : Nat} :
    relay.Follows api l st limit [] ↔ st.limiter.currentLimit.toNat = limit := by
  rw [Follows]
  simp

theorem follows_cons {st : RelayState σ} {limit : Nat} {next : Channel.Message × Outcome}
    {messages : List (Channel.Message × Outcome)} :
    relay.Follows api l st limit (next :: messages) ↔
      st.limiter.currentLimit.toNat = limit ∧
        relay.Follows api l (relay.processNext api st next) (calledFor l limit next.2)
          messages := by
  simp only [Follows, List.prefix_cons_iff]
  constructor
  · intro h
    refine ⟨h [] (.inl rfl), fun earlier hprefix => ?_⟩
    exact h (next :: earlier) (.inr ⟨earlier, rfl, hprefix⟩)
  · rintro ⟨hnil, hcons⟩ earlier (rfl | ⟨earlier, rfl, hprefix⟩)
    · exact hnil
    · exact hcons earlier hprefix

theorem Follows.head {st : RelayState σ} {limit : Nat}
    {messages : List (Channel.Message × Outcome)} (h : relay.Follows api l st limit messages) :
    st.limiter.currentLimit.toNat = limit := h [] List.nil_prefix

/-- From a limiter with no permits given the limit follows the outcomes exactly if the limiter
is settled for each of them. -/
theorem follows_iff_along (haimd : l.strategy = .aimd) (hmin : 0 < l.minLimit)
    (messages : List (Channel.Message × Outcome)) {st : RelayState σ} {limit : UInt32}
    (hlimiter : st.limiter = l.withAtomics limit 0) (hlimit : l.Bounded limit) :
    relay.Follows api l st limit.toNat messages ↔
      Along (relay.processNext api) (fun st next => Settled st.limiter next.2) st messages := by
  induction messages generalizing st limit with
  | nil => simp [follows_nil, hlimiter, ConcurrencyLimiter.withAtomics, Along]
  | cons next messages ih =>
      have hpos : 0 < limit := UInt32.lt_of_lt_of_le hmin hlimit.1
      have hnext : (relay.processNext api st next).limiter =
          l.withAtomics (fedBack l limit next.2) 0 :=
        limiter_processMessage relay api hlimiter haimd hpos next.1 next.2
      have hhead : st.limiter.currentLimit.toNat = limit.toNat := by rw [hlimiter]; rfl
      rw [follows_cons, along_cons, and_iff_right hhead, hlimiter]
      by_cases hsettled : Settled (l.withAtomics limit 0) next.2
      · rw [← (toNat_fedBack_iff hlimit next.2).mpr hsettled,
          ih hnext (bounded_fedBack hlimit hsettled), and_iff_right hsettled]
      · refine iff_of_false (fun h => ?_) fun h => hsettled h.1
        have hfollows := h.head
        rw [hnext] at hfollows
        exact hsettled ((toNat_fedBack_iff hlimit next.2).mp hfollows)

end Sequence

end OutboxRelay

/-! ## Validated configurations -/

section Validated

variable {concurrency : Option ConcurrencyConfig} {relayBatchSize : UInt64}

/-- The limits of an accepted section are in order, if there is a maximum. -/
theorem minLimit_le_of_accepted (haccepted : validateConfig concurrency relayBatchSize = .ok ())
    (hmax : (concurrency.getD {}).maxLimit ≠ 0) :
    (concurrency.getD {}).minLimit ≤ (concurrency.getD {}).maxLimit := by
  cases concurrency with
  | none => exact UInt32.zero_le
  | some cc =>
      by_contra hnot
      have hlt : cc.minLimit > cc.maxLimit := UInt32.not_le.mp hnot
      have hpos : cc.maxLimit > 0 := UInt32.pos_iff_ne_zero.mpr hmax
      rw [validateConfig] at haccepted
      simp [hlt, hpos] at haccepted
      cases haccepted

/-- An accepted section has a limiter unless its minimum is above the default maximum. -/
theorem newLimiter_isSome_iff (haccepted : validateConfig concurrency relayBatchSize = .ok ()) :
    (∃ l, newLimiter concurrency = some l) ↔
      (concurrency.getD {}).maxLimit ≠ 0 ∨ (concurrency.getD {}).minLimit ≤ 10000 := by
  have horder := minLimit_le_of_accepted haccepted
  rw [newLimiter]
  generalize concurrency.getD {} = cc at horder ⊢
  have hnew : (∃ l, ConcurrencyLimiter.new cc = some l) ↔
      ConcurrencyLimiter.orDefault cc.minLimit 1 ≤
        ConcurrencyLimiter.orDefault cc.maxLimit 10000 := by
    rw [ConcurrencyLimiter.new, ← UInt32.not_lt]
    split
    · next hlt =>
        refine iff_of_false ?_ (not_not.mpr hlt)
        rintro ⟨_, h⟩
        cases h
    · next hle => exact iff_of_true ⟨_, rfl⟩ hle
  rw [hnew, ConcurrencyLimiter.orDefault, ConcurrencyLimiter.orDefault]
  by_cases hmax : cc.maxLimit = 0
  · rw [if_pos hmax]
    simp only [hmax, ne_eq, not_true, false_or]
    split
    · next hmin =>
        rw [hmin]
        exact iff_of_true (by decide) (by decide)
    · exact Iff.rfl
  · rw [if_neg hmax]
    refine iff_of_true ?_ (.inl hmax)
    split
    · exact UInt32.pos_iff_ne_zero.mpr hmax
    · exact horder hmax

variable {σ : Type} (relay : OutboxRelay) (api : ChannelApi σ) (st : RelayState σ)

/-- The configuration gives a limiter, and under AIMD the relay's limit is the fold of the
outcomes at every point of the sequence. -/
def FollowsOutcomes (concurrency : Option ConcurrencyConfig)
    (messages : List (Channel.Message × Outcome)) : Prop :=
  ∃ l, newLimiter concurrency = some l ∧
    (l.strategy = .aimd →
      relay.Follows api l { st with limiter := l } l.currentLimit.toNat messages)

/-- An accepted configuration has a limiter that follows the outcomes, exactly if its minimum is
not above the default maximum when that is used, and under AIMD the limiter is settled for
every outcome of the sequence. -/
theorem followsOutcomes_iff (messages : List (Channel.Message × Outcome))
    (haccepted : validateConfig concurrency relayBatchSize = .ok ()) :
    FollowsOutcomes relay api st concurrency messages ↔
      ((concurrency.getD {}).maxLimit ≠ 0 ∨ (concurrency.getD {}).minLimit ≤ 10000) ∧
      ∀ l, newLimiter concurrency = some l → l.strategy = .aimd →
        Along (relay.processNext api) (fun st next => Settled st.limiter next.2)
          { st with limiter := l } messages := by
  have hfollows {l : ConcurrencyLimiter} (hl : newLimiter concurrency = some l)
      (haimd : l.strategy = .aimd) :
      relay.Follows api l { st with limiter := l } l.currentLimit.toNat messages ↔
        Along (relay.processNext api) (fun st next => Settled st.limiter next.2)
          { st with limiter := l } messages := by
    obtain ⟨⟨hflight, -, hbounded⟩, -⟩ := SharedLimiter.new_spec hl
    have hstart : l = l.withAtomics l.currentLimit 0 := by rw [← hflight]; rfl
    exact OutboxRelay.follows_iff_along haimd (SharedLimiter.new_minLimit_pos hl) messages hstart
      hbounded
  rw [← newLimiter_isSome_iff haccepted]
  constructor
  · rintro ⟨l, hl, h⟩
    refine ⟨⟨l, hl⟩, fun l' hl' haimd => ?_⟩
    cases hl.symm.trans hl'
    exact (hfollows hl haimd).mp (h haimd)
  · rintro ⟨⟨l, hl⟩, h⟩
    exact ⟨l, hl, fun haimd => (hfollows hl haimd).mpr (h l hl haimd)⟩

end Validated

def idleChannel : ChannelApi Unit where
  send _ _ := (true, ())
  tryReceive _ _ := ([], ())
  ack _ _ := ()
  nack _ _ _ _ := ()

def idleRelay : OutboxRelay := .new {}

/-- A relay before its first message, with the default limiter. -/
def idleState : RelayState Unit where
  channel := ()
  limiter := { currentLimit := 100, minLimit := 1, maxLimit := 10000, strategy := .aimd }

def narrow : ConcurrencyConfig := { initialLimit := 4, minLimit := 1, maxLimit := 5 }

/-- The limit goes up to its maximum, stays there, is halved and goes up again. -/
def upAndDown : List (Channel.Message × Outcome) :=
  [({ id := "m1" }, .delivered), ({ id := "m2" }, .failed (.transient "connection reset") 0),
    ({ id := "m3" }, .failed (.capacity "mailbox full" 50) 0), ({ id := "m4" }, .delivered)]

theorem followsOutcomes_iff_upAndDown :
    FollowsOutcomes idleRelay idleChannel idleState (some narrow) upAndDown := by
  have haccepted : validateConfig (some narrow) 100 = .ok () := rfl
  refine (followsOutcomes_iff idleRelay idleChannel idleState upAndDown haccepted).mpr
    ⟨.inl (by decide), fun l hl _ => ?_⟩
  cases hl
  decide

/-- A transient failure below the maximum: the limit goes up. -/
theorem not_followsOutcomes :
    ¬∀ (concurrency : Option ConcurrencyConfig) (relayBatchSize : UInt64)
      (messages : List (Channel.Message × Outcome)),
      validateConfig concurrency relayBatchSize = .ok () →
      FollowsOutcomes idleRelay idleChannel idleState concurrency messages := by
  intro h
  let messages : List (Channel.Message × Outcome) :=
    [({ id := "m" }, .failed (.transient "connection reset") 0)]
  obtain ⟨l, hl, hfollows⟩ := h none 0 messages rfl
  cases hl
  exact absurd (hfollows rfl messages List.prefix_rfl) (by decide)

end PlexSpaces.Outbox
