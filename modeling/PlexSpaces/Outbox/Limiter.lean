import PlexSpaces.Lib.Run
import PlexSpaces.Outbox.Relay
import Mathlib.Algebra.Order.Group.Nat
import Mathlib.Data.List.Basic
/-!
# The concurrency limiter under contention

Many callers share the two atomics of the limiter.  A caller moves by one atomic
operation at a time: a load, a compare-exchange that fails when the value has
changed and may fail without cause, or the decrement with which a permit is
dropped.  Between two operations of a caller the others move.
-/

namespace PlexSpaces.Outbox

open PlexSpaces.Lib

/-- Where a call of `try_acquire` stands, or the permit that it gave. -/
inductive Caller where
  | acquiring
  | loadedInFlight (current : UInt32)
  | loadedLimit (current limit : UInt32)
  | refused
  | holding
  | succeeding
  | loadedForSuccess (current : UInt32)
  | rejecting
  | loadedForRejection (current : UInt32)
  | dropping
  | finished
deriving DecidableEq, Repr

namespace Caller

/-- The permit lives until the decrement of its drop. -/
def hasPermit : Caller → Bool
  | acquiring | loadedInFlight _ | loadedLimit _ _ | refused | finished => false
  | holding | succeeding | loadedForSuccess _ | rejecting | loadedForRejection _ | dropping => true

/-- The value to which the next operation of the caller adds one. -/
def addend : Caller → Option UInt32
  | loadedLimit current _ | loadedForSuccess current => some current
  | _ => none

/-- The next atomic operation; `spurious` makes a weak compare-exchange fail. -/
def advance (spurious : Bool) (limiter : ConcurrencyLimiter) :
    Caller → Caller × ConcurrencyLimiter
  | acquiring => (loadedInFlight limiter.inFlight, limiter)
  | loadedInFlight current =>
      if limiter.currentLimit ≤ current then (refused, limiter)
      else (loadedLimit current limiter.currentLimit, limiter)
  | loadedLimit current _ =>
      if limiter.inFlight = current ∧ ¬spurious then
        (holding, { limiter with inFlight := current + 1 })
      else (acquiring, limiter)
  | succeeding => (loadedForSuccess limiter.currentLimit, limiter)
  | loadedForSuccess current =>
      if limiter.currentLimit = current ∧ ¬spurious then
        (dropping, { limiter with currentLimit := min (current + 1) limiter.maxLimit })
      else (succeeding, limiter)
  | rejecting => (loadedForRejection limiter.currentLimit, limiter)
  | loadedForRejection current =>
      if limiter.currentLimit = current ∧ ¬spurious then
        (dropping, { limiter with currentLimit := max (current / 2) limiter.minLimit })
      else (rejecting, limiter)
  | dropping => (finished, { limiter with inFlight := limiter.inFlight - 1 })
  | refused => (refused, limiter)
  | holding => (holding, limiter)
  | finished => (finished, limiter)

end Caller

/-- The limiter and the calls made so far. -/
structure SharedLimiter where
  limiter : ConcurrencyLimiter
  callers : List Caller := []

inductive LimiterAction where
  | tryAcquire
  | onSuccess (caller : Nat)
  | onRejection (caller : Nat)
  | drop (caller : Nat)
  | advance (caller : Nat) (spurious : Bool)

namespace SharedLimiter

/-- The owner of a permit gives it away; only AIMD moves the limit first. -/
def consume (st : SharedLimiter) (i : Nat) (next : Caller) : SharedLimiter :=
  if st.callers[i]? = some .holding then
    { st with
      callers := st.callers.set i (if st.limiter.strategy = .aimd then next else .dropping) }
  else st

def step (st : SharedLimiter) : LimiterAction → SharedLimiter
  | .tryAcquire => { st with callers := st.callers ++ [.acquiring] }
  | .onSuccess i => st.consume i .succeeding
  | .onRejection i => st.consume i .rejecting
  | .drop i => st.consume i .dropping
  | .advance i spurious =>
      match st.callers[i]? with
      | none => st
      | some caller =>
          let (caller, limiter) := caller.advance spurious st.limiter
          { limiter, callers := st.callers.set i caller }

def livePermits (st : SharedLimiter) : Nat := st.callers.countP Caller.hasPermit

def after (limiter : ConcurrencyLimiter) (as : List LimiterAction) : SharedLimiter :=
  run step { limiter } as

end SharedLimiter

/-! ## What one operation does -/

namespace ConcurrencyLimiter

def withAtomics (l : ConcurrencyLimiter) (currentLimit inFlight : UInt32) : ConcurrencyLimiter :=
  { l with currentLimit, inFlight }

def Bounded (l : ConcurrencyLimiter) (currentLimit : UInt32) : Prop :=
  l.minLimit ≤ currentLimit ∧ currentLimit ≤ l.maxLimit

variable {l : ConcurrencyLimiter} {limit : UInt32}

theorem toNat_succ (h : limit.toNat + 1 < 2 ^ 32) : (limit + 1).toNat = limit.toNat + 1 := by
  rw [UInt32.toNat_add, UInt32.toNat_one, Nat.mod_eq_of_lt h]

theorem Bounded.succ (h : l.Bounded limit) (hadds : limit.toNat + 1 < 2 ^ 32) :
    l.Bounded (min (limit + 1) l.maxLimit) := by
  obtain ⟨hmin, hmax⟩ := h
  simp only [Bounded, UInt32.le_iff_toNat_le, UInt32.toNat_min, toNat_succ hadds] at *
  omega

theorem Bounded.half (h : l.Bounded limit) : l.Bounded (max (limit / 2) l.minLimit) := by
  obtain ⟨hmin, hmax⟩ := h
  have hhalf : (limit / 2).toNat = limit.toNat / 2 := UInt32.toNat_div limit 2
  simp only [Bounded, UInt32.le_iff_toNat_le, UInt32.toNat_max, hhalf] at *
  omega

end ConcurrencyLimiter

namespace Caller

variable {l : ConcurrencyLimiter} {caller : Caller} {spurious : Bool} {limit flight : UInt32}

/-- What a caller holds was read from a limiter within its bounds. -/
def Within (l : ConcurrencyLimiter) : Caller → Prop
  | loadedLimit current limit => current < limit ∧ limit ≤ l.maxLimit
  | succeeding => l.strategy = .aimd
  | loadedForSuccess current => l.strategy = .aimd ∧ current ≤ l.maxLimit
  | _ => True

/-- The addition that the caller comes to fits in 32 bits. -/
def Adds (caller : Caller) : Prop :=
  ∀ current, caller.addend = some current → current.toNat + 1 < 2 ^ 32

theorem Within.adds (h : caller.Within l) (hl : l.strategy ≠ .aimd ∨ l.maxLimit ≠ 4294967295) :
    caller.Adds := by
  intro current haddend
  have hmax := l.maxLimit.toNat_lt
  cases caller with
  | loadedLimit current' limit =>
      cases haddend
      obtain ⟨hlt, hle⟩ := h
      rw [UInt32.lt_iff_toNat_lt] at hlt
      rw [UInt32.le_iff_toNat_le] at hle
      omega
  | loadedForSuccess current' =>
      cases haddend
      obtain ⟨hstrategy, hle⟩ := h
      have hne := hl.resolve_left fun h => h hstrategy
      rw [UInt32.le_iff_toNat_le] at hle
      rw [Ne, ← UInt32.toNat_inj] at hne
      have hlast : (4294967295 : UInt32).toNat = 4294967295 := rfl
      omega
  | _ => cases haddend

variable (spurious) in
/-- The limit stays within its bounds, and the permits in flight count the permits. -/
theorem advance_spec (hlimit : l.Bounded limit) (hcaller : caller.Within l) (hadds : caller.Adds)
    (hpermit : caller.hasPermit → 0 < flight.toNat) :
    ∃ limit' flight',
      (caller.advance spurious (l.withAtomics limit flight)).2 = l.withAtomics limit' flight' ∧
      l.Bounded limit' ∧ (caller.advance spurious (l.withAtomics limit flight)).1.Within l ∧
      flight'.toNat + caller.hasPermit.toNat =
        flight.toNat +
          (caller.advance spurious (l.withAtomics limit flight)).1.hasPermit.toNat := by
  cases caller with
  | acquiring => exact ⟨limit, flight, rfl, hlimit, trivial, rfl⟩
  | loadedInFlight current =>
      by_cases hfull : limit ≤ current
      · have hnext : (loadedInFlight current).advance spurious (l.withAtomics limit flight) =
            (refused, l.withAtomics limit flight) := if_pos hfull
        rw [hnext]
        exact ⟨limit, flight, rfl, hlimit, trivial, rfl⟩
      · have hnext : (loadedInFlight current).advance spurious (l.withAtomics limit flight) =
            (loadedLimit current limit, l.withAtomics limit flight) := if_neg hfull
        rw [hnext]
        exact ⟨limit, flight, rfl, hlimit, ⟨UInt32.not_le.mp hfull, hlimit.2⟩, rfl⟩
  | loadedLimit current limit' =>
      by_cases hsame : flight = current ∧ ¬spurious
      · have hnext : (loadedLimit current limit').advance spurious (l.withAtomics limit flight) =
            (holding, l.withAtomics limit (current + 1)) := if_pos hsame
        rw [hnext]
        refine ⟨limit, current + 1, rfl, hlimit, trivial, ?_⟩
        rw [ConcurrencyLimiter.toNat_succ (hadds current rfl), hsame.1]
        rfl
      · have hnext : (loadedLimit current limit').advance spurious (l.withAtomics limit flight) =
            (acquiring, l.withAtomics limit flight) := if_neg hsame
        rw [hnext]
        exact ⟨limit, flight, rfl, hlimit, trivial, rfl⟩
  | succeeding => exact ⟨limit, flight, rfl, hlimit, ⟨hcaller, hlimit.2⟩, rfl⟩
  | loadedForSuccess current =>
      by_cases hsame : limit = current ∧ ¬spurious
      · have hnext : (loadedForSuccess current).advance spurious (l.withAtomics limit flight) =
            (dropping, l.withAtomics (min (current + 1) l.maxLimit) flight) := if_pos hsame
        rw [hnext]
        obtain ⟨rfl, -⟩ := hsame
        exact ⟨_, flight, rfl, hlimit.succ (hadds limit rfl), trivial, rfl⟩
      · have hnext : (loadedForSuccess current).advance spurious (l.withAtomics limit flight) =
            (succeeding, l.withAtomics limit flight) := if_neg hsame
        rw [hnext]
        exact ⟨limit, flight, rfl, hlimit, hcaller.1, rfl⟩
  | rejecting => exact ⟨limit, flight, rfl, hlimit, trivial, rfl⟩
  | loadedForRejection current =>
      by_cases hsame : limit = current ∧ ¬spurious
      · have hnext : (loadedForRejection current).advance spurious (l.withAtomics limit flight) =
            (dropping, l.withAtomics (max (current / 2) l.minLimit) flight) := if_pos hsame
        rw [hnext]
        obtain ⟨rfl, -⟩ := hsame
        exact ⟨_, flight, rfl, hlimit.half, trivial, rfl⟩
      · have hnext : (loadedForRejection current).advance spurious (l.withAtomics limit flight) =
            (rejecting, l.withAtomics limit flight) := if_neg hsame
        rw [hnext]
        exact ⟨limit, flight, rfl, hlimit, trivial, rfl⟩
  | dropping =>
      have hpos : 1 ≤ flight.toNat := hpermit rfl
      refine ⟨limit, flight - 1, rfl, hlimit, trivial, ?_⟩
      have hone : (1 : UInt32) ≤ flight := UInt32.le_iff_toNat_le.mpr hpos
      rw [UInt32.toNat_sub_of_le _ _ hone]
      exact Nat.sub_add_cancel hpos
  | refused | holding | finished => exact ⟨limit, flight, rfl, hlimit, trivial, rfl⟩

end Caller

/-! ## The invariant -/

namespace SharedLimiter

variable {l : ConcurrencyLimiter} {st : SharedLimiter} {i : Nat} {caller caller' : Caller}

/-- What holds of a shared limiter that was built as `l`, until an addition overflows. -/
structure Inv (l : ConcurrencyLimiter) (st : SharedLimiter) : Prop where
  config : st.limiter = l.withAtomics st.limiter.currentLimit st.limiter.inFlight
  bounded : l.Bounded st.limiter.currentLimit
  inFlight : st.limiter.inFlight.toNat = st.livePermits
  within : ∀ caller ∈ st.callers, caller.Within l

def Adds (st : SharedLimiter) : Prop := ∀ caller ∈ st.callers, caller.Adds

theorem Inv.adds (h : Inv l st) (hl : l.strategy ≠ .aimd ∨ l.maxLimit ≠ 4294967295) : st.Adds :=
  fun caller hmem => (h.within caller hmem).adds hl

theorem step_advance (hcaller : st.callers[i]? = some caller) (spurious : Bool) :
    step st (.advance i spurious) =
      ⟨(caller.advance spurious st.limiter).2,
        st.callers.set i (caller.advance spurious st.limiter).1⟩ := by
  rw [step, hcaller]

theorem livePermits_tryAcquire : (step st .tryAcquire).livePermits = st.livePermits :=
  List.countP_append

theorem livePermits_set (limiter : ConcurrencyLimiter) (caller' : Caller)
    (hcaller : st.callers[i]? = some caller) :
    (⟨limiter, st.callers.set i caller'⟩ : SharedLimiter).livePermits + caller.hasPermit.toNat =
      st.livePermits + caller'.hasPermit.toNat := by
  obtain ⟨hi, hget⟩ := List.getElem?_eq_some_iff.mp hcaller
  have hcount : caller.hasPermit.toNat ≤ st.livePermits := by
    cases hpermit : caller.hasPermit with
    | false => exact Nat.zero_le _
    | true =>
        exact List.countP_pos_iff.mpr ⟨caller, List.mem_of_getElem? hcaller, hpermit⟩
  have hset : (⟨limiter, st.callers.set i caller'⟩ : SharedLimiter).livePermits =
      st.livePermits - caller.hasPermit.toNat + caller'.hasPermit.toNat := by
    refine (List.countP_set hi).trans ?_
    rw [hget, livePermits]
    cases caller.hasPermit <;> cases caller'.hasPermit <;> rfl
  omega

/-- A caller moves, and neither the limiter nor the number of permits changes. -/
theorem Inv.set (h : Inv l st) (hcaller : st.callers[i]? = some caller)
    (hpermit : caller'.hasPermit = caller.hasPermit) (hwithin : caller'.Within l) :
    Inv l { st with callers := st.callers.set i caller' } where
  config := h.config
  bounded := h.bounded
  inFlight := by
    have hset := livePermits_set st.limiter caller' hcaller
    rw [hpermit] at hset
    exact h.inFlight.trans (Nat.add_right_cancel hset).symm
  within := by
    intro other hother
    rcases List.mem_or_eq_of_mem_set hother with hother | rfl
    · exact h.within other hother
    · exact hwithin

theorem Inv.consume (h : Inv l st) (i : Nat) {next : Caller} (hnext : next.hasPermit)
    (hwithin : l.strategy = .aimd → next.Within l) : Inv l (st.consume i next) := by
  rw [SharedLimiter.consume]
  by_cases hholding : st.callers[i]? = some .holding
  · rw [if_pos hholding]
    have hstrategy : st.limiter.strategy = l.strategy := by rw [h.config]; rfl
    rw [hstrategy]
    by_cases haimd : l.strategy = .aimd
    · rw [if_pos haimd]
      exact h.set hholding hnext (hwithin haimd)
    · rw [if_neg haimd]
      exact h.set hholding rfl trivial
  · rw [if_neg hholding]
    exact h

theorem Inv.step (h : Inv l st) (hadds : st.Adds) (a : LimiterAction) :
    Inv l (SharedLimiter.step st a) := by
  cases a with
  | tryAcquire =>
      refine ⟨h.config, h.bounded, ?_, ?_⟩
      · exact h.inFlight.trans livePermits_tryAcquire.symm
      · intro caller hmem
        rcases List.mem_append.mp hmem with hmem | hmem
        · exact h.within caller hmem
        · rw [List.mem_singleton.mp hmem]
          trivial
  | onSuccess i => exact h.consume i rfl id
  | onRejection i => exact h.consume i rfl fun _ => trivial
  | drop i => exact h.consume i rfl fun _ => trivial
  | advance i spurious =>
      cases hcaller : st.callers[i]? with
      | none =>
          rw [SharedLimiter.step, hcaller]
          exact h
      | some caller =>
          have hmem := List.mem_of_getElem? hcaller
          have hpermit : caller.hasPermit → 0 < st.limiter.inFlight.toNat := by
            intro hpermit
            rw [h.inFlight]
            exact List.countP_pos_iff.mpr ⟨caller, hmem, hpermit⟩
          obtain ⟨limit, flight, hlimiter, hbounded, hwithin, hflight⟩ :=
            Caller.advance_spec spurious h.bounded (h.within caller hmem)
              (hadds caller hmem) hpermit
          rw [step_advance hcaller]
          rw [← h.config] at hlimiter hwithin hflight
          generalize caller.advance spurious st.limiter = moved at hlimiter hwithin hflight ⊢
          obtain ⟨caller', limiter⟩ := moved
          obtain rfl : limiter = l.withAtomics limit flight := hlimiter
          refine ⟨rfl, hbounded, ?_, ?_⟩
          · have hset := livePermits_set (l.withAtomics limit flight) caller' hcaller
            have hbefore := h.inFlight
            dsimp only at hset hflight
            change flight.toNat =
              (⟨l.withAtomics limit flight, st.callers.set i caller'⟩ : SharedLimiter).livePermits
            omega
          · intro other hother
            rcases List.mem_or_eq_of_mem_set hother with hother | rfl
            · exact h.within other hother
            · exact hwithin

/-! ## The limits that a caller has seen -/

theorem Caller.loadedLimit_of_advance {spurious : Bool} {limiter : ConcurrencyLimiter}
    {current limit : UInt32}
    (hnext : (caller.advance spurious limiter).1 = .loadedLimit current limit) :
    limiter.currentLimit = limit := by
  cases caller with
  | loadedInFlight current' =>
      rw [Caller.advance] at hnext
      split at hnext
      · cases hnext
      · exact (Caller.loadedLimit.inj hnext).2
  | loadedLimit | loadedForSuccess | loadedForRejection =>
      rw [Caller.advance] at hnext
      split at hnext <;> cases hnext
  | acquiring | refused | holding | succeeding | rejecting | dropping | finished => cases hnext

theorem consume_cases {next : Caller} (hnext : next.hasPermit) {j : Nat}
    (hcaller : (st.consume j next).callers[i]? = some caller) :
    st.callers[i]? = some caller ∨ caller.hasPermit := by
  rw [consume] at hcaller
  split at hcaller
  · dsimp only at hcaller
    rw [List.getElem?_set] at hcaller
    split at hcaller
    · split at hcaller
      · cases hcaller
        right
        split
        · exact hnext
        · rfl
      · cases hcaller
    · exact .inl hcaller
  · exact .inl hcaller

/-- A caller that is about to raise the permits in flight read the limit just now, or
stands where it stood. -/
theorem loadedLimit_step {a : LimiterAction} {current limit : UInt32}
    (hcaller : (step st a).callers[i]? = some (.loadedLimit current limit)) :
    st.callers[i]? = some (.loadedLimit current limit) ∨
      i < st.callers.length ∧ st.limiter.currentLimit = limit := by
  cases a with
  | tryAcquire =>
      rw [step, List.getElem?_append] at hcaller
      split at hcaller
      · exact .inl hcaller
      · cases List.mem_singleton.mp (List.mem_of_getElem? hcaller)
  | onSuccess j =>
      exact (consume_cases rfl hcaller).imp_right fun h => by cases h
  | onRejection j =>
      exact (consume_cases rfl hcaller).imp_right fun h => by cases h
  | drop j =>
      exact (consume_cases rfl hcaller).imp_right fun h => by cases h
  | advance j spurious =>
      cases hmoved : st.callers[j]? with
      | none =>
          rw [step, hmoved] at hcaller
          exact .inl hcaller
      | some moved =>
          rw [step_advance hmoved, List.getElem?_set] at hcaller
          split at hcaller
          · next hsame =>
              subst hsame
              split at hcaller
              · next hi => exact .inr ⟨hi, Caller.loadedLimit_of_advance (Option.some.inj hcaller)⟩
              · cases hcaller
          · exact .inl hcaller

theorem after_concat (l : ConcurrencyLimiter) (as : List LimiterAction) (a : LimiterAction) :
    after l (as ++ [a]) = step (after l as) a := run_concat _ _ _

/-- The limit that a caller has read was current since its call began. -/
theorem loadedLimit_seen (as : List LimiterAction) {current limit : UInt32}
    (hcaller : (after l as).callers[i]? = some (.loadedLimit current limit)) :
    ∃ earlier, earlier <+: as ∧ i < (after l earlier).callers.length ∧
      (after l earlier).limiter.currentLimit = limit := by
  induction as using List.reverseRecOn with
  | nil => cases hcaller
  | append_singleton as a ih =>
      rw [after_concat] at hcaller
      rcases loadedLimit_step hcaller with hbefore | ⟨hi, hlimit⟩
      · obtain ⟨earlier, hprefix, hseen⟩ := ih hbefore
        exact ⟨earlier, hprefix.trans (List.prefix_append as [a]), hseen⟩
      · exact ⟨as, List.prefix_append as [a], hi, hlimit⟩

/-! ## Every run -/

/-- The guarantees of the limiter after a run: the limit is within its bounds, the permits in
flight count the live permits, no addition overflows, and a call that gets a permit now raises
the permits in flight to at most a limit that was current since it began. -/
structure Sound (l : ConcurrencyLimiter) (as : List LimiterAction) : Prop where
  bounded : l.minLimit ≤ (after l as).limiter.currentLimit ∧
    (after l as).limiter.currentLimit ≤ l.maxLimit
  inFlight : (after l as).limiter.inFlight.toNat = (after l as).livePermits
  adds : (after l as).Adds
  acquired : ∀ i spurious caller, (after l as).callers[i]? = some caller →
    caller.hasPermit = false →
    (step (after l as) (.advance i spurious)).callers[i]? = some .holding →
    (step (after l as) (.advance i spurious)).limiter.inFlight.toNat =
      (after l as).limiter.inFlight.toNat + 1 ∧
    ∃ earlier, earlier <+: as ∧ i < (after l earlier).callers.length ∧
      (step (after l as) (.advance i spurious)).limiter.inFlight ≤
        (after l earlier).limiter.currentLimit

theorem Caller.advance_holding {spurious : Bool} {limiter : ConcurrencyLimiter}
    (hcaller : caller.hasPermit = false)
    (hnext : (caller.advance spurious limiter).1 = .holding) :
    ∃ limit, caller = .loadedLimit limiter.inFlight limit ∧
      (caller.advance spurious limiter).2.inFlight = limiter.inFlight + 1 := by
  cases caller with
  | loadedInFlight current =>
      rw [Caller.advance] at hnext
      split at hnext <;> cases hnext
  | loadedLimit current limit =>
      rw [Caller.advance] at hnext ⊢
      split at hnext
      · next hsame =>
          rw [if_pos hsame]
          obtain ⟨rfl, -⟩ := hsame
          exact ⟨limit, rfl, rfl⟩
      · cases hnext
  | acquiring | refused | finished => cases hnext
  | holding | succeeding | loadedForSuccess | rejecting | loadedForRejection | dropping =>
      cases hcaller

theorem Inv.sound {as : List LimiterAction} (h : Inv l (after l as)) (hadds : (after l as).Adds) :
    Sound l as where
  bounded := h.bounded
  inFlight := h.inFlight
  adds := hadds
  acquired := by
    intro i spurious caller hcaller hpermit hnext
    obtain ⟨hi, -⟩ := List.getElem?_eq_some_iff.mp hcaller
    rw [step_advance hcaller] at hnext ⊢
    rw [List.getElem?_set_self hi] at hnext
    obtain ⟨limit, rfl, hraised⟩ := Caller.advance_holding hpermit (Option.some.inj hnext)
    have hmem := List.mem_of_getElem? hcaller
    have hsucc := ConcurrencyLimiter.toNat_succ (hadds _ hmem _ rfl)
    obtain ⟨hlt, -⟩ := h.within _ hmem
    obtain ⟨earlier, hprefix, hbegun, hlimit⟩ := loadedLimit_seen as hcaller
    dsimp only
    rw [hraised]
    refine ⟨hsucc, earlier, hprefix, hbegun, ?_⟩
    rw [hlimit, UInt32.le_iff_toNat_le, hsucc]
    exact UInt32.lt_iff_toNat_lt.mp hlt

/-! ## A limit that climbs to the end -/

section Climb

variable {cs : List Caller} {limit flight : UInt32}

theorem advance_last (limiter : ConcurrencyLimiter) (caller : Caller) :
    step ⟨limiter, cs ++ [caller]⟩ (.advance cs.length false) =
      ⟨(caller.advance false limiter).2, cs ++ [(caller.advance false limiter).1]⟩ := by
  have hcaller : (cs ++ [caller])[cs.length]? = some caller := List.getElem?_concat_length
  have hset (caller' : Caller) : (cs ++ [caller]).set cs.length caller' = cs ++ [caller'] := by simp
  rw [step, hcaller]
  exact congrArg _ (hset _)

theorem onSuccess_last (hl : l.strategy = .aimd) :
    step ⟨l.withAtomics limit flight, cs ++ [.holding]⟩ (.onSuccess cs.length) =
      ⟨l.withAtomics limit flight, cs ++ [.succeeding]⟩ := by
  have hcaller : (cs ++ [Caller.holding])[cs.length]? = some .holding :=
    List.getElem?_concat_length
  rw [step, consume, if_pos hcaller]
  have hset : (cs ++ [Caller.holding]).set cs.length .succeeding = cs ++ [.succeeding] := by simp
  rw [← hset]
  exact congrArg _ (congrArg _ (if_pos hl))

/-- A permit is acquired, and its delivery has succeeded. -/
def deliver (n : Nat) : List LimiterAction :=
  [.tryAcquire, .advance n false, .advance n false, .advance n false, .onSuccess n,
    .advance n false]

theorem run_deliver (hl : l.strategy = .aimd) (hlimit : 0 < limit) :
    run step ⟨l.withAtomics limit 0, cs⟩ (deliver cs.length) =
      ⟨l.withAtomics limit 1, cs ++ [.loadedForSuccess limit]⟩ := by
  have hroom : Caller.advance false (l.withAtomics limit 0) (.loadedInFlight 0) =
      (.loadedLimit 0 limit, l.withAtomics limit 0) := if_neg (UInt32.not_le.mpr hlimit)
  have hraise : Caller.advance false (l.withAtomics limit 0) (.loadedLimit 0 limit) =
      (.holding, l.withAtomics limit 1) := rfl
  have hcall : step ⟨l.withAtomics limit 0, cs⟩ .tryAcquire =
      ⟨l.withAtomics limit 0, cs ++ [.acquiring]⟩ := rfl
  have hload : Caller.advance false (l.withAtomics limit 0) .acquiring =
      (.loadedInFlight 0, l.withAtomics limit 0) := rfl
  simp only [deliver, run_cons, run_nil, hcall, advance_last, hload, hroom, hraise,
    onSuccess_last hl]
  rfl

/-- The limit is raised by one, and the permit goes back. -/
def succeed (n : Nat) : List LimiterAction := deliver n ++ [.advance n false, .advance n false]

theorem run_succeed (hl : l.strategy = .aimd) (hlimit : 0 < limit)
    (hroom : limit.toNat < l.maxLimit.toNat) :
    run step ⟨l.withAtomics limit 0, cs⟩ (succeed cs.length) =
      ⟨l.withAtomics (limit + 1) 0, cs ++ [.finished]⟩ := by
  have hsucc : (limit + 1).toNat = limit.toNat + 1 :=
    ConcurrencyLimiter.toNat_succ (Nat.lt_of_le_of_lt hroom l.maxLimit.toNat_lt)
  have hmin : min (limit + 1) l.maxLimit = limit + 1 := by
    rw [← UInt32.toNat_inj, UInt32.toNat_min, hsucc]
    exact Nat.min_eq_left hroom
  have hraise : Caller.advance false (l.withAtomics limit 1) (.loadedForSuccess limit) =
      (.dropping, l.withAtomics (limit + 1) 1) := by
    rw [← hmin]
    exact if_pos ⟨rfl, Bool.false_ne_true⟩
  have hdrop : Caller.advance false (l.withAtomics (limit + 1) 1) .dropping =
      (.finished, l.withAtomics (limit + 1) 0) :=
    congrArg (fun flight => (Caller.finished, l.withAtomics (limit + 1) flight))
      (UInt32.sub_self (a := 1))
  rw [succeed, run_append, run_deliver hl hlimit]
  simp only [run_cons, run_nil, advance_last, hraise, hdrop]

theorem exists_run_maxLimit (hl : l.strategy = .aimd) (hlimit : 0 < limit)
    (hmax : limit ≤ l.maxLimit) :
    ∃ as cs', run step ⟨l.withAtomics limit 0, cs⟩ as = ⟨l.withAtomics l.maxLimit 0, cs'⟩ := by
  rw [UInt32.le_iff_toNat_le] at hmax
  obtain ⟨room, hroom⟩ := Nat.exists_eq_add_of_le hmax
  induction room generalizing limit cs with
  | zero =>
      obtain rfl : limit = l.maxLimit := UInt32.toNat_inj.mp hroom.symm
      exact ⟨[], cs, rfl⟩
  | succ room ih =>
      have hlt : limit.toNat < l.maxLimit.toNat := by omega
      have hsucc : (limit + 1).toNat = limit.toNat + 1 :=
        ConcurrencyLimiter.toNat_succ (Nat.lt_of_le_of_lt hlt l.maxLimit.toNat_lt)
      have hpos : 0 < limit + 1 := by
        rw [UInt32.lt_iff_toNat_lt, hsucc]
        exact Nat.succ_pos _
      obtain ⟨as, cs', hrun⟩ := @ih (cs ++ [.finished]) _ hpos (by omega) (by omega)
      refine ⟨succeed cs.length ++ as, cs', ?_⟩
      rw [run_append, run_succeed hl hlimit hlt, hrun]

end Climb

/-! ## The limiter of a configuration -/

variable {config : ConcurrencyConfig}

theorem orDefault_pos (value : UInt32) {default : UInt32} (hdefault : 0 < default) :
    0 < ConcurrencyLimiter.orDefault value default := by
  rw [ConcurrencyLimiter.orDefault]
  split
  · exact hdefault
  · next hvalue => exact UInt32.pos_iff_ne_zero.mpr hvalue

theorem new_minLimit_pos (hnew : ConcurrencyLimiter.new config = some l) : 0 < l.minLimit := by
  rw [ConcurrencyLimiter.new] at hnew
  split at hnew
  · cases hnew
  · cases hnew
    exact orDefault_pos _ (by decide)

/-- A new limiter starts within its bounds, with room for a permit and none in flight. -/
theorem new_spec (hnew : ConcurrencyLimiter.new config = some l) :
    (l.inFlight = 0 ∧ 0 < l.currentLimit ∧ l.Bounded l.currentLimit) ∧
      l.strategy = config.strategy ∧
      l.maxLimit = ConcurrencyLimiter.orDefault config.maxLimit 10000 := by
  have hpos := orDefault_pos config.minLimit (show 0 < 1 by decide)
  rw [ConcurrencyLimiter.new] at hnew
  split at hnew
  · cases hnew
  · next horder =>
      cases hnew
      simp only [ConcurrencyLimiter.Bounded, UInt32.lt_iff_toNat_lt, UInt32.le_iff_toNat_le,
        UInt32.toNat_max, UInt32.toNat_min] at *
      refine ⟨⟨trivial, ?_⟩, trivial, trivial⟩
      omega

theorem inv_new (hnew : ConcurrencyLimiter.new config = some l) : Inv l { limiter := l } := by
  obtain ⟨⟨hflight, -, hbounded⟩, -⟩ := new_spec hnew
  refine ⟨rfl, hbounded, ?_, fun _ h => absurd h List.not_mem_nil⟩
  rw [hflight]
  rfl

/-- Whatever the interleaving the limiter keeps its guarantees, exactly if the strategy is not
AIMD or the maximum is not the largest number. -/
theorem sound_iff (hnew : ConcurrencyLimiter.new config = some l) :
    (∀ as, Sound l as) ↔ config.strategy ≠ .aimd ∨ config.maxLimit ≠ 4294967295 := by
  obtain ⟨⟨hflight, hpos, hbounded⟩, hstrategy, hmaxLimit⟩ := new_spec hnew
  constructor
  · intro h
    by_contra hnot
    obtain ⟨haimd, hmax⟩ := not_or.mp hnot
    rw [not_not] at haimd hmax
    rw [← hstrategy] at haimd
    rw [hmax] at hmaxLimit
    have hstart : l = l.withAtomics l.currentLimit 0 := by rw [← hflight]; rfl
    obtain ⟨as, cs, hrun⟩ := exists_run_maxLimit haimd hpos hbounded.2
    rw [← hstart] at hrun
    have hend : after l (as ++ deliver cs.length) =
        ⟨l.withAtomics l.maxLimit 1, cs ++ [.loadedForSuccess l.maxLimit]⟩ := by
      rw [after, run_append, hrun, run_deliver haimd (UInt32.lt_of_lt_of_le hpos hbounded.2)]
    have hadds := (h (as ++ deliver cs.length)).adds
    rw [hend, hmaxLimit] at hadds
    have hlast := hadds _ List.mem_concat_self _ rfl
    exact absurd hlast (by decide)
  · intro hconfig as
    have hl : l.strategy ≠ .aimd ∨ l.maxLimit ≠ 4294967295 := by
      rw [hstrategy, hmaxLimit]
      refine hconfig.imp_right fun hne => ?_
      rw [ConcurrencyLimiter.orDefault]
      split
      · decide
      · exact hne
    have hinv : Inv l (after l as) :=
      run_invariant (fun a _ st hst => hst.step (hst.adds hl) a) (inv_new hnew)
    exact hinv.sound (hinv.adds hl)

theorem sound_iff_default :
    (∀ as, Sound { currentLimit := 100, minLimit := 1, maxLimit := 10000, strategy := .aimd } as) ↔
      ({} : ConcurrencyConfig).strategy ≠ .aimd ∨ ({} : ConcurrencyConfig).maxLimit ≠ 4294967295 :=
  sound_iff (show ConcurrencyLimiter.new {} = some
    { currentLimit := 100, minLimit := 1, maxLimit := 10000, strategy := .aimd } from rfl)

/-- A limit that starts at the largest number: the first success adds one to it. -/
theorem not_sound :
    ¬∀ (config : ConcurrencyConfig) (l : ConcurrencyLimiter),
      ConcurrencyLimiter.new config = some l → ∀ as, Sound l as := by
  intro h
  let config : ConcurrencyConfig := { initialLimit := 4294967295, maxLimit := 4294967295 }
  let l : ConcurrencyLimiter :=
    { currentLimit := 4294967295, minLimit := 1, maxLimit := 4294967295, strategy := .aimd }
  have hnew : ConcurrencyLimiter.new config = some l := rfl
  have hcallers : (after l (deliver 0)).callers = [.loadedForSuccess 4294967295] := by decide
  have hadds := (h config l hnew (deliver 0)).adds
  rw [Adds, hcallers] at hadds
  exact absurd (hadds _ List.mem_cons_self _ rfl) (by decide)

end SharedLimiter

end PlexSpaces.Outbox
