import Mathlib.Order.Lattice
/-!
# Leases

A lease service hands out keys to holders until an expiry time.  What it told
its clients is a log of grants and releases, newest first.  A lease stands until
its holder releases the key; `Exclusive` says that nobody but the holder of a
standing lease is answered before that lease has expired.

A service keeps one owner per key.  `Covered` relates the owners to the log, and
the rules below say what each answer of the service has to respect.
-/

namespace PlexSpaces.Lib

universe u v w

/-- An answer of the service at `time`: a lease until `expiry`, or a release. -/
inductive LeaseEvent (K : Type u) (H : Type v) (T : Type w)
  | granted (key : K) (holder : H) (time expiry : T)
  | released (key : K) (holder : H) (time : T)
  deriving DecidableEq

variable {K : Type u} {H : Type v} {T : Type w}

namespace LeaseEvent

def key : LeaseEvent K H T → K
  | granted k _ _ _ => k
  | released k _ _ => k

def holder : LeaseEvent K H T → H
  | granted _ h _ _ => h
  | released _ h _ => h

def time : LeaseEvent K H T → T
  | granted _ _ t _ => t
  | released _ _ t => t

end LeaseEvent

/-- The holder `h` was granted `k` until `e` and has not released `k` since. -/
def Standing (k : K) (h : H) (e : T) : List (LeaseEvent K H T) → Prop
  | [] => False
  | .granted k' h' _ e' :: log => (k = k' ∧ h = h' ∧ e = e') ∨ Standing k h e log
  | .released k' h' _ :: log => ¬(k = k' ∧ h = h') ∧ Standing k h e log

section Order

variable [LinearOrder T]

/-- Every answer went to the holder of each lease on its key that was standing
and had not expired at the time. -/
def Exclusive : List (LeaseEvent K H T) → Prop
  | [] => True
  | event :: log =>
      (∀ h e, Standing event.key h e log → event.time < e → h = event.holder) ∧ Exclusive log

/-- Every lease that stands after `now` belongs to the owner of its key, who owns
it at least as long. -/
def Covered (owner : K → Option (H × T)) (now : T) (log : List (LeaseEvent K H T)) : Prop :=
  ∀ k h e, Standing k h e log → now < e → ∃ e', owner k = some (h, e') ∧ e ≤ e'

variable {owner owner' : K → Option (H × T)} {now : T} {log : List (LeaseEvent K H T)}
  {k : K} {h : H} {e : T}

theorem Covered.later (hc : Covered owner now log) {now' : T} (hle : now ≤ now') :
    Covered owner now' log := by
  intro k h e hs he
  exact hc k h e hs (lt_of_le_of_lt hle he)

/-- An answer to a holder whom no live owner of the key contradicts. -/
theorem Covered.exclusive_cons (hc : Covered owner now log) (hx : Exclusive log)
    {event : LeaseEvent K H T} (htime : event.time = now)
    (hfree : ∀ h e, owner event.key = some (h, e) → now < e → h = event.holder) :
    Exclusive (event :: log) := by
  refine ⟨?_, hx⟩
  intro h e hs he
  rw [htime] at he
  obtain ⟨e', howner, hle⟩ := hc event.key h e hs he
  exact hfree h e' howner (lt_of_lt_of_le he hle)

/-- Granting a key that is free, or extending the ownership of its owner. -/
theorem Covered.grant (hc : Covered owner now log) (hself : owner' k = some (h, e))
    (hrest : ∀ k', k' ≠ k → owner' k' = owner k')
    (hfree : ∀ h' e', owner k = some (h', e') → now < e' → h' = h ∧ e' ≤ e) :
    Covered owner' now (.granted k h now e :: log) := by
  intro k' h' e' hs he
  rcases hs with ⟨rfl, rfl, rfl⟩ | hs
  · exact ⟨e', hself, le_rfl⟩
  · obtain ⟨e₀, howner, hle⟩ := hc k' h' e' hs he
    by_cases hk : k' = k
    · subst hk
      obtain ⟨hh, hexp⟩ := hfree h' e₀ howner (lt_of_lt_of_le he hle)
      subst hh
      exact ⟨e, hself, hle.trans hexp⟩
    · exact ⟨e₀, (hrest k' hk).trans howner, hle⟩

theorem Covered.release (hc : Covered owner now log) {time : T}
    (hrest : ∀ k', k' ≠ k → owner' k' = owner k')
    (howner : ∀ h' e', owner k = some (h', e') → h' = h) :
    Covered owner' now (.released k h time :: log) := by
  intro k' h' e' hs he
  obtain ⟨hne, hs⟩ := hs
  obtain ⟨e₀, hown, hle⟩ := hc k' h' e' hs he
  by_cases hk : k' = k
  · subst hk
    exact absurd ⟨rfl, howner h' e₀ hown⟩ hne
  · exact ⟨e₀, (hrest k' hk).trans hown, hle⟩

end Order

end PlexSpaces.Lib
