import Mathlib.Logic.Function.Basic
import Mathlib.Order.Basic
/-!
# Maps with expiry

A map from keys to values, each with the time at which it expires, if any.  An
entry that has expired is the same as none: `lookup` does not find it, and two
maps are the `Same` at a time when they agree on what is found.  What is the same
at one time is the same later on (`Same.later`).
-/

namespace PlexSpaces.Lib

universe u v w

variable {K : Type u} {V : Type v} {T : Type w}

/-- A value with the time at which it expires. -/
structure Expiring (V : Type v) (T : Type w) where
  value : V
  expiresAt : Option T
  deriving DecidableEq

abbrev ExpiryMap (K : Type u) (V : Type v) (T : Type w) := K → Option (Expiring V T)

section Lookup

variable [LT T] [DecidableLT T]

def Expiring.live (now : T) (e : Expiring V T) : Bool := e.expiresAt.all fun exp => now < exp

namespace ExpiryMap

def lookup (now : T) (m : ExpiryMap K V T) (k : K) : Option (Expiring V T) :=
  (m k).filter fun e => e.live now

def Same (now : T) (m m' : ExpiryMap K V T) : Prop := ∀ k, m.lookup now k = m'.lookup now k

theorem Same.refl (now : T) (m : ExpiryMap K V T) : m.Same now m := fun _ => rfl

variable [DecidableEq K]

theorem Same.update {now : T} {m m' : ExpiryMap K V T} (h : m.Same now m') (k : K)
    (e : Option (Expiring V T)) :
    Same now (Function.update m k e) (Function.update m' k e) := by
  intro k'
  by_cases hk : k' = k
  · rw [lookup, lookup, hk, Function.update_self, Function.update_self]
  · rw [lookup, lookup, Function.update_of_ne hk, Function.update_of_ne hk]
    exact h k'

theorem lookup_update_self (now : T) (m : ExpiryMap K V T) (k : K) (e : Option (Expiring V T)) :
    lookup now (Function.update m k e) k = e.filter fun e => e.live now := by
  rw [lookup, Function.update_self]

end ExpiryMap

end Lookup

section Later

variable [Preorder T] [DecidableLT T]

theorem Expiring.live_of_live {now later : T} (h : now ≤ later) {e : Expiring V T}
    (hlive : e.live later = true) : e.live now = true := by
  rw [live, Option.all_eq_true] at hlive ⊢
  intro exp hexp
  exact decide_eq_true (h.trans_lt (of_decide_eq_true (hlive exp hexp)))

theorem ExpiryMap.lookup_later {now later : T} (h : now ≤ later) (m : ExpiryMap K V T) (k : K) :
    m.lookup later k = (m.lookup now k).filter fun e => e.live later := by
  rw [lookup, lookup, Option.filter_filter]
  congr 1
  funext e
  cases hlive : e.live later with
  | false => rw [Bool.and_false]
  | true => rw [e.live_of_live h hlive, Bool.and_true]

theorem ExpiryMap.Same.later {now later : T} (h : now ≤ later) {m m' : ExpiryMap K V T}
    (hsame : m.Same now m') : m.Same later m' := by
  intro k
  rw [lookup_later h, lookup_later h, hsame k]

end Later

end PlexSpaces.Lib
