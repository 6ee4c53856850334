import Mathlib.Data.List.FinRange
import Mathlib.Logic.Function.Basic
import PlexSpaces.Lib.Run
import PlexSpaces.Tuples.Space
/-!
# The barrier of a provider

`TupleSpaceProvider::barrier` registers a waiter under a pattern and awaits its
channel.  It writes no tuple, and only a write looks at the barriers: however many
participants call it, nobody is released.
-/

namespace PlexSpaces.Tuples

open PlexSpaces.Lib

/-- Where a participant stands in its call. -/
inductive CallStage
  | outside
  | waiting
  | released
  | notSupported
  deriving DecidableEq, Repr

/-- The space and the calls on it. -/
structure Gathering (n : Nat) where
  space : TupleSpace
  stage : Fin n → CallStage

/-- Calls with one barrier id on one space, each with a channel of its own. -/
structure ProviderCalls (n : Nat) where
  barrierId : String
  space : TupleSpace
  channel : Fin n → Nat
  fresh : ∀ i, channel i ∉ space.sent

namespace ProviderCalls

variable {n : Nat} (calls : ProviderCalls n)

def pattern : Pattern :=
  ⟨[.exact (.string "barrier"), .exact (.string calls.barrierId)]⟩

/-- The next step of a participant; one whose channel is empty stays where it is. -/
def step (s : Gathering n) (i : Fin n) : Gathering n :=
  match s.stage i with
  | .outside =>
      if s.space.capabilities.lookup "barriers" ≠ some "enabled" then
        { s with stage := Function.update s.stage i .notSupported }
      else
        { space := s.space.barrier calls.barrierId calls.pattern n (calls.channel i)
          stage := Function.update s.stage i .waiting }
  | .waiting =>
      if calls.channel i ∈ s.space.sent then
        { s with stage := Function.update s.stage i .released }
      else s
  | .released | .notSupported => s

def start : Gathering n := ⟨calls.space, fun _ => .outside⟩

def Final (s : Gathering n) : Prop := ∀ i, calls.step s i = s

/-- Whatever the order, the run ends with everybody released. -/
def AllReleased : Prop :=
  ∀ schedule, calls.Final (run calls.step calls.start schedule) →
    ∀ i, (run calls.step calls.start schedule).stage i = .released

/-- Who has had a turn waits, and no message was sent. -/
theorem run_waits (schedule : List (Fin n)) :
    (run calls.step calls.start schedule).space.sent = calls.space.sent ∧
      (run calls.step calls.start schedule).stage =
        fun i => if i ∈ schedule then .waiting else .outside := by
  induction schedule using List.reverseRecOn with
  | nil => exact ⟨rfl, by simp [start]⟩
  | append_singleton schedule j ih =>
      rw [run_concat]
      generalize run calls.step calls.start schedule = s at ih ⊢
      obtain ⟨hsent, hstage⟩ := ih
      have hj : s.stage j = if j ∈ schedule then .waiting else .outside := by rw [hstage]
      have hmem : ∀ i, i ∈ schedule ++ [j] ↔ i ∈ schedule ∨ i = j := by simp
      by_cases hbefore : j ∈ schedule
      · have hsame : calls.step s j = s := by
          rw [if_pos hbefore] at hj
          rw [step, hj]
          exact if_neg (hsent ▸ calls.fresh j)
        rw [hsame]
        refine ⟨hsent, hstage.trans (funext fun i => ?_)⟩
        have hiff : i ∈ schedule ++ [j] ↔ i ∈ schedule := by
          rw [hmem, or_iff_left_of_imp]
          rintro rfl
          exact hbefore
        simp only [hiff]
      · rw [if_neg hbefore] at hj
        rw [step, hj]
        dsimp only
        rw [if_neg (not_not_intro s.space.barriers_enabled)]
        refine ⟨hsent, funext fun i => ?_⟩
        dsimp only
        by_cases hi : i = j
        · subst hi
          rw [Function.update_self, if_pos ((hmem i).mpr (.inr rfl))]
        · rw [Function.update_of_ne hi, hstage]
          simp only [hmem, hi, or_false]

/-- Where there is a participant, none of the calls is ever released: when all have registered,
they wait for good. -/
theorem never_all_released (hn : 1 ≤ n) : ¬calls.AllReleased := by
  intro h
  obtain ⟨hsent, hstage⟩ := calls.run_waits (List.finRange n)
  have hall : ∀ i, (run calls.step calls.start (List.finRange n)).stage i = .waiting := by
    intro i
    rw [hstage]
    exact if_pos (List.mem_finRange i)
  have hfinal : calls.Final (run calls.step calls.start (List.finRange n)) := by
    intro i
    rw [step, hall i]
    exact if_neg (hsent ▸ calls.fresh i)
  have hreleased := h (List.finRange n) hfinal ⟨0, hn⟩
  rw [hall] at hreleased
  cases hreleased

end ProviderCalls

def twoCalls : ProviderCalls 2 where
  barrierId := "phase-1"
  space := TupleSpace.new (.inMemory [])
  channel := fun i => i
  fresh := fun _ => List.not_mem_nil

theorem never_all_released_two : ¬twoCalls.AllReleased :=
  ProviderCalls.never_all_released twoCalls (by decide)

/-- Both register, in either order, and neither is released. -/
theorem not_all_released : ¬∀ (n : Nat) (calls : ProviderCalls n), 1 ≤ n → calls.AllReleased := by
  intro h
  have hreleased := h 2 twoCalls (by decide) [0, 1] (fun i => by
    obtain ⟨hsent, hstage⟩ := twoCalls.run_waits [0, 1]
    have hi : (run twoCalls.step twoCalls.start [0, 1]).stage i = .waiting := by
      rw [hstage]
      revert i
      decide
    rw [ProviderCalls.step, hi]
    exact if_neg (hsent ▸ twoCalls.fresh i)) 0
  revert hreleased
  decide

end PlexSpaces.Tuples
