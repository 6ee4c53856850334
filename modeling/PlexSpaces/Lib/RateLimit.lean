import Mathlib.Data.List.Basic
import Mathlib.Order.Basic
/-!
# Rate limits

Events with a time, newest first.  A rate limiter looks at the events of the last
`window` time units and admits a new one when they are fewer than `limit`.  When every
event was admitted so (`Limited`), no window of that length holds more than `limit` of
them (`Limited.length_during_le`).
-/

namespace PlexSpaces.Lib

universe u

namespace RateLimit

variable {α : Type u} (time : α → Nat) (window : Nat)

/-- The events that still count at `now`. -/
def recent (now : Nat) (events : List α) : List α :=
  events.filter fun a => decide (now - time a < window)

/-- The events of the half-open window that begins at `start`. -/
def during (start : Nat) (events : List α) : List α :=
  events.filter fun a => decide (start ≤ time a ∧ time a < start + window)

/-- Every event came after the ones before it and was admitted by the limiter. -/
def Limited (limit : Nat) : List α → Prop
  | [] => True
  | a :: older => (recent time window (time a) older).length < limit ∧
      (∀ b ∈ older, time b ≤ time a) ∧ Limited limit older

variable {time window}

/-- What counts later counted before: a limiter may forget the rest. -/
theorem recent_recent {now now' : Nat} (hle : now ≤ now') (events : List α) :
    recent time window now' (recent time window now events) =
      recent time window now' events := by
  unfold recent
  rw [List.filter_filter]
  apply List.filter_congr
  intro a _
  by_cases hlater : now' - time a < window
  · have hnow : now - time a < window := by omega
    simp [hlater, hnow]
  · simp [hlater]

theorem recent_append (now : Nat) (events events' : List α) :
    recent time window now (events ++ events') =
      recent time window now events ++ recent time window now events' :=
  List.filter_append ..

theorem Limited.length_during_le {limit : Nat} {events : List α}
    (h : Limited time window limit events) (start : Nat) :
    (during time window start events).length ≤ limit := by
  induction events with
  | nil => exact Nat.zero_le limit
  | cons a older ih =>
      obtain ⟨hadmitted, horder, holder⟩ := h
      by_cases ha : start ≤ time a ∧ time a < start + window
      · -- the others in the window still counted when `a` was admitted
        have hsub : (during time window start older).Sublist
            (recent time window (time a) older) := by
          apply List.monotone_filter_right
          intro b hb
          rw [decide_eq_true_eq] at hb ⊢
          omega
        have hlength : (during time window start (a :: older)).length =
            (during time window start older).length + 1 := by
          simp [during, ha]
        have hle := hsub.length_le
        omega
      · have hskip : during time window start (a :: older) = during time window start older := by
          simp [during, ha]
        rw [hskip]
        exact ih holder

/-- No more events than the limit count at any time after them. -/
theorem Limited.length_recent_le {limit : Nat} {events : List α}
    (h : Limited time window limit events) {now : Nat} (hnow : ∀ a ∈ events, time a ≤ now) :
    (recent time window now events).length ≤ limit := by
  have hsame : recent time window now events =
      during time window (now + 1 - window) events := by
    apply List.filter_congr
    intro a ha
    have hle := hnow a ha
    rw [decide_eq_decide]
    omega
  rw [hsame]
  exact h.length_during_le _

end RateLimit

end PlexSpaces.Lib
