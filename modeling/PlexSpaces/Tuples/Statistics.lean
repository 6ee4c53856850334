import PlexSpaces.Lib.Run
import PlexSpaces.Tuples.Space
/-!
# The size in the statistics

The in-memory space drops expired tuples on several paths.  `write`, `take_all` and
`clear` set the size afterwards, and so does a `take` that finds a tuple; a `take`
that finds none and `cleanup_expired` do not.
-/

namespace PlexSpaces.Tuples

open PlexSpaces.Lib

inductive SpaceCall
  | write (tuple : Tuple)
  | read (pattern : Pattern)
  | take (pattern : Pattern)
  | takeAll (pattern : Pattern)
  | cleanupExpired
  | clear

namespace TupleSpace

def held (s : TupleSpace) : List Tuple :=
  match s.storage with
  | .inMemory tuples => tuples
  | .external _ => []

/-- `read`: the first tuple that is alive and matches. -/
def read (s : TupleSpace) (pattern : Pattern) (now : Nat) : Option Tuple :=
  s.held.find? fun t => !t.isExpired now && t.matches pattern

variable (codec : TupleCodec)

/-- The space after a call at a clock reading; a `read` leaves it as it is. -/
def afterCall (s : TupleSpace) : SpaceCall × Nat → TupleSpace
  | (.write tuple, now) => (s.write codec tuple "" now).2
  | (.read _, _) => s
  | (.take pattern, now) => (s.take codec pattern now).2
  | (.takeAll pattern, now) => (s.takeAll codec pattern now).2
  | (.cleanupExpired, now) => (s.cleanupExpired now).2
  | (.clear, _) => s.clear

def SizeRight (s : TupleSpace) : Prop := s.stats.currentSize = s.held.length

def AllAlive (s : TupleSpace) (now : Nat) : Prop := ∀ t ∈ s.held, t.isExpired now = false

/-- A cleanup, and a `take` that no live tuple matches, meets no expired tuple. -/
def MeetsAlive (s : TupleSpace) : SpaceCall × Nat → Prop
  | (.take pattern, now) =>
      (∀ t ∈ s.held, t.isExpired now = false → t.matches pattern = false) → s.AllAlive now
  | (.cleanupExpired, now) => s.AllAlive now
  | (.write _, _) | (.read _, _) | (.takeAll _, _) | (.clear, _) => True

theorem length_live_iff (tuples : List Tuple) (now : Nat) :
    tuples.length = (tuples.filter (!·.isExpired now)).length ↔
      ∀ t ∈ tuples, t.isExpired now = false := by
  rw [eq_comm, List.length_filter_eq_length_iff]
  simp only [Bool.not_eq_true']

variable {s : TupleSpace} {tuples : List Tuple}

/-- Of a space with the right size, a call leaves the size right exactly when it meets no tuple
that it drops in silence. -/
theorem sizeRight_afterCall_iff (hmem : s.storage = .inMemory tuples) (hsize : s.SizeRight)
    (a : SpaceCall × Nat) : (s.afterCall codec a).SizeRight ↔ s.MeetsAlive a := by
  have hheld : s.held = tuples := by rw [held, hmem]
  rw [SizeRight, hheld] at hsize
  obtain ⟨call, now⟩ := a
  cases call with
  | write tuple =>
      refine iff_of_true ?_ trivial
      rw [afterCall, write, writeToStorage, hmem]
      rfl
  | read pattern => exact iff_of_true (by rwa [afterCall, SizeRight, hheld]) trivial
  | take pattern =>
      rw [afterCall, take, takeFromStorage, hmem, MeetsAlive, AllAlive, hheld]
      dsimp only
      cases hfind : (tuples.filter (!·.isExpired now)).find? (·.matches pattern) with
      | some tuple =>
          refine iff_of_true rfl fun hnone => ?_
          have hlive := List.mem_filter.mp (List.mem_of_find?_eq_some hfind)
          have halive : tuple.isExpired now = false := by simpa using hlive.2
          have hmatch := List.find?_some (p := fun t : Tuple => t.matches pattern) hfind
          exact absurd hmatch (by rw [hnone tuple hlive.1 halive]; exact Bool.false_ne_true)
      | none =>
          have hnone : ∀ t ∈ tuples, t.isExpired now = false → t.matches pattern = false := by
            intro t ht halive
            have hlive : t ∈ tuples.filter (!·.isExpired now) :=
              List.mem_filter.mpr ⟨ht, by rw [halive]; rfl⟩
            exact Bool.eq_false_iff.mpr (List.find?_eq_none.mp hfind t hlive)
          change s.stats.currentSize = (tuples.filter (!·.isExpired now)).length ↔ _
          rw [hsize, length_live_iff]
          exact ⟨fun h _ => h, fun h => h hnone⟩
  | takeAll pattern =>
      refine iff_of_true ?_ trivial
      rw [afterCall, takeAll, hmem]
      rfl
  | cleanupExpired =>
      rw [afterCall, cleanupExpired, if_neg (not_not_intro s.leases_enabled), hmem, MeetsAlive,
        AllAlive, hheld]
      change s.stats.currentSize = (tuples.filter (!·.isExpired now)).length ↔ _
      rw [hsize, length_live_iff]
  | clear =>
      refine iff_of_true ?_ trivial
      rw [afterCall, clear, hmem]
      rfl

theorem afterCall_inMemory (hmem : s.storage = .inMemory tuples) (a : SpaceCall × Nat) :
    ∃ tuples', (s.afterCall codec a).storage = .inMemory tuples' := by
  obtain ⟨call, now⟩ := a
  cases call with
  | write tuple =>
      rw [afterCall, write, writeToStorage, hmem]
      exact ⟨_, rfl⟩
  | read pattern => exact ⟨tuples, hmem⟩
  | take pattern =>
      rw [afterCall, take, takeFromStorage, hmem]
      dsimp only
      split
      · exact ⟨_, rfl⟩
      · exact ⟨_, rfl⟩
  | takeAll pattern =>
      rw [afterCall, takeAll, hmem]
      exact ⟨_, rfl⟩
  | cleanupExpired =>
      rw [afterCall, cleanupExpired, if_neg (not_not_intro s.leases_enabled), hmem]
      exact ⟨_, rfl⟩
  | clear =>
      rw [afterCall, clear, hmem]
      exact ⟨_, rfl⟩

/-- After every call of a run the size is right, exactly when no cleanup and no `take` without a
match meets an expired tuple. -/
theorem current_size_right_iff (calls : List (SpaceCall × Nat)) :
    Along (afterCall codec) (fun s a => (s.afterCall codec a).SizeRight)
        (new (.inMemory [])) calls ↔
      Along (afterCall codec) MeetsAlive (new (.inMemory [])) calls := by
  have hstart : (new (.inMemory [])).SizeRight := rfl
  refine along_congr (I := fun s : TupleSpace => (∃ tuples, s.storage = .inMemory tuples) ∧
    s.SizeRight) ?_ ?_ ⟨⟨[], rfl⟩, hstart⟩ calls
  · rintro s a ⟨⟨tuples, hmem⟩, hsize⟩
    exact sizeRight_afterCall_iff codec hmem hsize a
  · rintro s a ⟨⟨tuples, hmem⟩, -⟩ hright
    exact ⟨afterCall_inMemory codec hmem a, hright⟩

/-- A tuple is cleaned up after its lease has expired. -/
theorem not_current_size_right :
    ¬∀ (codec : TupleCodec) (calls : List (SpaceCall × Nat)),
      (calls.map (·.2)).Pairwise (· ≤ ·) →
      (run (afterCall codec) (new (.inMemory [])) calls).SizeRight := by
  intro h
  have hright := h ⟨fun _ => .error "", fun _ => .error ""⟩
    [(.write { Tuple.new [.string "job"] with lease := some ⟨1, none, false⟩ }, 0),
      (.cleanupExpired, 5)] (by decide)
  revert hright
  rw [SizeRight]
  decide

end TupleSpace

end PlexSpaces.Tuples
