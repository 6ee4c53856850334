import Mathlib.Data.List.Defs
import Mathlib.Algebra.Order.Group.Nat
/-!
# Chunks of a list

`List.toChunks` goes through a list with two accumulators.  Here is its recursion, one chunk after
the other (`toChunks_eq`), and what follows from it: the chunks make up the list, and none is longer
than asked for.
-/

namespace PlexSpaces.Lib

variable {α : Type}

theorem take_zipIdx (xs : List α) (k n : Nat) : (xs.zipIdx k).take n = (xs.take n).zipIdx k := by
  refine List.ext_getElem? fun i => ?_
  rw [List.getElem?_zipIdx, List.getElem?_take, List.getElem?_take, List.getElem?_zipIdx]
  split <;> rfl

theorem drop_zipIdx (xs : List α) (k n : Nat) :
    (xs.zipIdx k).drop n = (xs.drop n).zipIdx (k + n) := by
  refine List.ext_getElem? fun i => ?_
  rw [List.getElem?_zipIdx, List.getElem?_drop, List.getElem?_drop, List.getElem?_zipIdx,
    Nat.add_assoc]

/-- What stands between two positions, the second one at most at the end. -/
theorem slice_eq (xs : List α) (k n : Nat) :
    (xs.take (min (k + n) xs.length)).drop k = (xs.drop k).take n := by
  rw [List.drop_take, List.take_eq_take_iff, List.length_drop]
  omega

theorem toChunks_nil (n : Nat) : ([] : List α).toChunks n = [] := by
  cases n <;> rfl

/-- The chunk that is being filled is the first one of what is left. -/
theorem toChunks_go {n : Nat} (hn : n ≠ 0) (xs : List α) (chunk : Array α)
    (chunks : Array (List α)) (hsize : chunk.size ≤ n) (hne : chunk.size ≠ 0) :
    List.toChunks.go n xs chunk chunks =
      chunks.toList ++ (chunk.toList ++ xs).take n :: ((chunk.toList ++ xs).drop n).toChunks n := by
  induction xs generalizing chunk chunks with
  | nil =>
      rw [List.toChunks.go, List.append_nil, List.take_of_length_le (by simpa using hsize),
        List.drop_of_length_le (by simpa using hsize), toChunks_nil]
      exact Array.toList_push
  | cons x xs ih =>
      have hfirst : (x :: xs).toChunks n = (x :: xs).take n :: ((x :: xs).drop n).toChunks n := by
        rw [List.toChunks.eq_3 _ _ _ hn]
        exact ih #[x] #[] (Nat.pos_of_ne_zero hn) Nat.one_ne_zero
      rw [List.toChunks.go]
      by_cases hfull : chunk.size = n
      · have hlength : chunk.toList.length = n := hfull
        have hnew : (Array.mkEmpty n).push x = #[x] := rfl
        rw [if_pos (beq_iff_eq.mpr hfull), List.take_left' hlength, List.drop_left' hlength, hfirst,
          hnew, ih #[x] _ (Nat.pos_of_ne_zero hn) Nat.one_ne_zero, Array.toList_push,
          List.append_assoc]
        rfl
      · rw [if_neg (by simpa using hfull), ih _ _ ?_ ?_, Array.toList_push, List.append_assoc]
        · rfl
        · rw [Array.size_push]
          omega
        · rw [Array.size_push]
          omega

theorem toChunks_eq {n : Nat} (hn : n ≠ 0) {xs : List α} (hxs : xs ≠ []) :
    xs.toChunks n = xs.take n :: (xs.drop n).toChunks n := by
  cases xs with
  | nil => exact absurd rfl hxs
  | cons x xs =>
      rw [List.toChunks.eq_3 _ _ _ hn, toChunks_go hn xs #[x] #[] (Nat.pos_of_ne_zero hn)
        Nat.one_ne_zero]
      rfl

theorem flatten_toChunks {n : Nat} (hn : n ≠ 0) (xs : List α) : (xs.toChunks n).flatten = xs := by
  by_cases hxs : xs = []
  · rw [hxs, toChunks_nil]
    rfl
  · have hshorter : (xs.drop n).length < xs.length := by
      have hpos := List.length_pos_iff.mpr hxs
      rw [List.length_drop]
      omega
    rw [toChunks_eq hn hxs, List.flatten_cons, flatten_toChunks hn (xs.drop n),
      List.take_append_drop]
termination_by xs.length

theorem length_le_of_mem_toChunks {n : Nat} (hn : n ≠ 0) {xs chunk : List α}
    (h : chunk ∈ xs.toChunks n) : chunk.length ≤ n := by
  by_cases hxs : xs = []
  · rw [hxs, toChunks_nil] at h
    cases h
  · have hshorter : (xs.drop n).length < xs.length := by
      have hpos := List.length_pos_iff.mpr hxs
      rw [List.length_drop]
      omega
    rw [toChunks_eq hn hxs] at h
    rcases List.mem_cons.mp h with rfl | h
    · exact List.length_take_le n xs
    · exact length_le_of_mem_toChunks hn h
termination_by xs.length

end PlexSpaces.Lib
