import Mathlib.Data.List.Induction
import Mathlib.Data.List.Sort
/-!
# Logs with snapshots

A log is a list of entries at increasing positions.  A state machine that applies every
entry is recovered from a snapshot of its state at a position by the entries after that
position (`Ordered.foldl_since`), and no entry that is appended later makes the snapshot wrong
(`upTo_append`).
-/

namespace PlexSpaces.Lib.Log

universe u v

variable {E : Type u} {S : Type v} (pos : E → Nat)

def Ordered (log : List E) : Prop := log.Pairwise fun e e' => pos e < pos e'

/-- The position of the last entry, `0` for an empty log. -/
def last (log : List E) : Nat := (log.getLast?.map pos).getD 0

/-- The entries at positions up to `n`. -/
def upTo (n : Nat) (log : List E) : List E := log.filter fun e => pos e ≤ n

/-- The entries from position `n` on. -/
def since (n : Nat) (log : List E) : List E := log.filter fun e => n ≤ pos e

variable {pos}

@[simp] theorem last_concat (log : List E) (e : E) : last pos (log ++ [e]) = pos e := by
  simp [last]

theorem Ordered.le_last {log : List E} (h : Ordered pos log) {e : E} (he : e ∈ log) :
    pos e ≤ last pos log := by
  induction log using List.reverseRecOn with
  | nil => cases he
  | append_singleton log e' _ =>
      rw [last_concat]
      rcases List.mem_append.mp he with he | he
      · exact (List.pairwise_append.mp h).2.2 e he e' (List.mem_singleton_self e') |>.le
      · rw [List.mem_singleton.mp he]

theorem last_le {log : List E} {n : Nat} (h : ∀ e ∈ log, pos e ≤ n) : last pos log ≤ n := by
  rcases List.eq_nil_or_concat log with rfl | ⟨init, e, rfl⟩
  · exact Nat.zero_le n
  · rw [List.concat_eq_append] at h ⊢
    rw [last_concat]
    exact h e (by simp)

theorem Ordered.nodup {log : List E} (h : Ordered pos log) : (log.map pos).Nodup :=
  List.pairwise_map.mpr (h.imp fun hlt => hlt.ne)

/-- Entries at the positions after one that is not before the last can be appended. -/
theorem Ordered.append_range' {log es : List E} (h : Ordered pos log) {n : Nat}
    (hlast : last pos log ≤ n) (hes : es.map pos = List.range' (n + 1) es.length) :
    Ordered pos (log ++ es) := by
  have hrange : (es.map pos).Pairwise (· < ·) := by
    rw [hes]
    exact List.pairwise_lt_range'
  refine List.pairwise_append.mpr ⟨h, List.pairwise_map.mp hrange, ?_⟩
  intro e he e' he'
  have hmem : pos e' ∈ List.range' (n + 1) es.length := hes ▸ List.mem_map_of_mem he'
  have hle := h.le_last he
  have := (List.mem_range'_1.mp hmem).1
  omega

/-- The last position, when the entries continue the positions one by one. -/
theorem last_append_range' {log es : List E} {n : Nat} (hlast : last pos log = n)
    (hes : es.map pos = List.range' (n + 1) es.length) :
    last pos (log ++ es) = n + es.length := by
  rw [last, List.getLast?_append]
  rcases List.eq_nil_or_concat es with rfl | ⟨init, e, rfl⟩
  · rw [List.length_nil, Nat.add_zero, ← hlast]
    rfl
  · rw [List.concat_eq_append] at hes ⊢
    have hlast' := congrArg List.getLast? hes
    rw [List.getLast?_map, List.getLast?_range'] at hlast'
    have hpos : pos e = n + 1 + (init ++ [e]).length - 1 := by
      simpa using hlast'
    rw [List.getLast?_concat, Option.some_or, Option.map_some, Option.getD_some, hpos]
    omega

theorem Ordered.upTo_last {log : List E} (h : Ordered pos log) :
    upTo pos (last pos log) log = log := by
  refine List.filter_eq_self.mpr ?_
  intro e he
  exact decide_eq_true (h.le_last he)

/-- What is appended beyond a position leaves the entries up to it as they are. -/
theorem upTo_append {log es : List E} {n : Nat} (hes : ∀ e ∈ es, n < pos e) :
    upTo pos n (log ++ es) = upTo pos n log := by
  have hnone : es.filter (fun e => decide (pos e ≤ n)) = [] := by
    refine List.filter_eq_nil_iff.mpr ?_
    intro e he
    simpa using hes e he
  rw [upTo, List.filter_append, hnone, List.append_nil, upTo]

theorem Ordered.upTo_append_since {log : List E} (h : Ordered pos log) (n : Nat) :
    upTo pos n log ++ since pos (n + 1) log = log := by
  induction log with
  | nil => rfl
  | cons e log ih =>
      obtain ⟨hfirst, hrest⟩ := List.pairwise_cons.mp h
      by_cases hn : pos e ≤ n
      · have hnot : ¬n + 1 ≤ pos e := by omega
        rw [upTo, since, List.filter_cons_of_pos (by simpa using hn),
          List.filter_cons_of_neg (by simpa using hnot), List.cons_append]
        exact congrArg _ (ih hrest)
      · have hnone : upTo pos n (e :: log) = [] := by
          refine List.filter_eq_nil_iff.mpr ?_
          intro e' he'
          rcases List.mem_cons.mp he' with rfl | he'
          · simpa using hn
          · have := hfirst e' he'
            simp only [decide_eq_true_eq]
            omega
        have hall : since pos (n + 1) (e :: log) = e :: log := by
          refine List.filter_eq_self.mpr ?_
          intro e' he'
          rcases List.mem_cons.mp he' with rfl | he'
          · exact decide_eq_true (by omega)
          · have := hfirst e' he'
            exact decide_eq_true (by omega)
        rw [hnone, hall, List.nil_append]

/-- A snapshot at a position and the entries after it give the state of the whole log. -/
theorem Ordered.foldl_since {log : List E} (h : Ordered pos log) (apply : S → E → S) (s : S)
    (n : Nat) :
    (since pos (n + 1) log).foldl apply ((upTo pos n log).foldl apply s) =
      log.foldl apply s := by
  rw [← List.foldl_append, h.upTo_append_since]

/-- Sorting part of a log by position leaves it as it is. -/
theorem Ordered.sort_filter {log : List E} (h : Ordered pos log) (p : E → Bool) :
    (log.filter p).insertionSort (fun e e' => pos e ≤ pos e') = log.filter p := by
  have hle : (log.filter p).Pairwise fun e e' => pos e ≤ pos e' :=
    (h.filter p).imp fun hlt => hlt.le
  exact hle.insertionSort_eq

end PlexSpaces.Lib.Log
