import Mathlib.Data.List.Basic
/-!
# Searching for the first least value

A loop over candidates that keeps a label and a value, and replaces both when it meets a
strictly smaller value.  `foldl_nearer_cases` says where the label that is left comes from,
`foldl_nearer_le` and `foldl_nearer_le_of_mem` that no value is smaller than the one kept.
-/

namespace PlexSpaces.Lib

universe u v w

variable {ι : Type u} {κ : Type v} {K : Type w} [LT K] [DecidableLT K]
  (label : ι → κ) (value : ι → K)

/-- One turn: the label and the value of a candidate whose value is strictly smaller. -/
def nearer (best : κ × K) (i : ι) : κ × K :=
  if value i < best.2 then (label i, value i) else best

variable [LE K] [Std.IsLinearOrder K] [Std.LawfulOrderLT K]

theorem nearer_le (best : κ × K) (i : ι) : (nearer label value best i).2 ≤ best.2 := by
  unfold nearer
  split
  · exact Std.le_of_lt ‹_›
  · exact Std.le_refl _

theorem nearer_le_value (best : κ × K) (i : ι) : (nearer label value best i).2 ≤ value i := by
  unfold nearer
  split
  · exact Std.le_refl _
  · exact Std.not_lt.mp ‹_›

theorem foldl_nearer_le (best : κ × K) (l : List ι) :
    (l.foldl (nearer label value) best).2 ≤ best.2 := by
  induction l generalizing best with
  | nil => exact Std.le_refl _
  | cons i l ih => exact Std.le_trans (ih _) (nearer_le label value best i)

theorem foldl_nearer_le_of_mem (best : κ × K) {l : List ι} {i : ι} (hi : i ∈ l) :
    (l.foldl (nearer label value) best).2 ≤ value i := by
  induction l generalizing best with
  | nil => cases hi
  | cons j l ih =>
      rw [List.foldl_cons]
      rcases List.mem_cons.mp hi with rfl | hi
      · exact Std.le_trans (foldl_nearer_le label value _ l) (nearer_le_value label value best i)
      · exact ih _ hi

/-- Either no candidate was strictly smaller than the start, or the first candidate with the
least value gave the label. -/
theorem foldl_nearer_cases (best : κ × K) (l : List ι) :
    l.foldl (nearer label value) best = best ∨
      ∃ l₁ i l₂, l = l₁ ++ i :: l₂ ∧ l.foldl (nearer label value) best = (label i, value i) ∧
        value i < best.2 ∧ ∀ j ∈ l₁, value i < value j := by
  induction l generalizing best with
  | nil => exact .inl rfl
  | cons j l ih =>
      rw [List.foldl_cons]
      rcases ih (nearer label value best j) with hkept | ⟨l₁, i, l₂, rfl, hfound, hlt, hfirst⟩
      · by_cases hj : value j < best.2
        · refine .inr ⟨[], j, l, rfl, ?_, hj, by simp⟩
          rw [hkept, nearer, if_pos hj]
        · left
          rw [hkept, nearer, if_neg hj]
      · refine .inr ⟨j :: l₁, i, l₂, rfl, hfound,
          Std.lt_of_lt_of_le hlt (nearer_le label value best j), ?_⟩
        intro k hk
        rcases List.mem_cons.mp hk with rfl | hk
        · exact Std.lt_of_lt_of_le hlt (nearer_le_value label value best k)
        · exact hfirst k hk

end PlexSpaces.Lib
