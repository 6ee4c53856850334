import Mathlib.Data.List.Dedup
/-!
# Orders of recency

A list that is kept in the order of the last touches: what is touched moves to the back.  The
elements of a history in the order of their last occurrences are `List.dedup`, so a list is in
the order of the last touches when it is a sublist of that (`touch_sublist`); what stands at its
front was not touched after the others (`exists_last_of_sublist`).
-/

namespace PlexSpaces.Lib

universe u

variable {α : Type u} [DecidableEq α] {order history : List α} {a b : α}

def touch (order : List α) (a : α) : List α := order.filter (· ≠ a) ++ [a]

theorem mem_touch : b ∈ touch order a ↔ b ∈ order ∨ b = a := by
  rw [touch, List.mem_append, List.mem_singleton, List.mem_filter, decide_eq_true_eq]
  by_cases hb : b = a <;> simp [hb]

theorem touch_of_notMem (h : a ∉ order) : touch order a = order ++ [a] := by
  rw [touch, List.filter_eq_self.mpr]
  intro b hb
  exact decide_eq_true fun hba => h (hba ▸ hb)

theorem dedup_concat (history : List α) (a : α) :
    (history ++ [a]).dedup = touch history.dedup a := by
  induction history with
  | nil => rfl
  | cons b history ih =>
      rw [List.cons_append, List.dedup_cons, List.dedup_cons, ih]
      by_cases hmem : b ∈ history
      · rw [if_pos (List.mem_append_left _ hmem), if_pos hmem]
      · rw [if_neg hmem]
        by_cases hb : b = a
        · rw [if_pos (by simp [hb]), touch, touch, List.filter_cons_of_neg (by simp [hb])]
        · rw [if_neg (by simp [hmem, hb]), touch, touch, List.filter_cons_of_pos (by simp [hb]),
            List.cons_append]

theorem touch_sublist (h : order.Sublist history.dedup) :
    (touch order a).Sublist (history ++ [a]).dedup := by
  rw [dedup_concat]
  exact (h.filter _).append (List.Sublist.refl _)

/-- After the last touch of the front, all others are touched. -/
theorem exists_last_of_sublist (h : (a :: order).Sublist history.dedup) :
    ∃ earlier later, history = earlier ++ a :: later ∧ a ∉ later ∧ ∀ b ∈ order, b ∈ later := by
  induction history with
  | nil => cases h
  | cons b history ih =>
      have hlast : (∃ earlier later, history = earlier ++ a :: later ∧ a ∉ later ∧
          ∀ c ∈ order, c ∈ later) → ∃ earlier later, b :: history = earlier ++ a :: later ∧
            a ∉ later ∧ ∀ c ∈ order, c ∈ later := by
        rintro ⟨earlier, later, rfl, hrest⟩
        exact ⟨b :: earlier, later, rfl, hrest⟩
      rw [List.dedup_cons] at h
      split_ifs at h with hmem
      · exact hlast (ih h)
      · rcases List.sublist_cons_iff.mp h with hsub | ⟨rest, heq, hsub⟩
        · exact hlast (ih hsub)
        · cases heq
          exact ⟨[], history, rfl, hmem, fun c hc => List.mem_dedup.mp (hsub.subset hc)⟩

end PlexSpaces.Lib
