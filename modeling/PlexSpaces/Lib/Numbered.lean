import Mathlib.Data.List.Basic
/-!
# Numbered records

Records that are numbered in the order of their beginning: a new one goes to the end of the
list, and an old one is changed in place.  What stands under a number after either.
-/

namespace PlexSpaces.Lib

universe u

variable {α : Type u} {l : List α} {a b x : α} {i j : Nat}

/-- Under a number there is an old record, or the new one. -/
theorem getElem?_concat_eq_some :
    (l ++ [x])[i]? = some b ↔ l[i]? = some b ∨ i = l.length ∧ b = x := by
  rcases Nat.lt_trichotomy i l.length with hlt | rfl | hgt
  · rw [List.getElem?_append_left hlt]
    exact ⟨Or.inl, fun h => h.resolve_right fun hend => Nat.ne_of_lt hlt hend.1⟩
  · rw [List.getElem?_concat_length, List.getElem?_eq_none (Nat.le_refl _)]
    constructor
    · intro h
      exact Or.inr ⟨rfl, (Option.some.inj h).symm⟩
    · rintro (h | ⟨-, rfl⟩)
      · cases h
      · rfl
  · rw [List.getElem?_eq_none (by rw [List.length_append, List.length_singleton]; omega),
      List.getElem?_eq_none (Nat.le_of_lt hgt)]
    constructor
    · intro h
      cases h
    · rintro (h | ⟨rfl, -⟩)
      · cases h
      · omega

theorem getElem?_concat_of_some (h : l[i]? = some a) : (l ++ [x])[i]? = some a :=
  getElem?_concat_eq_some.mpr (Or.inl h)

/-- Under a number there is the old record, changed if it is the number's. -/
theorem getElem?_modify_eq_some {f : α → α} :
    (l.modify i f)[j]? = some b ↔ ∃ a, l[j]? = some a ∧ b = if i = j then f a else a := by
  rw [List.getElem?_modify]
  cases l[j]? with
  | none => exact ⟨fun h => (by cases h), fun ⟨_, h, _⟩ => (by cases h)⟩
  | some a =>
      constructor
      · intro h
        exact ⟨a, rfl, (Option.some.inj h).symm⟩
      · rintro ⟨_, h, rfl⟩
        cases h
        rfl

theorem getElem?_modify_self {f : α → α} (h : l[i]? = some a) :
    (l.modify i f)[i]? = some (f a) :=
  getElem?_modify_eq_some.mpr ⟨a, h, (if_pos rfl).symm⟩

theorem getElem?_modify_of_ne {f : α → α} (h : i ≠ j) : (l.modify i f)[j]? = l[j]? := by
  rw [List.getElem?_modify]
  simp only [if_neg h]
  exact Option.map_id'

/-- A record stays in its place under a change that keeps a fact about it. -/
theorem getElem?_modify_of_some {f : α → α} (P : α → Prop) (hf : ∀ a, P a → P (f a))
    (h : l[j]? = some a) (ha : P a) : ∃ b, (l.modify i f)[j]? = some b ∧ P b := by
  refine ⟨if i = j then f a else a, getElem?_modify_eq_some.mpr ⟨a, h, rfl⟩, ?_⟩
  split_ifs
  · exact hf a ha
  · exact ha

end PlexSpaces.Lib
