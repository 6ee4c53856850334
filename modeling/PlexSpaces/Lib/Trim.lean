import Mathlib.Data.List.DropRight
import Mathlib.Data.List.Infix
/-!
# Trimming and padding lists

The text operations on both ends of a list: an element is taken off the ends, a pair of
equal elements is collapsed to one until none is left, and a suffix is taken off as often
as it stands there, or put there unless it already does.
-/

namespace PlexSpaces.Lib

variable {α : Type*} [DecidableEq α]

/-- The list without the `a`s at its ends. -/
def trimMatches (a : α) (xs : List α) : List α :=
  (xs.dropWhile (· = a)).rdropWhile (· = a)

/-- Every pair of `a`s, read from the left, becomes one `a`. -/
def replacePair (a : α) : List α → List α
  | x :: y :: xs =>
      if x = a ∧ y = a then a :: replacePair a xs else x :: replacePair a (y :: xs)
  | [x] => [x]
  | [] => []

theorem length_replacePair_le (a : α) (xs : List α) :
    (replacePair a xs).length ≤ xs.length := by
  fun_induction replacePair a xs with
  | case1 x y xs hpair ih => simp only [List.length_cons]; omega
  | case2 x y xs hpair ih => simp only [List.length_cons] at ih ⊢; omega
  | case3 x => exact le_rfl
  | case4 => exact le_rfl

theorem length_replacePair_lt {a : α} {xs : List α} (h : [a, a] <:+: xs) :
    (replacePair a xs).length < xs.length := by
  fun_induction replacePair a xs with
  | case1 x y xs hpair ih =>
      have hle := length_replacePair_le a xs
      simp only [List.length_cons]
      omega
  | case2 x y xs hpair ih =>
      rcases List.infix_cons_iff.mp h with hprefix | hinside
      · obtain ⟨rfl, htail⟩ := List.cons_prefix_cons.mp hprefix
        obtain ⟨rfl, -⟩ := List.cons_prefix_cons.mp htail
        exact absurd ⟨rfl, rfl⟩ hpair
      · have hlt := ih hinside
        simp only [List.length_cons] at hlt ⊢
        omega
  | case3 x =>
      have hlen := h.length_le
      simp at hlen
  | case4 =>
      have hlen := h.length_le
      simp at hlen

theorem mem_of_mem_replacePair {a x : α} {xs : List α} (h : x ∈ replacePair a xs) : x ∈ xs := by
  fun_induction replacePair a xs with
  | case1 y z xs hpair ih =>
      rcases List.mem_cons.mp h with rfl | h
      · simp [hpair.1]
      · exact List.mem_cons_of_mem _ (List.mem_cons_of_mem _ (ih h))
  | case2 y z xs hpair ih =>
      rcases List.mem_cons.mp h with rfl | h
      · exact List.mem_cons_self
      · exact List.mem_cons_of_mem _ (ih h)
  | case3 y => exact h
  | case4 => exact h

/-- Pairs of `a`s are replaced by one until no two stand side by side. -/
def collapse (a : α) (xs : List α) : List α :=
  if [a, a] <:+: xs then collapse a (replacePair a xs) else xs
termination_by xs.length
decreasing_by exact length_replacePair_lt ‹_›

theorem collapse_of_not_infix {a : α} {xs : List α} (h : ¬[a, a] <:+: xs) :
    collapse a xs = xs := by
  rw [collapse, if_neg h]

theorem mem_of_mem_collapse {a x : α} {xs : List α} (h : x ∈ collapse a xs) : x ∈ xs := by
  fun_induction collapse a xs with
  | case1 xs hinside ih => exact mem_of_mem_replacePair (ih h)
  | case2 xs hinside => exact h

theorem length_collapse_le (a : α) (xs : List α) : (collapse a xs).length ≤ xs.length := by
  fun_induction collapse a xs with
  | case1 xs hinside ih => exact ih.trans (length_replacePair_le a xs)
  | case2 xs hinside => exact le_rfl

theorem length_trimMatches_le (a : α) (xs : List α) : (trimMatches a xs).length ≤ xs.length :=
  (List.rdropWhile_prefix _ _).length_le.trans (List.dropWhile_suffix _).length_le

theorem mem_of_mem_trimMatches {a x : α} {xs : List α} (h : x ∈ trimMatches a xs) : x ∈ xs :=
  (List.dropWhile_suffix _).subset ((List.rdropWhile_prefix _ _).subset h)

theorem trimMatches_of_notMem {a : α} {xs : List α} (h : a ∉ xs) : trimMatches a xs = xs := by
  have hne : ∀ x ∈ xs, ¬decide (x = a) = true := by
    intro x hx heq
    rw [decide_eq_true_eq] at heq
    exact h (heq ▸ hx)
  have hleft : xs.dropWhile (· = a) = xs := by
    rw [List.dropWhile_eq_self_iff]
    intro hpos
    exact hne _ (List.getElem_mem hpos)
  rw [trimMatches, hleft, List.rdropWhile_eq_self_iff]
  intro hnil
  exact hne _ (List.getLast_mem hnil)

/-- The list without the copies of `suffix` at its end. -/
def trimEndMatches (suffix xs : List α) : List α :=
  if suffix ≠ [] ∧ suffix <:+ xs then
    trimEndMatches suffix (xs.take (xs.length - suffix.length))
  else xs
termination_by xs.length
decreasing_by
  rename_i h
  have hpos := List.length_pos_of_ne_nil h.1
  have hle := h.2.length_le
  simp only [List.length_take]
  omega

theorem trimEndMatches_initial (suffix xs : List α) : trimEndMatches suffix xs <+: xs := by
  fun_induction trimEndMatches suffix xs with
  | case1 xs hsuffix ih => exact ih.trans (List.take_prefix _ _)
  | case2 xs hsuffix => exact List.prefix_rfl

theorem trimEndMatches_of_not_suffix {suffix xs : List α} (h : ¬suffix <:+ xs) :
    trimEndMatches suffix xs = xs := by
  rw [trimEndMatches, if_neg (fun hsuffix => h hsuffix.2)]

/-- A list that does not begin as the suffix does keeps its first element. -/
theorem trimEndMatches_ne_nil {a x : α} {suffix xs ys : List α} (hxs : xs = x :: ys)
    (ha : x ≠ a) : trimEndMatches (a :: suffix) xs ≠ [] := by
  fun_induction trimEndMatches (a :: suffix) xs generalizing ys with
  | case1 xs hsuffix ih =>
      obtain ⟨-, p, hp⟩ := hsuffix
      rw [← hp] at ih ⊢
      have htake : (p ++ a :: suffix).take ((p ++ a :: suffix).length - (a :: suffix).length) =
          p := by
        rw [List.length_append, Nat.add_sub_cancel, List.take_left']
        rfl
      rw [htake] at ih ⊢
      cases p with
      | nil =>
          rw [List.nil_append, hxs] at hp
          exact absurd (List.cons.inj hp).1.symm ha
      | cons y p =>
          rw [List.cons_append, hxs] at hp
          exact ih (congrArg (· :: p) (List.cons.inj hp).1)
  | case2 xs hsuffix =>
      rw [hxs]
      exact List.cons_ne_nil _ _

/-- The list with `suffix` at its end, put there unless it already is. -/
def pushSuffix (suffix xs : List α) : List α :=
  if suffix <:+ xs then xs else xs ++ suffix

theorem suffix_pushSuffix (suffix xs : List α) : suffix <:+ pushSuffix suffix xs := by
  unfold pushSuffix
  split_ifs with hsuffix
  · exact hsuffix
  · exact List.suffix_append _ _

theorem prefix_pushSuffix (suffix xs : List α) : xs <+: pushSuffix suffix xs := by
  unfold pushSuffix
  split_ifs with hsuffix
  · exact List.prefix_rfl
  · exact List.prefix_append _ _

theorem mem_pushSuffix {suffix xs : List α} {x : α} (h : x ∈ pushSuffix suffix xs) :
    x ∈ xs ∨ x ∈ suffix := by
  unfold pushSuffix at h
  split_ifs at h with hsuffix
  · exact .inl h
  · exact List.mem_append.mp h

theorem length_pushSuffix_le (suffix xs : List α) :
    (pushSuffix suffix xs).length ≤ xs.length + suffix.length := by
  unfold pushSuffix
  split_ifs with hsuffix
  · omega
  · exact List.length_append.le

end PlexSpaces.Lib
