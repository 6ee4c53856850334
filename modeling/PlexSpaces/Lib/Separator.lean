import Mathlib.Data.List.Basic
import Mathlib.Data.List.Count
/-!
# Fields joined with a separator

Texts are lists over any alphabet.  Fields are joined with a separator that is not
escaped; `cut` splits at the first separator, `cutLast` at the last one and `cutBy` at
the first place where a whole text stands.  Joined fields are found again exactly when
no field contains the separator.
-/

namespace PlexSpaces.Lib

universe u

variable {α : Type u} [DecidableEq α] {a : α}

def cut (a : α) : List α → Option (List α × List α)
  | [] => none
  | x :: xs => if x = a then some ([], xs) else (cut a xs).map fun p => (x :: p.1, p.2)

theorem cut_append_cons {xs : List α} (ha : a ∉ xs) (ys : List α) :
    cut a (xs ++ a :: ys) = some (xs, ys) := by
  induction xs with
  | nil => simp [cut]
  | cons x xs ih =>
      have hx : x ≠ a := by
        intro h
        exact ha (h ▸ List.mem_cons_self)
      have hrest : cut a (xs ++ a :: ys) = some (xs, ys) :=
        ih fun h => ha (List.mem_cons_of_mem x h)
      simp [cut, hx, hrest]

theorem cut_eq_none {xs : List α} (ha : a ∉ xs) : cut a xs = none := by
  induction xs with
  | nil => rfl
  | cons x xs ih =>
      have hx : x ≠ a := by
        intro h
        exact ha (h ▸ List.mem_cons_self)
      rw [cut, if_neg hx, ih fun h => ha (List.mem_cons_of_mem x h)]
      rfl

/-- What a cut gives is the text around the first separator. -/
theorem eq_of_cut {xs p q : List α} (h : cut a xs = some (p, q)) : xs = p ++ a :: q ∧ a ∉ p := by
  by_cases ha : a ∈ xs
  · obtain ⟨p', q', rfl, hp'⟩ := List.eq_append_cons_of_mem ha
    rw [cut_append_cons hp'] at h
    cases h
    exact ⟨rfl, hp'⟩
  · rw [cut_eq_none ha] at h
    cases h

theorem length_lt_of_cut {xs p q : List α} (h : cut a xs = some (p, q)) :
    q.length < xs.length := by
  induction xs generalizing p with
  | nil => cases h
  | cons x xs ih =>
      rw [cut] at h
      split_ifs at h
      · cases h
        exact Nat.lt_succ_self _
      · obtain ⟨r, hr, heq⟩ := Option.map_eq_some_iff.mp h
        cases heq
        exact Nat.lt_trans (ih hr) (Nat.lt_succ_self _)

theorem append_cons_inj {xs xs' ys ys' : List α} (ha : a ∉ xs) (ha' : a ∉ xs') :
    xs ++ a :: ys = xs' ++ a :: ys' ↔ xs = xs' ∧ ys = ys' := by
  constructor
  · intro h
    have hcut := cut_append_cons ha ys
    rw [h, cut_append_cons ha' ys'] at hcut
    cases hcut
    exact ⟨rfl, rfl⟩
  · rintro ⟨rfl, rfl⟩
    rfl

/-- A text that begins with a delimited word, cut at some separator: the cut is at its start or
not before the word's end. -/
theorem eq_nil_or_prefix_of_cons_append {word x w rest : List α} (hword : a ∉ word)
    (h : a :: (word ++ a :: x) = w ++ a :: rest) : w = [] ∨ a :: (word ++ [a]) <+: w ++ [a] := by
  cases w with
  | nil => exact .inl rfl
  | cons c w =>
      right
      rw [List.cons_append, List.cons.injEq] at h
      obtain ⟨rfl, h⟩ := h
      rw [List.cons_append, List.prefix_cons_inj]
      by_cases hmem : a ∈ w
      · obtain ⟨p, q, rfl, hp⟩ := List.eq_append_cons_of_mem hmem
        rw [List.append_assoc, List.cons_append, append_cons_inj hword hp] at h
        rw [h.1]
        exact ⟨q ++ [a], by simp⟩
      · rw [append_cons_inj hword hmem] at h
        exact h.1 ▸ List.prefix_refl _

/-- Two texts that are equal with delimited words behind their first parts: the parts and the
words are equal, or one part and its word begin the other part. -/
theorem append_delimited_eq {g g' word word' x y : List α} (hword : a ∉ word) (hword' : a ∉ word')
    (h : g ++ a :: (word ++ a :: x) = g' ++ a :: (word' ++ a :: y)) :
    (g = g' ∧ word = word' ∧ x = y) ∨ g ++ a :: (word ++ [a]) <+: g' ++ [a] ∨
      g' ++ a :: (word' ++ [a]) <+: g ++ [a] := by
  rcases List.append_eq_append_iff.mp h with ⟨w, rfl, hw⟩ | ⟨w, rfl, hw⟩
  · rcases eq_nil_or_prefix_of_cons_append hword hw with rfl | hprefix
    · rw [List.nil_append, List.cons.injEq, append_cons_inj hword hword'] at hw
      exact .inl ⟨(List.append_nil g).symm, hw.2⟩
    · right; left
      rwa [List.append_assoc, List.prefix_append_right_inj]
  · rcases eq_nil_or_prefix_of_cons_append hword' hw with rfl | hprefix
    · rw [List.nil_append, List.cons.injEq, append_cons_inj hword' hword] at hw
      exact .inl ⟨List.append_nil g', hw.2.1.symm, hw.2.2.symm⟩
    · right; right
      rwa [List.append_assoc, List.prefix_append_right_inj]

def cutLast (a : α) (xs : List α) : Option (List α × List α) :=
  (cut a xs.reverse).map fun p => (p.2.reverse, p.1.reverse)

theorem cutLast_append_cons (xs : List α) {ys : List α} (ha : a ∉ ys) :
    cutLast a (xs ++ a :: ys) = some (xs, ys) := by
  have hreverse : (xs ++ a :: ys).reverse = ys.reverse ++ a :: xs.reverse := by simp
  have ha' : a ∉ ys.reverse := by simpa using ha
  rw [cutLast, hreverse, cut_append_cons ha']
  simp

/-- The text before and after the first occurrence of `sep`. -/
def cutBy (sep : List α) : List α → Option (List α × List α)
  | [] => if sep = [] then some ([], []) else none
  | x :: xs =>
      if sep.isPrefixOf (x :: xs) then some ([], (x :: xs).drop sep.length)
      else (cutBy sep xs).map fun p => (x :: p.1, p.2)

/-- A field without the first letter of `sep` ends where `sep` stands first. -/
theorem cutBy_append {xs sep : List α} (ha : a ∉ xs) (ys : List α) :
    cutBy (a :: sep) (xs ++ (a :: sep ++ ys)) = some (xs, ys) := by
  induction xs with
  | nil => simp [cutBy]
  | cons x xs ih =>
      have hx : a ≠ x := by
        intro h
        exact ha (h ▸ List.mem_cons_self)
      have hrest := ih fun h => ha (List.mem_cons_of_mem x h)
      simp only [List.cons_append] at hrest ⊢
      simp [cutBy, hx, hrest]

def joined (a : α) (x y z : List α) : List α := x ++ a :: (y ++ a :: z)

theorem count_joined (x y z : List α) :
    (joined a x y z).count a = x.count a + y.count a + z.count a + 2 := by
  simp only [joined, List.count_append, List.count_cons_self]
  omega

/-- Fields can be told from their joined text exactly when none of them contains the
separator. -/
theorem joined_unique_iff (x y z : List α) :
    (∀ x' y' z', joined a x' y' z' = joined a x y z → x' = x ∧ y' = y ∧ z' = z) ↔
      a ∉ x ∧ a ∉ y ∧ a ∉ z := by
  constructor
  · intro h
    -- a separator inside a field can be taken for the one next to it
    refine ⟨fun hx => ?_, fun hy => ?_, fun hz => ?_⟩
    · obtain ⟨p, q, rfl, -⟩ := List.eq_append_cons_of_mem hx
      have heq := h p (q ++ a :: y) z (by simp [joined])
      simpa using heq.1
    · obtain ⟨p, q, rfl, -⟩ := List.eq_append_cons_of_mem hy
      have heq := h x p (q ++ a :: z) (by simp [joined])
      simpa using heq.2.1
    · obtain ⟨p, q, rfl, -⟩ := List.eq_append_cons_of_mem hz
      have heq := h x (y ++ a :: p) q (by simp [joined])
      simpa using heq.2.1
  · rintro ⟨hx, hy, hz⟩ x' y' z' heq
    have hcount := congrArg (List.count a) heq
    rw [count_joined, count_joined, List.count_eq_zero_of_not_mem hx,
      List.count_eq_zero_of_not_mem hy, List.count_eq_zero_of_not_mem hz] at hcount
    have hx' : a ∉ x' := List.count_eq_zero.mp (by omega)
    have hy' : a ∉ y' := List.count_eq_zero.mp (by omega)
    obtain ⟨rfl, hrest⟩ := (append_cons_inj hx' hx).mp heq
    obtain ⟨rfl, rfl⟩ := (append_cons_inj hy' hy).mp hrest
    exact ⟨rfl, rfl, rfl⟩

omit [DecidableEq α] in
/-- The first field is the only one that passes for a prefix of the text exactly when
it does not contain the separator. -/
theorem prefix_unique_iff {w v : List α} (hv : a ∉ v) :
    (∀ h, (h ++ [a]) <+: (w ++ a :: v) → h = w) ↔ a ∉ w := by
  constructor
  · intro huniq hw
    obtain ⟨p, q, rfl, -⟩ := List.eq_append_cons_of_mem hw
    have hp := huniq p ⟨q ++ a :: v, by simp⟩
    simp at hp
  · rintro hw h ⟨rest, hrest⟩
    rw [List.append_assoc, List.singleton_append] at hrest
    exact ((List.append_cons_inj_of_notMem hw hv).mp hrest.symm).1.symm

/-- Cutting the text gives the first field back exactly when it does not contain the
separator. -/
theorem cut_fst_iff {w v : List α} :
    (∃ rest, cut a (w ++ a :: v) = some (w, rest)) ↔ a ∉ w := by
  constructor
  · rintro ⟨rest, hcut⟩ hw
    obtain ⟨p, q, rfl, hp⟩ := List.eq_append_cons_of_mem hw
    rw [List.append_assoc, List.cons_append, cut_append_cons hp] at hcut
    simp at hcut
  · intro hw
    exact ⟨v, cut_append_cons hw v⟩

end PlexSpaces.Lib
