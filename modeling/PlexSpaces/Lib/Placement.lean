import Mathlib.Data.List.Sort
import Mathlib.Data.List.Nodup
/-!
# Placing an element behind its equals

A list kept in descending order of a rank, equal ranks in order of arrival.
`place` puts a new element behind the elements of at least its rank, `Ranked`
says what the order is, and `insertionSort_eq_place_iff` says when a stable sort
by other keys, of a list into which the element was put somewhere, gives `place`.
-/

namespace PlexSpaces.Lib

universe u v

variable {α : Type u} {K : Type v} [LinearOrder K] {rank : α → K} {a b : α} {l : List α}

/-- `a` comes before `b`: a higher rank, or the same rank and an earlier arrival. -/
def Ranked (rank : α → K) (arrivals : List α) (a b : α) : Prop :=
  rank b < rank a ∨ rank a = rank b ∧ [a, b].Sublist arrivals

/-- `a` behind the elements of at least its rank. -/
def place (rank : α → K) (a : α) (l : List α) : List α :=
  l.filter (fun x => rank a ≤ rank x) ++ a :: l.filter (fun x => rank x < rank a)

/-- No two elements of a list without repetition stand in both orders. -/
theorem not_pair_sublist_swap (hl : l.Nodup) (hab : [a, b].Sublist l) : ¬[b, a].Sublist l := by
  induction l with
  | nil => cases hab
  | cons c l ih =>
      obtain ⟨hc, hl⟩ := List.nodup_cons.mp hl
      intro hba
      cases hab with
      | cons _ hab =>
          cases hba with
          | cons _ hba => exact ih hl hab hba
          | cons_cons _ hba => exact hc (hab.subset (by simp))
      | cons_cons _ hab =>
          cases hba with
          | cons _ hba => exact hc (hba.subset (by simp))
          | cons_cons _ hba => exact hc (hab.subset (by simp))

theorem Ranked.mono {arrivals later : List α} (h : Ranked rank arrivals a b)
    (hsub : arrivals.Sublist later) : Ranked rank later a b :=
  h.imp_right fun ⟨hrank, hab⟩ => ⟨hrank, hab.trans hsub⟩

theorem Ranked.le {arrivals : List α} (h : Ranked rank arrivals a b) : rank b ≤ rank a := by
  rcases h with h | ⟨h, -⟩
  · exact h.le
  · exact h.ge

theorem Ranked.asymm {arrivals : List α} (harrivals : arrivals.Nodup)
    (hab : Ranked rank arrivals a b) : ¬Ranked rank arrivals b a := by
  intro hba
  rcases hab with hlt | ⟨hrank, hab⟩
  · exact hlt.not_ge hba.le
  · rcases hba with hlt | ⟨-, hba⟩
    · exact hlt.ne hrank
    · exact not_pair_sublist_swap harrivals hab hba

theorem eq_of_ranked {arrivals l₁ l₂ : List α} (harrivals : arrivals.Nodup) (hperm : l₁.Perm l₂)
    (h₁ : l₁.Pairwise (Ranked rank arrivals)) (h₂ : l₂.Pairwise (Ranked rank arrivals)) :
    l₁ = l₂ :=
  hperm.eq_of_pairwise (fun _ _ _ _ hab hba => absurd hba (hab.asymm harrivals)) h₁ h₂

/-! ## Placing -/

theorem place_perm (rank : α → K) (a : α) (l : List α) : (place rank a l).Perm (a :: l) := by
  have hsplit : (l.filter (fun x => decide (rank a ≤ rank x)) ++
      l.filter (fun x => !decide (rank a ≤ rank x))).Perm l :=
    List.filter_append_perm _ l
  have hlt : (fun x => !decide (rank a ≤ rank x)) = fun x => decide (rank x < rank a) := by
    funext x
    rw [← decide_not]
    exact decide_eq_decide.mpr not_le
  rw [hlt] at hsplit
  exact List.perm_middle.trans (hsplit.cons a)

theorem mem_place {x : α} : x ∈ place rank a l ↔ x = a ∨ x ∈ l := by
  rw [(place_perm rank a l).mem_iff, List.mem_cons]

theorem pairwise_place {arrivals : List α} (hl : l.Pairwise (Ranked rank arrivals))
    (hmem : ∀ x ∈ l, x ∈ arrivals) :
    (place rank a l).Pairwise (Ranked rank (arrivals ++ [a])) := by
  have hold : l.Pairwise (Ranked rank (arrivals ++ [a])) :=
    hl.imp fun h => h.mono (List.sublist_append_left arrivals [a])
  refine List.pairwise_append.mpr ⟨hold.filter _, List.pairwise_cons.mpr ⟨?_, hold.filter _⟩, ?_⟩
  · intro x hx
    exact .inl (of_decide_eq_true (List.mem_filter.mp hx).2)
  · intro x hx y hy
    obtain ⟨hxl, hle⟩ := List.mem_filter.mp hx
    have hax : rank a ≤ rank x := of_decide_eq_true hle
    rcases List.mem_cons.mp hy with rfl | hy
    · rcases hax.lt_or_eq with hlt | heq
      · exact .inl hlt
      · have hpair : ([x] ++ [y]).Sublist (arrivals ++ [y]) :=
          (List.singleton_sublist.mpr (hmem x hxl)).append_right [y]
        exact .inr ⟨heq.symm, hpair⟩
    · have hya : rank y < rank a := of_decide_eq_true (List.mem_filter.mp hy).2
      exact .inl (hya.trans_le hax)

/-- A list in descending order is its upper part followed by its lower part. -/
theorem filter_append_filter_lt (c : K) (hl : l.Pairwise fun x y => rank y ≤ rank x) :
    l.filter (fun x => c ≤ rank x) ++ l.filter (fun x => rank x < c) = l := by
  induction l with
  | nil => rfl
  | cons x l ih =>
      obtain ⟨hx, hl⟩ := List.pairwise_cons.mp hl
      by_cases hc : c ≤ rank x
      · have hx : decide (rank x < c) = false := decide_eq_false hc.not_gt
        rw [List.filter_cons, if_pos (decide_eq_true hc), List.filter_cons, hx, List.cons_append]
        exact congrArg (x :: ·) (ih hl)
      · have hall : ∀ y ∈ x :: l, rank y < c := by
          intro y hy
          rcases List.mem_cons.mp hy with rfl | hy
          · exact lt_of_not_ge hc
          · exact (hx y hy).trans_lt (lt_of_not_ge hc)
        have hnone : (x :: l).filter (fun x => c ≤ rank x) = [] :=
          List.filter_eq_nil_iff.mpr fun y hy => by simpa using hall y hy
        have hself : (x :: l).filter (fun x => rank x < c) = x :: l :=
          List.filter_eq_self.mpr fun y hy => by simpa using hall y hy
        rw [hnone, hself, List.nil_append]

/-! ## Lists scanned from the front -/

/-- Inserting at the first element that a scan does not pass. -/
theorem insertIdx_findIdx {p passes : α → Bool} (hp : ∀ x ∈ l, p x = !passes x) :
    l.insertIdx (l.findIdx p) a = l.takeWhile passes ++ a :: l.dropWhile passes := by
  induction l with
  | nil => rfl
  | cons x l ih =>
      have hx := hp x List.mem_cons_self
      have hrest := ih fun y hy => hp y (List.mem_cons_of_mem x hy)
      rw [List.findIdx_cons, hx, List.takeWhile_cons, List.dropWhile_cons]
      cases passes x with
      | true => exact congrArg (x :: ·) hrest
      | false => rfl

/-- A scan of a descending list that stops only below `c` leaves a rest below `c`. -/
theorem rank_lt_of_mem_dropWhile {passes : α → Bool} {c : K}
    (hl : l.Pairwise fun x y => rank y ≤ rank x)
    (hstop : ∀ x ∈ l, passes x = false → rank x < c) :
    ∀ x ∈ l.dropWhile passes, rank x < c := by
  induction l with
  | nil => intro x hx; cases hx
  | cons y l ih =>
      obtain ⟨hy, hl⟩ := List.pairwise_cons.mp hl
      rw [List.dropWhile_cons]
      cases hpasses : passes y with
      | true => exact ih hl fun x hx => hstop x (List.mem_cons_of_mem y hx)
      | false =>
          have hlt : rank y < c := hstop y List.mem_cons_self hpasses
          intro x hx
          rcases List.mem_cons.mp hx with rfl | hx
          · exact hlt
          · exact (hy x hx).trans_lt hlt

/-- Where no key repeats, erasing the first element with a key leaves those without it. -/
theorem eraseP_eq_filter {κ : Type v} [DecidableEq κ] {key : α → κ} {k : κ} {p : α → Bool}
    (hl : (l.map key).Nodup) (hp : ∀ x ∈ l, p x = (key x == k)) :
    l.eraseP p = l.filter (fun x => key x ≠ k) := by
  induction l with
  | nil => rfl
  | cons x l ih =>
      obtain ⟨hx, hl⟩ := List.nodup_cons.mp hl
      rw [List.eraseP_cons, hp x List.mem_cons_self, List.filter_cons]
      by_cases hk : key x = k
      · have hrest : ∀ y ∈ l, key y ≠ k := by
          intro y hy heq
          exact hx (List.mem_map.mpr ⟨y, hy, heq.trans hk.symm⟩)
        have hself : l.filter (fun x => key x ≠ k) = l :=
          List.filter_eq_self.mpr fun y hy => decide_eq_true (hrest y hy)
        rw [beq_iff_eq.mpr hk, if_neg (by simpa using hk)]
        exact hself.symm
      · rw [beq_eq_false_iff_ne.mpr hk, if_pos (by simpa using hk)]
        exact congrArg (x :: ·) (ih hl fun y hy => hp y (List.mem_cons_of_mem x hy))

theorem insertionSort_congr {r s : α → α → Prop} [DecidableRel r] [DecidableRel s]
    (hrs : ∀ x ∈ l, ∀ y ∈ l, (r x y ↔ s x y)) : l.insertionSort r = l.insertionSort s := by
  have hmap := List.map_insertionSort r s id l hrs
  rwa [List.map_id, List.map_id] at hmap

/-! ## Sorting by other keys -/

section Sorting

variable {seen : α → K}

theorem orderedInsert_of_pairwise (hpair : (a :: l).Pairwise fun x y => seen y ≤ seen x) :
    l.orderedInsert (fun x y => seen y ≤ seen x) a = a :: l := by
  have hsorted := hpair.insertionSort_eq
  rw [List.insertionSort_cons, (List.pairwise_cons.mp hpair).2.insertionSort_eq] at hsorted
  exact hsorted

theorem insertionSort_append_of_pairwise {front rest sorted : List α}
    (hrest : rest.insertionSort (fun x y => seen y ≤ seen x) = sorted)
    (hpair : (front ++ sorted).Pairwise fun x y => seen y ≤ seen x) :
    (front ++ rest).insertionSort (fun x y => seen y ≤ seen x) = front ++ sorted := by
  induction front with
  | nil => exact hrest
  | cons x front ih =>
      have hfront := ih (List.pairwise_cons.mp hpair).2
      rw [List.cons_append, List.insertionSort_cons, hfront]
      exact orderedInsert_of_pairwise hpair

/-- An element that stands behind some of lower key is sorted to their front. -/
theorem insertionSort_passed {passed rest : List α}
    (hpair : (a :: (passed ++ rest)).Pairwise fun x y => seen y ≤ seen x)
    (hlt : ∀ x ∈ passed, seen x < seen a) :
    (passed ++ a :: rest).insertionSort (fun x y => seen y ≤ seen x) = a :: (passed ++ rest) := by
  induction passed with
  | nil => exact hpair.insertionSort_eq
  | cons x passed ih =>
      obtain ⟨ha, htail⟩ := List.pairwise_cons.mp hpair
      have hshort : (a :: (passed ++ rest)).Pairwise fun x y => seen y ≤ seen x :=
        List.pairwise_cons.mpr
          ⟨fun y hy => ha y (List.mem_cons_of_mem x hy), (List.pairwise_cons.mp htail).2⟩
      have hih := ih hshort fun y hy => hlt y (List.mem_cons_of_mem x hy)
      have hx : ¬seen a ≤ seen x := (hlt x List.mem_cons_self).not_ge
      rw [List.cons_append, List.insertionSort_cons, hih, List.orderedInsert_cons, if_neg hx]
      exact congrArg (a :: ·) (orderedInsert_of_pairwise htail)

/-- The new element was put between `before` and `after` of a list in descending
order of rank, behind everything of at least its rank.  A stable sort by other
keys moves it to its place exactly when the placed list is in descending order
of these keys, and no element of lower rank before it has its key. -/
theorem insertionSort_eq_place_iff {before after : List α} (hnodup : (before ++ after).Nodup)
    (ha : a ∉ before ++ after)
    (hrank : (before ++ after).Pairwise fun x y => rank y ≤ rank x)
    (hafter : ∀ x ∈ after, rank x < rank a) :
    (before ++ a :: after).insertionSort (fun x y => seen y ≤ seen x) =
        place rank a (before ++ after) ↔
      (place rank a (before ++ after)).Pairwise (fun x y => seen y ≤ seen x) ∧
        ∀ x ∈ before, rank x < rank a → seen x ≠ seen a := by
  have hupper : after.filter (fun x => rank a ≤ rank x) = [] :=
    List.filter_eq_nil_iff.mpr fun x hx => by simpa using hafter x hx
  have hlower : after.filter (fun x => rank x < rank a) = after :=
    List.filter_eq_self.mpr fun x hx => by simpa using hafter x hx
  have hbefore := filter_append_filter_lt (rank a) (List.pairwise_append.mp hrank).1
  have hplace : place rank a (before ++ after) = before.filter (fun x => rank a ≤ rank x) ++
      a :: (before.filter (fun x => rank x < rank a) ++ after) := by
    rw [place, List.filter_append, List.filter_append, hupper, hlower, List.append_nil]
  constructor
  · intro hsort
    have hpair : (place rank a (before ++ after)).Pairwise fun x y => seen y ≤ seen x :=
      hsort ▸ List.pairwise_insertionSort (fun x y => seen y ≤ seen x) (before ++ a :: after)
    refine ⟨hpair, ?_⟩
    intro x hx hlt heq
    -- equal keys keep the order in which they came
    have hxa : [x, a].Sublist (place rank a (before ++ after)) := by
      rw [← hsort]
      refine List.pair_sublist_insertionSort heq.ge ?_
      exact (List.singleton_sublist.mpr hx).append
        ((List.nil_sublist after).cons_cons a)
    have hax : [a, x].Sublist (place rank a (before ++ after)) := by
      rw [hplace]
      have hmem : x ∈ before.filter (fun x => rank x < rank a) ++ after :=
        List.mem_append_left after (List.mem_filter.mpr ⟨hx, decide_eq_true hlt⟩)
      exact ((List.singleton_sublist.mpr hmem).cons_cons a).trans
        (List.sublist_append_right _ _)
    have hplaced : (place rank a (before ++ after)).Nodup :=
      (place_perm rank a _).nodup_iff.mpr (List.nodup_cons.mpr ⟨ha, hnodup⟩)
    exact not_pair_sublist_swap hplaced hxa hax
  · rintro ⟨hpair, hne⟩
    rw [hplace] at hpair ⊢
    have htail := (List.pairwise_append.mp hpair).2.1
    have hlt : ∀ x ∈ before.filter (fun x => rank x < rank a), seen x < seen a := by
      intro x hx
      have hle := (List.pairwise_cons.mp htail).1 x (List.mem_append_left after hx)
      have hx' := List.mem_filter.mp hx
      exact lt_of_le_of_ne hle (hne x hx'.1 (of_decide_eq_true hx'.2))
    have hrest := insertionSort_passed htail hlt
    have hsort := insertionSort_append_of_pairwise hrest hpair
    rw [← List.append_assoc, hbefore] at hsort
    exact hsort

end Sorting

end PlexSpaces.Lib
