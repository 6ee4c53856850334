import Mathlib.Order.Lattice
/-!
# Max-heaps

A priority queue, kept as the list of its items in the order in which it pops them.  Which
one of the items of one rank comes out first is left open by a heap; here it is the one that
was pushed first.
-/

namespace PlexSpaces.Lib

universe u v

variable {α : Type u} {κ : Type v} [LinearOrder κ] {rank : α → κ}

/-- Put an item behind the items of its rank and above. -/
def insertByRank (rank : α → κ) (a : α) : List α → List α
  | [] => [a]
  | b :: l => if rank b < rank a then a :: b :: l else b :: insertByRank rank a l

theorem insertByRank_of_lt {a b : α} (h : rank b < rank a) (l : List α) :
    insertByRank rank a (b :: l) = a :: b :: l :=
  if_pos h

theorem insertByRank_of_not_lt {a b : α} (h : ¬rank b < rank a) (l : List α) :
    insertByRank rank a (b :: l) = b :: insertByRank rank a l :=
  if_neg h

theorem insertByRank_perm (a : α) (l : List α) : (insertByRank rank a l).Perm (a :: l) := by
  induction l with
  | nil => exact List.Perm.refl _
  | cons b l ih =>
      by_cases hrank : rank b < rank a
      · rw [insertByRank_of_lt hrank]
      · rw [insertByRank_of_not_lt hrank]
        exact (ih.cons b).trans (List.Perm.swap a b l)

theorem sublist_insertByRank (a : α) (l : List α) : l.Sublist (insertByRank rank a l) := by
  induction l with
  | nil => exact List.nil_sublist _
  | cons b l ih =>
      by_cases hrank : rank b < rank a
      · rw [insertByRank_of_lt hrank]
        exact List.sublist_cons_self _ _
      · rw [insertByRank_of_not_lt hrank]
        exact ih.cons_cons b

theorem filter_insertByRank {a : α} {p : α → Bool} (hp : p a = false) (l : List α) :
    (insertByRank rank a l).filter p = l.filter p := by
  induction l with
  | nil => exact List.filter_cons_of_neg (Bool.eq_false_iff.mp hp)
  | cons b l ih =>
      by_cases hrank : rank b < rank a
      · rw [insertByRank_of_lt hrank, List.filter_cons_of_neg (Bool.eq_false_iff.mp hp)]
      · rw [insertByRank_of_not_lt hrank, List.filter_cons, List.filter_cons, ih]

/-- Items that carry more than what they are ranked by are put in the same place. -/
theorem map_insertByRank {β : Type*} (f : β → α) (b : β) (l : List β) :
    (insertByRank (fun b => rank (f b)) b l).map f = insertByRank rank (f b) (l.map f) := by
  induction l with
  | nil => rfl
  | cons c l ih =>
      rw [List.map_cons]
      by_cases hrank : rank (f c) < rank (f b)
      · have hfront : insertByRank (fun b => rank (f b)) b (c :: l) = b :: c :: l := if_pos hrank
        rw [hfront, insertByRank_of_lt hrank]
        rfl
      · have hbehind : insertByRank (fun b => rank (f b)) b (c :: l) =
            c :: insertByRank (fun b => rank (f b)) b l := if_neg hrank
        rw [hbehind, insertByRank_of_not_lt hrank, List.map_cons, ih]

theorem insertByRank_sorted {a : α} {l : List α} (h : l.Pairwise fun a b => rank b ≤ rank a) :
    (insertByRank rank a l).Pairwise fun a b => rank b ≤ rank a := by
  induction l with
  | nil => exact List.pairwise_singleton _ a
  | cons b l ih =>
      obtain ⟨hhead, htail⟩ := List.pairwise_cons.mp h
      by_cases hrank : rank b < rank a
      · rw [insertByRank_of_lt hrank]
        refine List.pairwise_cons.mpr ⟨?_, h⟩
        intro c hc
        rcases List.mem_cons.mp hc with rfl | hc
        · exact hrank.le
        · exact (hhead c hc).trans hrank.le
      · rw [insertByRank_of_not_lt hrank]
        refine List.pairwise_cons.mpr ⟨?_, ih htail⟩
        intro c hc
        rcases List.mem_cons.mp ((insertByRank_perm a l).mem_iff.mp hc) with rfl | hc
        · exact not_lt.mp hrank
        · exact hhead c hc

structure MaxHeap (rank : α → κ) where
  items : List α
  sorted : items.Pairwise fun a b => rank b ≤ rank a
  deriving DecidableEq

namespace MaxHeap

def empty : MaxHeap rank := ⟨[], List.Pairwise.nil⟩

def push (h : MaxHeap rank) (a : α) : MaxHeap rank :=
  ⟨insertByRank rank a h.items, insertByRank_sorted h.sorted⟩

def pop (h : MaxHeap rank) : MaxHeap rank :=
  ⟨h.items.tail, h.sorted.sublist (List.tail_sublist h.items)⟩

def retain (h : MaxHeap rank) (keep : α → Bool) : MaxHeap rank :=
  ⟨h.items.filter keep, h.sorted.sublist List.filter_sublist⟩

theorem items_push_perm (h : MaxHeap rank) (a : α) : (h.push a).items.Perm (a :: h.items) :=
  insertByRank_perm a h.items

end MaxHeap

end PlexSpaces.Lib
