import Mathlib.Data.ENat.Basic
import Mathlib.Algebra.Order.BigOperators.Group.List

/-!
# Computations seen by a clock

A computation that waits, leaves marks and may never end is what a clock beside it sees: the marks
with their moments and the moment it ends.  One computation after another, and a computation that
is dropped at its deadline, are then operations on these; the marks of a dropped one are the marks
it left in time.
-/

universe u

namespace PlexSpaces.Lib

/-- What a clock sees of a computation; one that never ends ends at `⊤`. -/
structure Timed (ε : Type u) where
  marks : List (Nat × ε)
  ends : ℕ∞
  ordered : marks.Pairwise fun a b => a.1 ≤ b.1
  in_time : ∀ m ∈ marks, (m.1 : ℕ∞) ≤ ends

namespace Timed

variable {ε : Type u}

def names (a : Timed ε) : List ε := a.marks.map Prod.snd

/-- No mark of the computation is left after `d`. -/
def By (d : Nat) (a : Timed ε) : Prop := ∀ m ∈ a.marks, m.1 ≤ d

instance (d : Nat) (a : Timed ε) : Decidable (a.By d) :=
  inferInstanceAs (Decidable (∀ m ∈ a.marks, m.1 ≤ d))

/-- No mark of the computation is left before `t`. -/
def After (t : ℕ∞) (a : Timed ε) : Prop := ∀ m ∈ a.marks, t ≤ (m.1 : ℕ∞)

def skip : Timed ε := ⟨[], 0, .nil, by simp⟩

def mark (e : ε) : Timed ε := ⟨[(0, e)], 0, by simp, by simp⟩

def wait (d : ℕ∞) : Timed ε := ⟨[], d, .nil, by simp⟩

/-- The marks of what starts when `a` ends. -/
def later (a b : Timed ε) : List (Nat × ε) :=
  if a.ends = ⊤ then [] else b.marks.map fun m => (a.ends.toNat + m.1, m.2)

theorem mem_later {a b : Timed ε} {m : Nat × ε} (h : m ∈ a.later b) :
    a.ends ≠ ⊤ ∧ ∃ k ∈ b.marks, m = (a.ends.toNat + k.1, k.2) := by
  unfold later at h
  split at h
  · simp at h
  · next hends =>
    obtain ⟨k, hk, rfl⟩ := List.mem_map.1 h
    exact ⟨hends, k, hk, rfl⟩

theorem pairwise_later (a b : Timed ε) : (a.later b).Pairwise fun m k => m.1 ≤ k.1 := by
  unfold later
  split
  · exact .nil
  · rw [List.pairwise_map]
    exact b.ordered.imp fun h => Nat.add_le_add_left h _

/-- First `a`, and `b` once it has ended. -/
def andThen (a b : Timed ε) : Timed ε where
  marks := a.marks ++ a.later b
  ends := a.ends + b.ends
  ordered := by
    refine List.pairwise_append.2 ⟨a.ordered, pairwise_later a b, fun m hm k hk => ?_⟩
    obtain ⟨hends, k', -, rfl⟩ := mem_later hk
    have hle : (m.1 : ℕ∞) ≤ a.ends.toNat :=
      (a.in_time m hm).trans_eq (ENat.natCast_toNat_eq_self.2 hends).symm
    exact Nat.le_add_right_of_le (Nat.cast_le.1 hle)
  in_time m hm := by
    rcases List.mem_append.1 hm with h | h
    · exact (a.in_time m h).trans le_self_add
    · obtain ⟨hends, k, hk, rfl⟩ := mem_later h
      push_cast
      rw [ENat.natCast_toNat_eq_self.2 hends]
      exact add_le_add_right (b.in_time k hk) _

/-- `a`, dropped at `d` when it has not ended by then. -/
def cut (d : Nat) (a : Timed ε) : Timed ε where
  marks := a.marks.filter fun m => m.1 ≤ d
  ends := if a.ends ≤ d then a.ends else d
  ordered := a.ordered.filter _
  in_time m hm := by
    obtain ⟨hmem, hle⟩ := List.mem_filter.1 hm
    split
    · exact a.in_time m hmem
    · exact Nat.cast_le.2 (of_decide_eq_true hle)

/-- `a` within `d`, and `onTimeout` where it was dropped. -/
def timeout (d : Nat) (a onTimeout : Timed ε) : Timed ε :=
  (cut d a).andThen (if a.ends ≤ d then skip else onTimeout)

def inTurn (as : List (Timed ε)) : Timed ε := as.foldr andThen skip

/-! ## When they end -/

@[simp] theorem ends_skip : (skip : Timed ε).ends = 0 := rfl
@[simp] theorem ends_mark (e : ε) : (mark e).ends = 0 := rfl
@[simp] theorem ends_wait (d : ℕ∞) : (wait d : Timed ε).ends = d := rfl
@[simp] theorem ends_andThen (a b : Timed ε) : (a.andThen b).ends = a.ends + b.ends := rfl
@[simp] theorem ends_cut (d : Nat) (a : Timed ε) :
    (cut d a).ends = if a.ends ≤ d then a.ends else (d : ℕ∞) := rfl

theorem ends_cut_le (d : Nat) (a : Timed ε) : (cut d a).ends ≤ d := by
  rw [ends_cut]
  split
  · assumption
  · exact le_rfl

theorem ends_cut_ne_top (d : Nat) (a : Timed ε) : (cut d a).ends ≠ ⊤ :=
  ((ends_cut_le d a).trans_lt (ENat.natCast_lt_top d)).ne

theorem ends_inTurn (as : List (Timed ε)) : (inTurn as).ends = (as.map ends).sum := by
  induction as with
  | nil => rfl
  | cons a as ih =>
    show a.ends + (inTurn as).ends = _
    rw [ih, List.map_cons, List.sum_cons]

/-! ## What they leave -/

@[simp] theorem names_skip : (skip : Timed ε).names = [] := rfl
@[simp] theorem names_mark (e : ε) : (mark e).names = [e] := rfl
@[simp] theorem names_wait (d : ℕ∞) : (wait d : Timed ε).names = [] := rfl

theorem names_andThen (a b : Timed ε) :
    (a.andThen b).names = a.names ++ if a.ends = ⊤ then [] else b.names := by
  show (a.marks ++ a.later b).map Prod.snd = _
  rw [List.map_append]
  unfold later names
  split
  · rfl
  · rw [List.map_map]
    rfl

theorem names_andThen_of_ends {a : Timed ε} (h : a.ends ≠ ⊤) (b : Timed ε) :
    (a.andThen b).names = a.names ++ b.names := by
  rw [names_andThen, if_neg h]

theorem names_andThen_sublist {a b : Timed ε} {as bs : List ε} (ha : a.names.Sublist as)
    (hb : b.names.Sublist bs) : (a.andThen b).names.Sublist (as ++ bs) := by
  rw [names_andThen]
  split
  · exact ha.append (List.nil_sublist _)
  · exact ha.append hb

theorem names_inTurn_sublist {α : Type*} {f : α → Timed ε} {g : α → List ε} {l : List α}
    (h : ∀ x ∈ l, (f x).names.Sublist (g x)) :
    (inTurn (l.map f)).names.Sublist (l.flatMap g) := by
  induction l with
  | nil => exact List.nil_sublist _
  | cons x l ih =>
    obtain ⟨hx, hl⟩ := List.forall_mem_cons.1 h
    rw [List.flatMap_cons]
    exact names_andThen_sublist hx (ih hl)

theorem names_inTurn {as : List (Timed ε)} (h : ∀ a ∈ as, a.ends ≠ ⊤) :
    (inTurn as).names = as.flatMap names := by
  induction as with
  | nil => rfl
  | cons a as ih =>
    obtain ⟨ha, has⟩ := List.forall_mem_cons.1 h
    calc (a.andThen (inTurn as)).names = a.names ++ (inTurn as).names := names_andThen_of_ends ha _
      _ = (a :: as).flatMap names := by rw [ih has, List.flatMap_cons]

theorem names_cut_initial (d : Nat) (a : Timed ε) : (cut d a).names <+: a.names := by
  show (a.marks.filter fun m => m.1 ≤ d).map Prod.snd <+: a.marks.map Prod.snd
  apply List.IsPrefix.map
  have h := a.ordered
  generalize a.marks = l at h
  induction l with
  | nil => exact List.prefix_rfl
  | cons m l ih =>
    obtain ⟨hm, hl⟩ := List.pairwise_cons.1 h
    by_cases hd : m.1 ≤ d
    · rw [List.filter_cons_of_pos (by simpa using hd), List.prefix_cons_inj]
      exact ih hl
    · have hnone : ∀ k ∈ m :: l, ¬ decide (k.1 ≤ d) = true := by
        intro k hk
        have hle : m.1 ≤ k.1 := by
          rcases List.mem_cons.1 hk with rfl | hk
          · exact le_rfl
          · exact hm k hk
        simp only [decide_eq_true_eq]
        omega
      rw [List.filter_eq_nil_iff.2 hnone]
      exact List.nil_prefix

theorem names_cut_eq_iff {d : Nat} {a : Timed ε} : (cut d a).names = a.names ↔ a.By d := by
  have hlen : (cut d a).names = a.names ↔ (cut d a).names.length = a.names.length :=
    ⟨congrArg _, (names_cut_initial d a).eq_of_length⟩
  rw [hlen]
  show ((a.marks.filter _).map _).length = (a.marks.map _).length ↔ _
  rw [List.length_map, List.length_map, List.length_filter_eq_length_iff]
  simp [By]

theorem cut_of_ends_le {d : Nat} {a : Timed ε} (h : a.ends ≤ d) : (cut d a).names = a.names :=
  names_cut_eq_iff.2 fun m hm => Nat.cast_le.1 ((a.in_time m hm).trans h)

theorem after_wait (t : ℕ∞) (b : Timed ε) : ((wait t).andThen b).After t := by
  intro m hm
  have hlater : m ∈ (wait t).later b := by simpa [andThen, wait] using hm
  obtain ⟨hends, k, -, rfl⟩ := mem_later hlater
  push_cast
  calc t = ((wait t : Timed ε).ends.toNat : ℕ∞) := (ENat.natCast_toNat_eq_self.2 hends).symm
    _ ≤ _ := le_self_add

theorem After.andThen {t : ℕ∞} {a : Timed ε} (h : a.After t) (hends : t ≤ a.ends) (b : Timed ε) :
    (a.andThen b).After t := by
  intro m hm
  rcases List.mem_append.1 hm with hm | hm
  · exact h m hm
  · obtain ⟨htop, k, -, rfl⟩ := mem_later hm
    push_cast
    rw [ENat.natCast_toNat_eq_self.2 htop]
    exact hends.trans le_self_add

theorem names_cut_of_after {t : ℕ∞} {d : Nat} {a : Timed ε} (h : a.After t) (hd : ¬ t ≤ d) :
    (cut d a).names = [] := by
  show (a.marks.filter _).map _ = []
  rw [List.map_eq_nil_iff, List.filter_eq_nil_iff]
  intro m hm hle
  exact hd ((h m hm).trans (Nat.cast_le.2 (of_decide_eq_true hle)))

theorem names_timeout (d : Nat) (a onTimeout : Timed ε) :
    (timeout d a onTimeout).names
      = (cut d a).names ++ if a.ends ≤ d then [] else onTimeout.names := by
  rw [timeout, names_andThen_of_ends (ends_cut_ne_top d a)]
  split <;> rfl

theorem ends_timeout_le (d : Nat) (a : Timed ε) {onTimeout : Timed ε} (h : onTimeout.ends = 0) :
    (timeout d a onTimeout).ends ≤ d := by
  have hrest : (if a.ends ≤ d then skip else onTimeout).ends = 0 := by
    split
    · exact ends_skip
    · exact h
  rw [timeout, ends_andThen, hrest, add_zero]
  exact ends_cut_le d a

end Timed

end PlexSpaces.Lib
