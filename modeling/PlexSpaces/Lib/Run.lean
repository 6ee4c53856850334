import Mathlib.Order.Basic
/-!
# Runs of a transition function

A component is a state with a step function `step : σ → α → σ`; a run is a list
of actions.  `Along P` says that every step of the run satisfies `P` of the
state before it and its action.  The rules below carry a fact over a whole run
from what one step preserves.  `CanReach` says that some run of allowed actions
leads to a goal.
-/

namespace PlexSpaces.Lib

universe u v

variable {σ : Type u} {α : Type v} (step : σ → α → σ)

def run (s : σ) (as : List α) : σ := as.foldl step s

/-- Every step of the run satisfies `P`. -/
def Along (P : σ → α → Prop) : σ → List α → Prop
  | _, [] => True
  | s, a :: as => P s a ∧ Along P (step s a) as

variable {step}

@[simp] theorem run_nil (s : σ) : run step s [] = s := rfl

@[simp] theorem run_cons (s : σ) (a : α) (as : List α) :
    run step s (a :: as) = run step (step s a) as := rfl

@[simp] theorem run_concat (s : σ) (as : List α) (a : α) :
    run step s (as ++ [a]) = step (run step s as) a := by
  rw [run, run, List.foldl_append]
  rfl

theorem run_append (s : σ) (as bs : List α) :
    run step s (as ++ bs) = run step (run step s as) bs := List.foldl_append

@[simp] theorem along_cons (P : σ → α → Prop) (s : σ) (a : α) (as : List α) :
    Along step P s (a :: as) ↔ P s a ∧ Along step P (step s a) as := Iff.rfl

/-- The last step of a run is a step from the state that the others lead to. -/
theorem along_concat (P : σ → α → Prop) (s : σ) (as : List α) (a : α) :
    Along step P s (as ++ [a]) ↔ Along step P s as ∧ P (run step s as) a := by
  induction as generalizing s with
  | nil => exact ⟨fun h => ⟨trivial, h.1⟩, fun h => ⟨h.2, trivial⟩⟩
  | cons b as ih =>
      rw [List.cons_append, along_cons, along_cons, ih, run_cons, and_assoc]

theorem along_append (P : σ → α → Prop) (s : σ) (as bs : List α) :
    Along step P s (as ++ bs) ↔ Along step P s as ∧ Along step P (run step s as) bs := by
  induction as generalizing s with
  | nil => exact ⟨fun h => ⟨trivial, h⟩, And.right⟩
  | cons a as ih => rw [List.cons_append, along_cons, along_cons, ih, run_cons, and_assoc]

theorem Along.initial {P : σ → α → Prop} {s : σ} {as bs : List α} (h : as <+: bs)
    (hrun : Along step P s bs) : Along step P s as := by
  obtain ⟨rest, rfl⟩ := h
  induction as generalizing s with
  | nil => trivial
  | cons a as ih => exact ⟨hrun.1, ih hrun.2⟩

theorem along_and {P Q : σ → α → Prop} {s : σ} {as : List α} :
    Along step (fun s a => P s a ∧ Q s a) s as ↔ Along step P s as ∧ Along step Q s as := by
  induction as generalizing s with
  | nil => exact ⟨fun _ => ⟨trivial, trivial⟩, fun _ => trivial⟩
  | cons a as ih => rw [along_cons, along_cons, along_cons, ih, and_and_and_comm]

instance instDecidableAlong (P : σ → α → Prop) [∀ s a, Decidable (P s a)] :
    ∀ (s : σ) (as : List α), Decidable (Along step P s as)
  | _, [] => inferInstanceAs (Decidable True)
  | s, a :: as =>
      have := instDecidableAlong P (step s a) as
      inferInstanceAs (Decidable (P s a ∧ Along step P (step s a) as))

/-- A run seen through a map that the steps commute with. -/
theorem along_map {τ : Type*} {step' : τ → α → τ} (f : τ → σ)
    (hstep : ∀ t a, f (step' t a) = step (f t) a) {P : σ → α → Prop} {t : τ} {as : List α} :
    Along step' (fun t a => P (f t) a) t as ↔ Along step P (f t) as := by
  induction as generalizing t with
  | nil => exact Iff.rfl
  | cons a as ih => rw [along_cons, along_cons, ih, hstep]

theorem along_of_forall {P : α → Prop} {as : List α} (h : ∀ a ∈ as, P a) (s : σ) :
    Along step (fun _ a => P a) s as := by
  induction as generalizing s with
  | nil => trivial
  | cons a as ih =>
      exact ⟨h a List.mem_cons_self, ih (fun b hb => h b (List.mem_cons_of_mem a hb)) (step s a)⟩

/-- The invariant rule: what each good step preserves holds after the run. -/
theorem Along.invariant {P : σ → α → Prop} {I : σ → Prop}
    (hstep : ∀ s a, I s → P s a → I (step s a)) {s : σ} {as : List α}
    (hrun : Along step P s as) (hs : I s) : I (run step s as) := by
  induction as generalizing s with
  | nil => exact hs
  | cons a as ih => exact ih hrun.2 (hstep s a hs hrun.1)

/-- The invariant rule of a loop: what the step of every item preserves holds
after the loop. -/
theorem run_invariant {I : σ → Prop} {as : List α}
    (hstep : ∀ a ∈ as, ∀ s, I s → I (step s a)) {s : σ} (hs : I s) : I (run step s as) := by
  induction as generalizing s with
  | nil => exact hs
  | cons a as ih =>
      have hrest : ∀ b ∈ as, ∀ s, I s → I (step s b) :=
        fun b hb => hstep b (List.mem_cons_of_mem a hb)
      exact ih hrest (hstep a List.mem_cons_self s hs)

/-- An invariant that implies the step condition gives it along every run. -/
theorem along_of_invariant {P : σ → α → Prop} {I : σ → Prop}
    (hstep : ∀ s a, I s → P s a ∧ I (step s a)) {s : σ} (hs : I s) (as : List α) :
    Along step P s as := by
  induction as generalizing s with
  | nil => trivial
  | cons a as ih => exact ⟨(hstep s a hs).1, ih (hstep s a hs).2⟩

/-- A step condition that keeps an invariant and, with it, implies another one. -/
theorem Along.of_invariant {P Q : σ → α → Prop} {I : σ → Prop}
    (hstep : ∀ s a, I s → P s a → Q s a ∧ I (step s a)) {s : σ} {as : List α}
    (hrun : Along step P s as) (hs : I s) : Along step Q s as := by
  induction as generalizing s with
  | nil => trivial
  | cons a as ih =>
      obtain ⟨hq, hnext⟩ := hstep s a hs hrun.1
      exact ⟨hq, ih hrun.2 hnext⟩

/-- Two step conditions that agree on the actions of a run under an invariant agree
on the run. -/
theorem along_congr_of_mem {P Q : σ → α → Prop} {I : σ → Prop} {as : List α}
    (hstep : ∀ a ∈ as, ∀ s, I s → (P s a ↔ Q s a))
    (hinv : ∀ a ∈ as, ∀ s, I s → P s a → I (step s a)) {s : σ} (hs : I s) :
    Along step P s as ↔ Along step Q s as := by
  induction as generalizing s with
  | nil => exact Iff.rfl
  | cons a as ih =>
      have hrest : I (step s a) → (Along step P (step s a) as ↔ Along step Q (step s a) as) :=
        ih (fun b hb => hstep b (List.mem_cons_of_mem a hb))
          (fun b hb => hinv b (List.mem_cons_of_mem a hb))
      have hhead := hstep a List.mem_cons_self s hs
      have hnext := hinv a List.mem_cons_self s hs
      rw [along_cons, along_cons, hhead]
      constructor
      · rintro ⟨hq, hrun⟩
        exact ⟨hq, (hrest (hnext (hhead.mpr hq))).mp hrun⟩
      · rintro ⟨hq, hrun⟩
        exact ⟨hq, (hrest (hnext (hhead.mpr hq))).mpr hrun⟩

/-- Two step conditions that agree under an invariant agree on runs. -/
theorem along_congr {P Q : σ → α → Prop} {I : σ → Prop}
    (hstep : ∀ s a, I s → (P s a ↔ Q s a))
    (hinv : ∀ s a, I s → P s a → I (step s a)) {s : σ} (hs : I s) (as : List α) :
    Along step P s as ↔ Along step Q s as :=
  along_congr_of_mem (fun a _ s => hstep s a) (fun a _ s => hinv s a) hs

/-- Two step conditions that agree, under an invariant, on the steps of a kind agree on the runs of
such steps. -/
theorem Along.congr {P Q R : σ → α → Prop} {I : σ → Prop} {s : σ} {as : List α}
    (hrun : Along step R s as) (hstep : ∀ s a, I s → R s a → (P s a ↔ Q s a))
    (hinv : ∀ s a, I s → R s a → P s a → I (step s a)) (hs : I s) :
    Along step P s as ↔ Along step Q s as := by
  have hboth : Along step (fun s a => R s a ∧ P s a) s as ↔
      Along step (fun s a => R s a ∧ Q s a) s as :=
    along_congr (fun s a hs => and_congr_right (hstep s a hs))
      (fun s a hs h => hinv s a hs h.1 h.2) hs as
  rw [along_and, along_and] at hboth
  exact ⟨fun h => (hboth.mp ⟨hrun, h⟩).2, fun h => (hboth.mpr ⟨hrun, h⟩).2⟩

/-- A property that a step has exactly if it was there and the step is good is the property
of the good runs. -/
theorem run_iff_along {P : σ → α → Prop} {I Q : σ → Prop}
    (hinv : ∀ s a, I s → I (step s a)) (hstep : ∀ s a, I s → (Q (step s a) ↔ Q s ∧ P s a))
    {s : σ} (hs : I s) (as : List α) : Q (run step s as) ↔ Q s ∧ Along step P s as := by
  induction as generalizing s with
  | nil => exact ⟨fun hQ => ⟨hQ, trivial⟩, And.left⟩
  | cons a as ih => rw [run_cons, ih (hinv s a hs), hstep s a hs, along_cons, and_assoc]

/-- A property that a step from a state that has it keeps exactly if the step is good holds at
every point of a run exactly if the run is good. -/
theorem forall_prefix_iff_along {P : σ → α → Prop} {I Q : σ → Prop}
    (hinv : ∀ s a, I s → Q s → P s a → I (step s a))
    (hstep : ∀ s a, I s → Q s → (Q (step s a) ↔ P s a)) {s : σ} (hs : I s) (hQ : Q s)
    (as : List α) :
    (∀ earlier, earlier <+: as → Q (run step s earlier)) ↔ Along step P s as := by
  induction as generalizing s with
  | nil =>
      refine iff_of_true (fun earlier hprefix => ?_) trivial
      rw [List.prefix_nil.mp hprefix]
      exact hQ
  | cons a as ih =>
      rw [along_cons]
      constructor
      · intro h
        have hnext : Q (step s a) := h [a] ⟨as, rfl⟩
        have ha := (hstep s a hs hQ).mp hnext
        refine ⟨ha, (ih (hinv s a hs hQ ha) hnext).mp fun earlier hprefix => ?_⟩
        exact h (a :: earlier) ((List.prefix_cons_inj a).mpr hprefix)
      · rintro ⟨ha, hrun⟩ earlier hprefix
        have hnext := (hstep s a hs hQ).mpr ha
        rcases List.prefix_cons_iff.mp hprefix with rfl | ⟨rest, rfl, hrest⟩
        · exact hQ
        · exact (ih (hinv s a hs hQ ha) hnext).mpr hrun rest hrest

/-- A measure into a preorder that no step lowers is not lowered by a loop. -/
theorem le_run {ρ : Type*} [Preorder ρ] {f : σ → ρ} (hstep : ∀ s a, f s ≤ f (step s a))
    (s : σ) (as : List α) : f s ≤ f (run step s as) := by
  induction as generalizing s with
  | nil => exact le_rfl
  | cons a as ih => exact (hstep s a).trans (ih (step s a))

/-- A measure into a preorder that no good step lowers is not lowered by a run. -/
theorem Along.monotone {ρ : Type*} [Preorder ρ] {P : σ → α → Prop} {f : σ → ρ}
    (hstep : ∀ s a, P s a → f s ≤ f (step s a)) {s : σ} {as : List α}
    (hrun : Along step P s as) : f s ≤ f (run step s as) := by
  induction as generalizing s with
  | nil => exact le_rfl
  | cons a as ih => exact (hstep s a hrun.1).trans (ih hrun.2)

section Reach

variable (step) in
/-- A run of allowed actions leads from `s` to a goal state. -/
def CanReach (allowed : α → Prop) (goal : σ → Prop) (s : σ) : Prop :=
  ∃ as, (∀ a ∈ as, allowed a) ∧ goal (run step s as)

variable {allowed : α → Prop} {goal : σ → Prop} {s : σ}

theorem CanReach.refl (h : goal s) : CanReach step allowed goal s :=
  ⟨[], nofun, h⟩

theorem CanReach.head {a : α} (ha : allowed a) (h : CanReach step allowed goal (step s a)) :
    CanReach step allowed goal s := by
  obtain ⟨as, has, hgoal⟩ := h
  refine ⟨a :: as, ?_, hgoal⟩
  intro b hb
  rcases List.mem_cons.mp hb with rfl | hb
  · exact ha
  · exact has b hb

theorem CanReach.trans {goal' : σ → Prop} (h : CanReach step allowed goal s)
    (hnext : ∀ s, goal s → CanReach step allowed goal' s) : CanReach step allowed goal' s := by
  obtain ⟨as, has, hgoal⟩ := h
  obtain ⟨bs, hbs, hgoal'⟩ := hnext _ hgoal
  refine ⟨as ++ bs, ?_, ?_⟩
  · intro a ha
    exact (List.mem_append.mp ha).elim (has a) (hbs a)
  · rw [run, List.foldl_append]
    exact hgoal'

/-- What allowed actions keep and no goal state has shuts the goal off. -/
theorem not_canReach_of_invariant {I : σ → Prop} (hstep : ∀ a s, allowed a → I s → I (step s a))
    (hgoal : ∀ s, I s → ¬goal s) (hs : I s) : ¬CanReach step allowed goal s := by
  rintro ⟨as, has, hreach⟩
  exact hgoal _ (run_invariant (fun a ha s => hstep a s (has a ha)) hs) hreach

end Reach

end PlexSpaces.Lib
