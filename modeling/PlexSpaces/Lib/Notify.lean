import Mathlib.Data.List.Basic
import Mathlib.Data.List.Nodup
/-!
# One-permit notification

A `Notify` wakes the tasks that wait on it, one for each notification and in the order in
which they came.  When nobody waits it stores one permit, and the next task that waits uses
it up at once.  A permit and a waiting task exclude each other.
-/

namespace PlexSpaces.Lib

universe u

inductive Notify (τ : Type u)
  | notified
  | waiting (tasks : List τ)
  deriving DecidableEq

namespace Notify

variable {τ : Type u}

def new : Notify τ := waiting []

/-- `notify_one`: the task that is woken, if one waits. -/
def notifyOne : Notify τ → Option τ × Notify τ
  | waiting (t :: tasks) => (some t, waiting tasks)
  | _ => (none, notified)

/-- `notified().await` of a task: whether it goes on at once. -/
def await (t : τ) : Notify τ → Bool × Notify τ
  | notified => (true, waiting [])
  | waiting tasks => (false, waiting (tasks ++ [t]))

/-- A task that waits goes away before it is woken. -/
def cancel [DecidableEq τ] (t : τ) : Notify τ → Notify τ
  | notified => notified
  | waiting tasks => waiting (tasks.erase t)

def HasPermit (n : Notify τ) : Prop := n = notified

theorem await_of_permit {n : Notify τ} (h : n.HasPermit) (t : τ) :
    n.await t = (true, waiting []) := by
  cases h
  rfl

theorem await_of_not_permit {n : Notify τ} (h : ¬n.HasPermit) (t : τ) :
    ∃ tasks, n.await t = (false, waiting tasks) := by
  cases n with
  | notified => exact absurd rfl h
  | waiting tasks => exact ⟨_, rfl⟩

theorem not_hasPermit_waiting (tasks : List τ) : ¬(waiting tasks).HasPermit := by
  intro h
  cases h

theorem notifyOne_cases (n : Notify τ) :
    (∃ t tasks, n.notifyOne = (some t, waiting tasks)) ∨ n.notifyOne = (none, notified) := by
  cases n with
  | notified => exact .inr rfl
  | waiting tasks =>
      cases tasks with
      | nil => exact .inr rfl
      | cons t tasks => exact .inl ⟨t, tasks, rfl⟩

/-! ## Tasks that wait, and tasks that were woken

A task that is woken goes on when it is polled next; until then it may also go away, and its
notification goes to another one. -/

def tasks : Notify τ → List τ
  | notified => []
  | waiting tasks => tasks

/-- The tasks in the queue, and those that were woken and have not been polled since, are
different tasks that wait. -/
structure Registered (n : Notify τ) (woken : List τ) (waits : τ → Prop) : Prop where
  nodup : (n.tasks ++ woken).Nodup
  waits : ∀ t ∈ n.tasks ++ woken, waits t

def Owed (n : Notify τ) (woken : List τ) : Prop := n.HasPermit ∨ woken ≠ []

variable {n : Notify τ} {woken : List τ} {waits waits' : τ → Prop} {t : τ}

theorem registered_new : (new : Notify τ).Registered [] waits :=
  ⟨List.nodup_nil, fun _ h => absurd h List.not_mem_nil⟩

theorem Registered.mono (h : n.Registered woken waits)
    (hmono : ∀ t ∈ n.tasks ++ woken, waits t → waits' t) : n.Registered woken waits' :=
  ⟨h.nodup, fun t ht => hmono t ht (h.waits t ht)⟩

theorem Registered.notifyOne (h : n.Registered woken waits) :
    n.notifyOne.2.Registered (n.notifyOne.1.toList ++ woken) waits := by
  have hperm : (n.notifyOne.2.tasks ++ (n.notifyOne.1.toList ++ woken)).Perm
      (n.tasks ++ woken) := by
    rcases n with _ | _ | ⟨t, tasks⟩
    · exact .refl _
    · exact .refl _
    · exact List.perm_middle
  exact ⟨hperm.nodup_iff.mpr h.nodup, fun t ht => h.waits t (hperm.mem_iff.mp ht)⟩

theorem owed_notifyOne (n : Notify τ) (woken : List τ) :
    n.notifyOne.2.Owed (n.notifyOne.1.toList ++ woken) := by
  rcases n.notifyOne_cases with ⟨t, tasks, h⟩ | h
  · rw [h]
    exact .inr (List.cons_ne_nil _ _)
  · rw [h]
    exact .inl rfl

theorem Registered.await (h : n.Registered woken waits) (ht : ¬waits t)
    (hmono : ∀ s, s ≠ t → waits s → waits' s) (hwaits : (n.await t).1 = false → waits' t) :
    (n.await t).2.Registered woken waits' := by
  have hne : ∀ s ∈ n.tasks ++ woken, s ≠ t := by
    rintro s hs rfl
    exact ht (h.waits s hs)
  cases n with
  | notified => exact ⟨h.nodup, fun s hs => hmono s (hne s hs) (h.waits s hs)⟩
  | waiting tasks =>
      have hperm : (tasks ++ [t] ++ woken).Perm (t :: (tasks ++ woken)) := by
        rw [List.append_assoc]
        exact List.perm_middle
      constructor
      · exact hperm.nodup_iff.mpr (List.nodup_cons.mpr ⟨fun hs => hne t hs rfl, h.nodup⟩)
      · intro s hs
        rcases List.mem_cons.mp (hperm.mem_iff.mp hs) with rfl | hs
        · exact hwaits rfl
        · exact hmono s (hne s hs) (h.waits s hs)

theorem Owed.await (h : n.Owed woken) (ht : ¬n.HasPermit) : (n.await t).2.Owed woken := by
  rcases h with h | h
  · exact absurd h ht
  · exact .inr h

theorem Registered.take [BEq τ] [LawfulBEq τ] (h : n.Registered woken waits) (ht : t ∈ woken)
    (hmono : ∀ s, s ≠ t → waits s → waits' s) : n.Registered (woken.erase t) waits' := by
  obtain ⟨-, hwoken, hdisjoint⟩ := List.nodup_append.mp h.nodup
  constructor
  · exact h.nodup.sublist (List.Sublist.append_left List.erase_sublist _)
  · intro s hs
    rcases List.mem_append.mp hs with hs | hs
    · exact hmono s (hdisjoint s hs t ht) (h.waits s (List.mem_append_left _ hs))
    · obtain ⟨hne, hs⟩ := (hwoken.mem_erase_iff).mp hs
      exact hmono s hne (h.waits s (List.mem_append_right _ hs))

theorem Registered.cancel [DecidableEq τ] (h : n.Registered woken waits) (ht : t ∉ woken)
    (hmono : ∀ s, s ≠ t → waits s → waits' s) : (n.cancel t).Registered woken waits' := by
  cases n with
  | notified =>
      refine h.mono fun s hs => hmono s ?_
      rintro rfl
      exact ht hs
  | waiting tasks =>
      obtain ⟨htasks, -, -⟩ := List.nodup_append.mp h.nodup
      constructor
      · exact h.nodup.sublist (List.Sublist.append_right List.erase_sublist _)
      · intro s hs
        rcases List.mem_append.mp hs with hqueued | hwoken
        · obtain ⟨hne, hqueued⟩ := (htasks.mem_erase_iff).mp hqueued
          exact hmono s hne (h.waits s (List.mem_append_left _ hqueued))
        · exact hmono s (fun hst => ht (hst ▸ hwoken)) (h.waits s (List.mem_append_right _ hwoken))

theorem Owed.cancel [DecidableEq τ] (h : n.Owed woken) (t : τ) : (n.cancel t).Owed woken := by
  rcases h with h | h
  · exact .inl (by rw [h]; rfl)
  · exact .inr h

end Notify

end PlexSpaces.Lib
