import Mathlib.Logic.Function.Basic
import PlexSpaces.Lib.Interaction
import PlexSpaces.Lib.Run
/-!
# Calls without transactions

Any number of callers run interactions over one server, a request at a time.
Nothing keeps a call from writing on the ground of what it read before another
call wrote.  A step is `Isolated` if it does not: no other call has written since
the call began, and none that has written is still running.  A run of isolated
steps is one call after another: the calls that wrote, in the order of their
returns, lead to the same server with the same values (`run_serial`).
-/

namespace PlexSpaces.Lib

variable {Request : Type} {Reply : Request → Type} {σ κ ι ρ : Type}

/-- A call in progress. -/
structure Task (Reply : Request → Type) (ι ρ : Type) where
  call : ι
  rest : Interaction Reply ρ
  /-- A request has been answered, and one that writes. -/
  begun : Bool := false
  wrote : Bool := false
  /-- Another call has written since this one began. -/
  stale : Bool := false

structure Returned (ι ρ : Type) where
  call : ι
  value : ρ
  wrote : Bool

/-- The server, the calls in progress, by their callers, and those that have returned. -/
structure Callers (Reply : Request → Type) (σ κ ι ρ : Type) where
  server : σ
  tasks : κ → Option (Task Reply ι ρ) := fun _ => none
  returned : List (Returned ι ρ) := []

inductive Schedule (κ ι : Type) where
  | start (caller : κ) (call : ι)
  | advance (caller : κ)

def Task.disturb (task : Task Reply ι ρ) : Task Reply ι ρ :=
  { task with stale := task.stale || task.begun }

namespace Callers

variable [DecidableEq κ] (program : ι → Interaction Reply ρ)
variable (serve : (r : Request) → σ → Reply r × σ) (writes : Request → Bool)

def settle (s : Callers Reply σ κ ι ρ) (caller : κ) : Callers Reply σ κ ι ρ :=
  match s.tasks caller with
  | some ⟨call, .done value, _, wrote, _⟩ =>
      { s with
        tasks := Function.update s.tasks caller none
        returned := s.returned ++ [⟨call, value, wrote⟩] }
  | _ => s

def begin (s : Callers Reply σ κ ι ρ) (caller : κ) (call : ι) : Callers Reply σ κ ι ρ :=
  { s with tasks := Function.update s.tasks caller (some { call, rest := program call }) }

/-- A request is answered; if it writes, the other calls that have begun are stale. -/
def answer (s : Callers Reply σ κ ι ρ) (caller : κ) (task : Task Reply ι ρ) (request : Request)
    (next : Reply request → Interaction Reply ρ) : Callers Reply σ κ ι ρ :=
  let others := if writes request then fun c => (s.tasks c).map Task.disturb else s.tasks
  { s with
    server := (serve request s.server).2
    tasks := Function.update others caller (some { task with
      rest := next (serve request s.server).1
      begun := true
      wrote := task.wrote || writes request }) }

def step (s : Callers Reply σ κ ι ρ) : Schedule κ ι → Callers Reply σ κ ι ρ
  | .start caller call =>
      match s.tasks caller with
      | some _ => s
      | none => (s.begin program caller call).settle caller
  | .advance caller =>
      match s.tasks caller with
      | none => s
      | some task =>
          match task.rest with
          | .done _ => s
          | .ask request next => (s.answer serve writes caller task request next).settle caller

/-- A write comes on current reads, apart from the writes of others, in a good state. -/
def Isolated (good : σ → Prop) (s : Callers Reply σ κ ι ρ) : Schedule κ ι → Prop
  | .start _ _ => True
  | .advance caller => ∀ task request next, s.tasks caller = some task →
      task.rest = .ask request next → writes request = true →
      task.stale = false ∧ good s.server ∧
        ∀ c task', s.tasks c = some task' → task'.wrote = true → c = caller

/-- The calls in their order, one after another, each in a good state. -/
def Serial (good : σ → Prop) : σ → List (Returned ι ρ) → σ → Prop
  | s, [], s' => s = s'
  | s, r :: rest, s' =>
      good s ∧ (Interaction.run serve (program r.call) s).1 = r.value ∧
        Serial good (Interaction.run serve (program r.call) s).2 rest s'

end Callers

def Interaction.Unwritten (writes : Request → Bool) (quiet : ρ → Prop) :
    Interaction Reply ρ → Prop
  | .done value => quiet value
  | .ask request next => writes request = true ∨ ∀ reply, (next reply).Unwritten writes quiet

namespace Callers

section Serial

variable {program : ι → Interaction Reply ρ} {serve : (r : Request) → σ → Reply r × σ}
variable {good : σ → Prop} {s s' : σ}

theorem Serial.concat {calls : List (Returned ι ρ)} {r : Returned ι ρ}
    (h : Serial program serve good s calls s') (hgood : good s')
    (hvalue : (Interaction.run serve (program r.call) s').1 = r.value) :
    Serial program serve good s (calls ++ [r])
      (Interaction.run serve (program r.call) s').2 := by
  induction calls generalizing s with
  | nil =>
      cases h
      exact ⟨hgood, hvalue, rfl⟩
  | cons call calls ih => exact ⟨h.1, h.2.1, ih h.2.2⟩

end Serial

variable [DecidableEq κ]

/-- The server holds what the calls that returned have written, and what the one in progress
has written so far that has written. -/
structure Consistent (program : ι → Interaction Reply ρ) (serve : (r : Request) → σ → Reply r × σ)
    (writes : Request → Bool) (good : σ → Prop) (quiet : ρ → Prop) (s₀ base : σ)
    (s : Callers Reply σ κ ι ρ) : Prop where
  serial : Serial program serve good s₀ (s.returned.filter (·.wrote)) base
  returned : ∀ r ∈ s.returned, r.wrote = false → quiet r.value
  waiting : ∀ c task, s.tasks c = some task → task.begun = false → task.rest = program task.call
  unwritten : ∀ c task, s.tasks c = some task → task.wrote = false →
    task.rest.Unwritten writes quiet
  current : ∀ c task, s.tasks c = some task → task.wrote = false → task.stale = false →
    Interaction.run serve task.rest s.server = Interaction.run serve (program task.call) s.server
  clean : (∀ c task, s.tasks c = some task → task.wrote = false) → s.server = base
  writing : ∀ c task, s.tasks c = some task → task.wrote = true → good base ∧
    Interaction.run serve task.rest s.server = Interaction.run serve (program task.call) base
  sole : ∀ c c' task task', s.tasks c = some task → s.tasks c' = some task' →
    task.wrote = true → task'.wrote = true → c = c'

section Steps

variable {program : ι → Interaction Reply ρ} {serve : (r : Request) → σ → Reply r × σ}
variable {writes : Request → Bool} {good : σ → Prop} {quiet : ρ → Prop} {s₀ base : σ}
variable {s : Callers Reply σ κ ι ρ} {caller : κ} {task : Task Reply ι ρ}

theorem update_eq_some {tasks : κ → Option (Task Reply ι ρ)} {entry : Option (Task Reply ι ρ)}
    {c : κ} (h : Function.update tasks caller entry c = some task) :
    c = caller ∧ entry = some task ∨ c ≠ caller ∧ tasks c = some task := by
  by_cases hc : c = caller
  · rw [hc, Function.update_self] at h
    exact .inl ⟨hc, h⟩
  · rw [Function.update_of_ne hc] at h
    exact .inr ⟨hc, h⟩

theorem Consistent.begin (h : Consistent program serve writes good quiet s₀ base s)
    (hprogram : ∀ call, (program call).Unwritten writes quiet) (hfree : s.tasks caller = none)
    (call : ι) :
    Consistent program serve writes good quiet s₀ base (s.begin program caller call) where
  serial := h.serial
  returned := h.returned
  waiting := by
    intro c task htask hbegun
    obtain ⟨-, hentry⟩ | ⟨-, htask⟩ := update_eq_some htask
    · cases hentry
      rfl
    · exact h.waiting c task htask hbegun
  unwritten := by
    intro c task htask hwrote
    obtain ⟨-, hentry⟩ | ⟨-, htask⟩ := update_eq_some htask
    · cases hentry
      exact hprogram call
    · exact h.unwritten c task htask hwrote
  current := by
    intro c task htask hwrote hstale
    obtain ⟨-, hentry⟩ | ⟨-, htask⟩ := update_eq_some htask
    · cases hentry
      rfl
    · exact h.current c task htask hwrote hstale
  clean := by
    intro hclean
    refine h.clean fun c task htask => hclean c task ?_
    have hc : c ≠ caller := by
      rintro rfl
      rw [hfree] at htask
      cases htask
    exact (Function.update_of_ne hc ..).trans htask
  writing := by
    intro c task htask hwrote
    obtain ⟨-, hentry⟩ | ⟨-, htask⟩ := update_eq_some htask
    · cases hentry
      cases hwrote
    · exact h.writing c task htask hwrote
  sole := by
    intro c c' task task' htask htask' hwrote hwrote'
    obtain ⟨-, hentry⟩ | ⟨-, htask⟩ := update_eq_some htask
    · cases hentry
      cases hwrote
    · obtain ⟨-, hentry⟩ | ⟨-, htask'⟩ := update_eq_some htask'
      · cases hentry
        cases hwrote'
      · exact h.sole c c' task task' htask htask' hwrote hwrote'

section Answer

variable {request : Request} {next : Reply request → Interaction Reply ρ}

theorem Consistent.read (h : Consistent program serve writes good quiet s₀ base s)
    (hread : ∀ request s, writes request = false → (serve request s).2 = s)
    (htask : s.tasks caller = some task) (hrest : task.rest = .ask request next)
    (hwrites : writes request = false) :
    Consistent program serve writes good quiet s₀ base
      (s.answer serve writes caller task request next) := by
  have hserver : (s.answer serve writes caller task request next).server = s.server :=
    hread request s.server hwrites
  have hrun : Interaction.run serve (next (serve request s.server).1) s.server =
      Interaction.run serve task.rest s.server := by
    rw [hrest, Interaction.run, hread request s.server hwrites]
  have htasks : (s.answer serve writes caller task request next).tasks =
      Function.update s.tasks caller (some { task with
        rest := next (serve request s.server).1, begun := true, wrote := task.wrote }) := by
    rw [answer, hwrites, Bool.or_false]
    rfl
  refine ⟨h.serial, h.returned, ?_, ?_, ?_, ?_, ?_, ?_⟩
  · intro c task' htask' hbegun
    rw [htasks] at htask'
    obtain ⟨-, hentry⟩ | ⟨-, htask'⟩ := update_eq_some htask'
    · cases hentry
      cases hbegun
    · exact h.waiting c task' htask' hbegun
  · intro c task' htask' hwrote
    rw [htasks] at htask'
    obtain ⟨-, hentry⟩ | ⟨-, htask'⟩ := update_eq_some htask'
    · cases hentry
      have hunwritten := h.unwritten caller task htask hwrote
      rw [hrest] at hunwritten
      exact hunwritten.resolve_left (by simp [hwrites]) _
    · exact h.unwritten c task' htask' hwrote
  · intro c task' htask' hwrote hstale
    rw [hserver]
    rw [htasks] at htask'
    obtain ⟨-, hentry⟩ | ⟨-, htask'⟩ := update_eq_some htask'
    · cases hentry
      exact hrun.trans (h.current caller task htask hwrote hstale)
    · exact h.current c task' htask' hwrote hstale
  · intro hclean
    rw [hserver]
    refine h.clean fun c task' htask' => ?_
    rw [htasks] at hclean
    by_cases hc : c = caller
    · have hsame : task = task' := Option.some.inj (htask.symm.trans (hc ▸ htask'))
      rw [← hsame]
      exact hclean caller { task with
        rest := next (serve request s.server).1, begun := true, wrote := task.wrote }
        (Function.update_self ..)
    · exact hclean c task' ((Function.update_of_ne hc ..).trans htask')
  · intro c task' htask' hwrote
    rw [hserver]
    rw [htasks] at htask'
    obtain ⟨-, hentry⟩ | ⟨-, htask'⟩ := update_eq_some htask'
    · cases hentry
      obtain ⟨hgood, hsame⟩ := h.writing caller task htask hwrote
      exact ⟨hgood, hrun.trans hsame⟩
    · exact h.writing c task' htask' hwrote
  · intro c c' task₁ task₂ htask₁ htask₂ hwrote₁ hwrote₂
    rw [htasks] at htask₁ htask₂
    obtain ⟨hc, hentry⟩ | ⟨hc, htask₁⟩ := update_eq_some htask₁ <;>
      obtain ⟨hc', hentry'⟩ | ⟨hc', htask₂⟩ := update_eq_some htask₂
    · exact hc.trans hc'.symm
    · cases hentry
      exact absurd (h.sole caller c' task task₂ htask htask₂ hwrote₁ hwrote₂) (Ne.symm hc')
    · cases hentry'
      exact absurd (h.sole c caller task₁ task htask₁ htask hwrote₁ hwrote₂) hc
    · exact h.sole c c' task₁ task₂ htask₁ htask₂ hwrote₁ hwrote₂

/-- A call that writes has read what the calls before it have written. -/
theorem Consistent.write (h : Consistent program serve writes good quiet s₀ base s)
    (htask : s.tasks caller = some task) (hrest : task.rest = .ask request next)
    (hwrites : writes request = true) (hstale : task.stale = false) (hgood : good s.server)
    (halone : ∀ c task', s.tasks c = some task' → task'.wrote = true → c = caller) :
    Consistent program serve writes good quiet s₀ base
      (s.answer serve writes caller task request next) := by
  have hrun : Interaction.run serve (next (serve request s.server).1) (serve request s.server).2 =
      Interaction.run serve task.rest s.server := by
    rw [hrest, Interaction.run]
  have htasks : (s.answer serve writes caller task request next).tasks =
      Function.update (fun c => (s.tasks c).map Task.disturb) caller (some { task with
        rest := next (serve request s.server).1, begun := true, wrote := true }) := by
    rw [answer, hwrites, Bool.or_true]
    rfl
  -- the tasks of the other callers are as they were, but stale if they have begun
  have hother : ∀ c task', (s.answer serve writes caller task request next).tasks c = some task' →
      (c = caller ∧ task' = { task with
        rest := next (serve request s.server).1, begun := true, wrote := true }) ∨
      c ≠ caller ∧ ∃ before, s.tasks c = some before ∧ task' = before.disturb := by
    intro c task' htask'
    rw [htasks] at htask'
    obtain ⟨hc, hentry⟩ | ⟨hc, htask'⟩ := update_eq_some htask'
    · exact .inl ⟨hc, (Option.some.inj hentry).symm⟩
    · obtain ⟨before, hbefore, rfl⟩ := Option.map_eq_some_iff.mp htask'
      exact .inr ⟨hc, before, hbefore, rfl⟩
  have hunwrote : ∀ c before, c ≠ caller → s.tasks c = some before → before.wrote = false :=
    fun c before hc hbefore =>
      Bool.eq_false_iff.mpr fun hwrote => hc (halone c before hbefore hwrote)
  refine ⟨h.serial, h.returned, ?_, ?_, ?_, ?_, ?_, ?_⟩
  · intro c task' htask' hbegun
    obtain ⟨-, rfl⟩ | ⟨-, before, hbefore, rfl⟩ := hother c task' htask'
    · cases hbegun
    · exact h.waiting c before hbefore hbegun
  · intro c task' htask' hwrote
    obtain ⟨-, rfl⟩ | ⟨-, before, hbefore, rfl⟩ := hother c task' htask'
    · cases hwrote
    · exact h.unwritten c before hbefore hwrote
  · intro c task' htask' hwrote hstale'
    obtain ⟨-, rfl⟩ | ⟨-, before, hbefore, rfl⟩ := hother c task' htask'
    · cases hwrote
    · have hbegun : before.begun = false := (Bool.or_eq_false_iff.mp hstale').2
      exact congrArg (Interaction.run serve · _) (h.waiting c before hbefore hbegun)
  · intro hclean
    rw [htasks] at hclean
    cases hclean caller _ (Function.update_self ..)
  · intro c task' htask' hwrote
    obtain ⟨-, rfl⟩ | ⟨hc, before, hbefore, rfl⟩ := hother c task' htask'
    · by_cases hwrote : task.wrote = true
      · obtain ⟨hbase, hsame⟩ := h.writing caller task htask hwrote
        exact ⟨hbase, hrun.trans hsame⟩
      · -- its first write: no call in progress has written
        have hserver : s.server = base := by
          refine h.clean fun c before hbefore => Bool.eq_false_iff.mpr fun hbeforeWrote => ?_
          have hc := halone c before hbefore hbeforeWrote
          rw [hc, htask] at hbefore
          exact hwrote (Option.some.inj hbefore ▸ hbeforeWrote)
        have hcurrent := h.current caller task htask (Bool.eq_false_iff.mpr hwrote) hstale
        rw [hserver] at hgood hcurrent
        rw [← hserver] at hcurrent
        exact ⟨hgood, hserver ▸ hrun.trans hcurrent⟩
    · rw [Task.disturb, hunwrote c before hc hbefore] at hwrote
      cases hwrote
  · intro c c' task₁ task₂ htask₁ htask₂ hwrote₁ hwrote₂
    have hcaller : ∀ c task', (s.answer serve writes caller task request next).tasks c =
        some task' → task'.wrote = true → c = caller := by
      intro c task' htask' hwrote
      obtain ⟨hc, -⟩ | ⟨hc, before, hbefore, rfl⟩ := hother c task' htask'
      · exact hc
      · rw [Task.disturb, hunwrote c before hc hbefore] at hwrote
        cases hwrote
    exact (hcaller c task₁ htask₁ hwrote₁).trans (hcaller c' task₂ htask₂ hwrote₂).symm

end Answer

/-- A call that returns without a write changes nothing, and one that has written is next in
the order. -/
theorem Consistent.settle (h : Consistent program serve writes good quiet s₀ base s) :
    ∃ base, Consistent program serve writes good quiet s₀ base (s.settle caller) := by
  rw [Callers.settle]
  split
  · next call value begun wrote stale htask =>
      have hothers : ∀ c task, Function.update s.tasks caller none c = some task →
          c ≠ caller ∧ s.tasks c = some task := by
        intro c task hupdated
        obtain ⟨-, hentry⟩ | hother := update_eq_some hupdated
        · cases hentry
        · exact hother
      cases wrote with
      | false =>
          refine ⟨base, ?_, ?_, fun c task hc => h.waiting c task (hothers c task hc).2,
            fun c task hc => h.unwritten c task (hothers c task hc).2,
            fun c task hc => h.current c task (hothers c task hc).2, ?_,
            fun c task hc => h.writing c task (hothers c task hc).2,
            fun c c' task task' hc hc' =>
              h.sole c c' task task' (hothers c task hc).2 (hothers c' task' hc').2⟩
          · rw [List.filter_append]
            exact (List.append_nil _).symm ▸ h.serial
          · refine List.forall_mem_append.mpr
              ⟨h.returned, List.forall_mem_singleton.mpr fun _ => ?_⟩
            exact h.unwritten caller _ htask rfl
          · intro hclean
            refine h.clean fun c task hc => ?_
            by_cases hcaller : c = caller
            · rw [hcaller, htask] at hc
              cases hc
              rfl
            · exact hclean c task ((Function.update_of_ne hcaller ..).trans hc)
      | true =>
          obtain ⟨hgood, hrun⟩ := h.writing caller _ htask rfl
          have hnone : ∀ c task, Function.update s.tasks caller none c = some task →
              task.wrote = false := by
            intro c task hc
            obtain ⟨hne, hc⟩ := hothers c task hc
            exact Bool.eq_false_iff.mpr fun hwrote => hne (h.sole c caller _ _ hc htask hwrote rfl)
          refine ⟨s.server, ?_, ?_, fun c task hc => h.waiting c task (hothers c task hc).2,
            fun c task hc => h.unwritten c task (hothers c task hc).2,
            fun c task hc => h.current c task (hothers c task hc).2, fun _ => rfl, ?_, ?_⟩
          · have hserial := h.serial.concat (r := ⟨call, value, true⟩) hgood
              (congrArg Prod.fst hrun).symm
            rw [← congrArg Prod.snd hrun] at hserial
            rw [List.filter_append]
            exact hserial
          · exact List.forall_mem_append.mpr ⟨h.returned, List.forall_mem_singleton.mpr nofun⟩
          · intro c task hc hwrote
            rw [hnone c task hc] at hwrote
            cases hwrote
          · intro c c' task task' hc _ hwrote
            rw [hnone c task hc] at hwrote
            cases hwrote
  · exact ⟨base, h⟩

theorem Consistent.step (h : Consistent program serve writes good quiet s₀ base s)
    (hprogram : ∀ call, (program call).Unwritten writes quiet)
    (hread : ∀ request s, writes request = false → (serve request s).2 = s)
    (turn : Schedule κ ι) (hisolated : s.Isolated writes good turn) :
    ∃ base, Consistent program serve writes good quiet s₀ base
      (s.step program serve writes turn) := by
  cases turn with
  | start caller call =>
      rw [Callers.step]
      split
      · exact ⟨base, h⟩
      · next hfree => exact (h.begin hprogram hfree call).settle
  | advance caller =>
      rw [Callers.step]
      split
      · exact ⟨base, h⟩
      · next task htask =>
          split
          · exact ⟨base, h⟩
          · next request next hrest =>
              cases hwrites : writes request with
              | false => exact (h.read hread htask hrest hwrites).settle
              | true =>
                  obtain ⟨hstale, hgood, halone⟩ :=
                    hisolated task request next htask hrest hwrites
                  exact (h.write htask hrest hwrites hstale hgood halone).settle

/-- After isolated steps, and with no call in progress, the calls that wrote come one after
another. -/
theorem run_serial (hprogram : ∀ call, (program call).Unwritten writes quiet)
    (hread : ∀ request s, writes request = false → (serve request s).2 = s)
    {turns : List (Schedule κ ι)}
    (hisolated : Along (step program serve writes) (Isolated writes good)
      ({ server := s₀ } : Callers Reply σ κ ι ρ) turns)
    (hquiet : ∀ c, (run (step program serve writes) ({ server := s₀ } : Callers Reply σ κ ι ρ)
      turns).tasks c = none) :
    let last := run (step program serve writes) ({ server := s₀ } : Callers Reply σ κ ι ρ) turns
    Serial program serve good s₀ (last.returned.filter (·.wrote)) last.server ∧
      ∀ r ∈ last.returned, r.wrote = false → quiet r.value := by
  have hinit : ∃ base, Consistent program serve writes good quiet s₀ base
      ({ server := s₀ } : Callers Reply σ κ ι ρ) :=
    ⟨s₀, rfl, nofun, nofun, nofun, nofun, fun _ => rfl, nofun, nofun⟩
  obtain ⟨base, hlast⟩ := hisolated.invariant
    (I := fun s => ∃ base, Consistent program serve writes good quiet s₀ base s)
    (fun s turn ⟨_, h⟩ hturn => h.step hprogram hread turn hturn) hinit
  refine ⟨?_, hlast.returned⟩
  rw [hlast.clean fun c task htask => by rw [hquiet c] at htask; cases htask]
  exact hlast.serial

end Steps

end Callers

end PlexSpaces.Lib
