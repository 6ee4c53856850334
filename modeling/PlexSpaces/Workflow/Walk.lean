import PlexSpaces.Workflow.Termination
/-!
# Walks over the steps of a definition

A walk executes steps as the loop does, and finds the next one by a rule alone:
from what it remembers, the step and the input of the step.  It ends at a step
seen before, at an id that no step has, after a failed step, and where the rule
gives nothing.  Where no statement fails, the loop is the walk of `advance`, its
own bookkeeping without the records.
-/

namespace PlexSpaces.Workflow

open PlexSpaces.Lib

/-- A walk under way: the step to execute, what it remembers, and its path. -/
structure WalkState (N μ : Type) where
  current : String
  memory : μ
  input : Json N
  path : List (Executed N) := []

abbrev Rule (N μ : Type) := μ → Step N → Json N → Option (String × μ)

variable {N μ : Type}

namespace WorkflowDefinition

variable (definition : WorkflowDefinition N)

/-- The steps of a path are distinct steps of the definition. -/
def Fits (path : List (Executed N)) : Prop :=
  (path.map (·.step.id)).Nodup ∧ path.map (·.step.id) ⊆ definition.steps.map (·.id)

/-- The id, where it names a step that was not seen. -/
def live (seen : List String) (id : String) : Option String :=
  if id ∈ seen then none else (definition.stepMap id).map (·.id)

section Fits

variable {definition} {path : List (Executed N)} {step : Step N}

theorem Fits.concat (hfits : definition.Fits path) {id : String}
    (hfresh : id ∉ path.map (·.step.id)) (hstep : definition.stepMap id = some step)
    (input : Json N) (result : Except WorkflowError (Json N)) :
    definition.Fits (path ++ [⟨step, input, result⟩]) := by
  obtain ⟨hmem, rfl⟩ := stepMap_some hstep
  rw [Fits, List.map_append]
  refine ⟨List.nodup_append_comm.mp (List.nodup_cons.mpr ⟨hfresh, hfits.1⟩), ?_⟩
  exact List.append_subset.mpr
    ⟨hfits.2, List.cons_subset.mpr ⟨List.mem_map_of_mem hmem, List.nil_subset _⟩⟩

theorem Fits.length_le (hfits : definition.Fits path) :
    path.length ≤ definition.steps.length := by
  have hle := (hfits.1.subperm hfits.2).length_le
  rwa [List.length_map, List.length_map] at hle

/-- One step more on the path leaves fuel for the rest. -/
theorem Fits.fuel {e : Executed N} (hfits : definition.Fits (path ++ [e])) {fuel : Nat}
    (hfuel : definition.steps.length - path.length < fuel + 1) :
    definition.steps.length - (path ++ [e]).length < fuel := by
  have hle := hfits.length_le
  rw [List.length_append, List.length_singleton] at hle ⊢
  omega

end Fits

end WorkflowDefinition

variable [BEq N] [LT N] [DecidableLT N]

def WorkflowDefinition.walkRound (definition : WorkflowDefinition N) (bodies : StepBodies N)
    (rule : Rule N μ) (w : WalkState N μ) :
    Interaction (Reply (N := N)) (WalkState N μ ⊕ List (Executed N)) :=
  if w.current ∈ w.path.map (·.step.id) then
    return .inr w.path
  else
    match definition.stepMap w.current with
    | none => return .inr w.path
    | some step => do
        let result ← (executeStep bodies step w.input).run
        let path := w.path ++ [⟨step, w.input, result⟩]
        match result with
        | .error _ => return .inr path
        | .ok output =>
            match rule w.memory step w.input with
            | none => return .inr path
            | some (next, memory) => return .inl ⟨next, memory, output, path⟩

namespace WorkflowDefinition

variable (definition : WorkflowDefinition N) (bodies : StepBodies N) (rule : Rule N μ)

/-- The path of a walk, served by the tables. -/
def walk (fuel : Nat) (w : WalkState N μ) (s : WorkflowStorage N) : Option (List (Executed N)) :=
  (Interaction.run WorkflowStorage.serve
    (Interaction.loop (definition.walkRound bodies rule) fuel w) s).1

section Steps

variable {definition bodies rule} {fuel : Nat} {w : WalkState N μ} {s s' : WorkflowStorage N}
  {step : Step N}

theorem walk_repeated (hseen : w.current ∈ w.path.map (·.step.id)) :
    definition.walk bodies rule (fuel + 1) w s = some w.path := by
  rw [walk, Interaction.run_loop_succ, walkRound, if_pos hseen]
  rfl

theorem walk_missing (hfresh : w.current ∉ w.path.map (·.step.id))
    (hstep : definition.stepMap w.current = none) :
    definition.walk bodies rule (fuel + 1) w s = some w.path := by
  rw [walk, Interaction.run_loop_succ, walkRound, if_neg hfresh]
  simp only [hstep]
  rfl

theorem walk_failed (hfresh : w.current ∉ w.path.map (·.step.id))
    (hstep : definition.stepMap w.current = some step) {e : WorkflowError}
    (hexecute : Interaction.run WorkflowStorage.serve
      (executeStep bodies step w.input).run s = (.error e, s')) :
    definition.walk bodies rule (fuel + 1) w s = some (w.path ++ [⟨step, w.input, .error e⟩]) := by
  rw [walk, Interaction.run_loop_succ, walkRound, if_neg hfresh]
  simp only [hstep, Interaction.run_bind, hexecute]
  rfl

theorem walk_step (hfresh : w.current ∉ w.path.map (·.step.id))
    (hstep : definition.stepMap w.current = some step) {output : Json N}
    (hexecute : Interaction.run WorkflowStorage.serve
      (executeStep bodies step w.input).run s = (.ok output, s')) :
    definition.walk bodies rule (fuel + 1) w s =
      match rule w.memory step w.input with
      | none => some (w.path ++ [⟨step, w.input, .ok output⟩])
      | some (next, memory) =>
          definition.walk bodies rule fuel
            ⟨next, memory, output, w.path ++ [⟨step, w.input, .ok output⟩]⟩ s' := by
  rw [walk, Interaction.run_loop_succ, walkRound, if_neg hfresh]
  simp only [hstep, Interaction.run_bind, hexecute]
  cases rule w.memory step w.input with
  | none => rfl
  | some next => rfl

/-- A walk that stands at no step to execute has ended. -/
theorem walk_dead (hfuel : 0 < fuel)
    (hdead : w.current ∈ w.path.map (·.step.id) ∨ definition.stepMap w.current = none) :
    definition.walk bodies rule fuel w s = some w.path := by
  cases fuel with
  | zero => exact absurd hfuel (Nat.lt_irrefl 0)
  | succ fuel =>
      by_cases hseen : w.current ∈ w.path.map (·.step.id)
      · exact walk_repeated hseen
      · exact walk_missing hseen (hdead.resolve_left hseen)

end Steps

/-! ## Walks end -/

section Total

variable {definition bodies rule}

/-- With fuel for every step a walk extends its path, first by the step where it stands. -/
theorem walk_total (fuel : Nat) (w : WalkState N μ) (s : WorkflowStorage N)
    (hfits : definition.Fits w.path)
    (hfuel : definition.steps.length - w.path.length < fuel) :
    ∃ tail, definition.walk bodies rule fuel w s = some (w.path ++ tail) ∧
      tail.head?.map (·.step.id) = definition.live (w.path.map (·.step.id)) w.current := by
  induction fuel generalizing w s with
  | zero => exact absurd hfuel (Nat.not_lt_zero _)
  | succ fuel ih =>
      rw [live]
      by_cases hseen : w.current ∈ w.path.map (·.step.id)
      · rw [walk_repeated hseen, if_pos hseen]
        exact ⟨[], by rw [List.append_nil], rfl⟩
      rw [if_neg hseen]
      cases hstep : definition.stepMap w.current with
      | none =>
          rw [walk_missing hseen hstep]
          exact ⟨[], by rw [List.append_nil], rfl⟩
      | some step =>
          rcases hexecute : Interaction.run WorkflowStorage.serve
            (executeStep bodies step w.input).run s with ⟨result, s'⟩
          cases result with
          | error e => exact ⟨_, walk_failed hseen hstep hexecute, rfl⟩
          | ok output =>
              rw [walk_step hseen hstep hexecute]
              cases rule w.memory step w.input with
              | none => exact ⟨_, rfl, rfl⟩
              | some next =>
                  obtain ⟨id, memory⟩ := next
                  have hnext := hfits.concat hseen hstep w.input (.ok output)
                  obtain ⟨tail, hwalk, -⟩ := ih ⟨id, memory, output, _⟩ s' hnext
                    (hnext.fuel hfuel)
                  refine ⟨⟨step, w.input, .ok output⟩ :: tail, ?_, rfl⟩
                  exact hwalk.trans (congrArg some (List.append_assoc _ _ _))

end Total

end WorkflowDefinition

end PlexSpaces.Workflow
