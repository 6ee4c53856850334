import Mathlib.Data.List.Nodup
import Mathlib.Data.List.Perm.Subperm
import PlexSpaces.Workflow.Executor
/-!
# Workflow runs end

The visited set bounds the rounds of the loop: a round that goes on has put a
new id of the definition into it.  `LoopState.Good` is the invariant; the answer
and the final status follow from the exit that was taken.
-/

namespace PlexSpaces.Workflow

open PlexSpaces.Lib

variable {N : Type}

namespace WorkflowDefinition

/-- What the tables hold after the executor has returned `Ok`. -/
theorem conclude_ok {exit : Exit N} {s s' : WorkflowStorage N} :
    Interaction.run WorkflowStorage.serve (conclude exit).run s = (.ok (), s') →
      match exit with
      | .ended st => s'.status = .completed ∧ s'.output = some st.currentInput
      | .failed _ => s'.status = .failed
      | .aborted _ _ => False := by
  intro hok
  cases exit with
  | ended st =>
      rw [conclude, Interaction.run_bindExcept] at hok
      split at hok
      · next s₁ houtput =>
          rw [updateExecutionStatus, run_statement] at hok
          obtain ⟨faults, hstatus⟩ := WorkflowStorage.serve_ok hok
          rw [updateExecutionOutput, run_statement] at houtput
          obtain ⟨faults', houtput⟩ := WorkflowStorage.serve_ok houtput
          cases houtput
          cases hstatus
          exact ⟨rfl, rfl⟩
      · cases hok
  | failed st =>
      rw [conclude, updateExecutionStatus, run_statement] at hok
      obtain ⟨faults, hstatus⟩ := WorkflowStorage.serve_ok hok
      cases hstatus
      rfl
  | aborted st e => cases hok

/-! ## One round -/

section Round

variable [BEq N] [LT N] [DecidableLT N] {definition : WorkflowDefinition N}
  {bodies : StepBodies N} {st : LoopState N} {s : WorkflowStorage N}

omit [BEq N] [LT N] [DecidableLT N] in
theorem stepMap_some {id : String} {step : Step N} (hstep : definition.stepMap id = some step) :
    step ∈ definition.steps ∧ step.id = id :=
  ⟨List.mem_reverse.mp (List.mem_of_find?_eq_some hstep),
    beq_iff_eq.mp (List.find?_some (p := fun step : Step N => step.id == id) hstep)⟩

omit [BEq N] [LT N] [DecidableLT N] in
theorem stepMap_ne_none {step : Step N} (hstep : step ∈ definition.steps) :
    definition.stepMap step.id ≠ none := by
  intro hnone
  exact List.find?_eq_none.mp hnone step (List.mem_reverse.mpr hstep) (beq_self_eq_true step.id)

theorem run_round_repeated (hseen : st.currentStepId ∈ st.visited) :
    Interaction.run WorkflowStorage.serve (definition.round bodies st) s =
      (.inr (.ended st), s) := by
  rw [round, if_pos hseen]
  rfl

variable (bodies s) in
theorem run_round_missing (hfresh : st.currentStepId ∉ st.visited)
    (hstep : definition.stepMap st.currentStepId = none) :
    ∃ e, Interaction.run WorkflowStorage.serve (definition.round bodies st) s =
      (.inr (.aborted { st with visited := st.currentStepId :: st.visited } e), s) := by
  rw [round, if_neg hfresh]
  simp only [hstep]
  exact ⟨_, rfl⟩

end Round

end WorkflowDefinition

/-- The variables of the loop once a step was executed. -/
def LoopState.recorded (st : LoopState N) (step : Step N) (result : Except WorkflowError (Json N)) :
    LoopState N :=
  { st with
    visited := st.currentStepId :: st.visited
    executed := st.executed ++ [⟨step, st.currentInput, result⟩] }

namespace WorkflowDefinition

section Round

variable [BEq N] [LT N] [DecidableLT N] {definition : WorkflowDefinition N}
  {bodies : StepBodies N} {st : LoopState N} {s s' : WorkflowStorage N} {step : Step N}

theorem run_round_failed (hfresh : st.currentStepId ∉ st.visited)
    (hstep : definition.stepMap st.currentStepId = some step) {e : WorkflowError}
    (hexecute : Interaction.run WorkflowStorage.serve
      (executeStep bodies step st.currentInput).run s = (.error e, s')) :
    Interaction.run WorkflowStorage.serve (definition.round bodies st) s =
      (.inr (.failed (st.recorded step (.error e))), s') := by
  rw [round, if_neg hfresh]
  simp only [hstep, Interaction.run_bind, hexecute]
  rfl

theorem run_round_choice (hfresh : st.currentStepId ∉ st.visited)
    (hstep : definition.stepMap st.currentStepId = some step) {output : Json N}
    (hexecute : Interaction.run WorkflowStorage.serve
      (executeStep bodies step st.currentInput).run s = (.ok output, s'))
    (hchoice : stepType step = .choice) :
    Interaction.run WorkflowStorage.serve (definition.round bodies st) s =
      match WorkflowStorage.serve .getStepExecutionHistory s' with
      | (.error e, s'') =>
          (.inr (.aborted { st.recorded step (.ok output) with currentInput := output } e), s'')
      | (.ok history, s'') =>
          (definition.afterChoice { st.recorded step (.ok output) with currentInput := output }
            step history, s'') := by
  have hread : Interaction.run WorkflowStorage.serve
      (getStepExecutionHistory : Storing N (List (StepExecution N))).run s' =
        WorkflowStorage.serve .getStepExecutionHistory s' := rfl
  generalize WorkflowStorage.serve .getStepExecutionHistory s' = served at hread ⊢
  obtain ⟨reply, s''⟩ := served
  rw [round, if_neg hfresh]
  simp only [hstep, Interaction.run_bind, hexecute, if_pos hchoice, hread]
  cases reply with
  | error e => rfl
  | ok history => rfl

theorem run_round_step (hfresh : st.currentStepId ∉ st.visited)
    (hstep : definition.stepMap st.currentStepId = some step) {output : Json N}
    (hexecute : Interaction.run WorkflowStorage.serve
      (executeStep bodies step st.currentInput).run s = (.ok output, s'))
    (hchoice : stepType step ≠ .choice) :
    Interaction.run WorkflowStorage.serve (definition.round bodies st) s =
      (definition.afterStep { st.recorded step (.ok output) with currentInput := output } step,
        s') := by
  rw [round, if_neg hfresh]
  simp only [hstep, Interaction.run_bind, hexecute, if_neg hchoice]
  rfl

end Round

/-- Choosing the next step changes none of the trace, the visited set and the value. -/
def Moves (st : LoopState N) (next : LoopState N ⊕ Exit N) : Prop :=
  (∃ index, next = .inr (.ended { st with currentStepIndex := index })) ∨
    ∃ id index flag, next = .inl { st with
      currentStepId := id, currentStepIndex := index, choicePathTaken := flag }

section Moves

variable (definition : WorkflowDefinition N) (st : LoopState N) (step : Step N)

theorem afterChoice_moves (history : List (StepExecution N)) :
    Moves st (definition.afterChoice st step history) := by
  rw [afterChoice]
  split
  · split_ifs
    · exact .inl ⟨_, rfl⟩
    · exact .inr ⟨_, _, _, rfl⟩
  · exact .inl ⟨_, rfl⟩

theorem afterStep_moves : Moves st (definition.afterStep st step) := by
  rw [afterStep]
  by_cases hchoice : st.choicePathTaken = true
  · rw [if_pos hchoice]
    cases stepNext step with
    | none => exact .inl ⟨_, rfl⟩
    | some nextId =>
        dsimp only
        split_ifs
        · exact .inl ⟨_, rfl⟩
        · exact .inr ⟨_, _, _, rfl⟩
  · rw [if_neg hchoice]
    cases stepNext step with
    | none =>
        dsimp only
        cases definition.steps[st.currentStepIndex + 1]? with
        | none => exact .inl ⟨st.currentStepIndex + 1, rfl⟩
        | some following =>
            exact .inr ⟨following.id, st.currentStepIndex + 1, st.choicePathTaken, rfl⟩
    | some nextId =>
        dsimp only
        split_ifs
        · exact .inl ⟨_, rfl⟩
        · exact .inr ⟨nextId, st.currentStepIndex, st.choicePathTaken, rfl⟩

end Moves

end WorkflowDefinition

/-! ## The invariant -/

/-- The executed steps succeeded, each id once, and the last of them gave the value
that the loop carries. -/
structure LoopState.Good (definition : WorkflowDefinition N) (st : LoopState N) : Prop where
  trace : st.visited = (st.executed.map (·.step.id)).reverse
  once : st.visited.Nodup
  known : st.visited ⊆ definition.steps.map (·.id)
  succeeded : ∀ e ∈ st.executed, ∃ output, e.result = .ok output
  last : ∀ e, st.executed.getLast? = some e → e.result = .ok st.currentInput

def Exit.Tells : Exit N → Prop
  | .ended st => (∀ e ∈ st.executed, ∃ output, e.result = .ok output) ∧
      ∃ last, st.executed.getLast? = some last ∧ last.result = .ok st.currentInput
  | .failed st => ∃ e ∈ st.executed, ∃ error, e.result = .error error
  | .aborted _ _ => True

/-- The executed ids are distinct and the exit tells how the steps ended. -/
def Exit.Right (exit : Exit N) : Prop :=
  (exit.state.executed.map (·.step.id)).Nodup ∧ exit.Tells

namespace LoopState.Good

variable {definition : WorkflowDefinition N} {st : LoopState N} {step : Step N}

theorem nodup_executed (hgood : st.Good definition) : (st.executed.map (·.step.id)).Nodup :=
  List.nodup_reverse.mp (hgood.trace ▸ hgood.once)

theorem length_visited_le (hgood : st.Good definition) :
    st.visited.length ≤ definition.steps.length := by
  have hle := (hgood.once.subperm hgood.known).length_le
  rwa [List.length_map] at hle

theorem right_ended (hgood : st.Good definition) (hsome : st.executed ≠ []) :
    (Exit.ended st).Right := by
  have hlast := List.getLast?_eq_some_getLast hsome
  exact ⟨hgood.nodup_executed, hgood.succeeded, _, hlast, hgood.last _ hlast⟩

theorem move (hgood : st.Good definition) (id : String) (index : Nat) (flag : Bool) :
    LoopState.Good definition
      { st with currentStepId := id, currentStepIndex := index, choicePathTaken := flag } where
  trace := hgood.trace
  once := hgood.once
  known := hgood.known
  succeeded := hgood.succeeded
  last := hgood.last

theorem recorded (hgood : st.Good definition) (hfresh : st.currentStepId ∉ st.visited)
    (hstep : definition.stepMap st.currentStepId = some step) (output : Json N) :
    LoopState.Good definition { st.recorded step (.ok output) with currentInput := output } := by
  obtain ⟨hmem, hid⟩ := WorkflowDefinition.stepMap_some hstep
  refine ⟨?_, List.nodup_cons.mpr ⟨hfresh, hgood.once⟩, ?_, ?_, ?_⟩
  · have htrace := congrArg (st.currentStepId :: ·) hgood.trace
    simpa [LoopState.recorded, hid] using htrace
  · exact List.cons_subset.mpr ⟨hid ▸ List.mem_map_of_mem hmem, hgood.known⟩
  · intro e he
    rcases List.mem_append.mp he with he | he
    · exact hgood.succeeded e he
    · exact ⟨output, List.mem_singleton.mp he ▸ rfl⟩
  · intro e he
    rw [LoopState.recorded, List.getLast?_concat] at he
    cases he
    rfl

theorem right_failed (hgood : st.Good definition) (hfresh : st.currentStepId ∉ st.visited)
    (hstep : definition.stepMap st.currentStepId = some step) (error : WorkflowError) :
    (Exit.failed (st.recorded step (.error error))).Right := by
  refine ⟨?_, _, List.mem_concat_self, error, rfl⟩
  obtain ⟨-, hid⟩ := WorkflowDefinition.stepMap_some hstep
  have hids : step.id ∉ st.executed.map (·.step.id) := by
    rw [← List.mem_reverse, ← hgood.trace, hid]
    exact hfresh
  change ((st.executed ++ [(⟨step, st.currentInput, .error error⟩ : Executed N)]).map
    (·.step.id)).Nodup
  rw [List.map_append]
  exact List.nodup_append_comm.mp (List.nodup_cons.mpr ⟨hids, hgood.nodup_executed⟩)

end LoopState.Good

namespace WorkflowDefinition

variable [BEq N] [LT N] [DecidableLT N] {definition : WorkflowDefinition N}
  {bodies : StepBodies N} {st : LoopState N}

/-- The loop goes on with one id less to visit, or is left rightly. -/
def Progresses (definition : WorkflowDefinition N) (st : LoopState N) :
    LoopState N ⊕ Exit N → Prop
  | .inl st' => st'.Good definition ∧ definition.steps.length - st'.visited.length <
      definition.steps.length - st.visited.length
  | .inr exit => exit.Right

omit [BEq N] [LT N] [DecidableLT N] in
theorem progresses_of_moves {moved : LoopState N} (hgood : moved.Good definition)
    (hsome : moved.executed ≠ []) (hmore : moved.visited.length = st.visited.length + 1)
    {next : LoopState N ⊕ Exit N} (hmoves : Moves moved next) :
    definition.Progresses st next := by
  have hle := hgood.length_visited_le
  rcases hmoves with ⟨index, rfl⟩ | ⟨id, index, flag, rfl⟩
  · exact (hgood.move moved.currentStepId index moved.choicePathTaken).right_ended hsome
  · exact ⟨hgood.move id index flag, by change _ - moved.visited.length < _; omega⟩

/-- One round keeps the invariant and visits a new id, or leaves the loop rightly. -/
theorem round_progresses (bodies : StepBodies N) (s : WorkflowStorage N)
    (hgood : st.Good definition) :
    definition.Progresses st
      (Interaction.run WorkflowStorage.serve (definition.round bodies st) s).1 := by
  by_cases hfresh : st.currentStepId ∈ st.visited
  · rw [run_round_repeated hfresh]
    refine hgood.right_ended ?_
    intro hnone
    rw [hgood.trace, hnone] at hfresh
    cases hfresh
  cases hstep : definition.stepMap st.currentStepId with
  | none =>
      obtain ⟨e, hround⟩ := run_round_missing bodies s hfresh hstep
      rw [hround]
      exact ⟨hgood.nodup_executed, trivial⟩
  | some step =>
      cases hexecute : Interaction.run WorkflowStorage.serve
          (executeStep bodies step st.currentInput).run s with
      | mk result s' =>
          cases result with
          | error e =>
              rw [run_round_failed hfresh hstep hexecute]
              exact hgood.right_failed hfresh hstep e
          | ok output =>
              have hrecorded := hgood.recorded hfresh hstep output
              have hsome : (st.recorded step (.ok output)).executed ≠ [] :=
                List.append_ne_nil_of_right_ne_nil _ (List.cons_ne_nil _ _)
              by_cases hchoice : stepType step = .choice
              · rw [run_round_choice hfresh hstep hexecute hchoice]
                rcases WorkflowStorage.serve .getStepExecutionHistory s' with ⟨reply, s''⟩
                cases reply with
                | error e => exact ⟨hrecorded.nodup_executed, trivial⟩
                | ok history =>
                    exact progresses_of_moves hrecorded hsome rfl
                      (definition.afterChoice_moves _ step history)
              · rw [run_round_step hfresh hstep hexecute hchoice]
                exact progresses_of_moves hrecorded hsome rfl (definition.afterStep_moves _ step)

/-- The loop ends within as many rounds as there are steps, and one more. -/
theorem loop_ends (bodies : StepBodies N) {start : LoopState N} (hstart : start.Good definition)
    (s : WorkflowStorage N) {fuel : Nat} (hfuel : definition.steps.length < fuel) :
    ∃ exit s', Interaction.run WorkflowStorage.serve
        (Interaction.loop (definition.round bodies) fuel start) s = (some exit, s') ∧
      exit.Right := by
  refine Interaction.run_loop (I := fun (st : LoopState N) _ => st.Good definition)
    (Q := fun (exit : Exit N) _ => exit.Right)
    (fun st : LoopState N => definition.steps.length - st.visited.length) ?_ hstart (by omega)
  intro st s hgood
  have hround := round_progresses bodies s hgood
  revert hround
  rcases Interaction.run WorkflowStorage.serve (definition.round bodies st) s with ⟨next, s'⟩
  cases next with
  | inl st' => exact id
  | inr exit => exact id

end WorkflowDefinition

theorem LoopState.good_start (definition : WorkflowDefinition N) (initialInput : Json N)
    (id : String) :
    LoopState.Good definition { currentInput := initialInput, currentStepId := id } where
  trace := rfl
  once := List.nodup_nil
  known := List.nil_subset _
  succeeded := fun _ he => by cases he
  last := fun _ he => by cases he

section Ends

variable [BEq N] [LT N] [DecidableLT N]

/-- The executor returns, after each step id at most once; after `Ok` the status
says whether every step succeeded, and the output is that of the last one. -/
theorem executeWorkflowLoop_ends (bodies : StepBodies N) (definition : WorkflowDefinition N)
    (initialInput : Json N) (s : WorkflowStorage N) (hsteps : definition.steps ≠ []) {fuel : Nat}
    (hfuel : definition.steps.length < fuel) :
    ∃ outcome s', Interaction.run WorkflowStorage.serve
        (executeWorkflowLoop fuel bodies definition initialInput) s = (some outcome, s') ∧
      (outcome.executed.map (·.step.id)).Nodup ∧
      (outcome.result = .ok () →
        (s'.status = .completed ↔ ∀ e ∈ outcome.executed, ∃ output, e.result = .ok output) ∧
        (s'.status = .failed ↔ ∃ e ∈ outcome.executed, ∃ error, e.result = .error error) ∧
        (s'.status = .completed → ∃ last output, outcome.executed.getLast? = some last ∧
          last.result = .ok output ∧ s'.output = some output)) := by
  obtain ⟨first, rest, hcons⟩ := List.exists_cons_of_ne_nil hsteps
  obtain ⟨exit, s₁, hloop, hnodup, htells⟩ := WorkflowDefinition.loop_ends bodies
    (LoopState.good_start definition initialInput first.id) s hfuel
  rcases hlast : Interaction.run WorkflowStorage.serve
      (WorkflowDefinition.conclude exit).run s₁ with ⟨result, s'⟩
  refine ⟨⟨result, exit.state.executed⟩, s', ?_, hnodup, ?_⟩
  · rw [executeWorkflowLoop, hcons]
    simp only [Interaction.run_bind, hloop, hlast]
    rfl
  · rintro rfl
    have hconclude := WorkflowDefinition.conclude_ok hlast
    cases exit with
    | ended st =>
        obtain ⟨hall, last, hget, hresult⟩ := htells
        obtain ⟨hstatus, houtput⟩ := hconclude
        refine ⟨⟨fun _ => hall, fun _ => hstatus⟩, ⟨?_, ?_⟩, fun _ =>
          ⟨last, st.currentInput, hget, hresult, houtput⟩⟩
        · intro hfailed
          rw [hstatus] at hfailed
          cases hfailed
        · rintro ⟨e, he, error, herror⟩
          obtain ⟨output, hok⟩ := hall e he
          rw [hok] at herror
          cases herror
    | failed st =>
        obtain ⟨e, he, error, herror⟩ := htells
        refine ⟨⟨?_, ?_⟩, ⟨fun _ => ⟨e, he, error, herror⟩, fun _ => hconclude⟩, ?_⟩
        · intro hcompleted
          rw [hconclude] at hcompleted
          cases hcompleted
        · intro hall
          obtain ⟨output, hok⟩ := hall e he
          rw [hok] at herror
          cases herror
        · intro hcompleted
          rw [hconclude] at hcompleted
          cases hcompleted
    | aborted st e => exact hconclude.elim

end Ends

def StepBodies.echo : StepBodies Nat where
  simulateStepExecution := fun _ input _ => .ok input
  executeParallelStep := fun _ input => return input
  executeMapStep := fun _ input => return input
  executeWaitStep := fun _ input => return input
  executeSignalStep := fun _ input => return input

/-- A task and a Choice step that leads back to it. -/
def WorkflowDefinition.cycle : WorkflowDefinition Nat where
  steps := [{ id := "work", type := 1, dependsOn := ["check"] },
    { id := "check", type := 5, config := .object [("default", .string "work")] }]

theorem executeWorkflowLoop_ends_cycle :
    ∃ outcome s', Interaction.run WorkflowStorage.serve
        (executeWorkflowLoop 3 .echo .cycle .null) { status := .running } = (some outcome, s') ∧
      outcome.executed.map (·.step.id) = ["work", "check"] ∧
      (outcome.executed.map (·.step.id)).Nodup ∧ outcome.result = .ok () ∧
      s'.status = .completed ∧ s'.output = some .null := by
  obtain ⟨outcome, s', hrun, hnodup, hends⟩ := executeWorkflowLoop_ends .echo .cycle .null
    { status := .running } (List.cons_ne_nil _ _)
    (show WorkflowDefinition.cycle.steps.length < 3 by decide)
  have houtcome : (Interaction.run WorkflowStorage.serve
      (executeWorkflowLoop 3 .echo .cycle .null) { status := .running }).1.map
        (fun o => (o.executed.map fun e => (e.step.id, e.result), o.result)) =
      some ([("work", .ok .null), ("check", .ok .null)], .ok ()) := rfl
  rw [hrun, Option.map_some, Option.some.injEq, Prod.mk.injEq] at houtcome
  obtain ⟨hexecuted, hresult⟩ := houtcome
  have hids := congrArg (List.map Prod.fst) hexecuted
  rw [List.map_map] at hids
  have hnull : ∀ e ∈ outcome.executed, e.result = .ok .null := by
    intro e he
    have hpair := hexecuted ▸ List.mem_map_of_mem he
    rcases List.mem_pair.mp hpair with h | h <;> exact (Prod.mk.inj h).2
  obtain ⟨hcompleted, -, houtput⟩ := hends hresult
  have hstatus := hcompleted.mpr fun e he => ⟨.null, hnull e he⟩
  obtain ⟨last, output, hlast, hok, hstored⟩ := houtput hstatus
  cases hok.symm.trans (hnull last (List.mem_of_getLast? hlast))
  exact ⟨outcome, s', hrun, hids, hnodup, hresult, hstatus, hstored⟩

end PlexSpaces.Workflow
