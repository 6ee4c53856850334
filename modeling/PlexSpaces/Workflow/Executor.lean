import PlexSpaces.Workflow.Storage
/-!
# The workflow executor

`executeWorkflowLoop` runs the steps of a definition one after another.  It
carries the id of the current step, an index into the step list for sequential
moves, the ids seen so far and whether a Choice selected the current step.  A
Choice step evaluates its choices and leaves its decision in its record, where
the loop reads it back.  The bodies of the steps that run branches, wait or
simulate a task are a parameter.
-/

namespace PlexSpaces.Workflow

open PlexSpaces.Lib

inductive StepType where
  | unspecified
  | task
  | parallel
  | map
  | wait
  | choice
  | signal
deriving DecidableEq, Repr

structure RetryPolicy where
  maxAttempts : Nat

/-- A step with its decoded configuration; `type` is the number on the wire. -/
structure Step (N : Type) where
  id : String
  type : Int
  config : Json N := .object []
  dependsOn : List String := []
  retry : Option RetryPolicy := none

structure WorkflowDefinition (N : Type) where
  steps : List (Step N)

variable {N : Type}

def stepType (step : Step N) : StepType :=
  match step.type with
  | 0 => .unspecified
  | 2 => .parallel
  | 3 => .map
  | 4 => .wait
  | 5 => .choice
  | 6 => .signal
  | _ => .task

def stepNext (step : Step N) : Option String := step.dependsOn.head?

/-! ## Choice steps -/

section Choice

variable [BEq N] [LT N] [DecidableLT N]

/-- A field of the value; a leading `$.` is dropped. -/
def extractVariable (input : Json N) (variableName : String) : Json N :=
  let name := match variableName.toList with
    | '$' :: '.' :: name => String.ofList name
    | _ => variableName
  (input.get name).getD .null

def evaluateCondition (actual : Json N) (operator : String) (expected : Json N) :
    Except WorkflowError Bool :=
  match operator with
  | "equals" => .ok (actual == expected)
  | "greater_than" =>
      match actual.asNumber, expected.asNumber with
      | some a, some e => .ok (decide (e < a))
      | _, _ => .ok false
  | "less_than" =>
      match actual.asNumber, expected.asNumber with
      | some a, some e => .ok (decide (a < e))
      | _, _ => .ok false
  | _ => .error (.invalidDefinition s!"Unknown operator: {operator}")

/-- The first choice that matches and names a next step, with its condition. -/
def takeChoice (input : Json N) : List (Json N) → Except WorkflowError (Option (String × Json N))
  | [] => .ok none
  | choice :: choices => do
      let some variableName := (choice.get "variable").bind Json.asStr
        | throw (.invalidDefinition "Choice must have 'variable' field")
      let some operator := (choice.get "operator").bind Json.asStr
        | throw (.invalidDefinition "Choice must have 'operator' field")
      let some expectedValue := choice.get "value"
        | throw (.invalidDefinition "Choice must have 'value' field")
      if ← evaluateCondition (extractVariable input variableName) operator expectedValue then
        match (choice.get "next").bind Json.asStr with
        | some nextStep =>
            let condition := Json.object [("operator", .string operator),
              ("value", expectedValue), ("variable", .string variableName)]
            return some (nextStep, condition)
        | none => takeChoice input choices
      else
        takeChoice input choices

/-- The step that a Choice step selects and the condition that selected it. -/
def decideChoice (step : Step N) (input : Json N) :
    Except WorkflowError (Option String × Json N) := do
  let choices := ((step.config.get "choices").bind Json.asArray).getD []
  match ← takeChoice input choices with
  | some (nextStep, condition) => return (some nextStep, condition)
  | none =>
      match (step.config.get "default").bind Json.asStr with
      | some defaultNext => return (some defaultNext, .string "default")
      | none => return (none, .string "no_match_no_default")

def choiceRecord (taken : Option String) (condition : Json N) : Json N :=
  .object [("choice_taken", (taken.map .string).getD .null), ("condition", condition)]

def executeChoiceStep (step : Step N) (input : Json N) : Storing N (Json N) := do
  let stepExecId ← createStepExecution step.id input
  -- an invalid choice leaves the record as it was created
  let (taken, condition) ← decideChoice step input
  completeStepExecution stepExecId .completed (some (choiceRecord taken condition)) none
  return input

end Choice

/-! ## The other steps -/

/-- The step bodies that are not modelled. -/
structure StepBodies (N : Type) where
  simulateStepExecution : Step N → Json N → Nat → Except String (Json N)
  executeParallelStep : Step N → Json N → Storing N (Json N)
  executeMapStep : Step N → Json N → Storing N (Json N)
  executeWaitStep : Step N → Json N → Storing N (Json N)
  executeSignalStep : Step N → Json N → Storing N (Json N)

def attemptTask (simulate : Nat → Except String (Json N)) (step : Step N) (input : Json N)
    (maxAttempts : Nat) : Nat → Nat → Option String → Storing N (Json N)
  | 0, _, lastError =>
      let reason := lastError.getD "Unknown error"
      throw (.execution s!"Step {step.id} failed after {maxAttempts} attempts: {reason}")
  | remaining + 1, attempt, _ => do
      let stepExecId ← createStepExecutionWithAttempt step.id input attempt
      match simulate attempt with
      | .ok output =>
          completeStepExecution stepExecId .completed (some output) none
          return output
      | .error errorMsg =>
          completeStepExecution stepExecId .failed none (some errorMsg)
          attemptTask simulate step input maxAttempts remaining (attempt + 1) (some errorMsg)

def executeTaskStep (bodies : StepBodies N) (step : Step N) (input : Json N) :
    Storing N (Json N) :=
  let maxAttempts := (step.retry.map (·.maxAttempts)).getD 1
  attemptTask (bodies.simulateStepExecution step input) step input maxAttempts maxAttempts 1 none

section Loop

variable [BEq N] [LT N] [DecidableLT N]

def executeStep (bodies : StepBodies N) (step : Step N) (input : Json N) : Storing N (Json N) :=
  match stepType step with
  | .parallel => bodies.executeParallelStep step input
  | .map => bodies.executeMapStep step input
  | .choice => executeChoiceStep step input
  | .wait => bodies.executeWaitStep step input
  | .signal => bodies.executeSignalStep step input
  | .unspecified | .task => executeTaskStep bodies step input

/-! ## The loop -/

/-- A step that was executed, with what it was given and what it gave. -/
structure Executed (N : Type) where
  step : Step N
  input : Json N
  result : Except WorkflowError (Json N)

/-- The variables of the loop; `executed` is the trace of the steps so far. -/
structure LoopState (N : Type) where
  currentInput : Json N
  currentStepIndex : Nat := 0
  visited : List String := []
  choicePathTaken : Bool := false
  currentStepId : String
  executed : List (Executed N) := []

/-- How the loop is left. -/
inductive Exit (N : Type) where
  | ended (st : LoopState N)
  | failed (st : LoopState N)
  | aborted (st : LoopState N) (e : WorkflowError)

namespace WorkflowDefinition

variable (definition : WorkflowDefinition N)

def stepMap (id : String) : Option (Step N) :=
  definition.steps.reverse.find? fun step => step.id == id

/-- Where the loop goes after a Choice step, read from the newest record of the step. -/
def afterChoice (st : LoopState N) (step : Step N) (history : List (StepExecution N)) :
    LoopState N ⊕ Exit N :=
  let record := history.reverse.find? fun row => row.stepId == step.id
  match (record.bind (·.output)).bind (·.get "choice_taken") with
  | some (.string nextStepId) =>
      if (definition.stepMap nextStepId).isNone then .inr (.ended st)
      else
        .inl { st with
          currentStepId := nextStepId
          currentStepIndex := (definition.steps.findIdx? (·.id == nextStepId)).getD
            st.currentStepIndex
          choicePathTaken := true }
  | _ => .inr (.ended st)

/-- Where the loop goes after a step of any other type. -/
def afterStep (st : LoopState N) (step : Step N) : LoopState N ⊕ Exit N :=
  if st.choicePathTaken then
    match stepNext step with
    | some nextId =>
        if (definition.stepMap nextId).isNone then .inr (.ended st)
        else .inl { st with currentStepId := nextId, choicePathTaken := false }
    | none => .inr (.ended st)
  else
    match stepNext step with
    | some nextId =>
        if (definition.stepMap nextId).isNone then .inr (.ended st)
        else .inl { st with currentStepId := nextId }
    | none =>
        let st := { st with currentStepIndex := st.currentStepIndex + 1 }
        match definition.steps[st.currentStepIndex]? with
        | some following => .inl { st with currentStepId := following.id }
        | none => .inr (.ended st)

def round (bodies : StepBodies N) (st : LoopState N) :
    Interaction (Reply (N := N)) (LoopState N ⊕ Exit N) :=
  if st.currentStepId ∈ st.visited then
    return .inr (.ended st)
  else
    let st := { st with visited := st.currentStepId :: st.visited }
    match definition.stepMap st.currentStepId with
    | none =>
        return .inr (.aborted st (.invalidDefinition
          s!"Step '{st.currentStepId}' not found in workflow definition"))
    | some step => do
        let result ← (executeStep bodies step st.currentInput).run
        let st := { st with executed := st.executed ++ [⟨step, st.currentInput, result⟩] }
        match result with
        | .error _ => return .inr (.failed st)
        | .ok stepOutput =>
            let st := { st with currentInput := stepOutput }
            if stepType step = .choice then
              match ← getStepExecutionHistory.run with
              | .error e => return .inr (.aborted st e)
              | .ok history => return definition.afterChoice st step history
            else
              return definition.afterStep st step

/-- The last statements of the executor and its answer. -/
def conclude : Exit N → Storing N Unit
  | .ended st => do
      updateExecutionOutput st.currentInput
      updateExecutionStatus .completed
  | .failed _ => updateExecutionStatus .failed
  | .aborted _ e => throw e

end WorkflowDefinition

def Exit.state : Exit N → LoopState N
  | .ended st | .failed st | .aborted st _ => st

/-- The answer of the executor, with the steps that it executed. -/
structure Outcome (N : Type) where
  result : Except WorkflowError Unit
  executed : List (Executed N)

/-- `none` when the fuel runs out, and for the definition without steps, whose
first step cannot be taken. -/
def executeWorkflowLoop (fuel : Nat) (bodies : StepBodies N) (definition : WorkflowDefinition N)
    (initialInput : Json N) : Interaction (Reply (N := N)) (Option (Outcome N)) :=
  match definition.steps with
  | [] => return none
  | first :: _ => do
      let start : LoopState N := { currentInput := initialInput, currentStepId := first.id }
      match ← Interaction.loop (definition.round bodies) fuel start with
      | none => return none
      | some exit =>
          let result ← (WorkflowDefinition.conclude exit).run
          return some ⟨result, exit.state.executed⟩

end Loop

end PlexSpaces.Workflow
