import PlexSpaces.Lib.Interference
import PlexSpaces.Workflow.Termination
/-!
# The executor and its tasks

The bodies of all steps, with the tasks that Parallel and Map steps spawn.  The
executor is the main program of a `Machine` over a `Site`: the rows of the
execution, its signals, a clock and the spawned tasks.  Between any two of its
statements the others move: tasks go on, time passes, signals come in and the
status is updated from outside.  The storage answers every statement.
-/

namespace PlexSpaces.Workflow

open PlexSpaces.Lib

variable {N : Type}

def WorkflowError.display : WorkflowError → String
  | .storage message => s!"Storage error: {message}"
  | .serialization message => s!"Serialization error: {message}"
  | .notFound message => s!"Not found: {message}"
  | .invalidDefinition message => s!"Invalid definition: {message}"
  | .execution message => s!"Execution error: {message}"
  | .concurrentUpdate message => s!"Concurrent update: {message}"

/-- What the executor asks for: a statement on the rows of the execution, one on its
signals, a new task, the result of a task, the time in milliseconds. -/
inductive Call (N : Type) where
  | statement (request : Request N)
  | selectSignal (signalName : String)
  | deleteSignal (signalName : String)
  | spawn (step : Step N) (input : Json N)
  | join (task : Nat)
  | now

@[reducible] def Call.Answer : Call N → Type
  | statement request => Reply request
  | selectSignal _ => Option (Json N)
  | deleteSignal _ => Unit
  | spawn _ _ | now => Nat
  | join _ => Except WorkflowError (Json N)

/-- A body fails, or does not return: it panics, or the fuel for its polls is used up. -/
inductive Halt where
  | failed (e : WorkflowError)
  | stuck

abbrev Running (N : Type) := ExceptT Halt (Interaction (Call.Answer (N := N)))

def overCalls {α : Type} : Interaction (Reply (N := N)) α → Interaction (Call.Answer (N := N)) α
  | .done a => .done a
  | .ask request next => .ask (.statement request) fun reply => overCalls (next reply)

/-- A computation over the tables, as the executor makes it. -/
def storing {α : Type} (p : Storing N α) : Running N α :=
  ExceptT.mk do
    match ← overCalls p.run with
    | .ok a => return .ok a
    | .error e => return .error (.failed e)

def asking (call : Call N) : Running N call.Answer :=
  ExceptT.lift (Interaction.send call)

/-- What the executor is built on: the simulated work of a task, the number as a `u64`,
whether a duration has that many seconds, whether a text is a timestamp, and how often a
signal is polled at most. -/
structure Executor (N : Type) where
  simulateStepExecution : Step N → Json N → Nat → Except String (Json N)
  asU64 : N → Nat
  isDuration : N → Bool
  isTimestamp : String → Bool
  polls : Nat

/-! ## Bodies -/

namespace Executor

variable (ex : Executor N)

def jsonAsU64 (v : Json N) : Option Nat := v.asNumber.map ex.asU64

def executeTaskStep (step : Step N) (input : Json N) : Storing N (Json N) :=
  let maxAttempts := (step.retry.map (·.maxAttempts)).getD 1
  attemptTask (ex.simulateStepExecution step input) step input maxAttempts maxAttempts 1 none

def outputs (results : List (Except WorkflowError (Json N))) : List (Json N) :=
  results.filterMap (·.toOption)

def firstError : List (Except WorkflowError (Json N)) → Option String
  | [] => none
  | .error e :: _ => some e.display
  | .ok _ :: results => firstError results

/-- The last statement of a Parallel or Map step. -/
def completeParent (stepExecId : Nat) : Except String (Json N) → Running N (Json N)
  | .ok output => do
      storing (completeStepExecution stepExecId .completed (some output) none)
      return output
  | .error error => do
      storing (completeStepExecution stepExecId .failed none (some error))
      throw (.failed (.execution error))

def joinAll : List Nat → Running N (List (Except WorkflowError (Json N)))
  | [] => return []
  | task :: tasks => do
      let result ← asking (.join task)
      let results ← joinAll tasks
      return result :: results

/-! ### Parallel steps -/

def branchStep (id : String) (branchConfig : Json N) : Step N :=
  { id, type := 1, config := branchConfig }

/-- A branch without an id leaves those before it running. -/
def spawnBranches (input : Json N) : List (Json N) → Running N (List Nat)
  | [] => return []
  | branchConfig :: branches => do
      let some branchId := (branchConfig.get "id").bind Json.asStr
        | throw (.failed (.invalidDefinition "Branch must have 'id' field"))
      let task ← asking (.spawn (branchStep branchId branchConfig) input)
      let tasks ← spawnBranches input branches
      return task :: tasks

def executeParallelStep (step : Step N) (input : Json N) : Running N (Json N) := do
  let parentStepExecId ← storing (createStepExecution step.id input)
  let some branches := (step.config.get "branches").bind Json.asArray
    | throw (.failed (.invalidDefinition "Parallel step must have 'branches' array in config"))
  if branches.isEmpty then
    completeParent parentStepExecId (.ok (.object [("branches", .array [])]))
  else
    let tasks ← spawnBranches input branches
    let results ← joinAll tasks
    completeParent parentStepExecId <|
      match firstError results with
      | some error => .error error
      | none => .ok (.object [("branches", .array (outputs results))])

/-! ### Map steps -/

def itemConfig (iterator item : Json N) : Json N :=
  match item.get "should_fail", iterator with
  | some (.bool true), .object fields =>
      .object (Json.insertField "error" (.string "Item failed")
        (Json.insertField "action" (.string "fail") fields))
  | _, _ => iterator

def itemStep (stepId : String) (iterator : Json N) (index : Nat) (item : Json N) : Step N :=
  { id := s!"{stepId}-item-{index}", type := 1, config := itemConfig iterator item }

def spawnItems (stepId : String) (iterator : Json N) : List (Json N × Nat) → Running N (List Nat)
  | [] => return []
  | (item, index) :: items => do
      let task ← asking (.spawn (itemStep stepId iterator index item) item)
      let tasks ← spawnItems stepId iterator items
      return task :: tasks

def runBatches (stepId : String) (iterator : Json N) :
    List (List (Json N × Nat)) → List (Json N) → Running N (Except String (Json N))
  | [], results => return .ok (.array results)
  | batch :: batches, results => do
      let tasks ← spawnItems stepId iterator batch
      let joined ← joinAll tasks
      match firstError joined with
      | some error => return .error error
      | none => runBatches stepId iterator batches (results ++ outputs joined)

def executeMapStep (step : Step N) (input : Json N) : Running N (Json N) := do
  let parentStepExecId ← storing (createStepExecution step.id input)
  let some items := (step.config.get "items").bind Json.asArray
    | throw (.failed (.invalidDefinition "Map step must have 'items' array in config"))
  if items.isEmpty then
    completeParent parentStepExecId (.ok (.array []))
  else
    let some iterator := step.config.get "iterator"
      | throw (.failed (.invalidDefinition "Map step must have 'iterator' configuration"))
    let maxConcurrency := ((step.config.get "max_concurrency").bind ex.jsonAsU64).getD items.length
    -- no step of zero is allowed in `step_by`
    if maxConcurrency = 0 then throw .stuck
    else
      let result ← runBatches step.id iterator (items.zipIdx.toChunks maxConcurrency) []
      completeParent parentStepExecId result

/-! ### Wait and Signal steps -/

/-- Whether there is a time to wait for; else what is recorded and what is returned, or
`none` when the duration cannot be built. -/
def waitDuration (step : Step N) : Except (Option (String × String)) Unit :=
  match (step.config.get "duration_ms").bind ex.jsonAsU64 with
  | some _ => .ok ()
  | none =>
      match (step.config.get "duration_secs").bind Json.asNumber with
      | some seconds => if ex.isDuration seconds then .ok () else .error none
      | none =>
          match (step.config.get "until").bind Json.asStr with
          | some text =>
              if ex.isTimestamp text then .ok ()
              else
                .error (some (s!"Invalid timestamp format: {text}",
                  s!"Invalid timestamp format in Wait step: {text}"))
          | none =>
              .error (some
                ("Wait step requires 'duration_ms', 'duration_secs', or 'until' config",
                  "Wait step requires 'duration_ms', 'duration_secs', or 'until' config"))

def executeWaitStep (step : Step N) (input : Json N) : Running N (Json N) := do
  let stepExecId ← storing (createStepExecution step.id input)
  match ex.waitDuration step with
  | .ok () =>
      storing (completeStepExecution stepExecId .completed (some input) none)
      return input
  | .error none => throw .stuck
  | .error (some (recorded, returned)) =>
      storing (completeStepExecution stepExecId .failed none (some recorded))
      throw (.failed (.invalidDefinition returned))

/-- The fields of the overlay go over those of the base. -/
def mergeJsonObjects : Json N → Json N → Json N
  | .object base, .object overlay =>
      .object (overlay.foldl (fun fields field => Json.insertField field.1 field.2 fields) base)
  | _, overlay => overlay

def pollSignal (stepExecId : Nat) (signalName : String) (timeoutMs : Option Nat) (startTime : Nat)
    (input : Json N) : Nat → Running N (Json N)
  | 0 => throw .stuck
  | polls + 1 => do
      match ← asking (.selectSignal signalName) with
      | some signalPayload =>
          asking (.deleteSignal signalName)
          let mergedOutput := mergeJsonObjects input signalPayload
          storing (completeStepExecution stepExecId .completed (some mergedOutput) none)
          return mergedOutput
      | none =>
          match timeoutMs with
          | some timeoutMs =>
              let time ← asking .now
              if timeoutMs ≤ time - startTime then
                let errorMsg :=
                  s!"Signal '{signalName}' not received within {timeoutMs}ms timeout"
                storing (completeStepExecution stepExecId .failed none (some errorMsg))
                throw (.failed (.execution errorMsg))
              else pollSignal stepExecId signalName (some timeoutMs) startTime input polls
          | none => pollSignal stepExecId signalName none startTime input polls

def executeSignalStep (step : Step N) (input : Json N) : Running N (Json N) := do
  let stepExecId ← storing (createStepExecution step.id input)
  let some signalName := (step.config.get "signal_name").bind Json.asStr
    | throw (.failed (.invalidDefinition "Signal step requires 'signal_name' in config"))
  let timeoutMs := (step.config.get "timeout_ms").bind ex.jsonAsU64
  let startTime ← asking .now
  pollSignal stepExecId signalName timeoutMs startTime input ex.polls

/-! ## The loop -/

variable [BEq N] [LT N] [DecidableLT N]

def executeStep (step : Step N) (input : Json N) : Running N (Json N) :=
  match stepType step with
  | .parallel => executeParallelStep step input
  | .map => ex.executeMapStep step input
  | .choice => storing (executeChoiceStep step input)
  | .wait => ex.executeWaitStep step input
  | .signal => ex.executeSignalStep step input
  | .unspecified | .task => storing (ex.executeTaskStep step input)

/-- One round of the loop; `none` when the step does not return. -/
def round (definition : WorkflowDefinition N) (st : LoopState N) :
    Interaction (Call.Answer (N := N)) (LoopState N ⊕ Option (Exit N)) :=
  if st.currentStepId ∈ st.visited then
    return .inr (some (.ended st))
  else
    match definition.stepMap st.currentStepId with
    | none =>
        return .inr (some (.aborted { st with visited := st.currentStepId :: st.visited }
          (.invalidDefinition
            s!"Step '{st.currentStepId}' not found in workflow definition")))
    | some step => do
        match ← (ex.executeStep step st.currentInput).run with
        | .error .stuck => return .inr none
        | .error (.failed e) => return .inr (some (.failed (st.recorded step (.error e))))
        | .ok stepOutput =>
            let st := { st.recorded step (.ok stepOutput) with currentInput := stepOutput }
            if stepType step = .choice then
              match ← overCalls getStepExecutionHistory.run with
              | .error e => return .inr (some (.aborted st e))
              | .ok history => return (definition.afterChoice st step history).map id some
            else
              return (definition.afterStep st step).map id some

/-- What `start_execution` and `execute_from_state` do with the definition and the input;
`none` when they do not return. -/
def execute (fuel : Nat) (definition : WorkflowDefinition N) (input : Json N) :
    Interaction (Call.Answer (N := N)) (Option (Outcome N)) :=
  match definition.steps with
  | [] => do
      let result ← overCalls (updateExecutionStatus .completed).run
      return some ⟨result, []⟩
  | first :: _ => do
      let start : LoopState N := { currentInput := input, currentStepId := first.id }
      match ← Interaction.loop (ex.round definition) fuel start with
      | none | some none => return none
      | some (some exit) =>
          let result ← overCalls (WorkflowDefinition.conclude exit).run
          return some ⟨result, exit.state.executed⟩

end Executor

/-! ## What the bodies ask for -/

def Request.ofStep : Request N → Bool
  | createStepExecutionWithAttempt _ _ _ | completeStepExecution _ _ _ _ => true
  | getStepExecutionHistory | updateExecutionStatus _ | updateExecutionOutput _ => false

def Call.ofStep : Call N → Bool
  | statement request => request.ofStep
  | selectSignal _ | deleteSignal _ | spawn _ _ | join _ | now => true

section Asks

variable {α : Type} {ex : Executor N} {step : Step N} {input : Json N}

theorem asks_overCalls {p : Interaction (Reply (N := N)) α} {allowed : Call N → Prop}
    (hp : p.Asks fun request => allowed (.statement request)) : (overCalls p).Asks allowed := by
  induction p with
  | done a => trivial
  | ask request next ih => exact ⟨hp.1, fun reply => ih reply (hp.2 reply)⟩

theorem asks_storing {p : Storing N α} (hp : p.run.Asks fun request => request.ofStep = true) :
    (storing p).run.Asks fun call => call.ofStep = true := by
  refine (asks_overCalls hp :
    Interaction.Asks (fun call => call.ofStep = true) _).bind fun result => ?_
  cases result <;> trivial

theorem asks_attemptTask {simulate : Nat → Except String (Json N)} {maxAttempts attempt : Nat}
    {lastError : Option String} (remaining : Nat) :
    (attemptTask simulate step input maxAttempts remaining attempt lastError).run.Asks
      fun request => request.ofStep = true := by
  induction remaining generalizing attempt lastError with
  | zero => trivial
  | succ remaining ih =>
      refine .bindExcept (Interaction.asks_send rfl) fun stepExecId => ?_
      cases simulate attempt with
      | ok output => exact .bindExcept (Interaction.asks_send rfl) fun _ => trivial
      | error errorMsg => exact .bindExcept (Interaction.asks_send rfl) fun _ => ih

theorem asks_completeParent (stepExecId : Nat) (result : Except String (Json N)) :
    (Executor.completeParent stepExecId result).run.Asks fun call => call.ofStep = true := by
  cases result with
  | ok output => exact .bindExcept (asks_storing (Interaction.asks_send rfl)) fun _ => trivial
  | error error => exact .bindExcept (asks_storing (Interaction.asks_send rfl)) fun _ => trivial

theorem asks_asking {call : Call N} (h : call.ofStep = true) :
    (asking call).run.Asks fun call => call.ofStep = true :=
  ⟨h, fun _ => trivial⟩

theorem asks_joinAll (tasks : List Nat) :
    (Executor.joinAll (N := N) tasks).run.Asks fun call => call.ofStep = true := by
  induction tasks with
  | nil => trivial
  | cons task tasks ih =>
      exact .bindExcept (asks_asking rfl) fun _ => .bindExcept ih fun _ => trivial

theorem asks_spawnBranches (branches : List (Json N)) :
    (Executor.spawnBranches input branches).run.Asks fun call => call.ofStep = true := by
  induction branches with
  | nil => trivial
  | cons branch branches ih =>
      rw [Executor.spawnBranches]
      cases (branch.get "id").bind Json.asStr with
      | none => trivial
      | some id => exact .bindExcept (asks_asking rfl) fun _ => .bindExcept ih fun _ => trivial

theorem asks_spawnItems {stepId : String} {iterator : Json N} (items : List (Json N × Nat)) :
    (Executor.spawnItems stepId iterator items).run.Asks fun call => call.ofStep = true := by
  induction items with
  | nil => trivial
  | cons item items ih =>
      exact .bindExcept (asks_asking rfl) fun _ => .bindExcept ih fun _ => trivial

theorem asks_runBatches {stepId : String} {iterator : Json N}
    (batches : List (List (Json N × Nat))) (results : List (Json N)) :
    (Executor.runBatches stepId iterator batches results).run.Asks
      fun call => call.ofStep = true := by
  induction batches generalizing results with
  | nil => trivial
  | cons batch batches ih =>
      refine .bindExcept (asks_spawnItems batch) fun tasks => ?_
      refine .bindExcept (asks_joinAll tasks) fun joined => ?_
      cases Executor.firstError joined with
      | none => exact ih _
      | some error => trivial

theorem asks_pollSignal {stepExecId : Nat} {signalName : String} {timeoutMs : Option Nat}
    {startTime : Nat} (polls : Nat) :
    (Executor.pollSignal stepExecId signalName timeoutMs startTime input polls).run.Asks
      fun call => call.ofStep = true := by
  induction polls with
  | zero => trivial
  | succ polls ih =>
      refine .bindExcept (asks_asking rfl) fun payload => ?_
      cases payload with
      | some signalPayload =>
          refine .bindExcept (asks_asking rfl) fun _ => ?_
          exact .bindExcept (asks_storing (Interaction.asks_send rfl)) fun _ => trivial
      | none =>
          cases timeoutMs with
          | none => exact ih
          | some timeoutMs =>
              refine .bindExcept (asks_asking rfl) fun time => ?_
              dsimp only
              split
              · exact .bindExcept (asks_storing (Interaction.asks_send rfl)) fun _ => trivial
              · exact ih

theorem asks_executeParallelStep :
    (Executor.executeParallelStep step input).run.Asks fun call => call.ofStep = true := by
  refine .bindExcept (asks_storing (Interaction.asks_send rfl)) fun parent => ?_
  cases (step.config.get "branches").bind Json.asArray with
  | none => trivial
  | some branches =>
      dsimp only
      split
      · exact asks_completeParent parent _
      · refine .bindExcept (asks_spawnBranches branches) fun tasks => ?_
        exact .bindExcept (asks_joinAll tasks) fun results => asks_completeParent parent _

theorem asks_executeMapStep :
    (ex.executeMapStep step input).run.Asks fun call => call.ofStep = true := by
  refine .bindExcept (asks_storing (Interaction.asks_send rfl)) fun parent => ?_
  cases (step.config.get "items").bind Json.asArray with
  | none => trivial
  | some items =>
      dsimp only
      split
      · exact asks_completeParent parent _
      · cases step.config.get "iterator" with
        | none => trivial
        | some iterator =>
            dsimp only
            split
            · trivial
            · exact .bindExcept (asks_runBatches _ _) fun result => asks_completeParent parent _

theorem asks_executeWaitStep :
    (ex.executeWaitStep step input).run.Asks fun call => call.ofStep = true := by
  refine .bindExcept (asks_storing (Interaction.asks_send rfl)) fun stepExecId => ?_
  cases ex.waitDuration step with
  | ok => exact .bindExcept (asks_storing (Interaction.asks_send rfl)) fun _ => trivial
  | error refused =>
      cases refused with
      | none => trivial
      | some messages =>
          exact .bindExcept (asks_storing (Interaction.asks_send rfl)) fun _ => trivial

theorem asks_executeSignalStep :
    (ex.executeSignalStep step input).run.Asks fun call => call.ofStep = true := by
  refine .bindExcept (asks_storing (Interaction.asks_send rfl)) fun stepExecId => ?_
  cases (step.config.get "signal_name").bind Json.asStr with
  | none => trivial
  | some signalName => exact .bindExcept (asks_asking rfl) fun time => asks_pollSignal _

section Choice

variable [BEq N] [LT N] [DecidableLT N]

theorem asks_executeChoiceStep :
    (executeChoiceStep step input).run.Asks fun request => request.ofStep = true := by
  refine .bindExcept (Interaction.asks_send rfl) fun stepExecId => ?_
  cases decideChoice step input with
  | error e => trivial
  | ok decision =>
      refine .bindExcept trivial fun decision => ?_
      exact .bindExcept (Interaction.asks_send rfl) fun _ => trivial

theorem asks_executeStep :
    (ex.executeStep step input).run.Asks fun call => call.ofStep = true := by
  rw [Executor.executeStep]
  cases stepType step with
  | unspecified | task => exact asks_storing (asks_attemptTask _)
  | parallel => exact asks_executeParallelStep
  | map => exact asks_executeMapStep
  | wait => exact asks_executeWaitStep
  | choice => exact asks_storing asks_executeChoiceStep
  | signal => exact asks_executeSignalStep

end Choice

end Asks

/-! ## The world of the executor -/

abbrev Task (N : Type) := Interaction (Reply (N := N)) (Except WorkflowError (Json N))

/-- The rows that this run of the executor wrote, those of earlier runs, and what else its
statements work on. -/
structure Site (N : Type) where
  tables : WorkflowStorage N
  earlier : List (StepExecution N) := []
  version : Nat := 1
  signals : List (String × Json N) := []
  tasks : List (Task N) := []
  clock : Nat := 0

/-- What happens between the statements of the executor: a task goes on, time passes, a
signal comes in, the status is updated. -/
inductive Outside (N : Type) where
  | task (task : Nat)
  | wait (ms : Nat)
  | sendSignal (signalName : String) (payload : Json N)
  | updateExecutionStatus (status : ExecutionStatus) (expectedVersion : Option Nat)

def Outside.cancelExecution : Outside N := .updateExecutionStatus .cancelled none

def Request.updatesExecution : Request N → Bool
  | updateExecutionStatus _ | updateExecutionOutput _ => true
  | createStepExecutionWithAttempt _ _ _ | completeStepExecution _ _ _ _
  | getStepExecutionHistory => false

namespace Site

def history (s : Site N) : List (StepExecution N) := s.earlier ++ s.tables.stepExecutions

def statement (request : Request N) (s : Site N) : Reply request × Site N :=
  let (answer, tables) := WorkflowStorage.perform request s.tables
  let version := if request.updatesExecution then s.version + 1 else s.version
  let reply : Reply request :=
    match request, answer with
    | .getStepExecutionHistory, rows => .ok (s.earlier ++ rows)
    | .createStepExecutionWithAttempt _ _ _, stepExecId => .ok stepExecId
    | .completeStepExecution _ _ _ _, _ | .updateExecutionStatus _, _
    | .updateExecutionOutput _, _ => .ok ()
  (reply, { s with tables, version })

variable (ex : Executor N)

/-- A task that is not done blocks who joins it. -/
def serve : (call : Call N) → Site N → Option (call.Answer × Site N)
  | .statement request, s => some (s.statement request)
  | .selectSignal signalName, s => some ((s.signals.find? (·.1 == signalName)).map (·.2), s)
  | .deleteSignal signalName, s =>
      some ((), { s with signals := s.signals.eraseP (·.1 == signalName) })
  | .spawn step input, s =>
      some (s.tasks.length, { s with tasks := s.tasks ++ [(ex.executeTaskStep step input).run] })
  | .join task, s =>
      match s.tasks[task]? with
      | some (.done result) => some (result, s)
      | _ => none
  | .now, s => some (s.clock, s)

def other (s : Site N) : Outside N → Site N
  | .task task =>
      match s.tasks[task]? with
      | some (.ask request next) =>
          let (reply, s) := s.statement request
          { s with tasks := s.tasks.set task (next reply) }
      | _ => s
  | .wait ms => { s with clock := s.clock + ms }
  | .sendSignal signalName payload => { s with signals := s.signals ++ [(signalName, payload)] }
  | .updateExecutionStatus status expectedVersion =>
      if ∀ version ∈ expectedVersion, version = s.version then
        { s with tables := { s.tables with status }, version := s.version + 1 }
      else s

end Site

def Executor.world (ex : Executor N) : World (Call.Answer (N := N)) (Site N) (Outside N) where
  serve := Site.serve ex
  other := Site.other

def Site.started : Site N := { tables := { status := .running }, version := 2 }

/-- Another run of the executor begins; the tasks of the one before are gone with it. -/
def Site.newRun (s : Site N) : Site N :=
  { s with earlier := s.history, tables := { s.tables with stepExecutions := [] }, tasks := [] }

end PlexSpaces.Workflow
