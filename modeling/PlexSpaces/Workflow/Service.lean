import PlexSpaces.Journaling.Namespaces
import PlexSpaces.Workflow.Executor
/-!
# The workflow service

The tables of all tenants and the calls of `WorkflowService` on them, on SQLite.  The rows of
an execution (its status, output and step records) are the `WorkflowStorage` that the executor
runs on.  Some statements have the tenant in their condition, some have it only when it is not
empty, and some take no context.

A definition row has in `creator` the tenant whose call wrote its content, which no statement
reads; a response has the rows that it is made of.
-/

namespace PlexSpaces.Workflow

open PlexSpaces.Lib

structure RequestContext where
  tenantId : String
  nsName : String
  deriving DecidableEq

/-- The conditions that a query has when the tenant and the namespace are not empty. -/
def RequestContext.sees (ctx : RequestContext) (tenantId nsName : String) : Bool :=
  (ctx.tenantId.isEmpty || tenantId == ctx.tenantId) && (ctx.nsName.isEmpty || nsName == ctx.nsName)

/-- `tenant_id = ? AND namespace = ?`. -/
def RequestContext.owns (ctx : RequestContext) (tenantId nsName : String) : Bool :=
  tenantId == ctx.tenantId && nsName == ctx.nsName

/-- A definition with what its row has in columns. -/
structure StoredDefinition (N : Type) where
  id : String
  version : String
  name : String
  body : WorkflowDefinition N

structure DefinitionRow (N : Type) where
  tenantId : String
  nsName : String
  definition : StoredDefinition N
  creator : String

structure ExecutionRow (N : Type) where
  executionId : String
  definitionId : String
  definitionVersion : String
  tenantId : String
  nsName : String
  input : Json N
  tables : WorkflowStorage N

structure SignalRow (N : Type) where
  executionId : String
  signalName : String
  payload : Json N

structure Tables (N : Type) where
  definitions : List (DefinitionRow N) := []
  executions : List (ExecutionRow N) := []
  signals : List (SignalRow N) := []

/-- What a call answers, with the rows that it is made of. -/
inductive Response (N : Type)
  | empty
  | running
  | saved (definition : StoredDefinition N)
  | started (executionId : String)
  | definition (row : DefinitionRow N)
  | definitions (rows : List (DefinitionRow N))
  | execution (row : ExecutionRow N)
  | executions (rows : List (ExecutionRow N))
  | result (row : ExecutionRow N) (queryName : String)
  | steps (rows : List (String × StepExecution N))

inductive Code
  | internal
  | invalidArgument
  | notFound
  | failedPrecondition
  deriving DecidableEq

structure Status where
  code : Code
  message : String
  deriving DecidableEq

def workflowErrorToStatus : WorkflowError → Status
  | .storage message => ⟨.internal, "Storage error: " ++ message⟩
  | .serialization message => ⟨.invalidArgument, "Serialization error: " ++ message⟩
  | .notFound message => ⟨.notFound, message⟩
  | .invalidDefinition message => ⟨.invalidArgument, "Invalid definition: " ++ message⟩
  | .execution message => ⟨.internal, "Execution error: " ++ message⟩
  | .concurrentUpdate message => ⟨.failedPrecondition, "Concurrent update: " ++ message⟩

def invalidArgument (message : String) : Status := ⟨.invalidArgument, message⟩

/-- The calls.  `startExecution` has the ULID that is drawn for the execution, and the rounds
that the executor makes. -/
inductive ServiceRequest (N : Type)
  | createDefinition (definition : Option (StoredDefinition N))
  | getDefinition (id version : String)
  | listDefinitions (namePrefix : String)
  | updateDefinition (definition : Option (StoredDefinition N))
  | deleteDefinition (id version : String)
  | startExecution (definitionId definitionVersion ulid : String) (fuel : Nat)
  | getExecution (executionId : String)
  | listExecutions (status : Int) (definitionId : String)
  | cancelExecution (executionId : String)
  | signalExecution (executionId signalName : String) (payload : Json N)
  | queryExecution (executionId queryName : String)
  | getStepExecutions (executionId : String)

structure ServiceCall (N : Type) where
  ctx : RequestContext
  request : ServiceRequest N

variable {N : Type}

def foreignKeyFailed : WorkflowError := .storage "FOREIGN KEY constraint failed"

namespace DefinitionRow

def hasKey (row : DefinitionRow N) (id version : String) : Bool :=
  row.definition.id == id && row.definition.version == version

end DefinitionRow

namespace Tables

/-- `ON CONFLICT (id, version) DO UPDATE`: the tenant of the row stays. -/
def saveDefinition (s : Tables N) (ctx : RequestContext) (definition : StoredDefinition N) :
    Tables N :=
  if s.definitions.any fun row => row.hasKey definition.id definition.version then
    { s with
      definitions := s.definitions.map fun row =>
        if row.hasKey definition.id definition.version then
          { row with definition := definition, creator := ctx.tenantId }
        else row }
  else
    { s with
      definitions := s.definitions ++ [⟨ctx.tenantId, ctx.nsName, definition, ctx.tenantId⟩] }

def getDefinition (s : Tables N) (ctx : RequestContext) (id version : String) :
    Except WorkflowError (DefinitionRow N) :=
  match s.definitions.find? fun row =>
      row.hasKey id version && ctx.sees row.tenantId row.nsName with
  | some row => .ok row
  | none =>
      .error (.notFound ("Definition " ++ id ++ ":" ++ version ++ " not found: no rows returned" ++
        " by a query that expected to return at least one row"))

/-- `ORDER BY id, version ASC`. -/
def definitionLe (a b : DefinitionRow N) : Bool :=
  decide (a.definition.id < b.definition.id) ||
    (a.definition.id == b.definition.id && decide (a.definition.version ≤ b.definition.version))

def listDefinitions (s : Tables N) (ctx : RequestContext) (namePrefix : String) :
    List (DefinitionRow N) :=
  (s.definitions.filter fun row =>
    (namePrefix.isEmpty ||
      Journaling.sqlite.like (namePrefix ++ "%").toList row.definition.name.toList) &&
      ctx.sees row.tenantId row.nsName).mergeSort definitionLe

def deletes (ctx : RequestContext) (id version : String) (row : DefinitionRow N) : Bool :=
  row.definition.id == id && (version.isEmpty || row.definition.version == version) &&
    ctx.owns row.tenantId row.nsName

/-- A definition that an execution refers to is kept. -/
def deleteDefinition (s : Tables N) (ctx : RequestContext) (id version : String) :
    Except WorkflowError (Tables N) :=
  if s.executions.any fun e =>
      s.definitions.any fun row =>
        deletes ctx id version row && row.hasKey e.definitionId e.definitionVersion then
    .error foreignKeyFailed
  else
    .ok { s with definitions := s.definitions.filter fun row => !deletes ctx id version row }

def createExecution (s : Tables N) (row : ExecutionRow N) : Except WorkflowError (Tables N) :=
  if s.executions.any fun e => e.executionId == row.executionId then
    .error (.storage "UNIQUE constraint failed: workflow_executions.execution_id")
  else if s.definitions.any fun d => d.hasKey row.definitionId row.definitionVersion then
    .ok { s with executions := s.executions ++ [row] }
  else .error foreignKeyFailed

def getExecution (s : Tables N) (ctx : RequestContext) (executionId : String) :
    Except WorkflowError (ExecutionRow N) :=
  match s.executions.find? fun e =>
      e.executionId == executionId && ctx.owns e.tenantId e.nsName with
  | some row => .ok row
  | none =>
      .error (.notFound ("Execution " ++ executionId ++ " not found: no rows returned" ++
        " by a query that expected to return at least one row"))

def listExecutionsByStatus (s : Tables N) (ctx : RequestContext)
    (statuses : List ExecutionStatus) : List (ExecutionRow N) :=
  s.executions.filter fun e =>
    decide (e.tables.status ∈ statuses) && ctx.sees e.tenantId e.nsName

/-- The statements on the rows of an execution, which take no context. -/
def updateExecution (s : Tables N) (executionId : String)
    (f : WorkflowStorage N → WorkflowStorage N) : Tables N :=
  { s with
    executions := s.executions.map fun e =>
      if e.executionId == executionId then { e with tables := f e.tables } else e }

def sendSignal (s : Tables N) (executionId signalName : String) (payload : Json N) :
    Except WorkflowError (Tables N) :=
  if s.executions.any fun e => e.executionId == executionId then
    .ok { s with signals := s.signals ++ [⟨executionId, signalName, payload⟩] }
  else
    .error (.storage "Failed to store signal: FOREIGN KEY constraint failed")

def getStepExecutionHistory (s : Tables N) (executionId : String) :
    List (String × StepExecution N) :=
  (s.executions.filter fun e => e.executionId == executionId).flatMap fun e =>
    e.tables.stepExecutions.map fun record => (e.tenantId, record)

end Tables

/-- The statuses that `list_executions` asks for. -/
def statusesOf (status : Int) : Except Status (List ExecutionStatus) :=
  if status = 0 then .ok [.pending, .running, .completed, .failed, .cancelled, .timedOut]
  else
    match status with
    | 1 => .ok [.pending]
    | 2 => .ok [.running]
    | 3 => .ok [.completed]
    | 4 => .ok [.failed]
    | 5 => .ok [.cancelled]
    | 6 => .ok [.timedOut]
    | _ => .error (invalidArgument "Invalid execution status")

/-- The rest of `start_execution`, on the rows of the new execution; `none` when the executor
is still running. -/
def startRun [BEq N] [LT N] [DecidableLT N] (fuel : Nat) (bodies : StepBodies N)
    (definition : WorkflowDefinition N) (input : Json N) (s : WorkflowStorage N) :
    Option (Except WorkflowError Unit) × WorkflowStorage N :=
  if definition.steps.isEmpty then (some (.ok ()), { s with status := .completed })
  else
    match Interaction.run WorkflowStorage.serve
        (executeWorkflowLoop fuel bodies definition input) s with
    | (outcome, s) => (outcome.map Outcome.result, s)

/-- An empty version is the version `latest`. -/
def versionOf (version : String) : String := if version.isEmpty then "latest" else version

/-- An answer of the storage as the service gives it. -/
def answer {α : Type} (f : α → Response N) : Except WorkflowError α → Except Status (Response N)
  | .ok a => .ok (f a)
  | .error e => .error (workflowErrorToStatus e)

def answerTables (s : Tables N) :
    Except WorkflowError (Tables N) → Except Status (Response N) × Tables N
  | .ok s' => (.ok .empty, s')
  | .error e => (.error (workflowErrorToStatus e), s)

section Calls

variable [BEq N] [LT N] [DecidableLT N] (bodies : StepBodies N)

def saveDefinition (s : Tables N) (ctx : RequestContext) :
    Option (StoredDefinition N) → Except Status (Response N) × Tables N
  | none => (.error (invalidArgument "definition is required"), s)
  | some definition => (.ok (.saved definition), s.saveDefinition ctx definition)

def startExecution (s : Tables N) (ctx : RequestContext) (definitionId version ulid : String)
    (fuel : Nat) : Except Status (Response N) × Tables N :=
  match s.getDefinition ctx definitionId version with
  | .error e => (.error (workflowErrorToStatus e), s)
  | .ok row =>
      match s.createExecution ⟨ulid, definitionId, version, ctx.tenantId, ctx.nsName,
          .object [], { status := .pending }⟩ with
      | .error e => (.error (workflowErrorToStatus e), s)
      | .ok s =>
          let (result, tables) :=
            startRun fuel bodies row.definition.body (.object []) { status := .running }
          (match result with
            | none => .ok .running
            | some result => answer (fun _ => .started ulid) result,
            s.updateExecution ulid fun _ => tables)

def queryExecution (s : Tables N) (ctx : RequestContext) (executionId queryName : String) :
    Except Status (Response N) :=
  match s.getExecution ctx executionId with
  | .error e => .error (workflowErrorToStatus e)
  | .ok row =>
      if queryName ∈ ["status", "current_step", "context", "state"] then
        .ok (.result row queryName)
      else
        .error (invalidArgument ("Unknown query_name: " ++ queryName ++
          ". Supported: status, current_step, context"))

def listExecutions (s : Tables N) (ctx : RequestContext) (status : Int) (definitionId : String) :
    Except Status (Response N) :=
  match statusesOf status with
  | .error e => .error e
  | .ok statuses =>
      .ok (.executions ((s.listExecutionsByStatus ctx statuses).filter fun e =>
        definitionId.isEmpty || e.definitionId == definitionId))

/-- The calls of `WorkflowService`. -/
def perform (s : Tables N) (call : ServiceCall N) : Except Status (Response N) × Tables N :=
  match call.request with
  | .createDefinition definition | .updateDefinition definition =>
      saveDefinition s call.ctx definition
  | .getDefinition id version =>
      if id.isEmpty then (.error (invalidArgument "id is required"), s)
      else (answer .definition (s.getDefinition call.ctx id (versionOf version)), s)
  | .listDefinitions namePrefix => (.ok (.definitions (s.listDefinitions call.ctx namePrefix)), s)
  | .deleteDefinition id version =>
      if id.isEmpty then (.error (invalidArgument "id is required"), s)
      else answerTables s (s.deleteDefinition call.ctx id version)
  | .startExecution definitionId version ulid fuel =>
      if definitionId.isEmpty then (.error (invalidArgument "definition_id is required"), s)
      else startExecution bodies s call.ctx definitionId (versionOf version) ulid fuel
  | .getExecution executionId =>
      if executionId.isEmpty then (.error (invalidArgument "execution_id is required"), s)
      else (answer .execution (s.getExecution call.ctx executionId), s)
  | .listExecutions status definitionId => (listExecutions s call.ctx status definitionId, s)
  | .cancelExecution executionId =>
      if executionId.isEmpty then (.error (invalidArgument "execution_id is required"), s)
      else
        (.ok .empty, s.updateExecution executionId fun tables =>
          { tables with status := .cancelled })
  | .signalExecution executionId signalName payload =>
      if executionId.isEmpty then (.error (invalidArgument "execution_id is required"), s)
      else if signalName.isEmpty then (.error (invalidArgument "signal_name is required"), s)
      else answerTables s (s.sendSignal executionId signalName payload)
  | .queryExecution executionId queryName =>
      if executionId.isEmpty then (.error (invalidArgument "execution_id is required"), s)
      else if queryName.isEmpty then (.error (invalidArgument "query_name is required"), s)
      else (queryExecution s call.ctx executionId queryName, s)
  | .getStepExecutions executionId =>
      if executionId.isEmpty then (.error (invalidArgument "execution_id is required"), s)
      else (.ok (.steps (s.getStepExecutionHistory executionId)), s)

def serviceStep (s : Tables N) (call : ServiceCall N) : Tables N := (perform bodies s call).2

end Calls

end PlexSpaces.Workflow
