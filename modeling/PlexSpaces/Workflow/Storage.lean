import PlexSpaces.Lib.Interaction
import PlexSpaces.Lib.Json
/-!
# The workflow storage

The rows of one execution: its status and output, and the step executions in the
order in which they were inserted, which is the order of the history.  A row
stands at its own position, which serves as its id.  The executor reaches the
tables by one statement at a time, and any statement may fail.
-/

namespace PlexSpaces.Workflow

open PlexSpaces.Lib

inductive WorkflowError where
  | storage (message : String)
  | serialization (message : String)
  | notFound (message : String)
  | invalidDefinition (message : String)
  | execution (message : String)
  | concurrentUpdate (message : String)
deriving DecidableEq, Repr

inductive ExecutionStatus where
  | unspecified
  | pending
  | running
  | completed
  | failed
  | cancelled
  | timedOut
deriving DecidableEq, Repr

inductive StepStatus where
  | unspecified
  | pending
  | running
  | completed
  | failed
  | retrying
  | cancelled
deriving DecidableEq, Repr

structure StepExecution (N : Type) where
  stepId : String
  status : StepStatus
  input : Json N
  output : Option (Json N)
  error : Option String
  attempt : Nat

/-- The statements of the executor. -/
inductive Request (N : Type) where
  | createStepExecutionWithAttempt (stepId : String) (input : Json N) (attempt : Nat)
  | completeStepExecution (stepExecId : Nat) (status : StepStatus) (output : Option (Json N))
      (error : Option String)
  | getStepExecutionHistory
  | updateExecutionStatus (status : ExecutionStatus)
  | updateExecutionOutput (output : Json N)

variable {N : Type}

@[reducible] def Request.Answer : Request N → Type
  | createStepExecutionWithAttempt _ _ _ => Nat
  | getStepExecutionHistory => List (StepExecution N)
  | completeStepExecution _ _ _ _ | updateExecutionStatus _ | updateExecutionOutput _ => Unit

abbrev Reply (request : Request N) : Type := Except WorkflowError request.Answer

/-- The tables of an execution; `faults` tells of the coming statements which fail,
and with what message. -/
structure WorkflowStorage (N : Type) where
  status : ExecutionStatus
  output : Option (Json N) := none
  stepExecutions : List (StepExecution N) := []
  faults : List (Option String) := []

namespace WorkflowStorage

def perform (request : Request N) (s : WorkflowStorage N) : request.Answer × WorkflowStorage N :=
  match request with
  | .createStepExecutionWithAttempt stepId input attempt =>
      (s.stepExecutions.length,
        { s with
          stepExecutions := s.stepExecutions ++ [⟨stepId, .running, input, none, none, attempt⟩] })
  | .completeStepExecution stepExecId status output error =>
      ((), { s with
        stepExecutions := s.stepExecutions.modify stepExecId fun row =>
          { row with status, output, error } })
  | .getStepExecutionHistory => (s.stepExecutions, s)
  | .updateExecutionStatus status => ((), { s with status })
  | .updateExecutionOutput output => ((), { s with output := some output })

def serve (request : Request N) (s : WorkflowStorage N) : Reply request × WorkflowStorage N :=
  match s.faults with
  | some message :: faults => (.error (.storage message), { s with faults })
  | none :: faults =>
      let (answer, s) := perform request { s with faults }
      (.ok answer, s)
  | [] =>
      let (answer, s) := perform request s
      (.ok answer, s)

/-- A statement that succeeds does its work, on tables with fewer faults to come. -/
theorem serve_ok {request : Request N} {s s' : WorkflowStorage N}
    {answer : request.Answer} (hserve : serve request s = (.ok answer, s')) :
    ∃ faults, perform request { s with faults } = (answer, s') := by
  rw [serve] at hserve
  split at hserve
  · cases hserve
  · next faults _ =>
      refine ⟨faults, ?_⟩
      cases hserve
      rfl
  · refine ⟨s.faults, ?_⟩
    cases hserve
    rfl

theorem serve_of_no_faults {s : WorkflowStorage N} (hfaults : s.faults = [])
    (request : Request N) :
    serve request s =
      (.ok (perform request s).1, (perform request s).2) := by
  rw [serve]
  simp only [hfaults]

theorem faults_perform (request : Request N) (s : WorkflowStorage N) :
    (perform request s).2.faults = s.faults := by
  cases request <;> rfl

theorem no_faults_run {α : Type} (p : Interaction (Reply (N := N)) α)
    {s : WorkflowStorage N} (hfaults : s.faults = []) :
    (Interaction.run serve p s).2.faults = [] := by
  induction p generalizing s with
  | done a => exact hfaults
  | ask request next ih =>
      refine ih _ ?_
      rw [serve_of_no_faults hfaults]
      exact (faults_perform request s).trans hfaults

theorem no_faults_of_run {α : Type} {p : Interaction (Reply (N := N)) α} {a : α}
    {s s' : WorkflowStorage N} (hrun : Interaction.run serve p s = (a, s'))
    (hfaults : s.faults = []) : s'.faults = [] := by
  have hafter := no_faults_run p hfaults
  rwa [hrun] at hafter

end WorkflowStorage

abbrev Storing (N : Type) := ExceptT WorkflowError (Interaction (Reply (N := N)))

def statement (request : Request N) : Storing N request.Answer :=
  ExceptT.mk (Interaction.send request)

theorem run_statement (request : Request N) (s : WorkflowStorage N) :
    Interaction.run WorkflowStorage.serve (statement request).run s =
      WorkflowStorage.serve request s := rfl

def createStepExecutionWithAttempt (stepId : String) (input : Json N) (attempt : Nat) :
    Storing N Nat :=
  statement (.createStepExecutionWithAttempt stepId input attempt)

def createStepExecution (stepId : String) (input : Json N) : Storing N Nat :=
  createStepExecutionWithAttempt stepId input 1

def completeStepExecution (stepExecId : Nat) (status : StepStatus) (output : Option (Json N))
    (error : Option String) : Storing N Unit :=
  statement (.completeStepExecution stepExecId status output error)

def getStepExecutionHistory : Storing N (List (StepExecution N)) :=
  statement .getStepExecutionHistory

def updateExecutionStatus (status : ExecutionStatus) : Storing N Unit :=
  statement (.updateExecutionStatus status)

def updateExecutionOutput (output : Json N) : Storing N Unit :=
  statement (.updateExecutionOutput output)

end PlexSpaces.Workflow
