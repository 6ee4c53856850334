import PlexSpaces.Workflow.Executor
import PlexSpaces.Workflow.Successor
/-!
# The attempts of a task

`execute_step` and `execute_task_step` each have the retry loop of a task written
out.  Both are the recursion on the attempts that are left, so they agree on every
storage.  What they leave behind is told of that recursion once: attempts numbered
in order, all before the last one failed, and the result of the last.
-/

namespace PlexSpaces.Workflow

open PlexSpaces.Lib

variable {N : Type}

def maxAttempts (step : Step N) : Nat := (step.retry.map (·.maxAttempts)).getD 1

def exhausted (step : Step N) (maxAttempts : Nat) (lastError : Option String) : WorkflowError :=
  let reason := lastError.getD "Unknown error"
  .execution s!"Step {step.id} failed after {maxAttempts} attempts: {reason}"

/-! ## The two copies of the loop -/

namespace StepBodies

variable (bodies : StepBodies N)

/-- The loop of `execute_step`; the pause before a retry changes nothing that is recorded. -/
def executeStepLoop (step : Step N) (input : Json N) (maxAttempts attempt : Nat)
    (lastError : Option String) : Storing N (Json N) :=
  if attempt ≤ maxAttempts then do
    let stepExecId ← createStepExecutionWithAttempt step.id input attempt
    match bodies.simulateStepExecution step input attempt with
    | .ok output =>
        completeStepExecution stepExecId .completed (some output) none
        return output
    | .error errorMsg =>
        if attempt < maxAttempts then
          completeStepExecution stepExecId .failed none (some errorMsg)
          executeStepLoop step input maxAttempts (attempt + 1) (some errorMsg)
        else
          completeStepExecution stepExecId .failed none (some errorMsg)
          throw (exhausted step maxAttempts (some errorMsg))
  else
    throw (exhausted step maxAttempts lastError)
termination_by maxAttempts + 1 - attempt

/-- The loop of `execute_task_step`. -/
def executeTaskStepLoop (step : Step N) (input : Json N) (maxAttempts attempt : Nat)
    (lastError : Option String) : Storing N (Json N) :=
  if attempt ≤ maxAttempts then do
    let stepExecId ← createStepExecutionWithAttempt step.id input attempt
    match bodies.simulateStepExecution step input attempt with
    | .ok output =>
        completeStepExecution stepExecId .completed (some output) none
        return output
    | .error errorMsg =>
        if attempt < maxAttempts then
          completeStepExecution stepExecId .failed none (some errorMsg)
          executeTaskStepLoop step input maxAttempts (attempt + 1) (some errorMsg)
        else
          completeStepExecution stepExecId .failed none (some errorMsg)
          throw (exhausted step maxAttempts (some errorMsg))
  else
    throw (exhausted step maxAttempts lastError)
termination_by maxAttempts + 1 - attempt

def executeTaskStep (step : Step N) (input : Json N) : Storing N (Json N) :=
  bodies.executeTaskStepLoop step input (maxAttempts step) 1 none

def executeStep [BEq N] [LT N] [DecidableLT N] (step : Step N) (input : Json N) :
    Storing N (Json N) :=
  match stepType step with
  | .parallel => bodies.executeParallelStep step input
  | .map => bodies.executeMapStep step input
  | .choice => executeChoiceStep step input
  | .wait => bodies.executeWaitStep step input
  | .signal => bodies.executeSignalStep step input
  | .unspecified | .task => bodies.executeStepLoop step input (maxAttempts step) 1 none

end StepBodies

/-! ## The loop by the attempts that are left -/

section Loop

variable {simulate : Nat → Except String (Json N)} {step : Step N} {input : Json N}
  {maxAttempts : Nat}

/-- Whatever goes round as the loop does is the recursion on the attempts that are left. -/
theorem eq_attemptTask {loop : Nat → Option String → Storing N (Json N)}
    (hloop : ∀ attempt lastError, loop attempt lastError =
      if attempt ≤ maxAttempts then do
        let stepExecId ← createStepExecutionWithAttempt step.id input attempt
        match simulate attempt with
        | .ok output =>
            completeStepExecution stepExecId .completed (some output) none
            return output
        | .error errorMsg =>
            if attempt < maxAttempts then
              completeStepExecution stepExecId .failed none (some errorMsg)
              loop (attempt + 1) (some errorMsg)
            else
              completeStepExecution stepExecId .failed none (some errorMsg)
              throw (exhausted step maxAttempts (some errorMsg))
      else
        throw (exhausted step maxAttempts lastError))
    {remaining attempt : Nat} (hremaining : maxAttempts + 1 - attempt = remaining)
    (lastError : Option String) :
    loop attempt lastError =
      attemptTask simulate step input maxAttempts remaining attempt lastError := by
  induction remaining generalizing attempt lastError with
  | zero =>
      rw [hloop, if_neg (by omega)]
      rfl
  | succ remaining ih =>
      rw [hloop, if_pos (by omega), attemptTask]
      refine congrArg _ (funext fun stepExecId => ?_)
      cases simulate attempt with
      | ok output => rfl
      | error errorMsg =>
          by_cases hlast : attempt < maxAttempts
          · simp only [if_pos hlast]
            rw [ih (by omega)]
          · obtain rfl : remaining = 0 := by omega
            simp only [if_neg hlast]
            rfl

variable {bodies : StepBodies N}

theorem executeStepLoop_eq :
    bodies.executeStepLoop step input maxAttempts 1 none =
      attemptTask (bodies.simulateStepExecution step input) step input maxAttempts maxAttempts 1
        none :=
  eq_attemptTask (fun attempt lastError => by rw [StepBodies.executeStepLoop]) rfl none

theorem executeTaskStepLoop_eq :
    bodies.executeTaskStepLoop step input maxAttempts 1 none =
      attemptTask (bodies.simulateStepExecution step input) step input maxAttempts maxAttempts 1
        none :=
  eq_attemptTask (fun attempt lastError => by rw [StepBodies.executeTaskStepLoop]) rfl none

/-- The copy in `execute_task_step` is the task of the executor. -/
theorem executeTaskStep_eq :
    bodies.executeTaskStep step input = executeTaskStep bodies step input :=
  executeTaskStepLoop_eq

/-- The copy in `execute_step` is so too, whatever the type of the step. -/
theorem executeStep_eq [BEq N] [LT N] [DecidableLT N] :
    bodies.executeStep step input = executeStep bodies step input := by
  rw [StepBodies.executeStep, executeStep]
  cases stepType step with
  | unspecified | task => exact executeStepLoop_eq
  | parallel | map | wait | choice | signal => rfl

theorem executeStep_of_task [BEq N] [LT N] [DecidableLT N]
    (hstep : stepType step = .task ∨ stepType step = .unspecified) :
    executeStep bodies step input = executeTaskStep bodies step input := by
  rw [executeStep]
  rcases hstep with hstep | hstep <;> rw [hstep]

end Loop

/-! ## What the attempts leave behind -/

/-- Attempts from `first` on, at most `budget` of them: numbered in order, all before the
last one failed. -/
structure Attempted (simulate : Nat → Except String (Json N)) (first budget : Nat)
    (rows : List (StepExecution N)) : Prop where
  within : rows.length ≤ budget
  inOrder : rows.map (·.attempt) = List.range' first rows.length
  failed : ∀ row ∈ rows.dropLast, row.status = .failed
  earlier : ∀ i, i + 1 < rows.length → (simulate (first + i)).isOk = false

/-- There was an attempt, the result is that of the last one, and that one succeeded or
was the last allowed. -/
def Concluded (simulate : Nat → Except String (Json N)) (first budget : Nat)
    (rows : List (StepExecution N)) (result : Except WorkflowError (Json N)) : Prop :=
  ∃ k, rows.length = k + 1 ∧ result.isOk = (simulate (first + k)).isOk ∧
    ((simulate (first + k)).isOk ∨ k + 1 = budget)

/-- A statement was not answered, and its error is the result. -/
def Unanswered (s : WorkflowStorage N) (result : Except WorkflowError (Json N)) : Prop :=
  ∃ message, some message ∈ s.faults ∧ result = .error (.storage message)

/-- What was executed on the storage appended such attempts, and unless a statement was not
answered it ended with their result. -/
def Attempts (simulate : Nat → Except String (Json N)) (first budget : Nat)
    (s : WorkflowStorage N) (executed : Except WorkflowError (Json N) × WorkflowStorage N) :
    Prop :=
  ∃ rows, executed.2.stepExecutions = s.stepExecutions ++ rows ∧
    Attempted simulate first budget rows ∧
    (Unanswered s executed.1 ∨ Concluded simulate first budget rows executed.1)

section Run

variable {simulate : Nat → Except String (Json N)} {step : Step N} {input : Json N}
  {s : WorkflowStorage N} {first budget : Nat} {rows : List (StepExecution N)}
  {result : Except WorkflowError (Json N)}

def WorkflowStorage.next (s : WorkflowStorage N) : WorkflowStorage N :=
  { s with faults := s.faults.tail }

/-- A statement is answered with an error, or does its work. -/
theorem serve_cases (request : Request N) (s : WorkflowStorage N) :
    (∃ message, some message ∈ s.faults ∧
      WorkflowStorage.serve request s = (.error (.storage message), s.next)) ∨
    WorkflowStorage.serve request s =
      (.ok (WorkflowStorage.perform request s.next).1,
        (WorkflowStorage.perform request s.next).2) := by
  obtain ⟨status, output, stepExecutions, faults⟩ := s
  match faults with
  | [] => exact .inr rfl
  | none :: faults => exact .inr rfl
  | some message :: faults => exact .inl ⟨message, List.mem_cons_self, rfl⟩

theorem Unanswered.of_next (h : Unanswered s.next result) : Unanswered s result := by
  obtain ⟨message, hmem, hresult⟩ := h
  exact ⟨message, List.mem_of_mem_tail hmem, hresult⟩

theorem Attempted.nil : Attempted simulate first budget [] :=
  ⟨Nat.zero_le _, rfl, fun _ h => absurd h List.not_mem_nil,
    fun _ h => absurd h (Nat.not_lt_zero _)⟩

theorem Attempted.one {row : StepExecution N} (hbudget : 0 < budget) (hrow : row.attempt = first) :
    Attempted simulate first budget [row] where
  within := hbudget
  inOrder := congrArg (· :: []) hrow
  failed _ h := absurd h List.not_mem_nil
  earlier i h := absurd h (by simp)

theorem Attempted.cons {row : StepExecution N} (h : Attempted simulate (first + 1) budget rows)
    (hrow : row.attempt = first) (hstatus : row.status = .failed)
    (hfailed : (simulate first).isOk = false) :
    Attempted simulate first (budget + 1) (row :: rows) where
  within := Nat.succ_le_succ h.within
  inOrder := by
    rw [List.map_cons, h.inOrder, hrow]
    rfl
  failed := by
    intro row' hmem
    cases rows with
    | nil => cases hmem
    | cons next rows =>
        rcases List.mem_cons.mp hmem with rfl | hmem
        · exact hstatus
        · exact h.failed row' hmem
  earlier := by
    intro i hi
    cases i with
    | zero => exact hfailed
    | succ i =>
        have hearlier := h.earlier i (Nat.lt_of_succ_lt_succ hi)
        rwa [Nat.add_right_comm] at hearlier

theorem Concluded.cons (row : StepExecution N)
    (h : Concluded simulate (first + 1) budget rows result) :
    Concluded simulate first (budget + 1) (row :: rows) result := by
  obtain ⟨k, hlength, hresult, hlast⟩ := h
  rw [Nat.add_right_comm] at hresult hlast
  exact ⟨k + 1, congrArg Nat.succ hlength, hresult, hlast.imp_right (congrArg Nat.succ)⟩

variable {maxAttempts remaining : Nat} {lastError : Option String}

theorem attempts_succ
    (hrest : remaining ≠ 0 → ∀ lastError s, Attempts simulate (first + 1) remaining s
      (Interaction.run WorkflowStorage.serve
        (attemptTask simulate step input maxAttempts remaining (first + 1) lastError).run s)) :
    Attempts simulate first (remaining + 1) s
      (Interaction.run WorkflowStorage.serve
        (attemptTask simulate step input maxAttempts (remaining + 1) first lastError).run s) := by
  have hcreate := serve_cases (.createStepExecutionWithAttempt step.id input first) s
  rw [attemptTask, Interaction.run_bindExcept, createStepExecutionWithAttempt, run_statement]
  rcases hcreate with ⟨message, hmem, hcreate⟩ | hcreate
  · rw [hcreate]
    exact ⟨[], (List.append_nil _).symm, .nil, .inl ⟨message, hmem, rfl⟩⟩
  · rw [hcreate]
    simp only [WorkflowStorage.perform]
    let row : StepExecution N := ⟨step.id, .running, input, none, none, first⟩
    let created : WorkflowStorage N := { s.next with
      stepExecutions := s.next.stepExecutions ++ [row] }
    have hcomplete (status : StepStatus) (output : Option (Json N)) (error : Option String) :
        (WorkflowStorage.perform
          (.completeStepExecution s.next.stepExecutions.length status output error)
          created.next).2.stepExecutions =
          s.stepExecutions ++ [{ row with status, output, error }] :=
      modify_concat _ _ _
    cases hsimulate : simulate first with
    | ok output =>
        simp only [completeStepExecution]
        rw [Interaction.run_bindExcept, run_statement]
        rcases serve_cases (.completeStepExecution s.next.stepExecutions.length .completed
          (some output) none) created with ⟨message, hmem, hserve⟩ | hserve
        · rw [hserve]
          exact ⟨[row], rfl, .one (Nat.succ_pos _) rfl, .inl (.of_next ⟨message, hmem, rfl⟩)⟩
        · rw [hserve]
          refine ⟨_, hcomplete .completed (some output) none, .one (Nat.succ_pos _) rfl, .inr ?_⟩
          have hok : (simulate first).isOk = true := by rw [hsimulate]; rfl
          exact ⟨0, rfl, hok.symm, .inl hok⟩
    | error errorMsg =>
        simp only [completeStepExecution]
        rw [Interaction.run_bindExcept, run_statement]
        have hfailed : (simulate first).isOk = false := by rw [hsimulate]; rfl
        rcases serve_cases (.completeStepExecution s.next.stepExecutions.length .failed none
          (some errorMsg)) created with ⟨message, hmem, hserve⟩ | hserve
        · rw [hserve]
          exact ⟨[row], rfl, .one (Nat.succ_pos _) rfl, .inl (.of_next ⟨message, hmem, rfl⟩)⟩
        · rw [hserve]
          have hrows := hcomplete .failed none (some errorMsg)
          have hfaults : (WorkflowStorage.perform (.completeStepExecution
              s.next.stepExecutions.length .failed none (some errorMsg)) created.next).2.faults =
                s.faults.tail.tail := rfl
          revert hrows hfaults
          generalize (WorkflowStorage.perform (.completeStepExecution
            s.next.stepExecutions.length .failed none (some errorMsg)) created.next).2 = s'
          intro hrows hfaults
          by_cases hlast : remaining = 0
          · subst hlast
            exact ⟨_, hrows, .one (Nat.succ_pos _) rfl, .inr ⟨0, rfl, hfailed.symm, .inr rfl⟩⟩
          · obtain ⟨rows, happended, hattempted, hends⟩ := hrest hlast (some errorMsg) s'
            let failed : StepExecution N :=
              { row with status := .failed, output := none, error := some errorMsg }
            refine ⟨failed :: rows, ?_, hattempted.cons rfl rfl hfailed, ?_⟩
            · exact happended.trans (by rw [hrows, List.append_assoc]; rfl)
            · refine hends.imp ?_ (Concluded.cons _)
              rintro ⟨message, hmem, hresult⟩
              rw [hfaults] at hmem
              exact ⟨message, List.mem_of_mem_tail (List.mem_of_mem_tail hmem), hresult⟩

theorem attempts_attemptTask (remaining first : Nat) (lastError : Option String)
    (s : WorkflowStorage N) : Attempts simulate first (remaining + 1) s
      (Interaction.run WorkflowStorage.serve
        (attemptTask simulate step input maxAttempts (remaining + 1) first lastError).run s) := by
  induction remaining generalizing first lastError s with
  | zero => exact attempts_succ fun h => absurd rfl h
  | succ remaining ih => exact attempts_succ fun _ => ih (first + 1)

end Run

/-! ## The retry discipline -/

section Discipline

variable [BEq N] [LT N] [DecidableLT N]

/-- An execution of the task of the step has between one attempt and as many as the policy
allows, at least one. -/
def Disciplined (bodies : StepBodies N) (step : Step N) (input : Json N) (s : WorkflowStorage N)
    (execute : Storing N (Json N)) : Prop :=
  Attempts (bodies.simulateStepExecution step input) 1 (max 1 (maxAttempts step)) s
    (Interaction.run WorkflowStorage.serve execute.run s)

omit [BEq N] [LT N] [DecidableLT N] in
theorem disciplined_executeTaskStep_iff (bodies : StepBodies N) (step : Step N) (input : Json N)
    (s : WorkflowStorage N) :
    Disciplined bodies step input s (executeTaskStep bodies step input) ↔
      maxAttempts step ≠ 0 := by
  rw [Disciplined, executeTaskStep, ← maxAttempts]
  constructor
  · rintro ⟨rows, hrows, hattempted, hends⟩ hzero
    rw [hzero] at hrows hends
    obtain rfl : rows = [] := List.append_right_eq_self.mp hrows.symm
    rcases hends with ⟨message, -, hresult⟩ | ⟨k, hlength, -⟩
    · cases hresult
    · cases hlength
  · intro hpos
    obtain ⟨remaining, hremaining⟩ := Nat.exists_eq_succ_of_ne_zero hpos
    rw [hremaining, Nat.max_eq_right (Nat.succ_pos remaining)]
    exact attempts_attemptTask remaining 1 none s

/-- On a task step the two functions do the same and keep the retry discipline on every
storage, exactly if the step has no retry policy or one that allows an attempt. -/
theorem retry_discipline_iff (bodies : StepBodies N) (step : Step N) (input : Json N)
    (s : WorkflowStorage N) (hstep : stepType step = .task ∨ stepType step = .unspecified) :
    (Disciplined bodies step input s (bodies.executeStep step input) ∧
      Disciplined bodies step input s (bodies.executeTaskStep step input) ∧
      bodies.executeStep step input = bodies.executeTaskStep step input) ↔
    ∀ policy, step.retry = some policy → policy.maxAttempts ≠ 0 := by
  have hsame : bodies.executeStep step input = bodies.executeTaskStep step input := by
    rw [executeStep_eq, executeTaskStep_eq, executeStep_of_task hstep]
  rw [hsame, executeTaskStep_eq, disciplined_executeTaskStep_iff, maxAttempts]
  cases step.retry with
  | none => simp
  | some policy => simp

end Discipline

def Step.charge (maxAttempts : Nat) : Step Nat :=
  { id := "charge", type := 1, retry := some ⟨maxAttempts⟩ }

theorem retry_discipline_iff_charge :
    (Disciplined .echo (.charge 3) .null { status := .running }
        (StepBodies.echo.executeStep (.charge 3) .null) ∧
      Disciplined .echo (.charge 3) .null { status := .running }
        (StepBodies.echo.executeTaskStep (.charge 3) .null) ∧
      StepBodies.echo.executeStep (.charge 3) .null =
        StepBodies.echo.executeTaskStep (.charge 3) .null) ↔
    ∀ policy, (Step.charge 3).retry = some policy → policy.maxAttempts ≠ 0 :=
  retry_discipline_iff .echo (.charge 3) .null { status := .running } (.inl rfl)

/-- A policy that leaves the number of attempts unset: the task is never attempted. -/
theorem not_disciplined :
    ¬∀ (step : Step Nat) (input : Json Nat) (s : WorkflowStorage Nat),
      stepType step = .task →
      Disciplined .echo step input s (StepBodies.echo.executeStep step input) := by
  intro h
  have hdisciplined := h (.charge 0) .null { status := .running } rfl
  rw [executeStep_eq, executeStep_of_task (.inl rfl)] at hdisciplined
  exact (disciplined_executeTaskStep_iff .echo (.charge 0) .null _).mp hdisciplined rfl

end PlexSpaces.Workflow
