import PlexSpaces.Workflow.Finality
/-!
# Resuming an execution

`execute_from_state` reads the input of the execution back and runs the loop from
the first step.  The loop reads the history after a Choice step only, where it looks
for the newest record of the step that it has just executed.  So the resumed run does,
after the records that are there, what a run does that was not interrupted.
-/

namespace PlexSpaces.Workflow

open PlexSpaces.Lib

variable {N : Type}

/-! ## The input of an execution -/

section Input

variable (double : N → N)

mutual

/-- A value through a protobuf value: numbers become doubles, and an object whose only field
is the mark of a wrapped value is taken for one. -/
def throughStruct : Json N → Json N
  | .number n => .number (double n)
  | .array items => .array (throughStructs items)
  | .object fields =>
      match throughFields fields with
      | [("__value__", inner)] => inner
      | fields => .object fields
  | v => v

def throughStructs : List (Json N) → List (Json N)
  | [] => []
  | v :: items => throughStruct v :: throughStructs items

def throughFields : List (String × Json N) → List (String × Json N)
  | [] => []
  | (key, v) :: fields => (key, throughStruct v) :: throughFields fields

end

/-- The input as `execute_from_state` reads it from the execution. -/
def executionInput : Json N → Json N
  | .null => .object []
  | .object fields => .object (throughFields double fields)
  | v => .object [("__value__", throughStruct double v)]

end Input

/-! ## The two runs -/

def Site.unrecorded (s : Site N) : Site N := { s.newRun with earlier := [] }

section Resume

variable [BEq N] [LT N] [DecidableLT N] (ex : Executor N) (double : N → N)
  (definition : WorkflowDefinition N) (input : Json N) (fuel : Nat)

/-- A run of `execute_from_state` on an execution that was interrupted. -/
def resumed (s : Site N) (turns : List (Turn (Outside N))) : Execution N :=
  run ex.world.step ⟨s.newRun, ex.execute fuel definition (executionInput double input)⟩ turns

/-- A run of `start_execution` in the same surroundings that is not interrupted. -/
def uninterrupted (s : Site N) (turns : List (Turn (Outside N))) : Execution N :=
  run ex.world.step ⟨s.unrecorded, ex.execute fuel definition input⟩ turns

/-- The resumed run executes no step with a completed record, begins with the output of the last
one, and ends with the history and the output of the uninterrupted run. -/
structure ResumesProperly (s : Site N) (turns : List (Turn (Outside N))) : Prop where
  noRepeat : ∀ outcome, (resumed ex double definition input fuel s turns).main =
      .done (some outcome) →
    ∀ e ∈ outcome.executed, ∀ row ∈ s.history, row.status = .completed → row.stepId ≠ e.step.id
  continues : ∀ outcome, (resumed ex double definition input fuel s turns).main =
      .done (some outcome) →
    ∀ row ∈ (s.history.filter (·.status = .completed)).getLast?,
      ∀ e ∈ outcome.executed.head?, row.output = some e.input
  ends : ∀ outcome, (uninterrupted ex definition input fuel s turns).main = .done (some outcome) →
    (∃ outcome', (resumed ex double definition input fuel s turns).main = .done (some outcome')) ∧
      (resumed ex double definition input fuel s turns).state.history =
        (uninterrupted ex definition input fuel s turns).state.history ∧
      (resumed ex double definition input fuel s turns).state.tables.output =
        (uninterrupted ex definition input fuel s turns).state.tables.output

end Resume

/-- A task that is tried no more than zero times leaves no record, any other step records its
input before anything else. -/
def Step.Records (step : Step N) : Prop :=
  stepType step ∈ [.task, .unspecified] → step.retry.map (·.maxAttempts) ≠ some 0

def WorkflowDefinition.RecordsInput (definition : WorkflowDefinition N) : Prop :=
  ∃ first ∈ definition.steps.head?, ∃ step ∈ definition.stepMap first.id, step.Records

/-! ## Who reads the history -/

def Call.readsHistory : Call N → Bool
  | statement .getStepExecutionHistory => true
  | _ => false

theorem not_readsHistory_of_ofStep (call : Call N) (h : call.ofStep = true) :
    call.readsHistory = false := by
  cases call with
  | statement request =>
      cases request with
      | getStepExecutionHistory => cases h
      | _ => rfl
  | _ => rfl

theorem not_readsHistory_of_updatesExecution (request : Request N)
    (h : request.updatesExecution = true) : (Call.statement request).readsHistory = false := by
  cases request with
  | getStepExecutionHistory => cases h
  | _ => rfl

/-! ## What records keep -/

/-- What is true of the records stays true when one is added or closed. -/
structure KeptByRecords (P : List (StepExecution N) → Prop) : Prop where
  create : ∀ rows row, P rows → P (rows ++ [row])
  complete : ∀ rows i status output error, P rows →
    P (rows.modify i fun row => { row with status, output, error })

namespace KeptByRecords

variable {ex : Executor N} {P : List (StepExecution N) → Prop} {s s' : Site N}

theorem statement (hP : KeptByRecords P) (request : Request N)
    (h : P s.tables.stepExecutions) : P (s.statement request).2.tables.stepExecutions := by
  cases request with
  | createStepExecutionWithAttempt created input attempt => exact hP.create _ _ h
  | completeStepExecution stepExecId status output error => exact hP.complete _ _ _ _ _ h
  | _ => exact h

theorem serve (hP : KeptByRecords P) (h : P s.tables.stepExecutions) {call : Call N}
    {answer : call.Answer} (hserve : s.serve ex call = some (answer, s')) :
    P s'.tables.stepExecutions := by
  cases call with
  | statement request =>
      have hsame : s.statement request = (answer, s') := Option.some.inj hserve
      have hnext := hP.statement request h
      rwa [hsame] at hnext
  | join task =>
      rw [Site.serve] at hserve
      split at hserve
      · cases hserve
        exact h
      · cases hserve
  | _ =>
      cases hserve
      exact h

theorem other (hP : KeptByRecords P) (h : P s.tables.stepExecutions) (move : Outside N) :
    P (s.other move).tables.stepExecutions := by
  cases move with
  | task i =>
      rw [Site.other]
      split
      · exact hP.statement _ h
      · exact h
  | updateExecutionStatus status expectedVersion =>
      rw [updateExecutionStatus_other]
      split_ifs
      · exact h
      · exact h
  | _ => exact h

end KeptByRecords

theorem map_complete {α : Type} (rows : List (StepExecution N)) (f : StepExecution N → α)
    (i : Nat) (status : StepStatus) (output : Option (Json N)) (error : Option String)
    (hf : ∀ row, f { row with status, output, error } = f row) :
    (rows.modify i fun row => { row with status, output, error }).map f = rows.map f := by
  refine List.ext_getElem? fun j => ?_
  rw [List.getElem?_map, List.getElem?_map, List.getElem?_modify]
  by_cases hij : i = j
  · cases hrow : rows[j]? with
    | none => simp
    | some row => simp [hij, hf]
  · cases hrow : rows[j]? with
    | none => simp
    | some row => simp [hij]

def HasRecord (stepId : String) (s : Site N) : Prop :=
  stepId ∈ s.tables.stepExecutions.map (·.stepId)

theorem hasRecord_kept (stepId : String) :
    KeptByRecords fun rows : List (StepExecution N) => stepId ∈ rows.map (·.stepId) where
  create rows row h := by
    rw [List.map_append]
    exact List.mem_append_left _ h
  complete rows i status output error h := by
    rwa [map_complete rows (·.stepId) i status output error fun _ => rfl]

def FirstRecord (input : Json N) (s : Site N) : Prop :=
  (s.tables.stepExecutions.map (·.input)).head? = some input

theorem firstRecord_kept (input : Json N) :
    KeptByRecords fun rows : List (StepExecution N) =>
      (rows.map (·.input)).head? = some input where
  create rows row h := by
    rw [List.map_append, List.head?_append, h, Option.some_or]
  complete rows i status output error h := by
    rwa [map_complete rows (·.input) i status output error fun _ => rfl]

/-- Without a task the others leave no record. -/
theorem other_unrecorded {s : Site N} (hrows : s.tables.stepExecutions = []) (htasks : s.tasks = [])
    (move : Outside N) :
    (s.other move).tables.stepExecutions = [] ∧ (s.other move).tasks = [] := by
  cases move with
  | task i =>
      rw [Site.other, htasks]
      exact ⟨hrows, htasks⟩
  | updateExecutionStatus status expectedVersion =>
      rw [updateExecutionStatus_other]
      split_ifs
      · exact ⟨hrows, htasks⟩
      · exact ⟨hrows, htasks⟩
  | _ => exact ⟨hrows, htasks⟩

theorem firstRecord_run {ex : Executor N} {α : Type} {stepId : String} {input : Json N}
    {next : Except WorkflowError Nat → Interaction (Call.Answer (N := N)) α} {s : Site N}
    (hrows : s.tables.stepExecutions = []) (htasks : s.tasks = []) {turns : List (Turn (Outside N))}
    {a : α} (hdone : (run ex.world.step
      ⟨s, .ask (.statement (.createStepExecutionWithAttempt stepId input 1)) next⟩ turns).main =
        .done a) :
    FirstRecord input (run ex.world.step
      ⟨s, .ask (.statement (.createStepExecutionWithAttempt stepId input 1)) next⟩ turns).state := by
  let start : Machine (Call.Answer (N := N)) (Site N) α :=
    ⟨s, .ask (.statement (.createStepExecutionWithAttempt stepId input 1)) next⟩
  let I : Machine (Call.Answer (N := N)) (Site N) α → Prop := fun m =>
    (m.main = start.main ∧ m.state.tables.stepExecutions = [] ∧ m.state.tasks = []) ∨
      FirstRecord input m.state
  have hkeeps : I (run ex.world.step start turns) := by
    refine run_invariant (I := I) (fun turn _ m hm => ?_) (.inl ⟨rfl, hrows, htasks⟩)
    obtain ⟨state, main⟩ := m
    rcases hm with ⟨rfl, hrows, htasks⟩ | hrecord
    · cases turn with
      | main =>
          right
          change ((state.tables.stepExecutions ++ [_]).map StepExecution.input).head? = _
          rw [hrows]
          rfl
      | other move => exact .inl ⟨rfl, other_unrecorded hrows htasks move⟩
    · right
      cases turn with
      | main =>
          rw [World.step]
          split
          · exact hrecord
          · split
            · exact hrecord
            · next hserve => exact (firstRecord_kept input).serve hrecord hserve
      | other move => exact (firstRecord_kept input).other hrecord move
  rcases hkeeps with ⟨hmain, -⟩ | hrecord
  · cases hdone.symm.trans hmain
  · exact hrecord

/-! ## Older records before those of the run -/

/-- The history of the run, or with older records before it. -/
def Executor.resumingWorld (ex : Executor N) (old : List (StepExecution N)) :
    World (Call.Answer (N := N)) (Site N) (Outside N) :=
  { ex.world with
    alike := fun call s reply reply' =>
      match call, reply, reply' with
      | .statement .getStepExecutionHistory, reply, reply' =>
          reply = .ok s.tables.stepExecutions ∧ reply' = .ok (old ++ s.tables.stepExecutions)
      | _, _, _ => False }

section ResumingWorld

variable {α : Type} {ex : Executor N} {old : List (StepExecution N)} {stepId : String}
  {s s' : Site N}

theorem not_alike {call : Call N} (hcall : call.readsHistory = false) (s : Site N)
    (reply reply' : call.Answer) : ¬(ex.resumingWorld old).alike call s reply reply' := by
  cases call with
  | statement request =>
      cases request with
      | getStepExecutionHistory => cases hcall
      | _ => exact id
  | _ => exact id

theorem stable_hasRecord : (ex.resumingWorld old).Stable (HasRecord stepId) :=
  fun _ move h => (hasRecord_kept stepId).other h move

/-- A computation that does not read the history keeps what every answer keeps. -/
theorem wp_of_asks {A : Site N → Prop} (hA : (ex.resumingWorld old).Stable A)
    (hserve : ∀ (call : Call N) (answer : call.Answer) s s', A s →
      s.serve ex call = some (answer, s') → A s')
    {p : Interaction (Call.Answer (N := N)) α}
    (hp : p.Asks fun call => call.readsHistory = false) (hs : A s) :
    (ex.resumingWorld old).wp (fun _ s => A s) p s := by
  induction p generalizing s with
  | done a => exact hs
  | ask call next ih =>
      refine World.wp_ask hA hs fun s answer s' hs hanswer => ⟨?_, fun answer' halike => ?_⟩
      · exact ih answer (hp.2 answer) (hserve call answer s s' hs hanswer)
      · exact absurd halike (not_alike hp.1 s' answer answer')

theorem wp_true {p : Interaction (Call.Answer (N := N)) α}
    (hp : p.Asks fun call => call.readsHistory = false) :
    (ex.resumingWorld old).wp (fun _ _ => True) p s :=
  wp_of_asks (fun _ _ _ => trivial) (fun _ _ _ _ _ _ => trivial) hp trivial

theorem wp_hasRecord {input : Json N} {attempt : Nat}
    {next : Except WorkflowError Nat → Interaction (Call.Answer (N := N)) α}
    (hnext : ∀ reply, (next reply).Asks fun call => call.readsHistory = false) :
    (ex.resumingWorld old).wp (fun _ s => HasRecord stepId s)
      (.ask (.statement (.createStepExecutionWithAttempt stepId input attempt)) next) s := by
  refine World.wp_ask (A := fun _ => True) (fun _ _ _ => trivial) trivial
    fun s answer s' _ hserve => ⟨?_, fun answer' halike => absurd halike (not_alike rfl s' _ _)⟩
  refine wp_of_asks stable_hasRecord (fun _ _ _ _ h hserve => (hasRecord_kept stepId).serve h hserve)
    (hnext answer) ?_
  cases hserve
  change stepId ∈ (s.tables.stepExecutions ++ [_]).map StepExecution.stepId
  rw [List.map_append]
  exact List.mem_append_right _ (List.mem_singleton.mpr rfl)

end ResumingWorld

section Loop

variable [BEq N] [LT N] [DecidableLT N] {ex : Executor N} {old : List (StepExecution N)}
  {definition : WorkflowDefinition N} {input : Json N} {s : Site N}

omit [BEq N] [LT N] [DecidableLT N] in
theorem afterChoice_append {st : LoopState N} {step : Step N} (hrecord : HasRecord step.id s) :
    definition.afterChoice st step (old ++ s.tables.stepExecutions) =
      definition.afterChoice st step s.tables.stepExecutions := by
  obtain ⟨row, hrow, hid⟩ := List.mem_map.mp hrecord
  have hsome : (s.tables.stepExecutions.reverse.find? fun row => row.stepId == step.id).isSome := by
    rw [List.find?_isSome]
    exact ⟨row, List.mem_reverse.mpr hrow, beq_iff_eq.mpr hid⟩
  obtain ⟨found, hfound⟩ := Option.isSome_iff_exists.mp hsome
  rw [WorkflowDefinition.afterChoice, WorkflowDefinition.afterChoice, List.reverse_append,
    List.find?_append, hfound]
  rfl

theorem wp_choice {step : Step N} (hchoice : stepType step = .choice) :
    (ex.resumingWorld old).wp (fun _ s => HasRecord step.id s) (ex.executeStep step input).run
      s := by
  have hasks : (ex.executeStep step input).run.Asks fun call => call.readsHistory = false :=
    asks_executeStep.mono not_readsHistory_of_ofStep
  rw [Executor.executeStep, hchoice] at hasks ⊢
  exact wp_hasRecord fun reply => hasks.2 reply

def BeginWith (firstId : String) (input : Json N) (executed : List (Executed N)) : Prop :=
  ∃ e ∈ executed.head?, e.step.id = firstId ∧ e.input = input

/-- A round leaves such steps, where it leaves any. -/
def RoundBegins (firstId : String) (input : Json N) : LoopState N ⊕ Option (Exit N) → Prop
  | .inl st => BeginWith firstId input st.executed
  | .inr none => True
  | .inr (some exit) => BeginWith firstId input exit.state.executed

section Begin

omit [BEq N] [LT N] [DecidableLT N]

variable {firstId : String} {st : LoopState N} {step : Step N}

def LoopState.Begun (firstId : String) (input : Json N) (st : LoopState N) : Prop :=
  st = { currentInput := input, currentStepId := firstId } ∨ BeginWith firstId input st.executed

theorem LoopState.Begun.recorded (h : st.Begun firstId input)
    (hstep : definition.stepMap st.currentStepId = some step)
    (result : Except WorkflowError (Json N)) :
    BeginWith firstId input (st.recorded step result).executed := by
  rcases h with rfl | ⟨e, he, hbegin⟩
  · exact ⟨_, rfl, (WorkflowDefinition.stepMap_some hstep).2, rfl⟩
  · exact ⟨e, List.mem_head?_append_of_mem_head? he, hbegin⟩

theorem RoundBegins.of_moves {next : LoopState N ⊕ Exit N}
    (hmoves : WorkflowDefinition.Moves st next) (h : BeginWith firstId input st.executed) :
    RoundBegins firstId input (next.map id some) := by
  rcases hmoves with ⟨index, rfl⟩ | ⟨id, index, flag, rfl⟩
  · exact h
  · exact h

end Begin

theorem wp_round_resuming {firstId : String} (hfirst : definition.stepMap firstId ≠ none)
    {st : LoopState N} (hst : st.Begun firstId input) :
    (ex.resumingWorld old).wp (fun next _ => RoundBegins firstId input next)
      (ex.round definition st) s := by
  rw [Executor.round]
  split
  · next hvisited =>
      rcases hst with rfl | hbegin
      · cases hvisited
      · exact hbegin
  · cases hstep : definition.stepMap st.currentStepId with
    | none =>
        rcases hst with rfl | hbegin
        · exact absurd hstep hfirst
        · exact hbegin
    | some step =>
        have hrecorded := hst.recorded hstep
        by_cases hchoice : stepType step = .choice
        · refine World.wp_bind (World.wp_mono (fun result s hrecord => ?_) (wp_choice hchoice))
          rcases result with (e | -) | output
          · exact hrecorded (.error e)
          · trivial
          · dsimp only
            rw [if_pos hchoice]
            refine World.wp_ask stable_hasRecord hrecord fun s reply s' hrecord hserve => ⟨?_, ?_⟩
            · cases reply with
              | error e => exact hrecorded (.ok output)
              | ok history =>
                  exact .of_moves (definition.afterChoice_moves _ step history)
                    (hrecorded (.ok output))
            · rintro reply' ⟨rfl, rfl⟩
              have hsame : s = s' := congrArg Prod.snd (Option.some.inj hserve)
              subst hsame
              change Interaction.done _ = Interaction.done _
              rw [afterChoice_append hrecord]
        · refine World.wp_bind (World.wp_mono (fun result s _ => ?_)
            (wp_true (asks_executeStep.mono not_readsHistory_of_ofStep)))
          rcases result with (e | -) | output
          · exact hrecorded (.error e)
          · trivial
          · dsimp only
            rw [if_neg hchoice]
            exact .of_moves (definition.afterStep_moves _ step) (hrecorded (.ok output))

def FromFirst (definition : WorkflowDefinition N) (input : Json N) (outcome : Option (Outcome N)) :
    Prop :=
  ∀ o ∈ outcome, ∀ first ∈ definition.steps.head?, BeginWith first.id input o.executed

/-- Whatever older records there are, the executor does the same, from the first step on. -/
theorem wp_execute_resuming (fuel : Nat) :
    (ex.resumingWorld old).wp (fun outcome _ => FromFirst definition input outcome)
      (ex.execute fuel definition input) s := by
  rw [Executor.execute]
  cases hsteps : definition.steps with
  | nil =>
      refine World.wp_mono (fun outcome s _ => ?_) (wp_true ⟨rfl, fun _ => trivial⟩)
      rw [FromFirst, hsteps]
      intro o _ first hfirst
      cases hfirst
  | cons first rest =>
      have hfirst : definition.stepMap first.id ≠ none :=
        WorkflowDefinition.stepMap_ne_none (hsteps ▸ List.mem_cons_self)
      have hloop : (ex.resumingWorld old).wp
          (fun exit _ => ∀ e, exit = some (some e) → BeginWith first.id input e.state.executed)
          (Interaction.loop (ex.round definition) fuel
            { currentInput := input, currentStepId := first.id }) s := by
        refine World.wp_loop (I := fun st _ => st.Begun first.id input)
          (fun st s hst => World.wp_mono (fun next s hnext => ?_) (wp_round_resuming hfirst hst))
          (fun _ e he => by cases he) (.inl rfl)
        rcases next with st' | - | exit
        · exact .inr hnext
        · intro e he
          cases he
        · rintro _ ⟨⟩
          exact hnext
      refine World.wp_bind (World.wp_mono (fun exit s hexit => ?_) hloop)
      rcases exit with - | - | exit
      · intro o ho
        cases ho
      · intro o ho
        cases ho
      · refine World.wp_bind (World.wp_mono (fun result s _ => ?_)
          (wp_true (asks_overCalls ((asks_conclude exit).mono
            not_readsHistory_of_updatesExecution))))
        rintro _ ⟨⟩ first' hfirst'
        rw [hsteps] at hfirst'
        cases hfirst'
        exact hexit exit rfl

end Loop

/-! ## Lockstep -/

section Lockstep

variable {ex : Executor N} {old : List (StepExecution N)} {s s' : Site N}

/-- The same site, with older records before those of this run. -/
def Site.after (old : List (StepExecution N)) (s : Site N) : Site N := { s with earlier := old }

/-- The second site is the first one with older records; no task reads the history. -/
structure ResumesFrom (old : List (StepExecution N)) (s s' : Site N) : Prop where
  same : s' = s.after old
  first : s.earlier = []
  tasks : TasksAsk (fun request => request.ofStep = true) s

theorem statement_after (request : Request N)
    (hrequest : (Call.statement request).readsHistory = false) :
    (s.after old).statement request =
      ((s.statement request).1, (s.statement request).2.after old) := by
  cases request with
  | getStepExecutionHistory => cases hrequest
  | _ => rfl

theorem ResumesFrom.other (h : ResumesFrom old s s') (move : Outside N) :
    ResumesFrom old (s.other move) (s'.other move) := by
  obtain ⟨rfl, hfirst, htasks⟩ := h
  refine ⟨?_, ?_, htasks.other move⟩
  · cases move with
    | task i =>
        have htask' : (s.after old).tasks[i]? = s.tasks[i]? := rfl
        rw [Site.other, Site.other, htask']
        cases htask : s.tasks[i]? with
        | none => rfl
        | some task =>
            cases task with
            | done result => rfl
            | ask request next =>
                have hask := (htasks _ (List.mem_of_getElem? htask)).1
                dsimp only
                rw [statement_after request (not_readsHistory_of_ofStep (.statement request) hask)]
                rfl
    | updateExecutionStatus status expectedVersion =>
        rw [updateExecutionStatus_other, updateExecutionStatus_other]
        change (if ∀ version ∈ expectedVersion, version = s.version then _ else _) = _
        split_ifs <;> rfl
    | _ => rfl
  · exact (earlier_other s move).trans hfirst

theorem serve_after {call : Call N} (hcall : call.readsHistory = false) :
    (s.after old).serve ex call =
      (s.serve ex call).map fun answered => (answered.1, answered.2.after old) := by
  cases call with
  | statement request => exact congrArg some (statement_after request hcall)
  | join task =>
      have htask : (s.after old).tasks[task]? = s.tasks[task]? := rfl
      rw [Site.serve, Site.serve, htask]
      cases s.tasks[task]? with
      | none => rfl
      | some p => cases p <;> rfl
  | _ => rfl

theorem ResumesFrom.blocked (h : ResumesFrom old s s') {call : Call N}
    (hserve : s.serve ex call = none) : s'.serve ex call = none := by
  obtain ⟨rfl, -, -⟩ := h
  cases hread : call.readsHistory with
  | false => rw [serve_after hread, hserve, Option.map_none]
  | true =>
      cases call with
      | join task => cases hread
      | _ => cases hserve

theorem ResumesFrom.serve (h : ResumesFrom old s s') {call : Call N} {answer : call.Answer}
    {next : Site N} (hserve : s.serve ex call = some (answer, next)) :
    ∃ answer' next', s'.serve ex call = some (answer', next') ∧ ResumesFrom old next next' ∧
      (answer' = answer ∨ (ex.resumingWorld old).alike call next answer answer') := by
  obtain ⟨rfl, hfirst, htasks⟩ := h
  have hnext : ResumesFrom old next (next.after old) :=
    ⟨rfl, (earlier_serve hserve).trans hfirst,
      htasks.serve (fun step input => asks_attemptTask _) hserve⟩
  cases hread : call.readsHistory with
  | false => exact ⟨answer, next.after old, by rw [serve_after hread, hserve]; rfl, hnext, .inl rfl⟩
  | true =>
      cases call with
      | statement request =>
          cases request with
          | getStepExecutionHistory =>
              have hsame := Option.some.inj hserve
              have hanswer : Except.ok (s.earlier ++ s.tables.stepExecutions) = answer :=
                congrArg Prod.fst hsame
              have hstate : s = next := congrArg Prod.snd hsame
              subst hstate
              rw [hfirst] at hanswer
              exact ⟨_, _, rfl, hnext, .inr ⟨hanswer.symm, rfl⟩⟩
          | _ => cases hread
      | _ => cases hread

variable [BEq N] [LT N] [DecidableLT N]

theorem run_after (ex : Executor N) (old : List (StepExecution N))
    (definition : WorkflowDefinition N) (input : Json N) (fuel : Nat) {s : Site N}
    (hfirst : s.earlier = []) (htasks : s.tasks = []) (turns : List (Turn (Outside N))) :
    (run ex.world.step ⟨s.after old, ex.execute fuel definition input⟩ turns).main =
        (run ex.world.step ⟨s, ex.execute fuel definition input⟩ turns).main ∧
      ResumesFrom old (run ex.world.step ⟨s, ex.execute fuel definition input⟩ turns).state
        (run ex.world.step ⟨s.after old, ex.execute fuel definition input⟩ turns).state := by
  have hstart : ResumesFrom old s (s.after old) := ⟨rfl, hfirst, fun task h => by
    rw [htasks] at h
    cases h⟩
  let m : Execution N := ⟨s, ex.execute fuel definition input⟩
  exact World.lockstep (w := ex.resumingWorld old) (m := m) (R := ResumesFrom old)
    (Q := fun outcome _ => FromFirst definition input outcome) (fun _ _ _ h => h)
    (fun _ _ move h => h.other move) (fun _ _ _ h hserve => h.blocked hserve)
    (fun _ _ _ _ _ h hserve => h.serve hserve) (wp_execute_resuming fuel) hstart turns

end Lockstep

section Resume

variable [BEq N] [LT N] [DecidableLT N] (ex : Executor N) (double : N → N)
  (definition : WorkflowDefinition N) (input : Json N) (fuel : Nat)

/-- The resumed run begins with the first step again, whatever was completed. -/
theorem resumed_fromFirst {s : Site N} {turns : List (Turn (Outside N))} {outcome : Outcome N}
    (hdone : (resumed ex double definition input fuel s turns).main = .done (some outcome)) :
    FromFirst definition (executionInput double input) (some outcome) :=
  World.wp_run (w := ex.resumingWorld [])
    (Q := fun outcome _ => FromFirst definition (executionInput double input) outcome)
    (fun _ _ _ h => h) (wp_execute_resuming fuel) hdone

/-- The resumed run is a run without interruption on the input that is read back, after the
records that are there. -/
theorem resumed_eq_uninterrupted (s : Site N) (turns : List (Turn (Outside N))) :
    (resumed ex double definition input fuel s turns).main =
        (uninterrupted ex definition (executionInput double input) fuel s turns).main ∧
      (resumed ex double definition input fuel s turns).state =
        (uninterrupted ex definition (executionInput double input) fuel s turns).state.after
          s.history ∧
      (uninterrupted ex definition (executionInput double input) fuel s turns).state.earlier =
        [] := by
  obtain ⟨hmain, hsame, hfirst, -⟩ :=
    run_after (s := s.unrecorded) ex s.history definition (executionInput double input) fuel rfl rfl
      turns
  exact ⟨hmain, hsame, hfirst⟩

theorem history_resumed (s : Site N) (turns : List (Turn (Outside N))) :
    (resumed ex double definition input fuel s turns).state.history =
      s.history ++
        (uninterrupted ex definition (executionInput double input) fuel s turns).state.history := by
  obtain ⟨-, hsame, hfirst⟩ := resumed_eq_uninterrupted ex double definition input fuel s turns
  have hown : (uninterrupted ex definition (executionInput double input) fuel s
      turns).state.history = (uninterrupted ex definition (executionInput double input) fuel s
        turns).state.tables.stepExecutions := by
    rw [Site.history, hfirst, List.nil_append]
  rw [hsame, hown]
  rfl

variable {definition input}

/-- A first step that records its input does so before anything else. -/
theorem execute_of_recordsInput (hrecords : definition.RecordsInput) (input : Json N)
    (fuel : Nat) : ∃ stepId next, ex.execute (fuel + 1) definition input =
      .ask (.statement (.createStepExecutionWithAttempt stepId input 1)) next := by
  obtain ⟨first, hfirst, step, hstep, hsome⟩ := hrecords
  obtain ⟨rest, hsteps⟩ := List.head?_eq_some_iff.mp hfirst
  rw [Executor.execute, hsteps]
  dsimp only
  rw [Interaction.loop, Executor.round, if_neg List.not_mem_nil]
  dsimp only
  rw [show definition.stepMap first.id = some step from hstep]
  dsimp only
  refine ⟨step.id, ?_⟩
  rw [Executor.executeStep]
  cases htype : stepType step with
  | parallel | map | choice | wait | signal => exact ⟨_, rfl⟩
  | task | unspecified =>
      have hattempts := hsome (by simp [htype])
      dsimp only
      rw [Executor.executeTaskStep]
      cases hmax : (step.retry.map (·.maxAttempts)).getD 1 with
      | succ maxAttempts => exact ⟨_, rfl⟩
      | zero =>
          cases hretry : step.retry.map (·.maxAttempts) with
          | none =>
              rw [hretry] at hmax
              cases hmax
          | some maxAttempts =>
              rw [hretry, Option.getD_some] at hmax
              exact absurd (hmax ▸ hretry) hattempts

/-- What the executor tells of the steps, on another input. -/
def Outcome.on (input : Json N) (outcome : Outcome N) : Outcome N :=
  { outcome with executed := outcome.executed.map fun e => { e with input } }

/-- Where the input is not recorded it shows in nothing else. -/
theorem execute_of_not_recordsInput (hnot : ¬definition.RecordsInput) (input input' : Json N)
    (fuel : Nat) : ex.execute fuel definition input' =
      (ex.execute fuel definition input).bind fun outcome =>
        .done (outcome.map (Outcome.on input')) := by
  rw [Executor.execute, Executor.execute]
  cases hsteps : definition.steps with
  | nil => rfl
  | cons first rest =>
      cases fuel with
      | zero => rfl
      | succ fuel =>
          have hmem : first ∈ definition.steps := hsteps ▸ List.mem_cons_self
          obtain ⟨step, hstep⟩ :=
            Option.ne_none_iff_exists'.mp (WorkflowDefinition.stepMap_ne_none hmem)
          have hzero : stepType step ∈ [.task, .unspecified] ∧
              step.retry.map (·.maxAttempts) = some 0 := by
            by_contra hrecords
            refine hnot ⟨first, hsteps ▸ rfl, step, hstep, fun htask hattempts => ?_⟩
            exact hrecords ⟨htask, hattempts⟩
          have hstuck : ∀ input, ex.executeStep step input =
              let reason := "Unknown error"
              throw (.failed (.execution
                s!"Step {step.id} failed after {0} attempts: {reason}")) := by
            intro input
            rw [Executor.executeStep]
            rcases List.mem_pair.mp hzero.1 with htype | htype
            · rw [htype]
              dsimp only
              rw [Executor.executeTaskStep, hzero.2]
              rfl
            · rw [htype]
              dsimp only
              rw [Executor.executeTaskStep, hzero.2]
              rfl
          dsimp only
          rw [Interaction.loop, Interaction.loop, Executor.round, Executor.round,
            if_neg List.not_mem_nil, if_neg List.not_mem_nil]
          dsimp only
          rw [hstep]
          dsimp only
          rw [hstuck, hstuck]
          rfl

theorem uninterrupted_of_not_recordsInput (hnot : ¬definition.RecordsInput) (input input' : Json N)
    (s : Site N) (turns : List (Turn (Outside N))) :
    uninterrupted ex definition input' fuel s turns =
      ⟨(uninterrupted ex definition input fuel s turns).state,
        (uninterrupted ex definition input fuel s turns).main.bind fun outcome =>
          .done (outcome.map (Outcome.on input'))⟩ := by
  rw [uninterrupted, execute_of_not_recordsInput ex hnot input input' fuel]
  exact World.run_map _ ⟨s.unrecorded, ex.execute fuel definition input⟩ turns

theorem firstRecord_uninterrupted (hrecords : definition.RecordsInput) {s : Site N}
    {turns : List (Turn (Outside N))} {outcome : Outcome N}
    (hdone : (uninterrupted ex definition input fuel s turns).main = .done (some outcome)) :
    ((uninterrupted ex definition input fuel s turns).state.history.map (·.input)).head? =
      some input := by
  have hearlier : (uninterrupted ex definition input fuel s turns).state.earlier = [] :=
    earlier_run ⟨s.unrecorded, ex.execute fuel definition input⟩ turns
  rw [Site.history, hearlier, List.nil_append]
  cases fuel with
  | zero =>
      obtain ⟨first, hfirst, -⟩ := hrecords
      obtain ⟨rest, hsteps⟩ := List.head?_eq_some_iff.mp hfirst
      have hnone : ex.execute 0 definition input = .done none := by
        rw [Executor.execute, hsteps]
        rfl
      rw [uninterrupted, hnone] at hdone
      let m : Execution N := ⟨s.unrecorded, .done none⟩
      have hover : ex.world.wp (fun outcome _ => outcome = none) m.main m.state := rfl
      cases World.wp_run (fun _ _ _ h => h) hover hdone
  | succ fuel =>
      obtain ⟨stepId, next, hask⟩ := execute_of_recordsInput ex hrecords input fuel
      rw [uninterrupted, hask] at hdone ⊢
      exact firstRecord_run rfl rfl hdone

variable (definition input)

/-- An execution is resumed properly if it has no record yet and its input is read back as it was
or is not recorded.  The first step of one that is resumed properly was not completed, and it
meets the condition unless it has both a record and an input that is read back differently. -/
theorem resumes_properly_iff (s : Site N) (turns : List (Turn (Outside N))) :
    (s.history = [] ∧ (executionInput double input = input ∨ ¬definition.RecordsInput) →
      ResumesProperly ex double definition input fuel s turns) ∧
    ∀ outcome, (uninterrupted ex definition input fuel s turns).main = .done (some outcome) →
      ResumesProperly ex double definition input fuel s turns →
        (∀ first ∈ definition.steps.head?, ∀ row ∈ s.history, row.status = .completed →
          row.stepId ≠ first.id) ∧
        (s.history = [] ∨ executionInput double input = input ∨ ¬definition.RecordsInput →
          s.history = [] ∧ (executionInput double input = input ∨ ¬definition.RecordsInput)) := by
  obtain ⟨hmain, hstate, -⟩ := resumed_eq_uninterrupted ex double definition input fuel s turns
  have hhistory := history_resumed ex double definition input fuel s turns
  -- Where the input does not matter, the two runs without interruption leave the same.
  have halike : executionInput double input = input ∨ ¬definition.RecordsInput →
      (∀ outcome, (uninterrupted ex definition input fuel s turns).main = .done (some outcome) →
        ∃ outcome', (uninterrupted ex definition (executionInput double input) fuel s turns).main =
          .done (some outcome')) ∧
      (uninterrupted ex definition (executionInput double input) fuel s turns).state =
        (uninterrupted ex definition input fuel s turns).state := by
    rintro (hinput | hnot)
    · rw [hinput]
      exact ⟨fun outcome hdone => ⟨outcome, hdone⟩, rfl⟩
    · rw [uninterrupted_of_not_recordsInput ex fuel hnot input
        (executionInput double input) s turns]
      refine ⟨fun outcome hdone => ⟨outcome.on (executionInput double input), ?_⟩, rfl⟩
      rw [hdone]
      rfl
  refine ⟨fun ⟨hnone, hinput⟩ => ⟨?_, ?_, ?_⟩, fun outcome hdone h => ⟨?_, fun hcase => ?_⟩⟩
  · rw [hnone]
    intro outcome _ e _ row hrow
    cases hrow
  · rw [hnone]
    intro outcome _ row hrow
    cases hrow
  · intro outcome hdone
    obtain ⟨hends, hsame⟩ := halike hinput
    refine ⟨hmain ▸ hends outcome hdone, ?_, ?_⟩
    · rw [hhistory, hnone, List.nil_append, hsame]
    · rw [hstate, hsame]
      rfl
  · intro first hfirst row hrow hcompleted
    obtain ⟨⟨outcome', hdone'⟩, -⟩ := h.ends outcome hdone
    obtain ⟨e, he, hid, -⟩ :=
      resumed_fromFirst ex double definition input fuel hdone' outcome' rfl first hfirst
    exact hid ▸ h.noRepeat outcome' hdone' e (List.mem_of_mem_head? he) row hrow hcompleted
  · obtain ⟨⟨outcome', hdone'⟩, hsame, -⟩ := h.ends outcome hdone
    rw [hhistory] at hsame
    by_cases hinput : executionInput double input = input ∨ ¬definition.RecordsInput
    · rw [(halike hinput).2] at hsame
      exact ⟨List.append_left_eq_self.mp hsame, hinput⟩
    · -- The first records of the two runs are about the two inputs.
      rw [not_or, not_not] at hinput
      have hnone := hcase.resolve_right (not_or.mpr ⟨hinput.1, not_not.mpr hinput.2⟩)
      rw [hnone, List.nil_append] at hsame
      have hfirst := firstRecord_uninterrupted ex fuel hinput.2 hdone
      have hfirst' := firstRecord_uninterrupted ex fuel hinput.2 (hmain ▸ hdone')
      rw [hsame, hfirst] at hfirst'
      exact absurd (Option.some.inj hfirst').symm hinput.1

end Resume

def WorkflowDefinition.twoTasks : WorkflowDefinition Nat where
  steps := [{ id := "download", type := 1 }, { id := "align", type := 1 }]

/-- The execution of the two tasks as the process leaves it that stops after some turns. -/
def interrupted (turns : List (Turn (Outside Nat))) : Site Nat :=
  (run Executor.echo.world.step
    ⟨Site.started, Executor.echo.execute 3 .twoTasks (.object [])⟩ turns).state

theorem resumes_properly_iff_twoTasks :
    ResumesProperly Executor.echo id .twoTasks (.object []) 3 (interrupted [])
      [.main, .main, .other (.wait 5), .main, .main, .main, .main] :=
  (resumes_properly_iff Executor.echo id .twoTasks (.object []) 3 (interrupted []) _).1
    ⟨rfl, .inl rfl⟩

/-- The first task is completed when the process stops; the resumed run executes it again. -/
theorem not_resumes_properly :
    ¬∀ before turns : List (Turn (Outside Nat)),
      ResumesProperly Executor.echo id .twoTasks (.object []) 3 (interrupted before) turns := by
  intro h
  have hproper := h [.main, .main] [.main, .main, .main, .main, .main, .main]
  generalize hturns : ([.main, .main, .main, .main, .main, .main] : List (Turn (Outside Nat))) =
    turns at hproper
  have hexecuted : ((resumed Executor.echo id .twoTasks (.object []) 3 (interrupted [.main, .main])
      turns).main.value?.join.map fun outcome => outcome.executed.map (·.step.id)) =
        some ["download", "align"] := by
    subst hturns
    decide +kernel
  obtain ⟨outcome, hvalue, hids⟩ := Option.map_eq_some_iff.mp hexecuted
  have hdone := Interaction.eq_done (Option.join_eq_some_iff.mp hvalue)
  have hrows : (interrupted [.main, .main]).history.map (fun row => (row.stepId, row.status)) =
      [("download", .completed)] := by decide +kernel
  have hmem : ("download", StepStatus.completed) ∈
      (interrupted [.main, .main]).history.map fun row => (row.stepId, row.status) := by
    rw [hrows]
    exact List.mem_singleton.mpr rfl
  have hfirst : "download" ∈ outcome.executed.map (·.step.id) := by
    rw [hids]
    exact List.mem_cons_self
  obtain ⟨row, hrow, hsame⟩ := List.mem_map.mp hmem
  obtain ⟨e, he, hid⟩ := List.mem_map.mp hfirst
  obtain ⟨hstep, hstatus⟩ := Prod.mk.inj hsame
  exact hproper.noRepeat outcome hdone e he row hrow hstatus (hstep.trans hid.symm)

end PlexSpaces.Workflow
