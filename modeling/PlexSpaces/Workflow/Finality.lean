import PlexSpaces.Workflow.Records
/-!
# Terminal states

The status of an execution is written by the executor, as its last statement, and
by updates from outside; neither looks at the status that is there.  Where updates
to a terminal status wait until the executor and its tasks have stopped, and no
update comes after a terminal one, terminal states are final.
-/

namespace PlexSpaces.Workflow

open PlexSpaces.Lib

variable {N : Type}

def ExecutionStatus.Terminal (status : ExecutionStatus) : Prop :=
  status ∈ [.completed, .failed, .cancelled, .timedOut]

instance (status : ExecutionStatus) : Decidable status.Terminal :=
  inferInstanceAs (Decidable (status ∈ _))

def Call.updatesStatus : Call N → Bool
  | statement (.updateExecutionStatus _) => true
  | _ => false

/-- The executor among the others, at some point of its run. -/
abbrev Execution (N : Type) := Machine (Call.Answer (N := N)) (Site N) (Option (Outcome N))

/-- The executor has stopped, and so have its tasks. -/
def Stopped (m : Execution N) : Prop :=
  (∃ outcome, m.main = .done outcome) ∧ ∀ task ∈ m.state.tasks, ∃ result, task = .done result

/-- An update from outside that is not refused for its version finds an execution that is not
terminal, or leaves its status; to a terminal status it comes when the executor has stopped. -/
def Orderly (m : Execution N) : Turn (Outside N) → Prop
  | .other (.updateExecutionStatus status expectedVersion) =>
      (∀ version ∈ expectedVersion, version = m.state.version) →
        (m.state.tables.status.Terminal → status = m.state.tables.status) ∧
          (status.Terminal → Stopped m)
  | _ => True

variable (ex : Executor N)

/-- The turn does not lead from a terminal status to another one. -/
def KeepsTerminal (m : Execution N) (turn : Turn (Outside N)) : Prop :=
  m.state.tables.status.Terminal →
    (ex.world.step m turn).state.tables.status = m.state.tables.status

/-- Terminal states are final, and no record is created once the execution was cancelled. -/
structure FinalStates (m : Execution N) (turns : List (Turn (Outside N))) : Prop where
  terminal : Along ex.world.step (KeepsTerminal ex) m turns
  cancelled : ∀ before after, turns = before ++ .other .cancelExecution :: after →
    (run ex.world.step m turns).state.history.length =
      (run ex.world.step m before).state.history.length

/-! ## The status is written last -/

section EndsAt

variable {ex} [BEq N] [LT N] [DecidableLT N] {definition : WorkflowDefinition N} {input : Json N}

omit [BEq N] [LT N] [DecidableLT N] in
theorem not_updatesStatus_of_ofStep (call : Call N) (h : call.ofStep = true) :
    ¬call.updatesStatus = true := by
  cases call with
  | statement request =>
      cases request with
      | updateExecutionStatus => cases h
      | _ => exact Bool.false_ne_true
  | _ => exact Bool.false_ne_true

theorem asks_round (st : LoopState N) :
    (ex.round definition st).Asks fun call => ¬call.updatesStatus = true := by
  rw [Executor.round]
  split
  · trivial
  · cases definition.stepMap st.currentStepId with
    | none => trivial
    | some step =>
        refine (asks_executeStep.mono not_updatesStatus_of_ofStep).bind fun result => ?_
        rcases result with (e | -) | output
        · trivial
        · trivial
        · dsimp only
          split
          · refine Interaction.Asks.bind ?_ fun reply => ?_
            · exact ⟨Bool.false_ne_true, fun _ => trivial⟩
            · cases reply <;> trivial
          · trivial

omit [BEq N] [LT N] [DecidableLT N] in
theorem endsAt_conclude (exit : Exit N) :
    (overCalls (WorkflowDefinition.conclude exit).run).EndsAt
      fun call => call.updatesStatus = true := by
  have hlast : ∀ status, (overCalls (N := N) (updateExecutionStatus status).run).EndsAt
      fun call => call.updatesStatus = true :=
    fun _ => ⟨fun _ reply => ⟨reply, rfl⟩, fun _ => trivial⟩
  cases exit with
  | ended st =>
      refine ⟨nofun, fun reply => ?_⟩
      cases reply with
      | ok => exact hlast .completed
      | error e => trivial
  | failed st => exact hlast .failed
  | aborted st e => trivial

theorem endsAt_execute (fuel : Nat) :
    (ex.execute fuel definition input).EndsAt fun call => call.updatesStatus = true := by
  rw [Executor.execute]
  cases definition.steps with
  | nil =>
      refine Interaction.EndsAt.bind_pure ?_ _
      exact ⟨fun _ reply => ⟨reply, rfl⟩, fun _ => trivial⟩
  | cons first rest =>
      refine Interaction.EndsAt.bind_of_asks (Interaction.asks_loop asks_round _ _) fun exit => ?_
      rcases exit with - | - | exit
      · trivial
      · trivial
      · exact (endsAt_conclude exit).bind_pure _

end EndsAt

/-! ## Runs -/

def TasksQuiet (s : Site N) : Prop :=
  ∀ task ∈ s.tasks, Interaction.Asks (fun request => request.updatesExecution = false) task

def TasksAsk (allowed : Request N → Prop) (s : Site N) : Prop :=
  ∀ task ∈ s.tasks, Interaction.Asks allowed task

/-- The executor writes the status last, and while it runs the status is not terminal. -/
structure InProgress (m : Execution N) : Prop where
  last : m.main.EndsAt fun call => call.updatesStatus = true
  quiet : TasksQuiet m.state
  notTerminal : (∃ outcome, m.main = .done outcome) ∨ ¬m.state.tables.status.Terminal

section Runs

variable {ex} {m : Execution N} {s s' : Site N}

theorem asks_executeTaskStep (step : Step N) (input : Json N) :
    (ex.executeTaskStep step input).run.Asks fun request => request.updatesExecution = false := by
  refine Interaction.Asks.mono (fun request h => ?_) (asks_attemptTask _)
  cases request with
  | createStepExecutionWithAttempt | completeStepExecution => rfl
  | _ => cases h

theorem serve_status {call : Call N} {answer : call.Answer}
    (hserve : s.serve ex call = some (answer, s')) (hcall : call.updatesStatus = false) :
    s'.tables.status = s.tables.status := by
  cases call with
  | statement request =>
      cases hserve
      cases request with
      | updateExecutionStatus => cases hcall
      | _ => rfl
  | join task =>
      rw [Site.serve] at hserve
      split at hserve
      · cases hserve
        rfl
      · cases hserve
  | _ =>
      cases hserve
      rfl

theorem TasksAsk.serve {allowed : Request N → Prop}
    (htask : ∀ step input, (ex.executeTaskStep step input).run.Asks allowed)
    (h : TasksAsk allowed s) {call : Call N} {answer : call.Answer}
    (hserve : s.serve ex call = some (answer, s')) : TasksAsk allowed s' := by
  cases call with
  | statement request =>
      cases hserve
      exact h
  | spawn step input =>
      cases hserve
      intro task hmem
      rcases List.mem_append.mp hmem with hmem | hmem
      · exact h task hmem
      · exact List.mem_singleton.mp hmem ▸ htask step input
  | join task =>
      rw [Site.serve] at hserve
      split at hserve
      · cases hserve
        exact h
      · cases hserve
  | _ =>
      cases hserve
      exact h

theorem TasksAsk.other {allowed : Request N → Prop} (h : TasksAsk allowed s) (move : Outside N) :
    TasksAsk allowed (s.other move) := by
  cases move with
  | task i =>
      rw [Site.other]
      split
      · next request next htask =>
          intro task hmem
          rcases List.mem_or_eq_of_mem_set hmem with hmem | rfl
          · exact h task hmem
          · exact (h _ (List.mem_of_getElem? htask)).2 _
      · exact h
  | updateExecutionStatus status expectedVersion =>
      rw [Site.other]
      split_ifs
      · exact h
      · exact h
  | _ => exact h

theorem TasksQuiet.serve (h : TasksQuiet s) {call : Call N} {answer : call.Answer}
    (hserve : s.serve ex call = some (answer, s')) : TasksQuiet s' :=
  TasksAsk.serve asks_executeTaskStep h hserve

theorem TasksQuiet.other (h : TasksQuiet s) (move : Outside N) : TasksQuiet (s.other move) :=
  TasksAsk.other h move

theorem TasksQuiet.status_task (h : TasksQuiet s) (i : Nat) :
    (s.other (.task i)).tables.status = s.tables.status := by
  rw [Site.other]
  split
  · next request next htask =>
      have hquiet := (h _ (List.mem_of_getElem? htask)).1
      cases request with
      | updateExecutionStatus | updateExecutionOutput => cases hquiet
      | _ => rfl
  · rfl

theorem updateExecutionStatus_other (s : Site N) (status : ExecutionStatus)
    (expectedVersion : Option Nat) :
    s.other (.updateExecutionStatus status expectedVersion) =
      if ∀ version ∈ expectedVersion, version = s.version then
        { s with tables := { s.tables with status }, version := s.version + 1 }
      else s := rfl

theorem Stopped.step (h : Stopped m) (turn : Turn (Outside N)) :
    Stopped (ex.world.step m turn) ∧
      (ex.world.step m turn).state.history = m.state.history := by
  obtain ⟨⟨outcome, hmain⟩, htasks⟩ := h
  cases turn with
  | main =>
      rw [World.step, hmain]
      exact ⟨⟨⟨outcome, hmain⟩, htasks⟩, rfl⟩
  | other move =>
      have hstate : (m.state.other move).tasks = m.state.tasks ∧
          (m.state.other move).history = m.state.history := by
        cases move with
        | task i =>
            rw [Site.other]
            split
            · next request next htask =>
                obtain ⟨result, hdone⟩ := htasks _ (List.mem_of_getElem? htask)
                cases hdone
            · exact ⟨rfl, rfl⟩
        | updateExecutionStatus status expectedVersion =>
            rw [updateExecutionStatus_other]
            split_ifs
            · exact ⟨rfl, rfl⟩
            · exact ⟨rfl, rfl⟩
        | _ => exact ⟨rfl, rfl⟩
      exact ⟨⟨⟨outcome, hmain⟩, hstate.1.symm ▸ htasks⟩, hstate.2⟩

theorem InProgress.step (h : InProgress m) {turn : Turn (Outside N)} (horderly : Orderly m turn) :
    KeepsTerminal ex m turn ∧ InProgress (ex.world.step m turn) := by
  obtain ⟨s, main⟩ := m
  cases turn with
  | main =>
      cases main with
      | done outcome => exact ⟨fun _ => rfl, h⟩
      | ask call next =>
          have hopen : ¬s.tables.status.Terminal := by
            rcases h.notTerminal with ⟨outcome, hdone⟩ | hopen
            · cases hdone
            · exact hopen
          refine ⟨fun hterminal => absurd hterminal hopen, ?_⟩
          rw [World.step]
          dsimp only
          split
          · exact h
          · next answer s' hserve =>
              refine ⟨h.last.2 answer, h.quiet.serve hserve, ?_⟩
              cases hcall : call.updatesStatus with
              | true => exact .inl (h.last.1 hcall answer)
              | false => exact .inr (serve_status hserve hcall ▸ hopen)
  | other move =>
      have hsame : (s.other move).tables.status = s.tables.status →
          KeepsTerminal ex ⟨s, main⟩ (.other move) ∧
            InProgress (ex.world.step ⟨s, main⟩ (.other move)) := by
        intro hstatus
        refine ⟨fun _ => hstatus, h.last, h.quiet.other move,
          h.notTerminal.imp_right fun hopen => ?_⟩
        change ¬(s.other move).tables.status.Terminal
        rwa [hstatus]
      cases move with
      | task i => exact hsame (h.quiet.status_task i)
      | updateExecutionStatus status expectedVersion =>
          by_cases hversion : ∀ version ∈ expectedVersion, version = s.version
          · obtain ⟨hkept, hstopped⟩ := horderly hversion
            have hstate := (updateExecutionStatus_other s status expectedVersion).trans
              (if_pos hversion)
            refine ⟨fun hterminal => ?_, h.last, h.quiet.other _, ?_⟩
            · change (s.other _).tables.status = s.tables.status
              rw [hstate]
              exact hkept hterminal
            · by_cases hterminal : status.Terminal
              · exact .inl (hstopped hterminal).1
              · right
                change ¬(s.other _).tables.status.Terminal
                rwa [hstate]
          · exact hsame (by rw [updateExecutionStatus_other, if_neg hversion])
      | _ => exact hsame rfl

variable [BEq N] [LT N] [DecidableLT N] (ex)

/-- Of an execution that is not terminal when the executor starts, the terminal states are final
in every run with orderly updates. -/
theorem terminal_states_final (definition : WorkflowDefinition N) (input : Json N) (fuel : Nat)
    {s : Site N} (hstart : ¬s.tables.status.Terminal) {turns : List (Turn (Outside N))}
    (horderly : Along ex.world.step Orderly ⟨s.newRun, ex.execute fuel definition input⟩ turns) :
    FinalStates ex ⟨s.newRun, ex.execute fuel definition input⟩ turns := by
  have hinit : InProgress ⟨s.newRun, ex.execute fuel definition input⟩ :=
    ⟨endsAt_execute fuel, nofun, .inr hstart⟩
  refine ⟨horderly.of_invariant (fun _ _ h horderly => h.step horderly) hinit, ?_⟩
  rintro before after rfl
  generalize (⟨s.newRun, ex.execute fuel definition input⟩ : Execution N) = m at horderly ⊢
  have hcancel : Stopped (run ex.world.step m before) := by
    have hbefore : Along ex.world.step Orderly m (before ++ [.other .cancelExecution]) :=
      horderly.initial ⟨after, by simp⟩
    exact (((along_concat _ _ _ _).mp hbefore).2 nofun).2 (by decide)
  have hrest : Stopped (run ex.world.step m (before ++ .other .cancelExecution :: after)) ∧
      (run ex.world.step m (before ++ .other .cancelExecution :: after)).state.history =
        (run ex.world.step m before).state.history := by
    rw [run, List.foldl_append]
    refine run_invariant (I := fun m' : Execution N => Stopped m' ∧
      m'.state.history = (run ex.world.step m before).state.history) ?_ ⟨hcancel, rfl⟩
    rintro turn - m' ⟨hstopped, hhistory⟩
    obtain ⟨hnext, hsame⟩ := hstopped.step turn
    exact ⟨hnext, hsame.trans hhistory⟩
  exact congrArg List.length hrest.2

end Runs

/-- A Map step that lets no item run: the executor panics. -/
def WorkflowDefinition.panicking : WorkflowDefinition Nat where
  steps := [{ id := "map", type := 3, config := .object [("items", .array [.null]),
    ("iterator", .null), ("max_concurrency", .number 0)] }]

theorem terminal_states_final_panicking :
    FinalStates Executor.echo ⟨Site.started.newRun, Executor.echo.execute 2 .panicking .null⟩
      [.main, .other .cancelExecution, .other (.wait 5)] := by
  refine terminal_states_final Executor.echo .panicking .null 2 (by decide)
    ⟨trivial, fun _ => ⟨fun hterminal => absurd hterminal (by decide +kernel), fun _ => ?_⟩,
      trivial, trivial⟩
  refine ⟨?_, nofun⟩
  have hdone : (Executor.echo.world.step
      ⟨Site.started.newRun, Executor.echo.execute 2 .panicking .null⟩ .main).main.value?.isSome =
        true := by decide +kernel
  obtain ⟨outcome, hvalue⟩ := Option.isSome_iff_exists.mp hdone
  exact ⟨outcome, Interaction.eq_done hvalue⟩

/-- The execution is cancelled, and the executor completes it. -/
theorem not_terminal_states_final :
    ¬∀ turns : List (Turn (Outside Nat)), FinalStates Executor.echo
      ⟨Site.started.newRun, Executor.echo.execute 2 (.fanOut []) .null⟩ turns := by
  intro h
  obtain ⟨-, -, -, -, hlast, -⟩ :=
    (h [.main, .other .cancelExecution, .main, .main, .main]).terminal
  have hkept := hlast (by decide +kernel)
  revert hkept
  decide +kernel

end PlexSpaces.Workflow
