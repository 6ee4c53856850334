import PlexSpaces.Workflow.Tasks
/-!
# The records of a run

A record is open until it is completed or failed.  `Accounted own` says who will
close the open records of a run: the executor those in `own`, each spawned task
the one that it works on.  A step whose configuration is refused leaves its record
open, and may leave tasks behind.
-/

namespace PlexSpaces.Workflow

open PlexSpaces.Lib

variable {N : Type}

/-! ## The executor's statements -/

section Statements

variable {α β : Type}

theorem bind_assoc {Request : Type} {Ans : Request → Type} {γ : Type}
    (p : Interaction Ans α) (f : α → Interaction Ans β) (g : β → Interaction Ans γ) :
    (p >>= f) >>= g = p >>= fun a => f a >>= g := by
  change (p.bind f).bind g = p.bind fun a => (f a).bind g
  induction p with
  | done a => rfl
  | ask request next ih => exact congrArg (Interaction.ask _) (funext ih)

variable {ex : Executor N} {A : Site N → Prop} {s : Site N}

end Statements

/-! ## Open records -/

def StepStatus.Closed (status : StepStatus) : Prop := status = .completed ∨ status = .failed

def OpenAt (rows : List (StepExecution N)) (i : Nat) : Prop :=
  ∃ row, rows[i]? = some row ∧ ¬row.status.Closed

section OpenAt

variable {rows : List (StepExecution N)} {row : StepExecution N} {i j : Nat}

theorem OpenAt.lt (h : OpenAt rows i) : i < rows.length := by
  obtain ⟨row, hrow, -⟩ := h
  exact (List.getElem?_eq_some_iff.mp hrow).1

theorem openAt_append (hrow : ¬row.status.Closed) :
    OpenAt (rows ++ [row]) i ↔ i = rows.length ∨ OpenAt rows i := by
  rcases Nat.lt_trichotomy i rows.length with hlt | heq | hgt
  · rw [OpenAt, List.getElem?_append_left hlt, or_iff_right (Nat.ne_of_lt hlt)]
    rfl
  · rw [OpenAt, heq, List.getElem?_concat_length, eq_self, true_or, iff_true]
    exact ⟨row, rfl, hrow⟩
  · have hlen : rows.length + 1 ≤ i := hgt
    rw [OpenAt, List.getElem?_eq_none (by simpa using hlen), or_iff_right (Nat.ne_of_gt hgt)]
    exact ⟨nofun, fun h => absurd h.lt (by omega)⟩

theorem openAt_modify {f : StepExecution N → StepExecution N} (hf : ∀ row, (f row).status.Closed) :
    OpenAt (rows.modify j f) i ↔ i ≠ j ∧ OpenAt rows i := by
  rw [OpenAt, List.getElem?_modify]
  by_cases hij : i = j
  · subst hij
    simp only [if_true, ne_eq, not_true_eq_false, false_and, iff_false]
    rintro ⟨row, hrow, hopen⟩
    obtain ⟨row', -, rfl⟩ := Option.map_eq_some_iff.mp hrow
    exact hopen (hf row')
  · simp [OpenAt, hij, Ne.symm hij]

end OpenAt

def Task.holds : Task N → Option Nat
  | .ask (.completeStepExecution stepExecId _ _ _) _ => some stepExecId
  | _ => none

/-- A task is to open its record, to close it, or done. -/
inductive Task.Stage : Task N → Prop where
  | ended {result : Except WorkflowError (Json N)} : Stage (.done result)
  | closing {stepExecId : Nat} {status : StepStatus} {output : Option (Json N)}
      {error : Option String} {next : Except WorkflowError Unit → Task N} (hclosed : status.Closed)
      (hdone : ∀ reply, ∃ result, next reply = .done result) :
      Stage (.ask (.completeStepExecution stepExecId status output error) next)
  | opening {stepId : String} {input : Json N} {attempt : Nat}
      {next : Except WorkflowError Nat → Task N}
      (hclosing : ∀ stepExecId, Stage (next (.ok stepExecId)))
      (hholds : ∀ stepExecId, Task.holds (next (.ok stepExecId)) = some stepExecId) :
      Stage (.ask (.createStepExecutionWithAttempt stepId input attempt) next)

/-- The positions of the open records, each once. -/
structure Covers (rows : List (StepExecution N)) (ids : List Nat) : Prop where
  nodup : ids.Nodup
  mem : ∀ i, OpenAt rows i ↔ i ∈ ids

section Covers

variable {rows : List (StepExecution N)} {ids ids' : List Nat}

theorem Covers.perm (h : Covers rows ids) (hperm : ids.Perm ids') : Covers rows ids' where
  nodup := hperm.nodup_iff.mp h.nodup
  mem i := (h.mem i).trans hperm.mem_iff

theorem Covers.append (h : Covers rows ids) {row : StepExecution N} (hrow : ¬row.status.Closed) :
    Covers (rows ++ [row]) (rows.length :: ids) where
  nodup := by
    refine List.nodup_cons.mpr ⟨fun hmem => ?_, h.nodup⟩
    exact absurd ((h.mem _).mpr hmem).lt (Nat.lt_irrefl _)
  mem i := by rw [openAt_append hrow, List.mem_cons, h.mem]

theorem Covers.close {i : Nat} (h : Covers rows (i :: ids))
    {f : StepExecution N → StepExecution N} (hf : ∀ row, (f row).status.Closed) :
    Covers (rows.modify i f) ids where
  nodup := (List.nodup_cons.mp h.nodup).2
  mem j := by
    rw [openAt_modify hf, h.mem, List.mem_cons]
    constructor
    · rintro ⟨hne, heq | hmem⟩
      · exact absurd heq hne
      · exact hmem
    · exact fun hmem => ⟨fun heq => (List.nodup_cons.mp h.nodup).1 (heq ▸ hmem), .inr hmem⟩

end Covers

/-- The open records are those in `own` and those that the tasks work on. -/
structure Accounted (own : List Nat) (s : Site N) : Prop where
  stages : ∀ p ∈ s.tasks, Task.Stage p
  covers : Covers s.tables.stepExecutions (own ++ s.tasks.filterMap Task.holds)

section Accounted

variable {own : List Nat} {s : Site N}

theorem exists_split {tasks : List (Task N)} {i : Nat} {p : Task N} (h : tasks[i]? = some p) :
    ∃ pre post, tasks = pre ++ p :: post ∧ ∀ p', tasks.set i p' = pre ++ p' :: post := by
  obtain ⟨hlt, rfl⟩ := List.getElem?_eq_some_iff.mp h
  refine ⟨tasks.take i, tasks.drop (i + 1), ?_, fun p' => ?_⟩
  · rw [← List.drop_eq_getElem_cons hlt, List.take_append_drop]
  · rw [List.set_eq_take_append_cons_drop, if_pos hlt]

theorem held_perm (own : List Nat) (pre post : List (Task N)) (p : Task N) :
    (own ++ (pre ++ p :: post).filterMap Task.holds).Perm
      (p.holds.toList ++ (own ++ (pre ++ post).filterMap Task.holds)) := by
  have hcons : (p :: (pre ++ post)).filterMap Task.holds =
      p.holds.toList ++ (pre ++ post).filterMap Task.holds := by
    rw [List.filterMap_cons]
    cases p.holds <;> rfl
  calc
    (own ++ (pre ++ p :: post).filterMap Task.holds).Perm
        (own ++ (p :: (pre ++ post)).filterMap Task.holds) :=
      (List.perm_middle.filterMap Task.holds).append_left own
    _ = own ++ (p.holds.toList ++ (pre ++ post).filterMap Task.holds) := by rw [hcons]
    List.Perm _ (p.holds.toList ++ (own ++ (pre ++ post).filterMap Task.holds)) :=
      List.perm_append_comm_assoc ..

/-- Another stage of one task keeps the account, where the records follow it. -/
theorem Accounted.replace (h : Accounted own s) {i : Nat} {p p' : Task N}
    (htask : s.tasks[i]? = some p) (hstage : Task.Stage p') {tables : WorkflowStorage N}
    (hcovers : ∀ rest, Covers s.tables.stepExecutions (p.holds.toList ++ rest) →
      Covers tables.stepExecutions (p'.holds.toList ++ rest)) (version : Nat) :
    Accounted own { s with tables, version, tasks := s.tasks.set i p' } := by
  obtain ⟨pre, post, htasks, hset⟩ := exists_split htask
  constructor
  · intro q hq
    rcases List.mem_or_eq_of_mem_set hq with hq | rfl
    · exact h.stages q hq
    · exact hstage
  · have hbefore := h.covers
    rw [htasks] at hbefore
    have hafter := hcovers _ (hbefore.perm (held_perm own pre post p))
    dsimp only
    rw [hset p']
    exact hafter.perm (held_perm own pre post p').symm

theorem Accounted.task (h : Accounted own s) (i : Nat) : Accounted own (s.other (.task i)) := by
  rw [Site.other]
  split
  · next request next htask =>
      cases h.stages _ (List.mem_of_getElem? htask) with
      | opening hclosing hholds =>
          refine h.replace htask (hclosing _) (fun rest hcovers => ?_) _
          rw [hholds]
          exact hcovers.append nofun
      | @closing _ _ _ _ next hclosed hdone =>
          obtain ⟨result, hresult⟩ := hdone (.ok ())
          refine h.replace htask ?_ (fun rest hcovers => ?_) _
          · change Task.Stage (next (.ok ()))
            rw [hresult]
            exact .ended
          · change Covers _ ((Task.holds (next (.ok ()))).toList ++ rest)
            rw [hresult]
            exact hcovers.close fun _ => hclosed
  · exact h

/-- What happens between the statements of the executor keeps the account. -/
theorem Accounted.other (h : Accounted own s) (move : Outside N) :
    Accounted own (s.other move) := by
  cases move with
  | task i => exact h.task i
  | wait ms => exact ⟨h.stages, h.covers⟩
  | sendSignal signalName payload => exact ⟨h.stages, h.covers⟩
  | updateExecutionStatus status expectedVersion =>
      rw [Site.other]
      split_ifs
      · exact ⟨h.stages, h.covers⟩
      · exact h

/-- The first `n` of `len` tasks are done. -/
structure Joined (own : List Nat) (n len : Nat) (s : Site N) : Prop extends Accounted own s where
  length : s.tasks.length = len
  done : ∀ i < n, ∃ result, s.tasks[i]? = some (.done result)

/-- A task that is done stays so, and tasks do not vanish. -/
theorem tasks_other (s : Site N) (move : Outside N) :
    (s.other move).tasks.length = s.tasks.length ∧
      ∀ (i : Nat) result, s.tasks[i]? = some (.done result) →
        (s.other move).tasks[i]? = some (.done result) := by
  cases move with
  | task j =>
      rw [Site.other]
      split
      · next request next htask =>
          refine ⟨List.length_set .., fun i result hdone => ?_⟩
          have hne : j ≠ i := by
            rintro rfl
            rw [htask] at hdone
            cases hdone
          exact (List.getElem?_set_ne hne).trans hdone
      · exact ⟨rfl, fun _ _ hdone => hdone⟩
  | wait ms => exact ⟨rfl, fun _ _ hdone => hdone⟩
  | sendSignal signalName payload => exact ⟨rfl, fun _ _ hdone => hdone⟩
  | updateExecutionStatus status expectedVersion =>
      rw [Site.other]
      split_ifs
      · exact ⟨rfl, fun _ _ hdone => hdone⟩
      · exact ⟨rfl, fun _ _ hdone => hdone⟩

theorem Joined.other {n len : Nat} (h : Joined own n len s) (move : Outside N) :
    Joined own n len (s.other move) := by
  obtain ⟨hlength, hdone⟩ := tasks_other s move
  refine ⟨h.toAccounted.other move, hlength.trans h.length, fun i hi => ?_⟩
  obtain ⟨result, hresult⟩ := h.done i hi
  exact ⟨result, hdone i result hresult⟩

end Accounted

/-! ## What the statements of the executor do to the account -/

section Rules

variable {ex : Executor N} {own : List Nat} {n len : Nat} {s : Site N}

end Rules

/-! ## Bodies -/

section Bodies

variable {ex : Executor N} {own : List Nat} {n len : Nat} {s : Site N}

/-- No record is open, and all tasks are done. -/
def Settled (s : Site N) : Prop := ∃ n, Joined [] n n s

def Dangling (s : Site N) : Prop := ∃ stepExecId, Accounted [stepExecId] s

/-- A body that succeeds was well configured; one that was not leaves its record. -/
def StepPost (wellConfigured : Prop) (result : Except Halt (Json N)) (s : Site N) : Prop :=
  match result with
  | .ok _ => wellConfigured ∧ Settled s
  | .error (.failed _) => (wellConfigured → Settled s) ∧ (¬wellConfigured → Dangling s)
  | .error .stuck => True

variable {wellConfigured : Prop} {step : Step N} {input : Json N}

theorem StepPost.ok (hwell : wellConfigured) (hs : Joined [] n n s) (output : Json N) :
    StepPost wellConfigured (.ok output) s :=
  ⟨hwell, n, hs⟩

theorem StepPost.failed (hwell : wellConfigured) (hs : Joined [] n n s) (e : WorkflowError) :
    StepPost wellConfigured (.error (.failed e)) s :=
  ⟨fun _ => ⟨n, hs⟩, fun hnot => absurd hwell hnot⟩

section Choice

variable [BEq N] [LT N] [DecidableLT N]

/-- The configuration of the step is one that its body accepts. -/
def WellConfigured (step : Step N) (input : Json N) : Prop :=
  match stepType step with
  | .parallel => ∃ branches, (step.config.get "branches").bind Json.asArray = some branches ∧
      ∀ branch ∈ branches, ((branch.get "id").bind Json.asStr).isSome
  | .map => ∃ items, (step.config.get "items").bind Json.asArray = some items ∧
      (items = [] ∨ (step.config.get "iterator").isSome)
  | .choice => (decideChoice step input).isOk = true
  | .signal => ((step.config.get "signal_name").bind Json.asStr).isSome
  | .wait | .unspecified | .task => True

end Choice

end Bodies

/-! ## The loop -/

section Loop

variable [BEq N] [LT N] [DecidableLT N] {ex : Executor N} {definition : WorkflowDefinition N}
  {s : Site N}

/-- The steps that were executed decide whether a record is left. -/
def Leaves (executed : List (Executed N)) (s : Site N) : Prop :=
  ((∀ e ∈ executed, WellConfigured e.step e.input) → Settled s) ∧
    ((¬∀ e ∈ executed, WellConfigured e.step e.input) → Dangling s)

/-- All steps so far were well configured, and nothing is left of them. -/
structure LoopState.Clean (st : LoopState N) (s : Site N) : Prop where
  wellConfigured : ∀ e ∈ st.executed, WellConfigured e.step e.input
  settled : Settled s

theorem LoopState.Clean.leaves {st : LoopState N} (h : st.Clean s) : Leaves st.executed s :=
  ⟨fun _ => h.settled, fun hnot => absurd h.wellConfigured hnot⟩

theorem LoopState.Clean.recorded {st : LoopState N} (h : st.Clean s) {step : Step N}
    (hwell : WellConfigured step st.currentInput) {s' : Site N} (hs : Settled s')
    (output : Json N) :
    LoopState.Clean { st.recorded step (.ok output) with currentInput := output } s' where
  wellConfigured := by
    intro e he
    rcases List.mem_append.mp he with he | he
    · exact h.wellConfigured e he
    · exact List.mem_singleton.mp he ▸ hwell
  settled := hs

omit [BEq N] [LT N] [DecidableLT N] in
theorem asks_conclude (exit : Exit N) :
    (WorkflowDefinition.conclude exit).run.Asks fun request => request.updatesExecution = true := by
  cases exit with
  | ended st =>
      refine ⟨rfl, fun reply => ?_⟩
      cases reply with
      | ok => exact ⟨rfl, fun reply => by cases reply <;> trivial⟩
      | error e => trivial
  | failed st => exact ⟨rfl, fun reply => by cases reply <;> trivial⟩
  | aborted st e => trivial

omit [BEq N] [LT N] [DecidableLT N] in
theorem earlier_serve {call : Call N} {answer : call.Answer} {s' : Site N}
    (hserve : s.serve ex call = some (answer, s')) : s'.earlier = s.earlier := by
  cases call with
  | join task =>
      rw [Site.serve] at hserve
      split at hserve
      · cases hserve
        rfl
      · cases hserve
  | _ =>
      cases hserve
      rfl

omit [BEq N] [LT N] [DecidableLT N] in
theorem earlier_other (s : Site N) (move : Outside N) : (s.other move).earlier = s.earlier := by
  cases move with
  | task i =>
      rw [Site.other]
      split <;> rfl
  | updateExecutionStatus status expectedVersion =>
      rw [Site.other]
      split_ifs <;> rfl
  | _ => rfl

omit [BEq N] [LT N] [DecidableLT N] in
theorem earlier_run {α : Type} (m : Machine (Call.Answer (N := N)) (Site N) α)
    (turns : List (Turn (Outside N))) :
    (run ex.world.step m turns).state.earlier = m.state.earlier :=
  World.state_invariant (I := fun s : Site N => s.earlier = m.state.earlier)
    (fun _ _ _ _ hserve hs => (earlier_serve hserve).trans hs)
    (fun s move hs => (earlier_other s move).trans hs) rfl turns

omit [BEq N] [LT N] [DecidableLT N] in
theorem Settled.tasks_done (h : Settled s) : ∀ task ∈ s.tasks, ∃ result, task = .done result := by
  obtain ⟨n, h⟩ := h
  intro task htask
  obtain ⟨i, hi⟩ := List.mem_iff_getElem?.mp htask
  obtain ⟨result, hresult⟩ := h.done i (h.length ▸ (List.getElem?_eq_some_iff.mp hi).1)
  exact ⟨result, Option.some.inj (hi.symm.trans hresult)⟩

omit [BEq N] [LT N] [DecidableLT N] in
theorem Settled.closed (h : Settled s) :
    ∀ row ∈ s.tables.stepExecutions, row.status.Closed := by
  intro row hrow
  by_contra hopen
  obtain ⟨i, hi⟩ := List.mem_iff_getElem?.mp hrow
  have hdone := h.tasks_done
  obtain ⟨n, h⟩ := h
  have hmem := (h.covers.mem i).mp ⟨row, hi, hopen⟩
  obtain ⟨task, htask, hholds⟩ := List.mem_filterMap.mp hmem
  obtain ⟨result, rfl⟩ := hdone task htask
  cases hholds

end Loop

def Executor.echo : Executor Nat where
  simulateStepExecution := fun _ input _ => .ok input
  asU64 := id
  isDuration := fun _ => true
  isTimestamp := fun _ => false
  polls := 8

def WorkflowDefinition.fanOut (branches : List (Json Nat)) : WorkflowDefinition Nat where
  steps := [{ id := "fan-out", type := 2, config := .object [("branches", .array branches)] }]

end PlexSpaces.Workflow
