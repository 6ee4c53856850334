import PlexSpaces.Workflow.Walk
/-!
# The successor rule

`successor` is the rule for the next step: a Choice step goes where it decided, a
step entered from a Choice goes to its explicit next or ends, any other step goes
to its explicit next or to the step that follows it.  The loop finds a following
step through an index which explicit moves leave behind; `SequentialMovesAgree`
says along the path of the rule when that makes no difference.
-/

namespace PlexSpaces.Workflow

open PlexSpaces.Lib

variable {N : Type} [BEq N] [LT N] [DecidableLT N]

def selected (step : Step N) (input : Json N) : Option String :=
  match decideChoice step input with
  | .ok (taken, _) => taken
  | .error _ => none

namespace WorkflowDefinition

variable (definition : WorkflowDefinition N)

/-- The position of a step in the list, or the one given. -/
def position (id : String) (index : Nat) : Nat :=
  (definition.steps.findIdx? (·.id == id)).getD index

/-- The step that follows a step in the list. -/
def follower (id : String) : Option String :=
  (definition.steps.findIdx? (·.id == id)).bind fun pos =>
    definition.steps[pos + 1]?.map (·.id)

/-- The successor rule; it remembers whether a Choice selected the step. -/
def successor : Rule N Bool := fun entered step input =>
  if stepType step = .choice then
    (selected step input).map fun next => (next, true)
  else
    match stepNext step with
    | some next => some (next, false)
    | none => if entered then none else (definition.follower step.id).map fun next => (next, false)

/-- The bookkeeping of the loop: its index, and whether a Choice selected the step. -/
def advance : Rule N (Nat × Bool) := fun (index, entered) step input =>
  if stepType step = .choice then
    (selected step input).map fun next => (next, definition.position next index, true)
  else
    match stepNext step with
    | some next => some (next, index, false)
    | none =>
        if entered then none
        else definition.steps[index + 1]?.map fun step => (step.id, index + 1, false)

def rulePath (fuel : Nat) (bodies : StepBodies N) (initialInput : Json N) (s : WorkflowStorage N) :
    Option (List (Executed N)) :=
  definition.steps.head?.bind fun first =>
    definition.walk bodies definition.successor fuel ⟨first.id, false, initialInput, []⟩ s

/-- Along a path, wherever a step moves on sequentially, the step after the index is
the one that follows it, or neither is a step still to be executed. -/
def SequentialMovesAgree :
    (index : Nat) → (entered : Bool) → (seen : List String) → List (Executed N) → Prop
  | _, _, _, [] => True
  | index, entered, seen, ⟨step, input, result⟩ :: path =>
      let seen := seen ++ [step.id]
      match result with
      | .error _ => True
      | .ok _ =>
          if stepType step = .choice then
            ∀ next, selected step input = some next →
              SequentialMovesAgree (definition.position next index) true seen path
          else
            match stepNext step with
            | some _ => SequentialMovesAgree index false seen path
            | none => entered = false →
                definition.steps[index + 1]?.bind (fun step => definition.live seen step.id) =
                    (definition.follower step.id).bind (definition.live seen) ∧
                  SequentialMovesAgree (index + 1) false seen path

end WorkflowDefinition

/-! ## The record of a Choice step -/

theorem modify_concat {α : Type} (f : α → α) (l : List α) (a : α) :
    (l ++ [a]).modify l.length f = l ++ [f a] := by
  induction l with
  | nil => rfl
  | cons x l ih => exact congrArg (x :: ·) ih

/-- A Choice step that succeeds returns its input and leaves its decision in its record. -/
theorem executeChoiceStep_ok {step : Step N} {input output : Json N} {s s' : WorkflowStorage N}
    (hfaults : s.faults = [])
    (hexecute : Interaction.run WorkflowStorage.serve (executeChoiceStep step input).run s =
      (.ok output, s')) :
    ∃ condition, s'.stepExecutions = s.stepExecutions ++
      [⟨step.id, .completed, input, some (choiceRecord (selected step input) condition), none,
        1⟩] := by
  let created : WorkflowStorage N := { s with
    stepExecutions := s.stepExecutions ++ [⟨step.id, .running, input, none, none, 1⟩] }
  have hcreate : Interaction.run WorkflowStorage.serve (createStepExecution step.id input).run s =
      (.ok s.stepExecutions.length, created) :=
    WorkflowStorage.serve_of_no_faults hfaults
      (.createStepExecutionWithAttempt step.id input 1)
  rw [executeChoiceStep, Interaction.run_bindExcept, hcreate] at hexecute
  rw [selected]
  cases hdecide : decideChoice step input with
  | error e =>
      rw [hdecide] at hexecute
      cases hexecute
  | ok decision =>
      obtain ⟨taken, condition⟩ := decision
      let record := some (choiceRecord taken condition)
      have hcomplete : Interaction.run WorkflowStorage.serve
          (completeStepExecution s.stepExecutions.length .completed record none).run created =
          (.ok (), { created with
            stepExecutions := created.stepExecutions.modify s.stepExecutions.length fun row =>
              { row with status := .completed, output := record, error := none } }) :=
        WorkflowStorage.serve_of_no_faults (s := created) hfaults
          (.completeStepExecution s.stepExecutions.length .completed record none)
      rw [hdecide] at hexecute
      change Interaction.run WorkflowStorage.serve
        (completeStepExecution s.stepExecutions.length .completed record none >>=
          fun _ => pure input).run created = (.ok output, s') at hexecute
      rw [Interaction.run_bindExcept, hcomplete] at hexecute
      refine ⟨condition, ?_⟩
      cases hexecute
      exact modify_concat _ _ _

/-! ## The loop is the walk of its bookkeeping -/

namespace WorkflowDefinition

variable {definition : WorkflowDefinition N} {bodies : StepBodies N}

/-- The loop goes where the bookkeeping says, or ends where that is no step. -/
def GoesTo (definition : WorkflowDefinition N) (st : LoopState N) :
    Option (String × Nat × Bool) → LoopState N ⊕ Exit N → Prop
  | none, next => ∃ index, next = .inr (.ended { st with currentStepIndex := index })
  | some (id, index, entered), next =>
      definition.stepMap id = none ∧ next = .inr (.ended st) ∨
        definition.stepMap id ≠ none ∧
          next = .inl { st with
            currentStepId := id, currentStepIndex := index, choicePathTaken := entered }

omit [BEq N] [LT N] [DecidableLT N] in
theorem goesTo_of_isNone {st : LoopState N} {id : String} {index : Nat} {entered : Bool} :
    definition.GoesTo st (some (id, index, entered))
      (if (definition.stepMap id).isNone then .inr (.ended st)
      else .inl { st with
        currentStepId := id, currentStepIndex := index, choicePathTaken := entered }) := by
  by_cases hmissing : definition.stepMap id = none
  · exact .inl ⟨hmissing, if_pos (Option.isNone_iff_eq_none.mpr hmissing)⟩
  · exact .inr ⟨hmissing, if_neg fun h => hmissing (Option.isNone_iff_eq_none.mp h)⟩

theorem afterChoice_goesTo (st : LoopState N) {step : Step N} {input : Json N}
    (hchoice : stepType step = .choice) (rows : List (StepExecution N)) (condition : Json N) :
    definition.GoesTo st
      (definition.advance (st.currentStepIndex, st.choicePathTaken) step input)
      (definition.afterChoice st step (rows ++
        [⟨step.id, .completed, input, some (choiceRecord (selected step input) condition), none,
          1⟩])) := by
  rw [advance, if_pos hchoice, afterChoice, List.reverse_concat, List.find?_cons, beq_self_eq_true]
  cases selected step input with
  | none => exact ⟨st.currentStepIndex, rfl⟩
  | some next => exact goesTo_of_isNone

theorem afterStep_goesTo (st : LoopState N) {step : Step N} (input : Json N)
    (hchoice : stepType step ≠ .choice) :
    definition.GoesTo st
      (definition.advance (st.currentStepIndex, st.choicePathTaken) step input)
      (definition.afterStep st step) := by
  obtain ⟨currentInput, index, visited, entered, current, executed⟩ := st
  rw [advance, if_neg hchoice, afterStep]
  cases stepNext step with
  | some next =>
      cases entered with
      | true => exact goesTo_of_isNone
      | false => exact goesTo_of_isNone
  | none =>
      cases entered with
      | true => exact ⟨index, rfl⟩
      | false =>
          rw [if_neg Bool.false_ne_true, if_neg Bool.false_ne_true]
          dsimp only
          cases hfollowing : definition.steps[index + 1]? with
          | none => exact ⟨index + 1, rfl⟩
          | some following =>
              exact .inr ⟨stepMap_ne_none (List.mem_of_getElem? hfollowing), rfl⟩

def walkOf (st : LoopState N) : WalkState N (Nat × Bool) :=
  ⟨st.currentStepId, (st.currentStepIndex, st.choicePathTaken), st.currentInput, st.executed⟩

omit [BEq N] [LT N] [DecidableLT N] in
theorem mem_visited {st : LoopState N} (hgood : st.Good definition) (id : String) :
    id ∈ st.visited ↔ id ∈ st.executed.map (·.step.id) := by
  rw [hgood.trace, List.mem_reverse]

omit [BEq N] [LT N] [DecidableLT N] in
theorem length_visited {st : LoopState N} (hgood : st.Good definition) :
    st.visited.length = st.executed.length := by
  rw [hgood.trace, List.length_reverse, List.length_map]

omit [BEq N] [LT N] [DecidableLT N] in
theorem fuel_recorded {fuel : Nat} {st : LoopState N} {step : Step N} {output : Json N}
    (hrecorded :
      LoopState.Good definition { st.recorded step (.ok output) with currentInput := output })
    (hfuel : definition.steps.length - st.executed.length < fuel + 1) :
    definition.steps.length - (st.recorded step (.ok output)).executed.length < fuel := by
  have hle := hrecorded.length_visited_le
  have hlength := length_visited hrecorded
  have hmore : (st.recorded step (.ok output)).executed.length = st.executed.length + 1 :=
    List.length_append
  dsimp only at hle hlength
  omega

/-- Without faults a round after a successful step goes where the bookkeeping says. -/
theorem round_goesTo {st : LoopState N} {s s' : WorkflowStorage N} {step : Step N}
    {output : Json N} (hfaults : s.faults = []) (hfresh : st.currentStepId ∉ st.visited)
    (hstep : definition.stepMap st.currentStepId = some step)
    (hexecute : Interaction.run WorkflowStorage.serve
      (executeStep bodies step st.currentInput).run s = (.ok output, s')) :
    ∃ next, Interaction.run WorkflowStorage.serve (definition.round bodies st) s = (next, s') ∧
      definition.GoesTo { st.recorded step (.ok output) with currentInput := output }
        (definition.advance (st.currentStepIndex, st.choicePathTaken) step st.currentInput)
        next := by
  have hfaults' := WorkflowStorage.no_faults_of_run hexecute hfaults
  by_cases hchoice : stepType step = .choice
  · rw [run_round_choice hfresh hstep hexecute hchoice,
      WorkflowStorage.serve_of_no_faults hfaults']
    rw [executeStep, hchoice] at hexecute
    obtain ⟨condition, hrows⟩ := executeChoiceStep_ok hfaults hexecute
    refine ⟨_, rfl, ?_⟩
    have hread : (WorkflowStorage.perform .getStepExecutionHistory s').1 = s'.stepExecutions := rfl
    rw [hread, hrows]
    exact afterChoice_goesTo { st.recorded step (.ok output) with currentInput := output } hchoice
      s.stepExecutions condition
  · exact ⟨_, run_round_step hfresh hstep hexecute hchoice, afterStep_goesTo _ _ hchoice⟩

variable (bodies) in
/-- Over tables without faults the loop executes the path of its bookkeeping. -/
theorem loop_walk (fuel : Nat) (st : LoopState N) (s : WorkflowStorage N)
    (hgood : st.Good definition) (hfaults : s.faults = [])
    (hfuel : definition.steps.length - st.executed.length < fuel) :
    ∃ exit s', Interaction.run WorkflowStorage.serve
        (Interaction.loop (definition.round bodies) fuel st) s = (some exit, s') ∧
      definition.walk bodies definition.advance fuel (walkOf st) s =
        some exit.state.executed := by
  induction fuel generalizing st s with
  | zero => exact absurd hfuel (Nat.not_lt_zero _)
  | succ fuel ih =>
      by_cases hseen : st.currentStepId ∈ st.visited
      · rw [Interaction.run_loop_succ, run_round_repeated hseen]
        exact ⟨_, s, rfl, walk_repeated ((mem_visited hgood _).mp hseen)⟩
      have hfresh : (walkOf st).current ∉ (walkOf st).path.map (·.step.id) :=
        fun hmem => hseen ((mem_visited hgood _).mpr hmem)
      cases hstep : definition.stepMap st.currentStepId with
      | none =>
          obtain ⟨e, hround⟩ := run_round_missing bodies s hseen hstep
          rw [Interaction.run_loop_succ, hround]
          exact ⟨_, s, rfl, walk_missing hfresh hstep⟩
      | some step =>
          rcases hexecute : Interaction.run WorkflowStorage.serve
            (executeStep bodies step st.currentInput).run s with ⟨result, s'⟩
          cases result with
          | error e =>
              rw [Interaction.run_loop_succ, run_round_failed hseen hstep hexecute]
              exact ⟨_, s', rfl, walk_failed hfresh hstep hexecute⟩
          | ok output =>
              have hfaults' := WorkflowStorage.no_faults_of_run hexecute hfaults
              have hrecorded := hgood.recorded hseen hstep output
              have hless := fuel_recorded hrecorded hfuel
              obtain ⟨next, hround, hgoes⟩ := round_goesTo hfaults hseen hstep hexecute
              rw [Interaction.run_loop_succ, hround, walk_step hfresh hstep hexecute]
              change definition.GoesTo _ (definition.advance (walkOf st).memory step
                (walkOf st).input) next at hgoes
              cases hadvance : definition.advance (walkOf st).memory step (walkOf st).input with
              | none =>
                  rw [hadvance] at hgoes
                  obtain ⟨index, rfl⟩ := hgoes
                  exact ⟨_, s', rfl, rfl⟩
              | some target =>
                  obtain ⟨id, index, entered⟩ := target
                  rw [hadvance] at hgoes
                  rcases hgoes with ⟨hmissing, rfl⟩ | ⟨hthere, rfl⟩
                  · exact ⟨_, s', rfl, walk_dead (by omega) (.inr hmissing)⟩
                  · exact ih _ s' (hrecorded.move id index entered) hfaults' hless

/-! ## The bookkeeping against the rule -/

section Agree

variable {fuel : Nat} {seen : List String} {path tail : List (Executed N)} {step : Step N}
  {input output : Json N} {s' : WorkflowStorage N}

omit [BEq N] [LT N] [DecidableLT N] in
theorem eq_of_live {id id' : String} (hlive : definition.live seen id = some id') : id' = id := by
  rw [live] at hlive
  split_ifs at hlive
  obtain ⟨step, hstep, rfl⟩ := Option.map_eq_some_iff.mp hlive
  exact (stepMap_some hstep).2

omit [BEq N] [LT N] [DecidableLT N] in
/-- Two targets that lead to one step are the same target. -/
theorem live_eq_none_of_ne {target target' : Option String} (hne : target ≠ target')
    (hlive : target.bind (definition.live seen) = target'.bind (definition.live seen)) :
    target'.bind (definition.live seen) = none := by
  cases hsome : target'.bind (definition.live seen) with
  | none => rfl
  | some id =>
      obtain ⟨a, ha, hlive_a⟩ := Option.bind_eq_some_iff.mp (hlive.trans hsome)
      obtain ⟨b, hb, hlive_b⟩ := Option.bind_eq_some_iff.mp hsome
      exact absurd (by rw [ha, hb, ← eq_of_live hlive_a, ← eq_of_live hlive_b]) hne

/-- Under the condition the tails are one, and without it they differ in their ids. -/
def OneTail (tail tail' : List (Executed N)) (agree : Prop) : Prop :=
  (agree → tail = tail') ∧ (tail.map (·.step.id) = tail'.map (·.step.id) → agree)

omit [BEq N] [LT N] [DecidableLT N] in
theorem OneTail.nil {agree : Prop} (hagree : agree) :
    OneTail ([] : List (Executed N)) [] agree :=
  ⟨fun _ => rfl, fun _ => hagree⟩

omit [BEq N] [LT N] [DecidableLT N] in
theorem OneTail.cons {tail' : List (Executed N)} {agree : Prop} (e : Executed N)
    (hone : OneTail tail tail' agree) : OneTail (e :: tail) (e :: tail') agree :=
  ⟨fun h => congrArg (e :: ·) (hone.1 h), fun h => hone.2 (List.cons.inj h).2⟩

omit [BEq N] [LT N] [DecidableLT N] in
theorem OneTail.congr {tail' : List (Executed N)} {agree agree' : Prop}
    (hone : OneTail tail tail' agree) (hiff : agree ↔ agree') : OneTail tail tail' agree' :=
  ⟨fun h => hone.1 (hiff.mpr h), fun h => hiff.mp (hone.2 h)⟩

/-- Where a walk goes on from a successful step, if it does. -/
def goOn (definition : WorkflowDefinition N) (bodies : StepBodies N) {μ : Type} (rule : Rule N μ)
    (fuel : Nat) (path : List (Executed N)) (output : Json N) (s : WorkflowStorage N) :
    Option (String × μ) → Option (List (Executed N))
  | none => some path
  | some (next, memory) => definition.walk bodies rule fuel ⟨next, memory, output, path⟩ s

variable (bodies output s') in
theorem goOn_total {μ : Type} {rule : Rule N μ} (hfits : definition.Fits path)
    (hfuel : definition.steps.length - path.length < fuel) (target : Option (String × μ)) :
    ∃ tail, definition.goOn bodies rule fuel path output s' target = some (path ++ tail) ∧
      tail.head?.map (·.step.id) =
        (target.map (·.1)).bind (definition.live (path.map (·.step.id))) := by
  cases target with
  | none => exact ⟨[], by rw [goOn, List.append_nil], rfl⟩
  | some target => exact walk_total fuel ⟨target.1, target.2, output, path⟩ s' hfits hfuel

/-- Two walks that go on to different targets agree exactly when neither leads anywhere. -/
theorem goOn_of_ne {μ ν : Type} (bodies : StepBodies N) (rule : Rule N μ) (rule' : Rule N ν)
    (output : Json N) (s' : WorkflowStorage N) (target : Option (String × μ))
    (target' : Option (String × ν)) (hfits : definition.Fits path)
    (hfuel : definition.steps.length - path.length < fuel)
    (hne : target.map (·.1) ≠ target'.map (·.1)) :
    ∃ tail tail',
      definition.goOn bodies rule fuel path output s' target = some (path ++ tail) ∧
      definition.goOn bodies rule' fuel path output s' target' = some (path ++ tail') ∧
      OneTail tail tail' ((target.map (·.1)).bind (definition.live (path.map (·.step.id))) =
        (target'.map (·.1)).bind (definition.live (path.map (·.step.id)))) ∧
      ((target.map (·.1)).bind (definition.live (path.map (·.step.id))) =
        (target'.map (·.1)).bind (definition.live (path.map (·.step.id))) → tail' = []) := by
  obtain ⟨tail, hgo, hhead⟩ := goOn_total bodies output s' hfits hfuel target
  obtain ⟨tail', hgo', hhead'⟩ := goOn_total bodies output s' hfits hfuel target'
  have hempty : ∀ {l : List (Executed N)}, l.head?.map (·.step.id) = none → l = [] := by
    intro l hl
    exact List.head?_eq_none_iff.mp (Option.map_eq_none_iff.mp hl)
  refine ⟨tail, tail', hgo, hgo', ⟨?_, ?_⟩, ?_⟩
  · intro hlive
    have hnone := live_eq_none_of_ne hne hlive
    rw [hempty (hhead.trans (hlive.trans hnone)), hempty (hhead'.trans hnone)]
  · intro hids
    have hheads : tail.head?.map (·.step.id) = tail'.head?.map (·.step.id) := by
      rw [← List.head?_map, ← List.head?_map, hids]
    exact hhead.symm.trans (hheads.trans hhead')
  · exact fun hlive => hempty (hhead'.trans (live_eq_none_of_ne hne hlive))

theorem walk_goOn {μ : Type} {rule : Rule N μ} (w : WalkState N μ) {s : WorkflowStorage N}
    (hfresh : w.current ∉ w.path.map (·.step.id))
    (hstep : definition.stepMap w.current = some step)
    (hexecute : Interaction.run WorkflowStorage.serve
      (executeStep bodies step w.input).run s = (.ok output, s')) :
    definition.walk bodies rule (fuel + 1) w s =
      definition.goOn bodies rule fuel (w.path ++ [⟨step, w.input, .ok output⟩]) output s'
        (rule w.memory step w.input) := by
  rw [walk_step hfresh hstep hexecute]
  cases rule w.memory step w.input with
  | none => rfl
  | some next => rfl

variable {index : Nat} {entered : Bool}

theorem agree_choice (hchoice : stepType step = .choice) :
    definition.SequentialMovesAgree index entered seen (⟨step, input, .ok output⟩ :: tail) ↔
      ∀ next, selected step input = some next →
        definition.SequentialMovesAgree (definition.position next index) true (seen ++ [step.id])
          tail := by
  rw [SequentialMovesAgree]
  simp only [if_pos hchoice]

theorem agree_explicit (hchoice : stepType step ≠ .choice) {next : String}
    (hnext : stepNext step = some next) :
    definition.SequentialMovesAgree index entered seen (⟨step, input, .ok output⟩ :: tail) ↔
      definition.SequentialMovesAgree index false (seen ++ [step.id]) tail := by
  rw [SequentialMovesAgree]
  simp only [if_neg hchoice, hnext]

theorem agree_sequential (hchoice : stepType step ≠ .choice) (hnext : stepNext step = none) :
    definition.SequentialMovesAgree index entered seen (⟨step, input, .ok output⟩ :: tail) ↔
      (entered = false →
        definition.steps[index + 1]?.bind
            (fun following => definition.live (seen ++ [step.id]) following.id) =
          (definition.follower step.id).bind (definition.live (seen ++ [step.id])) ∧
        definition.SequentialMovesAgree (index + 1) false (seen ++ [step.id]) tail) := by
  rw [SequentialMovesAgree]
  simp only [if_neg hchoice, hnext]

variable (definition bodies) in
/-- With this fuel the two walks take one path exactly when the sequential moves agree. -/
def WalksAgree (fuel : Nat) : Prop :=
  ∀ (current : String) (index : Nat) (entered : Bool) (input : Json N) (path : List (Executed N))
    (s : WorkflowStorage N), definition.Fits path →
    definition.steps.length - path.length < fuel →
    ∃ tail tail',
      definition.walk bodies definition.advance fuel ⟨current, (index, entered), input, path⟩ s =
        some (path ++ tail) ∧
      definition.walk bodies definition.successor fuel ⟨current, entered, input, path⟩ s =
        some (path ++ tail') ∧
      OneTail tail tail'
        (definition.SequentialMovesAgree index entered (path.map (·.step.id)) tail')

variable (index output s') in
/-- A sequential move: the index and the list give the same step, or different ones. -/
theorem goOn_sequential (hagree : WalksAgree definition bodies fuel)
    (hfits : definition.Fits path) (hfuel : definition.steps.length - path.length < fuel)
    (current : String) :
    ∃ tail tail',
      definition.goOn bodies definition.advance fuel path output s'
          (definition.steps[index + 1]?.map fun step => (step.id, index + 1, false)) =
        some (path ++ tail) ∧
      definition.goOn bodies definition.successor fuel path output s'
          ((definition.follower current).map fun next => (next, false)) = some (path ++ tail') ∧
      OneTail tail tail'
        (definition.steps[index + 1]?.bind
            (fun following => definition.live (path.map (·.step.id)) following.id) =
          (definition.follower current).bind (definition.live (path.map (·.step.id))) ∧
        definition.SequentialMovesAgree (index + 1) false (path.map (·.step.id)) tail') := by
  by_cases hsame : definition.steps[index + 1]?.map (·.id) = definition.follower current
  · rw [← hsame]
    cases definition.steps[index + 1]? with
    | none =>
        exact ⟨[], [], by simp [goOn], by simp [goOn], .nil (by simp [SequentialMovesAgree])⟩
    | some following =>
        obtain ⟨tail, tail', hwalk, hwalk', hone⟩ :=
          hagree following.id (index + 1) false output path s' hfits hfuel
        exact ⟨tail, tail', hwalk, hwalk', hone.congr ⟨fun h => ⟨rfl, h⟩, fun h => h.2⟩⟩
  · obtain ⟨tail, tail', hgo, hgo', hone, hnil⟩ := goOn_of_ne bodies definition.advance
      definition.successor output s'
      (definition.steps[index + 1]?.map fun step => (step.id, index + 1, false))
      ((definition.follower current).map fun next => (next, false)) hfits hfuel (by
        simpa [Option.map_map, Function.comp_def] using hsame)
    simp only [Option.map_map, Option.bind_map, Function.comp_def, Option.map_id_fun', id]
      at hone hnil
    refine ⟨tail, tail', hgo, hgo', hone.congr ⟨fun hlive => ⟨hlive, ?_⟩, fun h => h.1⟩⟩
    rw [hnil hlive]
    simp [SequentialMovesAgree]

variable (index entered s') in
/-- After a step that succeeded the two walks agree if they do with less fuel. -/
theorem goOn_agree (hagree : WalksAgree definition bodies fuel)
    (hfits : definition.Fits (path ++ [⟨step, input, .ok output⟩]))
    (hfuel : definition.steps.length - (path ++ [(⟨step, input, .ok output⟩ : Executed N)]).length <
      fuel) :
    ∃ tail tail',
      definition.goOn bodies definition.advance fuel (path ++ [⟨step, input, .ok output⟩]) output s'
          (definition.advance (index, entered) step input) =
        some ((path ++ [⟨step, input, .ok output⟩]) ++ tail) ∧
      definition.goOn bodies definition.successor fuel (path ++ [⟨step, input, .ok output⟩]) output
          s' (definition.successor entered step input) =
        some ((path ++ [⟨step, input, .ok output⟩]) ++ tail') ∧
      OneTail tail tail' (definition.SequentialMovesAgree index entered (path.map (·.step.id))
        (⟨step, input, .ok output⟩ :: tail')) := by
  have hids : (path ++ [(⟨step, input, .ok output⟩ : Executed N)]).map (·.step.id) =
      path.map (·.step.id) ++ [step.id] := List.map_append
  rw [advance, successor]
  by_cases hchoice : stepType step = .choice
  · simp only [if_pos hchoice, agree_choice hchoice, ← hids]
    cases selected step input with
    | none => exact ⟨[], [], by simp [goOn], by simp [goOn], .nil (by simp)⟩
    | some next =>
        obtain ⟨tail, tail', hwalk, hwalk', hone⟩ :=
          hagree next (definition.position next index) true output _ s' hfits hfuel
        refine ⟨tail, tail', hwalk, hwalk', hone.congr ⟨?_, fun h => h next rfl⟩⟩
        rintro h _ ⟨⟩
        exact h
  · simp only [if_neg hchoice]
    cases hnext : stepNext step with
    | some next =>
        simp only [agree_explicit hchoice hnext, ← hids]
        exact hagree next index false output _ s' hfits hfuel
    | none =>
        simp only [agree_sequential hchoice hnext, ← hids]
        cases entered with
        | true => exact ⟨[], [], by simp [goOn], by simp [goOn], .nil (by simp)⟩
        | false =>
            obtain ⟨tail, tail', hgo, hgo', hone⟩ :=
              goOn_sequential output s' index hagree hfits hfuel step.id
            exact ⟨tail, tail', hgo, hgo', hone.congr ⟨fun h _ => h, fun h => h rfl⟩⟩

theorem walksAgree (definition : WorkflowDefinition N) (bodies : StepBodies N) (fuel : Nat) :
    WalksAgree definition bodies fuel := by
  induction fuel with
  | zero => exact fun _ _ _ _ _ _ _ hfuel => absurd hfuel (Nat.not_lt_zero _)
  | succ fuel ih =>
      intro current index entered input path s hfits hfuel
      by_cases hseen : current ∈ path.map (·.step.id)
      · refine ⟨[], [], ?_, ?_, .nil (by simp [SequentialMovesAgree])⟩
        · rw [List.append_nil]
          exact walk_repeated hseen
        · rw [List.append_nil]
          exact walk_repeated hseen
      cases hstep : definition.stepMap current with
      | none =>
          refine ⟨[], [], ?_, ?_, .nil (by simp [SequentialMovesAgree])⟩
          · rw [List.append_nil]
            exact walk_missing hseen hstep
          · rw [List.append_nil]
            exact walk_missing hseen hstep
      | some step =>
          rcases hexecute : Interaction.run WorkflowStorage.serve
            (executeStep bodies step input).run s with ⟨result, s'⟩
          cases result with
          | error e =>
              exact ⟨_, _, walk_failed hseen hstep hexecute, walk_failed hseen hstep hexecute,
                fun _ => rfl, fun _ => by simp [SequentialMovesAgree]⟩
          | ok output =>
              have hfits' := hfits.concat hseen hstep input (.ok output)
              obtain ⟨tail, tail', hgo, hgo', hone⟩ :=
                goOn_agree s' index entered ih hfits' (hfits'.fuel hfuel)
              refine ⟨_ :: tail, _ :: tail', ?_, ?_, hone.cons _⟩
              · rw [walk_goOn ⟨current, (index, entered), input, path⟩ hseen hstep hexecute]
                exact hgo.trans (congrArg some (List.append_assoc _ _ _))
              · rw [walk_goOn ⟨current, entered, input, path⟩ hseen hstep hexecute]
                exact hgo'.trans (congrArg some (List.append_assoc _ _ _))

end Agree

end WorkflowDefinition

open WorkflowDefinition in
/-- Over tables without faults the executor takes the path of the successor rule
exactly when the sequential moves along this path agree with its index. -/
theorem executeWorkflowLoop_follows_iff (bodies : StepBodies N) (definition : WorkflowDefinition N)
    (initialInput : Json N) (s : WorkflowStorage N) (hsteps : definition.steps ≠ [])
    (hfaults : s.faults = []) {fuel : Nat} (hfuel : definition.steps.length < fuel) :
    ∃ outcome s' path, Interaction.run WorkflowStorage.serve
        (executeWorkflowLoop fuel bodies definition initialInput) s = (some outcome, s') ∧
      definition.rulePath fuel bodies initialInput s = some path ∧
      (outcome.executed.map (·.step.id) = path.map (·.step.id) ↔
        definition.SequentialMovesAgree 0 false [] path) ∧
      (definition.SequentialMovesAgree 0 false [] path → outcome.executed = path) := by
  obtain ⟨first, rest, hcons⟩ := List.exists_cons_of_ne_nil hsteps
  obtain ⟨exit, s₁, hloop, hwalk⟩ := loop_walk bodies fuel
    { currentInput := initialInput, currentStepId := first.id } s
    (LoopState.good_start definition initialInput first.id) hfaults (Nat.lt_of_le_of_lt
      (Nat.sub_le _ _) hfuel)
  obtain ⟨executed, path, hexecuted, hpath, hone⟩ := walksAgree definition bodies fuel first.id 0
    false initialInput [] s ⟨List.nodup_nil, List.nil_subset _⟩
    (Nat.lt_of_le_of_lt (Nat.sub_le _ _) hfuel)
  have hsame : exit.state.executed = executed := by
    have h := hwalk.symm.trans hexecuted
    exact Option.some.inj h
  rcases hlast : Interaction.run WorkflowStorage.serve (conclude exit).run s₁ with ⟨result, s'⟩
  refine ⟨⟨result, exit.state.executed⟩, s', path, ?_, ?_, ⟨?_, ?_⟩, ?_⟩
  · rw [executeWorkflowLoop, hcons]
    simp only [Interaction.run_bind, hloop, hlast]
    rfl
  · rw [rulePath, hcons]
    exact hpath
  · exact fun hids => hone.2 (hsame ▸ hids)
  · exact fun hagree => by rw [hsame, hone.1 hagree]
  · exact fun hagree => hsame.trans (hone.1 hagree)

theorem executeWorkflowLoop_follows_iff_cycle :
    ∃ outcome s' path, Interaction.run WorkflowStorage.serve
        (executeWorkflowLoop 3 .echo .cycle .null) { status := .running } = (some outcome, s') ∧
      WorkflowDefinition.cycle.rulePath 3 .echo .null { status := .running } = some path ∧
      (outcome.executed.map (·.step.id) = path.map (·.step.id) ↔
        WorkflowDefinition.cycle.SequentialMovesAgree 0 false [] path) ∧
      (WorkflowDefinition.cycle.SequentialMovesAgree 0 false [] path → outcome.executed = path) :=
  executeWorkflowLoop_follows_iff .echo .cycle .null { status := .running } (List.cons_ne_nil _ _)
    rfl (by decide)

/-- The first step names the third as its next; the second and the fourth follow no one. -/
def WorkflowDefinition.skipping : WorkflowDefinition Nat where
  steps := [{ id := "A", type := 1, dependsOn := ["C"] }, { id := "B", type := 1 },
    { id := "C", type := 1 }, { id := "D", type := 1 }]

theorem not_executeWorkflowLoop_follows :
    (WorkflowDefinition.skipping.steps.map (·.id)).Nodup ∧
    ∃ outcome path, (Interaction.run WorkflowStorage.serve
        (executeWorkflowLoop 5 .echo .skipping .null) { status := .running }).1 = some outcome ∧
      WorkflowDefinition.skipping.rulePath 5 .echo .null { status := .running } = some path ∧
      (∀ e ∈ outcome.executed, ∃ output, e.result = .ok output) ∧
      outcome.executed.map (·.step.id) ≠ path.map (·.step.id) := by
  have hrun : (Interaction.run WorkflowStorage.serve
      (executeWorkflowLoop 5 .echo .skipping .null) { status := .running }).1.map
        (fun outcome => outcome.executed.map fun e => (e.step.id, e.result.isOk)) =
      some [("A", true), ("C", true), ("B", true)] := by decide +kernel
  have hrule : (WorkflowDefinition.skipping.rulePath 5 .echo .null { status := .running }).map
      (fun path => path.map (·.step.id)) = some ["A", "C", "D"] := by decide +kernel
  obtain ⟨outcome, houtcome, hexecuted⟩ := Option.map_eq_some_iff.mp hrun
  obtain ⟨path, hpath, hids⟩ := Option.map_eq_some_iff.mp hrule
  refine ⟨by decide, outcome, path, houtcome, hpath, ?_, ?_⟩
  · intro e he
    have hmem := List.mem_map_of_mem (f := fun e : Executed Nat => (e.step.id, e.result.isOk)) he
    rw [hexecuted] at hmem
    cases hresult : e.result with
    | ok output => exact ⟨output, rfl⟩
    | error error => simp [hresult, Except.isOk, Except.toBool] at hmem
  · have hfst : outcome.executed.map (·.step.id) = ["A", "C", "B"] := by
      have h := congrArg (List.map Prod.fst) hexecuted
      rwa [List.map_map] at h
    rw [hfst, hids]
    decide

end PlexSpaces.Workflow
