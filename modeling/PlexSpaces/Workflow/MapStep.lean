import PlexSpaces.Lib.JsonNumber
import PlexSpaces.Lib.Progress
import PlexSpaces.Workflow.MapLoop
/-!
# Map steps

A Map step spawns a task for each of its items, a batch of them at a time, and waits for the tasks
of a batch in the order of the items.  The tasks go on in any order.  What the step returns is the
outputs in the order of the items, or the error of the first item that fails
(`executeMapStep_iff`).  The size of a batch comes from the configuration, and no batch is made
with the size 0: the step panics.
-/

namespace PlexSpaces.Workflow

open PlexSpaces.Lib

variable {N : Type}

def itemResult (ex : Executor N) (stepId : String) (iterator : Json N) :
    Json N × Nat → Except WorkflowError (Json N)
  | (item, index) =>
      let step := Executor.itemStep stepId iterator index item
      match ex.simulateStepExecution step item 1 with
      | .ok output => .ok output
      | .error errorMsg =>
          .error (.execution s!"Step {step.id} failed after {1} attempts: {errorMsg}")

/-- The tasks since `base` that are not done. -/
def Site.unfinished (base : Nat) (s : Site N) : Nat :=
  (s.tasks.drop base).countP (·.value?.isNone)

def itemResults (ex : Executor N) (stepId : String) (iterator : Json N) (items : List (Json N)) :
    List (Except WorkflowError (Json N)) :=
  items.zipIdx.map (itemResult ex stepId iterator)

def mapRun (ex : Executor N) (step : Step N) (input : Json N) (s : Site N)
    (turns : List (Turn (Outside N))) :
    Machine (Call.Answer (N := N)) (Site N) (Except Halt (Json N)) :=
  run ex.world.step ⟨s, (ex.executeMapStepByIndex step input).run⟩ turns

/-- `json_as_u64` of a number. -/
def numberAsU64 (n : JsonNumber) : Nat := (n.asU64.getD (Binary64.toU64 n.asF64)).toNat

def Executor.withJsonNumbers (ex : Executor JsonNumber) : Executor JsonNumber :=
  { ex with asU64 := numberAsU64 }

/-- In every run the step does not panic, no more items than a positive `max_concurrency` are
unfinished at a time, the step can always come to its end, and it ends with the outputs in the order
of the items, or with the error of the first item that fails, which is the first one of the first
batch with a failure. -/
structure MapsInOrder (ex : Executor JsonNumber) (step : Step JsonNumber)
    (iterator : Json JsonNumber) (items : List (Json JsonNumber)) (input : Json JsonNumber)
    (s : Site JsonNumber) : Prop where
  noPanic : ∀ turns, (mapRun ex step input s turns).main ≠ .done (.error .stuck)
  bounded : ∀ turns n, step.config.get "max_concurrency" = some (.number n) → 0 < n.value →
    ((mapRun ex step input s turns).state.unfinished s.tasks.length * Binary64.one : Int) ≤ n.value
  returns : ∀ turns, ∃ more result,
    (mapRun ex step input s (turns ++ more)).main = .done result
  inOrder : ∀ {turns result}, (mapRun ex step input s turns).main = .done result →
    ∀ {outputs}, itemResults ex step.id iterator items = outputs.map .ok →
      result = .ok (.array outputs)
  firstFailure : ∀ {turns result}, (mapRun ex step input s turns).main = .done result →
    ∀ {i : Nat} {e : WorkflowError}, (itemResults ex step.id iterator items)[i]? = some (.error e) →
      (∀ j < i, ∃ output, (itemResults ex step.id iterator items)[j]? = some (.ok output)) →
        result = .error (.failed (.execution e.display))

/-! ## The tasks of the items -/

section Pool

/-- Whatever the storage answers, the task ends with this result. -/
def Yields (result : Except WorkflowError (Json N)) : Task N → Prop
  | .done a => a = result
  | .ask _ next => ∀ answer, Yields result (next (.ok answer))

/-- Since `base` there are tasks with these results; the first `joined` of them are done. -/
structure Pool (base : Nat) (results : List (Except WorkflowError (Json N))) (joined : Nat)
    (s : Site N) : Prop where
  length : s.tasks.length = base + results.length
  joined_le : joined ≤ results.length
  yields : ∀ {i result}, results[i]? = some result → ∃ task, s.tasks[base + i]? = some task ∧
    Yields result task ∧ (i < joined → task = .done result)

variable {ex : Executor N} {base joined limit : Nat}
  {results : List (Except WorkflowError (Json N))} {s s' : Site N}

theorem statement_fst (request : Request N) (s : Site N) :
    ∃ answer, (s.statement request).1 = .ok answer := by
  cases request <;> exact ⟨_, rfl⟩

theorem tasks_statement (request : Request N) (s : Site N) :
    (s.statement request).2.tasks = s.tasks := rfl

theorem Pool.of_tasks_eq (h : Pool base results joined s) (htasks : s'.tasks = s.tasks) :
    Pool base results joined s' := by
  refine ⟨?_, h.joined_le, fun hresult => ?_⟩
  · rw [htasks]
    exact h.length
  · rw [htasks]
    exact h.yields hresult

theorem Pool.other (h : Pool base results joined s) (move : Outside N) :
    Pool base results joined (s.other move) := by
  cases move with
  | wait ms => exact h.of_tasks_eq rfl
  | sendSignal signalName payload => exact h.of_tasks_eq rfl
  | updateExecutionStatus status expectedVersion =>
      rw [Site.other]
      split
      · exact h.of_tasks_eq rfl
      · exact h
  | task task =>
      rw [Site.other]
      split
      · next request next hrequest =>
          obtain ⟨answer, hanswer⟩ := statement_fst request s
          have hmoved : Pool base results joined
              { s with tasks := s.tasks.set task (next (.ok answer)) } := by
            refine ⟨?_, h.joined_le, fun {i result} hresult => ?_⟩
            · exact (List.length_set).trans h.length
            · obtain ⟨t, ht, hyields, hdone⟩ := h.yields hresult
              by_cases hi : task = base + i
              · subst hi
                cases hrequest.symm.trans ht
                refine ⟨next (.ok answer), ?_, hyields answer, fun hlt => ?_⟩
                · rw [List.getElem?_set_self (List.getElem?_eq_some_iff.mp ht).1]
                · cases hdone hlt
              · refine ⟨t, ?_, hyields, hdone⟩
                rw [List.getElem?_set_ne hi, ht]
          dsimp only
          rw [hanswer]
          exact hmoved.of_tasks_eq rfl
      · exact h

theorem Pool.stable : ex.world.Stable (Pool (N := N) base results joined) :=
  fun _ move h => h.other move

theorem Pool.unfinished_le (h : Pool base results joined s)
    (hroom : results.length ≤ joined + limit) : s.unfinished base ≤ limit := by
  have hlength : (s.tasks.drop base).length = results.length := by
    rw [List.length_drop, h.length, Nat.add_sub_cancel_left]
  have hjoined : ((s.tasks.drop base).take joined).countP (·.value?.isNone) = 0 := by
    refine List.countP_eq_zero.mpr fun task htask hnone => ?_
    obtain ⟨i, hi⟩ := List.getElem?_of_mem htask
    rw [List.getElem?_take] at hi
    split at hi
    · next hlt =>
      have hbound := (List.getElem?_eq_some_iff.mp hi).1
      have hlt' : i < results.length := by omega
      obtain ⟨t, ht, -, hdone⟩ := h.yields (List.getElem?_eq_getElem hlt')
      rw [List.getElem?_drop, ht] at hi
      cases hi
      rw [hdone hlt] at hnone
      cases hnone
    · cases hi
  have hrest := List.countP_le_length (p := fun task : Task N => task.value?.isNone)
    (l := (s.tasks.drop base).drop joined)
  rw [List.length_drop, hlength] at hrest
  rw [Site.unfinished, ← List.take_append_drop joined (s.tasks.drop base), List.countP_append,
    hjoined]
  omega

theorem Yields.leads {i : Nat} {result : Except WorkflowError (Json N)} {task : Task N}
    (h : Yields result task) (htask : s.tasks[i]? = some task) :
    ∃ s', ex.world.Leads s s' ∧ s'.tasks[i]? = some (.done result) := by
  induction task generalizing s with
  | done a =>
      cases h
      exact ⟨s, .refl, htask⟩
  | ask request next ih =>
      obtain ⟨answer, hanswer⟩ := statement_fst request s
      have hmoved : (s.other (.task i)).tasks[i]? = some (next (.ok answer)) := by
        rw [Site.other]
        simp only [htask, hanswer]
        exact List.getElem?_set_self (List.getElem?_eq_some_iff.mp htask).1
      obtain ⟨s', ⟨moves, hmoves⟩, hdone⟩ := ih (.ok answer) (h answer) hmoved
      exact ⟨s', ⟨.task i :: moves, hmoves⟩, hdone⟩

theorem Pool.finishes {i : Nat} {result : Except WorkflowError (Json N)}
    (h : Pool base results joined s) (hresult : results[i]? = some result) :
    ∃ s', ex.world.Leads s s' ∧ s'.tasks[base + i]? = some (.done result) := by
  obtain ⟨task, htask, hyields, -⟩ := h.yields hresult
  exact hyields.leads htask

theorem yields_itemStep (ex : Executor N) (stepId : String) (iterator item : Json N)
    (index : Nat) : Yields (itemResult ex stepId iterator (item, index))
      (ex.executeTaskStep (Executor.itemStep stepId iterator index item) item).run := by
  have htask : ex.executeTaskStep (Executor.itemStep stepId iterator index item) item =
      attemptTask (ex.simulateStepExecution (Executor.itemStep stepId iterator index item) item)
        (Executor.itemStep stepId iterator index item) item 1 1 1 none := rfl
  rw [htask, attemptTask, itemResult]
  cases ex.simulateStepExecution (Executor.itemStep stepId iterator index item) item 1 with
  | ok output => exact fun _ _ => rfl
  | error errorMsg => exact fun _ _ => rfl

theorem Pool.spawn (h : Pool base results joined s) {result : Except WorkflowError (Json N)}
    {task : Task N} (hyields : Yields result task) :
    Pool base (results ++ [result]) joined { s with tasks := s.tasks ++ [task] } := by
  have hlength : (results ++ [result]).length = results.length + 1 := List.length_append
  refine ⟨?_, ?_, fun {i result'} hresult => ?_⟩
  · rw [List.length_append, hlength, h.length, Nat.add_assoc]
    rfl
  · rw [hlength]
    exact Nat.le_succ_of_le h.joined_le
  · by_cases hi : i < results.length
    · rw [List.getElem?_append_left hi] at hresult
      obtain ⟨t, ht, hyields', hdone⟩ := h.yields hresult
      exact ⟨t, (List.getElem?_append_left (List.getElem?_eq_some_iff.mp ht).1).trans ht, hyields',
        hdone⟩
    · have hbound := (List.getElem?_eq_some_iff.mp hresult).1
      have hlast : i = results.length := by omega
      subst hlast
      rw [List.getElem?_concat_length] at hresult
      cases hresult
      refine ⟨task, ?_, hyields, fun hlt => absurd h.joined_le (Nat.not_le.mpr hlt)⟩
      rw [← h.length]
      exact List.getElem?_concat_length

theorem Pool.join (h : Pool base results joined s) {result result' : Except WorkflowError (Json N)}
    (hresult : results[joined]? = some result)
    (htask : s.tasks[base + joined]? = some (.done result')) :
    result' = result ∧ Pool base results (joined + 1) s := by
  obtain ⟨task, htask', hyields, -⟩ := h.yields hresult
  cases htask.symm.trans htask'
  have hsame : result' = result := hyields
  subst hsame
  refine ⟨rfl, h.length, (List.getElem?_eq_some_iff.mp hresult).1, fun {i result} hi => ?_⟩
  obtain ⟨t, ht, hyields, hdone⟩ := h.yields hi
  refine ⟨t, ht, hyields, fun hlt => ?_⟩
  rcases Nat.lt_succ_iff_lt_or_eq.mp hlt with hlt | rfl
  · exact hdone hlt
  · cases hi.symm.trans hresult
    exact Option.some.inj (ht.symm.trans htask)

end Pool

/-! ## Rules -/

section Rules

variable {ex : Executor N} {base joined limit : Nat}
  {results : List (Except WorkflowError (Json N))} {s : Site N} {α : Type}

/-- At most `limit` of the tasks since `base` are unfinished. -/
def Room (base limit : Nat) (s : Site N) : Prop := s.unfinished base ≤ limit

theorem ends_done {a : α} {Q : α → Site N → Prop} (hs : Pool base results joined s)
    (hroom : results.length ≤ joined + limit) (hQ : ∀ s, Pool base results joined s → Q a s) :
    ex.world.ends (Room base limit) Q (.done a) s :=
  World.ends_done Pool.stable (fun _ h => h.unfinished_le hroom) hs hQ

theorem ends_storing {request : Request N} {Q : Except Halt request.Answer → Site N → Prop}
    (hs : Pool base results joined s) (hroom : results.length ≤ joined + limit)
    (h : ∀ answer s, Pool base results joined s → Q (.ok answer) s) :
    ex.world.ends (Room base limit) Q (storing (Workflow.statement request)).run s := by
  refine World.ends_bind (World.ends_ask Pool.stable (fun _ h => h.unfinished_le hroom) hs
    (fun s _ => ⟨s, .refl, rfl⟩) fun s reply s' hs hserve => ?_)
  obtain ⟨answer, hanswer⟩ := statement_fst request s
  have hsame : s.statement request = (reply, s') := Option.some.inj hserve
  rw [hsame] at hanswer
  have hs' : Pool base results joined s' :=
    hs.of_tasks_eq ((congrArg (·.2.tasks) hsame).symm.trans (tasks_statement request s))
  refine ends_done hs' hroom fun s hs => ?_
  cases hanswer
  exact ends_done hs hroom (h answer)

theorem ends_spawn {stepId : String} {iterator item : Json N} {index : Nat}
    {Q : Except Halt Nat → Site N → Prop} (hs : Pool base results joined s)
    (hroom : results.length + 1 ≤ joined + limit)
    (h : ∀ s, Pool base (results ++ [itemResult ex stepId iterator (item, index)]) joined s →
      Q (.ok (base + results.length)) s) :
    ex.world.ends (Room base limit) Q
      (asking (.spawn (Executor.itemStep stepId iterator index item) item)).run s := by
  refine World.ends_ask Pool.stable (fun _ h => h.unfinished_le (by omega)) hs
    (fun s _ => ⟨s, .refl, rfl⟩) fun s task s' hs hserve => ?_
  cases hserve
  rw [hs.length]
  refine ends_done (hs.spawn (yields_itemStep ex stepId iterator item index)) ?_ h
  rw [List.length_append]
  exact hroom

theorem ends_join {result : Except WorkflowError (Json N)}
    {Q : Except Halt (Except WorkflowError (Json N)) → Site N → Prop}
    (hs : Pool base results joined s) (hroom : results.length ≤ joined + limit)
    (hresult : results[joined]? = some result)
    (h : ∀ s, Pool base results (joined + 1) s → Q (.ok result) s) :
    ex.world.ends (Room base limit) Q (asking (.join (base + joined))).run s := by
  refine World.ends_ask Pool.stable (fun _ h => h.unfinished_le hroom) hs (fun s hs => ?_)
    fun s result' s' hs hserve => ?_
  · obtain ⟨s', hleads, hdone⟩ := hs.finishes hresult
    refine ⟨s', hleads, ?_⟩
    change (Site.serve ex _ s').isSome = true
    rw [Site.serve, hdone]
    rfl
  · have hserve : Site.serve ex (.join (base + joined)) s = some (result', s') := hserve
    rw [Site.serve] at hserve
    split at hserve
    · next result' htask =>
        cases hserve
        obtain ⟨rfl, hjoined⟩ := hs.join hresult htask
        exact ends_done hjoined (by omega) h
    · cases hserve

end Rules

/-! ## Batches -/

section Bodies

variable {ex : Executor N} {base joined limit : Nat} {stepId : String} {iterator : Json N}
  {results : List (Except WorkflowError (Json N))} {s : Site N}

theorem ends_spawnItems {Q : Except Halt (List Nat) → Site N → Prop} (items : List (Json N × Nat))
    (hs : Pool base results joined s) (hroom : results.length + items.length ≤ joined + limit)
    (h : ∀ s, Pool base (results ++ items.map (itemResult ex stepId iterator)) joined s →
      Q (.ok (List.range' (base + results.length) items.length)) s) :
    ex.world.ends (Room base limit) Q (Executor.spawnItems stepId iterator items).run s := by
  induction items generalizing results s Q with
  | nil =>
      rw [List.map_nil, List.append_nil] at h
      exact ends_done hs hroom h
  | cons item items ih =>
      obtain ⟨item, index⟩ := item
      rw [List.length_cons] at hroom
      refine World.ends_bindExcept (ends_spawn hs (by omega) fun s hs => ?_)
      have hlength : (results ++ [itemResult ex stepId iterator (item, index)]).length =
          results.length + 1 := List.length_append
      refine World.ends_bindExcept (ih hs (by omega) fun s hs => ?_)
      rw [List.append_assoc] at hs
      refine ends_done hs ?_ fun s hs => ?_
      · rw [List.length_append, List.length_append, List.length_map]
        exact (Nat.add_comm 1 items.length) ▸ hroom
      · have hQ := h s hs
        rwa [List.length_cons, List.range'_succ, Nat.add_assoc, ← hlength] at hQ

theorem ends_joinAll {Q : Except Halt (List (Except WorkflowError (Json N))) → Site N → Prop}
    (count : Nat) (hs : Pool base results joined s) (hroom : results.length ≤ joined + limit)
    (hcount : joined + count ≤ results.length)
    (h : ∀ s, Pool base results (joined + count) s →
      Q (.ok ((results.drop joined).take count)) s) :
    ex.world.ends (Room base limit) Q
      (Executor.joinAll (List.range' (base + joined) count)).run s := by
  induction count generalizing joined s Q with
  | zero => exact ends_done hs hroom h
  | succ count ih =>
      have hlt : joined < results.length := by omega
      refine World.ends_bindExcept (ends_join hs hroom (List.getElem?_eq_getElem hlt)
        fun s hs => ?_)
      refine World.ends_bindExcept (ih hs (by omega) (by omega) fun s hs => ?_)
      refine ends_done hs (by omega) fun s hs => ?_
      rw [Nat.add_assoc, Nat.add_comm 1] at hs
      have hQ := h s hs
      rwa [List.drop_eq_getElem_cons hlt, List.take_succ_cons] at hQ

/-- What is made of the results of the items. -/
def gather (outputs : List (Json N)) (results : List (Except WorkflowError (Json N))) :
    Except String (Json N) :=
  match Executor.firstError results with
  | some error => .error error
  | none => .ok (.array (outputs ++ Executor.outputs results))

theorem firstError_append (results results' : List (Except WorkflowError (Json N))) :
    Executor.firstError (results ++ results') =
      (Executor.firstError results).or (Executor.firstError results') := by
  induction results with
  | nil => rfl
  | cons result results ih =>
      cases result with
      | ok output => exact ih
      | error e => rfl

theorem gather_append (outputs : List (Json N))
    (results results' : List (Except WorkflowError (Json N))) :
    gather outputs (results ++ results') =
      match Executor.firstError results with
      | some error => .error error
      | none => gather (outputs ++ Executor.outputs results) results' := by
  rw [gather, firstError_append]
  cases Executor.firstError results with
  | some error => rfl
  | none =>
      rw [Option.none_or, gather, Executor.outputs, List.filterMap_append, List.append_assoc]
      rfl

theorem ends_runBatches {Q : Except Halt (Except String (Json N)) → Site N → Prop}
    (batches : List (List (Json N × Nat))) (outputs : List (Json N))
    (hs : Pool base results results.length s)
    (hbatches : ∀ batch ∈ batches, batch.length ≤ limit)
    (h : ∀ results s, Pool base results results.length s →
      Q (.ok (gather outputs (batches.flatten.map (itemResult ex stepId iterator)))) s) :
    ex.world.ends (Room base limit) Q
      (Executor.runBatches stepId iterator batches outputs).run s := by
  induction batches generalizing results outputs s Q with
  | nil =>
      refine ends_done hs (Nat.le_add_right _ _) fun s hs => ?_
      have hQ := h results s hs
      rwa [List.flatten_nil, List.map_nil, gather, Executor.firstError, Executor.outputs,
        List.filterMap_nil, List.append_nil] at hQ
  | cons batch batches ih =>
      have hlength := hbatches batch List.mem_cons_self
      have hall : (results ++ batch.map (itemResult ex stepId iterator)).length =
          results.length + batch.length := by rw [List.length_append, List.length_map]
      refine World.ends_bindExcept (ends_spawnItems batch hs (by omega) fun s hs => ?_)
      refine World.ends_bindExcept (ends_joinAll batch.length hs (by omega) (by omega)
        fun s hs => ?_)
      rw [← hall] at hs
      rw [List.flatten_cons, List.map_append, gather_append] at h
      have htake : ((results ++ batch.map (itemResult ex stepId iterator)).drop
          results.length).take batch.length = batch.map (itemResult ex stepId iterator) := by
        rw [List.drop_left, ← List.length_map (itemResult ex stepId iterator), List.take_length]
      rw [htake]
      revert h
      dsimp only
      cases Executor.firstError (batch.map (itemResult ex stepId iterator)) with
      | some error => exact fun h => ends_done hs (Nat.le_add_right _ _) fun s hs => h _ s hs
      | none =>
          exact fun h => ih _ hs (fun b hb => hbatches b (List.mem_cons_of_mem batch hb)) h

theorem ends_completeParent {Q : Except Halt (Json N) → Site N → Prop} {stepExecId : Nat}
    (result : Except String (Json N)) (hs : Pool base results joined s)
    (hroom : results.length ≤ joined + limit)
    (h : ∀ s, Pool base results joined s → Q (result.mapError (.failed ∘ .execution)) s) :
    ex.world.ends (Room base limit) Q (Executor.completeParent stepExecId result).run s := by
  cases result with
  | ok output => exact World.ends_bindExcept (ends_storing hs hroom fun _ s hs =>
      ends_done hs hroom h)
  | error error => exact World.ends_bindExcept (ends_storing hs hroom fun _ s hs =>
      ends_done hs hroom h)

/-- How many items there are in a batch, as the step reads it. -/
def maxConcurrency (ex : Executor N) (step : Step N) (items : List (Json N)) : Nat :=
  ((step.config.get "max_concurrency").bind ex.jsonAsU64).getD items.length

section Step

variable {step : Step N} {items : List (Json N)} {input : Json N}

theorem executeMapStep_nil (hitems : (step.config.get "items").bind Json.asArray = some []) :
    ex.executeMapStep step input = storing (createStepExecution step.id input) >>=
      fun parentStepExecId => Executor.completeParent parentStepExecId (.ok (.array [])) := by
  unfold Executor.executeMapStep
  rw [hitems]
  rfl

theorem executeMapStep_eq (hitems : (step.config.get "items").bind Json.asArray = some items)
    (hiterator : step.config.get "iterator" = some iterator) (hne : items ≠ []) :
    ex.executeMapStep step input = storing (createStepExecution step.id input) >>=
      fun parentStepExecId =>
        if maxConcurrency ex step items = 0 then throw .stuck
        else Executor.runBatches step.id iterator
            (items.zipIdx.toChunks (maxConcurrency ex step items)) [] >>=
          Executor.completeParent parentStepExecId := by
  unfold Executor.executeMapStep
  rw [hitems, hiterator]
  simp only [List.isEmpty_iff, hne, if_false]
  rfl

theorem ends_executeMapStep (hitems : (step.config.get "items").bind Json.asArray = some items)
    (hiterator : items ≠ [] → step.config.get "iterator" = some iterator)
    (hpos : items ≠ [] → maxConcurrency ex step items ≠ 0) (s : Site N) :
    ex.world.ends (Room s.tasks.length (maxConcurrency ex step items))
      (fun result _ => result = (gather [] (itemResults ex step.id iterator items)).mapError
        (.failed ∘ .execution)) (ex.executeMapStepByIndex step input).run s := by
  rw [← executeMapStep_eq_byIndex]
  have hpool : Pool s.tasks.length [] 0 s := ⟨rfl, Nat.le_refl 0, fun hresult => by cases hresult⟩
  by_cases hempty : items = []
  · subst hempty
    rw [executeMapStep_nil hitems]
    refine World.ends_bindExcept
      (ends_storing hpool (Nat.zero_le _) fun parentStepExecId s hs => ?_)
    exact ends_completeParent (.ok (.array [])) hs (Nat.zero_le _) fun _ _ => rfl
  · rw [executeMapStep_eq hitems (hiterator hempty) hempty]
    refine World.ends_bindExcept
      (ends_storing hpool (Nat.zero_le _) fun parentStepExecId s hs => ?_)
    dsimp only
    rw [if_neg (hpos hempty)]
    refine World.ends_bindExcept (ends_runBatches _ [] hs
      (fun batch hbatch => length_le_of_mem_toChunks (hpos hempty) hbatch)
      fun results s hs => ?_)
    rw [flatten_toChunks (hpos hempty)]
    exact ends_completeParent _ hs (Nat.le_add_right _ _) fun _ _ => rfl

theorem panics_executeMapStep (hitems : (step.config.get "items").bind Json.asArray = some items)
    (hiterator : step.config.get "iterator" = some iterator) (hne : items ≠ [])
    (hzero : maxConcurrency ex step items = 0) (s : Site N) :
    (mapRun ex step input s [.main]).main = .done (.error .stuck) := by
  rw [mapRun, ← executeMapStep_eq_byIndex, executeMapStep_eq hitems hiterator hne]
  simp only [hzero, if_true]
  rfl

end Step

/-! ## What the step returns -/

theorem gather_ok (outputs outputs' : List (Json N)) :
    gather outputs (outputs'.map .ok) = .ok (.array (outputs ++ outputs')) := by
  have hnone : Executor.firstError (outputs'.map (.ok (ε := WorkflowError))) = none := by
    induction outputs' with
    | nil => rfl
    | cons output outputs' ih => exact ih
  have hoks : Executor.outputs (outputs'.map (.ok (ε := WorkflowError))) = outputs' := by
    rw [Executor.outputs, List.filterMap_map]
    exact List.filterMap_some
  rw [gather, hnone, hoks]

theorem gather_error {outputs : List (Json N)} {results : List (Except WorkflowError (Json N))}
    {i : Nat} {e : WorkflowError} (hat : results[i]? = some (.error e))
    (hearlier : ∀ j < i, ∃ output, results[j]? = some (.ok output)) :
    gather outputs results = .error e.display := by
  have hfirst : Executor.firstError results = some e.display := by
    induction results generalizing i with
    | nil => cases hat
    | cons result results ih =>
        cases i with
        | zero =>
            cases hat
            rfl
        | succ i =>
            obtain ⟨output, houtput⟩ := hearlier 0 (Nat.succ_pos i)
            cases houtput
            exact ih hat fun j hj => hearlier (j + 1) (Nat.succ_lt_succ hj)
  rw [gather, hfirst]

end Bodies

/-! ## The numbers of the configuration -/

section Numbers

theorem numberAsU64_le {n : JsonNumber} (hpos : 0 < n.value) :
    (numberAsU64 n * Binary64.one : Int) ≤ n.value := by
  cases n with
  | posInt m => exact Int.le_refl _
  | negInt m negative =>
      have hneg := JsonNumber.negInt_neg m negative
      omega
  | float bits finite => exact Binary64.toU64_le_value hpos.le

theorem numberAsU64_eq_zero_iff (n : JsonNumber) :
    numberAsU64 n = 0 ↔ n.value < Binary64.one := by
  have hfinite := n.isFinite_asF64
  cases n with
  | posInt m =>
      change m.toNat = 0 ↔ (m.toNat * Binary64.one : Int) < Binary64.one
      have hone := JsonNumber.one_pos
      constructor
      · intro h
        rw [h]
        omega
      · intro h
        by_contra hne
        have hle : 1 * Binary64.one ≤ m.toNat * Binary64.one :=
          Nat.mul_le_mul_right _ (Nat.pos_of_ne_zero hne)
        rw [Nat.one_mul] at hle
        exact absurd h (Int.not_lt.mpr (by exact_mod_cast hle))
  | negInt m negative =>
      have hlow := m.le_toInt
      have hneg := JsonNumber.negInt_neg m negative
      have hnonpos := Binary64.value_ofInt_nonpos (Int64.lt_iff_toInt_lt.mp negative)
        (k := m.toInt) (by have hhigh := m.toInt_lt; omega)
      refine iff_of_true ?_ (by omega)
      refine (Binary64.toU64_eq_zero_iff (Binary64.isNan_of_isFinite hfinite)).mpr ?_
      exact Int.lt_of_le_of_lt hnonpos (Int.natCast_pos.mpr JsonNumber.one_pos)
  | float bits finite =>
      exact Binary64.toU64_eq_zero_iff (Binary64.isNan_of_isFinite hfinite)

variable {ex : Executor JsonNumber} {step : Step JsonNumber} {items : List (Json JsonNumber)}

theorem maxConcurrency_of_number {n : JsonNumber}
    (h : step.config.get "max_concurrency" = some (.number n)) :
    maxConcurrency ex.withJsonNumbers step items = numberAsU64 n := by
  rw [maxConcurrency, h]
  rfl

theorem maxConcurrency_ne_zero (hne : items ≠ [])
    (h : ∀ n, step.config.get "max_concurrency" = some (.number n) →
      (Binary64.one : Int) ≤ n.value) : maxConcurrency ex.withJsonNumbers step items ≠ 0 := by
  have hlength : items.length ≠ 0 := fun hzero => hne (List.eq_nil_of_length_eq_zero hzero)
  cases hget : step.config.get "max_concurrency" with
  | none =>
      rw [maxConcurrency, hget]
      exact hlength
  | some v =>
      cases v with
      | number n =>
          rw [maxConcurrency_of_number hget, Ne, numberAsU64_eq_zero_iff]
          exact Int.not_lt.mpr (h n hget)
      | null | bool | string | array | object =>
          rw [maxConcurrency, hget]
          exact hlength

/-- A Map step does what it is meant to exactly when there is nothing to do or `max_concurrency` is
not a number below one. -/
theorem executeMapStep_iff (ex : Executor JsonNumber) (step : Step JsonNumber)
    (iterator : Json JsonNumber) (items : List (Json JsonNumber)) (input : Json JsonNumber)
    (s : Site JsonNumber) (hitems : (step.config.get "items").bind Json.asArray = some items)
    (hiterator : items ≠ [] → step.config.get "iterator" = some iterator) :
    MapsInOrder ex.withJsonNumbers step iterator items input s ↔
      items = [] ∨ ∀ n, step.config.get "max_concurrency" = some (.number n) →
        (Binary64.one : Int) ≤ n.value := by
  constructor
  · intro hmaps
    refine or_iff_not_imp_left.mpr fun hne n hn => Int.not_lt.mp fun hlt => ?_
    have hzero : maxConcurrency ex.withJsonNumbers step items = 0 :=
      (maxConcurrency_of_number hn).trans ((numberAsU64_eq_zero_iff n).mpr hlt)
    exact hmaps.noPanic [.main] (panics_executeMapStep hitems (hiterator hne) hne hzero s)
  · intro hcondition
    have hpos : items ≠ [] → maxConcurrency ex.withJsonNumbers step items ≠ 0 :=
      fun hne => maxConcurrency_ne_zero hne (hcondition.resolve_left hne)
    have hends := @ends_executeMapStep _ _ _ _ _ input hitems hiterator hpos s
    have hresult : ∀ {turns result},
        (mapRun ex.withJsonNumbers step input s turns).main = .done result →
          result = (gather [] (itemResults ex.withJsonNumbers step.id iterator items)).mapError
            (.failed ∘ .execution) :=
      fun hdone => World.ends_result hends hdone
    refine ⟨fun turns hstuck => ?_, fun turns n hn hpos => ?_, fun turns => ?_,
      fun hdone outputs houtputs => ?_, fun hdone i e hat hearlier => ?_⟩
    · have hpanic := hresult hstuck
      cases hgather : gather [] (itemResults ex.withJsonNumbers step.id iterator items) with
      | ok output =>
          rw [hgather] at hpanic
          cases hpanic
      | error error =>
          rw [hgather] at hpanic
          cases hpanic
    · have hroom := World.ends_invariant (World.ends_run (m := ⟨s, _⟩) hends turns)
      rw [Room, maxConcurrency_of_number hn] at hroom
      refine Int.le_trans ?_ (numberAsU64_le hpos)
      exact Int.mul_le_mul_of_nonneg_right (Int.ofNat_le.mpr hroom) (Int.natCast_nonneg _)
    · obtain ⟨more, result, hdone⟩ := World.ends_reaches (World.ends_run (m := ⟨s, _⟩) hends turns)
      refine ⟨more, result, ?_⟩
      rw [mapRun, run_append]
      exact hdone
    · rw [hresult hdone, houtputs, gather_ok]
      rfl
    · rw [hresult hdone, gather_error hat hearlier]
      rfl

section Example

def echoExecutor : Executor JsonNumber where
  simulateStepExecution := fun _ input _ => .ok input
  asU64 := numberAsU64
  isDuration := fun _ => true
  isTimestamp := fun _ => false
  polls := 0

def mapItems : List (Json JsonNumber) := [.string "a", .string "b", .string "c"]

def mapStep (maxConcurrency : JsonNumber) : Step JsonNumber :=
  { id := "m", type := 3, config := .object [("items", .array mapItems), ("iterator", .object []),
      ("max_concurrency", .number maxConcurrency)] }

theorem executeMapStep_iff_two :
    ((mapStep (JsonNumber.posInt 2).toDouble).config.get "items").bind Json.asArray =
        some mapItems ∧
      (mapItems ≠ [] → (mapStep (JsonNumber.posInt 2).toDouble).config.get "iterator" =
        some (.object [])) ∧
      MapsInOrder echoExecutor.withJsonNumbers (mapStep (JsonNumber.posInt 2).toDouble)
        (.object []) mapItems .null Site.started := by
  refine ⟨rfl, fun _ => rfl, (executeMapStep_iff echoExecutor _ _ _ .null _ rfl
    fun _ => rfl).mpr (.inr fun n hn => ?_)⟩
  cases Json.number.inj (Option.some.inj hn)
  rw [JsonNumber.value_toDouble ⟨2, by decide, rfl⟩]
  change (Binary64.one : Int) ≤ (2 : Nat) * Binary64.one
  omega

/-- With the batch size 0 the step panics. -/
theorem not_executeMapStep : ¬ ∀ (ex : Executor JsonNumber) (step : Step JsonNumber)
    (iterator : Json JsonNumber) (items : List (Json JsonNumber)) (input : Json JsonNumber)
    (s : Site JsonNumber), (step.config.get "items").bind Json.asArray = some items →
      (items ≠ [] → step.config.get "iterator" = some iterator) →
        MapsInOrder ex.withJsonNumbers step iterator items input s := by
  intro hall
  have hmaps := hall echoExecutor (mapStep (.posInt 0)) _ mapItems .null Site.started rfl
    fun _ => rfl
  have hzero : maxConcurrency echoExecutor.withJsonNumbers (mapStep (.posInt 0)) mapItems = 0 := rfl
  exact hmaps.noPanic [.main] (panics_executeMapStep rfl rfl (by intro h; cases h) hzero _)

end Example

end Numbers

end PlexSpaces.Workflow
