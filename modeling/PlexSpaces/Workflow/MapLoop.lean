import PlexSpaces.Lib.Chunks
import PlexSpaces.Workflow.Tasks
/-!
# The loop of a Map step

The source keeps a list with a place for the output of each item.  Each batch begins at an index,
its tasks are kept with the indexes of their items, and what a task returns is written to the place
of its item.  In the end every place is filled or there was a failure, so the step does what the
batches of `executeMapStep` do (`executeMapStep_eq_byIndex`).
-/

namespace PlexSpaces.Workflow

open PlexSpaces.Lib

variable {N : Type}

/-- `(0..total_items).step_by(max_concurrency)`. -/
def batchStarts (totalItems maxConcurrency : Nat) : List Nat :=
  List.range' 0 ((totalItems + maxConcurrency - 1) / maxConcurrency) maxConcurrency

/-- The variables of the loop. -/
structure MapProgress (N : Type) where
  results : List (Option (Json N))
  hasFailure : Bool := false
  firstError : Option String := none

def MapProgress.record (st : MapProgress N) (itemIndex : Nat) :
    Except WorkflowError (Json N) → MapProgress N
  | .ok output => { st with results := st.results.set itemIndex (some output) }
  | .error err =>
      { st with hasFailure := true, firstError := st.firstError.or (some err.display) }

namespace Executor

/-- The tasks of a batch, with the indexes of their items. -/
def spawnBatch (stepId : String) (iterator : Json N) (batchStart : Nat) :
    List (Json N × Nat) → Running N (List (Nat × Nat))
  | [] => return []
  | (item, idx) :: items => do
      let itemIndex := batchStart + idx
      let task ← asking (.spawn (itemStep stepId iterator itemIndex item) item)
      let batchTasks ← spawnBatch stepId iterator batchStart items
      return (itemIndex, task) :: batchTasks

def awaitBatch : List (Nat × Nat) → MapProgress N → Running N (MapProgress N)
  | [], st => return st
  | (itemIndex, task) :: batchTasks, st => do
      let result ← asking (.join task)
      awaitBatch batchTasks (st.record itemIndex result)

def processBatches (stepId : String) (iterator : Json N) (items : List (Json N))
    (maxConcurrency : Nat) : List Nat → MapProgress N → Running N (MapProgress N)
  | [], st => return st
  | batchStart :: starts, st => do
      let batchEnd := min (batchStart + maxConcurrency) items.length
      let batchTasks ← spawnBatch stepId iterator batchStart
        ((items.take batchEnd).drop batchStart).zipIdx
      let st ← awaitBatch batchTasks st
      if st.hasFailure then return st
      else processBatches stepId iterator items maxConcurrency starts st

/-- The end of the step; a place that is empty makes it panic. -/
def completeMap (parentStepExecId : Nat) (st : MapProgress N) : Running N (Json N) :=
  if st.hasFailure then
    completeParent parentStepExecId (.error (st.firstError.getD "Map step failed"))
  else
    match st.results.mapM id with
    | some resultArray => completeParent parentStepExecId (.ok (.array resultArray))
    | none => throw .stuck

def executeMapStepByIndex (ex : Executor N) (step : Step N) (input : Json N) :
    Running N (Json N) := do
  let parentStepExecId ← storing (createStepExecution step.id input)
  let some items := (step.config.get "items").bind Json.asArray
    | throw (.failed (.invalidDefinition "Map step must have 'items' array in config"))
  if items.isEmpty then
    completeParent parentStepExecId (.ok (.array []))
  else
    let some iterator := step.config.get "iterator"
      | throw (.failed (.invalidDefinition "Map step must have 'iterator' configuration"))
    let maxConcurrency := ((step.config.get "max_concurrency").bind ex.jsonAsU64).getD items.length
    if maxConcurrency = 0 then throw .stuck
    else
      let st ← processBatches step.id iterator items maxConcurrency
        (batchStarts items.length maxConcurrency)
        { results := List.replicate items.length none }
      completeMap parentStepExecId st

end Executor

/-! ## One batch -/

section Batch

variable {stepId : String} {iterator : Json N} {α : Type}

open Executor

theorem spawnBatch_eq (batchStart : Nat) (items : List (Json N × Nat)) :
    spawnBatch stepId iterator batchStart items =
      spawnItems stepId iterator (items.map fun item => (item.1, batchStart + item.2)) >>=
        fun tasks => pure ((items.map fun item => batchStart + item.2).zip tasks) := by
  induction items with
  | nil => rfl
  | cons item items ih =>
      obtain ⟨item, idx⟩ := item
      rw [spawnBatch, ih, List.map_cons, spawnItems, List.map_cons]
      simp only [bind_assoc, pure_bind, List.zip_cons_cons]

/-- What the tasks of a batch return, recorded one after the other. -/
def MapProgress.recordAll (st : MapProgress N) (indexes : List Nat)
    (joined : List (Except WorkflowError (Json N))) : MapProgress N :=
  (indexes.zip joined).foldl (fun st entry => st.record entry.1 entry.2) st

theorem awaitBatch_eq (batchTasks : List (Nat × Nat)) (st : MapProgress N) :
    awaitBatch batchTasks st = joinAll (batchTasks.map Prod.snd) >>=
      fun joined => pure (st.recordAll (batchTasks.map Prod.fst) joined) := by
  induction batchTasks generalizing st with
  | nil => rfl
  | cons entry batchTasks ih =>
      obtain ⟨itemIndex, task⟩ := entry
      rw [awaitBatch, List.map_cons, joinAll]
      simp only [ih, bind_assoc, pure_bind]
      rfl

theorem spawnItems_bind_congr {items : List (Json N × Nat)} {f g : List Nat → Running N α}
    (h : ∀ tasks, tasks.length = items.length → f tasks = g tasks) :
    spawnItems stepId iterator items >>= f = spawnItems stepId iterator items >>= g := by
  induction items generalizing f g with
  | nil =>
      rw [spawnItems, pure_bind, pure_bind]
      exact h [] rfl
  | cons item items ih =>
      obtain ⟨item, index⟩ := item
      rw [spawnItems]
      simp only [bind_assoc, pure_bind]
      refine bind_congr fun task => ih fun tasks htasks => h (task :: tasks) ?_
      exact congrArg (· + 1) htasks

theorem joinAll_bind_congr {tasks : List Nat}
    {f g : List (Except WorkflowError (Json N)) → Running N α}
    (h : ∀ joined, joined.length = tasks.length → f joined = g joined) :
    joinAll tasks >>= f = joinAll tasks >>= g := by
  induction tasks generalizing f g with
  | nil =>
      rw [joinAll, pure_bind, pure_bind]
      exact h [] rfl
  | cons task tasks ih =>
      rw [joinAll]
      simp only [bind_assoc, pure_bind]
      refine bind_congr fun result => ih fun joined hjoined => h (result :: joined) ?_
      exact congrArg (· + 1) hjoined

/-- A batch is run as `runBatches` runs it, and what it returns is recorded. -/
theorem batch_eq (batchStart : Nat) (items : List (Json N)) (st : MapProgress N)
    (next : MapProgress N → Running N α) :
    (spawnBatch stepId iterator batchStart items.zipIdx >>= fun batchTasks =>
        awaitBatch batchTasks st >>= next) =
      spawnItems stepId iterator (items.zipIdx batchStart) >>= fun tasks =>
        joinAll tasks >>= fun joined =>
          next (st.recordAll (List.range' batchStart items.length) joined) := by
  have hitems : items.zipIdx.map (fun item => (item.1, batchStart + item.2)) =
      items.zipIdx batchStart := List.zipIdx_eq_map_add.symm
  have hindexes : items.zipIdx.map (fun item => batchStart + item.2) =
      List.range' batchStart items.length := by
    rw [← List.zipIdx_map_snd batchStart items, ← hitems, List.map_map]
    rfl
  rw [spawnBatch_eq, hitems, hindexes]
  simp only [bind_assoc, pure_bind, awaitBatch_eq]
  refine spawnItems_bind_congr fun tasks htasks => ?_
  rw [List.length_zipIdx] at htasks
  have hlength : (List.range' batchStart items.length).length = tasks.length := by
    rw [List.length_range', htasks]
  rw [List.map_fst_zip hlength.le, List.map_snd_zip hlength.ge]

end Batch

/-! ## What is recorded -/

section Record

variable {results : List (Option (Json N))} {joined : List (Except WorkflowError (Json N))}

/-- The places up to those of the batch are filled; the others are empty. -/
def MapProgress.filled (outputs : List (Json N)) (empty : Nat) : MapProgress N :=
  { results := outputs.map some ++ List.replicate empty none }

theorem failure_recordAll {st : MapProgress N} {indexes : List Nat}
    (hlength : indexes.length = joined.length) :
    (st.recordAll indexes joined).hasFailure =
        (st.hasFailure || (Executor.firstError joined).isSome) ∧
      (st.recordAll indexes joined).firstError =
        st.firstError.or (Executor.firstError joined) := by
  induction joined generalizing st indexes with
  | nil =>
      rw [MapProgress.recordAll, List.zip_nil_right, Executor.firstError, Option.or_none]
      exact ⟨(Bool.or_false _).symm, rfl⟩
  | cons result joined ih =>
      cases indexes with
      | nil => cases hlength
      | cons index indexes =>
          have hrest := @ih (st.record index result) indexes (Nat.succ.inj hlength)
          cases result with
          | ok output => exact hrest
          | error e =>
              refine ⟨hrest.1.trans ?_, hrest.2.trans ?_⟩
              · exact (Bool.true_or _).trans (Bool.or_true _).symm
              · rw [MapProgress.record, Option.or_assoc]
                rfl

theorem record_filled (outputs : List (Json N)) (empty : Nat) (output : Json N) :
    (MapProgress.filled outputs (empty + 1)).record outputs.length (.ok output) =
      .filled (outputs ++ [output]) empty := by
  have hset : (outputs.map some ++ List.replicate (empty + 1) none).set outputs.length
      (some output) = (outputs ++ [output]).map some ++ List.replicate empty none := by
    rw [List.set_append_right _ _ (by rw [List.length_map]), List.length_map, Nat.sub_self,
      List.replicate_succ, List.set_cons_zero, List.map_append, List.append_assoc]
    rfl
  exact congrArg (MapProgress.mk · false none) hset

theorem recordAll_filled {outputs : List (Json N)} {empty : Nat}
    (hroom : joined.length ≤ empty) (hok : Executor.firstError joined = none) :
    (MapProgress.filled outputs empty).recordAll (List.range' outputs.length joined.length)
        joined = .filled (outputs ++ Executor.outputs joined) (empty - joined.length) := by
  induction joined generalizing outputs empty with
  | nil =>
      rw [Executor.outputs, List.filterMap_nil, List.append_nil]
      rfl
  | cons result joined ih =>
      cases result with
      | error e => cases hok
      | ok output =>
          obtain ⟨empty, rfl⟩ : ∃ n, empty = n + 1 :=
            Nat.exists_eq_succ_of_ne_zero (Nat.ne_zero_of_lt hroom)
          have hrest := @ih (outputs ++ [output]) empty (Nat.le_of_succ_le_succ hroom) hok
          rw [List.length_append, List.append_assoc] at hrest
          rw [List.length_cons, List.range'_succ, Nat.add_sub_add_right]
          refine Eq.trans ?_ hrest
          exact congrArg (MapProgress.recordAll · _ joined) (record_filled outputs empty output)

theorem length_outputs (hok : Executor.firstError joined = none) :
    (Executor.outputs joined).length = joined.length := by
  induction joined with
  | nil => rfl
  | cons result joined ih =>
      cases result with
      | error e => cases hok
      | ok output => exact congrArg (· + 1) (ih hok)

theorem mapM_filled (outputs : List (Json N)) : (outputs.map some).mapM id = some outputs := by
  induction outputs with
  | nil => rfl
  | cons output outputs ih =>
      rw [List.map_cons, List.mapM_cons, ih]
      rfl

end Record

/-! ## The loop -/

section Loop

variable {stepId : String} {iterator : Json N} {items : List (Json N)} {maxConcurrency : Nat}

open Executor

/-- From the beginning of a batch on, the loop does what is left of `runBatches`. -/
theorem processBatches_eq (hpos : maxConcurrency ≠ 0) (parentStepExecId count k : Nat)
    (outputs : List (Json N)) (hcover : items.length ≤ k + count * maxConcurrency)
    (hfit : count ≠ 0 → k + (count - 1) * maxConcurrency < items.length)
    (houtputs : outputs.length = min k items.length) :
    (processBatches stepId iterator items maxConcurrency (List.range' k count maxConcurrency)
        (.filled outputs (items.length - k)) >>= completeMap parentStepExecId) =
      runBatches stepId iterator (((items.drop k).zipIdx k).toChunks maxConcurrency) outputs >>=
        completeParent parentStepExecId := by
  induction count generalizing k outputs with
  | zero =>
      have hle : items.length ≤ k := by omega
      rw [List.drop_of_length_le hle, List.zipIdx_nil, toChunks_nil, List.range'_zero,
        processBatches, runBatches, pure_bind, pure_bind, Nat.sub_eq_zero_of_le hle, completeMap]
      rw [MapProgress.filled, List.replicate_zero, List.append_nil, mapM_filled]
      rfl
  | succ count ih =>
      have hlt : k < items.length := by
        have hfit := hfit (Nat.succ_ne_zero count)
        omega
      have hne : (items.drop k).zipIdx k ≠ [] := by
        intro hnil
        have hlength := congrArg List.length hnil
        rw [List.length_zipIdx, List.length_drop, List.length_nil] at hlength
        omega
      rw [List.range'_succ, processBatches, toChunks_eq hpos hne, runBatches, take_zipIdx,
        drop_zipIdx, List.drop_drop, slice_eq]
      simp only [bind_assoc]
      rw [batch_eq k]
      refine spawnItems_bind_congr fun tasks htasks => joinAll_bind_congr fun joined hjoined => ?_
      have hchunkLength : joined.length = ((items.drop k).take maxConcurrency).length := by
        rw [hjoined, htasks, List.length_zipIdx]
      have hlength : joined.length = min maxConcurrency (items.length - k) := by
        rw [hchunkLength, List.length_take, List.length_drop]
      have hk : outputs.length = k := by omega
      rw [← hchunkLength]
      obtain ⟨hfailure, herror⟩ :=
        @failure_recordAll _ joined (.filled outputs (items.length - k))
          (List.range' k joined.length) List.length_range'
      cases hfirst : firstError joined with
      | some error =>
          rw [hfirst] at hfailure herror
          have hfailed := hfailure.trans (Bool.or_true _)
          rw [if_pos hfailed, pure_bind, pure_bind, completeMap, if_pos hfailed, herror]
          rfl
      | none =>
          have hfilled := @recordAll_filled _ joined outputs (items.length - k) (by omega) hfirst
          have hempty : items.length - k - joined.length = items.length - (k + maxConcurrency) := by
            omega
          rw [hk, hempty] at hfilled
          rw [hfilled]
          refine ih (k + maxConcurrency) _ ?_ (fun hcount => ?_) ?_
          · rw [Nat.succ_mul] at hcover
            omega
          · obtain ⟨count, rfl⟩ := Nat.exists_eq_succ_of_ne_zero hcount
            have hfit := hfit (Nat.succ_ne_zero _)
            rw [Nat.succ_sub_one, Nat.succ_mul] at hfit
            rw [Nat.succ_sub_one]
            omega
          · rw [List.length_append, length_outputs hfirst, hk]
            omega

theorem batchStarts_fit (hpos : maxConcurrency ≠ 0) (totalItems : Nat) :
    totalItems ≤ (totalItems + maxConcurrency - 1) / maxConcurrency * maxConcurrency ∧
      ((totalItems + maxConcurrency - 1) / maxConcurrency ≠ 0 →
        ((totalItems + maxConcurrency - 1) / maxConcurrency - 1) * maxConcurrency <
          totalItems) := by
  have hdiv := Nat.div_add_mod (totalItems + maxConcurrency - 1) maxConcurrency
  have hmod := Nat.mod_lt (totalItems + maxConcurrency - 1) (Nat.pos_of_ne_zero hpos)
  rw [Nat.mul_comm] at hdiv
  refine ⟨by omega, fun hcount => ?_⟩
  rw [Nat.sub_mul, Nat.one_mul]
  have hle : maxConcurrency ≤
      (totalItems + maxConcurrency - 1) / maxConcurrency * maxConcurrency :=
    Nat.le_mul_of_pos_left _ (Nat.pos_of_ne_zero hcount)
  omega

theorem executeMapStep_eq_byIndex (ex : Executor N) (step : Step N) (input : Json N) :
    ex.executeMapStep step input = ex.executeMapStepByIndex step input := by
  unfold executeMapStep executeMapStepByIndex
  refine bind_congr fun parentStepExecId => ?_
  cases (step.config.get "items").bind Json.asArray with
  | none => rfl
  | some items =>
      dsimp only
      split
      · rfl
      · cases step.config.get "iterator" with
        | none => rfl
        | some iterator =>
            dsimp only
            split
            · rfl
            · next hpos =>
              obtain ⟨hcover, hfit⟩ := batchStarts_fit hpos items.length
              exact (processBatches_eq hpos _ _ 0 [] (by rwa [Nat.zero_add])
                (by rwa [Nat.zero_add]) (Nat.zero_min _).symm).symm

end Loop

end PlexSpaces.Workflow
