import PlexSpaces.Lib.Run
import PlexSpaces.Workflow.Service
/-!
# Tenants of the workflow service

Queries and deletions name the tenant, but the key of a definition does not, and the calls
that cancel an execution, signal it or read its step records take no context.  A tenant that
saves a definition under an id and version of another one overwrites it, and the id of an
execution is enough to cancel it, to signal it and to read its records
(`not_isolated_from`).  Tenants that do none of this to each other are isolated
(`isolated_from`).
-/

namespace PlexSpaces.Workflow

open PlexSpaces.Lib

variable {N : Type}

/-- What a tenant has: its definitions, its executions with their records, and the signals to
its executions. -/
structure View (N : Type) where
  definitions : List (DefinitionRow N)
  executions : List (ExecutionRow N)
  signals : List (SignalRow N)

namespace Tables

def ownsExecution (s : Tables N) (tenant executionId : String) : Bool :=
  s.executions.any fun e => e.executionId == executionId && e.tenantId == tenant

def view (s : Tables N) (tenant : String) : View N where
  definitions := s.definitions.filter fun row => row.tenantId == tenant
  executions := s.executions.filter fun e => e.tenantId == tenant
  signals := s.signals.filter fun g => s.ownsExecution tenant g.executionId

def Authentic (s : Tables N) : Prop := ∀ row ∈ s.definitions, row.creator = row.tenantId

end Tables

def Response.creators : Response N → List String
  | .empty | .running | .saved _ | .started _ => []
  | .definition row => [row.creator]
  | .definitions rows => rows.map DefinitionRow.creator
  | .execution row | .result row _ => [row.tenantId]
  | .executions rows => rows.map ExecutionRow.tenantId
  | .steps rows => rows.map Prod.fst

/-- A response or an error has nothing of the tenant. -/
def HidesFrom (tenant : String) (result : Except Status (Response N)) : Prop :=
  ∀ response, result = .ok response → tenant ∉ response.creators

/-- The request saves no definition under an id and version that another tenant has. -/
def SavesItsOwn (s : Tables N) (tenant : String) (definition : StoredDefinition N) : Prop :=
  ∀ row ∈ s.definitions, row.hasKey definition.id definition.version = true →
    row.tenantId = tenant

def NamesItsOwn (s : Tables N) (tenant executionId : String) : Prop :=
  ∀ e ∈ s.executions, e.executionId = executionId → e.tenantId = tenant

instance (s : Tables N) (tenant : String) (definition : StoredDefinition N) :
    Decidable (SavesItsOwn s tenant definition) :=
  inferInstanceAs (Decidable (∀ row ∈ s.definitions, _ → _))

instance (s : Tables N) (tenant executionId : String) :
    Decidable (NamesItsOwn s tenant executionId) :=
  inferInstanceAs (Decidable (∀ e ∈ s.executions, _ → _))

/-- The caller saves no definition under an id and version that another tenant has, and names
no execution of another tenant where the service does not look at the tenant. -/
def KeepsToItsOwn (s : Tables N) (call : ServiceCall N) : Prop :=
  match call.request with
  | .createDefinition (some definition) | .updateDefinition (some definition) =>
      SavesItsOwn s call.ctx.tenantId definition
  | .cancelExecution executionId | .signalExecution executionId _ _
  | .getStepExecutions executionId => NamesItsOwn s call.ctx.tenantId executionId
  | _ => True

instance (s : Tables N) (call : ServiceCall N) : Decidable (KeepsToItsOwn s call) :=
  match call with
  | ⟨_, .createDefinition (some _)⟩ | ⟨_, .updateDefinition (some _)⟩ =>
      inferInstanceAs (Decidable (SavesItsOwn s _ _))
  | ⟨_, .cancelExecution _⟩ | ⟨_, .signalExecution _ _ _⟩ | ⟨_, .getStepExecutions _⟩ =>
      inferInstanceAs (Decidable (NamesItsOwn s _ _))
  | ⟨_, .createDefinition none⟩ | ⟨_, .updateDefinition none⟩ | ⟨_, .getDefinition _ _⟩
  | ⟨_, .listDefinitions _⟩ | ⟨_, .deleteDefinition _ _⟩ | ⟨_, .startExecution _ _ _ _⟩
  | ⟨_, .getExecution _⟩ | ⟨_, .listExecutions _ _⟩ | ⟨_, .queryExecution _ _⟩ => isTrue trivial

section Lists

variable {α : Type}

/-- A map that moves no row into or out of a selection, and changes none of it. -/
theorem filter_map_of_fixed {p : α → Bool} {f : α → α} {l : List α}
    (h : ∀ a ∈ l, p (f a) = p a ∧ (p a = true → f a = a)) : (l.map f).filter p = l.filter p := by
  induction l with
  | nil => rfl
  | cons a l ih =>
      obtain ⟨hp, hfix⟩ := h a List.mem_cons_self
      have hrest := ih fun b hb => h b (List.mem_cons_of_mem a hb)
      rw [List.map_cons, List.filter_cons, List.filter_cons, hp, hrest]
      split_ifs with ha
      · rw [hfix ha]
      · rfl

theorem filter_append_of_not {p : α → Bool} {l : List α} {a : α} (h : p a = false) :
    (l ++ [a]).filter p = l.filter p := by
  rw [List.filter_append, List.filter_singleton, h, cond_false, List.append_nil]

end Lists

section View

variable {s : Tables N} {ctx : RequestContext} {tenant : String}

theorem view_saveDefinition {definition : StoredDefinition N} (hne : ctx.tenantId ≠ tenant)
    (hown : SavesItsOwn s ctx.tenantId definition) :
    (s.saveDefinition ctx definition).view tenant = s.view tenant := by
  have hforeign : (ctx.tenantId == tenant) = false := beq_false_of_ne hne
  unfold Tables.saveDefinition
  split_ifs
  · have hrows : (s.definitions.map fun row =>
        if row.hasKey definition.id definition.version then
          { row with definition := definition, creator := ctx.tenantId }
        else row).filter (fun row => row.tenantId == tenant) =
        s.definitions.filter fun row => row.tenantId == tenant := by
      apply filter_map_of_fixed
      intro row hrow
      split_ifs with hkey
      · refine ⟨rfl, fun htenant => ?_⟩
        rw [hown row hrow hkey, hforeign] at htenant
        cases htenant
      · exact ⟨rfl, fun _ => rfl⟩
    exact congrArg (View.mk · _ _) hrows
  · exact congrArg (View.mk · _ _) (filter_append_of_not hforeign)

theorem view_deleteDefinition {id version : String} {s' : Tables N}
    (hne : ctx.tenantId ≠ tenant) (h : s.deleteDefinition ctx id version = .ok s') :
    s'.view tenant = s.view tenant := by
  unfold Tables.deleteDefinition at h
  split_ifs at h
  cases h
  have hrows : (s.definitions.filter fun row => !Tables.deletes ctx id version row).filter
      (fun row => row.tenantId == tenant) =
      s.definitions.filter fun row => row.tenantId == tenant := by
    rw [List.filter_filter]
    apply List.filter_congr
    intro row _
    cases htenant : row.tenantId == tenant with
    | false => rfl
    | true =>
        have hforeign : ctx.owns row.tenantId row.nsName = false := by
          rw [RequestContext.owns, beq_iff_eq.mp htenant, beq_false_of_ne (Ne.symm hne),
            Bool.false_and]
        rw [Tables.deletes, hforeign, Bool.and_false]
        rfl
  exact congrArg (View.mk · _ _) hrows

theorem view_updateExecution {executionId : String} (f : WorkflowStorage N → WorkflowStorage N)
    (hforeign : ∀ e ∈ s.executions, e.executionId = executionId → e.tenantId ≠ tenant) :
    (s.updateExecution executionId f).view tenant = s.view tenant := by
  have hrows : (s.updateExecution executionId f).executions.filter (fun e => e.tenantId == tenant) =
      s.executions.filter fun e => e.tenantId == tenant := by
    apply filter_map_of_fixed
    intro e he
    split_ifs with hid
    · refine ⟨rfl, fun htenant => ?_⟩
      exact absurd (beq_iff_eq.mp htenant) (hforeign e he (beq_iff_eq.mp hid))
    · exact ⟨rfl, fun _ => rfl⟩
  have howns : ∀ id, (s.updateExecution executionId f).ownsExecution tenant id =
      s.ownsExecution tenant id := by
    intro id
    unfold Tables.ownsExecution Tables.updateExecution
    rw [List.any_map]
    congr 1
    funext e
    dsimp only [Function.comp]
    split_ifs <;> rfl
  unfold Tables.view
  rw [hrows]
  simp only [howns]
  rfl

theorem view_createExecution {row : ExecutionRow N} {s' : Tables N} (hne : row.tenantId ≠ tenant)
    (h : s.createExecution row = .ok s') :
    s'.view tenant = s.view tenant ∧
      ∀ e ∈ s'.executions, e.executionId = row.executionId → e.tenantId ≠ tenant := by
  unfold Tables.createExecution at h
  split_ifs at h with hused
  cases h
  have hforeign : (row.tenantId == tenant) = false := beq_false_of_ne hne
  constructor
  · have hrows : (s.executions ++ [row]).filter (fun e => e.tenantId == tenant) =
        s.executions.filter fun e => e.tenantId == tenant := filter_append_of_not hforeign
    have howns : ∀ id, ({ s with executions := s.executions ++ [row] } : Tables N).ownsExecution
        tenant id = s.ownsExecution tenant id := by
      intro id
      unfold Tables.ownsExecution
      rw [List.any_append, List.any_cons, List.any_nil, hforeign, Bool.and_false, Bool.or_false,
        Bool.or_false]
    unfold Tables.view
    rw [hrows]
    simp only [howns]
  · intro e he hid
    rcases List.mem_append.mp he with he | he
    · have hin : (s.executions.any fun e => e.executionId == row.executionId) = true :=
        List.any_eq_true.mpr ⟨e, he, beq_iff_eq.mpr hid⟩
      exact absurd hin hused
    · exact (List.mem_singleton.mp he).symm ▸ hne

theorem view_sendSignal {executionId signalName : String} {payload : Json N} {s' : Tables N}
    (hforeign : ∀ e ∈ s.executions, e.executionId = executionId → e.tenantId ≠ tenant)
    (h : s.sendSignal executionId signalName payload = .ok s') :
    s'.view tenant = s.view tenant := by
  unfold Tables.sendSignal at h
  split_ifs at h
  cases h
  have hsignal : s.ownsExecution tenant executionId = false := by
    refine List.any_eq_false.mpr fun e he hboth => ?_
    obtain ⟨hid, htenant⟩ := Bool.and_eq_true_iff.mp hboth
    exact hforeign e he (beq_iff_eq.mp hid) (beq_iff_eq.mp htenant)
  have hrows : (s.signals ++ [(⟨executionId, signalName, payload⟩ : SignalRow N)]).filter
      (fun g => s.ownsExecution tenant g.executionId) =
      s.signals.filter fun g => s.ownsExecution tenant g.executionId :=
    filter_append_of_not hsignal
  exact congrArg (View.mk _ _) hrows

end View

section Responses

variable {s : Tables N} {ctx : RequestContext} {tenant : String}

theorem RequestContext.tenant_of_sees {tenantId nsName : String} (hctx : ctx.tenantId ≠ "")
    (h : ctx.sees tenantId nsName = true) : tenantId = ctx.tenantId := by
  have hnamed := (Bool.and_eq_true_iff.mp h).1
  rw [Bool.or_eq_true_iff] at hnamed
  rcases hnamed with hempty | hsame
  · exact absurd (String.isEmpty_iff.mp hempty) hctx
  · exact beq_iff_eq.mp hsame

theorem RequestContext.tenant_of_owns {tenantId nsName : String}
    (h : ctx.owns tenantId nsName = true) : tenantId = ctx.tenantId :=
  beq_iff_eq.mp (Bool.and_eq_true_iff.mp h).1

theorem hidesFrom_error (status : Status) :
    HidesFrom tenant (.error status : Except Status (Response N)) := by
  intro response h
  cases h

theorem hidesFrom_ok {response : Response N} (h : tenant ∉ response.creators) :
    HidesFrom tenant (.ok response) := by
  intro response' hok
  cases hok
  exact h

theorem hidesFrom_answer {α : Type} {f : α → Response N} {result : Except WorkflowError α}
    (h : ∀ a, result = .ok a → tenant ∉ (f a).creators) : HidesFrom tenant (answer f result) := by
  cases result with
  | ok a => exact hidesFrom_ok (h a rfl)
  | error e => exact hidesFrom_error _

theorem hidesFrom_answerTables (s : Tables N) (result : Except WorkflowError (Tables N)) :
    HidesFrom tenant (answerTables s result).1 := by
  cases result with
  | ok s' => exact hidesFrom_ok List.not_mem_nil
  | error e => exact hidesFrom_error _

theorem hidesFrom_getDefinition (hctx : ctx.tenantId ≠ "") (hne : ctx.tenantId ≠ tenant)
    (hs : s.Authentic) (id version : String) :
    HidesFrom tenant (answer .definition (s.getDefinition ctx id version)) := by
  apply hidesFrom_answer
  intro row hrow
  unfold Tables.getDefinition at hrow
  split at hrow
  next row' hfound =>
    cases hrow
    have hselected := List.find?_some hfound
    simp only [Bool.and_eq_true] at hselected
    have hcreator : row.creator = ctx.tenantId :=
      (hs row (List.mem_of_find?_eq_some hfound)).trans
        (RequestContext.tenant_of_sees hctx hselected.2)
    intro hmem
    exact hne (hcreator.symm.trans (List.mem_singleton.mp hmem).symm)
  · cases hrow

theorem hidesFrom_listDefinitions (hctx : ctx.tenantId ≠ "") (hne : ctx.tenantId ≠ tenant)
    (hs : s.Authentic) (namePrefix : String) :
    HidesFrom tenant (.ok (.definitions (s.listDefinitions ctx namePrefix))) := by
  apply hidesFrom_ok
  intro hmem
  obtain ⟨row, hrow, hcreator⟩ := List.mem_map.mp hmem
  obtain ⟨hin, hselected⟩ := List.mem_filter.mp (List.mem_mergeSort.mp hrow)
  have hsees := (Bool.and_eq_true_iff.mp hselected).2
  exact hne ((RequestContext.tenant_of_sees hctx hsees).symm.trans
    ((hs row hin).symm.trans hcreator))

theorem tenant_of_getExecution {executionId : String} {row : ExecutionRow N}
    (h : s.getExecution ctx executionId = .ok row) : row.tenantId = ctx.tenantId := by
  unfold Tables.getExecution at h
  split at h
  next row' hfound =>
    cases h
    have hselected := List.find?_some hfound
    simp only [Bool.and_eq_true] at hselected
    exact RequestContext.tenant_of_owns hselected.2
  · cases h

theorem hidesFrom_getExecution (hne : ctx.tenantId ≠ tenant) (executionId : String) :
    HidesFrom tenant (answer .execution (s.getExecution ctx executionId)) := by
  apply hidesFrom_answer
  intro row hrow hmem
  exact hne ((tenant_of_getExecution hrow).symm.trans (List.mem_singleton.mp hmem).symm)

theorem hidesFrom_queryExecution (hne : ctx.tenantId ≠ tenant) (executionId queryName : String) :
    HidesFrom tenant (queryExecution s ctx executionId queryName) := by
  unfold queryExecution
  split
  · exact hidesFrom_error _
  next row hrow =>
    split_ifs
    · apply hidesFrom_ok
      intro hmem
      exact hne ((tenant_of_getExecution hrow).symm.trans (List.mem_singleton.mp hmem).symm)
    · exact hidesFrom_error _

theorem hidesFrom_listExecutions (hctx : ctx.tenantId ≠ "") (hne : ctx.tenantId ≠ tenant)
    (status : Int) (definitionId : String) :
    HidesFrom tenant (listExecutions s ctx status definitionId) := by
  unfold listExecutions
  split
  · exact hidesFrom_error _
  · apply hidesFrom_ok
    intro hmem
    obtain ⟨row, hrow, htenant⟩ := List.mem_map.mp hmem
    have hlisted := (List.mem_filter.mp (List.mem_filter.mp hrow).1).2
    exact hne ((RequestContext.tenant_of_sees hctx (Bool.and_eq_true_iff.mp hlisted).2).symm.trans
      htenant)

theorem hidesFrom_getStepExecutions {executionId : String} (hne : ctx.tenantId ≠ tenant)
    (hown : NamesItsOwn s ctx.tenantId executionId) :
    HidesFrom tenant (.ok (.steps (s.getStepExecutionHistory executionId))) := by
  apply hidesFrom_ok
  intro hmem
  obtain ⟨record, hrecord, htenant⟩ := List.mem_map.mp hmem
  obtain ⟨e, he, hin⟩ := List.mem_flatMap.mp hrecord
  obtain ⟨he, hid⟩ := List.mem_filter.mp he
  obtain ⟨_, _, rfl⟩ := List.mem_map.mp hin
  exact hne ((hown e he (beq_iff_eq.mp hid)).symm.trans htenant)

end Responses

section Step

variable [BEq N] [LT N] [DecidableLT N] {bodies : StepBodies N} {s : Tables N}
  {call : ServiceCall N} {tenant : String}

theorem startExecution_isolated {ctx : RequestContext} (hne : ctx.tenantId ≠ tenant)
    (definitionId version ulid : String) (fuel : Nat) :
    HidesFrom tenant (startExecution bodies s ctx definitionId version ulid fuel).1 ∧
      (startExecution bodies s ctx definitionId version ulid fuel).2.view tenant =
        s.view tenant := by
  unfold startExecution
  split
  · exact ⟨hidesFrom_error _, rfl⟩
  · split
    · exact ⟨hidesFrom_error _, rfl⟩
    next row _ s' hcreated =>
      obtain ⟨hview, hforeign⟩ := view_createExecution hne hcreated
      refine ⟨?_, (view_updateExecution _ hforeign).trans hview⟩
      dsimp only
      split
      · exact hidesFrom_ok List.not_mem_nil
      · exact hidesFrom_answer fun _ _ => List.not_mem_nil

/-- A call of a tenant that keeps to its own changes nothing of another tenant and tells
nothing of it. -/
theorem perform_isolated (hctx : call.ctx.tenantId ≠ "") (hne : call.ctx.tenantId ≠ tenant)
    (hs : s.Authentic) (hkeep : KeepsToItsOwn s call) :
    HidesFrom tenant (perform bodies s call).1 ∧
      (perform bodies s call).2.view tenant = s.view tenant := by
  obtain ⟨ctx, request⟩ := call
  have hforeign : ∀ {id}, NamesItsOwn s ctx.tenantId id →
      ∀ e ∈ s.executions, e.executionId = id → e.tenantId ≠ tenant :=
    fun hown e he hid => (hown e he hid).symm ▸ hne
  cases request with
  | createDefinition definition =>
      cases definition with
      | none => exact ⟨hidesFrom_error _, rfl⟩
      | some definition => exact ⟨hidesFrom_ok List.not_mem_nil, view_saveDefinition hne hkeep⟩
  | updateDefinition definition =>
      cases definition with
      | none => exact ⟨hidesFrom_error _, rfl⟩
      | some definition => exact ⟨hidesFrom_ok List.not_mem_nil, view_saveDefinition hne hkeep⟩
  | getDefinition id version =>
      simp only [perform]
      split_ifs
      · exact ⟨hidesFrom_error _, rfl⟩
      · exact ⟨hidesFrom_getDefinition hctx hne hs _ _, rfl⟩
  | listDefinitions namePrefix => exact ⟨hidesFrom_listDefinitions hctx hne hs _, rfl⟩
  | deleteDefinition id version =>
      simp only [perform]
      split_ifs
      · exact ⟨hidesFrom_error _, rfl⟩
      · refine ⟨hidesFrom_answerTables s _, ?_⟩
        cases hdeleted : s.deleteDefinition ctx id version with
        | ok s' => exact view_deleteDefinition hne hdeleted
        | error e => rfl
  | startExecution definitionId version ulid fuel =>
      simp only [perform]
      split_ifs
      · exact ⟨hidesFrom_error _, rfl⟩
      · exact startExecution_isolated hne _ _ _ _
  | getExecution executionId =>
      simp only [perform]
      split_ifs
      · exact ⟨hidesFrom_error _, rfl⟩
      · exact ⟨hidesFrom_getExecution hne _, rfl⟩
  | listExecutions status definitionId => exact ⟨hidesFrom_listExecutions hctx hne _ _, rfl⟩
  | cancelExecution executionId =>
      simp only [perform]
      split_ifs
      · exact ⟨hidesFrom_error _, rfl⟩
      · exact ⟨hidesFrom_ok List.not_mem_nil, view_updateExecution _ (hforeign hkeep)⟩
  | signalExecution executionId signalName payload =>
      simp only [perform]
      split_ifs
      · exact ⟨hidesFrom_error _, rfl⟩
      · exact ⟨hidesFrom_error _, rfl⟩
      · refine ⟨hidesFrom_answerTables s _, ?_⟩
        cases hsent : s.sendSignal executionId signalName payload with
        | ok s' => exact view_sendSignal (hforeign hkeep) hsent
        | error e => rfl
  | queryExecution executionId queryName =>
      simp only [perform]
      split_ifs
      · exact ⟨hidesFrom_error _, rfl⟩
      · exact ⟨hidesFrom_error _, rfl⟩
      · exact ⟨hidesFrom_queryExecution hne _ _, rfl⟩
  | getStepExecutions executionId =>
      simp only [perform]
      split_ifs
      · exact ⟨hidesFrom_error _, rfl⟩
      · exact ⟨hidesFrom_getStepExecutions hne hkeep, rfl⟩

omit [BEq N] [LT N] [DecidableLT N] in
theorem authentic_saveDefinition {ctx : RequestContext} {definition : StoredDefinition N}
    (hs : s.Authentic) (hown : SavesItsOwn s ctx.tenantId definition) :
    (s.saveDefinition ctx definition).Authentic := by
  unfold Tables.saveDefinition
  split_ifs
  · intro row hrow
    obtain ⟨old, hold, rfl⟩ := List.mem_map.mp hrow
    split_ifs with hkey
    · exact (hown old hold hkey).symm
    · exact hs old hold
  · intro row hrow
    rcases List.mem_append.mp hrow with hrow | hrow
    · exact hs row hrow
    · rw [List.mem_singleton.mp hrow]

omit [BEq N] [LT N] [DecidableLT N] in
theorem authentic_of_subset {s' : Tables N} (hs : s.Authentic)
    (h : ∀ row ∈ s'.definitions, row ∈ s.definitions) : s'.Authentic :=
  fun row hrow => hs row (h row hrow)

/-- No call writes under the key of another tenant, so every content stays with its creator. -/
theorem perform_authentic (hs : s.Authentic) (hkeep : KeepsToItsOwn s call) :
    (serviceStep bodies s call).Authentic := by
  obtain ⟨ctx, request⟩ := call
  unfold serviceStep
  cases request with
  | createDefinition definition =>
      cases definition with
      | none => exact hs
      | some definition => exact authentic_saveDefinition hs hkeep
  | updateDefinition definition =>
      cases definition with
      | none => exact hs
      | some definition => exact authentic_saveDefinition hs hkeep
  | deleteDefinition id version =>
      simp only [perform]
      split_ifs
      · exact hs
      · cases hdeleted : s.deleteDefinition ctx id version with
        | error e => exact hs
        | ok s' =>
            unfold Tables.deleteDefinition at hdeleted
            split_ifs at hdeleted
            cases hdeleted
            exact authentic_of_subset hs fun row hrow => (List.mem_filter.mp hrow).1
  | startExecution definitionId version ulid fuel =>
      simp only [perform]
      split_ifs
      · exact hs
      · unfold startExecution
        split
        · exact hs
        · split
          · exact hs
          next hcreated =>
            unfold Tables.createExecution at hcreated
            split_ifs at hcreated
            cases hcreated
            exact hs
  | signalExecution executionId signalName payload =>
      simp only [perform]
      split_ifs
      · exact hs
      · exact hs
      · cases hsent : s.sendSignal executionId signalName payload with
        | error e => exact hs
        | ok s' =>
            unfold Tables.sendSignal at hsent
            split_ifs at hsent
            cases hsent
            exact hs
  | listDefinitions namePrefix => exact hs
  | listExecutions status definitionId => exact hs
  | _ =>
      simp only [perform]
      split_ifs <;> exact hs

/-- Any calls of any tenants come first.  Then calls of one tenant, as long as no call saves a
definition under a key of another tenant and none names an execution of another tenant where
the service does not look, leave what any other tenant sees unchanged and return nothing of
it. -/
theorem isolated_from (bodies : StepBodies N) {caller tenant : String} (hcaller : caller ≠ "")
    (hne : caller ≠ tenant) {before calls : List (ServiceCall N)}
    (hby : ∀ call ∈ calls, call.ctx.tenantId = caller)
    (hrun : Along (serviceStep bodies) KeepsToItsOwn {} (before ++ calls)) :
    let s := run (serviceStep bodies) {} before
    (run (serviceStep bodies) s calls).view tenant = s.view tenant ∧
      Along (serviceStep bodies)
        (fun s call => HidesFrom tenant (perform bodies s call).1) s calls := by
  intro s
  obtain ⟨hbefore, hcalls⟩ := (along_append _ _ _ _).mp hrun
  have hs : s.Authentic :=
    hbefore.invariant (fun _ _ hs hkeep => perform_authentic hs hkeep)
      fun row hrow => absurd hrow List.not_mem_nil
  have hcalls : Along (serviceStep bodies)
      (fun s call => KeepsToItsOwn s call ∧ call.ctx.tenantId = caller) s calls :=
    along_and.mpr ⟨hcalls, along_of_forall hby s⟩
  -- The contents stay with their creators, and the view of the other tenant is the one before.
  have hstep : ∀ t call, (t.Authentic ∧ t.view tenant = s.view tenant) →
      (KeepsToItsOwn t call ∧ call.ctx.tenantId = caller) →
      HidesFrom tenant (perform bodies t call).1 ∧
        (serviceStep bodies t call).Authentic ∧
          (serviceStep bodies t call).view tenant = s.view tenant := by
    rintro t call ⟨ht, hview⟩ ⟨hkeep, rfl⟩
    obtain ⟨hhides, hsame⟩ := @perform_isolated _ _ _ _ bodies _ _ _ hcaller hne ht hkeep
    exact ⟨hhides, perform_authentic ht hkeep, hsame.trans hview⟩
  constructor
  · exact (hcalls.invariant (fun t call ht hkeep => (hstep t call ht hkeep).2) ⟨hs, rfl⟩).2
  · exact hcalls.of_invariant hstep ⟨hs, rfl⟩

end Step

section Examples

def echoBodies : StepBodies Nat where
  simulateStepExecution := fun _ input _ => .ok input
  executeParallelStep := fun _ input => pure input
  executeMapStep := fun _ input => pure input
  executeWaitStep := fun _ input => pure input
  executeSignalStep := fun _ input => pure input

def oneTask (id name : String) : Option (StoredDefinition Nat) :=
  some ⟨id, "1.0", name, ⟨[{ id := "pack", type := 1 }]⟩⟩

def calledBy (tenant : String) (request : ServiceRequest Nat) : ServiceCall Nat :=
  ⟨⟨tenant, "shop"⟩, request⟩

def acmeRuns : List (ServiceCall Nat) :=
  [calledBy "acme" (.createDefinition (oneTask "order" "Order")),
    calledBy "acme" (.startExecution "order" "1.0" "01" 3)]

/-- Another one stores its own definition, runs it and asks for what there is. -/
def globexRuns : List (ServiceCall Nat) :=
  [calledBy "globex" (.createDefinition (oneTask "invoice" "Invoice")),
    calledBy "globex" (.startExecution "invoice" "1.0" "02" 3),
    calledBy "globex" (.getStepExecutions "02"), calledBy "globex" (.getExecution "01"),
    calledBy "globex" (.listExecutions 0 "")]

theorem isolated_from_acme :
    let s := run (serviceStep echoBodies) {} acmeRuns
    (run (serviceStep echoBodies) s globexRuns).view "acme" = s.view "acme" ∧
      Along (serviceStep echoBodies)
        (fun s call => HidesFrom "acme" (perform echoBodies s call).1) s globexRuns := by
  exact @isolated_from _ _ _ _ echoBodies "globex" "acme" (by decide) (by decide) _ _
    (by decide) (by decide +kernel)

theorem not_isolated_from :
    (¬∀ calls : List (ServiceCall Nat), (∀ call ∈ calls, call.ctx.tenantId = "globex") →
      (run (serviceStep echoBodies) (run (serviceStep echoBodies) {} acmeRuns) calls).view
        "acme" = (run (serviceStep echoBodies) {} acmeRuns).view "acme") ∧
    ¬∀ call : ServiceCall Nat, call.ctx.tenantId = "globex" →
      HidesFrom "acme" (perform echoBodies (run (serviceStep echoBodies) {} acmeRuns) call).1 := by
  constructor
  · intro h
    have hview := h [calledBy "globex" (.updateDefinition (oneTask "order" "Stolen"))] (by decide)
    have hnames := congrArg (fun v => v.definitions.map fun row => row.definition.name) hview
    revert hnames
    decide +kernel
  · intro h
    have hrecords := h (calledBy "globex" (.getStepExecutions "01")) rfl _ rfl
    revert hrecords
    decide +kernel

end Examples

end PlexSpaces.Workflow
