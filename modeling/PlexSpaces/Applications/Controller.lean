import PlexSpaces.Applications.StartupOrder
import PlexSpaces.Lib.Pool
import PlexSpaces.Lib.Progress

/-!
# The application controller

One call of `start` among others.  Between any two of its accesses the others may load
applications, write statuses and set the node, which is all that the methods of the controller do to
its tables.  What the applications do when they are started and stopped is a parameter; the trace
tells what the call did with them and saw of them.

Whatever the others do, `start` starts an application only after each of its dependencies was found
running or has been started; with success the call has found running or started all that is needed,
and after a failure exactly what it had started is stopped, the last first (`start_settles`).
-/

namespace PlexSpaces.Applications

open PlexSpaces.Lib

inductive ApplicationStatus
  | unspecified
  | loading
  | starting
  | running
  | stopping
  | stopped
  | failed
  deriving DecidableEq

structure ApplicationController where
  applications : List String
  states : Assoc String ApplicationStatus
  configs : Configs
  node : Bool

namespace ApplicationController

def new : ApplicationController := ⟨[], ∅, ∅, false⟩

def load (s : ApplicationController) (app : String) (config : ApplicationSpec) :
    Except ApplicationError ApplicationController :=
  if app ∈ s.applications then
    .error (.startupFailed ("Application " ++ app ++ " already loaded"))
  else
    .ok { s with
      applications := s.applications ++ [app]
      states := s.states.insert app .loading
      configs := s.configs.insert app config }

/-- `if let Some(state) = states.get_mut(name) { state.status = status }`. -/
def setStatus (s : ApplicationController) (app : String) (status : ApplicationStatus) :
    ApplicationController :=
  if app ∈ s.states then { s with states := s.states.insert app status } else s

inductive StopResult
  | ok
  | failed (e : ApplicationError)
  | timedOut

/-- What a call to `start` does with an application or sees of it. -/
inductive StartStep
  | foundRunning (app : String)
  | starting (app : String)
  | started (app : String)
  | failed (app : String)
  | stopping (app : String)

/-- The controller, and what the call has done. -/
structure Site where
  controller : ApplicationController
  trace : List StartStep

/-- The accesses of a call. -/
inductive Request
  | configs
  | node
  | isRunning (app : String)
  | getApplication (app : String)
  | setStatus (app : String) (status : ApplicationStatus)
  | appStart (app : String)
  | appStarted (app : String) (outcome : Except ApplicationError Unit)
  | appStop (app : String) (outcome : StopResult)

@[reducible] def Reply : Request → Type
  | .configs => Configs
  | .node => Bool
  | .isRunning _ => Bool
  | .getApplication _ => Bool
  | .appStarted _ _ => Except ApplicationError Unit
  | .appStop _ _ => StopResult
  | _ => Unit

namespace Site

def record (s : Site) (step : StartStep) : Site := { s with trace := s.trace ++ [step] }

def serve : (request : Request) → Site → Reply request × Site
  | .configs, s => (s.controller.configs, s)
  | .node, s => (s.controller.node, s)
  | .isRunning app, s =>
      if s.controller.states.lookup app = some .running then (true, s.record (.foundRunning app))
      else (false, s)
  | .getApplication app, s => (decide (app ∈ s.controller.applications), s)
  | .setStatus app status, s => ((), { s with controller := s.controller.setStatus app status })
  | .appStart app, s => ((), s.record (.starting app))
  | .appStarted app (.ok ()), s => (.ok (), s.record (.started app))
  | .appStarted app (.error e), s => (.error e, s.record (.failed app))
  | .appStop app outcome, s => (outcome, s.record (.stopping app))

end Site

/-! ## Methods -/

/-- Why a call does not succeed. -/
inductive Halt
  | failed (e : ApplicationError)
  | panicked

abbrev Method (α : Type) : Type := ExceptT Halt (Interaction Reply) α

def ask (request : Request) : Method (Reply request) := ExceptT.lift (Interaction.send request)

def fail {α : Type} (e : ApplicationError) : Method α := throw (.failed e)

/-- The timeout is in seconds; with zero there is none, and no outcome `timedOut`. -/
def stop (app : String) (timeoutSecs : Nat) (outcome : StopResult) : Method Unit := do
  if ← ask (.getApplication app) then
    ask (.setStatus app .stopping)
    match ← ask (.appStop app outcome) with
    | .ok => ask (.setStatus app .stopped)
    | .timedOut =>
        fail (.shutdownFailed ("Timeout stopping " ++ app ++ " after " ++ toString timeoutSecs
          ++ "s"))
    | .failed e => fail (.shutdownFailed ("Failed to stop " ++ app ++ ": " ++ e.toText))
  else fail (.notFound app)

/-- The loop of `start`: what it has started, and what failed to start. -/
def startEach (starts : String → Except ApplicationError Unit) :
    List String → List String → Method (List String × Option String)
  | [], started => pure (started, none)
  | app :: rest, started => do
      if ← ask (.isRunning app) then startEach starts rest started
      else if ← ask (.getApplication app) then
        ask (.setStatus app .starting)
        ask (.appStart app)
        match ← ask (.appStarted app (starts app)) with
        | .ok () =>
            ask (.setStatus app .running)
            startEach starts rest (started ++ [app])
        | .error _ =>
            ask (.setStatus app .failed)
            pure (started, some app)
      else fail (.notFound app)

def rollback (stops : String → StopResult) : List String → Method Unit
  | [] => pure ()
  | app :: rest => do
      ExceptT.mk do
        let _ ← (stop app 30 (stops app)).run
        pure (.ok ())
      rollback stops rest

def start (name : String) (starts : String → Except ApplicationError Unit)
    (stops : String → StopResult) : Method Unit := do
  let checked ← ask .configs
  let built ← ask .configs
  let counted ← ask .configs
  match resolveStartupOrder checked built counted name with
  | none => throw .panicked
  | some (.error e) => fail e
  | some (.ok order) =>
      if ← ask .node then
        match ← startEach starts order [] with
        | (_, none) => pure ()
        | (started, some failedApp) =>
            rollback stops started.reverse
            fail (.startupFailed ("Failed to start " ++ name ++ ": dependency " ++ failedApp
              ++ " failed to start"))
      else
        fail (.startupFailed
          "ApplicationNode not set. Call set_node() before starting applications.")

/-! ## The others -/

/-- What other calls do to the tables. -/
inductive Outside
  | load (app : String) (config : ApplicationSpec)
  | setStatus (app : String) (status : ApplicationStatus)
  | setNode

def Site.other (s : Site) : Outside → Site
  | .load app config =>
      match s.controller.load app config with
      | .ok controller => { s with controller }
      | .error _ => s
  | .setStatus app status => { s with controller := s.controller.setStatus app status }
  | .setNode => { s with controller := { s.controller with node := true } }

/-- A call among others.  Where it waits for the lock of an application, the others go on. -/
def world : World Reply Site Outside where
  serve request s := some (s.serve request)
  other := Site.other

/-! ## Traces -/

/-- The call found the application running, or has started it. -/
def Up (trace : List StartStep) (app : String) : Prop :=
  .foundRunning app ∈ trace ∨ .started app ∈ trace

theorem Up.mono {trace trace' : List StartStep} {app : String} (h : Up trace app)
    (hsub : trace ⊆ trace') : Up trace' app :=
  h.imp (fun h => hsub h) fun h => hsub h

/-- What the call may do after the steps `before`. -/
def StartStep.InOrder (configs : Configs) (name : String) (before : List StartStep) :
    StartStep → Prop
  | .starting app => app ∈ configs ∧ Relation.ReflTransGen (Needs (dependencies configs)) name app ∧
      ∀ dep ∈ dependencies configs app, Up before dep
  | _ => True

def startedOf (trace : List StartStep) : List String :=
  trace.filterMap fun
    | .started app => some app
    | _ => none

def failedOf (trace : List StartStep) : List String :=
  trace.filterMap fun
    | .failed app => some app
    | _ => none

def stoppingOf (trace : List StartStep) : List String :=
  trace.filterMap fun
    | .stopping app => some app
    | _ => none

/-- Every configuration of the one table is one of the other. -/
def Extends (configs configs' : Configs) : Prop :=
  ∀ app config, configs.lookup app = some config → configs'.lookup app = some config

theorem Extends.mem {configs configs' : Configs} (h : Extends configs configs') {app : String}
    (happ : app ∈ configs) : app ∈ configs' := by
  obtain ⟨config, hconfig⟩ := Option.isSome_iff_exists.mp (AList.lookup_isSome.mpr happ)
  exact AList.lookup_isSome.mp (by rw [h app config hconfig]; rfl)

theorem Extends.dependencies_eq {configs configs' : Configs} (h : Extends configs configs')
    {app : String} (happ : app ∈ configs) :
    dependencies configs' app = dependencies configs app := by
  obtain ⟨config, hconfig⟩ := Option.isSome_iff_exists.mp (AList.lookup_isSome.mpr happ)
  rw [dependencies, dependencies, h app config hconfig, hconfig]

theorem Extends.needs {configs configs' : Configs} (h : Extends configs configs')
    {app dep : String} (hneeds : Needs (dependencies configs) app dep) :
    Needs (dependencies configs') app dep := by
  have happ : app ∈ configs := by
    by_contra hnot
    rw [Needs, dependencies, AList.lookup_eq_none.mpr hnot] at hneeds
    exact List.not_mem_nil hneeds
  rw [Needs, h.dependencies_eq happ]
  exact hneeds

theorem StartStep.InOrder.extend {configs configs' : Configs} (h : Extends configs configs')
    {name : String} {before : List StartStep} {step : StartStep}
    (hstep : step.InOrder configs name before) : step.InOrder configs' name before := by
  cases step with
  | starting app =>
      obtain ⟨happ, hreach, hdeps⟩ := hstep
      have hle : Needs (dependencies configs) ≤ Needs (dependencies configs') :=
        fun _ _ => h.needs
      refine ⟨h.mem happ, Relation.ReflTransGen.mono hle _ _ hreach, ?_⟩
      rw [h.dependencies_eq happ]
      exact hdeps
  | foundRunning app => trivial
  | started app => trivial
  | failed app => trivial
  | stopping app => trivial

/-- What the call knows: the configurations it has read still stand, and what it has done. -/
structure Knows (configs : Configs) (done : List StartStep → Prop) (s : Site) : Prop where
  stands : Extends configs s.controller.configs
  loaded : ∀ app ∈ s.controller.configs, app ∈ s.controller.applications
  done : done s.trace

section Knows

variable {configs : Configs} {done done' : List StartStep → Prop} {s : Site}

theorem setStatus_tables (c : ApplicationController) (app : String) (status : ApplicationStatus) :
    (c.setStatus app status).configs = c.configs ∧
      (c.setStatus app status).applications = c.applications := by
  unfold setStatus
  split <;> exact ⟨rfl, rfl⟩

theorem Knows.setStatus (h : Knows configs done s) (app : String) (status : ApplicationStatus) :
    Knows configs done { s with controller := s.controller.setStatus app status } := by
  obtain ⟨hconfigs, happlications⟩ := setStatus_tables s.controller app status
  constructor
  · show Extends configs (s.controller.setStatus app status).configs
    rw [hconfigs]
    exact h.stands
  · show ∀ app' ∈ (s.controller.setStatus app status).configs,
      app' ∈ (s.controller.setStatus app status).applications
    rw [hconfigs, happlications]
    exact h.loaded
  · exact h.done

theorem knows_stable (configs : Configs) (done : List StartStep → Prop) :
    world.Stable (Knows configs done) := by
  intro s move h
  cases move with
  | setStatus app status => exact h.setStatus app status
  | setNode => exact ⟨h.stands, h.loaded, h.done⟩
  | load app config =>
      show Knows configs done (Site.other s (.load app config))
      by_cases happ : app ∈ s.controller.applications
      · have hsame : Site.other s (.load app config) = s := by simp [Site.other, load, happ]
        rw [hsame]
        exact h
      · have hother : Site.other s (.load app config) = { s with
            controller := { s.controller with
              applications := s.controller.applications ++ [app]
              states := s.controller.states.insert app .loading
              configs := s.controller.configs.insert app config } } := by
          simp [Site.other, load, happ]
        rw [hother]
        have hnew : app ∉ s.controller.configs := fun hmem => happ (h.loaded app hmem)
        constructor
        · intro app' config' hconfig
          have hstands := h.stands app' config' hconfig
          show (s.controller.configs.insert app config).lookup app' = some config'
          rw [Assoc.lookup_insert, if_neg, hstands]
          rintro rfl
          exact hnew (AList.lookup_isSome.mp (by rw [hstands]; rfl))
        · intro app' hmem
          rcases (AList.mem_insert _).mp hmem with rfl | hmem
          · exact List.mem_append_right _ (List.mem_singleton_self _)
          · exact List.mem_append_left _ (h.loaded app' hmem)
        · exact h.done

theorem Knows.record (h : Knows configs done s) {step : StartStep}
    (hdone : ∀ trace, done trace → done' (trace ++ [step])) : Knows configs done' (s.record step) :=
  ⟨h.stands, h.loaded, hdone _ h.done⟩

theorem Knows.mono (h : Knows configs done s) (hdone : ∀ trace, done trace → done' trace) :
    Knows configs done' s :=
  ⟨h.stands, h.loaded, hdone _ h.done⟩

end Knows

/-! ## Rules -/

/-- The trace is in the order of the configurations, and no application is started twice. -/
def InOrder (configs : Configs) (name : String) (trace : List StartStep) : Prop :=
  EachAfter (StartStep.InOrder configs name) trace ∧ (startedOf trace ++ failedOf trace).Nodup

def Orderly (name : String) (s : Site) : Prop := InOrder s.controller.configs name s.trace

theorem Knows.orderly {configs : Configs} {done : List StartStep → Prop} {name : String}
    {s : Site} (h : Knows configs done s)
    (hdone : ∀ trace, done trace → InOrder configs name trace) : Orderly name s := by
  obtain ⟨hordered, hnodup⟩ := hdone _ h.done
  exact ⟨fun before step after htrace => (hordered before step after htrace).extend h.stands,
    hnodup⟩

section Rules

variable {β : Type} {configs : Configs} {done : List StartStep → Prop} {name : String} {s : Site}

theorem ends_ask_bind (hs : Knows configs done s)
    (horder : ∀ trace, done trace → InOrder configs name trace) {request : Request}
    {f : Reply request → Method β} {Q : Except Halt β → Site → Prop}
    (hnext : ∀ s, Knows configs done s →
      world.ends (Orderly name) Q (f (s.serve request).1).run (s.serve request).2) :
    world.ends (Orderly name) Q (ask request >>= f).run s := by
  apply World.ends_ask (knows_stable configs done) (fun s hs => hs.orderly horder) hs
  · exact fun s _ => ⟨s, World.Leads.refl, rfl⟩
  · intro s reply s' hs hserve
    have hserved : s.serve request = (reply, s') := Option.some.inj hserve
    have h := hnext s hs
    rw [hserved] at h
    exact h

theorem ends_getApplication (hs : Knows configs done s)
    (horder : ∀ trace, done trace → InOrder configs name trace) {app : String}
    (happ : app ∈ configs) {found missing : Method β} {Q : Except Halt β → Site → Prop}
    (hnext : ∀ s, Knows configs done s → world.ends (Orderly name) Q found.run s) :
    world.ends (Orderly name) Q
      (ask (.getApplication app) >>= fun loaded => if loaded then found else missing).run s := by
  refine ends_ask_bind hs horder fun s hs => ?_
  have hloaded : (s.serve (.getApplication app)).1 = true :=
    decide_eq_true (hs.loaded app (hs.stands.mem happ))
  rw [if_pos hloaded]
  exact hnext s hs

theorem ends_return (hs : Knows configs done s)
    (horder : ∀ trace, done trace → InOrder configs name trace) {result : Except Halt β}
    {Q : Except Halt β → Site → Prop} (hQ : ∀ s, Knows configs done s → Q result s) :
    world.ends (Orderly name) Q (.done result) s :=
  World.ends_done (knows_stable configs done) (fun _ hs => hs.orderly horder) hs hQ

end Rules

/-! ## The loops -/

/-- The call has found the applications `done` running or has started them, as it did some. -/
structure Progress (configs : Configs) (name : String) (done started : List String)
    (trace : List StartStep) : Prop where
  ordered : EachAfter (StartStep.InOrder configs name) trace
  up : ∀ app ∈ done, Up trace app
  startedEq : startedOf trace = started
  failedEq : failedOf trace = []
  stoppingEq : stoppingOf trace = []
  nodup : done.Nodup
  sublist : started.Sublist done

/-- An application has failed to start after those that the call has `started`, of which it has
stopped some. -/
structure Failing (configs : Configs) (name : String) (started : List String) (failedApp : String)
    (stopped : List String) (trace : List StartStep) : Prop where
  ordered : EachAfter (StartStep.InOrder configs name) trace
  startedEq : startedOf trace = started
  failedEq : failedOf trace = [failedApp]
  stoppingEq : stoppingOf trace = stopped
  nodup : (started ++ [failedApp]).Nodup

section Steps

variable {configs : Configs} {name app failedApp : String} {done started stopped : List String}
variable {trace : List StartStep}

theorem startedOf_concat (step : StartStep) :
    startedOf (trace ++ [step]) = startedOf trace ++ startedOf [step] := List.filterMap_append

theorem failedOf_concat (step : StartStep) :
    failedOf (trace ++ [step]) = failedOf trace ++ failedOf [step] := List.filterMap_append

theorem stoppingOf_concat (step : StartStep) :
    stoppingOf (trace ++ [step]) = stoppingOf trace ++ stoppingOf [step] := List.filterMap_append

theorem Progress.inOrder (h : Progress configs name done started trace) :
    InOrder configs name trace := by
  refine ⟨h.ordered, ?_⟩
  rw [h.startedEq, h.failedEq, List.append_nil]
  exact h.nodup.sublist h.sublist

theorem Failing.inOrder (h : Failing configs name started failedApp stopped trace) :
    InOrder configs name trace := by
  refine ⟨h.ordered, ?_⟩
  rw [h.startedEq, h.failedEq]
  exact h.nodup

theorem Progress.starting (h : Progress configs name done started trace) (happ : app ∈ configs)
    (hreach : Relation.ReflTransGen (Needs (dependencies configs)) name app)
    (hdeps : ∀ dep ∈ dependencies configs app, dep ∈ done) :
    Progress configs name done started (trace ++ [.starting app]) where
  ordered := h.ordered.concat ⟨happ, hreach, fun dep hdep => h.up dep (hdeps dep hdep)⟩
  up a ha := (h.up a ha).mono (List.subset_append_left _ _)
  startedEq := by rw [startedOf_concat, h.startedEq]; exact List.append_nil _
  failedEq := by rw [failedOf_concat, h.failedEq]; rfl
  stoppingEq := by rw [stoppingOf_concat, h.stoppingEq]; rfl
  nodup := h.nodup
  sublist := h.sublist

theorem Progress.foundRunning (h : Progress configs name done started trace) (hnew : app ∉ done) :
    Progress configs name (done ++ [app]) started (trace ++ [.foundRunning app]) where
  ordered := h.ordered.concat trivial
  up a ha := by
    rcases List.mem_append.mp ha with ha | ha
    · exact (h.up a ha).mono (List.subset_append_left _ _)
    · rw [List.mem_singleton.mp ha]
      exact Or.inl (List.mem_append_right _ (List.mem_singleton_self _))
  startedEq := by rw [startedOf_concat, h.startedEq]; exact List.append_nil _
  failedEq := by rw [failedOf_concat, h.failedEq]; rfl
  stoppingEq := by rw [stoppingOf_concat, h.stoppingEq]; rfl
  nodup := by
    rw [← List.concat_eq_append]
    exact h.nodup.concat hnew
  sublist := h.sublist.trans (List.sublist_append_left _ _)

theorem Progress.appStarted (h : Progress configs name done started trace) (hnew : app ∉ done) :
    Progress configs name (done ++ [app]) (started ++ [app]) (trace ++ [.started app]) where
  ordered := h.ordered.concat trivial
  up a ha := by
    rcases List.mem_append.mp ha with ha | ha
    · exact (h.up a ha).mono (List.subset_append_left _ _)
    · rw [List.mem_singleton.mp ha]
      exact Or.inr (List.mem_append_right _ (List.mem_singleton_self _))
  startedEq := by rw [startedOf_concat, h.startedEq]; rfl
  failedEq := by rw [failedOf_concat, h.failedEq]; rfl
  stoppingEq := by rw [stoppingOf_concat, h.stoppingEq]; rfl
  nodup := by
    rw [← List.concat_eq_append]
    exact h.nodup.concat hnew
  sublist := h.sublist.append (List.Sublist.refl _)

theorem Progress.appFailed (h : Progress configs name done started trace) (hnew : app ∉ done) :
    Failing configs name started app [] (trace ++ [.failed app]) where
  ordered := h.ordered.concat trivial
  startedEq := by rw [startedOf_concat, h.startedEq]; exact List.append_nil _
  failedEq := by rw [failedOf_concat, h.failedEq]; rfl
  stoppingEq := by rw [stoppingOf_concat, h.stoppingEq]; rfl
  nodup := by
    rw [← List.concat_eq_append]
    exact (h.nodup.sublist h.sublist).concat fun hmem => hnew (h.sublist.subset hmem)

theorem Failing.appStopping (h : Failing configs name started failedApp stopped trace)
    (app : String) :
    Failing configs name started failedApp (stopped ++ [app]) (trace ++ [.stopping app]) where
  ordered := h.ordered.concat trivial
  startedEq := by rw [startedOf_concat, h.startedEq]; exact List.append_nil _
  failedEq := by rw [failedOf_concat, h.failedEq]; rfl
  stoppingEq := by rw [stoppingOf_concat, h.stoppingEq]; rfl
  nodup := h.nodup

end Steps

section Loops

variable {configs : Configs} {name : String} {order : List String}

/-- What the loop of `start` ends with. -/
def Started (configs : Configs) (name : String) (order : List String) :
    Except Halt (List String × Option String) → Site → Prop
  | .ok (started, none), s => Knows configs (Progress configs name order started) s
  | .ok (started, some app), s =>
      Knows configs (Failing configs name started app []) s ∧ ∀ a ∈ started, a ∈ configs
  | .error _, _ => False

theorem ends_startEach (starts : String → Except ApplicationError Unit)
    (horder : StartupOrder (dependencies configs) name order)
    (hknown : ∀ app ∈ order, app ∈ configs) {rest done started : List String} {s : Site}
    (hsplit : order = done ++ rest) (hs : Knows configs (Progress configs name done started) s) :
    world.ends (Orderly name) (Started configs name order)
      (startEach starts rest started).run s := by
  induction rest generalizing done started s with
  | nil =>
      rw [List.append_nil] at hsplit
      subst hsplit
      exact ends_return hs (fun _ h => h.inOrder) fun _ h => h
  | cons app rest ih =>
      have hdeps : ∀ dep ∈ dependencies configs app, dep ∈ done :=
        horder.ordered done app rest hsplit
      have hnew : app ∉ done := by
        have hnodup := horder.nodup
        rw [hsplit] at hnodup
        exact fun hmem => (List.disjoint_of_nodup_append hnodup) hmem List.mem_cons_self
      have hmem : app ∈ order := by
        rw [hsplit]
        exact List.mem_append_right _ List.mem_cons_self
      have happ : app ∈ configs := hknown app hmem
      have hreach := (horder.needed app).mp hmem
      have hnext : order = done ++ [app] ++ rest := by
        rw [hsplit, List.append_assoc, List.singleton_append]
      unfold startEach
      refine ends_ask_bind hs (fun _ h => h.inOrder) fun s hs => ?_
      rw [Site.serve]
      split
      · exact ih hnext (hs.record fun _ h => h.foundRunning hnew)
      refine ends_getApplication hs (fun _ h => h.inOrder) happ fun s hs => ?_
      refine ends_ask_bind hs (fun _ h => h.inOrder) fun s hs => ?_
      refine ends_ask_bind (hs.setStatus app .starting) (fun _ h => h.inOrder) fun s hs => ?_
      have hstarting : Knows configs (Progress configs name done started)
          (s.record (.starting app)) := hs.record fun _ h => h.starting happ hreach hdeps
      refine ends_ask_bind hstarting (fun _ h => h.inOrder) fun s hs => ?_
      cases starts app with
      | ok =>
          have hstarted := hs.record fun _ h => h.appStarted hnew
          refine ends_ask_bind hstarted (fun _ h => h.inOrder) fun s hs => ?_
          exact ih hnext (hs.setStatus app .running)
      | error e =>
          have hfailed := hs.record fun _ h => h.appFailed hnew
          refine ends_ask_bind hfailed (fun _ h => h.inOrder) fun s hs => ?_
          have hstarted : ∀ a ∈ started, a ∈ configs := fun a ha =>
            hknown a (hsplit ▸ List.mem_append_left _ (hstarting.done.sublist.subset ha))
          exact ends_return (hs.setStatus app .failed) (fun _ h => h.inOrder) fun s hs =>
            ⟨hs, hstarted⟩

variable {started stopped : List String} {app failedApp : String} {s : Site}

theorem ends_stop (happ : app ∈ configs) (timeoutSecs : Nat) (outcome : StopResult)
    (hs : Knows configs (Failing configs name started failedApp stopped) s) :
    world.ends (Orderly name)
      (fun _ => Knows configs (Failing configs name started failedApp (stopped ++ [app])))
      (stop app timeoutSecs outcome).run s := by
  unfold stop
  refine ends_getApplication hs (fun _ h => h.inOrder) happ fun s hs => ?_
  refine ends_ask_bind hs (fun _ h => h.inOrder) fun s hs => ?_
  refine ends_ask_bind (hs.setStatus app .stopping) (fun _ h => h.inOrder) fun s hs => ?_
  have hstopping := hs.record fun _ h => h.appStopping app
  cases outcome with
  | ok =>
      refine ends_ask_bind hstopping (fun _ h => h.inOrder) (f := pure) fun s hs => ?_
      exact ends_return (hs.setStatus app .stopped) (fun _ h => h.inOrder) fun _ h => h
  | failed e => exact ends_return hstopping (fun _ h => h.inOrder) fun _ h => h
  | timedOut => exact ends_return hstopping (fun _ h => h.inOrder) fun _ h => h

theorem ends_rollback (stops : String → StopResult) {rest : List String}
    (hknown : ∀ app ∈ rest, app ∈ configs)
    (hs : Knows configs (Failing configs name started failedApp stopped) s) :
    world.ends (Orderly name)
      (fun result s => result = .ok () ∧
        Knows configs (Failing configs name started failedApp (stopped ++ rest)) s)
      (rollback stops rest).run s := by
  induction rest generalizing stopped s with
  | nil =>
      refine ends_return hs (fun _ h => h.inOrder) fun s hs => ⟨rfl, ?_⟩
      rw [List.append_nil]
      exact hs
  | cons app rest ih =>
      have happ : app ∈ configs := hknown app List.mem_cons_self
      refine World.ends_bindExcept (World.ends_bind (World.ends_mono (fun _ s hs => ?_)
        (ends_stop happ 30 (stops app) hs)))
      refine ends_return hs (fun _ h => h.inOrder) fun s hs => ?_
      have h := ih (fun a ha => hknown a (List.mem_cons_of_mem _ ha)) hs
      rw [List.append_assoc] at h
      exact h

end Loops

/-! ## The call -/

/-- The order is an error, or leads over what the graph was built from. -/
theorem resolveStartupOrder_cases {checked built counted : Configs}
    (hbuilt : ∀ app ∈ checked, app ∈ built) (hcounted : ∀ app ∈ built, app ∈ counted)
    (name : String) :
    (∃ e, resolveStartupOrder checked built counted name = some (.error e)) ∨
      ∃ order, resolveStartupOrder checked built counted name = some (.ok order) ∧
        StartupOrder (dependencies built) name order ∧ ∀ app ∈ order, app ∈ built := by
  by_cases hname : name ∈ checked
  · rcases buildDependencyGraph_cases built with ⟨g, hgraph, h⟩ | ⟨app, dep, -, -, hgraph⟩
    · rcases resolveStartupOrder_built hbuilt hcounted hname hgraph h with
        ⟨-, hresult⟩ | ⟨-, order, hresult, horder⟩
      · exact Or.inl ⟨_, hresult⟩
      · refine Or.inr ⟨order, hresult, horder, fun app happ => ?_⟩
        rcases ((horder.needed app).mp happ).cases_tail with rfl | ⟨a, -, hneeds⟩
        · exact hbuilt _ hname
        · exact h.mem_of_needs hneeds
    · exact Or.inl ⟨_, by rw [resolveStartupOrder, if_neg (not_not.mpr hname), hgraph]⟩
  · exact Or.inl ⟨_, if_pos hname⟩

/-- The message after the application `failedApp` failed to start. -/
def rolledBack (name failedApp : String) : ApplicationError :=
  .startupFailed ("Failed to start " ++ name ++ ": dependency " ++ failedApp ++ " failed to start")

/-- How a call to `start` ends: it has found running or started all that the application needs, as
the configurations stand then; or it has done nothing; or one application has failed, and what the
call had started was told to stop. -/
def Settled (name : String) : Except Halt Unit → Site → Prop
  | .ok (), s =>
      (∀ app, Relation.ReflTransGen (Needs (dependencies s.controller.configs)) name app →
        Up s.trace app) ∧ failedOf s.trace = [] ∧ stoppingOf s.trace = []
  | .error (.failed e), s =>
      s.trace = [] ∨ ∃ failedApp, e = rolledBack name failedApp ∧ failedOf s.trace = [failedApp] ∧
        stoppingOf s.trace = (startedOf s.trace).reverse
  | .error .panicked, _ => False

theorem inOrder_nil (configs : Configs) (name : String) {trace : List StartStep} (h : trace = []) :
    InOrder configs name trace := by
  subst h
  exact ⟨eachAfter_nil, List.nodup_nil⟩

/-- What the later configurations make `name` need is what the order was made from. -/
theorem mem_order_of_needs {built configs : Configs} (h : Extends built configs) {name app : String}
    {order : List String} (horder : StartupOrder (dependencies built) name order)
    (hknown : ∀ app ∈ order, app ∈ built)
    (hreach : Relation.ReflTransGen (Needs (dependencies configs)) name app) : app ∈ order := by
  induction hreach with
  | refl => exact (horder.needed name).mpr Relation.ReflTransGen.refl
  | tail _ hneeds ih =>
      rw [Needs, h.dependencies_eq (hknown _ ih)] at hneeds
      exact (horder.needed _).mpr (((horder.needed _).mp ih).tail hneeds)

theorem ends_start (name : String) (starts : String → Except ApplicationError Unit)
    (stops : String → StopResult) {s : Site} (hs : Knows ∅ (· = []) s) :
    world.ends (Orderly name) (Settled name) (start name starts stops).run s := by
  have hnil {configs : Configs} (trace : List StartStep) (h : trace = []) :
      InOrder configs name trace := inOrder_nil configs name h
  unfold start
  refine ends_ask_bind hs hnil fun s hs => ?_
  have hchecked : Knows s.controller.configs (· = []) s := ⟨fun _ _ h => h, hs.loaded, hs.done⟩
  refine ends_ask_bind hchecked hnil fun s' hs' => ?_
  have hbuilt : Knows s'.controller.configs (· = []) s' := ⟨fun _ _ h => h, hs'.loaded, hs'.done⟩
  refine ends_ask_bind hbuilt hnil fun s'' hs'' => ?_
  simp only [Site.serve]
  rcases resolveStartupOrder_cases (fun _ h => hs'.stands.mem h) (fun _ h => hs''.stands.mem h)
    name with ⟨e, hresult⟩ | ⟨order, hresult, horder, hknown⟩
  · rw [hresult]
    exact ends_return hs'' hnil fun s hs => Or.inl hs.done
  rw [hresult]
  refine ends_ask_bind hs'' hnil fun s hs => ?_
  by_cases hnode : (s.serve .node).1 = true
  · rw [if_pos hnode]
    have hbegin : Knows s'.controller.configs (Progress s'.controller.configs name [] []) s := by
      apply hs.mono
      rintro trace rfl
      exact ⟨eachAfter_nil, fun a ha => absurd ha List.not_mem_nil, rfl, rfl, rfl, List.nodup_nil,
        List.Sublist.refl _⟩
    refine World.ends_bindExcept (World.ends_mono (fun result s hs => ?_)
      (ends_startEach starts horder hknown (List.nil_append order).symm hbegin))
    rcases result with _ | ⟨started, _ | failedApp⟩
    · exact hs.elim
    · refine ends_return hs (fun _ h => h.inOrder) fun s hs => ⟨fun app hreach => ?_, ?_⟩
      · exact hs.done.up app (mem_order_of_needs hs.stands horder hknown hreach)
      · exact ⟨hs.done.failedEq, hs.done.stoppingEq⟩
    · obtain ⟨hs, hstarted⟩ := hs
      refine World.ends_bindExcept (World.ends_mono (fun result s hs => ?_)
        (ends_rollback stops (fun a ha => hstarted a (List.mem_reverse.mp ha)) hs))
      obtain ⟨rfl, hs⟩ := hs
      refine ends_return hs (fun _ h => h.inOrder) fun s hs => Or.inr ⟨failedApp, rfl, ?_⟩
      refine ⟨hs.done.failedEq, ?_⟩
      rw [hs.done.stoppingEq, hs.done.startedEq]
      rfl
  · rw [if_neg hnode]
    exact ends_return hs hnil fun s hs => Or.inl hs.done

/-- A call to `start`, whatever the other calls do before and meanwhile: it starts only what the
application needs, each after all of its dependencies were found running or started, and none twice;
the call can always be brought to its end; and at its end either it has found running or started all
that the application needs, or nothing was done, or one application failed and those that the call
had started were told to stop, the last first. -/
theorem start_settles (name : String) (starts : String → Except ApplicationError Unit)
    (stops : String → StopResult) (turns : List (Lib.Turn Outside)) :
    let m := run world.step ⟨⟨new, []⟩, (start name starts stops).run⟩ turns
    Orderly name m.state ∧ (∀ result, m.main = .done result → Settled name result m.state) ∧
      ∃ more result, (run world.step m more).main = .done result := by
  intro m
  have hnew : Knows ∅ (· = []) ⟨new, []⟩ :=
    ⟨fun _ _ h => by simp at h, fun _ h => absurd h (AList.notMem_empty _), rfl⟩
  have hends := World.ends_run (m := ⟨⟨new, []⟩, (start name starts stops).run⟩)
    (ends_start name starts stops hnew) turns
  refine ⟨World.ends_invariant hends, fun result hdone => ?_, World.ends_reaches hends⟩
  rw [show (run world.step _ turns).main = .done result from hdone] at hends
  exact (hends _ .refl).2

end ApplicationController

end PlexSpaces.Applications
