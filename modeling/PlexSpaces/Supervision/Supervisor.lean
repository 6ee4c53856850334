import Mathlib.Data.List.TakeWhile
import PlexSpaces.Lib.Assoc
import PlexSpaces.Lib.Separator
import PlexSpaces.Lib.Table
/-!
# Supervisor

A supervisor keeps its children in the order in which they were started.
`handleFailure` applies the strategy to a failed child: `restartOne` visits one child,
and the group strategies visit several, one after the other, and stop at the first
error.

A visit prunes the history of the child, refuses it when the history has reached the
limit, appends the time of the visit, and then asks the restart policy of the child.
Whatever the strategy, a call is a loop of visits over its scope (`handleFailure_loop`).

Starting the new actor is not modelled; its outcome is a parameter.  The log of visits
stands for the events that the supervisor sends.
-/

namespace PlexSpaces.Supervision

open PlexSpaces.Lib

inductive ExitReason (ι : Type)
  | normal
  | shutdown
  | killed
  | error (message : String)
  | linked (actorId : ι) (reason : ExitReason ι)

/-- `ActorId::from_canonical`, and the id that stands for an unknown linked actor. -/
structure ActorIds (ι : Type) where
  fromCanonical : String → Option ι
  unknownLinked : ι

namespace ExitReason

variable {ι : Type}

def parse (ids : ActorIds ι) (s : List Char) : ExitReason ι :=
  if s = "normal".toList then .normal
  else if s = "shutdown".toList then .shutdown
  else if s = "killed".toList then .killed
  else if "linked:".toList.isPrefixOf s then
    match _hcut : cut ':' (s.drop 7) with
    | some (actorId, reason) =>
        .linked ((ids.fromCanonical (String.ofList actorId)).getD ids.unknownLinked)
          (parse ids reason)
    | none => .error (String.ofList s)
  else .error (String.ofList s)
termination_by s.length
decreasing_by
  have hlt := length_lt_of_cut _hcut
  rw [List.length_drop] at hlt
  omega

/-- `str::parse::<ExitReason>`, which never fails. -/
def fromStr (ids : ActorIds ι) (s : String) : ExitReason ι := parse ids s.toList

end ExitReason

inductive RestartPolicy
  | unspecified
  | permanent
  | transient
  | temporary
  | exponentialBackoff
  deriving DecidableEq

/-- `RestartPolicy::try_from`. -/
def RestartPolicy.tryFrom : Int → Option RestartPolicy
  | 0 => some unspecified
  | 1 => some permanent
  | 2 => some transient
  | 3 => some temporary
  | 4 => some exponentialBackoff
  | _ => none

/-- The answer of a restart policy to an exit; `none` is an unknown reason. -/
def RestartPolicy.shouldRestart {ι : Type} (policy : RestartPolicy)
    (exitReason : Option (ExitReason ι)) : Bool :=
  match policy with
  | .permanent | .unspecified => true
  | .transient =>
      match exitReason with
      | some .normal | some .shutdown => false
      | some (.error _) | some .killed => true
      | some (.linked _ (.error _)) | some (.linked _ .killed) => true
      | some (.linked _ _) => false
      | none => true
  | .temporary => false
  | .exponentialBackoff => true

structure SupervisedActor (ι : Type) where
  actorId : ι
  restart : Int
  restartCount : UInt32
  lastRestart : Option Nat
  restartTimestamps : List Nat

inductive SupervisionStrategy
  | oneForOne (maxRestarts : UInt32) (withinSeconds : UInt64)
  | oneForAll (maxRestarts : UInt32) (withinSeconds : UInt64)
  | restForOne (maxRestarts : UInt32) (withinSeconds : UInt64)
  | adaptive (initialStrategy : SupervisionStrategy) (learningRate : Float)
  | custom (name : String)

/-- The limits of a strategy; `none` when it restarts nothing. -/
def SupervisionStrategy.limits : SupervisionStrategy → Option (UInt32 × UInt64)
  | .oneForOne maxRestarts withinSeconds
  | .oneForAll maxRestarts withinSeconds
  | .restForOne maxRestarts withinSeconds
  | .adaptive (.oneForOne maxRestarts withinSeconds) _
  | .adaptive (.oneForAll maxRestarts withinSeconds) _
  | .adaptive (.restForOne maxRestarts withinSeconds) _ => some (maxRestarts, withinSeconds)
  | _ => none

inductive SupervisorError (ι : Type)
  | childNotFound (actorId : ι)
  | maxRestartsExceeded
  | restartFailed (message : String)
  | invalidStrategy (message : String)
  deriving DecidableEq

structure SupervisorStats where
  totalRestarts : Nat
  successfulRestarts : Nat
  failedRestarts : Nat
  strategyAdaptations : Nat
  failurePatterns : Assoc String Nat

/-- How the creation and the start of a new actor end; `started` has the time of the
restart. -/
inductive StartOutcome
  | started (now : Nat)
  | creationFailed (message : String)
  | startedSupervisor
  | invalidRef (message : String)
  | startFailed (message : String)

/-- What a visit led to. -/
inductive Outcome
  | maxRestartsExceeded
  | restarted
  | notRestarted
  | failed
  deriving DecidableEq

structure Visit (ι : Type) where
  actorId : ι
  now : Nat
  outcome : Outcome
  deriving DecidableEq

/-- The reading of the clock when each child is visited, and how its restart ends. -/
structure Env (ι : Type) where
  now : ι → Nat
  start : ι → StartOutcome

/-- A call of `handleFailure`. -/
structure Failure (ι : Type) where
  env : Env ι
  id : ι
  reason : String
  exitReason : Option (ExitReason ι)

/-- The supervisor with the latest reading of its clock, in nanoseconds, and the visits
so far, newest first. -/
structure Supervisor (ι : Type) where
  strategy : SupervisionStrategy
  children : Table (SupervisedActor ι) SupervisedActor.actorId
  stats : SupervisorStats
  clock : Nat
  log : List (Visit ι)

/-- `Duration::from_secs`, in nanoseconds. -/
def fromSecs (seconds : UInt64) : Nat := seconds.toNat * 1000000000

namespace SupervisedActor

variable {ι : Type}

/-- `ChildSpec::restart_policy`. -/
def restartPolicy (child : SupervisedActor ι) : RestartPolicy :=
  (RestartPolicy.tryFrom child.restart).getD .permanent

def recent (child : SupervisedActor ι) (now window : Nat) : List Nat :=
  child.restartTimestamps.filter fun t => decide (now - t < window)

/-- `perform_restart`: the result, the child and the statistics. -/
def performRestart (child : SupervisedActor ι) (stats : SupervisorStats) :
    StartOutcome → Except (SupervisorError ι) Unit × SupervisedActor ι × SupervisorStats
  | .started now =>
      (.ok (),
        { child with restartCount := child.restartCount + 1, lastRestart := some now },
        { stats with
          totalRestarts := stats.totalRestarts + 1
          successfulRestarts := stats.successfulRestarts + 1 })
  | .creationFailed message | .startFailed message =>
      (.error (.restartFailed message), child,
        { stats with
          totalRestarts := stats.totalRestarts + 1
          failedRestarts := stats.failedRestarts + 1 })
  | .startedSupervisor =>
      (.error (.restartFailed "Cannot restart actor as supervisor"), child,
        { stats with
          totalRestarts := stats.totalRestarts + 1
          failedRestarts := stats.failedRestarts + 1 })
  | .invalidRef message =>
      (.error (.restartFailed message), child,
        { stats with totalRestarts := stats.totalRestarts + 1 })

/-- The body of `restart_one` for the child that it has found. -/
def visit (child : SupervisedActor ι) (stats : SupervisorStats) (maxRestarts : UInt32)
    (window now : Nat) (exitReason : Option (ExitReason ι)) (start : StartOutcome) :
    Except (SupervisorError ι) Unit × SupervisedActor ι × SupervisorStats × Outcome :=
  let kept := child.recent now window
  if maxRestarts.toNat ≤ kept.length then
    (.error .maxRestartsExceeded, { child with restartTimestamps := kept }, stats,
      .maxRestartsExceeded)
  else
    let child := { child with restartTimestamps := kept ++ [now] }
    if child.restartPolicy.shouldRestart exitReason then
      match performRestart child stats start with
      | (.ok (), child, stats) => (.ok (), child, stats, .restarted)
      | (.error e, child, stats) => (.error e, child, stats, .failed)
    else (.ok (), child, stats, .notRestarted)

/-- As time passes, the history in the window only loses entries. -/
theorem recent_sublist (child : SupervisedActor ι) {now now' : Nat} (hle : now ≤ now')
    (window : Nat) : (child.recent now' window).Sublist (child.recent now window) := by
  apply List.monotone_filter_right
  intro t ht
  rw [decide_eq_true_eq] at ht ⊢
  omega

/-- A new actor is started, or the restart fails and the child stays as it is. -/
theorem performRestart_cases (child : SupervisedActor ι) (stats : SupervisorStats)
    (start : StartOutcome) :
    (∃ time stats', start = .started time ∧ child.performRestart stats start =
      (.ok (), { child with restartCount := child.restartCount + 1, lastRestart := some time },
        stats')) ∨
    (∃ message stats', (∀ time, start ≠ .started time) ∧
      child.performRestart stats start = (.error (.restartFailed message), child, stats')) := by
  cases start with
  | started time => exact .inl ⟨time, _, rfl, rfl⟩
  | creationFailed message => exact .inr ⟨message, _, nofun, rfl⟩
  | startedSupervisor => exact .inr ⟨_, _, nofun, rfl⟩
  | invalidRef message => exact .inr ⟨message, _, nofun, rfl⟩
  | startFailed message => exact .inr ⟨message, _, nofun, rfl⟩

/-- What a visit can do: refuse the child, restart it, fail to start it, or leave it. -/
theorem visit_cases (child : SupervisedActor ι) (stats : SupervisorStats) (maxRestarts : UInt32)
    (window now : Nat) (exitReason : Option (ExitReason ι)) (start : StartOutcome) :
    (maxRestarts.toNat ≤ (child.recent now window).length ∧
      child.visit stats maxRestarts window now exitReason start =
        (.error .maxRestartsExceeded,
          { child with restartTimestamps := child.recent now window }, stats,
          .maxRestartsExceeded)) ∨
    ((child.recent now window).length < maxRestarts.toNat ∧
      child.restartPolicy.shouldRestart exitReason = true ∧ ∃ time stats',
      start = .started time ∧ child.visit stats maxRestarts window now exitReason start =
        (.ok (),
          { child with
            restartTimestamps := child.recent now window ++ [now]
            restartCount := child.restartCount + 1
            lastRestart := some time }, stats', .restarted)) ∨
    ((child.recent now window).length < maxRestarts.toNat ∧
      child.restartPolicy.shouldRestart exitReason = true ∧ ∃ message stats',
      (∀ time, start ≠ .started time) ∧
      child.visit stats maxRestarts window now exitReason start =
        (.error (.restartFailed message),
          { child with restartTimestamps := child.recent now window ++ [now] }, stats',
          .failed)) ∨
    ((child.recent now window).length < maxRestarts.toNat ∧
      child.restartPolicy.shouldRestart exitReason = false ∧
      child.visit stats maxRestarts window now exitReason start =
        (.ok (), { child with restartTimestamps := child.recent now window ++ [now] }, stats,
          .notRestarted)) := by
  by_cases hlimit : maxRestarts.toNat ≤ (child.recent now window).length
  · exact .inl ⟨hlimit, by simp only [visit, if_pos hlimit]⟩
  · have hlt := not_le.mp hlimit
    cases hpolicy : child.restartPolicy.shouldRestart exitReason with
    | false =>
        refine .inr (.inr (.inr ⟨hlt, rfl, ?_⟩))
        simp only [visit, if_neg hlimit]
        rw [if_neg]
        simpa [restartPolicy] using hpolicy
    | true =>
        have hpolicy' : ({ child with restartTimestamps := child.recent now window ++ [now] } :
            SupervisedActor ι).restartPolicy.shouldRestart exitReason = true := hpolicy
        rcases performRestart_cases
          { child with restartTimestamps := child.recent now window ++ [now] } stats start with
          ⟨time, stats', hstart, hres⟩ | ⟨message, stats', hstart, hres⟩
        · refine .inr (.inl ⟨hlt, rfl, time, stats', hstart, ?_⟩)
          simp only [visit, if_neg hlimit, if_pos hpolicy', hres]
        · refine .inr (.inr (.inl ⟨hlt, rfl, message, stats', hstart, ?_⟩))
          simp only [visit, if_neg hlimit, if_pos hpolicy', hres]

theorem visit_actorId (child : SupervisedActor ι) (stats : SupervisorStats)
    (maxRestarts : UInt32) (window now : Nat) (exitReason : Option (ExitReason ι))
    (start : StartOutcome) :
    (child.visit stats maxRestarts window now exitReason start).2.1.actorId = child.actorId := by
  rcases child.visit_cases stats maxRestarts window now exitReason start with
    ⟨-, h⟩ | ⟨-, -, time, stats', -, h⟩ | ⟨-, -, message, stats', -, h⟩ | ⟨-, -, h⟩
  all_goals rw [h]

end SupervisedActor

namespace Supervisor

variable {ι : Type} [DecidableEq ι]

/-- The time of a visit.  The clock does not go back. -/
def now (s : Supervisor ι) (env : Env ι) (id : ι) : Nat := max s.clock (env.now id)

/-- `restart_one`; nothing happens when the id is not a child. -/
def restartOne (s : Supervisor ι) (env : Env ι) (id : ι) (maxRestarts : UInt32)
    (withinSeconds : UInt64) (exitReason : Option (ExitReason ι)) :
    Except (SupervisorError ι) Unit × Supervisor ι :=
  match s.children.find id with
  | none => (.ok (), s)
  | some child =>
      let now := s.now env id
      let visit (child : SupervisedActor ι) := child.visit s.stats maxRestarts
        (fromSecs withinSeconds) now exitReason (env.start id)
      let (result, _, stats, outcome) := visit child
      (result,
        { s with
          children := s.children.update id (fun r => (visit r).2.1)
            fun r => r.visit_actorId s.stats maxRestarts (fromSecs withinSeconds) now exitReason
              (env.start id)
          stats := stats
          clock := now
          log := ⟨id, now, outcome⟩ :: s.log })

/-- The loop of the group strategies: visit the children in order, up to the first
error. -/
def restartEach (env : Env ι) (maxRestarts : UInt32) (withinSeconds : UInt64)
    (exitReason : Option (ExitReason ι)) :
    List ι → Supervisor ι → Except (SupervisorError ι) Unit × Supervisor ι
  | [], s => (.ok (), s)
  | id :: ids, s =>
      match s.restartOne env id maxRestarts withinSeconds exitReason with
      | (.ok (), s) => restartEach env maxRestarts withinSeconds exitReason ids s
      | (.error e, s) => (.error e, s)

/-- The children at or after the position of `id`. -/
def fromFailed (s : Supervisor ι) (id : ι) : List (SupervisedActor ι) :=
  s.children.rows.dropWhile fun child => child.actorId != id

def restartAll (s : Supervisor ι) (env : Env ι) (maxRestarts : UInt32) (withinSeconds : UInt64)
    (exitReason : Option (ExitReason ι)) : Except (SupervisorError ι) Unit × Supervisor ι :=
  restartEach env maxRestarts withinSeconds exitReason (s.children.rows.map (·.actorId)) s

def restartRestForOne (s : Supervisor ι) (env : Env ι) (failedId : ι) (maxRestarts : UInt32)
    (withinSeconds : UInt64) (exitReason : Option (ExitReason ι)) :
    Except (SupervisorError ι) Unit × Supervisor ι :=
  match s.children.find failedId with
  | none => (.error (.childNotFound failedId), s)
  | some _ =>
      restartEach env maxRestarts withinSeconds exitReason
        ((s.fromFailed failedId).map (·.actorId)) s

def applyAdaptiveStrategy (s : Supervisor ι) (env : Env ι) (id : ι)
    (initialStrategy : SupervisionStrategy) (learningRate : Float) :
    Except (SupervisorError ι) Unit × Supervisor ι :=
  let conservative := decide (s.stats.successfulRestarts * 2 < s.stats.failedRestarts)
  match conservative, initialStrategy with
  | true, .oneForOne maxRestarts withinSeconds =>
      -- the adapted strategy is kept for the next failures
      let s :=
        { s with
          strategy := .adaptive (.oneForAll maxRestarts withinSeconds) learningRate
          stats :=
            { s.stats with strategyAdaptations := s.stats.strategyAdaptations + 1 } }
      s.restartAll env maxRestarts withinSeconds none
  | _, .oneForOne maxRestarts withinSeconds =>
      s.restartOne env id maxRestarts withinSeconds none
  | _, .oneForAll maxRestarts withinSeconds => s.restartAll env maxRestarts withinSeconds none
  | _, .restForOne maxRestarts withinSeconds =>
      s.restartRestForOne env id maxRestarts withinSeconds none
  | _, _ => (.ok (), s)

def recordPattern (s : Supervisor ι) (reason : String) : Supervisor ι :=
  { s with
    stats :=
      { s.stats with
        failurePatterns := s.stats.failurePatterns.insert reason
          ((s.stats.failurePatterns.lookup reason).getD 0 + 1) } }

def handleFailure (ids : ActorIds ι) (s : Supervisor ι) (env : Env ι) (id : ι) (reason : String)
    (exitReason : Option (ExitReason ι)) : Except (SupervisorError ι) Unit × Supervisor ι :=
  let exitReason := exitReason.or (some (ExitReason.fromStr ids reason))
  let s := s.recordPattern reason
  match s.strategy with
  | .oneForOne maxRestarts withinSeconds =>
      s.restartOne env id maxRestarts withinSeconds exitReason
  | .oneForAll maxRestarts withinSeconds =>
      s.restartAll env maxRestarts withinSeconds exitReason
  | .restForOne maxRestarts withinSeconds =>
      s.restartRestForOne env id maxRestarts withinSeconds exitReason
  | .adaptive initialStrategy learningRate =>
      s.applyAdaptiveStrategy env id initialStrategy learningRate
  | .custom name =>
      (.error (.invalidStrategy ("Custom supervision strategy '" ++ name ++
        "' is not registered; register a handler before using Custom strategy")), s)

/-- The visits of a call that took the supervisor from `s` to `s'`, newest first. -/
def newVisits (s s' : Supervisor ι) : List (Visit ι) :=
  s'.log.take (s'.log.length - s.log.length)

def restartedIds (visits : List (Visit ι)) : List ι :=
  (visits.filter fun v => v.outcome = .restarted).map (·.actorId)

def restarted (s s' : Supervisor ι) : List ι := restartedIds (newVisits s s')

omit [DecidableEq ι] in
theorem newVisits_of_log {s s' : Supervisor ι} (visits : List (Visit ι))
    (h : s'.log = visits ++ s.log) : newVisits s s' = visits := by
  simp [newVisits, h]

/-- The visit of a child that is found: the other children stay as they are. -/
theorem restartOne_of_find {s : Supervisor ι} (env : Env ι) {id : ι} {child : SupervisedActor ι}
    (hfind : s.children.find id = some child) (maxRestarts : UInt32) (withinSeconds : UInt64)
    (exitReason : Option (ExitReason ι)) :
    let visit := child.visit s.stats maxRestarts (fromSecs withinSeconds) (s.now env id)
      exitReason (env.start id)
    ∃ s', s.restartOne env id maxRestarts withinSeconds exitReason = (visit.1, s') ∧
      s'.strategy = s.strategy ∧ s'.clock = s.now env id ∧
      s'.log = ⟨id, s.now env id, visit.2.2.2⟩ :: s.log ∧
      ∀ k, s'.children.find k = if k = id then some visit.2.1 else s.children.find k := by
  intro visit
  have hset : ∀ r : SupervisedActor ι, (r.visit s.stats maxRestarts (fromSecs withinSeconds)
      (s.now env id) exitReason (env.start id)).2.1.actorId = r.actorId :=
    fun r => r.visit_actorId _ _ _ _ _ _
  unfold restartOne
  rw [hfind]
  refine ⟨_, rfl, rfl, rfl, rfl, ?_⟩
  intro k
  refine (Table.find_update s.children id _ hset k).trans ?_
  rw [hfind]
  rfl

theorem restartOne_of_find_none {s : Supervisor ι} {id : ι} (hfind : s.children.find id = none)
    (env : Env ι) (maxRestarts : UInt32) (withinSeconds : UInt64)
    (exitReason : Option (ExitReason ι)) :
    s.restartOne env id maxRestarts withinSeconds exitReason = (.ok (), s) := by
  unfold restartOne
  rw [hfind]

/-- A visit of the first child of a list leaves the others as they are. -/
theorem find_of_mem_rest {s s' : Supervisor ι} {child : SupervisedActor ι}
    {rest : List (SupervisedActor ι)}
    (hfind : ∀ c ∈ child :: rest, s.children.find c.actorId = some c)
    (hfresh : child.actorId ∉ rest.map (·.actorId))
    (hkeep : ∀ k, k ≠ child.actorId → s'.children.find k = s.children.find k) :
    ∀ c ∈ rest, s'.children.find c.actorId = some c := by
  intro c hc
  have hne : c.actorId ≠ child.actorId := by
    intro heq
    exact hfresh (List.mem_map.mpr ⟨c, hc, heq⟩)
  rw [hkeep _ hne]
  exact hfind c (List.mem_cons_of_mem _ hc)

/-- The children that a call goes through, in order. -/
def visitScope (s : Supervisor ι) (id : ι) : List (SupervisedActor ι) :=
  match s.strategy with
  | .oneForOne _ _ => (s.children.find id).toList
  | .oneForAll _ _ => s.children.rows
  | .restForOne _ _ => s.fromFailed id
  | .adaptive (.oneForOne _ _) _ =>
      if s.stats.successfulRestarts * 2 < s.stats.failedRestarts then s.children.rows
      else (s.children.find id).toList
  | .adaptive (.oneForAll _ _) _ => s.children.rows
  | .adaptive (.restForOne _ _) _ => s.fromFailed id
  | _ => []

omit [DecidableEq ι] in
/-- The exit that the policies are asked about; an adaptive strategy does not pass it on. -/
def visitExit (ids : ActorIds ι) (s : Supervisor ι) (f : Failure ι) : Option (ExitReason ι) :=
  match s.strategy with
  | .adaptive _ _ => none
  | _ => f.exitReason.or (some (ExitReason.fromStr ids f.reason))

section Call

variable {s : Supervisor ι} {env : Env ι} {maxRestarts : UInt32} {withinSeconds : UInt64}
  {exitReason : Option (ExitReason ι)}

theorem restartOne_eq_restartEach (id : ι) :
    s.restartOne env id maxRestarts withinSeconds exitReason =
      restartEach env maxRestarts withinSeconds exitReason
        ((s.children.find id).toList.map (·.actorId)) s := by
  cases hfind : s.children.find id with
  | none => exact restartOne_of_find_none hfind ..
  | some child =>
      have hid : child.actorId = id := Table.key_of_find hfind
      rw [Option.toList_some, List.map_singleton, hid, restartEach]
      split
      · next hres => exact hres
      · next hres => exact hres

/-- No child is at or after the position of an unknown id. -/
theorem fromFailed_of_find_none {s : Supervisor ι} {id : ι}
    (hfind : s.children.find id = none) : s.fromFailed id = [] := by
  apply List.dropWhile_eq_nil_iff.mpr
  intro c hc
  simpa using List.find?_eq_none.mp hfind c hc

theorem restartRestForOne_of_unknown {id : ι} (hfind : s.children.find id = none) :
    s.restartRestForOne env id maxRestarts withinSeconds exitReason =
      (.error (.childNotFound id), s) := by
  rw [restartRestForOne, hfind]

theorem restartRestForOne_of_known {id : ι} {child : SupervisedActor ι}
    (hfind : s.children.find id = some child) :
    s.restartRestForOne env id maxRestarts withinSeconds exitReason =
      restartEach env maxRestarts withinSeconds exitReason ((s.fromFailed id).map (·.actorId))
        s := by
  rw [restartRestForOne, hfind]

theorem restartRestForOne_cases (id : ι) :
    s.restartRestForOne env id maxRestarts withinSeconds exitReason =
        restartEach env maxRestarts withinSeconds exitReason
          ((s.fromFailed id).map (·.actorId)) s ∨
      s.fromFailed id = [] ∧
        s.restartRestForOne env id maxRestarts withinSeconds exitReason =
          (.error (.childNotFound id), s) := by
  cases hfind : s.children.find id with
  | none => exact .inr ⟨fromFailed_of_find_none hfind, restartRestForOne_of_unknown hfind⟩
  | some child => exact .inl (restartRestForOne_of_known hfind)

/-- A call enters its loop with the children as they were; the statistics have changed and
perhaps the strategy, but not its limits. -/
structure Enters (maxRestarts : UInt32) (withinSeconds : UInt64) (s s₁ : Supervisor ι) :
    Prop where
  children : s₁.children = s.children
  clock : s₁.clock = s.clock
  log : s₁.log = s.log
  limits : s₁.strategy.limits = some (maxRestarts, withinSeconds)

/-- A call of an adaptive strategy is a loop over its scope, or finds no child. -/
theorem applyAdaptiveStrategy_loop (env : Env ι) (id : ι) {initial : SupervisionStrategy}
    {rate : Float} (hstrategy : s.strategy = .adaptive initial rate)
    (hlimits : s.strategy.limits = some (maxRestarts, withinSeconds)) :
    ∃ s₁, s.Enters maxRestarts withinSeconds s₁ ∧
      (s.applyAdaptiveStrategy env id initial rate =
          restartEach env maxRestarts withinSeconds none
            ((s.visitScope id).map (·.actorId)) s₁ ∨
        s.visitScope id = [] ∧
          s.applyAdaptiveStrategy env id initial rate = (.error (.childNotFound id), s₁)) := by
  have hself : s.Enters maxRestarts withinSeconds s := ⟨rfl, rfl, rfl, hlimits⟩
  unfold visitScope
  rw [hstrategy] at hlimits ⊢
  cases initial with
  | oneForOne m w =>
      cases hlimits
      by_cases hfailing : s.stats.successfulRestarts * 2 < s.stats.failedRestarts
      · -- the strategy becomes one-for-all, with the same limits
        let adapted : Supervisor ι :=
          { s with
            strategy := .adaptive (.oneForAll maxRestarts withinSeconds) rate
            stats :=
              { s.stats with strategyAdaptations := s.stats.strategyAdaptations + 1 } }
        refine ⟨adapted, ⟨rfl, rfl, rfl, rfl⟩, .inl ?_⟩
        simp only [applyAdaptiveStrategy, hfailing]
        rfl
      · refine ⟨s, hself, .inl ?_⟩
        simp only [applyAdaptiveStrategy, hfailing]
        exact restartOne_eq_restartEach id
  | oneForAll m w =>
      cases hlimits
      refine ⟨s, hself, .inl ?_⟩
      simp only [applyAdaptiveStrategy]
      rfl
  | restForOne m w =>
      cases hlimits
      refine ⟨s, hself, ?_⟩
      simp only [applyAdaptiveStrategy]
      exact restartRestForOne_cases id
  | adaptive => cases hlimits
  | custom => cases hlimits

/-- A call is a loop over its scope, or finds no child. -/
theorem handleFailure_loop (ids : ActorIds ι) (f : Failure ι)
    (hlimits : s.strategy.limits = some (maxRestarts, withinSeconds)) :
    ∃ s₁, s.Enters maxRestarts withinSeconds s₁ ∧
      (handleFailure ids s f.env f.id f.reason f.exitReason =
          restartEach f.env maxRestarts withinSeconds (s.visitExit ids f)
            ((s.visitScope f.id).map (·.actorId)) s₁ ∨
        s.visitScope f.id = [] ∧
          handleFailure ids s f.env f.id f.reason f.exitReason =
            (.error (.childNotFound f.id), s₁)) := by
  have hrecorded : s.Enters maxRestarts withinSeconds (s.recordPattern f.reason) :=
    ⟨rfl, rfl, rfl, hlimits⟩
  unfold visitExit handleFailure
  cases hstrategy : s.strategy with
  | oneForOne m w =>
      rw [hstrategy] at hlimits
      cases hlimits
      refine ⟨s.recordPattern f.reason, hrecorded, .inl ?_⟩
      simp only [visitScope, recordPattern, hstrategy]
      exact restartOne_eq_restartEach f.id
  | oneForAll m w =>
      rw [hstrategy] at hlimits
      cases hlimits
      refine ⟨s.recordPattern f.reason, hrecorded, .inl ?_⟩
      simp only [visitScope, recordPattern, hstrategy]
      rfl
  | restForOne m w =>
      rw [hstrategy] at hlimits
      cases hlimits
      refine ⟨s.recordPattern f.reason, hrecorded, ?_⟩
      simp only [visitScope, recordPattern, hstrategy]
      exact restartRestForOne_cases f.id
  | adaptive initial rate =>
      have hadaptive : (s.recordPattern f.reason).strategy = .adaptive initial rate := hstrategy
      obtain ⟨s₁, henters, hloop⟩ := applyAdaptiveStrategy_loop f.env f.id hadaptive hlimits
      refine ⟨s₁, ⟨henters.children, henters.clock, henters.log, henters.limits⟩, ?_⟩
      simp only [hadaptive]
      exact hloop
  | custom name =>
      rw [hstrategy] at hlimits
      cases hlimits

theorem visitScope_sublist (s : Supervisor ι) (id : ι) :
    (s.visitScope id).Sublist s.children.rows := by
  have hone : (s.children.find id).toList.Sublist s.children.rows := by
    cases hfind : s.children.find id with
    | none => exact List.nil_sublist _
    | some child => exact List.singleton_sublist.mpr (List.mem_of_find?_eq_some hfind)
  unfold visitScope
  split
  · exact hone
  · exact List.Sublist.refl _
  · exact List.dropWhile_sublist _
  · split_ifs
    · exact List.Sublist.refl _
    · exact hone
  · exact List.Sublist.refl _
  · exact List.dropWhile_sublist _
  · exact List.nil_sublist _

end Call

end Supervisor

end PlexSpaces.Supervision
