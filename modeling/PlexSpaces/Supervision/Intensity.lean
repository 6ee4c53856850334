import PlexSpaces.Lib.RateLimit
import PlexSpaces.Lib.Run
import PlexSpaces.Supervision.GroupRestart
/-!
# Restart intensity

The history of a child is a rate limiter: a visit drops the entries outside the window,
refuses the child when as many as the limit are left, and else appends its own time.
The entry is made before the policy is asked, so the history counts the visits that were
not refused and not the restarts.  `Metered` says this of the log of visits alone, and
`Tracked` connects the log to the histories of the children.

No window holds more restarts of a child than the limit.  A refusal comes after as many
restarts as the limit exactly when no other visit of the child is left in the window
(`intensity_kept`).
-/

namespace PlexSpaces.Supervision

open PlexSpaces.Lib PlexSpaces.Lib.RateLimit

/-- A visit is refused exactly at the limit, and else leaves its time in the history. -/
theorem SupervisedActor.visit_history {ι : Type} (child : SupervisedActor ι)
    (stats : SupervisorStats) (maxRestarts : UInt32) (window now : Nat)
    (exitReason : Option (ExitReason ι)) (start : StartOutcome) :
    let visit := child.visit stats maxRestarts window now exitReason start
    (visit.2.2.2 = .maxRestartsExceeded ↔
      maxRestarts.toNat ≤ (child.recent now window).length) ∧
    (visit.1 = .error .maxRestartsExceeded → visit.2.2.2 = .maxRestartsExceeded) ∧
    visit.2.1.restartTimestamps = child.recent now window ++
      if visit.2.2.2 = .maxRestartsExceeded then [] else [now] := by
  intro visit
  rcases child.visit_cases stats maxRestarts window now exitReason start with
    ⟨hle, h⟩ | ⟨hlt, -, time, stats', -, h⟩ | ⟨hlt, -, message, stats', -, h⟩ | ⟨hlt, -, h⟩
  · simp [visit, h, hle]
  · simp [visit, h, hlt]
  · simp [visit, h, hlt]
  · simp [visit, h, hlt]

namespace Supervisor

variable {ι : Type} [DecidableEq ι]

/-- The visits of a child that left an entry in its history. -/
def recordedVisits (log : List (Visit ι)) (id : ι) : List (Visit ι) :=
  log.filter fun v => decide (v.actorId = id ∧ v.outcome ≠ .maxRestartsExceeded)

def restarts (log : List (Visit ι)) (id : ι) : List (Visit ι) :=
  log.filter fun v => decide (v.actorId = id ∧ v.outcome = .restarted)

/-- Each visit was refused exactly when the recorded visits of its child in the window
had reached the limit. -/
def Metered (limit window : Nat) : List (Visit ι) → Prop
  | [] => True
  | v :: older =>
      (v.outcome = .maxRestartsExceeded ↔
        limit ≤ (recent Visit.now window v.now (recordedVisits older v.actorId)).length) ∧
      (∀ u ∈ older, u.now ≤ v.now) ∧ Metered limit window older

section Log

variable {limit window : Nat} {log : List (Visit ι)}

theorem mem_recordedVisits {id : ι} {v : Visit ι} :
    v ∈ recordedVisits log id ↔
      v ∈ log ∧ v.actorId = id ∧ v.outcome ≠ .maxRestartsExceeded := by
  simp [recordedVisits]

theorem recordedVisits_cons_of_pos {id : ι} {v : Visit ι}
    (hv : v.actorId = id ∧ v.outcome ≠ .maxRestartsExceeded) :
    recordedVisits (v :: log) id = v :: recordedVisits log id :=
  List.filter_cons_of_pos (decide_eq_true hv)

theorem recordedVisits_cons_of_neg {id : ι} {v : Visit ι}
    (hv : ¬(v.actorId = id ∧ v.outcome ≠ .maxRestartsExceeded)) :
    recordedVisits (v :: log) id = recordedVisits log id :=
  List.filter_cons_of_neg (by simpa using hv)

theorem restarts_eq_filter (log : List (Visit ι)) (id : ι) :
    restarts log id = (recordedVisits log id).filter fun v => v.outcome = .restarted := by
  unfold restarts recordedVisits
  rw [List.filter_filter]
  apply List.filter_congr
  intro v _
  by_cases hrestarted : v.outcome = .restarted
  · simp [hrestarted]
  · simp [hrestarted]

theorem Metered.limited (h : Metered limit window log) (id : ι) :
    Limited Visit.now window limit (recordedVisits log id) := by
  induction log with
  | nil => trivial
  | cons v older ih =>
      obtain ⟨hmeter, horder, holder⟩ := h
      by_cases hv : v.actorId = id ∧ v.outcome ≠ .maxRestartsExceeded
      · rw [recordedVisits_cons_of_pos hv]
        refine ⟨?_, ?_, ih holder⟩
        · rw [← hv.1]
          exact not_le.mp (mt hmeter.mpr hv.2)
        · intro u hu
          exact horder u (mem_recordedVisits.mp hu).1
      · rw [recordedVisits_cons_of_neg hv]
        exact ih holder

/-- No window holds more restarts of a child than the limit. -/
theorem Metered.restarts_le (h : Metered limit window log) (id : ι) (start : Nat) :
    (during Visit.now window start (restarts log id)).length ≤ limit := by
  have hsub : (restarts log id).Sublist (recordedVisits log id) := by
    rw [restarts_eq_filter]
    exact List.filter_sublist
  exact (hsub.filter _).length_le.trans ((h.limited id).length_during_le start)

/-- A refusal comes after enough restarts exactly when every visit recorded in the window
was a restart. -/
theorem Metered.limit_le_restarts_iff {v : Visit ι} (h : Metered limit window (v :: log))
    (hrefused : v.outcome = .maxRestartsExceeded) :
    limit ≤ (recent Visit.now window v.now (restarts log v.actorId)).length ↔
      ∀ u ∈ recent Visit.now window v.now (recordedVisits log v.actorId),
        u.outcome = .restarted := by
  obtain ⟨hmeter, horder, holder⟩ := h
  have hfull := hmeter.mp hrefused
  have hatMost : (recent Visit.now window v.now (recordedVisits log v.actorId)).length ≤
      limit := by
    apply (holder.limited v.actorId).length_recent_le
    intro u hu
    exact horder u (mem_recordedVisits.mp hu).1
  have hsplit : recent Visit.now window v.now (restarts log v.actorId) =
      (recent Visit.now window v.now (recordedVisits log v.actorId)).filter
        fun u => u.outcome = .restarted := by
    rw [restarts_eq_filter, recent, recent, List.filter_comm]
  have hle := List.length_filter_le (fun u : Visit ι => decide (u.outcome = .restarted))
    (recent Visit.now window v.now (recordedVisits log v.actorId))
  rw [hsplit]
  constructor
  · intro hlimit u hu
    have hall := List.length_filter_eq_length_iff.mp (le_antisymm hle (hatMost.trans hlimit))
    exact of_decide_eq_true (hall u hu)
  · intro hall
    have hsame := List.length_filter_eq_length_iff.mpr
      (fun u hu => decide_eq_true (hall u hu))
    rw [hsame]
    exact hfull

end Log

/-- The log is metered, and at any later time the history of a child is what the log has
recorded for it. -/
structure Tracked (maxRestarts : UInt32) (withinSeconds : UInt64) (s : Supervisor ι) :
    Prop where
  limits : s.strategy.limits = some (maxRestarts, withinSeconds)
  le_clock : ∀ v ∈ s.log, v.now ≤ s.clock
  metered : Metered maxRestarts.toNat (fromSecs withinSeconds) s.log
  history : ∀ id child, s.children.find id = some child → ∀ now, s.clock ≤ now →
    child.recent now (fromSecs withinSeconds) =
      ((recent Visit.now (fromSecs withinSeconds) now (recordedVisits s.log id)).map
        Visit.now).reverse

section Tracking

variable {s : Supervisor ι} {maxRestarts : UInt32} {withinSeconds : UInt64}

omit [DecidableEq ι] in
theorem recent_of_visit {child child' : SupervisedActor ι} {now now' window : Nat}
    (hle : now ≤ now') {tail : List Nat}
    (h : child'.restartTimestamps = child.recent now window ++ tail) :
    child'.recent now' window = child.recent now' window ++ recent id window now' tail := by
  have hchild : child.recent now window = recent id window now child.restartTimestamps := rfl
  calc child'.recent now' window
      = recent id window now' child'.restartTimestamps := rfl
    _ = recent id window now' (recent id window now child.restartTimestamps) ++
          recent id window now' tail := by rw [h, recent_append, hchild]
    _ = child.recent now' window ++ recent id window now' tail := by
          rw [recent_recent hle]
          rfl

theorem Tracked.restartOne (h : Tracked maxRestarts withinSeconds s) (env : Env ι) (id : ι)
    (exitReason : Option (ExitReason ι)) :
    Tracked maxRestarts withinSeconds
      (s.restartOne env id maxRestarts withinSeconds exitReason).2 := by
  cases hfind : s.children.find id with
  | none =>
      rw [restartOne_of_find_none hfind]
      exact h
  | some child =>
      obtain ⟨s', hres, hstrategy, hclock, hlog, hchildren⟩ :=
        restartOne_of_find env hfind maxRestarts withinSeconds exitReason
      obtain ⟨hrefused, -, htimes⟩ := child.visit_history s.stats maxRestarts
        (fromSecs withinSeconds) (s.now env id) exitReason (env.start id)
      rw [hres]
      generalize child.visit s.stats maxRestarts (fromSecs withinSeconds) (s.now env id)
        exitReason (env.start id) = visit at hlog hchildren hrefused htimes
      have hnow : s.clock ≤ s.now env id := le_max_left _ _
      refine ⟨hstrategy ▸ h.limits, ?_, ?_, ?_⟩
      · intro v hv
        rw [hlog] at hv
        rw [hclock]
        rcases List.mem_cons.mp hv with rfl | hv
        · exact le_rfl
        · exact (h.le_clock v hv).trans hnow
      · rw [hlog]
        refine ⟨?_, fun u hu => (h.le_clock u hu).trans hnow, h.metered⟩
        rw [hrefused, h.history id child hfind _ hnow, List.length_reverse, List.length_map]
      · intro k child' hfind' now' hle
        rw [hclock] at hle
        rw [hchildren] at hfind'
        split_ifs at hfind' with hk
        · cases hfind'
          rw [hk, recent_of_visit hle htimes, h.history id child hfind _ (hnow.trans hle), hlog]
          by_cases hout : visit.2.2.2 = .maxRestartsExceeded
          · rw [recordedVisits_cons_of_neg (fun hv => hv.2 hout), if_pos hout]
            exact List.append_nil _
          · rw [recordedVisits_cons_of_pos ⟨rfl, hout⟩, if_neg hout]
            by_cases hin : now' - s.now env id < fromSecs withinSeconds
            · simp [recent, hin]
            · simp [recent, hin]
        · rw [hlog, recordedVisits_cons_of_neg (fun hid => hk hid.1.symm)]
          exact h.history k child' hfind' now' (hnow.trans hle)

theorem Tracked.restartEach (h : Tracked maxRestarts withinSeconds s) (env : Env ι)
    (exitReason : Option (ExitReason ι)) (ids : List ι) :
    Tracked maxRestarts withinSeconds
      (restartEach env maxRestarts withinSeconds exitReason ids s).2 := by
  induction ids generalizing s with
  | nil => exact h
  | cons id ids ih =>
      have hone := h.restartOne env id exitReason
      rw [Supervisor.restartEach]
      split
      · next s' hres =>
          rw [hres] at hone
          exact ih hone
      · next e s' hres =>
          rw [hres] at hone
          exact hone

end Tracking

omit [DecidableEq ι] in
/-- From the time `clock` on, the loop gets to the child `id` at the time `now` and finds it
at its limit. -/
def MeetsLimit (env : Env ι) (maxRestarts : UInt32) (withinSeconds : UInt64)
    (exitReason : Option (ExitReason ι)) (id : ι) (now : Nat) :
    Nat → List (SupervisedActor ι) → Prop
  | _, [] => False
  | clock, child :: rest =>
      let visit := max clock (env.now child.actorId)
      OverLimit maxRestarts withinSeconds visit child ∧ child.actorId = id ∧ visit = now ∨
        ¬OverLimit maxRestarts withinSeconds visit child ∧ Passes env exitReason child ∧
          MeetsLimit env maxRestarts withinSeconds exitReason id now visit rest

section Report

variable {s : Supervisor ι} {env : Env ι} {maxRestarts : UInt32} {withinSeconds : UInt64}
  {exitReason : Option (ExitReason ι)}

omit [DecidableEq ι] in
theorem reachesLimit_iff_exists {clock : Nat} {children : List (SupervisedActor ι)} :
    ReachesLimit env maxRestarts withinSeconds exitReason clock children ↔
      ∃ id now, MeetsLimit env maxRestarts withinSeconds exitReason id now clock children := by
  induction children generalizing clock with
  | nil => exact ⟨False.elim, fun ⟨_, _, h⟩ => h⟩
  | cons child rest ih =>
      by_cases hover : OverLimit maxRestarts withinSeconds
        (max clock (env.now child.actorId)) child
      · exact iff_of_true (.inl hover) ⟨_, _, .inl ⟨hover, rfl, rfl⟩⟩
      · constructor
        · rintro (h | ⟨hpasses, h⟩)
          · exact absurd h hover
          · obtain ⟨id, now, hmeets⟩ := ih.mp h
            exact ⟨id, now, .inr ⟨hover, hpasses, hmeets⟩⟩
        · rintro ⟨id, now, ⟨h, -⟩ | ⟨-, hpasses, h⟩⟩
          · exact absurd h hover
          · exact .inr ⟨hpasses, ih.mpr ⟨id, now, h⟩⟩

omit [DecidableEq ι] in
theorem mem_of_meetsLimit {clock : Nat} {children : List (SupervisedActor ι)} {id : ι}
    {now : Nat}
    (h : MeetsLimit env maxRestarts withinSeconds exitReason id now clock children) :
    id ∈ children.map (·.actorId) := by
  induction children generalizing clock with
  | nil => exact h.elim
  | cons child rest ih =>
      rcases h with ⟨-, hid, -⟩ | ⟨-, -, hrest⟩
      · exact List.mem_cons.mpr (.inl hid.symm)
      · exact List.mem_cons_of_mem _ (ih hrest)

/-- The newest visit of a loop that reports the limit is the refused one, and the child had
not been visited before in this loop. -/
theorem restartEach_log_of_meetsLimit {children : List (SupervisedActor ι)}
    (hfind : ∀ child ∈ children, s.children.find child.actorId = some child)
    (hnodup : (children.map (·.actorId)).Nodup) {id : ι} {now : Nat}
    (h : MeetsLimit env maxRestarts withinSeconds exitReason id now s.clock children) :
    ∃ older, (restartEach env maxRestarts withinSeconds exitReason
        (children.map (·.actorId)) s).2.log = ⟨id, now, .maxRestartsExceeded⟩ :: older ∧
      recordedVisits older id = recordedVisits s.log id := by
  induction children generalizing s with
  | nil => exact h.elim
  | cons child rest ih =>
      obtain ⟨hfresh, hnodup⟩ := List.nodup_cons.mp hnodup
      have hself := hfind child List.mem_cons_self
      rcases h with ⟨hover, rfl, rfl⟩ | ⟨hover, hpasses, hrest⟩
      · obtain ⟨s', hres, hlog, -⟩ := restartOne_of_overLimit exitReason hself hover
        rw [List.map_cons, restartEach, hres]
        exact ⟨s.log, hlog, rfl⟩
      · obtain ⟨result, s', hres, hclock, ⟨outcome, hlog⟩, hresult, hkeep, -⟩ :=
          restartOne_of_not_overLimit exitReason hself hover
        have hok : result = .ok () := by
          rcases hresult with ⟨hok, -⟩ | ⟨-, hnot⟩
          · exact hok
          · exact absurd hpasses hnot
        subst hok
        have hid : child.actorId ≠ id := by
          rintro rfl
          exact hfresh (mem_of_meetsLimit hrest)
        have hskip : recordedVisits s'.log id = recordedVisits s.log id := by
          rw [hlog, recordedVisits_cons_of_neg (fun hv => hid hv.1)]
        rw [List.map_cons, restartEach, hres, ← hskip]
        apply ih (find_of_mem_rest hfind hfresh hkeep) hnodup
        rw [hclock]
        exact hrest

end Report

section Intensity

variable (ids : ActorIds ι) (maxRestarts : UInt32) (withinSeconds : UInt64)

def handle (s : Supervisor ι) (f : Failure ι) : Supervisor ι :=
  (handleFailure ids s f.env f.id f.reason f.exitReason).2

/-- A call that reports `MaxRestartsExceeded` has refused a child after as many restarts
of it as the limit, all in the window before. -/
def Justified (s : Supervisor ι) (f : Failure ι) : Prop :=
  (handleFailure ids s f.env f.id f.reason f.exitReason).1 = .error .maxRestartsExceeded →
    ∃ v older, (s.handle ids f).log = v :: older ∧ v.outcome = .maxRestartsExceeded ∧
      maxRestarts.toNat ≤ (recent Visit.now (fromSecs withinSeconds) v.now
        (restarts older v.actorId)).length

/-- When the call gets to a child at its limit, each entry of its history in the window
stems from a restart. -/
def AnsweredAtLimit (s : Supervisor ι) (f : Failure ι) : Prop :=
  ∀ id now, MeetsLimit f.env maxRestarts withinSeconds (s.visitExit ids f) id now s.clock
      (s.visitScope f.id) →
    ∀ v ∈ recent Visit.now (fromSecs withinSeconds) now (recordedVisits s.log id),
      v.outcome = .restarted

end Intensity

section Step

variable {s : Supervisor ι} {maxRestarts : UInt32} {withinSeconds : UInt64}

theorem Tracked.enters (h : Tracked maxRestarts withinSeconds s) {s₁ : Supervisor ι}
    (henters : s.Enters maxRestarts withinSeconds s₁) : Tracked maxRestarts withinSeconds s₁ where
  limits := henters.limits
  le_clock := by
    rw [henters.log, henters.clock]
    exact h.le_clock
  metered := by
    rw [henters.log]
    exact h.metered
  history := by
    rw [henters.log, henters.clock, henters.children]
    exact h.history

theorem Tracked.handle (h : Tracked maxRestarts withinSeconds s) (ids : ActorIds ι)
    (f : Failure ι) : Tracked maxRestarts withinSeconds (s.handle ids f) := by
  obtain ⟨s₁, henters, hcall⟩ := handleFailure_loop ids f h.limits
  have htracked := h.enters henters
  unfold Supervisor.handle
  rcases hcall with hcall | ⟨-, hcall⟩
  · rw [hcall]
    exact htracked.restartEach ..
  · rw [hcall]
    exact htracked

/-- A call reports the limit exactly when it gets to a child at its limit. -/
theorem report_cases (h : Tracked maxRestarts withinSeconds s) (ids : ActorIds ι)
    (f : Failure ι) :
    ((handleFailure ids s f.env f.id f.reason f.exitReason).1 = .error .maxRestartsExceeded ↔
      ∃ id now, MeetsLimit f.env maxRestarts withinSeconds (s.visitExit ids f) id now s.clock
        (s.visitScope f.id)) ∧
    ∀ id now, MeetsLimit f.env maxRestarts withinSeconds (s.visitExit ids f) id now s.clock
        (s.visitScope f.id) →
      ∃ older, (s.handle ids f).log = ⟨id, now, .maxRestartsExceeded⟩ :: older ∧
        recordedVisits older id = recordedVisits s.log id := by
  obtain ⟨s₁, henters, hcall⟩ := handleFailure_loop ids f h.limits
  have hsub := s.visitScope_sublist f.id
  unfold handle
  rcases hcall with hcall | ⟨hempty, hcall⟩
  · have hfind : ∀ c ∈ s.visitScope f.id, s₁.children.find c.actorId = some c := by
      intro c hc
      rw [henters.children]
      exact Table.find_of_mem (hsub.subset hc)
    have hnodup : ((s.visitScope f.id).map (·.actorId)).Nodup :=
      (hsub.map _).nodup s.children.nodup
    rw [hcall, ← henters.clock, ← henters.log]
    constructor
    · rw [restartEach_exceeded_iff hfind hnodup]
      exact reachesLimit_iff_exists
    · intro id now hmeets
      exact restartEach_log_of_meetsLimit hfind hnodup hmeets
  · rw [hcall, hempty]
    exact ⟨iff_of_false nofun fun ⟨_, _, h⟩ => h, fun _ _ h => h.elim⟩

theorem justified_iff (h : Tracked maxRestarts withinSeconds s) (ids : ActorIds ι)
    (f : Failure ι) :
    Justified ids maxRestarts withinSeconds s f ↔
      AnsweredAtLimit ids maxRestarts withinSeconds s f := by
  obtain ⟨hreport, hlog⟩ := report_cases h ids f
  have hmetered := (h.handle ids f).metered
  constructor
  · intro hjust id now hmeets
    obtain ⟨v, older, heq, hrefused, hlimit⟩ := hjust (hreport.mpr ⟨id, now, hmeets⟩)
    obtain ⟨older', heq', hsame⟩ := hlog id now hmeets
    rw [heq] at heq' hmetered
    cases heq'
    have hall := (hmetered.limit_le_restarts_iff rfl).mp hlimit
    rw [hsame] at hall
    exact hall
  · intro hanswered hres
    obtain ⟨id, now, hmeets⟩ := hreport.mp hres
    obtain ⟨older, heq, hsame⟩ := hlog id now hmeets
    rw [heq] at hmetered
    refine ⟨_, older, heq, rfl, ?_⟩
    apply (hmetered.limit_le_restarts_iff rfl).mpr
    rw [hsame]
    exact hanswered id now hmeets

end Step

/-- No failure has been handled yet. -/
structure Fresh (s : Supervisor ι) : Prop where
  log : s.log = []
  history : ∀ child ∈ s.children.rows, child.restartTimestamps = []

theorem Fresh.tracked {s : Supervisor ι} {maxRestarts : UInt32} {withinSeconds : UInt64}
    (h : s.Fresh) (hlimits : s.strategy.limits = some (maxRestarts, withinSeconds)) :
    Tracked maxRestarts withinSeconds s where
  limits := hlimits
  le_clock := by
    rw [h.log]
    nofun
  metered := by
    rw [h.log]
    trivial
  history := by
    intro id child hfind now _
    have hempty := h.history child (List.mem_of_find?_eq_some hfind)
    rw [h.log, SupervisedActor.recent, hempty]
    rfl

/-- In every run, no window holds more restarts of a child than the limit; and every report
of the limit comes after that many restarts if and only if no call meets a child at its
limit with other entries in the window. -/
theorem intensity_kept (ids : ActorIds ι) (s : Supervisor ι) (maxRestarts : UInt32)
    (withinSeconds : UInt64) (hfresh : s.Fresh)
    (hlimits : s.strategy.limits = some (maxRestarts, withinSeconds))
    (failures : List (Failure ι)) :
    (∀ id start, (during Visit.now (fromSecs withinSeconds) start
      (restarts (run (handle ids) s failures).log id)).length ≤ maxRestarts.toNat) ∧
    (Along (handle ids) (Justified ids maxRestarts withinSeconds) s failures ↔
      Along (handle ids) (AnsweredAtLimit ids maxRestarts withinSeconds) s failures) := by
  have htracked := hfresh.tracked hlimits
  constructor
  · have hrun : Tracked maxRestarts withinSeconds (run (handle ids) s failures) :=
      run_invariant (I := Tracked maxRestarts withinSeconds)
        (fun f _ s h => h.handle ids f) htracked
    exact hrun.metered.restarts_le
  · exact along_congr (I := Tracked maxRestarts withinSeconds)
      (fun s f h => justified_iff h ids f) (fun s f h _ => h.handle ids f) htracked failures

/-- One child that is never restarted, with one restart a minute allowed. -/
def idleChild : Supervisor Nat where
  strategy := .oneForOne 1 60
  children := ⟨[⟨0, 3, 0, none, []⟩], by decide⟩
  stats := ⟨0, 0, 0, 0, ∅⟩
  clock := 0
  log := []

def noIds : ActorIds Nat := ⟨fun _ => none, 0⟩

def idleExit : Failure Nat where
  env := ⟨fun _ => 0, fun _ => .started 0⟩
  id := 0
  reason := "normal"
  exitReason := some .normal

theorem idleChild_fresh : idleChild.Fresh := ⟨rfl, by decide +kernel⟩

theorem intensity_kept_idleChild :
    idleChild.Fresh ∧ idleChild.strategy.limits = some (1, 60) ∧
      (∀ id start, (during Visit.now (fromSecs 60) start
        (restarts (run (handle noIds) idleChild [idleExit, idleExit]).log id)).length ≤ 1) ∧
      (Along (handle noIds) (Justified noIds 1 60) idleChild [idleExit, idleExit] ↔
        Along (handle noIds) (AnsweredAtLimit noIds 1 60) idleChild [idleExit, idleExit]) :=
  ⟨idleChild_fresh, rfl,
    intensity_kept noIds idleChild 1 60 idleChild_fresh rfl [idleExit, idleExit]⟩

/-- Two exits of a temporary child: the second is refused, and there was no restart. -/
theorem not_justified :
    ¬∀ (ids : ActorIds Nat) (s : Supervisor Nat) (maxRestarts : UInt32)
      (withinSeconds : UInt64), s.Fresh →
      s.strategy.limits = some (maxRestarts, withinSeconds) →
      ∀ failures : List (Failure Nat),
        Along (handle ids) (Justified ids maxRestarts withinSeconds) s failures := by
  intro h
  obtain ⟨-, hsecond, -⟩ := h noIds idleChild 1 60 idleChild_fresh rfl [idleExit, idleExit]
  obtain ⟨v, older, hlog, -, hlimit⟩ := hsecond (by decide +kernel)
  have hvisits : ((idleChild.handle noIds idleExit).handle noIds idleExit).log =
      [⟨0, 0, .maxRestartsExceeded⟩, ⟨0, 0, .notRestarted⟩] := by decide +kernel
  rw [hvisits] at hlog
  cases hlog
  revert hlimit
  decide +kernel

end Supervisor

end PlexSpaces.Supervision
