import PlexSpaces.Supervision.Supervisor
/-!
# Group restarts that run into the limit

The loop of the group strategies checks the limit of each child when it gets to it.
When a later child has reached its limit, the children before it have been visited
already: their histories have grown and they may have been restarted.  A call that
reports `MaxRestartsExceeded` has changed nothing exactly when the first child of the
group is the one that has reached its limit and its history has no entry to prune
(`no_partial_restart_iff`).
-/

namespace PlexSpaces.Supervision

open PlexSpaces.Lib

namespace Supervisor

variable {ι : Type} [DecidableEq ι]

def group (s : Supervisor ι) (id : ι) : List (SupervisedActor ι) :=
  match s.strategy with
  | .oneForAll _ _ => s.children.rows
  | .restForOne _ _ => s.fromFailed id
  | _ => []

def record (s : Supervisor ι) (id : ι) : Option (List Nat × UInt32) :=
  (s.children.find id).map fun c => (c.restartTimestamps, c.restartCount)

/-- No child was restarted, and no history and no count has changed. -/
def Untouched (s s' : Supervisor ι) : Prop :=
  restarted s s' = [] ∧ ∀ k, s'.record k = s.record k

/-- A call that reports `MaxRestartsExceeded` has left every child untouched. -/
def NoPartialRestart (ids : ActorIds ι) (s : Supervisor ι) (env : Env ι) (id : ι)
    (reason : String) (exitReason : Option (ExitReason ι)) : Prop :=
  (handleFailure ids s env id reason exitReason).1 = .error .maxRestartsExceeded →
    s.Untouched (handleFailure ids s env id reason exitReason).2

section Limit

variable (env : Env ι) (maxRestarts : UInt32) (withinSeconds : UInt64)
  (exitReason : Option (ExitReason ι))

omit [DecidableEq ι]

/-- The child has reached its limit at `now`. -/
def OverLimit (now : Nat) (child : SupervisedActor ι) : Prop :=
  maxRestarts.toNat ≤ (child.recent now (fromSecs withinSeconds)).length

/-- The visit of a child within its limit goes on to the next child: the policy asks for
no restart, or the restart succeeds. -/
def Passes (child : SupervisedActor ι) : Prop :=
  child.restartPolicy.shouldRestart exitReason = true →
    ∃ time, env.start child.actorId = .started time

/-- From the time `clock` on, the loop gets to a child that has reached its limit. -/
def ReachesLimit : Nat → List (SupervisedActor ι) → Prop
  | _, [] => False
  | clock, child :: rest =>
      let now := max clock (env.now child.actorId)
      OverLimit maxRestarts withinSeconds now child ∨
        Passes env exitReason child ∧ ReachesLimit now rest

/-- The loop meets the limit at its first child, whose history is all in the window, or
not at all. -/
def LimitFirst (clock : Nat) : List (SupervisedActor ι) → Prop
  | [] => True
  | child :: rest =>
      let now := max clock (env.now child.actorId)
      (OverLimit maxRestarts withinSeconds now child →
        ∀ t ∈ child.restartTimestamps, now - t < fromSecs withinSeconds) ∧
      (¬OverLimit maxRestarts withinSeconds now child → Passes env exitReason child →
        ¬ReachesLimit env maxRestarts withinSeconds exitReason now rest)

end Limit

section Loop

variable {env : Env ι} {maxRestarts : UInt32} {withinSeconds : UInt64}
  {exitReason : Option (ExitReason ι)} {s : Supervisor ι}

theorem restartEach_find_of_not_mem {ids : List ι} {k : ι} (hk : k ∉ ids) :
    (restartEach env maxRestarts withinSeconds exitReason ids s).2.children.find k =
      s.children.find k := by
  induction ids generalizing s with
  | nil => rfl
  | cons id ids ih =>
      have hne : k ≠ id := fun h => hk (h ▸ List.mem_cons_self)
      have hone : (s.restartOne env id maxRestarts withinSeconds exitReason).2.children.find k =
          s.children.find k := by
        cases hfind : s.children.find id with
        | none => rw [restartOne_of_find_none hfind]
        | some child =>
            obtain ⟨s', hres, -, -, -, hchildren⟩ :=
              restartOne_of_find env hfind maxRestarts withinSeconds exitReason
            rw [hres, hchildren, if_neg hne]
      rw [restartEach]
      split
      · next s' hres =>
          rw [ih (fun h => hk (List.mem_cons_of_mem _ h))]
          rw [hres] at hone
          exact hone
      · next e s' hres =>
          rw [hres] at hone
          exact hone

theorem restartOne_of_overLimit (exitReason : Option (ExitReason ι)) {child : SupervisedActor ι}
    (hfind : s.children.find child.actorId = some child)
    (hover : OverLimit maxRestarts withinSeconds (s.now env child.actorId) child) :
    ∃ s', s.restartOne env child.actorId maxRestarts withinSeconds exitReason =
        (.error .maxRestartsExceeded, s') ∧
      s'.log = ⟨child.actorId, s.now env child.actorId, .maxRestartsExceeded⟩ :: s.log ∧
      ∀ k, s'.children.find k =
        if k = child.actorId then
          some
            { child with
              restartTimestamps :=
                child.recent (s.now env child.actorId) (fromSecs withinSeconds) }
        else s.children.find k := by
  obtain ⟨s', hres, -, -, hlog, hchildren⟩ :=
    restartOne_of_find env hfind maxRestarts withinSeconds exitReason
  rcases child.visit_cases s.stats maxRestarts (fromSecs withinSeconds)
      (s.now env child.actorId) exitReason (env.start child.actorId) with
    ⟨-, hvisit⟩ | ⟨hlt, -⟩ | ⟨hlt, -⟩ | ⟨hlt, -⟩
  · rw [hvisit] at hres hlog hchildren
    exact ⟨s', hres, hlog, hchildren⟩
  all_goals exact absurd hover (not_le.mpr hlt)

/-- A visit within the limit: it passes or reports a failed restart, and in either case
the history has grown. -/
theorem restartOne_of_not_overLimit (exitReason : Option (ExitReason ι))
    {child : SupervisedActor ι}
    (hfind : s.children.find child.actorId = some child)
    (hover : ¬OverLimit maxRestarts withinSeconds (s.now env child.actorId) child) :
    ∃ result s', s.restartOne env child.actorId maxRestarts withinSeconds exitReason =
        (result, s') ∧ s'.clock = s.now env child.actorId ∧
      (∃ outcome, s'.log = ⟨child.actorId, s.now env child.actorId, outcome⟩ :: s.log) ∧
      (result = .ok () ∧ Passes env exitReason child ∨
        (∃ message, result = .error (.restartFailed message)) ∧
          ¬Passes env exitReason child) ∧
      (∀ k, k ≠ child.actorId → s'.children.find k = s.children.find k) ∧
      ∃ child', s'.children.find child.actorId = some child' ∧ child'.restartTimestamps =
        child.recent (s.now env child.actorId) (fromSecs withinSeconds) ++
          [s.now env child.actorId] := by
  obtain ⟨s', hres, -, hclock, hlog, hchildren⟩ :=
    restartOne_of_find env hfind maxRestarts withinSeconds exitReason
  have hrest : ∀ k, k ≠ child.actorId → s'.children.find k = s.children.find k := by
    intro k hk
    rw [hchildren, if_neg hk]
  have hself := hchildren child.actorId
  rw [if_pos rfl] at hself
  rcases child.visit_cases s.stats maxRestarts (fromSecs withinSeconds)
      (s.now env child.actorId) exitReason (env.start child.actorId) with
    ⟨hle, -⟩ | ⟨-, hpolicy, time, stats', htime, hvisit⟩ |
    ⟨-, hpolicy, message, stats', hnot, hvisit⟩ | ⟨-, hpolicy, hvisit⟩
  · exact absurd hle hover
  · rw [hvisit] at hres hself
    exact ⟨_, s', hres, hclock, ⟨_, hlog⟩, .inl ⟨rfl, fun _ => ⟨time, htime⟩⟩, hrest, _, hself, rfl⟩
  · rw [hvisit] at hres hself
    refine ⟨_, s', hres, hclock, ⟨_, hlog⟩, .inr ⟨⟨message, rfl⟩, ?_⟩, hrest, _, hself, rfl⟩
    intro hpasses
    obtain ⟨time, htime⟩ := hpasses hpolicy
    exact hnot time htime
  · rw [hvisit] at hres hself
    refine ⟨_, s', hres, hclock, ⟨_, hlog⟩, .inl ⟨rfl, ?_⟩, hrest, _, hself, rfl⟩
    intro htrue
    rw [hpolicy] at htrue
    cases htrue

/-- The loop reports the limit exactly when it gets to a child that has reached it. -/
theorem restartEach_exceeded_iff {children : List (SupervisedActor ι)}
    (hfind : ∀ child ∈ children, s.children.find child.actorId = some child)
    (hnodup : (children.map (·.actorId)).Nodup) :
    (restartEach env maxRestarts withinSeconds exitReason (children.map (·.actorId)) s).1 =
        .error .maxRestartsExceeded ↔
      ReachesLimit env maxRestarts withinSeconds exitReason s.clock children := by
  induction children generalizing s with
  | nil =>
      refine iff_of_false ?_ id
      intro hexceeded
      cases hexceeded
  | cons child rest ih =>
      obtain ⟨hfresh, hnodup⟩ := List.nodup_cons.mp hnodup
      have hself := hfind child List.mem_cons_self
      by_cases hover : OverLimit maxRestarts withinSeconds (s.now env child.actorId) child
      · obtain ⟨s', hres, -⟩ := restartOne_of_overLimit exitReason hself hover
        rw [List.map_cons, restartEach, hres]
        exact iff_of_true rfl (.inl hover)
      · obtain ⟨result, s', hres, hclock, -, hresult, hkeep, -⟩ :=
          restartOne_of_not_overLimit exitReason hself hover
        have hrest := find_of_mem_rest hfind hfresh hkeep
        rw [List.map_cons, restartEach, hres]
        rcases hresult with ⟨rfl, hpasses⟩ | ⟨⟨message, rfl⟩, hpasses⟩
        · have htail := ih hrest hnodup
          rw [hclock] at htail
          refine htail.trans ⟨fun h => .inr ⟨hpasses, h⟩, ?_⟩
          rintro (h | ⟨-, h⟩)
          · exact absurd h hover
          · exact h
        · refine iff_of_false ?_ ?_
          · intro hexceeded
            cases hexceeded
          · rintro (h | ⟨h, -⟩)
            · exact hover h
            · exact hpasses h

end Loop

omit [DecidableEq ι] in
theorem window_pos_of_reachesLimit {env : Env ι} {maxRestarts : UInt32}
    {withinSeconds : UInt64} {exitReason : Option (ExitReason ι)} {clock : Nat}
    {children : List (SupervisedActor ι)} (hmax : 0 < maxRestarts.toNat)
    (h : ReachesLimit env maxRestarts withinSeconds exitReason clock children) :
    0 < fromSecs withinSeconds := by
  induction children generalizing clock with
  | nil => exact h.elim
  | cons child rest ih =>
      rcases h with hover | ⟨-, hrest⟩
      · obtain ⟨t, ht⟩ := List.exists_mem_of_length_pos (Nat.lt_of_lt_of_le hmax hover)
        have hrecent := (List.mem_filter.mp ht).2
        rw [decide_eq_true_eq] at hrecent
        exact Nat.zero_lt_of_lt hrecent
      · exact ih hrest

omit [DecidableEq ι] in
/-- A visit within the limit changes the history, unless the window is empty. -/
theorem recent_append_ne (child : SupervisedActor ι) (now : Nat) {window : Nat}
    (hpos : 0 < window) : child.recent now window ++ [now] ≠ child.restartTimestamps := by
  intro heq
  have hall : child.recent now window = child.restartTimestamps := by
    apply List.filter_eq_self.mpr
    intro t ht
    rw [← heq] at ht
    rcases List.mem_append.mp ht with ht | ht
    · exact (List.mem_filter.mp ht).2
    · rw [List.mem_singleton.mp ht]
      simpa using hpos
  have hlen := congrArg List.length heq
  rw [hall, List.length_append, List.length_singleton] at hlen
  omega

section Group

variable {env : Env ι} {maxRestarts : UInt32} {withinSeconds : UInt64}
  {exitReason : Option (ExitReason ι)} {s : Supervisor ι} {child : SupervisedActor ι}
  {rest : List (SupervisedActor ι)}

theorem loop_of_overLimit (hfind : s.children.find child.actorId = some child)
    (hover : OverLimit maxRestarts withinSeconds (s.now env child.actorId) child) :
    s.Untouched (restartEach env maxRestarts withinSeconds exitReason
        ((child :: rest).map (·.actorId)) s).2 ↔
      ∀ t ∈ child.restartTimestamps,
        s.now env child.actorId - t < fromSecs withinSeconds := by
  obtain ⟨s', hres, hlog, hchildren⟩ := restartOne_of_overLimit exitReason hfind hover
  have hcall : restartEach env maxRestarts withinSeconds exitReason
      ((child :: rest).map (·.actorId)) s = (.error .maxRestartsExceeded, s') := by
    simp only [List.map_cons, restartEach, hres]
  have hnone : restarted s s' = [] := by
    rw [restarted, newVisits_of_log [_] hlog]
    rfl
  have hsame : (∀ t ∈ child.restartTimestamps,
      s.now env child.actorId - t < fromSecs withinSeconds) ↔
      child.recent (s.now env child.actorId) (fromSecs withinSeconds) =
        child.restartTimestamps := by
    simp [SupervisedActor.recent, List.filter_eq_self]
  rw [hcall, hsame]
  constructor
  · rintro ⟨-, hrecord⟩
    have hself := hrecord child.actorId
    rw [record, record, hchildren, if_pos rfl, hfind] at hself
    simpa using hself
  · intro hrecent
    refine ⟨hnone, ?_⟩
    intro k
    rw [record, record, hchildren, hrecent]
    split_ifs with hk
    · rw [hk, hfind]
    · rfl

/-- The loop when its first child is visited and a later one has reached its limit. -/
theorem loop_of_reachesLimit (hfind : s.children.find child.actorId = some child)
    (hfresh : child.actorId ∉ rest.map (·.actorId))
    (hover : ¬OverLimit maxRestarts withinSeconds (s.now env child.actorId) child)
    (hreach : ReachesLimit env maxRestarts withinSeconds exitReason
      (s.now env child.actorId) rest) (hpasses : Passes env exitReason child) :
    (restartEach env maxRestarts withinSeconds exitReason
      ((child :: rest).map (·.actorId)) s).2.record child.actorId ≠ s.record child.actorId := by
  obtain ⟨result, s', hres, -, -, hresult, -, child', hchild', hhistory⟩ :=
    restartOne_of_not_overLimit exitReason hfind hover
  have hok : result = .ok () := by
    rcases hresult with ⟨hok, -⟩ | ⟨-, hnot⟩
    · exact hok
    · exact absurd hpasses hnot
  subst hok
  have hmax : 0 < maxRestarts.toNat := Nat.zero_lt_of_lt (not_le.mp hover)
  have hne := recent_append_ne child (s.now env child.actorId)
    (window_pos_of_reachesLimit hmax hreach)
  rw [List.map_cons, restartEach, hres]
  dsimp only
  rw [record, record, restartEach_find_of_not_mem hfresh, hchild', hfind]
  simp [hhistory, hne]

variable (env maxRestarts withinSeconds exitReason) in
theorem loop_noPartial_iff {children : List (SupervisedActor ι)}
    (hchildren : children.Sublist s.children.rows) :
    ((restartEach env maxRestarts withinSeconds exitReason (children.map (·.actorId)) s).1 =
        .error .maxRestartsExceeded →
      s.Untouched (restartEach env maxRestarts withinSeconds exitReason
        (children.map (·.actorId)) s).2) ↔
      LimitFirst env maxRestarts withinSeconds exitReason s.clock children := by
  have hfind : ∀ child ∈ children, s.children.find child.actorId = some child :=
    fun c hc => Table.find_of_mem (hchildren.subset hc)
  have hnodup : (children.map (·.actorId)).Nodup :=
    (hchildren.map (·.actorId)).nodup s.children.nodup
  rw [restartEach_exceeded_iff hfind hnodup]
  cases children with
  | nil => exact iff_of_true nofun trivial
  | cons child rest =>
      have hself := hfind child List.mem_cons_self
      by_cases hover : OverLimit maxRestarts withinSeconds (s.now env child.actorId) child
      · rw [loop_of_overLimit hself hover]
        constructor
        · intro h
          exact ⟨fun _ => h (.inl hover), fun hnot => absurd hover hnot⟩
        · intro h _
          exact h.1 hover
      · have hfresh := (List.nodup_cons.mp hnodup).1
        constructor
        · intro h
          refine ⟨fun h' => absurd h' hover, fun _ hpasses hreach => ?_⟩
          exact loop_of_reachesLimit hself hfresh hover hreach hpasses
            ((h (.inr ⟨hpasses, hreach⟩)).2 child.actorId)
        · rintro ⟨-, hnot⟩ (h' | ⟨hpasses, hreach⟩)
          · exact absurd h' hover
          · exact absurd hreach (hnot hover hpasses)

end Group

/-- Under a group strategy, a call that reports `MaxRestartsExceeded` has changed nothing
if and only if the loop meets the limit at its first child with nothing to prune, or not
at all. -/
theorem no_partial_restart_iff (ids : ActorIds ι) (s : Supervisor ι) (env : Env ι) (id : ι)
    (reason : String) (exitReason : Option (ExitReason ι)) (maxRestarts : UInt32)
    (withinSeconds : UInt64)
    (hgroup : s.strategy = .oneForAll maxRestarts withinSeconds ∨
      s.strategy = .restForOne maxRestarts withinSeconds) :
    NoPartialRestart ids s env id reason exitReason ↔
      LimitFirst env maxRestarts withinSeconds
        (exitReason.or (some (ExitReason.fromStr ids reason))) s.clock (s.group id) := by
  let f : Failure ι := ⟨env, id, reason, exitReason⟩
  obtain ⟨hlimits, hexit, hscope⟩ : s.strategy.limits = some (maxRestarts, withinSeconds) ∧
      s.visitExit ids f = exitReason.or (some (ExitReason.fromStr ids reason)) ∧
      s.group id = s.visitScope id := by
    unfold visitExit group visitScope
    rcases hgroup with hstrategy | hstrategy
    · rw [hstrategy]
      exact ⟨rfl, rfl, rfl⟩
    · rw [hstrategy]
      exact ⟨rfl, rfl, rfl⟩
  obtain ⟨s₁, henters, hcall⟩ := handleFailure_loop ids f hlimits
  have hsame : ∀ s', s.Untouched s' ↔ s₁.Untouched s' := by
    intro s'
    simp only [Untouched, restarted, newVisits, record, henters.log, henters.children]
  have hdef : NoPartialRestart ids s env id reason exitReason ↔
      ((handleFailure ids s f.env f.id f.reason f.exitReason).1 = .error .maxRestartsExceeded →
        s₁.Untouched (handleFailure ids s f.env f.id f.reason f.exitReason).2) :=
    imp_congr_right fun _ => hsame _
  rw [hdef, hscope, ← hexit, ← henters.clock]
  rcases hcall with hcall | ⟨hempty, hcall⟩
  · rw [hcall]
    apply loop_noPartial_iff
    rw [henters.children]
    exact s.visitScope_sublist id
  · have hnil : s.visitScope id = [] := hempty
    rw [hcall, hnil]
    refine iff_of_true ?_ trivial
    intro hexceeded
    cases hexceeded

/-- Two permanent children under one-for-all with one restart a minute, the second with a
restart in its history. -/
def halfSpent : Supervisor Nat where
  strategy := .oneForAll 1 60
  children := ⟨[⟨0, 1, 0, none, []⟩, ⟨1, 1, 1, some 0, [0]⟩], by decide⟩
  stats := ⟨1, 1, 0, 0, ∅⟩
  clock := 0
  log := []

def quickEnv : Env Nat := ⟨fun _ => 0, fun _ => .started 0⟩

theorem no_partial_restart_iff_halfSpent :
    (halfSpent.strategy = .oneForAll 1 60 ∨ halfSpent.strategy = .restForOne 1 60) ∧
      (NoPartialRestart ⟨fun _ => none, 0⟩ halfSpent quickEnv 0 "" (some .killed) ↔
        LimitFirst quickEnv 1 60 (some .killed) 0 (halfSpent.group 0)) :=
  ⟨.inl rfl, no_partial_restart_iff ⟨fun _ => none, 0⟩ halfSpent quickEnv 0 "" (some .killed) 1 60
    (.inl rfl)⟩

/-- The first child is restarted before the call reports the limit of the second. -/
theorem not_no_partial_restart :
    ¬∀ (ids : ActorIds Nat) (s : Supervisor Nat) (env : Env Nat) (id : Nat) (reason : String)
      (exitReason : Option (ExitReason Nat)) (maxRestarts : UInt32) (withinSeconds : UInt64),
      s.strategy = .oneForAll maxRestarts withinSeconds ∨
        s.strategy = .restForOne maxRestarts withinSeconds →
      NoPartialRestart ids s env id reason exitReason := by
  intro h
  have huntouched := h ⟨fun _ => none, 0⟩ halfSpent quickEnv 0 "" (some .killed) 1 60 (.inl rfl)
    (by decide +kernel)
  have hnone := huntouched.1
  revert hnone
  decide +kernel

end Supervisor

end PlexSpaces.Supervision
