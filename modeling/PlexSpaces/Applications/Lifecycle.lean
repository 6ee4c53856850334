import PlexSpaces.Applications.Manager

/-!
# The life of an application

The log tells what became of every registration (`phaseOf`), and the table agrees with it at every
moment (`Consistent`).  So each section finds the application where its life allows: it is
registered under a free name, started when created, stopped when running, removed when not running,
and cleaned up when removed.

Whatever the other calls do between its sections, every method keeps the table in agreement with
the log.  A registration only goes forward in its life, so each of its turns comes once
(`one_life`), and what `stop_all` saw running has stopped for good when it returns
(`stopAll_settles`).
-/

namespace PlexSpaces.Applications

open PlexSpaces.Lib

/-- What has become of a registration; the table has it under `name` until it is removed. -/
inductive Phase
  | absent
  | inTable (name : String) (state : ApplicationState)
  | removed
  deriving DecidableEq

namespace Phase

def rank : Phase → Nat
  | absent => 0
  | inTable _ .created => 1
  | inTable _ .starting => 2
  | inTable _ .running => 3
  | inTable _ .stopping => 4
  | inTable _ .stopped => 5
  | inTable _ .failed => 5
  | removed => 6

def Settled (p : Phase) : Prop := 4 ≤ p.rank

instance (p : Phase) : Decidable p.Settled := inferInstanceAs (Decidable (_ ≤ _))

end Phase

/-- What an entry does to the registration `n`. -/
def lifeStep (n : Nat) (cur : Phase) : LogEntry → Phase
  | .served _ (.insert app _) (some k) => if k = n then .inTable app.name .created else cur
  | .served _ (.start name _) (.noContext k) => if k = n then .inTable name .starting else cur
  | .served _ (.start name _) (.ran k outcome) =>
      if k = n then .inTable name (ApplicationManager.afterStart outcome) else cur
  | .served _ (.stop name _) (.ran k outcome) =>
      if k = n then .inTable name (ApplicationManager.afterStop outcome) else cur
  | .served _ (.remove _) (.removed k) => if k = n then .removed else cur
  | _ => cur

/-- What the log says of the registration `n`. -/
def phaseOf (log : List LogEntry) (n : Nat) : Phase := log.foldl (lifeStep n) .absent

theorem phaseOf_concat (log : List LogEntry) (e : LogEntry) (n : Nat) :
    phaseOf (log ++ [e]) n = lifeStep n (phaseOf log n) e := by
  rw [phaseOf, List.foldl_append]
  rfl

/-- Nothing is registered under `name`. -/
def Free (log : List LogEntry) (name : String) : Prop :=
  ∀ n state, phaseOf log n ≠ .inTable name state

/-- What the log may hold after the entries `before`. -/
def LogEntry.Sound (before : List LogEntry) : LogEntry → Prop
  | .served _ (.resolveId id _) key => key = id ∨ Free before id
  | .served _ (.insert app _) (some n) => phaseOf before n = .absent ∧ Free before app.name
  | .served _ (.start name _) .notFound => Free before name
  | .served _ (.start name _) (.noContext n) => phaseOf before n = .inTable name .created
  | .served _ (.start name _) (.ran n _) => phaseOf before n = .inTable name .created
  | .served _ (.stop name _) .notFound => Free before name
  | .served _ (.stop name _) .notRunning => ∀ n, phaseOf before n ≠ .inTable name .running
  | .served _ (.stop name _) (.ran n _) => phaseOf before n = .inTable name .running
  | .served _ (.remove name) .notFound => Free before name
  | .served _ (.remove name) (.removed n) =>
      ∃ state, state ≠ .running ∧ phaseOf before n = .inTable name state
  | .served _ (.inspect name) .notFound => Free before name
  | .served _ (.running _) seen => ∀ a, a ∈ seen ↔ phaseOf before a.2 = .inTable a.1 .running
  | .served _ (.cleanup n _) _ => phaseOf before n = .removed
  | .returned caller (.stoppedAll (.ok (seen, _))) =>
      (∃ order, .served caller (.running order) seen ∈ before) ∧
        ∀ a ∈ seen, (phaseOf before a.2).Settled
  | _ => True

structure Consistent (s : ApplicationManager) (log : List LogEntry) : Prop where
  phase : ∀ name inst, s.applications.lookup name = some inst →
    phaseOf log inst.serial = .inTable name inst.state
  kept : ∀ n name state, phaseOf log n = .inTable name state →
    ∃ inst, s.applications.lookup name = some inst ∧ inst.serial = n
  fresh : ∀ n, s.registered ≤ n → phaseOf log n = .absent
  sound : EachAfter LogEntry.Sound log

theorem new_consistent : Consistent .new [] where
  phase name inst h := by cases h
  kept n name state h := by cases h
  fresh _ _ := rfl
  sound := eachAfter_nil

/-! ## One section -/

namespace Consistent

variable {s : ApplicationManager} {log : List LogEntry} {caller : Nat}

/-- A section that neither changes the table nor tells of a change. -/
theorem unchanged (h : Consistent s log) {e : LogEntry} {s' : ApplicationManager}
    (htable : s'.applications = s.applications) (hregistered : s'.registered = s.registered)
    (hlife : ∀ n cur, lifeStep n cur e = cur) (hsound : LogEntry.Sound log e) :
    Consistent s' (log ++ [e]) where
  phase name inst hlookup := by
    rw [phaseOf_concat, hlife]
    exact h.phase name inst (htable ▸ hlookup)
  kept n name state hphase := by
    rw [phaseOf_concat, hlife] at hphase
    rw [htable]
    exact h.kept n name state hphase
  fresh n hn := by
    rw [phaseOf_concat, hlife]
    exact h.fresh n (hregistered ▸ hn)
  sound := h.sound.concat hsound

theorem distinct (h : Consistent s log) {name name' : String} {inst inst' : ApplicationInstance}
    (hlookup : s.applications.lookup name = some inst)
    (hlookup' : s.applications.lookup name' = some inst') (hserial : inst.serial = inst'.serial) :
    name = name' := by
  have hphase := h.phase name inst hlookup
  rw [hserial, h.phase name' inst' hlookup'] at hphase
  exact (Phase.inTable.inj hphase).1.symm

theorem serial_lt (h : Consistent s log) {name : String} {inst : ApplicationInstance}
    (hlookup : s.applications.lookup name = some inst) : inst.serial < s.registered := by
  by_contra hge
  have habsent := h.fresh inst.serial (by omega)
  rw [h.phase name inst hlookup] at habsent
  cases habsent

theorem free (h : Consistent s log) {name : String} (hname : s.applications.lookup name = none) :
    Free log name := by
  intro n state hphase
  obtain ⟨inst, hlookup, -⟩ := h.kept n name state hphase
  rw [hname] at hlookup
  cases hlookup

theorem serial_eq (h : Consistent s log) {name : String} {n : Nat} {state : ApplicationState}
    {inst : ApplicationInstance} (hphase : phaseOf log n = .inTable name state)
    (hlookup : s.applications.lookup name = some inst) :
    inst.serial = n ∧ inst.state = state := by
  obtain ⟨inst', hlookup', hserial⟩ := h.kept n name state hphase
  rw [hlookup] at hlookup'
  cases hlookup'
  have hinst := h.phase name inst hlookup
  rw [hserial, hphase] at hinst
  exact ⟨hserial, (Phase.inTable.inj hinst).2.symm⟩

theorem number_eq (h : Consistent s log) {name : String} {n n' : Nat}
    {state state' : ApplicationState} (hphase : phaseOf log n = .inTable name state)
    (hphase' : phaseOf log n' = .inTable name state') : n = n' := by
  obtain ⟨inst, hlookup, rfl⟩ := h.kept n name state hphase
  exact (h.serial_eq hphase' hlookup).1

theorem setState (h : Consistent s log) {name : String} {inst : ApplicationInstance}
    (hlookup : s.applications.lookup name = some inst) {state : ApplicationState} {e : LogEntry}
    (hlife : ∀ n cur, lifeStep n cur e = if inst.serial = n then .inTable name state else cur)
    (hsound : LogEntry.Sound log e) : Consistent (s.setState name inst state) (log ++ [e]) where
  phase name' inst' hlookup' := by
    rw [ApplicationManager.setState, Assoc.lookup_insert] at hlookup'
    rw [phaseOf_concat, hlife]
    split at hlookup'
    · next heq =>
      cases hlookup'
      rw [heq]
      exact if_pos rfl
    · next hne =>
      rw [if_neg fun heq => hne (h.distinct hlookup' hlookup heq.symm)]
      exact h.phase name' inst' hlookup'
  kept n name' state' hphase := by
    rw [phaseOf_concat, hlife] at hphase
    show ∃ inst', (s.applications.insert name { inst with state := state }).lookup name'
      = some inst' ∧ inst'.serial = n
    split at hphase
    · next heq =>
      rw [← (Phase.inTable.inj hphase).1]
      exact ⟨_, Assoc.lookup_insert_self _ _ _, heq⟩
    · next hne =>
      obtain ⟨inst', hlookup', hserial⟩ := h.kept n name' state' hphase
      have hname : name' ≠ name := by
        rintro rfl
        exact hne (h.serial_eq hphase hlookup).1
      exact ⟨inst', by rw [Assoc.lookup_insert_of_ne _ _ hname, hlookup'], hserial⟩
  fresh n hn := by
    have hlt := h.serial_lt hlookup
    have hn' : s.registered ≤ n := hn
    rw [phaseOf_concat, hlife, if_neg (by omega)]
    exact h.fresh n hn'
  sound := h.sound.concat hsound

theorem insert (h : Consistent s log) (app : Application) (tenantId : String) :
    Consistent (s.insert app tenantId).2
      (log ++ [.served caller (.insert app tenantId) (s.insert app tenantId).1]) := by
  unfold ApplicationManager.insert
  split
  · exact h.unchanged rfl rfl (fun _ _ => rfl) trivial
  · next hnew =>
    have habsent : phaseOf log s.registered = .absent := h.fresh _ le_rfl
    have hlife : ∀ n, phaseOf (log ++ [.served caller (.insert app tenantId) (some s.registered)]) n
        = if s.registered = n then .inTable app.name .created else phaseOf log n :=
      fun n => phaseOf_concat _ _ n
    have hfree : Free log app.name := h.free (AList.lookup_eq_none.mpr hnew)
    refine ⟨?_, ?_, ?_, h.sound.concat ⟨habsent, hfree⟩⟩
    · intro name inst hlookup
      rw [Assoc.lookup_insert] at hlookup
      rw [hlife]
      split at hlookup
      · next heq =>
        cases hlookup
        rw [heq]
        exact if_pos rfl
      · have hlt := h.serial_lt hlookup
        rw [if_neg (by omega)]
        exact h.phase name inst hlookup
    · intro n name state hphase
      rw [hlife] at hphase
      split at hphase
      · next heq =>
        rw [← (Phase.inTable.inj hphase).1]
        exact ⟨_, Assoc.lookup_insert_self _ _ _, heq⟩
      · obtain ⟨inst, hlookup, hserial⟩ := h.kept n name state hphase
        have hname : name ≠ app.name := by
          rintro rfl
          exact hnew (AList.lookup_isSome.mp (by rw [hlookup]; rfl))
        exact ⟨inst, by rw [Assoc.lookup_insert_of_ne _ _ hname, hlookup], hserial⟩
    · intro n hn
      have hn' : s.registered + 1 ≤ n := hn
      rw [hlife, if_neg (by omega)]
      exact h.fresh n (by omega)

theorem start (h : Consistent s log) (name : String) (outcome : StartOutcome) :
    Consistent (s.start name outcome).2
      (log ++ [.served caller (.start name outcome) (s.start name outcome).1]) := by
  unfold ApplicationManager.start
  cases hlookup : s.applications.lookup name with
  | none => exact h.unchanged rfl rfl (fun _ _ => rfl) (h.free hlookup)
  | some inst =>
    have hphase := h.phase name inst hlookup
    dsimp only
    split
    · exact h.unchanged rfl rfl (fun _ _ => rfl) trivial
    · next hcreated =>
      rw [not_not.mp hcreated] at hphase
      split
      · exact h.setState hlookup (fun _ _ => rfl) hphase
      · exact h.setState hlookup (fun _ _ => rfl) hphase

theorem stop (h : Consistent s log) (name : String) (outcome : StopOutcome) :
    Consistent (s.stop name outcome).2
      (log ++ [.served caller (.stop name outcome) (s.stop name outcome).1]) := by
  unfold ApplicationManager.stop
  cases hlookup : s.applications.lookup name with
  | none => exact h.unchanged rfl rfl (fun _ _ => rfl) (h.free hlookup)
  | some inst =>
    have hphase := h.phase name inst hlookup
    dsimp only
    split
    · next hidle =>
      exact h.unchanged rfl rfl (fun _ _ => rfl) fun n hn => hidle (h.serial_eq hn hlookup).2
    · next hrunning =>
      rw [not_not.mp hrunning] at hphase
      exact h.setState hlookup (fun _ _ => rfl) hphase

theorem remove (h : Consistent s log) (name : String) :
    Consistent (s.remove name).2 (log ++ [.served caller (.remove name) (s.remove name).1]) := by
  unfold ApplicationManager.remove
  cases hlookup : s.applications.lookup name with
  | none => exact h.unchanged rfl rfl (fun _ _ => rfl) (h.free hlookup)
  | some inst =>
    have hphase := h.phase name inst hlookup
    dsimp only
    split
    · exact h.unchanged rfl rfl (fun _ _ => rfl) trivial
    · next hidle =>
      have hlife : ∀ n, phaseOf (log ++ [.served caller (.remove name) (.removed inst.serial)]) n
          = if inst.serial = n then .removed else phaseOf log n :=
        fun n => phaseOf_concat _ _ n
      refine ⟨?_, ?_, ?_, h.sound.concat ⟨inst.state, hidle, hphase⟩⟩
      · intro name' inst' hlookup'
        rw [Assoc.lookup_erase] at hlookup'
        split at hlookup'
        · cases hlookup'
        · next hne =>
          rw [hlife, if_neg fun heq => hne (h.distinct hlookup' hlookup heq.symm)]
          exact h.phase name' inst' hlookup'
      · intro n name' state hphase'
        rw [hlife] at hphase'
        split at hphase'
        · cases hphase'
        · next hne =>
          obtain ⟨inst', hlookup', hserial⟩ := h.kept n name' state hphase'
          have hname : name' ≠ name := by
            rintro rfl
            exact hne (h.serial_eq hphase' hlookup).1
          refine ⟨inst', ?_, hserial⟩
          rw [Assoc.lookup_erase, if_neg hname, hlookup']
      · intro n hn
        have hlt := h.serial_lt hlookup
        have hn' : s.registered ≤ n := hn
        rw [hlife, if_neg (by omega)]
        exact h.fresh n hn'

theorem resolveId (h : Consistent s log) (id : String) (order : Order) :
    s.resolveId id order = id ∨ Free log id := by
  unfold ApplicationManager.resolveId
  split
  · exact Or.inl rfl
  · next hnew => exact Or.inr (h.free (AList.lookup_eq_none.mpr hnew))

theorem mem_running_iff (h : Consistent s log) (order : Order) (a : String × Nat) :
    a ∈ s.running order ↔ phaseOf log a.2 = .inTable a.1 .running := by
  unfold ApplicationManager.running ApplicationManager.inOrder
  simp only [List.mem_map, List.mem_filter, List.mem_insertionSort, decide_eq_true_eq]
  constructor
  · rintro ⟨e, ⟨he, hrunning⟩, rfl⟩
    rw [h.phase e.1 e.2 (Assoc.lookup_of_mem_entries he), hrunning]
  · intro hphase
    obtain ⟨inst, hlookup, hserial⟩ := h.kept a.2 a.1 _ hphase
    have hstate := h.phase a.1 inst hlookup
    rw [hserial, hphase] at hstate
    refine ⟨⟨a.1, inst⟩, ⟨Assoc.mem_entries_of_lookup hlookup, ?_⟩, Prod.ext rfl hserial⟩
    exact (Phase.inTable.inj hstate).2.symm

theorem inspect (h : Consistent s log) (name : String) :
    LogEntry.Sound log (.served caller (.inspect name) (s.inspect name)) := by
  unfold ApplicationManager.inspect
  cases hlookup : s.applications.lookup name with
  | none => exact h.free hlookup
  | some inst =>
      dsimp only
      split <;> trivial

end Consistent

/-! ## What a life can become -/

/-- `p` may become `q`: a life goes forward, and under one name. -/
def Phase.Leads (p q : Phase) : Prop :=
  p.rank ≤ q.rank ∧ ∀ name state, p = .inTable name state →
    q = .removed ∨ ∃ state', q = .inTable name state'

namespace Phase.Leads

theorem refl (p : Phase) : p.Leads p :=
  ⟨le_rfl, fun _ state h => Or.inr ⟨state, h⟩⟩

theorem trans {p q r : Phase} (h : p.Leads q) (h' : q.Leads r) : p.Leads r := by
  refine ⟨h.1.trans h'.1, fun name state hp => ?_⟩
  rcases h.2 name state hp with rfl | ⟨state', rfl⟩
  · cases r with
    | absent => exact absurd h'.1 (by simp [rank])
    | inTable other state' => cases state' <;> exact absurd h'.1 (by simp [rank])
    | removed => exact Or.inl rfl
  · exact h'.2 name state' rfl

theorem of_absent (q : Phase) : Phase.absent.Leads q :=
  ⟨Nat.zero_le _, fun _ _ h => by cases h⟩

theorem inTable {name : String} {state state' : ApplicationState}
    (h : (Phase.inTable name state).rank ≤ (Phase.inTable name state').rank) :
    (Phase.inTable name state).Leads (.inTable name state') :=
  ⟨h, fun _ _ heq => Or.inr ⟨state', by rw [(Phase.inTable.inj heq).1]⟩⟩

theorem to_removed (name : String) (state : ApplicationState) :
    (Phase.inTable name state).Leads .removed := by
  refine ⟨?_, fun _ _ _ => Or.inl rfl⟩
  cases state <;> simp [rank]

theorem of_removed {q : Phase} (h : Phase.removed.Leads q) : q = .removed := by
  have hrank : 6 ≤ q.rank := h.1
  cases q with
  | absent => simp [rank] at hrank
  | inTable name state => cases state <;> simp [rank] at hrank
  | removed => rfl

theorem settled {name : String} {q : Phase} (h : (Phase.inTable name .running).Leads q)
    (hstopped : q ≠ .inTable name .running) : q.Settled := by
  have hrank : 3 ≤ q.rank := h.1
  show 4 ≤ q.rank
  rcases h.2 name .running rfl with rfl | ⟨state, rfl⟩
  · simp [rank]
  · cases state with
    | running => exact absurd rfl hstopped
    | created => simp [rank] at hrank
    | starting => simp [rank] at hrank
    | stopping => simp [rank]
    | stopped => simp [rank]
    | failed => simp [rank]

end Phase.Leads

section Life

variable {log known : List LogEntry}

theorem removed_sound {name : String} {n : Nat}
    {caller : Nat} (h : LogEntry.Sound log (.served caller (.remove name) (.removed n))) :
    ∃ state : ApplicationState, state ≠ .running ∧ phaseOf log n = .inTable name state := h

theorem lifeStep_leads {e : LogEntry} (h : LogEntry.Sound log e) (n : Nat) :
    (phaseOf log n).Leads (phaseOf (log ++ [e]) n) := by
  rw [phaseOf_concat]
  unfold lifeStep
  split
  · next app tenantId k =>
    split
    · next hk =>
      have habsent : phaseOf log k = .absent := h.1
      rw [← hk, habsent]
      exact Phase.Leads.of_absent _
    · exact Phase.Leads.refl _
  · next name outcome k =>
    split
    · next hk =>
      have hcreated : phaseOf log k = .inTable name .created := h
      rw [← hk, hcreated]
      exact Phase.Leads.inTable (by simp [Phase.rank])
    · exact Phase.Leads.refl _
  · next name _ k outcome =>
    split
    · next hk =>
      have hcreated : phaseOf log k = .inTable name .created := h
      rw [← hk, hcreated]
      cases outcome <;>
        exact Phase.Leads.inTable (by simp [Phase.rank, ApplicationManager.afterStart])
    · exact Phase.Leads.refl _
  · next name _ k outcome =>
    split
    · next hk =>
      have hrunning : phaseOf log k = .inTable name .running := h
      rw [← hk, hrunning]
      cases outcome <;>
        exact Phase.Leads.inTable (by simp [Phase.rank, ApplicationManager.afterStop])
    · exact Phase.Leads.refl _
  · next name k =>
    split
    · next hk =>
      obtain ⟨state, -, hphase⟩ := removed_sound h
      rw [← hk, hphase]
      exact Phase.Leads.to_removed name state
    · exact Phase.Leads.refl _
  · exact Phase.Leads.refl _

theorem leads_along (hlog : known <+: log) (h : EachAfter LogEntry.Sound log) (n : Nat) :
    (phaseOf known n).Leads (phaseOf log n) := by
  obtain ⟨rest, rfl⟩ := hlog
  induction rest using List.reverseRecOn with
  | nil =>
      rw [List.append_nil]
      exact Phase.Leads.refl _
  | append_singleton rest e ih =>
      rw [← List.append_assoc] at h ⊢
      obtain ⟨hbefore, he⟩ := eachAfter_concat.mp h
      exact (ih hbefore).trans (lifeStep_leads he n)

end Life

/-! ## The turns of a life -/

inductive Turn
  | registered
  | started
  | stopped
  | removed
  deriving DecidableEq

/-- How far a life has gone after the turn. -/
def Turn.rank : Turn → Nat
  | registered => 1
  | started => 2
  | stopped => 4
  | removed => 6

/-- The turn that an entry is, and of which registration.  A start without a node context is one. -/
def LogEntry.turn : LogEntry → Option (Turn × Nat)
  | .served _ (.insert _ _) (some n) => some (.registered, n)
  | .served _ (.start _ _) (.noContext n) => some (.started, n)
  | .served _ (.start _ _) (.ran n _) => some (.started, n)
  | .served _ (.stop _ _) (.ran n _) => some (.stopped, n)
  | .served _ (.remove _) (.removed n) => some (.removed, n)
  | _ => none

theorem turn_crosses {log : List LogEntry} {e : LogEntry} (h : LogEntry.Sound log e) {turn : Turn}
    {n : Nat} (hturn : LogEntry.turn e = some (turn, n)) :
    (phaseOf log n).rank < turn.rank ∧ turn.rank ≤ (phaseOf (log ++ [e]) n).rank := by
  rw [phaseOf_concat]
  unfold LogEntry.turn at hturn
  split at hturn
  · cases hturn
    have habsent : phaseOf log n = .absent := h.1
    simp [habsent, lifeStep, Phase.rank, Turn.rank]
  · next name outcome k =>
    cases hturn
    have hcreated : phaseOf log n = .inTable name .created := h
    simp [hcreated, lifeStep, Phase.rank, Turn.rank]
  · next name outcome' k outcome =>
    cases hturn
    have hcreated : phaseOf log n = .inTable name .created := h
    cases outcome <;>
      simp [hcreated, lifeStep, Phase.rank, Turn.rank, ApplicationManager.afterStart]
  · next name outcome' k outcome =>
    cases hturn
    have hrunning : phaseOf log n = .inTable name .running := h
    cases outcome <;>
      simp [hrunning, lifeStep, Phase.rank, Turn.rank, ApplicationManager.afterStop]
  · next name k =>
    cases hturn
    obtain ⟨state, -, hphase⟩ := removed_sound h
    cases state <;> simp [hphase, lifeStep, Phase.rank, Turn.rank]
  · cases hturn

theorem turns_nodup {log : List LogEntry} (h : EachAfter LogEntry.Sound log) :
    (log.filterMap LogEntry.turn).Nodup := by
  rw [List.nodup_iff_count_le_one]
  rintro ⟨turn, n⟩
  rw [List.count_filterMap]
  apply EachAfter.countP_le_one (m := fun log => (phaseOf log n).rank) (b := turn.rank) ?_ ?_ h
  · exact fun log e he => (lifeStep_leads he n).1
  · exact fun log e he hturn => turn_crosses he (by simpa using hturn)

/-! ## Sections in a method -/

/-- A cleanup is only for what has been removed. -/
def Request.Justified (log : List LogEntry) : Request → Prop
  | .cleanup n _ => phaseOf log n = .removed
  | _ => True

theorem Consistent.serve {s : ApplicationManager} {log : List LogEntry} (h : Consistent s log)
    (caller : Nat) {request : Request} (hjustified : request.Justified log) :
    Consistent (ApplicationManager.serve request s).2
      (log ++ [.served caller request (ApplicationManager.serve request s).1]) := by
  cases request with
  | setNodeContext hasRegistry => exact h.unchanged rfl rfl (fun _ _ => rfl) trivial
  | ensureNodeContext hasRegistry => exact h.unchanged rfl rfl (fun _ _ => rfl) trivial
  | nodeContext => exact h.unchanged rfl rfl (fun _ _ => rfl) trivial
  | resolveId id order => exact h.unchanged rfl rfl (fun _ _ => rfl) (h.resolveId id order)
  | containsKey name => exact h.unchanged rfl rfl (fun _ _ => rfl) trivial
  | insert app tenantId => exact h.insert app tenantId
  | start name outcome => exact h.start name outcome
  | requestShutdown => exact h.unchanged rfl rfl (fun _ _ => rfl) trivial
  | running order => exact h.unchanged rfl rfl (fun _ _ => rfl) (h.mem_running_iff order)
  | stop name outcome => exact h.stop name outcome
  | inspect name => exact h.unchanged rfl rfl (fun _ _ => rfl) (h.inspect name)
  | remove name => exact h.remove name
  | cleanup serial outcome => exact h.unchanged rfl rfl (fun _ _ => rfl) hjustified

abbrev Keeps {α : Type} (caller : Nat) (post : α → List LogEntry → Prop)
    (p : Interaction Reply α) (known : List LogEntry) : Prop :=
  Interaction.Keeps ApplicationManager.serve Consistent (fun _ _ _ => True) caller post p known

/-- What is known after a section: its entry, at the end of a log that some table agrees with. -/
def Logged (known : List LogEntry) (e : LogEntry) (log : List LogEntry) : Prop :=
  ∃ before s, known <+: before ∧ Consistent s before ∧ log = before ++ [e] ∧
    LogEntry.Sound before e

section Logged

variable {known log : List LogEntry} {e : LogEntry}

theorem Logged.prefix (h : Logged known e log) : known <+: log := by
  obtain ⟨before, s, hknown, -, rfl, -⟩ := h
  exact hknown.trans (List.prefix_append _ _)

theorem Logged.sound (h : Logged known e log) : EachAfter LogEntry.Sound log := by
  obtain ⟨before, s, -, hconsistent, rfl, he⟩ := h
  exact hconsistent.sound.concat he

theorem Logged.mem (h : Logged known e log) : e ∈ log := by
  obtain ⟨before, s, -, -, rfl, -⟩ := h
  exact List.mem_append_right _ (List.mem_singleton_self e)

end Logged

variable {caller : Nat}

theorem keeps_ask_bind {β : Type} {request : Request} {f : Reply request → Method β}
    {post : Except Interrupt β → List LogEntry → Prop} {known : List LogEntry}
    (hjustified : ∀ log, known <+: log → EachAfter LogEntry.Sound log → request.Justified log)
    (hok : ∀ reply log, Logged known (.served caller request reply) log →
      Keeps caller post (f reply).run log) :
    Keeps caller post (ask request >>= f).run known := by
  intro s log hknown h _
  have hserved := h.serve caller (hjustified log hknown h.sound)
  refine ⟨hserved, hok _ _ ⟨log, s, hknown, h, rfl, ?_⟩⟩
  exact (eachAfter_concat.mp hserved.sound).2

theorem keeps_ask (request : Request) (known : List LogEntry)
    (hjustified : ∀ log, request.Justified log) :
    Keeps caller (fun _ _ => True) (ask request).run known :=
  fun _ log _ h _ => ⟨h.serve caller (hjustified log), trivial⟩

/-! ## The methods -/

theorem keeps_register (app : Application) (tenantId : String) (registry : Option String)
    (known : List LogEntry) :
    Keeps caller (fun _ _ => True) (register app tenantId registry).run known := by
  unfold register
  refine keeps_ask_bind (fun _ _ _ => trivial) fun present log _ => ?_
  cases present with
  | true => trivial
  | false =>
      refine keeps_ask_bind (fun _ _ _ => trivial) fun context log _ => ?_
      split
      · trivial
      · refine keeps_ask_bind (fun _ _ _ => trivial) fun inserted log _ => ?_
        cases inserted <;> trivial

theorem keeps_start (id : String) (order : Order) (outcome : StartOutcome) (known : List LogEntry) :
    Keeps caller (fun _ _ => True) (start id order outcome).run known := by
  unfold start
  refine keeps_ask_bind (fun _ _ _ => trivial) fun name log _ => ?_
  refine keeps_ask_bind (fun _ _ _ => trivial) fun reply log _ => ?_
  split <;> trivial

theorem keeps_stop (id : String) (order : Order) (timeout : Nat) (outcome : StopOutcome)
    (known : List LogEntry) :
    Keeps caller (fun _ _ => True) (stop id order timeout outcome).run known := by
  unfold stop
  refine keeps_ask_bind (fun _ _ _ => trivial) fun name log _ => ?_
  refine keeps_ask_bind (fun _ _ _ => trivial) fun reply log _ => ?_
  split <;> trivial

theorem keeps_unregister (id : String) (order : Order) (registry : Option String)
    (cleanup : Except ApplicationError Unit) (known : List LogEntry) :
    Keeps caller (fun _ _ => True) (unregister id order registry cleanup).run known := by
  unfold unregister
  refine keeps_ask_bind (fun _ _ _ => trivial) fun name log _ => ?_
  refine keeps_ask_bind (fun _ _ _ => trivial) fun inspected log _ => ?_
  cases inspected with
  | notFound => trivial
  | running => trivial
  | idle moduleHash =>
      refine keeps_ask_bind (fun _ _ _ => trivial) fun context log _ => ?_
      split
      · trivial
      · refine keeps_ask_bind (fun _ _ _ => trivial) fun reply log hremoved => ?_
        cases reply with
        | notFound => trivial
        | running => trivial
        | removed serial =>
            refine keeps_ask_bind (fun log' hlog' hsound => ?_) fun result log _ => ?_
            · -- no other call brings the registration back
              have hphase : phaseOf log serial = .removed := by
                obtain ⟨before, s, -, -, rfl, -⟩ := hremoved
                rw [phaseOf_concat]
                exact if_pos rfl
              have hleads := leads_along hlog' hsound serial
              rw [hphase] at hleads
              exact hleads.of_removed
            · cases result <;> trivial

/-- What was running under `name`, whatever happened since, is settled after `stop`. -/
theorem keeps_stop_running {name : String} {n : Nat} (order : Order) (timeout : Nat)
    (outcome : StopOutcome) {known : List LogEntry}
    (hran : (Phase.inTable name .running).Leads (phaseOf known n)) :
    Keeps caller
      (fun _ log => known <+: log ∧ EachAfter LogEntry.Sound log ∧ (phaseOf log n).Settled)
      (stop name order timeout outcome).run known := by
  unfold stop
  refine keeps_ask_bind (fun _ _ _ => trivial) fun (key : String) log hresolved => ?_
  refine keeps_ask_bind (fun _ _ _ => trivial) fun reply log' hstopped => ?_
  have hsound := hstopped.sound
  have hknown : known <+: log' := hresolved.prefix.trans hstopped.prefix
  suffices hsettled : (phaseOf log' n).Settled by
    split <;> exact ⟨hknown, hsound, hsettled⟩
  -- it is enough that it does not run at some moment in between
  have hlater {between : List LogEntry} (hbetween : between <+: log') (hfrom : known <+: between)
      (hstopped : phaseOf between n ≠ .inTable name .running) : (phaseOf log' n).Settled := by
    obtain ⟨rest, hrest⟩ := hbetween
    have hinitial : EachAfter LogEntry.Sound between := EachAfter.initial (hrest ▸ hsound)
    have hsettled := (hran.trans (leads_along hfrom hinitial n)).settled hstopped
    exact hsettled.trans (leads_along ⟨rest, hrest⟩ hsound n).1
  obtain ⟨before, s, hbefore, -, rfl, hkey⟩ := hresolved
  obtain ⟨before', s', hbefore', hconsistent', rfl, hreply⟩ := hstopped
  have hfrom : known <+: before' := (hbefore.trans (List.prefix_append _ _)).trans hbefore'
  have hto := List.prefix_append before' [Event.served caller (.stop key outcome) reply]
  rcases hkey with rfl | hfree
  · cases reply with
    | notFound => exact hlater hto hfrom (hreply n .running)
    | notRunning => exact hlater hto hfrom (hreply n)
    | ran k o =>
        by_cases hphase : phaseOf before' n = .inTable key .running
        · obtain rfl := hconsistent'.number_eq hphase hreply
          exact (turn_crosses hreply rfl).2
        · exact hlater hto hfrom hphase
  · exact hlater ((List.prefix_append _ _).trans (hbefore'.trans hto)) hbefore (hfree n .running)

/-- After the loop all that was running before it is settled. -/
theorem keeps_stopEach (orders : String → Order) (timeout : Nat)
    (outcome : String → StopOutcome)
    {seen : List (String × Nat)} {known : List LogEntry} (hsound : EachAfter LogEntry.Sound known)
    (hran : ∀ a ∈ seen, (Phase.inTable a.1 .running).Leads (phaseOf known a.2)) :
    Keeps caller (fun result log => known <+: log ∧ EachAfter LogEntry.Sound log ∧
        ∀ errors, result = .ok errors → ∀ a ∈ seen, (phaseOf log a.2).Settled)
      (stopEach orders timeout outcome seen).run known := by
  induction seen generalizing known with
  | nil => exact ⟨List.prefix_refl _, hsound, fun _ _ a ha => absurd ha List.not_mem_nil⟩
  | cons a rest ih =>
      obtain ⟨name, n⟩ := a
      unfold stopEach
      refine (?first : Keeps caller (fun _ log => known <+: log ∧ EachAfter LogEntry.Sound log ∧
        (phaseOf log n).Settled) _ known).bindExcept ?_ ?_
      case first =>
        -- whether the error is kept or the call is dropped, the application is settled
        refine (keeps_stop_running (orders name) timeout (outcome name)
          (hran _ List.mem_cons_self)).bind ?_
        intro result log hlog
        split <;> exact hlog
      · intro errors log ⟨hknown, hlog, hsettled⟩
        have hrest : ∀ b ∈ rest, (Phase.inTable b.1 .running).Leads (phaseOf log b.2) :=
          fun b hb => (hran b (List.mem_cons_of_mem _ hb)).trans (leads_along hknown hlog b.2)
        refine (ih hlog hrest).bindExcept ?_ ?_
        · intro others log' ⟨hlater, hlog', hothers⟩
          refine ⟨hknown.trans hlater, hlog', fun _ _ b hb => ?_⟩
          rcases List.mem_cons.mp hb with rfl | hb
          · exact hsettled.trans (leads_along hlater hlog' n).1
          · exact hothers others rfl b hb
        · intro e log' ⟨hlater, hlog', _⟩
          exact ⟨hknown.trans hlater, hlog', fun _ h => by cases h⟩
      · intro e log ⟨hknown, hlog, _⟩
        exact ⟨hknown, hlog, fun _ h => by cases h⟩

theorem keeps_stopAll (order : Order) (orders : String → Order) (timeout : Nat)
    (outcome : String → StopOutcome) (known : List LogEntry) :
    Keeps caller (fun result log => ∀ seen answer, result = .ok (seen, answer) →
        (∃ order, .served caller (.running order) seen ∈ log) ∧
          ∀ a ∈ seen, (phaseOf log a.2).Settled)
      (stopAll order orders timeout outcome).run known := by
  unfold stopAll
  refine keeps_ask_bind (fun _ _ _ => trivial) fun _ log _ => ?_
  refine keeps_ask_bind (fun _ _ _ => trivial) fun seen log' hseen => ?_
  have hran : ∀ a ∈ seen.reverse, (Phase.inTable a.1 .running).Leads (phaseOf log' a.2) := by
    obtain ⟨before, s, -, -, rfl, hsnapshot⟩ := hseen
    intro a ha
    have hphase : phaseOf before a.2 = .inTable a.1 .running :=
      (hsnapshot a).mp (List.mem_reverse.mp ha)
    rw [phaseOf_concat, hphase]
    exact Phase.Leads.refl _
  refine (keeps_stopEach orders timeout outcome hseen.sound hran).bindExcept ?_ ?_
  · intro errors log'' ⟨hlater, _, hsettled⟩
    have hdone : (∃ order, .served caller (.running order) seen ∈ log'') ∧
        ∀ a ∈ seen, (phaseOf log'' a.2).Settled :=
      ⟨⟨order, hlater.subset hseen.mem⟩, fun a ha =>
        hsettled errors rfl a (List.mem_reverse.mpr ha)⟩
    split <;> exact fun _ _ h => by cases h; exact hdone
  · exact fun _ _ _ _ _ h => by cases h

/-- What a call returns is sound after the log that it returns to. -/
theorem keeps_program (caller : Nat) (call : Call) (known : List LogEntry) :
    Keeps caller (fun returned log => LogEntry.Sound log (.returned caller returned))
      (program call) known := by
  cases call with
  | setNodeContext hasRegistry =>
      exact (keeps_ask (.setNodeContext hasRegistry) known fun _ => trivial).bind
        fun _ _ _ => trivial
  | ensureNodeContext hasRegistry =>
      exact (keeps_ask (.ensureNodeContext hasRegistry) known fun _ => trivial).bind
        fun _ _ _ => trivial
  | register app tenantId registry =>
      exact (keeps_register app tenantId registry known).bind fun _ _ _ => trivial
  | start id order outcome =>
      exact (keeps_start id order outcome known).bind fun _ _ _ => trivial
  | stop id order timeout outcome =>
      exact (keeps_stop id order timeout outcome known).bind fun _ _ _ => trivial
  | stopAll order orders timeout outcome =>
      refine (keeps_stopAll order orders timeout outcome known).bind fun result log h => ?_
      cases result with
      | ok value => exact h value.1 value.2 rfl
      | error e => trivial
  | unregister id order registry cleanup =>
      exact (keeps_unregister id order registry cleanup known).bind fun _ _ _ => trivial

theorem Consistent.returned (caller : Nat) (s : ApplicationManager) (log : List LogEntry)
    (value : Returned) (h : Consistent s log)
    (hsound : LogEntry.Sound log (.returned caller value)) :
    Consistent s (log ++ [.returned caller value]) :=
  h.unchanged rfl rfl (fun _ _ => rfl) hsound

theorem after_consistent (moves : List (Move Call)) :
    Consistent (after moves).server (after moves).log := by
  exact Pool.run_keeps Consistent.returned keeps_program (Pool.safe_start new_consistent)
    (Pool.meets_along _ moves)

/-- Every registration has each turn of its life once, in its order and under its name: a name is
registered when nothing else has it, what is started was created, what is stopped ran, and what is
removed does not run.  The table shows how far each has come. -/
theorem one_life (moves : List (Move Call)) :
    EachAfter LogEntry.Sound (after moves).log ∧
      ((after moves).log.filterMap LogEntry.turn).Nodup ∧
      ∀ name n state, phaseOf (after moves).log n = .inTable name state ↔
        ∃ inst, (after moves).server.applications.lookup name = some inst ∧ inst.serial = n ∧
          inst.state = state := by
  have h := after_consistent moves
  refine ⟨h.sound, turns_nodup h.sound, fun name n state => ⟨fun hphase => ?_, ?_⟩⟩
  · obtain ⟨inst, hlookup, hserial⟩ := h.kept n name state hphase
    exact ⟨inst, hlookup, h.serial_eq hphase hlookup⟩
  · rintro ⟨inst, hlookup, rfl, rfl⟩
    exact h.phase name inst hlookup

/-- When `stop_all` returns, it has seen all that ran at one moment of the call, and of that nothing
runs or starts any more, whatever the other calls did and do. -/
theorem stopAll_settles (moves later : List (Move Call)) (caller : Nat)
    (seen : List (String × Nat)) (answer : Except ApplicationError Unit)
    (hreturned : .returned caller (.stoppedAll (.ok (seen, answer))) ∈ (after moves).log) :
    (∃ before order between rest,
        (after moves).log = before ++ .served caller (.running order) seen ::
          (between ++ .returned caller (.stoppedAll (.ok (seen, answer))) :: rest) ∧
        ∀ a, a ∈ seen ↔ phaseOf before a.2 = .inTable a.1 .running) ∧
      ∀ a ∈ seen, ∀ name inst,
        (after (moves ++ later)).server.applications.lookup name = some inst → inst.serial = a.2 →
          inst.state = .stopping ∨ inst.state = .stopped ∨ inst.state = .failed := by
  have h := after_consistent moves
  obtain ⟨before, rest, hlog⟩ := List.append_of_mem hreturned
  obtain ⟨⟨order, hsnapshot⟩, hsettled⟩ := h.sound before _ rest hlog
  have hbefore : before <+: (after (moves ++ later)).log := by
    have hmoves : (after moves).log <+: (after (moves ++ later)).log := by
      unfold after
      rw [run_append]
      exact Pool.log_prefix_run _ later
    exact List.IsPrefix.trans ⟨_, hlog.symm⟩ hmoves
  obtain ⟨before', between, rfl⟩ := List.append_of_mem hsnapshot
  rw [List.append_assoc, List.cons_append] at hlog
  refine ⟨⟨before', order, between, rest, hlog, h.sound before' _ _ hlog⟩, ?_⟩
  intro a ha name inst hlookup hserial
  have hlater := after_consistent (moves ++ later)
  have hstill := (hsettled a ha).trans (leads_along hbefore hlater.sound a.2).1
  rw [← hserial, hlater.phase name inst hlookup] at hstill
  cases hstate : inst.state with
  | stopping => exact Or.inl rfl
  | stopped => exact Or.inr (Or.inl rfl)
  | failed => exact Or.inr (Or.inr rfl)
  | created => simp [hstate, Phase.rank] at hstill
  | starting => simp [hstate, Phase.rank] at hstill
  | running => simp [hstate, Phase.rank] at hstill

/-- Two applications are registered and started; while all are stopped, one call is between its
sections and another one starts a third. -/
def startThenStopAll : List (Move Call) :=
  let order : Order := String.length
  [.start (.setNodeContext false), .advance 0,
    .start (.register ⟨"a", none, none⟩ "" none), .advance 1, .advance 1, .advance 1,
    .start (.register ⟨"bb", none, none⟩ "" none), .advance 2, .advance 2, .advance 2,
    .start (.start "a" order .ok), .advance 3, .advance 3,
    .start (.start "bb" order .ok), .advance 4, .advance 4,
    .start (.stopAll order (fun _ => order) 5 fun _ => .ok), .advance 5, .advance 5,
    .start (.register ⟨"ccc", none, none⟩ "" none), .advance 6, .advance 6, .advance 6,
    .start (.start "ccc" order .ok), .advance 5, .advance 7, .advance 5, .advance 7, .advance 5,
    .advance 5]

theorem stopAll_settles_two :
    (∃ before order between rest,
        (after startThenStopAll).log = before ++ .served 5 (.running order) [("a", 0), ("bb", 1)] ::
          (between ++ .returned 5 (.stoppedAll (.ok ([("a", 0), ("bb", 1)], .ok ()))) :: rest) ∧
        ∀ a, a ∈ [("a", 0), ("bb", 1)] ↔ phaseOf before a.2 = .inTable a.1 .running) ∧
      ∀ a ∈ [("a", 0), ("bb", 1)], ∀ name inst,
        (after (startThenStopAll ++ [])).server.applications.lookup name = some inst →
          inst.serial = a.2 →
            inst.state = .stopping ∨ inst.state = .stopped ∨ inst.state = .failed :=
  stopAll_settles startThenStopAll [] 5 [("a", 0), ("bb", 1)] (.ok ())
    (List.mem_of_getElem? (i := 29) rfl)

end PlexSpaces.Applications
