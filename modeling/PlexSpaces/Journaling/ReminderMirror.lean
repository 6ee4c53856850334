import PlexSpaces.Journaling.Occurrences
/-!
# The memory of a reminder facet

A facet keeps the active reminders of its actor in memory, under their names.  The memory and
the table are changed in separate steps, and a loop also fires reminders of other actors and
puts them into the memory of its own facet.  What a facet will have in memory once its call and
its loop have done what they began (`settled`) is what the table holds, as long as facets and
loops keep to their own actors, nothing is unregistered that the loop is firing, and no reminder
is paused (`mirrors`).  A paused reminder stays inactive, since only active reminders are loaded.
-/

namespace PlexSpaces.Journaling

open PlexSpaces.Lib PlexSpaces.Actors

/-- The reminders of the batch that the loop will still store or remember. -/
def BackgroundTask.holding : BackgroundTask → List ReminderState
  | .firing ⟨_, r :: due, .stored⟩ => r :: due.filter ReminderState.sendable
  | task => task.pending

namespace ReminderFacet

def afterCall (x : ReminderFacet) : Assoc String ReminderState :=
  match x.call with
  | some (.attaching loaded) =>
      loaded.foldl (fun m r => if r.isActive then remember m r else m) x.reminders
  | some (.registering r) => remember x.reminders r
  | some (.unregistering reminderName) => x.reminders.erase reminderName
  | _ => x.reminders

/-- The memory after what the call and the loop of the facet have still to do. -/
def settled (x : ReminderFacet) : Assoc String ReminderState :=
  match x.backgroundTask with
  | .firing ⟨now, r :: _, .stored⟩ =>
      match r.next now with
      | none => x.afterCall.erase r.registration.reminderName
      | some r' => remember x.afterCall r'
  | _ => x.afterCall

/-- No call is going on and the loop does not fire. -/
def Idle (x : ReminderFacet) : Prop :=
  x.call = none ∧ ∀ b, x.backgroundTask ≠ .firing b

end ReminderFacet

namespace World

variable {F : Type} [DecidableEq F]

def active (t : Reminders) (actorId reminderName : String) : Option ReminderState :=
  (t.find (actorId, reminderName)).filter ReminderState.isActive

/-- A facet is attached once, and no two facets to the same actor. -/
def Attaches (w : World F) : F × FacetAction → Prop
  | (f, .attach actorId) => (w.facets f).call = none →
      (w.facets f).actorId = none ∧ ∀ f', (w.facets f').actorId ≠ some actorId
  | _ => True

/-- Facets and loops keep to their own actors, nothing is unregistered that the loop is firing,
and `on_exit` finds nothing to pause. -/
def Careful (w : World F) : F × FacetAction → Prop
  | (f, .attach actorId) => w.Attaches (f, .attach actorId)
  | (f, .register reg _) => (w.facets f).call = none →
      ∀ actorId, (w.facets f).actorId = some actorId → reg.actorId = actorId
  | (f, .unregister reminderName) => (w.facets f).call = none →
      ∀ r ∈ (w.facets f).backgroundTask.holding, r.registration.reminderName ≠ reminderName
  | (f, .exit) => (w.facets f).call = none →
      ∀ r ∈ (w.facets f).reminders.values, r.isActive = false
  | (f, .loop (.query now)) => (w.facets f).backgroundTask = .sleeping →
      ∀ r ∈ w.storage.queryDueReminders now, r.sendable = true →
        (w.facets f).actorId = some r.registration.actorId
  | _ => True

/-- An idle facet has the active reminders of its actor in memory. -/
def Mirrors (w : World F) : Prop :=
  ∀ f actorId, (w.facets f).actorId = some actorId → (w.facets f).Idle →
    ∀ reminderName, (w.facets f).reminders.lookup reminderName =
      active w.storage actorId reminderName

/-- When a facet is attached, the stored reminders of the actor that were paused are active. -/
def Resumes (w : World F) (a : F × FacetAction) : Prop :=
  ∀ actorId loaded, a.2 = .proceed → (w.facets a.1).call = some (.attaching loaded) →
    (w.facets a.1).actorId = some actorId → ∀ reminderName, (actorId, reminderName) ∈ w.paused →
      ∀ r, (w.step a).storage.find (actorId, reminderName) = some r → r.isActive = true

/-- A facet that is attached to an actor, over the table. -/
structure Synced (x : ReminderFacet) (t : Reminders) (actorId : String) : Prop where
  settled : ∀ reminderName, x.settled.lookup reminderName = active t actorId reminderName
  active : ∀ reminderName r, x.reminders.lookup reminderName = some r → r.isActive = true
  pending : ∀ r ∈ x.backgroundTask.pending, r.registration.actorId = actorId ∧
    t.find r.key = some r ∧ r.isActive = true
  nodup : (x.backgroundTask.holding.map ReminderState.key).Nodup
  known : ∀ r ∈ x.backgroundTask.holding, r.registration.actorId = actorId ∧
    (x.afterCall.lookup r.registration.reminderName).isSome
  attaching : ∀ loaded, x.call = some (.attaching loaded) →
    x.backgroundTask = .stopped ∧ ∀ r ∈ loaded, r.isActive = true
  registering : ∀ r, x.call = some (.registering r) → r.isActive = true
  exiting : ∀ reminderNames, x.call = some (.exiting reminderNames) → reminderNames = []
  detaching : ∀ toSave, x.call = some (.detaching toSave) →
    x.backgroundTask = .stopped ∧
      ∀ r ∈ toSave, r.registration.actorId = actorId ∧ t.find r.key = some r

/-- A facet that is not attached has nothing in memory and no loop. -/
structure Blank (x : ReminderFacet) : Prop where
  reminders : x.reminders = ∅
  backgroundTask : x.backgroundTask = .stopped
  call : x.call = none ∨ x.call = some (.exiting []) ∨ x.call = some (.detaching [])

/-- Every facet is synced with the rows of its actor, and no two have the same actor. -/
structure Settled (w : World F) : Prop where
  attached : ∀ f actorId, (w.facets f).actorId = some actorId →
    Synced (w.facets f) w.storage actorId
  detached : ∀ f, (w.facets f).actorId = none → Blank (w.facets f)
  distinct : ∀ f f' actorId, (w.facets f).actorId = some actorId →
    (w.facets f').actorId = some actorId → f = f'
  paused : w.paused = []

section Lookup

variable {x : ReminderFacet} {t : Reminders} {actorId : String}

theorem lookup_remember (m : Assoc String ReminderState) (r : ReminderState)
    (reminderName : String) : (ReminderFacet.remember m r).lookup reminderName =
      if reminderName = r.registration.reminderName then some r else m.lookup reminderName :=
  Assoc.lookup_insert m _ _ _

/-- What the loop remembers of the reminder that it has stored. -/
theorem lookup_settled_stored {now : Nat} {r : ReminderState} {due : List ReminderState}
    (htask : x.backgroundTask = .firing ⟨now, r :: due, .stored⟩) (reminderName : String) :
    x.settled.lookup reminderName =
      if reminderName = r.registration.reminderName then r.next now
      else x.afterCall.lookup reminderName := by
  unfold ReminderFacet.settled
  rw [htask]
  dsimp only
  rcases hnext : r.next now with _ | r'
  · exact Assoc.lookup_erase _ _ _
  · have hname : r'.registration.reminderName = r.registration.reminderName :=
      congrArg Prod.snd (key_of_next hnext)
    dsimp only
    rw [lookup_remember, hname]

theorem settled_eq_afterCall
    (htask : ∀ now r due, x.backgroundTask ≠ .firing ⟨now, r :: due, .stored⟩) :
    x.settled = x.afterCall := by
  unfold ReminderFacet.settled
  split
  · rename_i now r due hstored
    exact absurd hstored (htask now r due)
  · rfl

theorem active_congr {t' : Reminders} {reminderName : String}
    (h : t'.find (actorId, reminderName) = t.find (actorId, reminderName)) :
    active t' actorId reminderName = active t actorId reminderName := by
  rw [active, active, h]

theorem key_eq {r : ReminderState} (h : r.registration.actorId = actorId) :
    r.key = (actorId, r.registration.reminderName) := by rw [ReminderState.key, h]

/-- What is synced depends on the rows of the actor alone. -/
theorem Synced.congr (h : Synced x t actorId) {t' : Reminders}
    (hfind : ∀ reminderName, t'.find (actorId, reminderName) = t.find (actorId, reminderName)) :
    Synced x t' actorId where
  settled reminderName := (h.settled reminderName).trans (active_congr (hfind reminderName)).symm
  active := h.active
  pending := by
    intro r hr
    obtain ⟨hactor, hstored, hactive⟩ := h.pending r hr
    refine ⟨hactor, ?_, hactive⟩
    rw [key_eq hactor] at hstored ⊢
    rw [hfind, hstored]
  nodup := h.nodup
  known := h.known
  attaching := h.attaching
  registering := h.registering
  exiting := h.exiting
  detaching := by
    intro toSave hcall
    obtain ⟨hstopped, hsave⟩ := h.detaching toSave hcall
    refine ⟨hstopped, ?_⟩
    intro r hr
    obtain ⟨hactor, hstored⟩ := hsave r hr
    refine ⟨hactor, ?_⟩
    rw [key_eq hactor] at hstored ⊢
    rw [hfind, hstored]

def NotStored (task : BackgroundTask) : Prop :=
  ∀ now r due, task ≠ .firing ⟨now, r :: due, .stored⟩

theorem holding_eq_pending {task : BackgroundTask} (h : NotStored task) :
    task.holding = task.pending := by
  unfold BackgroundTask.holding
  split
  · exact absurd rfl (h _ _ _)
  · rfl

theorem notStored_resume (now : Nat) (due : List ReminderState) :
    NotStored (.resume now due) := by
  intro now' r due' heq
  exact FiringPhase.noConfusion (congrArg Firing.phase (resume_eq_firing heq))

theorem sublist_holding (task : BackgroundTask) :
    List.Sublist task.pending task.holding := by
  unfold BackgroundTask.holding
  split
  · exact List.sublist_cons_self _ _
  · exact List.Sublist.refl _

/-- While the loop runs, no call attaches or detaches the facet. -/
theorem Synced.call_of_running (h : Synced x t actorId) (hrun : x.backgroundTask ≠ .stopped) :
    (∀ loaded, x.call ≠ some (.attaching loaded)) ∧
      ∀ toSave, x.call ≠ some (.detaching toSave) :=
  ⟨fun loaded hcall => hrun (h.attaching loaded hcall).1,
    fun toSave hcall => hrun (h.detaching toSave hcall).1⟩

/-- Where a loop may take the memory, no call is going on. -/
theorem Synced.call_eq_none (h : Synced x t actorId) (hrun : x.backgroundTask ≠ .stopped)
    (hlock : x.call.any FacetCall.locks = false) : x.call = none := by
  obtain ⟨hattaching, hdetaching⟩ := h.call_of_running hrun
  rcases hcall : x.call with _ | loaded | r | name | names | toSave
  · rfl
  · exact absurd hcall (hattaching loaded)
  · rw [hcall] at hlock
    cases hlock
  · rw [hcall] at hlock
    cases hlock
  · rw [hcall] at hlock
    cases hlock
  · exact absurd hcall (hdetaching toSave)

end Lookup

section Loop

variable {x : ReminderFacet} {t : Reminders} {actorId : String}

theorem Synced.setTask (h : Synced x t actorId) {task : BackgroundTask}
    (hrun : x.backgroundTask ≠ .stopped) (hold : NotStored x.backgroundTask)
    (hnew : NotStored task)
    (hpending : ∀ r ∈ task.pending, r.registration.actorId = actorId ∧
      t.find r.key = some r ∧ r.isActive = true)
    (hnodup : (task.pending.map ReminderState.key).Nodup) :
    Synced { x with backgroundTask := task } t actorId := by
  obtain ⟨hattaching, hdetaching⟩ := h.call_of_running hrun
  refine ⟨?_, h.active, hpending, ?_, ?_, ?_, h.registering, h.exiting, ?_⟩
  · intro reminderName
    rw [settled_eq_afterCall (x := { x with backgroundTask := task }) hnew, ← h.settled,
      settled_eq_afterCall hold]
    rfl
  · rw [holding_eq_pending hnew]
    exact hnodup
  · intro r hr
    rw [holding_eq_pending hnew] at hr
    obtain ⟨hactor, hstored, hactive⟩ := hpending r hr
    refine ⟨hactor, ?_⟩
    change (x.afterCall.lookup r.registration.reminderName).isSome
    rw [← settled_eq_afterCall hold, h.settled, World.active, ← key_eq hactor, hstored,
      Option.filter_some, if_pos hactive]
    rfl
  · intro loaded hcall
    exact absurd hcall (hattaching loaded)
  · intro toSave hcall
    exact absurd hcall (hdetaching toSave)

theorem Synced.query (h : Synced x t actorId) (htask : x.backgroundTask = .sleeping) {now : Nat}
    (hown : ∀ r ∈ t.queryDueReminders now, r.sendable = true → r.registration.actorId = actorId) :
    Synced { x with backgroundTask := .resume now (t.queryDueReminders now) } t actorId := by
  refine h.setTask ?_ ?_ (notStored_resume _ _) ?_ ?_
  · rw [htask]
    exact BackgroundTask.noConfusion
  · rw [htask]
    exact fun _ _ _ => BackgroundTask.noConfusion
  · intro r hr
    rw [pending_resume] at hr
    obtain ⟨hmem, hsendable⟩ := List.mem_filter.mp hr
    obtain ⟨hrow, hdue⟩ := mem_queryDueReminders.mp hmem
    exact ⟨hown r hmem hsendable, Table.find_of_mem hrow, (Bool.and_eq_true_iff.mp hdue).1⟩
  · rw [pending_resume]
    exact (List.filter_sublist.map _).nodup (nodup_queryDueReminders _ _)

/-- The loop turns to a step with the same reminders to store. -/
theorem Synced.turn (h : Synced x t actorId) {task task' : BackgroundTask}
    (htask : x.backgroundTask = task') (hrun : task' ≠ .stopped) (hold : NotStored task')
    (hnew : NotStored task) (hpending : task.pending = x.backgroundTask.pending) :
    Synced { x with backgroundTask := task } t actorId := by
  subst htask
  refine h.setTask hrun hold hnew ?_ ?_
  · rw [hpending]
    exact h.pending
  · rw [hpending]
    exact ((sublist_holding _).map _).nodup h.nodup

/-- The row that the loop stores is one of its actor. -/
theorem Synced.other_of_sent (h : Synced x t actorId) {now : Nat} {r : ReminderState}
    {due : List ReminderState} (htask : x.backgroundTask = .firing ⟨now, r :: due, .sent⟩)
    {t' : Reminders} (hother : ∀ key, key ≠ r.key → t'.find key = t.find key)
    (actorId' reminderName : String) (hne : actorId' ≠ actorId) :
    t'.find (actorId', reminderName) = t.find (actorId', reminderName) := by
  obtain ⟨hactor, -, -⟩ := h.pending r (by rw [htask]; exact List.mem_cons_self)
  refine hother _ ?_
  intro hkey
  rw [key_eq hactor] at hkey
  exact hne (congrArg Prod.fst hkey)

theorem Synced.store (h : Synced x t actorId) {now : Nat} {r : ReminderState}
    {due : List ReminderState} (htask : x.backgroundTask = .firing ⟨now, r :: due, .sent⟩)
    {t' : Reminders} (hother : ∀ key, key ≠ r.key → t'.find key = t.find key)
    (hself : t'.find r.key = r.next now) :
    Synced { x with backgroundTask := .firing ⟨now, r :: due, .stored⟩ } t' actorId := by
  have hrun : x.backgroundTask ≠ .stopped := by
    rw [htask]
    exact BackgroundTask.noConfusion
  have hold : NotStored x.backgroundTask := by
    rw [htask]
    intro now' r' due' heq
    cases heq
  obtain ⟨hattaching, hdetaching⟩ := h.call_of_running hrun
  have hpending : x.backgroundTask.pending = r :: due.filter ReminderState.sendable := by
    rw [htask]
    rfl
  have hnodup := h.nodup
  have hknown := h.known
  rw [holding_eq_pending hold, hpending] at hnodup hknown
  obtain ⟨hactor, -, hactive⟩ := h.pending r (hpending ▸ List.mem_cons_self)
  refine ⟨?_, h.active, ?_, hnodup, hknown, ?_, h.registering, h.exiting, ?_⟩
  · intro reminderName
    rw [lookup_settled_stored rfl]
    split_ifs with hname
    · subst hname
      rw [World.active, ← key_eq hactor, hself]
      rcases hnext : r.next now with _ | r'
      · rfl
      · have hactive' : r'.isActive = true := by
          rw [(next_eq hnext).1]
          exact hactive
        rw [Option.filter_some, if_pos hactive']
    · change x.afterCall.lookup reminderName = _
      rw [← settled_eq_afterCall hold, h.settled, active_congr]
      refine (hother _ ?_).symm
      intro hkey
      exact hname (congrArg Prod.snd hkey)
  · intro r' hr'
    obtain ⟨hactor', hstored', hactive'⟩ := h.pending r' (hpending ▸ List.mem_cons_of_mem _ hr')
    refine ⟨hactor', ?_, hactive'⟩
    rw [hother, hstored']
    intro hkey
    rw [List.map_cons, List.nodup_cons] at hnodup
    exact hnodup.1 (hkey ▸ List.mem_map_of_mem hr')
  · intro loaded hcall
    exact absurd hcall (hattaching loaded)
  · intro toSave hcall
    exact absurd hcall (hdetaching toSave)

/-- The loop remembers what it has stored and turns to the rest of its batch. -/
theorem Synced.remember (h : Synced x t actorId) (hcall : x.call = none) {now : Nat}
    {r : ReminderState} {due : List ReminderState} {reminders : Assoc String ReminderState}
    (htask : x.backgroundTask = .firing ⟨now, r :: due, .stored⟩)
    (hreminders : reminders = match r.next now with
      | none => x.reminders.erase r.registration.reminderName
      | some r' => ReminderFacet.remember x.reminders r') :
    Synced { x with reminders := reminders, backgroundTask := .resume now due } t actorId := by
  have hafter : x.afterCall = x.reminders := by rw [ReminderFacet.afterCall, hcall]
  have hafter' : ReminderFacet.afterCall
      { x with reminders := reminders, backgroundTask := .resume now due } = reminders := by
    rw [ReminderFacet.afterCall, hcall]
  have hlookup : ∀ reminderName, reminders.lookup reminderName =
      if reminderName = r.registration.reminderName then r.next now
      else x.reminders.lookup reminderName := by
    intro reminderName
    rw [← hafter, ← lookup_settled_stored htask, ReminderFacet.settled, htask, hafter, hreminders]
  have hholding : x.backgroundTask.holding = r :: due.filter ReminderState.sendable := by
    rw [htask]
    rfl
  have hnodup := h.nodup
  have hknown := h.known
  rw [hholding] at hnodup hknown
  rw [List.map_cons, List.nodup_cons] at hnodup
  have hactor := (hknown r List.mem_cons_self).1
  have hpending : (BackgroundTask.resume now due).pending = x.backgroundTask.pending := by
    rw [pending_resume, htask]
    rfl
  refine ⟨?_, ?_, ?_, ?_, ?_, ?_, ?_, ?_, ?_⟩
  · intro reminderName
    rw [settled_eq_afterCall (x := { x with
      reminders := reminders, backgroundTask := .resume now due }) (notStored_resume now due),
      hafter', hlookup, ← h.settled, lookup_settled_stored htask, hafter]
  · intro reminderName r' hr'
    change reminders.lookup reminderName = some r' at hr'
    rw [hlookup] at hr'
    split_ifs at hr' with hname
    · have hsettled := h.settled reminderName
      rw [lookup_settled_stored htask, if_pos hname, hr'] at hsettled
      exact (Option.filter_eq_some_iff.mp hsettled.symm).2
    · exact h.active reminderName r' hr'
  · rw [hpending]
    exact h.pending
  · rw [holding_eq_pending (notStored_resume now due), pending_resume]
    exact hnodup.2
  · intro r' hr'
    rw [holding_eq_pending (notStored_resume now due), pending_resume] at hr'
    obtain ⟨hactor', hsome⟩ := hknown r' (List.mem_cons_of_mem _ hr')
    refine ⟨hactor', ?_⟩
    rw [hafter', hlookup, if_neg, ← hafter]
    · exact hsome
    · intro hname
      refine hnodup.1 (List.mem_map.mpr ⟨r', hr', ?_⟩)
      rw [key_eq hactor', key_eq hactor, hname]
  all_goals
    intro _ hsome
    rw [hcall] at hsome
    cases hsome

end Loop

section Calls

variable {x : ReminderFacet} {t : Reminders} {actorId : String}

/-- A facet whose loop sleeps or has stopped is synced when its memory will be the table's. -/
theorem synced_of_resting {y : ReminderFacet}
    (htask : y.backgroundTask = .stopped ∨ y.backgroundTask = .sleeping)
    (hsettled : ∀ reminderName, y.afterCall.lookup reminderName = active t actorId reminderName)
    (hactive : ∀ reminderName r, y.reminders.lookup reminderName = some r → r.isActive = true)
    (hattaching : ∀ loaded, y.call = some (.attaching loaded) →
      y.backgroundTask = .stopped ∧ ∀ r ∈ loaded, r.isActive = true)
    (hregistering : ∀ r, y.call = some (.registering r) → r.isActive = true)
    (hexiting : ∀ reminderNames, y.call = some (.exiting reminderNames) → reminderNames = [])
    (hdetaching : ∀ toSave, y.call = some (.detaching toSave) → y.backgroundTask = .stopped ∧
      ∀ r ∈ toSave, r.registration.actorId = actorId ∧ t.find r.key = some r) :
    Synced y t actorId := by
  have hnot : NotStored y.backgroundTask := by
    rcases htask with htask | htask <;> rw [htask] <;> exact fun _ _ _ => BackgroundTask.noConfusion
  have hpending : y.backgroundTask.pending = [] := by
    rcases htask with htask | htask <;> rw [htask] <;> rfl
  have hholding := holding_eq_pending hnot
  rw [hpending] at hholding
  refine ⟨?_, hactive, ?_, ?_, ?_, hattaching, hregistering, hexiting, hdetaching⟩
  · rw [settled_eq_afterCall hnot]
    exact hsettled
  · rw [hpending]
    intro r hr
    cases hr
  · rw [hholding]
    exact List.nodup_nil
  · rw [hholding]
    intro r hr
    cases hr

/-- A call changes the memory and the table while the loop stays where it is. -/
theorem Synced.of_task_eq (h : Synced x t actorId) {y : ReminderFacet} {t' : Reminders}
    (htask : y.backgroundTask = x.backgroundTask)
    (hsettled : ∀ reminderName,
      y.settled.lookup reminderName = World.active t' actorId reminderName)
    (hactive : ∀ reminderName r, y.reminders.lookup reminderName = some r → r.isActive = true)
    (hstored : ∀ r ∈ x.backgroundTask.pending, t'.find r.key = some r)
    (hknown : ∀ r ∈ x.backgroundTask.holding,
      (y.afterCall.lookup r.registration.reminderName).isSome)
    (hattaching : ∀ loaded, y.call ≠ some (.attaching loaded))
    (hregistering : ∀ r, y.call = some (.registering r) → r.isActive = true)
    (hexiting : ∀ reminderNames, y.call = some (.exiting reminderNames) → reminderNames = [])
    (hdetaching : ∀ toSave, y.call ≠ some (.detaching toSave)) : Synced y t' actorId := by
  refine ⟨hsettled, hactive, ?_, ?_, ?_, ?_, hregistering, hexiting, ?_⟩
  · rw [htask]
    intro r hr
    obtain ⟨hactor, -, hact⟩ := h.pending r hr
    exact ⟨hactor, hstored r hr, hact⟩
  · rw [htask]
    exact h.nodup
  · rw [htask]
    intro r hr
    exact ⟨(h.known r hr).1, hknown r hr⟩
  · intro loaded hcall
    exact absurd hcall (hattaching loaded)
  · intro toSave hcall
    exact absurd hcall (hdetaching toSave)

/-- The loop has no say in names that it does not hold. -/
theorem lookup_settled_of_notMem {reminderName : String}
    (h : ∀ r ∈ x.backgroundTask.holding, r.registration.reminderName ≠ reminderName) :
    x.settled.lookup reminderName = x.afterCall.lookup reminderName := by
  by_cases hstored : ∃ now r due, x.backgroundTask = .firing ⟨now, r :: due, .stored⟩
  · obtain ⟨now, r, due, htask⟩ := hstored
    rw [lookup_settled_stored htask, if_neg]
    intro hname
    refine h r ?_ hname.symm
    rw [htask]
    exact List.mem_cons_self
  · rw [settled_eq_afterCall]
    intro now r due htask
    exact hstored ⟨now, r, due, htask⟩

theorem lookup_settled_congr {y : ReminderFacet} (htask : y.backgroundTask = x.backgroundTask)
    {reminderName : String}
    (hafter : y.afterCall.lookup reminderName = x.afterCall.lookup reminderName) :
    y.settled.lookup reminderName = x.settled.lookup reminderName := by
  by_cases hstored : ∃ now r due, x.backgroundTask = .firing ⟨now, r :: due, .stored⟩
  · obtain ⟨now, r, due, hx⟩ := hstored
    rw [lookup_settled_stored hx, lookup_settled_stored (htask.trans hx), hafter]
  · have hnot : NotStored x.backgroundTask := fun now r due hx => hstored ⟨now, r, due, hx⟩
    rw [settled_eq_afterCall hnot, settled_eq_afterCall (x := y) (htask ▸ hnot), hafter]

theorem afterCall_of_none (h : x.call = none) : x.afterCall = x.reminders := by
  rw [ReminderFacet.afterCall, h]

/-- What `register_reminder` stores is a new active reminder with the name. -/
theorem of_checkRegistration {reg : ReminderRegistration} {now : Nat} {r : ReminderState}
    (h : x.checkRegistration reg now = .ok r) :
    r.registration = reg ∧ r.isActive = true ∧
      x.reminders.lookup reg.reminderName = none := by
  unfold ReminderFacet.checkRegistration at h
  split_ifs at h with hactor hname hexists
  split at h
  · cases h
  · split_ifs at h
    cases h
    exact ⟨rfl, rfl, by simpa using hexists⟩

theorem Synced.register (h : Synced x t actorId) (hcall : x.call = none)
    {reg : ReminderRegistration} {now : Nat} {r : ReminderState}
    (hcheck : x.checkRegistration reg now = .ok r) (hactor : reg.actorId = actorId) :
    Synced { x with call := some (.registering r) } (t.registerReminder r) actorId := by
  obtain ⟨rfl, hactive, hnew⟩ := of_checkRegistration hcheck
  have hafter := afterCall_of_none hcall
  have hknown := h.known
  rw [hafter] at hknown
  have hname : ∀ r' ∈ x.backgroundTask.holding,
      r'.registration.reminderName ≠ r.registration.reminderName := by
    intro r' hr' heq
    have hsome := (hknown r' hr').2
    rw [heq, hnew] at hsome
    cases hsome
  refine h.of_task_eq rfl ?_ h.active ?_ ?_ ?_ ?_ ?_ ?_
  · intro reminderName
    rw [World.active, Reminders.registerReminder, Table.find_insertOrReplace, key_eq hactor]
    by_cases heq : reminderName = r.registration.reminderName
    · subst heq
      rw [if_pos rfl, Option.filter_some, if_pos hactive,
        lookup_settled_of_notMem (x := { x with call := some (.registering r) }) hname]
      exact (lookup_remember _ _ _).trans (if_pos rfl)
    · rw [if_neg, ← World.active, ← h.settled]
      · refine lookup_settled_congr (x := x)
          (y := { x with call := some (.registering r) }) rfl ?_
        rw [hafter]
        exact (lookup_remember _ _ _).trans (if_neg heq)
      · intro hkey
        exact heq (congrArg Prod.snd hkey)
  · intro r' hr'
    rw [Reminders.registerReminder, Table.find_insertOrReplace, if_neg]
    · exact (h.pending r' hr').2.1
    · intro hkey
      exact hname r' ((sublist_holding _).subset hr') (congrArg Prod.snd hkey)
  · intro r' hr'
    change ((ReminderFacet.remember x.reminders r).lookup _).isSome
    rw [lookup_remember, if_neg (hname r' hr')]
    exact (hknown r' hr').2
  · intro loaded hsome
    cases hsome
  · rintro r' ⟨⟩
    exact hactive
  · intro reminderNames hsome
    cases hsome
  · intro toSave hsome
    cases hsome

theorem Synced.unregister (h : Synced x t actorId) (hcall : x.call = none) {name : String}
    (hname : ∀ r ∈ x.backgroundTask.holding, r.registration.reminderName ≠ name) :
    Synced { x with call := some (.unregistering name) } (t.unregisterReminder actorId name)
      actorId := by
  have hafter := afterCall_of_none hcall
  have hlookup : ∀ reminderName, (ReminderFacet.afterCall
      { x with call := some (.unregistering name) }).lookup reminderName =
        if reminderName = name then none else x.afterCall.lookup reminderName := by
    intro reminderName
    rw [hafter]
    exact Assoc.lookup_erase _ _ _
  refine h.of_task_eq rfl ?_ h.active ?_ ?_ ?_ ?_ ?_ ?_
  · intro reminderName
    rw [World.active, find_unregisterReminder]
    by_cases heq : reminderName = name
    · subst heq
      rw [if_pos rfl, lookup_settled_of_notMem (x := { x with
        call := some (.unregistering reminderName) }) hname, hlookup, if_pos rfl]
      rfl
    · rw [if_neg, ← World.active, ← h.settled]
      · refine lookup_settled_congr (x := x)
          (y := { x with call := some (.unregistering name) }) rfl ?_
        rw [hlookup, if_neg heq]
      · intro hkey
        exact heq (congrArg Prod.snd hkey)
  · intro r hr
    rw [find_unregisterReminder, if_neg]
    · exact (h.pending r hr).2.1
    · intro hkey
      exact hname r ((sublist_holding _).subset hr) (congrArg Prod.snd hkey)
  · intro r hr
    rw [hlookup, if_neg (hname r hr)]
    exact (h.known r hr).2
  all_goals
    intro _ hsome
    cases hsome

/-- Reminders with different names are put into the memory one after the other. -/
theorem lookup_foldl_remember {rs : List ReminderState} (hactive : ∀ r ∈ rs, r.isActive = true)
    (hnodup : (rs.map fun r => r.registration.reminderName).Nodup)
    (m : Assoc String ReminderState) (reminderName : String) :
    (rs.foldl (fun m r => if r.isActive then ReminderFacet.remember m r else m) m).lookup
      reminderName =
      (rs.find? fun r => r.registration.reminderName = reminderName).or
        (m.lookup reminderName) := by
  induction rs generalizing m with
  | nil => rfl
  | cons r rs ih =>
      rw [List.map_cons, List.nodup_cons] at hnodup
      rw [List.foldl_cons, if_pos (hactive r List.mem_cons_self),
        ih (fun r' hr' => hactive r' (List.mem_cons_of_mem _ hr')) hnodup.2, lookup_remember]
      by_cases hname : r.registration.reminderName = reminderName
      · have hrest : (rs.find? fun r' => r'.registration.reminderName = reminderName) = none := by
          refine List.find?_eq_none.mpr ?_
          intro r' hr' heq
          refine hnodup.1 (List.mem_map.mpr ⟨r', hr', ?_⟩)
          rw [of_decide_eq_true heq, hname]
        rw [hrest, if_pos hname.symm, List.find?_cons_of_pos (by simpa using hname)]
        rfl
      · rw [if_neg (Ne.symm hname), List.find?_cons_of_neg (by simpa using hname)]

theorem find?_loadReminders (t : Reminders) (actorId reminderName : String) :
    ((t.loadReminders actorId).find? fun r => r.registration.reminderName = reminderName) =
      World.active t actorId reminderName := by
  have hdelete := Table.find_deleteWhere t
    (fun r => !decide (r.registration.actorId = actorId ∧ r.isActive)) (actorId, reminderName)
  have hrows : (t.deleteWhere fun r => !decide (r.registration.actorId = actorId ∧ r.isActive)).rows
      = t.loadReminders actorId := by
    simp [Table.deleteWhere, Reminders.loadReminders, Table.select]
  rw [Table.find, hrows] at hdelete
  have hkey : (t.loadReminders actorId).find? (fun r => r.key = (actorId, reminderName)) =
      (t.loadReminders actorId).find? fun r => r.registration.reminderName = reminderName := by
    rw [← List.head?_filter, ← List.head?_filter]
    refine congrArg List.head? (List.filter_congr ?_)
    intro r hr
    have hactor := (of_decide_eq_true (List.mem_filter.mp hr).2).1
    simp [key_eq hactor]
  rw [← hkey, hdelete, World.active]
  cases hfind : t.find (actorId, reminderName) with
  | none => rfl
  | some r =>
      have hactor : r.registration.actorId = actorId := congrArg Prod.fst (Table.key_of_find hfind)
      simp [Option.filter_some, hactor]

theorem nodup_loadReminders (t : Reminders) (actorId : String) :
    ((t.loadReminders actorId).map fun r => r.registration.reminderName).Nodup := by
  have hkeys : ((t.loadReminders actorId).map ReminderState.key).Nodup :=
    (List.filter_sublist.map _).nodup t.nodup
  refine List.Nodup.of_map (fun reminderName => (actorId, reminderName)) ?_
  rw [List.map_map]
  have heq : ∀ r ∈ t.loadReminders actorId,
      ((fun reminderName => (actorId, reminderName)) ∘ fun r : ReminderState =>
        r.registration.reminderName) r = r.key := by
    intro r hr
    exact (key_eq (of_decide_eq_true (List.mem_filter.mp hr).2).1).symm
  rw [List.map_congr_left heq]
  exact hkeys

theorem synced_attach (t : Reminders) (actorId : String) :
    Synced { ReminderFacet.new with
      actorId := some actorId
      call := some (.attaching (t.loadReminders actorId)) } t actorId := by
  have hactive : ∀ r ∈ t.loadReminders actorId, r.isActive = true := by
    intro r hr
    exact (of_decide_eq_true (List.mem_filter.mp hr).2).2
  refine synced_of_resting (.inl rfl) ?_ ?_ ?_ ?_ ?_ ?_
  · intro reminderName
    rw [← find?_loadReminders]
    refine (lookup_foldl_remember hactive (nodup_loadReminders t actorId) _ _).trans ?_
    exact Option.or_none
  · intro reminderName r hr
    cases hr
  · rintro loaded ⟨⟩
    exact ⟨rfl, hactive⟩
  all_goals
    intro _ hsome
    cases hsome

/-- A facet that has nothing to pause has nothing in memory. -/
theorem Synced.exit (h : Synced x t actorId) (hcall : x.call = none)
    (hnothing : ∀ r ∈ x.reminders.values, r.isActive = false) :
    Synced { x with call := some (.exiting (x.reminders.entries.map Sigma.fst)) } t actorId := by
  have hentries : x.reminders.entries.map Sigma.fst = [] := by
    rw [List.map_eq_nil_iff, List.eq_nil_iff_forall_not_mem]
    intro e he
    have hlookup := Assoc.lookup_of_mem_entries he
    have hpaused := hnothing e.2 (Assoc.mem_values.mpr ⟨e.1, hlookup⟩)
    rw [h.active e.1 e.2 hlookup] at hpaused
    cases hpaused
  rw [hentries]
  have hafter := afterCall_of_none hcall
  refine h.of_task_eq rfl ?_ h.active (fun r hr => (h.pending r hr).2.1) ?_ ?_ ?_ ?_ ?_
  · intro reminderName
    rw [← h.settled]
    refine lookup_settled_congr (x := x) (y := { x with call := some (.exiting []) }) rfl ?_
    rw [hafter]
    rfl
  · intro r hr
    have hsome := (h.known r hr).2
    rw [hafter] at hsome
    exact hsome
  · intro loaded hsome
    cases hsome
  · intro r hsome
    cases hsome
  · rintro reminderNames ⟨⟩
    rfl
  · intro toSave hsome
    cases hsome

theorem Synced.detach (h : Synced x t actorId) (hcall : x.call = none)
    (hrest : x.backgroundTask = .stopped ∨ x.backgroundTask = .sleeping) :
    Synced { x with backgroundTask := .stopped, call := some (.detaching x.toSave) } t actorId := by
  have hnot : NotStored x.backgroundTask := by
    rcases hrest with htask | htask <;> rw [htask] <;> exact fun _ _ _ => BackgroundTask.noConfusion
  have hsettled := h.settled
  rw [settled_eq_afterCall hnot, afterCall_of_none hcall] at hsettled
  refine synced_of_resting (.inl rfl) hsettled h.active ?_ ?_ ?_ ?_
  · intro loaded hsome
    cases hsome
  · intro r hsome
    cases hsome
  · intro reminderNames hsome
    cases hsome
  · rintro toSave ⟨⟩
    refine ⟨rfl, ?_⟩
    intro r hr
    obtain ⟨reminderName, hlookup⟩ := Assoc.mem_values.mp (List.mem_filter.mp hr).1
    rw [hsettled, World.active] at hlookup
    have hfind := (Option.filter_eq_some_iff.mp hlookup).1
    have hkey := Table.key_of_find hfind
    refine ⟨congrArg Prod.fst hkey, ?_⟩
    rw [hkey, hfind]

end Calls

section Proceed

variable {x : ReminderFacet} {t : Reminders} {actorId : String}

/-- A call that only writes the memory ends; the loop runs from then on if `start` says so. -/
theorem Synced.finish (h : Synced x t actorId) {m : Assoc String ReminderState}
    (hm : m = x.afterCall) {task : BackgroundTask}
    (htask : task = x.backgroundTask ∨ x.backgroundTask = .stopped ∧ task = .sleeping)
    (hactive : ∀ reminderName r, m.lookup reminderName = some r → r.isActive = true) :
    Synced { x with reminders := m, call := none, backgroundTask := task } t actorId := by
  subst hm
  rcases htask with rfl | ⟨hstopped, rfl⟩
  · refine h.of_task_eq rfl ?_ hactive (fun r hr => (h.pending r hr).2.1) ?_ ?_ ?_ ?_ ?_
    · intro reminderName
      rw [← h.settled]
      exact lookup_settled_congr (x := x) (y := { x with reminders := x.afterCall, call := none })
        rfl rfl
    · intro r hr
      exact (h.known r hr).2
    all_goals
      intro _ hsome
      cases hsome
  · have hnot : NotStored x.backgroundTask := by
      rw [hstopped]
      exact fun _ _ _ => BackgroundTask.noConfusion
    refine synced_of_resting (.inr rfl) ?_ hactive ?_ ?_ ?_ ?_
    · intro reminderName
      rw [← h.settled, settled_eq_afterCall hnot]
      rfl
    all_goals
      intro _ hsome
      cases hsome

/-- Saving a reminder that the table already holds changes no row. -/
theorem find_updateReminder_self {r : ReminderState} (h : t.find r.key = some r)
    (key : String × String) : (t.updateReminder r).find key = t.find key := by
  rw [find_updateReminder h]
  split_ifs with hkey
  · rw [hkey, h]
  · rfl

theorem Synced.remembered (h : Synced x t actorId) {r : ReminderState}
    (hcall : x.call = some (.registering r)) {task : BackgroundTask}
    (htask : task = x.backgroundTask ∨ x.backgroundTask = .stopped ∧ task = .sleeping) :
    Synced { x with
      reminders := ReminderFacet.remember x.reminders r
      call := none
      backgroundTask := task } t actorId := by
  refine h.finish ?_ htask ?_
  · rw [ReminderFacet.afterCall, hcall]
  · intro name r' hr'
    rw [lookup_remember] at hr'
    split_ifs at hr'
    · cases hr'
      exact h.registering r hcall
    · exact h.active name r' hr'

/-- What a facet that is detached saves is what the table holds. -/
theorem Synced.save (h : Synced x t actorId) {r : ReminderState} {toSave : List ReminderState}
    (hcall : x.call = some (.detaching (r :: toSave))) :
    Synced { x with call := some (.detaching toSave) } (t.updateReminder r) actorId := by
  obtain ⟨hstopped, hsave⟩ := h.detaching _ hcall
  have hself := find_updateReminder_self (hsave r List.mem_cons_self).2
  refine synced_of_resting (.inl hstopped) ?_ h.active ?_ ?_ ?_ ?_
  · intro name
    rw [active_congr (hself _), ← h.settled, settled_eq_afterCall
      (by rw [hstopped]; exact fun _ _ _ => BackgroundTask.noConfusion),
      ReminderFacet.afterCall, ReminderFacet.afterCall, hcall]
  · intro loaded hsome
    cases hsome
  · intro r' hsome
    cases hsome
  · intro names hsome
    cases hsome
  · rintro toSave' ⟨⟩
    refine ⟨hstopped, ?_⟩
    intro r' hr'
    obtain ⟨hactor', hstored⟩ := hsave r' (List.mem_cons_of_mem _ hr')
    exact ⟨hactor', (hself _).trans hstored⟩

end Proceed

section Steps

variable {w : World F}

/-- A step of a facet that changes no rows of other actors. -/
theorem Settled.update (h : w.Settled) {f : F} {x : ReminderFacet} {t : Reminders}
    {actorId : String} {sent : List (Sent F)} (hx : x.actorId = some actorId)
    (honly : ∀ f', (w.facets f').actorId = some actorId → f' = f)
    (hother : ∀ actorId' reminderName, actorId' ≠ actorId →
      t.find (actorId', reminderName) = w.storage.find (actorId', reminderName))
    (hsynced : Synced x t actorId) :
    Settled ⟨t, Function.update w.facets f x, sent, w.paused⟩ := by
  refine ⟨?_, ?_, ?_, h.paused⟩
  · intro f' actorId' hf'
    dsimp only at hf' ⊢
    rw [Function.update_apply] at hf' ⊢
    split_ifs at hf' ⊢ with heq
    · rw [hx] at hf'
      cases hf'
      exact hsynced
    · refine (h.attached f' actorId' hf').congr fun reminderName => hother _ _ ?_
      rintro rfl
      exact heq (honly f' hf')
  · intro f' hf'
    dsimp only at hf' ⊢
    rw [Function.update_apply] at hf' ⊢
    split_ifs at hf' ⊢ with heq
    · rw [hx] at hf'
      cases hf'
    · exact h.detached f' hf'
  · intro f₁ f₂ actorId' h₁ h₂
    dsimp only at h₁ h₂
    rw [Function.update_apply] at h₁ h₂
    split_ifs at h₁ h₂ with heq₁ heq₂ heq₂
    · rw [heq₁, heq₂]
    · rw [hx] at h₁
      cases h₁
      exact heq₁.trans (honly f₂ h₂).symm
    · rw [hx] at h₂
      cases h₂
      exact (honly f₁ h₁).trans heq₂.symm
    · exact h.distinct f₁ f₂ actorId' h₁ h₂

theorem Settled.setBlank (h : w.Settled) (f : F) {x : ReminderFacet} (hx : x.actorId = none)
    (hblank : Blank x) : (w.setFacet f x).Settled := by
  refine ⟨?_, ?_, ?_, h.paused⟩
  · intro f' actorId' hf'
    rw [setFacet_facets] at hf' ⊢
    split_ifs at hf' ⊢
    · rw [hx] at hf'
      cases hf'
    · exact h.attached f' actorId' hf'
  · intro f' hf'
    rw [setFacet_facets] at hf' ⊢
    split_ifs at hf' ⊢
    · exact hblank
    · exact h.detached f' hf'
  · intro f₁ f₂ actorId' h₁ h₂
    rw [setFacet_facets] at h₁ h₂
    split_ifs at h₁ h₂
    · rw [hx] at h₁
      cases h₁
    · rw [hx] at h₁
      cases h₁
    · rw [hx] at h₂
      cases h₂
    · exact h.distinct f₁ f₂ actorId' h₁ h₂

omit [DecidableEq F] in
theorem Settled.attached_of_not_blank (h : w.Settled) {f : F} (hf : ¬Blank (w.facets f)) :
    ∃ actorId, (w.facets f).actorId = some actorId ∧ Synced (w.facets f) w.storage actorId ∧
      ∀ f', (w.facets f').actorId = some actorId → f' = f := by
  rcases hactor : (w.facets f).actorId with _ | actorId
  · exact absurd (h.detached f hactor) hf
  · exact ⟨actorId, rfl, h.attached f actorId hactor, fun f' hf' => h.distinct f' f _ hf' hactor⟩

theorem settled_loopStep (h : w.Settled) (f : F) (a : LoopAction)
    (ha : w.Careful (f, .loop a)) : (w.loopStep f a).Settled := by
  have hfires := loopStep_fires w f a
  generalize w.loopStep f a = w' at hfires
  have hnew : ∀ {task}, (w.facets f).backgroundTask = task → task ≠ .stopped →
      ¬Blank (w.facets f) := by
    rintro task rfl htask hblank
    exact htask hblank.backgroundTask
  cases hfires with
  | waits => exact h
  | queries now htask =>
      obtain ⟨actorId, hactor, hsynced, honly⟩ :=
        h.attached_of_not_blank (hnew htask BackgroundTask.noConfusion)
      refine h.update hactor honly (fun _ _ _ => rfl) (hsynced.query htask ?_)
      intro r hmem hsendable
      have hown := ha htask r hmem hsendable
      rw [hactor] at hown
      exact (Option.some.inj hown).symm
  | @skips _ now r due htask hsendable =>
      obtain ⟨actorId, hactor, hsynced, honly⟩ :=
        h.attached_of_not_blank (hnew htask BackgroundTask.noConfusion)
      have hpending : (BackgroundTask.resume now due).pending =
          (w.facets f).backgroundTask.pending := by
        rw [pending_resume, htask]
        exact (List.filter_cons_of_neg (by rw [hsendable]; exact Bool.false_ne_true)).symm
      refine h.update hactor honly (fun _ _ _ => rfl)
        (hsynced.turn htask BackgroundTask.noConfusion ?_ (notStored_resume _ _) hpending)
      intro _ _ _ heq
      cases heq
  | @sends _ now r due sent htask hsendable hsent =>
      obtain ⟨actorId, hactor, hsynced, honly⟩ :=
        h.attached_of_not_blank (hnew htask BackgroundTask.noConfusion)
      have hpending : (BackgroundTask.firing ⟨now, r :: due, .sent⟩).pending =
          (w.facets f).backgroundTask.pending := by
        rw [htask]
        exact (List.filter_cons_of_pos hsendable).symm
      refine h.update hactor honly (fun _ _ _ => rfl)
        (hsynced.turn htask BackgroundTask.noConfusion ?_ ?_ hpending)
      · intro _ _ _ heq
        cases heq
      · intro _ _ _ heq
        cases heq
  | @deletes now r due htask hnext =>
      obtain ⟨actorId, hactor, hsynced, honly⟩ :=
        h.attached_of_not_blank (hnew htask BackgroundTask.noConfusion)
      obtain ⟨hother, hself⟩ := find_of_next_none w.storage hnext rfl
      exact h.update hactor honly (hsynced.other_of_sent htask hother)
        (hsynced.store htask hother hself)
  | @updates now r r' due htask hnext =>
      obtain ⟨actorId, hactor, hsynced, honly⟩ :=
        h.attached_of_not_blank (hnew htask BackgroundTask.noConfusion)
      obtain ⟨-, hstored, -⟩ := hsynced.pending r (by rw [htask]; exact List.mem_cons_self)
      obtain ⟨hother, hself⟩ := find_of_next_some hstored hnext rfl
      exact h.update hactor honly (hsynced.other_of_sent htask hother)
        (hsynced.store htask hother hself)
  | @remembers now r due reminders htask hlock hreminders =>
      obtain ⟨actorId, hactor, hsynced, honly⟩ :=
        h.attached_of_not_blank (hnew htask BackgroundTask.noConfusion)
      have hrun : (w.facets f).backgroundTask ≠ .stopped := by
        rw [htask]
        exact BackgroundTask.noConfusion
      exact h.update hactor honly (fun _ _ _ => rfl)
        (hsynced.remember (hsynced.call_eq_none hrun hlock) htask hreminders)

theorem settled_proceed_attached (h : w.Settled) {f : F} {actorId : String}
    (hactor : (w.facets f).actorId = some actorId) : (w.proceed f).Settled := by
  have hsynced := h.attached f actorId hactor
  have honly : ∀ f', (w.facets f').actorId = some actorId → f' = f :=
    fun f' hf' => h.distinct f' f _ hf' hactor
  rcases hcall : (w.facets f).call with _ | loaded | r | name | names | toSave
  · simp only [proceed, hcall]
    exact h
  · -- The loop starts once the loaded reminders are in memory.
    obtain ⟨hstopped, hloaded⟩ := hsynced.attaching loaded hcall
    simp only [proceed, hcall, ReminderFacet.startBackgroundTaskIfNeeded, hstopped]
    refine h.update hactor honly (fun _ _ _ => rfl)
      (hsynced.finish ?_ (.inr ⟨hstopped, rfl⟩) ?_)
    · rw [ReminderFacet.afterCall, hcall]
    · intro name r hr
      have hsettled := hsynced.settled name
      rw [settled_eq_afterCall (by rw [hstopped]; exact fun _ _ _ => BackgroundTask.noConfusion),
        ReminderFacet.afterCall, hcall, hr] at hsettled
      exact (Option.filter_eq_some_iff.mp hsettled.symm).2
  · rcases htask : (w.facets f).backgroundTask with _ | _ | b
    all_goals
      simp only [proceed, hcall, ReminderFacet.startBackgroundTaskIfNeeded, htask]
    · exact h.update hactor honly (fun _ _ _ => rfl)
        (hsynced.remembered hcall (.inr ⟨htask, rfl⟩))
    · exact h.update hactor honly (fun _ _ _ => rfl)
        (hsynced.remembered hcall (.inl htask.symm))
    · exact h.update hactor honly (fun _ _ _ => rfl)
        (hsynced.remembered hcall (.inl htask.symm))
  · simp only [proceed, hcall]
    refine h.update hactor honly (fun _ _ _ => rfl) (hsynced.finish ?_ (.inl rfl) ?_)
    · rw [ReminderFacet.afterCall, hcall]
    · intro name' r hr
      rw [Assoc.lookup_erase] at hr
      split_ifs at hr
      exact hsynced.active name' r hr
  · obtain rfl := hsynced.exiting names hcall
    simp only [proceed, hcall]
    refine h.update hactor honly (fun _ _ _ => rfl) (hsynced.finish ?_ (.inl rfl) hsynced.active)
    rw [ReminderFacet.afterCall, hcall]
  · obtain ⟨hstopped, hsave⟩ := hsynced.detaching toSave hcall
    rcases toSave with _ | ⟨r, toSave⟩
    · simp only [proceed, hcall]
      exact h.setBlank f rfl ⟨rfl, hstopped, .inl rfl⟩
    · simp only [proceed, hcall]
      have hself := find_updateReminder_self (hsave r List.mem_cons_self).2
      exact h.update hactor honly (fun _ _ _ => hself _) (hsynced.save hcall)

theorem settled_proceed (h : w.Settled) (f : F) : (w.proceed f).Settled := by
  rcases hactor : (w.facets f).actorId with _ | actorId
  · have hblank := h.detached f hactor
    rcases hblank.call with hcall | hcall | hcall
    · simp only [proceed, hcall]
      exact h
    · simp only [proceed, hcall]
      exact h.setBlank f hactor ⟨hblank.reminders, hblank.backgroundTask, .inl rfl⟩
    · simp only [proceed, hcall]
      exact h.setBlank f rfl ⟨rfl, hblank.backgroundTask, .inl rfl⟩
  · exact settled_proceed_attached h hactor

theorem settled_attach (h : w.Settled) (f : F) (actorId : String)
    (ha : w.Careful (f, .attach actorId)) : (w.facetStep f (.attach actorId)).Settled := by
  rcases hcall : (w.facets f).call with _ | call
  · obtain ⟨hnone, hother⟩ := ha hcall
    have hblank := h.detached f hnone
    have hnew : w.facets f = .new := by
      rw [ReminderFacet.new, ← hnone, ← hcall, ← hblank.reminders, ← hblank.backgroundTask]
    simp only [facetStep, hnew]
    refine h.update rfl ?_ (fun _ _ _ => rfl) (synced_attach w.storage actorId)
    intro f' hf'
    exact absurd hf' (hother f')
  · simp only [facetStep, hcall, Option.isSome_some, if_true]
    exact h

theorem settled_register (h : w.Settled) (f : F) (reg : ReminderRegistration) (now : Nat)
    (ha : w.Careful (f, .register reg now)) : (w.facetStep f (.register reg now)).Settled := by
  rcases hcall : (w.facets f).call with _ | call
  · simp only [facetStep, hcall, Option.isSome_none, Bool.false_eq_true, if_false]
    rcases hcheck : (w.facets f).checkRegistration reg now with e | r
    · exact h
    · rcases hactor : (w.facets f).actorId with _ | actorId
      · rw [ReminderFacet.checkRegistration, hactor] at hcheck
        cases hcheck
      have hown := ha hcall actorId hactor
      refine h.update rfl (fun f' hf' => h.distinct f' f _ hf' hactor) ?_
        (hactor ▸ (h.attached f actorId hactor).register hcall hcheck hown)
      intro actorId' name hactor'
      rw [Reminders.registerReminder, Table.find_insertOrReplace, if_neg]
      intro hkey
      obtain ⟨rfl, -⟩ := of_checkRegistration hcheck
      rw [key_eq hown] at hkey
      exact hactor' (congrArg Prod.fst hkey)
  · simp only [facetStep, hcall, Option.isSome_some, if_true]
    exact h

theorem settled_unregister (h : w.Settled) (f : F) (name : String)
    (ha : w.Careful (f, .unregister name)) : (w.facetStep f (.unregister name)).Settled := by
  rcases hcall : (w.facets f).call with _ | call
  · simp only [facetStep, hcall, Option.isSome_none, Bool.false_eq_true, if_false]
    rcases hcheck : (w.facets f).checkUnregister name with e | actorId
    · exact h
    · have hactor : (w.facets f).actorId = some actorId := by
        unfold ReminderFacet.checkUnregister at hcheck
        split_ifs at hcheck
        split at hcheck
        · cases hcheck
        · rename_i actorId' hactor
          cases hcheck
          exact hactor
      refine h.update hactor (fun f' hf' => h.distinct f' f _ hf' hactor) ?_
        ((h.attached f actorId hactor).unregister hcall (ha hcall))
      intro actorId' name' hactor'
      rw [find_unregisterReminder, if_neg]
      intro hkey
      exact hactor' (congrArg Prod.fst hkey)
  · simp only [facetStep, hcall, Option.isSome_some, if_true]
    exact h

theorem settled_exit (h : w.Settled) (f : F) (ha : w.Careful (f, .exit)) :
    (w.facetStep f .exit).Settled := by
  rcases hcall : (w.facets f).call with _ | call
  · simp only [facetStep, hcall, Option.isSome_none, Bool.false_eq_true, if_false]
    rcases hactor : (w.facets f).actorId with _ | actorId
    · have hblank := h.detached f hactor
      refine h.setBlank f rfl ⟨hblank.reminders, hblank.backgroundTask, .inr (.inl ?_)⟩
      rw [hblank.reminders]
      rfl
    · have hsynced := (h.attached f actorId hactor).exit hcall (ha hcall)
      rw [hactor] at hsynced
      exact h.update rfl (fun f' hf' => h.distinct f' f _ hf' hactor) (fun _ _ _ => rfl) hsynced
  · simp only [facetStep, hcall, Option.isSome_some, if_true]
    exact h

theorem settled_detach (h : w.Settled) (f : F) : (w.facetStep f .detach).Settled := by
  rcases hcall : (w.facets f).call with _ | call
  · by_cases hfiring : ∃ b, (w.facets f).backgroundTask = .firing b
    · obtain ⟨b, htask⟩ := hfiring
      simp only [facetStep, hcall, htask]
      exact h
    · have hrest : (w.facets f).backgroundTask = .stopped ∨
          (w.facets f).backgroundTask = .sleeping := by
        rcases htask : (w.facets f).backgroundTask with _ | _ | b
        · exact .inl rfl
        · exact .inr rfl
        · exact absurd ⟨b, htask⟩ hfiring
      have hstep : w.facetStep f .detach = w.setFacet f { w.facets f with
          backgroundTask := .stopped, call := some (.detaching (w.facets f).toSave) } := by
        rcases hrest with htask | htask <;> simp only [facetStep, hcall, htask]
      rw [hstep]
      rcases hactor : (w.facets f).actorId with _ | actorId
      · have hblank := h.detached f hactor
        refine h.setBlank f hactor ⟨hblank.reminders, rfl, .inr (.inr ?_)⟩
        rw [ReminderFacet.toSave, hblank.reminders]
        rfl
      · exact h.update hactor (fun f' hf' => h.distinct f' f _ hf' hactor) (fun _ _ _ => rfl)
          ((h.attached f actorId hactor).detach hcall hrest)
  · simp only [facetStep, hcall]
    exact h

theorem settled_step (h : w.Settled) (a : F × FacetAction) (ha : w.Careful a) :
    (w.step a).Settled := by
  obtain ⟨f, a⟩ := a
  cases a with
  | loop a => exact settled_loopStep h f a ha
  | proceed => exact settled_proceed h f
  | attach actorId => exact settled_attach h f actorId ha
  | register reg now => exact settled_register h f reg now ha
  | unregister name => exact settled_unregister h f name ha
  | exit => exact settled_exit h f ha
  | detach => exact settled_detach h f

omit [DecidableEq F] in
theorem mirrors_of_settled (h : w.Settled) : w.Mirrors := by
  intro f actorId hactor hidle name
  have hsynced := h.attached f actorId hactor
  rw [← hsynced.settled, settled_eq_afterCall, afterCall_of_none hidle.1]
  intro now r due
  exact hidle.2 _

omit [DecidableEq F] in
theorem settled_start (storage : Reminders) : (start storage : World F).Settled := by
  refine ⟨?_, ?_, ?_, rfl⟩
  · intro f actorId hf
    cases hf
  · intro f _
    exact ⟨rfl, rfl, .inl rfl⟩
  · intro f f' actorId hf
    cases hf

/-- In a run in which facets and loops keep to their own actors, nothing is unregistered while
the loop fires it and nothing is paused, every idle facet has the active reminders of its actor
in memory, and attaching a facet leaves no reminder paused. -/
theorem mirrors (storage : Reminders) (as : List (F × FacetAction))
    (hrun : Along step Careful (start storage) as) :
    Along step (fun w a => (w.step a).Mirrors ∧ w.Resumes a) (start storage) as := by
  refine hrun.of_invariant (I := Settled) ?_ (settled_start storage)
  intro w a h ha
  have hstep := settled_step h a ha
  refine ⟨⟨mirrors_of_settled hstep, ?_⟩, hstep⟩
  intro actorId loaded _ _ _ name hpaused
  rw [h.paused] at hpaused
  cases hpaused

end Steps

section Examples

instance (w : World Bool) : ∀ a, Decidable (w.Attaches a)
  | (f, .attach actorId) => inferInstanceAs (Decidable ((w.facets f).call = none →
      (w.facets f).actorId = none ∧ ∀ f', (w.facets f').actorId ≠ some actorId))
  | (_, .loop _) | (_, .register ..) | (_, .unregister _) | (_, .exit) | (_, .detach)
  | (_, .proceed) => inferInstanceAs (Decidable True)

instance (w : World Bool) : ∀ a, Decidable (w.Careful a)
  | (f, .attach actorId) => inferInstanceAs (Decidable (w.Attaches (f, .attach actorId)))
  | (f, .register reg _) => inferInstanceAs (Decidable ((w.facets f).call = none →
      ∀ actorId ∈ (w.facets f).actorId, reg.actorId = actorId))
  | (f, .unregister reminderName) => inferInstanceAs (Decidable ((w.facets f).call = none →
      ∀ r ∈ (w.facets f).backgroundTask.holding, r.registration.reminderName ≠ reminderName))
  | (f, .exit) => inferInstanceAs (Decidable ((w.facets f).call = none →
      ∀ r ∈ (w.facets f).reminders.values, r.isActive = false))
  | (f, .loop (.query now)) => inferInstanceAs (Decidable
      ((w.facets f).backgroundTask = .sleeping → ∀ r ∈ w.storage.queryDueReminders now,
        r.sendable = true → (w.facets f).actorId = some r.registration.actorId))
  | (_, .loop (.send _)) | (_, .loop .store) | (_, .loop .remember) | (_, .detach)
  | (_, .proceed) => inferInstanceAs (Decidable True)

def wake : ReminderRegistration := ⟨"w//t::ns@n1", "wake", some 1, none, [], true, 0⟩

/-- The facet `false` registers a reminder of its actor. -/
def registered : List (Bool × FacetAction) :=
  [(false, .attach "w//t::ns@n1"), (false, .proceed), (false, .register wake 0),
    (false, .proceed)]

theorem mirrors_registered : Along step (fun w a => (w.step a).Mirrors ∧ w.Resumes a)
    (start Table.empty : World Bool) (registered ++ [(false, .loop (.query 0)),
      (false, .loop (.send true)), (false, .loop .store), (false, .loop .remember)]) :=
  mirrors Table.empty _ (by decide +kernel)

/-- The loop of the facet `true` fires it and puts it into the memory of its own facet. -/
def firedByOther : List (Bool × FacetAction) :=
  registered ++ [(true, .attach "w//t::ns@n2"), (true, .proceed), (true, .loop (.query 0)),
    (true, .loop (.send true)), (true, .loop .store)]

/-- The reminder is paused, and the facet is attached again. -/
def pausedRun : List (Bool × FacetAction) :=
  registered ++ [(false, .exit), (false, .proceed), (false, .proceed), (false, .detach),
    (false, .proceed), (false, .attach "w//t::ns@n1")]

/-- The facet `true` then has a reminder that its actor does not have, and a paused reminder is
not active again. -/
theorem not_mirrors :
    (¬∀ as : List (Bool × FacetAction), Along step Attaches (start Table.empty) as →
      Along step (fun w a => (w.step a).Mirrors) (start Table.empty) as) ∧
    ¬∀ as : List (Bool × FacetAction), Along step Attaches (start Table.empty) as →
      Along step Resumes (start Table.empty) as := by
  constructor
  · intro h
    have hproper : Along step Attaches (start Table.empty : World Bool)
        (firedByOther ++ [(true, .loop .remember)]) := by decide +kernel
    have hmirrors : (run step (start Table.empty : World Bool)
        (firedByOther ++ [(true, .loop .remember)])).Mirrors := by
      rw [run_concat]
      exact ((along_concat _ _ _ _).mp (h _ hproper)).2
    have hactor : ((run step (start Table.empty : World Bool)
        (firedByOther ++ [(true, .loop .remember)])).facets true).actorId =
          some "w//t::ns@n2" := by decide +kernel
    have hcall : ((run step (start Table.empty : World Bool)
        (firedByOther ++ [(true, .loop .remember)])).facets true).call = none := by
      decide +kernel
    have htask : ((run step (start Table.empty : World Bool)
        (firedByOther ++ [(true, .loop .remember)])).facets true).backgroundTask =
          .sleeping := by decide +kernel
    have hmemory : (((run step (start Table.empty : World Bool)
        (firedByOther ++ [(true, .loop .remember)])).facets true).reminders.lookup
          "wake").isSome := by decide +kernel
    have hstored : active (run step (start Table.empty : World Bool)
        (firedByOther ++ [(true, .loop .remember)])).storage "w//t::ns@n2" "wake" = none := by
      decide +kernel
    generalize run step (start Table.empty : World Bool)
      (firedByOther ++ [(true, .loop .remember)]) = w at *
    have hidle : (w.facets true).Idle := by
      refine ⟨hcall, ?_⟩
      rw [htask]
      exact fun _ => BackgroundTask.noConfusion
    rw [hmirrors true "w//t::ns@n2" hactor hidle "wake", hstored] at hmemory
    cases hmemory
  · intro h
    have hproper : Along step Attaches (start Table.empty : World Bool)
        (pausedRun ++ [(false, .proceed)]) := by decide +kernel
    have hresumes := ((along_concat _ _ _ _).mp (h _ hproper)).2
    have hcall : ((run step (start Table.empty : World Bool) pausedRun).facets false).call =
        some (.attaching []) := by decide +kernel
    have hactor : ((run step (start Table.empty : World Bool) pausedRun).facets false).actorId =
        some "w//t::ns@n1" := by decide +kernel
    have hpaused : ("w//t::ns@n1", "wake") ∈
        (run step (start Table.empty : World Bool) pausedRun).paused := by decide +kernel
    have hstored : (((run step (start Table.empty : World Bool) pausedRun).step
        (false, .proceed)).storage.find ("w//t::ns@n1", "wake")).map ReminderState.isActive =
          some false := by decide +kernel
    generalize run step (start Table.empty : World Bool) pausedRun = w at *
    obtain ⟨r, hr, hinactive⟩ := Option.map_eq_some_iff.mp hstored
    have hactive := hresumes "w//t::ns@n1" [] rfl hcall hactor "wake" hpaused r hr
    rw [hinactive] at hactive
    cases hactive

end Examples

end World

end PlexSpaces.Journaling
