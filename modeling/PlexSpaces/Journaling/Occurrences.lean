import PlexSpaces.Journaling.ReminderFacet
/-!
# How often a reminder fires

The loop of every facet takes up all reminders that are due, whichever actor they belong to.
Two loops that query the table before one of them has stored what it fires both send the same
reminder (`not_firesAtMostOnce`).  When no query returns a reminder that another loop has still
to store, every occurrence is sent at most once, and a reminder with a maximum at most that many
times (`fires_at_most_once`).
-/

namespace PlexSpaces.Journaling

open PlexSpaces.Lib PlexSpaces.Actors

namespace ReminderState

def sendable (r : ReminderState) : Bool :=
  match ActorId.fromCanonical r.registration.actorId with
  | .error _ => false
  | .ok _ => true

/-- What registration promises of a stored reminder: its interval is not zero, and it has not
yet fired as often as it may. -/
structure Sound (r : ReminderState) : Prop where
  interval : r.registration.interval ≠ some 0
  fireCount : 0 < r.registration.maxOccurrences → r.fireCount < r.registration.maxOccurrences

end ReminderState

/-- The reminders of the batch that the loop will still store. -/
def BackgroundTask.pending : BackgroundTask → List ReminderState
  | .firing ⟨_, r :: due, .sent⟩ => r :: due.filter ReminderState.sendable
  | .firing ⟨_, _ :: due, .stored⟩ => due.filter ReminderState.sendable
  | .firing ⟨_, due, .ready⟩ => due.filter ReminderState.sendable
  | _ => []

/-- The reminder that the loop has sent and not stored. -/
def BackgroundTask.sentKey : BackgroundTask → Option (String × String)
  | .firing ⟨_, r :: _, .sent⟩ => some r.key
  | _ => none

namespace World

variable {F : Type} [DecidableEq F]

def fireStep (w : World F) (a : F × LoopAction) : World F := w.loopStep a.1 a.2

def pending (w : World F) (f : F) : List ReminderState := (w.facets f).backgroundTask.pending

/-- A query returns no reminder that a loop has still to store. -/
def Exclusive (w : World F) : F × LoopAction → Prop
  | (f, .query now) => (w.facets f).backgroundTask = .sleeping →
      ∀ r ∈ w.storage.queryDueReminders now, ∀ f', ∀ r' ∈ w.pending f', r'.key ≠ r.key
  | _ => True

def occurrence (s : Sent F) : (String × String) × Option Nat := (s.key, s.dueAt)

def timesSent (w : World F) (key : String × String) : Nat :=
  w.sent.countP fun s => s.key = key

/-- Every occurrence has been sent at most once since `w₀`, and no reminder more often than its
maximum allows after the times that it had fired before. -/
structure FiresAtMostOnce (w₀ w : World F) : Prop where
  occurrences : (w.sent.map occurrence).Nodup
  total : ∀ key r, w₀.storage.find key = some r → 0 < r.registration.maxOccurrences →
    r.fireCount.toInt + w.timesSent key ≤ r.registration.maxOccurrences.toInt

/-- The loops sleep, nothing has been sent and the reminders are as they are registered. -/
structure Quiet (w : World F) : Prop where
  tasks : ∀ f, (w.facets f).backgroundTask = .stopped ∨ (w.facets f).backgroundTask = .sleeping
  sent : w.sent = []
  sound : ∀ r ∈ w.storage.rows, r.Sound

/-- What a step of the loop of `f` can do. -/
inductive Fires (w : World F) (f : F) : LoopAction → World F → Prop
  | waits {a : LoopAction} : Fires w f a w
  | queries (now : Nat) : (w.facets f).backgroundTask = .sleeping →
      Fires w f (.query now) (w.setTask f (.resume now (w.storage.queryDueReminders now)))
  | skips {available : Bool} {now : Nat} {r : ReminderState} {due : List ReminderState} :
      (w.facets f).backgroundTask = .firing ⟨now, r :: due, .ready⟩ → r.sendable = false →
      Fires w f (.send available) (w.setTask f (.resume now due))
  | sends {available : Bool} {now : Nat} {r : ReminderState} {due : List ReminderState}
      {sent : List (Sent F)} :
      (w.facets f).backgroundTask = .firing ⟨now, r :: due, .ready⟩ → r.sendable = true →
      sent = w.sent ∨ sent = w.sent ++ [⟨f, r.key, r.nextFireTime, now⟩] →
      Fires w f (.send available) { w.setTask f (.firing ⟨now, r :: due, .sent⟩) with sent }
  | deletes {now : Nat} {r : ReminderState} {due : List ReminderState} :
      (w.facets f).backgroundTask = .firing ⟨now, r :: due, .sent⟩ → r.next now = none →
      Fires w f .store { w.setTask f (.firing ⟨now, r :: due, .stored⟩) with
        storage := w.storage.unregisterReminder r.registration.actorId
          r.registration.reminderName }
  | updates {now : Nat} {r r' : ReminderState} {due : List ReminderState} :
      (w.facets f).backgroundTask = .firing ⟨now, r :: due, .sent⟩ → r.next now = some r' →
      Fires w f .store { w.setTask f (.firing ⟨now, r :: due, .stored⟩) with
        storage := w.storage.updateReminder r' }
  | remembers {now : Nat} {r : ReminderState} {due : List ReminderState}
      {reminders : Assoc String ReminderState} :
      (w.facets f).backgroundTask = .firing ⟨now, r :: due, .stored⟩ →
      (w.facets f).call.any FacetCall.locks = false →
      reminders = (match r.next now with
        | none => (w.facets f).reminders.erase r.registration.reminderName
        | some r' => ReminderFacet.remember (w.facets f).reminders r') →
      Fires w f .remember (w.setFacet f
        { w.facets f with reminders := reminders, backgroundTask := .resume now due })

theorem loopStep_fires (w : World F) (f : F) (a : LoopAction) :
    Fires w f a (w.loopStep f a) := by
  cases a with
  | query now =>
      rcases htask : (w.facets f).backgroundTask with _ | _ | b
      case sleeping =>
          simp only [loopStep, htask]
          exact .queries now htask
      all_goals
        simp only [loopStep, htask]
        exact .waits
  | send available =>
      rcases htask : (w.facets f).backgroundTask with _ | _ | ⟨now, _ | ⟨r, due⟩, _ | _ | _⟩
      case send.firing.cons.ready =>
          simp only [loopStep, htask]
          split
          · rename_i herror
            refine .skips htask ?_
            rw [ReminderState.sendable, herror]
          · rename_i hok
            have hsendable : r.sendable = true := by rw [ReminderState.sendable, hok]
            split_ifs
            · exact .sends htask hsendable (.inr rfl)
            · exact .sends htask hsendable (.inl rfl)
      all_goals
        simp only [loopStep, htask]
        exact .waits
  | store =>
      rcases htask : (w.facets f).backgroundTask with _ | _ | ⟨now, _ | ⟨r, due⟩, _ | _ | _⟩
      case store.firing.cons.sent =>
          simp only [loopStep, htask]
          split
          · rename_i hnext
            exact .deletes htask hnext
          · rename_i r' hnext
            exact .updates htask hnext
      all_goals
        simp only [loopStep, htask]
        exact .waits
  | remember =>
      rcases htask : (w.facets f).backgroundTask with _ | _ | ⟨now, _ | ⟨r, due⟩, _ | _ | _⟩
      case remember.firing.cons.stored =>
          simp only [loopStep, htask]
          split_ifs with hlock
          · exact .waits
          · exact .remembers htask (Bool.not_eq_true _ ▸ hlock) rfl
      all_goals
        simp only [loopStep, htask]
        exact .waits

/-- A loop is between sending the reminder and storing it. -/
def SentNow (w : World F) (key : String × String) : Prop :=
  ∃ f, (w.facets f).backgroundTask.sentKey = some key

/-- The reminders that loops have still to store are those of the table, each in one batch. -/
structure Held (w : World F) : Prop where
  stored : ∀ f, ∀ r ∈ w.pending f, w.storage.find r.key = some r
  due : ∀ f b, (w.facets f).backgroundTask = .firing b → ∀ r ∈ w.pending f,
    ∃ t, r.nextFireTime = some t ∧ t ≤ b.now
  nodup : ∀ f, ((w.pending f).map ReminderState.key).Nodup
  disjoint : ∀ f f', ∀ r ∈ w.pending f, ∀ r' ∈ w.pending f', r.key = r'.key → f = f'
  sound : ∀ r ∈ w.storage.rows, r.Sound

section Pending

variable {w : World F} {f : F}

theorem setFacet_facets (w : World F) (f f' : F) (x : ReminderFacet) :
    (w.setFacet f x).facets f' = if f' = f then x else w.facets f' :=
  Function.update_apply _ _ _ _

theorem pending_setFacet (w : World F) (f f' : F) (x : ReminderFacet) :
    (w.setFacet f x).pending f' = if f' = f then x.backgroundTask.pending else w.pending f' := by
  rw [pending, setFacet_facets, apply_ite ReminderFacet.backgroundTask,
    apply_ite BackgroundTask.pending]
  rfl

theorem pending_resume (now : Nat) (due : List ReminderState) :
    (BackgroundTask.resume now due).pending = due.filter ReminderState.sendable := by
  cases due <;> rfl

theorem resume_eq_firing {now : Nat} {due : List ReminderState} {b : Firing}
    (h : BackgroundTask.resume now due = .firing b) : b = ⟨now, due, .ready⟩ := by
  cases due with
  | nil => cases h
  | cons r due =>
      cases h
      rfl

/-- A task with the same reminders to store and the same time keeps the batches held. -/
theorem Held.setFacet (h : w.Held) {x : ReminderFacet}
    (hpending : x.backgroundTask.pending = w.pending f)
    (hnow : ∀ b, x.backgroundTask = .firing b → ∃ b', (w.facets f).backgroundTask = .firing b' ∧
      b'.now = b.now) : (w.setFacet f x).Held := by
  have hall : ∀ f', (w.setFacet f x).pending f' = w.pending f' := by
    intro f'
    rw [pending_setFacet]
    split_ifs with hf
    · rw [hpending, hf]
    · rfl
  refine ⟨?_, ?_, ?_, ?_, h.sound⟩
  · intro f' r hr
    exact h.stored f' r (hall f' ▸ hr)
  · intro f' b hb r hr
    rw [hall] at hr
    rw [setFacet_facets] at hb
    split_ifs at hb with hf
    · obtain ⟨b', hb', hnow'⟩ := hnow b hb
      rw [← hnow']
      exact h.due f' b' (hf ▸ hb') r hr
    · exact h.due f' b hb r hr
  · intro f'
    rw [hall]
    exact h.nodup f'
  · intro f₁ f₂ r₁ hr₁ r₂ hr₂ hkey
    exact h.disjoint f₁ f₂ r₁ (hall f₁ ▸ hr₁) r₂ (hall f₂ ▸ hr₂) hkey

theorem mem_queryDueReminders {t : Reminders} {now : Nat} {r : ReminderState} :
    r ∈ t.queryDueReminders now ↔ r ∈ t.rows ∧ Reminders.isDue now r = true := by
  rw [Reminders.queryDueReminders, List.mem_insertionSort]
  exact List.mem_filter

theorem nodup_queryDueReminders (t : Reminders) (now : Nat) :
    ((t.queryDueReminders now).map ReminderState.key).Nodup := by
  have hperm := List.perm_insertionSort (fun r r' : ReminderState =>
    r.nextFireTime.getD 0 ≤ r'.nextFireTime.getD 0) (t.select (Reminders.isDue now))
  exact (hperm.map _).nodup_iff.mpr ((List.filter_sublist.map ReminderState.key).nodup t.nodup)

theorem due_of_isDue {now : Nat} {r : ReminderState} (h : Reminders.isDue now r = true) :
    ∃ t, r.nextFireTime = some t ∧ t ≤ now := by
  unfold Reminders.isDue at h
  obtain ⟨-, h⟩ := Bool.and_eq_true_iff.mp h
  split at h
  · cases h
  · rename_i t ht
    have hle : t ≤ now / 1000000 * 1000000 := of_decide_eq_true h
    exact ⟨t, ht, hle.trans (Nat.div_mul_le_self _ _)⟩

theorem Held.query (h : w.Held) {now : Nat} (hsleep : (w.facets f).backgroundTask = .sleeping)
    (hexclusive : w.Exclusive (f, .query now)) :
    (w.setTask f (.resume now (w.storage.queryDueReminders now))).Held := by
  have hnew : ∀ f' r, r ∈ (w.setTask f (.resume now (w.storage.queryDueReminders now))).pending f' →
      (f' = f ∧ r ∈ w.storage.queryDueReminders now) ∨ (f' ≠ f ∧ r ∈ w.pending f') := by
    intro f' r hr
    rw [setTask, pending_setFacet] at hr
    split_ifs at hr with hf
    · rw [pending_resume] at hr
      exact .inl ⟨hf, (List.mem_filter.mp hr).1⟩
    · exact .inr ⟨hf, hr⟩
  refine ⟨?_, ?_, ?_, ?_, h.sound⟩
  · intro f' r hr
    rcases hnew f' r hr with ⟨-, hr⟩ | ⟨-, hr⟩
    · exact Table.find_of_mem (mem_queryDueReminders.mp hr).1
    · exact h.stored f' r hr
  · intro f' b hb r hr
    rw [setTask, setFacet_facets] at hb
    rcases hnew f' r hr with ⟨hf, hr⟩ | ⟨hf, hr⟩
    · rw [if_pos hf] at hb
      rw [resume_eq_firing hb]
      exact due_of_isDue (mem_queryDueReminders.mp hr).2
    · rw [if_neg hf] at hb
      exact h.due f' b hb r hr
  · intro f'
    rw [setTask, pending_setFacet]
    split_ifs with hf
    · rw [pending_resume]
      exact (List.filter_sublist.map ReminderState.key).nodup (nodup_queryDueReminders _ _)
    · exact h.nodup f'
  · intro f₁ f₂ r₁ hr₁ r₂ hr₂ hkey
    rcases hnew f₁ r₁ hr₁ with ⟨hf₁, hr₁⟩ | ⟨-, hr₁⟩
    · rcases hnew f₂ r₂ hr₂ with ⟨hf₂, -⟩ | ⟨-, hr₂⟩
      · rw [hf₁, hf₂]
      · exact absurd hkey.symm (hexclusive hsleep r₁ hr₁ f₂ r₂ hr₂)
    · rcases hnew f₂ r₂ hr₂ with ⟨-, hr₂⟩ | ⟨-, hr₂⟩
      · exact absurd hkey (hexclusive hsleep r₂ hr₂ f₁ r₁ hr₁)
      · exact h.disjoint f₁ f₂ r₁ hr₁ r₂ hr₂ hkey

/-- A statement on the row of the reminder that the loop stores. -/
theorem Held.store (h : w.Held) {now : Nat} {r : ReminderState} {due : List ReminderState}
    (htask : (w.facets f).backgroundTask = .firing ⟨now, r :: due, .sent⟩) {storage : Reminders}
    (hfind : ∀ key, key ≠ r.key → storage.find key = w.storage.find key)
    (hsound : ∀ r ∈ storage.rows, r.Sound) :
    Held { w.setTask f (.firing ⟨now, r :: due, .stored⟩) with storage } := by
  have hpending : w.pending f = r :: due.filter ReminderState.sendable := by
    rw [pending, htask]
    rfl
  have hhead : r ∈ w.pending f := by
    rw [hpending]
    exact List.mem_cons_self
  have hnodup := h.nodup f
  rw [hpending, List.map_cons, List.nodup_cons] at hnodup
  -- What is left to store has other keys than the reminder that is stored.
  have hnew : ∀ f' r', r' ∈ ((w.setTask f (.firing ⟨now, r :: due, .stored⟩)).pending f') →
      r' ∈ w.pending f' ∧ r'.key ≠ r.key := by
    intro f' r' hr'
    rw [setTask, pending_setFacet] at hr'
    split_ifs at hr' with hf
    · rw [hf, hpending]
      refine ⟨List.mem_cons_of_mem _ hr', ?_⟩
      intro hkey
      exact hnodup.1 (hkey ▸ List.mem_map_of_mem hr')
    · refine ⟨hr', ?_⟩
      intro hkey
      exact hf (h.disjoint f' f r' hr' r hhead hkey)
  refine ⟨?_, ?_, ?_, ?_, hsound⟩
  · intro f' r' hr'
    obtain ⟨hmem, hkey⟩ := hnew f' r' hr'
    exact (hfind _ hkey).trans (h.stored f' r' hmem)
  · intro f' b hb r' hr'
    change ((w.setFacet f _).facets f').backgroundTask = _ at hb
    rw [setFacet_facets] at hb
    have hmem := (hnew f' r' hr').1
    split_ifs at hb with hf
    · cases hb
      exact h.due f' ⟨now, r :: due, .sent⟩ (hf ▸ htask) r' hmem
    · exact h.due f' b hb r' hmem
  · intro f'
    change (((w.setFacet f _).pending f').map ReminderState.key).Nodup
    rw [pending_setFacet]
    split_ifs
    · exact hnodup.2
    · exact h.nodup f'
  · intro f₁ f₂ r₁ hr₁ r₂ hr₂ hkey
    exact h.disjoint f₁ f₂ r₁ (hnew f₁ r₁ hr₁).1 r₂ (hnew f₂ r₂ hr₂).1 hkey

end Pending

section Rows

theorem find_unregisterReminder (t : Reminders) (actorId reminderName : String)
    (key : String × String) : (t.unregisterReminder actorId reminderName).find key =
      if key = (actorId, reminderName) then none else t.find key :=
  Table.find_deleteKeys t _ key

theorem find_updateReminder {t : Reminders} {r r' : ReminderState}
    (h : t.find r'.key = some r) (key : String × String) :
    (t.updateReminder r').find key = if key = r'.key then some r' else t.find key := by
  rw [Reminders.updateReminder, Table.find_update, h, Option.map_some,
    ReminderState.overwrite_eq (Table.key_of_find h)]

theorem next_eq {r r' : ReminderState} {now : Nat} (h : r.next now = some r') :
    r' = (r.fired now).rescheduled now ∧ (r.fired now).exhausted = false := by
  unfold ReminderState.next at h
  split_ifs at h with hexhausted
  · cases h
    exact ⟨rfl, Bool.not_eq_true _ ▸ hexhausted⟩

theorem key_of_next {r r' : ReminderState} {now : Nat} (h : r.next now = some r') :
    r'.key = r.key := by
  rw [(next_eq h).1]
  rfl

theorem find_of_next_none {r : ReminderState} {now : Nat} (t : Reminders)
    (h : r.next now = none) {t' : Reminders}
    (ht' : t' = t.unregisterReminder r.registration.actorId r.registration.reminderName) :
    (∀ key, key ≠ r.key → t'.find key = t.find key) ∧ t'.find r.key = r.next now := by
  subst ht'
  refine ⟨?_, ?_⟩
  · intro key hkey
    rw [find_unregisterReminder, if_neg]
    exact hkey
  · rw [h, find_unregisterReminder, if_pos]
    rfl

theorem find_of_next_some {r r' : ReminderState} {now : Nat} {t : Reminders}
    (hstored : t.find r.key = some r) (h : r.next now = some r') {t' : Reminders}
    (ht' : t' = t.updateReminder r') :
    (∀ key, key ≠ r.key → t'.find key = t.find key) ∧ t'.find r.key = r.next now := by
  subst ht'
  have hstored' : t.find r'.key = some r := by
    rw [key_of_next h]
    exact hstored
  have hfind := find_updateReminder hstored'
  rw [key_of_next h] at hfind
  refine ⟨?_, ?_⟩
  · intro key hkey
    rw [hfind, if_neg hkey]
  · rw [hfind, if_pos rfl, h]

theorem lt_of_not_exhausted {r : ReminderState} (h : r.exhausted = false)
    (hmax : 0 < r.registration.maxOccurrences) : r.fireCount < r.registration.maxOccurrences := by
  unfold ReminderState.exhausted at h
  rw [Bool.and_eq_false_iff, decide_eq_false_iff_not, decide_eq_false_iff_not] at h
  exact Int32.not_le.mp (h.resolve_left (not_not_intro hmax))

theorem sound_of_next {r r' : ReminderState} {now : Nat} (hr : r.Sound)
    (h : r.next now = some r') : r'.Sound := by
  obtain ⟨rfl, hexhausted⟩ := next_eq h
  exact ⟨hr.interval, lt_of_not_exhausted hexhausted⟩

/-- A sound reminder that has fired is due again only later. -/
theorem lt_nextFireTime_of_next {r r' : ReminderState} {now : Nat} (hr : r.Sound)
    (h : r.next now = some r') : ∃ t, r'.nextFireTime = some t ∧ now < t := by
  obtain ⟨rfl, -⟩ := next_eq h
  refine ⟨_, rfl, Nat.lt_add_of_pos_right ?_⟩
  change 0 < r.registration.interval.getD ReminderState.second
  rcases hinterval : r.registration.interval with _ | interval
  · exact Nat.succ_pos _
  · refine Nat.pos_of_ne_zero ?_
    rintro rfl
    exact hr.interval hinterval

end Rows

section Counting

variable {w₀ w : World F} {f : F}

/-- A message that has been sent is one of the times that the stored reminder counts, unless a
loop is about to count it. -/
structure Counted (w₀ w : World F) : Prop where
  occurrences : (w.sent.map occurrence).Nodup
  before : ∀ s ∈ w.sent, ∀ r, w.storage.find s.key = some r → ∃ t t', s.dueAt = some t ∧
    r.nextFireTime = some t' ∧ (t < t' ∨ t = t' ∧ w.SentNow s.key)
  total : ∀ key r₀, w₀.storage.find key = some r₀ → 0 < r₀.registration.maxOccurrences →
    w.storage.find key = none ∧
        r₀.fireCount.toInt + w.timesSent key ≤ r₀.registration.maxOccurrences.toInt ∨
      ∃ r, w.storage.find key = some r ∧ r.registration = r₀.registration ∧
        (r₀.fireCount.toInt + w.timesSent key ≤ r.fireCount.toInt ∨
          w.SentNow key ∧ r₀.fireCount.toInt + w.timesSent key ≤ r.fireCount.toInt + 1)

theorem toInt_fireCount_add_one {m n : Int32} (h : m < n) : (m + 1).toInt = m.toInt + 1 := by
  have hlt := Int32.lt_iff_toInt_lt.mp h
  have hle := Int32.le_toInt m
  have hn := Int32.toInt_lt n
  rw [Int32.toInt_add, Int32.toInt_one, Int.bmod_eq_of_le]
  · omega
  · omega

omit [DecidableEq F] in
/-- The reminder that a loop has sent is one that it has still to store. -/
theorem mem_pending_of_sentKey {key : String × String}
    (h : (w.facets f).backgroundTask.sentKey = some key) : ∃ r ∈ w.pending f, r.key = key := by
  rcases htask : (w.facets f).backgroundTask with _ | _ | ⟨now, _ | ⟨r, due⟩, _ | _ | _⟩
  case firing.cons.sent =>
      rw [htask] at h
      refine ⟨r, ?_, Option.some.inj h⟩
      rw [pending, htask]
      exact List.mem_cons_self
  all_goals
    rw [htask] at h
    cases h

theorem sentNow_setFacet {x : ReminderFacet} {key : String × String}
    (hf : (w.facets f).backgroundTask.sentKey ≠ some key) (h : w.SentNow key) :
    (w.setFacet f x).SentNow key := by
  obtain ⟨f', hf'⟩ := h
  refine ⟨f', ?_⟩
  rw [setFacet_facets, if_neg]
  · exact hf'
  · rintro rfl
    exact hf hf'

/-- A step that leaves the table, the messages and what is sent alone. -/
theorem Counted.setFacet (h : Counted w₀ w) {x : ReminderFacet}
    (hf : (w.facets f).backgroundTask.sentKey = none) : Counted w₀ (w.setFacet f x) := by
  have hsentNow : ∀ key, w.SentNow key → (w.setFacet f x).SentNow key := by
    intro key
    refine sentNow_setFacet ?_
    rw [hf]
    exact (Option.some_ne_none key).symm
  refine ⟨h.occurrences, ?_, ?_⟩
  · intro s hs r hr
    obtain ⟨t, t', ht, ht', hlt⟩ := h.before s hs r hr
    exact ⟨t, t', ht, ht', hlt.imp_right fun ⟨heq, hsent⟩ => ⟨heq, hsentNow _ hsent⟩⟩
  · intro key r₀ hr₀ hmax
    refine (h.total key r₀ hr₀ hmax).imp_right ?_
    rintro ⟨r, hr, hreg, hle⟩
    exact ⟨r, hr, hreg, hle.imp_right fun ⟨hsent, hle⟩ => ⟨hsentNow _ hsent, hle⟩⟩

omit [DecidableEq F] in
/-- No loop has sent the reminder that `f` is about to send. -/
theorem not_sentNow (hheld : w.Held) {now : Nat} {r : ReminderState} {due : List ReminderState}
    (htask : (w.facets f).backgroundTask = .firing ⟨now, r :: due, .ready⟩)
    (hsendable : r.sendable = true) : ¬w.SentNow r.key := by
  rintro ⟨f', hf'⟩
  obtain ⟨r', hr', hkey⟩ := mem_pending_of_sentKey hf'
  have hr : r ∈ w.pending f := by
    rw [pending, htask]
    exact List.mem_filter.mpr ⟨List.mem_cons_self, hsendable⟩
  rw [hheld.disjoint f' f r' hr' r hr hkey, htask] at hf'
  cases hf'

omit [DecidableEq F] in
/-- An occurrence that the table still holds and no loop is about to count has not been sent. -/
theorem Counted.occurrence_notMem (h : Counted w₀ w) {r : ReminderState}
    (hstored : w.storage.find r.key = some r) (hnot : ¬w.SentNow r.key) :
    (r.key, r.nextFireTime) ∉ w.sent.map occurrence := by
  intro hmem
  obtain ⟨s, hs, heq⟩ := List.mem_map.mp hmem
  have hkey : s.key = r.key := congrArg Prod.fst heq
  have hdue : s.dueAt = r.nextFireTime := congrArg Prod.snd heq
  obtain ⟨t₁, t₂, ht₁, ht₂, hlt⟩ := h.before s hs r (hkey ▸ hstored)
  rw [hdue, ht₂] at ht₁
  cases ht₁
  refine hlt.elim (lt_irrefl t₁) ?_
  rintro ⟨-, hsentNow⟩
  exact hnot (hkey ▸ hsentNow)

omit [DecidableEq F] in
theorem Counted.total_of_stored (h : Counted w₀ w) {r r₀ : ReminderState} {key : String × String}
    (hstored : w.storage.find key = some r) (hr₀ : w₀.storage.find key = some r₀)
    (hmax : 0 < r₀.registration.maxOccurrences) :
    r.registration = r₀.registration ∧
      (r₀.fireCount.toInt + w.timesSent key ≤ r.fireCount.toInt ∨
        w.SentNow key ∧ r₀.fireCount.toInt + w.timesSent key ≤ r.fireCount.toInt + 1) := by
  rcases h.total key r₀ hr₀ hmax with ⟨hgone, -⟩ | ⟨r', hr', hreg, hle⟩
  · rw [hstored] at hgone
    cases hgone
  · cases hstored.symm.trans hr'
    exact ⟨hreg, hle⟩

omit [DecidableEq F] in
theorem countP_key_concat (sent : List (Sent F)) (s : Sent F) (key : String × String) :
    (sent ++ [s]).countP (fun s => s.key = key) =
      sent.countP (fun s => s.key = key) + if s.key = key then 1 else 0 := by
  rw [List.countP_append, List.countP_singleton]
  simp only [decide_eq_true_eq]

theorem Counted.send (h : Counted w₀ w) (hheld : w.Held) {now : Nat} {r : ReminderState}
    {due : List ReminderState} {sent : List (Sent F)}
    (htask : (w.facets f).backgroundTask = .firing ⟨now, r :: due, .ready⟩)
    (hsendable : r.sendable = true)
    (hsent : sent = w.sent ∨ sent = w.sent ++ [⟨f, r.key, r.nextFireTime, now⟩]) :
    Counted w₀ { w.setTask f (.firing ⟨now, r :: due, .sent⟩) with sent } := by
  have hnone : (w.facets f).backgroundTask.sentKey = none := by
    rw [htask]
    rfl
  have htask' := h.setFacet (x := { w.facets f with
    backgroundTask := .firing ⟨now, r :: due, .sent⟩ }) hnone
  rcases hsent with rfl | rfl
  · exact htask'
  have hnot := not_sentNow hheld htask hsendable
  have hmem : r ∈ w.pending f := by
    rw [pending, htask]
    exact List.mem_filter.mpr ⟨List.mem_cons_self, hsendable⟩
  have hstored := hheld.stored f r hmem
  obtain ⟨t, ht, -⟩ := hheld.due f _ htask r hmem
  have hnow : SentNow { w.setTask f (.firing ⟨now, r :: due, .sent⟩) with
      sent := w.sent ++ [⟨f, r.key, r.nextFireTime, now⟩] } r.key := by
    refine ⟨f, ?_⟩
    change ((w.setFacet f _).facets f).backgroundTask.sentKey = _
    rw [setFacet_facets, if_pos rfl]
    rfl
  refine ⟨?_, ?_, ?_⟩
  · rw [List.map_append, List.map_singleton]
    refine List.nodup_append.mpr ⟨h.occurrences, List.nodup_singleton _, ?_⟩
    rintro o ho o' ho' rfl
    rw [List.mem_singleton.mp ho'] at ho
    exact h.occurrence_notMem hstored hnot ho
  · intro s hs r' hr'
    rcases List.mem_append.mp hs with hs | hs
    · exact htask'.before s hs r' hr'
    · rw [List.mem_singleton.mp hs] at hr' ⊢
      cases hstored.symm.trans hr'
      exact ⟨t, t, ht, ht, .inr ⟨rfl, hnow⟩⟩
  · intro key r₀ hr₀ hmax
    rw [timesSent, countP_key_concat]
    by_cases hkey : key = r.key
    · subst hkey
      obtain ⟨hreg, hle⟩ := h.total_of_stored hstored hr₀ hmax
      have hle := hle.resolve_right fun ⟨hsentNow, _⟩ => hnot hsentNow
      refine .inr ⟨r, hstored, hreg, .inr ⟨hnow, ?_⟩⟩
      rw [if_pos rfl]
      rw [timesSent] at hle
      push_cast
      omega
    · rw [if_neg (Ne.symm hkey)]
      exact htask'.total key r₀ hr₀ hmax

theorem Counted.store (h : Counted w₀ w) (hheld : w.Held) {now : Nat} {r : ReminderState}
    {due : List ReminderState}
    (htask : (w.facets f).backgroundTask = .firing ⟨now, r :: due, .sent⟩) {storage : Reminders}
    (hother : ∀ key, key ≠ r.key → storage.find key = w.storage.find key)
    (hself : storage.find r.key = r.next now) :
    Counted w₀ { w.setTask f (.firing ⟨now, r :: due, .stored⟩) with storage } := by
  have hmem : r ∈ w.pending f := by
    rw [pending, htask]
    exact List.mem_cons_self
  have hstored := hheld.stored f r hmem
  have hsound := hheld.sound r (List.mem_of_find?_eq_some hstored)
  obtain ⟨t, ht, hdue⟩ := hheld.due f _ htask r hmem
  have hsentNow : ∀ key, key ≠ r.key → w.SentNow key →
      SentNow { w.setTask f (.firing ⟨now, r :: due, .stored⟩) with storage } key := by
    intro key hkey hsent
    refine sentNow_setFacet (f := f) ?_ hsent
    rw [htask]
    intro heq
    exact hkey (Option.some.inj heq).symm
  refine ⟨h.occurrences, ?_, ?_⟩
  · intro s hs r' hr'
    change storage.find s.key = some r' at hr'
    by_cases hkey : s.key = r.key
    · -- The next time is after the query, and so after all times that were due.
      rw [hkey, hself] at hr'
      obtain ⟨t', ht', hnow⟩ := lt_nextFireTime_of_next hsound hr'
      obtain ⟨t₁, t₂, ht₁, ht₂, hlt⟩ := h.before s hs r (hkey ▸ hstored)
      rw [ht] at ht₂
      cases ht₂
      have hle : t₁ ≤ t := hlt.elim le_of_lt fun ⟨heq, _⟩ => heq.le
      exact ⟨t₁, t', ht₁, ht', .inl (hle.trans_lt (hdue.trans_lt hnow))⟩
    · rw [hother _ hkey] at hr'
      obtain ⟨t₁, t₂, ht₁, ht₂, hlt⟩ := h.before s hs r' hr'
      exact ⟨t₁, t₂, ht₁, ht₂, hlt.imp_right fun ⟨heq, hsent⟩ => ⟨heq, hsentNow _ hkey hsent⟩⟩
  · intro key r₀ hr₀ hmax
    change storage.find key = none ∧ r₀.fireCount.toInt + (w.timesSent key : Int) ≤ _ ∨
      ∃ r, storage.find key = some r ∧ r.registration = r₀.registration ∧
        (r₀.fireCount.toInt + (w.timesSent key : Int) ≤ r.fireCount.toInt ∨
          _ ∧ r₀.fireCount.toInt + (w.timesSent key : Int) ≤ r.fireCount.toInt + 1)
    by_cases hkey : key = r.key
    · subst hkey
      rw [hself]
      obtain ⟨hreg, hle⟩ := h.total_of_stored hstored hr₀ hmax
      have hle : r₀.fireCount.toInt + (w.timesSent r.key : Int) ≤ r.fireCount.toInt + 1 := by
        rcases hle with hle | ⟨-, hle⟩
        · omega
        · exact hle
      have hlt := hsound.fireCount (hreg ▸ hmax)
      have hcount := toInt_fireCount_add_one hlt
      rcases hnext : r.next now with _ | r'
      · refine .inl ⟨rfl, ?_⟩
        have hmax' := Int32.lt_iff_toInt_lt.mp hlt
        rw [hreg] at hmax'
        omega
      · refine .inr ⟨r', rfl, ?_, .inl ?_⟩
        · rw [(next_eq hnext).1]
          exact hreg
        · rw [(next_eq hnext).1]
          change _ ≤ (r.fireCount + 1).toInt
          omega
    · rw [hother _ hkey]
      refine (h.total key r₀ hr₀ hmax).imp_right ?_
      rintro ⟨r', hr', hreg, hle⟩
      exact ⟨r', hr', hreg, hle.imp_right fun ⟨hsent, hle⟩ => ⟨hsentNow _ hkey hsent, hle⟩⟩

end Counting

section Quiet

variable {w₀ w : World F}

omit [DecidableEq F]

theorem held_of_quiet (h : w.Quiet) : w.Held := by
  have hpending : ∀ f, w.pending f = [] := by
    intro f
    rw [pending]
    rcases h.tasks f with htask | htask <;> rw [htask] <;> rfl
  refine ⟨?_, ?_, ?_, ?_, h.sound⟩
  · intro f r hr
    rw [hpending] at hr
    cases hr
  · intro f b _ r hr
    rw [hpending] at hr
    cases hr
  · intro f
    rw [hpending]
    exact List.nodup_nil
  · intro f f' r hr
    rw [hpending] at hr
    cases hr

theorem counted_of_quiet (h : w.Quiet) : Counted w w := by
  refine ⟨?_, ?_, ?_⟩
  · rw [h.sent]
    exact List.nodup_nil
  · intro s hs
    rw [h.sent] at hs
    cases hs
  · intro key r₀ hr₀ _
    refine .inr ⟨r₀, hr₀, rfl, .inl ?_⟩
    rw [timesSent, h.sent]
    simp

theorem firesAtMostOnce_of_counted (hheld : w.Held) (h : Counted w₀ w) :
    FiresAtMostOnce w₀ w := by
  refine ⟨h.occurrences, ?_⟩
  intro key r₀ hr₀ hmax
  rcases h.total key r₀ hr₀ hmax with ⟨-, hle⟩ | ⟨r, hr, hreg, hle⟩
  · exact hle
  · have hsound := hheld.sound r (List.mem_of_find?_eq_some hr)
    have hlt := Int32.lt_iff_toInt_lt.mp (hsound.fireCount (hreg ▸ hmax))
    rw [hreg] at hlt
    rcases hle with hle | ⟨-, hle⟩ <;> omega

theorem sound_of_checkRegistration {x : ReminderFacet} {reg : ReminderRegistration} {now : Nat}
    {r : ReminderState} (h : x.checkRegistration reg now = .ok r) : r.Sound := by
  unfold ReminderFacet.checkRegistration at h
  split_ifs at h
  split at h
  · cases h
  · rename_i interval hinterval
    split_ifs at h with hzero
    cases h
    refine ⟨?_, id⟩
    rw [hinterval]
    exact fun hsome => hzero (Option.some.inj hsome)

end Quiet

section Steps

variable {w₀ w : World F}

theorem held_counted_step (hheld : w.Held) (hcounted : Counted w₀ w) (a : F × LoopAction)
    (ha : w.Exclusive a) : (w.fireStep a).Held ∧ Counted w₀ (w.fireStep a) := by
  obtain ⟨f, a⟩ := a
  unfold fireStep
  have hfires := loopStep_fires w f a
  generalize hw : w.loopStep f a = w' at hfires
  have hnone : ∀ {now r due}, (w.facets f).backgroundTask = .firing ⟨now, r :: due, .ready⟩ ∨
      (w.facets f).backgroundTask = .firing ⟨now, r :: due, .stored⟩ →
      (w.facets f).backgroundTask.sentKey = none := by
    rintro now r due (htask | htask) <;> rw [htask] <;> rfl
  cases hfires with
  | waits => exact ⟨hheld, hcounted⟩
  | queries now htask =>
      refine ⟨hheld.query htask ha, hcounted.setFacet ?_⟩
      rw [htask]
      rfl
  | @skips _ now r due htask hsendable =>
      refine ⟨hheld.setFacet ?_ ?_, hcounted.setFacet (hnone (.inl htask))⟩
      · rw [pending_resume, pending, htask]
        exact (List.filter_cons_of_neg (by rw [hsendable]; exact Bool.false_ne_true)).symm
      · intro b hb
        exact ⟨_, htask, by rw [resume_eq_firing hb]⟩
  | @sends _ now r due sent htask hsendable hsent =>
      refine ⟨?_, hcounted.send hheld htask hsendable hsent⟩
      have hset : (w.setTask f (.firing ⟨now, r :: due, .sent⟩)).Held := by
        refine hheld.setFacet ?_ ?_
        · rw [pending, htask]
          exact (List.filter_cons_of_pos hsendable).symm
        · rintro b ⟨⟩
          exact ⟨_, htask, rfl⟩
      exact ⟨hset.stored, hset.due, hset.nodup, hset.disjoint, hset.sound⟩
  | @deletes now r due htask hnext =>
      obtain ⟨hother, hself⟩ := find_of_next_none w.storage hnext rfl
      refine ⟨hheld.store htask hother ?_, hcounted.store hheld htask hother hself⟩
      intro r' hr'
      exact hheld.sound r' (List.mem_filter.mp hr').1
  | @updates now r r' due htask hnext =>
      have hmem : r ∈ w.pending f := by
        rw [pending, htask]
        exact List.mem_cons_self
      have hstored := hheld.stored f r hmem
      have hsound := hheld.sound r (List.mem_of_find?_eq_some hstored)
      obtain ⟨hother, hself⟩ := find_of_next_some hstored hnext rfl
      refine ⟨hheld.store htask hother ?_, hcounted.store hheld htask hother hself⟩
      intro r₁ hr₁
      have hfind := Table.find_of_mem hr₁
      by_cases hkey : r₁.key = r.key
      · rw [hkey, hself, hnext] at hfind
        cases hfind
        exact sound_of_next hsound hnext
      · rw [hother _ hkey] at hfind
        exact hheld.sound r₁ (List.mem_of_find?_eq_some hfind)
  | @remembers now r due reminders htask _ _ =>
      refine ⟨hheld.setFacet ?_ ?_, hcounted.setFacet (hnone (.inr htask))⟩
      · rw [pending_resume, pending, htask]
        rfl
      · intro b hb
        exact ⟨_, htask, by rw [resume_eq_firing hb]⟩

/-- In a run of the loops in which no query returns a reminder that another loop has still to
store, every occurrence is sent at most once, and no reminder more often than it may. -/
theorem fires_at_most_once (w : World F) (hw : w.Quiet) (as : List (F × LoopAction))
    (hrun : Along fireStep Exclusive w as) : FiresAtMostOnce w (run fireStep w as) := by
  obtain ⟨hheld, hcounted⟩ := hrun.invariant (I := fun w' => w'.Held ∧ Counted w w')
    (fun w' a h ha => held_counted_step h.1 h.2 a ha) ⟨held_of_quiet hw, counted_of_quiet hw⟩
  exact firesAtMostOnce_of_counted hheld hcounted

end Steps

section Examples

def onceReminder : ReminderState where
  registration := ⟨"w//t::ns@n", "wake", some 1, none, [], true, 1⟩
  lastFired := none
  nextFireTime := some 0
  fireCount := 0
  isActive := true

/-- Two facets whose loops sleep over a table with this reminder. -/
def twoLoops : World Bool where
  storage := ⟨[onceReminder], List.pairwise_singleton _ _⟩
  facets := fun _ => ⟨none, ∅, .sleeping, none⟩
  sent := []
  paused := []

theorem quiet_twoLoops : twoLoops.Quiet := by
  refine ⟨fun _ => .inr rfl, rfl, ?_⟩
  intro r hr
  rw [List.mem_singleton.mp hr]
  exact ⟨by decide, by decide⟩

theorem fires_at_most_once_twoLoops : FiresAtMostOnce twoLoops (run fireStep twoLoops
    [(false, .query 1), (false, .send true), (false, .store), (true, .query 2)]) := by
  refine fires_at_most_once twoLoops quiet_twoLoops _ ⟨?_, trivial, trivial, ?_, trivial⟩
  · intro _ r _ f r' hr'
    cases hr'
  · intro _ r hr
    have hdue : (run fireStep twoLoops [(false, .query 1), (false, .send true),
        (false, .store)]).storage.queryDueReminders 2 = [] := by decide +kernel
    change r ∈ (run fireStep twoLoops [(false, .query 1), (false, .send true),
        (false, .store)]).storage.queryDueReminders 2 at hr
    rw [hdue] at hr
    cases hr

/-- Both loops query the table before one of them has stored the reminder. -/
theorem not_firesAtMostOnce :
    ¬∀ (w : World Bool) (as : List (Bool × LoopAction)), w.Quiet →
      FiresAtMostOnce w (run fireStep w as) := by
  intro h
  have htotal := (h twoLoops
    [(false, .query 1), (true, .query 1), (false, .send true), (true, .send true)]
    quiet_twoLoops).total onceReminder.key onceReminder (by decide) (by decide)
  have htimes : (run fireStep twoLoops [(false, .query 1), (true, .query 1),
      (false, .send true), (true, .send true)]).timesSent onceReminder.key = 2 := by
    decide +kernel
  rw [htimes] at htotal
  exact absurd htotal (by decide)

end Examples

end World

end PlexSpaces.Journaling
