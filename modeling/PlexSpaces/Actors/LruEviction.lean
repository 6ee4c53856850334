import Mathlib.Data.List.Perm.Subperm
import Mathlib.Data.List.Sort
import Mathlib.Logic.Function.Basic
import PlexSpaces.Lib.Run
/-!
# The eviction of virtual actors

The manager tracks the active instances of an actor type with the times of their last access.
Before an activation `evict_lru_if_needed` takes the least recently accessed lazy instances off
the list, as many as make room for one more, and stops those whose activation guard is free.
An instance that is not stopped, for want of an actor factory or because `stop_actor` fails, is
off the list and still active: no later call finds it (`not_evictsLru`).  Nothing else goes
wrong (`evictsLru_iff`).

The actors are those of one type, and virtual.  The times are those of the list.
-/

namespace PlexSpaces.Actors

open PlexSpaces.Lib

inductive ActivationStrategy
  | unspecified
  | lazy
  | eager
  | prewarm
  deriving DecidableEq

def isLazy : Option ActivationStrategy → Bool
  | none | some .unspecified | some .lazy => true
  | some .eager | some .prewarm => false

structure ActiveInstance (κ : Type) where
  actorId : κ
  lastAccess : Nat
  deriving DecidableEq

/-- The answer of `stop_actor`; one that fails leaves the actor active or not. -/
inductive StopAnswer
  | ok
  | error (active : Bool)
  deriving DecidableEq

/-- The entry of `active_instances_by_type`, the actors whose state is active, and the guards of
the activations in flight. -/
structure LruPool (κ : Type) where
  instances : Option (List (ActiveInstance κ))
  active : κ → Bool
  inFlight : List κ

/-- The service locator, if there is one, and for each actor the answer of `stop_actor`, if there
is an actor factory. -/
abbrev Services (κ : Type) := Option (κ → Option StopAnswer)

namespace LruPool

variable {κ : Type} [DecidableEq κ] (strategy : κ → Option ActivationStrategy) (maxPool : Nat)
  (s : LruPool κ)

def start : LruPool κ := ⟨none, fun _ => false, []⟩

/-- A new time for the first entry of an actor. -/
def access (a : κ) (now : Nat) : List (ActiveInstance κ) → List (ActiveInstance κ)
  | [] => []
  | i :: rest =>
      if i.actorId = a then { i with lastAccess := now } :: rest else i :: access a now rest

def markActivated (a : κ) (now : Nat) : LruPool κ :=
  let instances := s.instances.getD []
  { s with
    instances := some (if instances.any (·.actorId = a) then access a now instances
      else instances ++ [⟨a, now⟩]) }

def updateLastAccess (a : κ) (now : Nat) : LruPool κ :=
  { s with instances := s.instances.map (access a now) }

def removeFromActiveTracking (a : κ) : LruPool κ :=
  { s with instances := s.instances.map fun instances => instances.filter (·.actorId ≠ a) }

def activate (a : κ) (now : Nat) : LruPool κ :=
  { s with active := Function.update s.active a true }.markActivated a now

def stopActor (a : κ) : StopAnswer → LruPool κ
  | .ok => { s with active := Function.update s.active a false }.removeFromActiveTracking a
  | .error active => { s with active := Function.update s.active a (s.active a && active) }

def activeOnly : List (ActiveInstance κ) :=
  (s.instances.getD []).filter fun i => isLazy (strategy i.actorId) && s.active i.actorId

/-- The least recently accessed of them, all but one fewer than the pool has room for. -/
def surplus : List κ :=
  ((((s.activeOnly strategy).insertionSort (·.lastAccess ≤ ·.lastAccess)).take
    ((s.activeOnly strategy).length - (maxPool - 1))).map (·.actorId))

/-- The loop over the evicted actors: those whose guard is free, and new entries for the others. -/
def acquireGuards (now : κ → Nat) : List κ → List κ → List κ × List (ActiveInstance κ)
  | _, [] => ([], [])
  | inFlight, a :: rest =>
      if a ∈ inFlight then
        ((acquireGuards now inFlight rest).1, ⟨a, now a⟩ :: (acquireGuards now inFlight rest).2)
      else
        (a :: (acquireGuards now (a :: inFlight) rest).1,
          (acquireGuards now (a :: inFlight) rest).2)

/-- The loop over the guarded actors, which releases each guard. -/
def stopGuarded (services : Services κ) (guarded : List κ) : LruPool κ :=
  guarded.foldl (fun s a =>
    match services.bind (· a) with
    | some answer => s.stopActor a answer
    | none => s) s

def evictLruIfNeeded (services : Services κ) (now : κ → Nat) : List κ × LruPool κ :=
  match s.instances with
  | none => ([], s)
  | some instances =>
      if (s.activeOnly strategy).length < maxPool then
        ([], { s with instances := some (s.activeOnly strategy) })
      else
        let evicted := s.surplus strategy maxPool
        let (guarded, restored) := acquireGuards now s.inFlight evicted
        let retained := instances.filter (·.actorId ∉ evicted)
        (guarded, { s with instances := some (retained ++ restored) }.stopGuarded services guarded)

/-- A call of the manager, a stop of an actor, or the beginning or the end of an activation. -/
inductive Step (κ : Type)
  | activate (a : κ) (now : Nat)
  | updateLastAccess (a : κ) (now : Nat)
  | stop (a : κ) (answer : StopAnswer)
  | tryAcquireActivation (a : κ)
  | releaseActivationGuard (a : κ)
  | evict (services : Services κ) (now : κ → Nat)

def step : Step κ → LruPool κ
  | .activate a now => s.activate a now
  | .updateLastAccess a now => s.updateLastAccess a now
  | .stop a answer => s.stopActor a answer
  | .tryAcquireActivation a => if a ∈ s.inFlight then s else { s with inFlight := a :: s.inFlight }
  | .releaseActivationGuard a => { s with inFlight := s.inFlight.filter (· ≠ a) }
  | .evict services now => (s.evictLruIfNeeded strategy maxPool services now).2

def tracked : List κ := (s.instances.getD []).map (·.actorId)

def TracksActive : Prop :=
  ∀ a, s.active a → isLazy (strategy a) → s.tracked.count a = 1

/-- What a call of `evict_lru_if_needed` does: it stops active lazy instances whose guard is free,
the least recently accessed of these, and makes room when no activation is in flight and every
stop succeeds. -/
structure EvictsLru (services : Services κ) (stopped : List κ) (s' : LruPool κ) : Prop where
  activeLazy : ∀ a ∈ stopped, s.active a ∧ isLazy (strategy a)
  free : ∀ a ∈ stopped, a ∉ s.inFlight
  leastRecent : ∀ i ∈ s.activeOnly strategy, i.actorId ∈ stopped →
    ∀ j ∈ s.activeOnly strategy, j.actorId ∉ stopped → j.actorId ∉ s.inFlight →
      i.lastAccess ≤ j.lastAccess
  room : s.inFlight = [] → (∀ a ∈ stopped, services.bind (· a) = some .ok) →
    ∀ l : List κ, l.Nodup → (∀ a ∈ l, s'.active a ∧ isLazy (strategy a)) → l.length < maxPool

def StepEvicts (a : Step κ) : Prop :=
  (s.step strategy maxPool a).TracksActive strategy ∧ ∀ services now, a = .evict services now →
    s.EvictsLru strategy maxPool services (s.evictLruIfNeeded strategy maxPool services now).1
      (s.evictLruIfNeeded strategy maxPool services now).2

def staysActive (services : Services κ) (a : κ) : Bool :=
  match services.bind (· a) with
  | none => true
  | some .ok => false
  | some (.error active) => active

/-- Every actor that is to be evicted and has a free guard is stopped. -/
def StopsAll : Step κ → Prop
  | .evict services _ =>
      ∀ a ∈ s.surplus strategy maxPool, a ∉ s.inFlight → staysActive services a = false
  | _ => True

/-! ## The tracked list -/

omit [DecidableEq κ] in
/-- What every step keeps, and what a good one does. -/
structure Exact : Prop where
  nodup : s.tracked.Nodup
  mem : ∀ a, s.active a → isLazy (strategy a) → a ∈ s.tracked

variable {strategy maxPool s} {a : κ} {now : Nat}

theorem Exact.tracksActive (h : s.Exact strategy) : s.TracksActive strategy :=
  fun a hactive hlazy => List.count_eq_one_of_mem h.nodup (h.mem a hactive hlazy)

theorem exact_of_tracksActive (hnodup : s.tracked.Nodup) (h : s.TracksActive strategy) :
    s.Exact strategy where
  nodup := hnodup
  mem := fun a hactive hlazy => List.count_pos_iff.mp (by rw [h a hactive hlazy]; decide)

theorem map_actorId_access (a : κ) (now : Nat) (instances : List (ActiveInstance κ)) :
    (access a now instances).map (·.actorId) = instances.map (·.actorId) := by
  induction instances with
  | nil => rfl
  | cons i rest ih =>
      rw [access]
      split
      · rfl
      · rw [List.map_cons, List.map_cons, ih]

theorem tracked_updateLastAccess : (s.updateLastAccess a now).tracked = s.tracked := by
  unfold updateLastAccess tracked
  cases s.instances with
  | none => rfl
  | some instances => exact map_actorId_access a now instances

/-- An actor that is marked comes onto the list unless it is there. -/
theorem tracked_markActivated : (s.markActivated a now).tracked =
    if a ∈ s.tracked then s.tracked else s.tracked ++ [a] := by
  have hany : (s.instances.getD []).any (·.actorId = a) = true ↔ a ∈ s.tracked := by
    simp [tracked]
  unfold markActivated
  by_cases ha : a ∈ s.tracked
  · simp only [hany.mpr ha, if_true, if_pos ha]
    exact map_actorId_access a now _
  · simp only [Bool.eq_false_iff.mpr (mt hany.mp ha), Bool.false_eq_true, if_false, if_neg ha]
    simp [tracked]

theorem tracked_removeFromActiveTracking :
    (s.removeFromActiveTracking a).tracked = s.tracked.filter (· ≠ a) := by
  unfold removeFromActiveTracking tracked
  cases s.instances with
  | none => rfl
  | some instances => exact (List.filter_map (p := (· ≠ a)) (f := ActiveInstance.actorId)).symm

theorem active_activate : (s.activate a now).active = Function.update s.active a true := rfl

theorem active_stopActor_ok : (s.stopActor a .ok).active = Function.update s.active a false := rfl

theorem active_stopActor_error (active : Bool) : (s.stopActor a (.error active)).active =
    Function.update s.active a (s.active a && active) := rfl

theorem exact_activate (h : s.Exact strategy) : (s.activate a now).Exact strategy := by
  have htracked : (s.activate a now).tracked =
      if a ∈ s.tracked then s.tracked else s.tracked ++ [a] := tracked_markActivated
  constructor
  · rw [htracked]
    split
    · exact h.nodup
    next ha =>
      refine List.nodup_append.mpr ⟨h.nodup, List.nodup_singleton a, ?_⟩
      rintro b hb c hc rfl
      exact ha (List.mem_singleton.mp hc ▸ hb)
  · intro b hactive hlazy
    rw [htracked]
    by_cases hb : b = a
    · split
      · rwa [hb]
      · rw [hb]; simp
    · rw [active_activate, Function.update_of_ne hb] at hactive
      have hmem := h.mem b hactive hlazy
      split
      · exact hmem
      · exact List.mem_append_left _ hmem

/-- An actor that is stopped is off the list, or still on it and perhaps not active. -/
theorem exact_stopActor (h : s.Exact strategy) (answer : StopAnswer) :
    (s.stopActor a answer).Exact strategy := by
  cases answer with
  | ok =>
      have htracked : (s.stopActor a .ok).tracked = s.tracked.filter (· ≠ a) :=
        tracked_removeFromActiveTracking
      constructor
      · rw [htracked]
        exact h.nodup.filter _
      · intro b hactive hlazy
        rw [active_stopActor_ok] at hactive
        have hb : b ≠ a := by
          rintro rfl
          rw [Function.update_self] at hactive
          cases hactive
        rw [Function.update_of_ne hb] at hactive
        rw [htracked, List.mem_filter, decide_eq_true_eq]
        exact ⟨h.mem b hactive hlazy, hb⟩
  | error active =>
      refine ⟨h.nodup, fun b hactive hlazy => h.mem b ?_ hlazy⟩
      rw [active_stopActor_error] at hactive
      by_cases hb : b = a
      · rw [hb, Function.update_self, Bool.and_eq_true] at hactive
        exact hb ▸ hactive.1
      · rwa [Function.update_of_ne hb] at hactive

/-! ## What an eviction takes -/

omit [DecidableEq κ] in
theorem activeOnly_sublist : ((s.activeOnly strategy).map (·.actorId)).Sublist s.tracked :=
  List.filter_sublist.map _

omit [DecidableEq κ] in
theorem mem_activeOnly {i : ActiveInstance κ} : i ∈ s.activeOnly strategy ↔
    i ∈ s.instances.getD [] ∧ isLazy (strategy i.actorId) ∧ s.active i.actorId := by
  rw [activeOnly, List.mem_filter, Bool.and_eq_true]

omit [DecidableEq κ] in
theorem mem_map_activeOnly : a ∈ (s.activeOnly strategy).map (·.actorId) ↔
    a ∈ s.tracked ∧ isLazy (strategy a) ∧ s.active a := by
  simp only [List.mem_map, mem_activeOnly, tracked]
  constructor
  · rintro ⟨i, ⟨hi, hgood⟩, rfl⟩
    exact ⟨⟨i, hi, rfl⟩, hgood⟩
  · rintro ⟨⟨i, hi, rfl⟩, hgood⟩
    exact ⟨i, ⟨hi, hgood⟩, rfl⟩

omit [DecidableEq κ] in
theorem surplus_subperm : (s.surplus strategy maxPool).Subperm
    ((s.activeOnly strategy).map (·.actorId)) :=
  ((List.take_sublist _ _).map _).subperm.trans ((List.perm_insertionSort _ _).map _).subperm

omit [DecidableEq κ] in
theorem length_surplus : (s.surplus strategy maxPool).length =
    (s.activeOnly strategy).length - (maxPool - 1) := by
  rw [surplus, List.length_map, List.length_take, List.length_insertionSort]
  omega

omit [DecidableEq κ] in
theorem nodup_surplus (h : s.tracked.Nodup) : (s.surplus strategy maxPool).Nodup := by
  obtain ⟨l, hperm, hsub⟩ : (s.surplus strategy maxPool).Subperm
    ((s.activeOnly strategy).map (·.actorId)) := surplus_subperm
  exact hperm.nodup_iff.mp ((h.sublist activeOnly_sublist).sublist hsub)

omit [DecidableEq κ] in
theorem mem_surplus (ha : a ∈ s.surplus strategy maxPool) :
    a ∈ s.tracked ∧ isLazy (strategy a) ∧ s.active a :=
  mem_map_activeOnly.mp (surplus_subperm.subset ha)

omit [DecidableEq κ] in
/-- What is taken was accessed no later than what is left. -/
theorem lastAccess_le (hnodup : s.tracked.Nodup) {i j : ActiveInstance κ}
    (hi : i ∈ s.activeOnly strategy) (htaken : i.actorId ∈ s.surplus strategy maxPool)
    (hj : j ∈ s.activeOnly strategy) (hleft : j.actorId ∉ s.surplus strategy maxPool) :
    i.lastAccess ≤ j.lastAccess := by
  set sorted := (s.activeOnly strategy).insertionSort (·.lastAccess ≤ ·.lastAccess) with hsorted
  set count := (s.activeOnly strategy).length - (maxPool - 1) with hcount
  have hpairwise : sorted.Pairwise (·.lastAccess ≤ ·.lastAccess) :=
    List.pairwise_insertionSort _ _
  obtain ⟨i', hi', hsame⟩ := List.mem_map.mp htaken
  have hids : ((s.activeOnly strategy).map (·.actorId)).Nodup := hnodup.sublist activeOnly_sublist
  have hmem : i' ∈ s.activeOnly strategy :=
    (List.perm_insertionSort _ _).subset (List.mem_of_mem_take hi')
  obtain rfl : i' = i := List.inj_on_of_nodup_map hids hmem hi hsame
  have hj' : j ∈ sorted.drop count := by
    have hin : j ∈ sorted.take count ++ sorted.drop count := by
      rw [List.take_append_drop]
      exact (List.perm_insertionSort _ _).symm.subset hj
    refine (List.mem_append.mp hin).resolve_left fun hmemTake => hleft ?_
    exact List.mem_map_of_mem hmemTake
  rw [← List.take_append_drop count sorted, List.pairwise_append] at hpairwise
  exact hpairwise.2.2 i' hi' j hj'

theorem acquireGuards_eq (now : κ → Nat) {evicted : List κ} (hnodup : evicted.Nodup)
    (inFlight : List κ) : acquireGuards now inFlight evicted =
      (evicted.filter (· ∉ inFlight), (evicted.filter (· ∈ inFlight)).map fun a => ⟨a, now a⟩) := by
  induction evicted generalizing inFlight with
  | nil => rfl
  | cons a rest ih =>
      obtain ⟨ha, hrest⟩ := List.nodup_cons.mp hnodup
      rw [acquireGuards]
      split
      next hin => simp [ih hrest, hin]
      next hout =>
        have hsame : ∀ b ∈ rest, (b ∈ a :: inFlight ↔ b ∈ inFlight) := by
          intro b hb
          rw [List.mem_cons]
          refine or_iff_right ?_
          rintro rfl
          exact ha hb
        have hfree : rest.filter (· ∉ a :: inFlight) = rest.filter (· ∉ inFlight) :=
          List.filter_congr fun b hb => decide_eq_decide.mpr (not_congr (hsame b hb))
        have hheld : rest.filter (· ∈ a :: inFlight) = rest.filter (· ∈ inFlight) :=
          List.filter_congr fun b hb => decide_eq_decide.mpr (hsame b hb)
        rw [ih hrest, hfree, hheld]
        simp [hout]

theorem stopGuarded_tracked (services : Services κ) {guarded : List κ}
    (h : ∀ a ∈ guarded, a ∉ s.tracked) : (s.stopGuarded services guarded).tracked = s.tracked := by
  induction guarded generalizing s with
  | nil => rfl
  | cons a rest ih =>
      have ha := h a List.mem_cons_self
      have hrest : ∀ b ∈ rest, b ∉ s.tracked := fun b hb => h b (List.mem_cons_of_mem a hb)
      rw [stopGuarded, List.foldl_cons, ← stopGuarded]
      split
      next answer _ =>
        have hstop : (s.stopActor a answer).tracked = s.tracked := by
          cases answer with
          | ok =>
              refine tracked_removeFromActiveTracking.trans (List.filter_eq_self.mpr ?_)
              rintro b hb
              exact decide_eq_true fun hba => ha (hba ▸ hb)
          | error active => rfl
        rw [ih (by rwa [hstop]), hstop]
      · exact ih hrest

theorem stopGuarded_active (services : Services κ) (guarded : List κ) (b : κ) :
    (s.stopGuarded services guarded).active b =
      (s.active b && (decide (b ∉ guarded) || staysActive services b)) := by
  induction guarded generalizing s with
  | nil => simp [stopGuarded]
  | cons a rest ih =>
      rw [stopGuarded, List.foldl_cons, ← stopGuarded, ih]
      by_cases hb : b = a
      · subst hb
        unfold staysActive
        cases hanswer : services.bind (· b) with
        | none => simp
        | some answer =>
            cases answer with
            | ok => simp [active_stopActor_ok]
            | error active => cases active <;> simp [active_stopActor_error]
      · have hsame : (match services.bind (· a) with
            | some answer => s.stopActor a answer
            | none => s).active b = s.active b := by
          split
          next answer _ =>
            cases answer with
            | ok => rw [active_stopActor_ok, Function.update_of_ne hb]
            | error active => rw [active_stopActor_error, Function.update_of_ne hb]
          · rfl
        rw [hsame]
        simp [hb]

section Evict

variable (services : Services κ) (now' : κ → Nat)

/-- What an eviction does that takes some actors off the list and stops them. -/
structure Takes (strategy : κ → Option ActivationStrategy) (s : LruPool κ)
    (services : Services κ) (taken : List κ) (answer : List κ × LruPool κ) : Prop where
  stopped : answer.1 = taken
  nodup : answer.2.tracked.Nodup
  mem : ∀ a, isLazy (strategy a) → s.active a →
    (a ∈ answer.2.tracked ↔ a ∈ s.tracked ∧ a ∉ taken)
  active : ∀ a, answer.2.active a =
    (s.active a && (decide (a ∉ taken) || staysActive services a))

theorem takes_nothing (h : s.tracked.Nodup) :
    Takes strategy s services [] ([], s) where
  stopped := rfl
  nodup := h
  mem := by simp
  active := by simp

/-- Below the limit the list is left with the active lazy instances. -/
theorem takes_activeOnly (h : s.tracked.Nodup) : Takes strategy s services []
    ([], { s with instances := some (s.activeOnly strategy) }) where
  stopped := rfl
  nodup := h.sublist activeOnly_sublist
  mem := by
    intro a hlazy hactive
    change a ∈ (s.activeOnly strategy).map (·.actorId) ↔ _
    rw [mem_map_activeOnly]
    simp [hlazy, hactive]
  active := by simp

/-- What is written back: the actors that are not evicted, and those whose guard is held. -/
theorem tracked_written {instances : List (ActiveInstance κ)} (hsome : s.instances = some instances)
    (evicted inFlight : List κ) :
    ({ s with instances := some (instances.filter (·.actorId ∉ evicted) ++
      (evicted.filter (· ∈ inFlight)).map fun a => ⟨a, now' a⟩) } : LruPool κ).tracked =
        s.tracked.filter (· ∉ evicted) ++ evicted.filter (· ∈ inFlight) := by
  have htracked : s.tracked = instances.map (·.actorId) := by rw [tracked, hsome]; rfl
  rw [htracked, tracked]
  simp only [Option.getD_some, List.map_append, List.map_map]
  congr 1
  · exact (List.filter_map (p := (· ∉ evicted)) (f := ActiveInstance.actorId)).symm
  · exact List.map_id _

theorem takes_free (h : s.tracked.Nodup) {evicted : List κ} (hnodup : evicted.Nodup)
    (hsub : ∀ a ∈ evicted, a ∈ s.tracked) {written : LruPool κ}
    (hids : written.tracked = s.tracked.filter (· ∉ evicted) ++ evicted.filter (· ∈ s.inFlight))
    (hactive : written.active = s.active) :
    Takes strategy s services (evicted.filter (· ∉ s.inFlight)) (evicted.filter (· ∉ s.inFlight),
      written.stopGuarded services (evicted.filter (· ∉ s.inFlight))) := by
  have hmem : ∀ a, a ∈ written.tracked ↔
      a ∈ s.tracked ∧ a ∉ evicted ∨ a ∈ evicted ∧ a ∈ s.inFlight := by
    intro a
    rw [hids]
    simp
  have hoff : ∀ a ∈ evicted.filter (· ∉ s.inFlight), a ∉ written.tracked := by
    intro a ha
    obtain ⟨hin, hfree⟩ := List.mem_filter.mp ha
    rw [hmem]
    rintro (⟨-, hnot⟩ | ⟨-, hheld⟩)
    · exact hnot hin
    · exact of_decide_eq_true hfree hheld
  constructor
  · rfl
  · rw [stopGuarded_tracked services hoff, hids]
    refine List.nodup_append.mpr ⟨h.filter _, hnodup.filter _, ?_⟩
    rintro a ha b hb rfl
    exact of_decide_eq_true (List.mem_filter.mp ha).2 (List.mem_filter.mp hb).1
  · intro a _ _
    rw [stopGuarded_tracked services hoff, hmem, List.mem_filter, decide_eq_true_eq]
    constructor
    · rintro (⟨htracked, hnot⟩ | ⟨hin, hheld⟩)
      · exact ⟨htracked, fun hfree => hnot hfree.1⟩
      · exact ⟨hsub a hin, fun hfree => hfree.2 hheld⟩
    · rintro ⟨htracked, hnot⟩
      by_cases hin : a ∈ evicted
      · exact .inr ⟨hin, by_contra fun hheld => hnot ⟨hin, hheld⟩⟩
      · exact .inl ⟨htracked, hin⟩
  · intro a
    rw [stopGuarded_active, hactive]

/-- An eviction takes those of the surplus whose guard is free off the list and stops them. -/
theorem evict_takes (h : s.tracked.Nodup) : Takes strategy s services
    ((s.surplus strategy maxPool).filter (· ∉ s.inFlight))
    (s.evictLruIfNeeded strategy maxPool services now') := by
  unfold evictLruIfNeeded
  split
  next hnone =>
    have hempty : s.surplus strategy maxPool = [] := by
      rw [List.eq_nil_iff_forall_not_mem]
      intro a ha
      have hmem := (mem_surplus ha).1
      rw [tracked, hnone] at hmem
      cases hmem
    rw [hempty]
    exact takes_nothing services h
  next instances hsome =>
    split
    next hunder =>
      have hempty : s.surplus strategy maxPool = [] := by
        apply List.eq_nil_of_length_eq_zero
        rw [length_surplus]
        omega
      rw [hempty]
      exact takes_activeOnly services h
    next hover =>
      have hsurplus : (s.surplus strategy maxPool).Nodup := nodup_surplus h
      simp only [acquireGuards_eq now' hsurplus]
      exact takes_free services h hsurplus (fun a ha => (mem_surplus ha).1)
        (tracked_written now' hsome _ _) rfl

theorem evict_evictsLru (hpos : 0 < maxPool) (h : s.Exact strategy) :
    s.EvictsLru strategy maxPool services (s.evictLruIfNeeded strategy maxPool services now').1
      (s.evictLruIfNeeded strategy maxPool services now').2 := by
  obtain ⟨hstopped, -, -, hactive'⟩ := evict_takes services now' h.nodup
  rw [hstopped]
  constructor
  · intro a ha
    obtain ⟨-, hlazy, hactive⟩ := mem_surplus (List.mem_filter.mp ha).1
    exact ⟨hactive, hlazy⟩
  · intro a ha
    exact of_decide_eq_true (List.mem_filter.mp ha).2
  · intro i hi htaken j hj hleft hfree
    refine lastAccess_le h.nodup hi (List.mem_filter.mp htaken).1 hj fun hin => hleft ?_
    exact List.mem_filter.mpr ⟨hin, decide_eq_true hfree⟩
  · intro hnone hstops l hl hleft
    -- Together with those that were stopped, the rest are the active ones from before.
    have hsub : ∀ a ∈ l ++ s.surplus strategy maxPool,
        a ∈ (s.activeOnly strategy).map (·.actorId) := by
      intro a ha
      rcases List.mem_append.mp ha with ha | ha
      · obtain ⟨hactive, hlazy⟩ := hleft a ha
        rw [hactive', Bool.and_eq_true] at hactive
        exact mem_map_activeOnly.mpr ⟨h.mem a hactive.1 hlazy, hlazy, hactive.1⟩
      · exact surplus_subperm.subset ha
    have hnodup : (l ++ s.surplus strategy maxPool).Nodup := by
      refine List.nodup_append.mpr ⟨hl, nodup_surplus h.nodup, ?_⟩
      rintro a ha b hb rfl
      have hguarded : a ∈ (s.surplus strategy maxPool).filter (· ∉ s.inFlight) := by
        rw [List.mem_filter, hnone]
        exact ⟨hb, rfl⟩
      have hdown := (hleft a ha).1
      rw [hactive', staysActive, hstops a hguarded, decide_eq_false (not_not_intro hguarded),
        Bool.or_false, Bool.and_false] at hdown
      cases hdown
    have hlength := (hnodup.subperm hsub).length_le
    rw [List.length_append, List.length_map, length_surplus] at hlength
    omega

theorem stepEvicts_evict_iff (hpos : 0 < maxPool) (h : s.Exact strategy) :
    s.StepEvicts strategy maxPool (.evict services now') ↔
      s.StopsAll strategy maxPool (.evict services now') := by
  obtain ⟨-, hnodup, hmem, hactive⟩ := evict_takes services now' h.nodup
  constructor
  · rintro ⟨htracks, -⟩ a hin hfree
    obtain ⟨-, hlazy, hup⟩ := mem_surplus hin
    have hguarded : a ∈ (s.surplus strategy maxPool).filter (· ∉ s.inFlight) :=
      List.mem_filter.mpr ⟨hin, decide_eq_true hfree⟩
    by_contra hstays
    have hstill : (s.evictLruIfNeeded strategy maxPool services now').2.active a := by
      rw [hactive, hup, Bool.eq_true_of_not_eq_false hstays, Bool.or_true, Bool.and_true]
    have hcount := htracks a hstill hlazy
    have htracked := List.count_pos_iff.mp (by rw [hcount]; decide)
    exact ((hmem a hlazy hup).mp htracked).2 hguarded
  · intro hstops
    refine ⟨Exact.tracksActive ⟨hnodup, fun a hstill hlazy => ?_⟩, ?_⟩
    · have hstill : (s.evictLruIfNeeded strategy maxPool services now').2.active a := hstill
      rw [hactive, Bool.and_eq_true, Bool.or_eq_true] at hstill
      refine (hmem a hlazy hstill.1).mpr ⟨h.mem a hstill.1 hlazy, fun hguarded => ?_⟩
      obtain ⟨hin, hfree⟩ := List.mem_filter.mp hguarded
      rcases hstill.2 with hnot | hstays
      · exact of_decide_eq_true hnot hguarded
      · rw [hstops a hin (of_decide_eq_true hfree)] at hstays
        cases hstays
    · rintro _ _ ⟨⟩
      exact evict_evictsLru services now' hpos h

end Evict

/-! ## Runs -/

theorem nodup_step (h : s.Exact strategy) (st : Step κ) :
    (s.step strategy maxPool st).tracked.Nodup := by
  cases st with
  | activate a now => exact (exact_activate h).nodup
  | updateLastAccess a now =>
      rw [step, tracked_updateLastAccess]
      exact h.nodup
  | stop a answer => exact (exact_stopActor h answer).nodup
  | tryAcquireActivation a =>
      rw [step]
      split
      · exact h.nodup
      · exact h.nodup
  | releaseActivationGuard a => exact h.nodup
  | evict services now => exact (evict_takes services now h.nodup).nodup

/-- A step from a state with an exact list is good exactly if it stops what it evicts. -/
theorem stepEvicts_iff (hpos : 0 < maxPool) (h : s.Exact strategy) (st : Step κ) :
    s.StepEvicts strategy maxPool st ↔ s.StopsAll strategy maxPool st := by
  cases st with
  | activate a now => exact iff_of_true ⟨(exact_activate h).tracksActive, nofun⟩ trivial
  | updateLastAccess a now =>
      refine iff_of_true ⟨Exact.tracksActive ⟨?_, ?_⟩, nofun⟩ trivial
      · rw [step, tracked_updateLastAccess]
        exact h.nodup
      · rw [step, tracked_updateLastAccess]
        exact h.mem
  | stop a answer => exact iff_of_true ⟨(exact_stopActor h answer).tracksActive, nofun⟩ trivial
  | tryAcquireActivation a =>
      refine iff_of_true ⟨?_, nofun⟩ trivial
      rw [step]
      split
      · exact h.tracksActive
      · exact h.tracksActive
  | releaseActivationGuard a => exact iff_of_true ⟨h.tracksActive, nofun⟩ trivial
  | evict services now => exact stepEvicts_evict_iff services now hpos h

omit [DecidableEq κ] in
theorem start_exact : (start : LruPool κ).Exact strategy :=
  ⟨List.nodup_nil, nofun⟩

end LruPool

/-- In every run from an empty pool, every call of `evict_lru_if_needed` stops the least recently
accessed lazy instances and every active lazy instance stays tracked, exactly if each call stops
all that it evicts. -/
theorem evictsLru_iff {κ : Type} [DecidableEq κ] (strategy : κ → Option ActivationStrategy)
    (maxPool : Nat) (hpos : 0 < maxPool) (steps : List (LruPool.Step κ)) :
    Along (LruPool.step strategy maxPool) (LruPool.StepEvicts strategy maxPool) .start steps ↔
      Along (LruPool.step strategy maxPool) (LruPool.StopsAll strategy maxPool) .start steps :=
  along_congr (I := LruPool.Exact strategy) (fun _ st h => LruPool.stepEvicts_iff hpos h st)
    (fun _ st h hgood => LruPool.exact_of_tracksActive (LruPool.nodup_step h st) hgood.1)
    LruPool.start_exact steps

def makingRoom : List (LruPool.Step Bool) :=
  [.activate true 1, .evict (some fun _ => some .ok) (fun _ => 2), .activate false 3]

theorem evictsLru_iff_makingRoom :
    Along (LruPool.step (fun _ : Bool => some .lazy) 1)
      (LruPool.StepEvicts (fun _ => some .lazy) 1) .start makingRoom := by
  refine (evictsLru_iff (fun _ => some .lazy) 1 (by decide) makingRoom).mpr ?_
  exact ⟨trivial, fun _ _ _ => rfl, trivial, trivial⟩

/-- The stop of the first actor fails, and the next call finds only the second. -/
def failedStop : List (LruPool.Step Bool) :=
  [.activate true 1, .evict (some fun _ => some (.error true)) (fun _ => 2), .activate false 3,
    .evict (some fun _ => some .ok) (fun _ => 4)]

/-- An actor whose stop failed is active and not tracked, and is not evicted by a call that stops
all that it evicts, which leaves no room. -/
theorem not_evictsLru :
    ¬(LruPool.TracksActive (fun _ => some .lazy)
      (run (LruPool.step (fun _ : Bool => some .lazy) 1) .start (failedStop.take 2))) ∧
    (run (LruPool.step (fun _ : Bool => some .lazy) 1) .start failedStop).active true := by
  constructor
  · intro htracks
    have hcount := htracks true (by decide +kernel) rfl
    revert hcount
    decide +kernel
  · decide +kernel

end PlexSpaces.Actors
