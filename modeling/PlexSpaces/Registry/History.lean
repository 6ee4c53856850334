import PlexSpaces.Registry.ObjectRegistry
/-!
# The history of the object registry

What the log says of an object: the alias under which it was stored last, and how many
heartbeat failures have been counted since.  The table agrees with the log at every moment
(`Consistent`), and so what each statement answers and each method returns can be told from
the log alone (`Sound`).
-/

namespace PlexSpaces.Registry

open PlexSpaces.Lib

variable {ν : Type}

/-- What is followed of a row. -/
structure Recorded where
  aliasName : Option String
  failures : Nat
deriving DecidableEq, Repr

def Row.recorded (r : Row) : Recorded := ⟨r.aliasName, r.heartbeatFailureCount⟩

namespace LogEntry

abbrev stored (caller : Nat) (scope : Scope) (registration : ObjectRegistration) (now : Nat) :
    LogEntry ν :=
  .served caller (.statement (.put scope registration now)) (.ok ())

/-- The object was deleted; the flag says whether by `unregister`. -/
abbrev deleted (caller : Nat) (scope : Scope) (objectId : String) (unregister : Bool) :
    LogEntry ν :=
  .served caller (.statement (.delete scope objectId unregister)) (.ok ())

abbrev read (caller : Nat) (scope : Scope) (aliasName : String)
    (holder : Option ObjectRegistration) : LogEntry ν :=
  .served caller (.statement (.getByAlias scope aliasName)) (.ok holder)

abbrev counted (caller : Nat) (scope : Scope) (objectId : String) (n : Nat) : LogEntry ν :=
  .served caller (.statement (.incrementHeartbeatFailures scope objectId)) (.ok n)

abbrev filled (caller : Nat) (node : ν) (aliasName : String)
    (value : Option ObjectRegistration) (now : Nat) : LogEntry ν :=
  .served caller (.cache node (.insert aliasName value now)) ()

abbrev hit (caller : Nat) (node : ν) (aliasName : String) (now : Nat)
    (value : Option ObjectRegistration) : LogEntry ν :=
  .served caller (.cache node (.get aliasName now)) (some value)

abbrev dropped (caller : Nat) (node : ν) (aliasName : String) : LogEntry ν :=
  .served caller (.cache node (.remove aliasName)) ()

end LogEntry

/-- What an entry does to what is recorded of the object `k`. -/
def recordedStep (k : ObjectKey) (cur : Option Recorded) : LogEntry ν → Option Recorded
  | .served _ (.statement (.put scope registration now)) (.ok ()) =>
      if (scope, registration.objectId) = k then
        some ⟨(Row.ofRegistration scope registration now).aliasName, 0⟩
      else cur
  | .served _ (.statement (.delete scope objectId _)) (.ok ()) =>
      if (scope, objectId) = k then none else cur
  | .served _ (.statement (.incrementHeartbeatFailures scope objectId)) (.ok _) =>
      if (scope, objectId) = k then cur.map fun x => { x with failures := x.failures + 1 } else cur
  | .served _ (.statement (.resetHeartbeatFailures scope objectId)) (.ok ()) =>
      if (scope, objectId) = k then cur.map fun x => { x with failures := 0 } else cur
  | _ => cur

/-- What the log records of the object `k`. -/
def recorded (log : List (LogEntry ν)) (k : ObjectKey) : Option Recorded :=
  log.foldl (recordedStep k) none

theorem recorded_concat (log : List (LogEntry ν)) (e : LogEntry ν) (k : ObjectKey) :
    recorded (log ++ [e]) k = recordedStep k (recorded log k) e := by
  rw [recorded, List.foldl_append]
  rfl

/-! ## The table follows the log -/

theorem find_updateFound (t : RegistryTable) (k k' : ObjectKey) (f : Row → Row)
    (hf : ∀ r, (f r).key = r.key) :
    (updateFound t k f hf).2.find k' = if k' = k then (t.find k).map f else t.find k' := by
  unfold updateFound
  cases hfind : t.find k with
  | none =>
      split_ifs with hk
      · rw [hk, hfind]
        rfl
      · rfl
  | some r => exact (Table.find_update t k f hf k').trans (by rw [hfind])

/-- A change of the rows that leaves alone what is recorded of them. -/
theorem map_recorded_ite (t : RegistryTable) (k k' : ObjectKey)
    (f : Row → Row) (hf : ∀ r, (f r).recorded = r.recorded) :
    (if k' = k then (t.find k).map f else t.find k').map Row.recorded =
      (t.find k').map Row.recorded := by
  split_ifs with hk
  · rw [hk, Option.map_map]
    congr 1
    funext r
    exact hf r
  · rfl

namespace RegistryTable

variable {t : RegistryTable} {k : ObjectKey}

theorem put_ok {scope : Scope} {registration : ObjectRegistration} {now : Nat}
    (h : (t.perform (.put scope registration now)).1 = .ok ()) :
    (t.perform (.put scope registration now)).2 =
        t.upsert (Row.ofRegistration scope registration now)
          (Row.ofRegistration scope registration now).overwrite (Row.key_overwrite _) ∧
      ∀ r ∈ t.rows, r.key ≠ (scope, registration.objectId) →
        ¬r.SameAlias (Row.ofRegistration scope registration now) := by
  unfold perform at h ⊢
  dsimp only at h ⊢
  split_ifs at h ⊢ with halias hnode
  refine ⟨rfl, fun r hr hkey hsame => halias ?_⟩
  refine List.any_eq_true.mpr ⟨r, List.mem_filter.mpr ⟨hr, ?_⟩, decide_eq_true hsame⟩
  exact decide_eq_true hkey

theorem put_error {scope : Scope} {registration : ObjectRegistration} {now : Nat}
    (h : (t.perform (.put scope registration now)).1 ≠ .ok ()) :
    (t.perform (.put scope registration now)).2 = t := by
  unfold perform at h ⊢
  dsimp only at h ⊢
  split_ifs at h ⊢
  · rfl
  · rfl
  · exact absurd rfl h

end RegistryTable

/-- What a statement does to what the table records is what its log entry says. -/
theorem recorded_perform (caller : Nat) (t : RegistryTable) (s : Statement) (k : ObjectKey) :
    ((t.perform s).2.find k).map Row.recorded =
      recordedStep k ((t.find k).map Row.recorded)
        (.served caller (.statement s) (t.perform s).1 : LogEntry ν) := by
  cases s with
  | put scope registration now =>
      by_cases hok : (t.perform (.put scope registration now)).1 = .ok ()
      · rw [(RegistryTable.put_ok hok).1, hok, Table.find_upsert]
        show Option.map Row.recorded (if k = (scope, registration.objectId) then _ else _) =
          if (scope, registration.objectId) = k then _ else _
        by_cases hk : k = (scope, registration.objectId)
        · rw [if_pos hk, if_pos hk.symm]
          cases t.find (Row.ofRegistration scope registration now).key <;> rfl
        · rw [if_neg hk, if_neg (Ne.symm hk)]
      · rw [RegistryTable.put_error hok]
        cases hres : (t.perform (.put scope registration now)).1 with
        | ok _ => exact absurd hres hok
        | error e => rfl
  | get scope objectId => rfl
  | delete scope objectId flag =>
      show ((t.deleteWhere fun r => decide (r.key = (scope, objectId))).find k).map Row.recorded =
        if (scope, objectId) = k then none else _
      rw [Table.find_deleteWhere]
      cases hfind : t.find k with
      | none => simp
      | some r =>
          rw [Option.filter_some, Table.key_of_find hfind]
          by_cases hk : k = (scope, objectId)
          · simp [hk]
          · simp [hk, Ne.symm hk]
  | discoverNodes ctx nodeId => rfl
  | updateHeartbeat scope objectId timestamp =>
      show ((updateFound t _ _ _).2.find k).map Row.recorded = (t.find k).map Row.recorded
      rw [find_updateFound]
      exact map_recorded_ite t _ k _ fun _ => rfl
  | updateHealthStatus scope objectId status =>
      show ((updateFound t _ _ _).2.find k).map Row.recorded = (t.find k).map Row.recorded
      rw [find_updateFound]
      exact map_recorded_ite t _ k _ fun _ => rfl
  | getByAlias scope aliasName =>
      unfold RegistryTable.perform
      dsimp only
      split_ifs <;> rfl
  | incrementHeartbeatFailures scope objectId =>
      unfold RegistryTable.perform
      dsimp only
      cases hfind : t.find (scope, objectId) with
      | none => rfl
      | some r =>
          show ((t.update _ _ Row.key_countFailure).find k).map Row.recorded =
            if (scope, objectId) = k then _ else _
          rw [Table.find_update]
          by_cases hk : k = (scope, objectId)
          · rw [if_pos hk, if_pos hk.symm, hk, hfind]
            rfl
          · rw [if_neg hk, if_neg (Ne.symm hk)]
  | resetHeartbeatFailures scope objectId =>
      show ((t.update _ _ Row.key_resetFailures).find k).map Row.recorded =
        if (scope, objectId) = k then _ else _
      rw [Table.find_update]
      by_cases hk : k = (scope, objectId)
      · rw [if_pos hk, if_pos hk.symm, hk, Option.map_map, Option.map_map]
        rfl
      · rw [if_neg hk, if_neg (Ne.symm hk)]
  | markDeadByNodeId scope nodeId =>
      show ((t.updateWhere _ _ (Row.key_setHealth .dead)).find k).map Row.recorded =
        (t.find k).map Row.recorded
      rw [Table.find_updateWhere, Option.map_map]
      congr 1
      funext r
      rw [Function.comp_apply]
      split_ifs <;> rfl

def OwnBlobs (t : RegistryTable) : Prop := ∀ r ∈ t.rows, r.registration.objectId = r.objectId

theorem ownBlobs_perform {t : RegistryTable} (h : OwnBlobs t) (s : Statement) :
    OwnBlobs (t.perform s).2 := by
  have hupdate (k : ObjectKey) (f : Row → Row) (hf : ∀ r, (f r).key = r.key)
      (hown : ∀ r, r.registration.objectId = r.objectId →
        (f r).registration.objectId = (f r).objectId) : OwnBlobs (t.update k f hf) := by
    intro r hr
    obtain ⟨r₀, hr₀, rfl⟩ := List.mem_map.mp hr
    split_ifs
    · exact hown r₀ (h r₀ hr₀)
    · exact h r₀ hr₀
  have hfound (k : ObjectKey) (f : Row → Row) (hf : ∀ r, (f r).key = r.key)
      (hown : ∀ r, r.registration.objectId = r.objectId →
        (f r).registration.objectId = (f r).objectId) : OwnBlobs (updateFound t k f hf).2 := by
    unfold updateFound
    cases t.find k with
    | none => exact h
    | some r => exact hupdate k f hf hown
  cases s with
  | put scope registration now =>
      by_cases hok : (t.perform (.put scope registration now)).1 = .ok ()
      · rw [(RegistryTable.put_ok hok).1]
        set new := Row.ofRegistration scope registration now
        intro r hr
        have hfind := Table.find_of_mem hr
        rw [Table.find_upsert] at hfind
        split_ifs at hfind with hk
        · rw [← Option.some.inj hfind]
          cases hold : t.find new.key with
          | none => rfl
          | some old =>
              have hkey : old.key = new.key := Table.key_of_find hold
              exact (congrArg Prod.snd hkey).symm
        · exact h r (List.mem_of_find?_eq_some hfind)
      · rw [RegistryTable.put_error hok]
        exact h
  | get scope objectId => exact h
  | delete scope objectId flag => exact fun r hr => h r (List.mem_filter.mp hr).1
  | discoverNodes ctx nodeId => exact h
  | updateHeartbeat scope objectId timestamp => exact hfound _ _ _ fun _ => id
  | updateHealthStatus scope objectId status => exact hfound _ _ _ fun _ => id
  | getByAlias scope aliasName =>
      unfold RegistryTable.perform
      dsimp only
      split_ifs <;> exact h
  | incrementHeartbeatFailures scope objectId =>
      unfold RegistryTable.perform
      dsimp only
      cases t.find (scope, objectId) with
      | none => exact h
      | some r => exact hupdate _ _ Row.key_countFailure fun _ => id
  | resetHeartbeatFailures scope objectId => exact hupdate _ _ Row.key_resetFailures fun _ => id
  | markDeadByNodeId scope nodeId =>
      intro r hr
      obtain ⟨r₀, hr₀, rfl⟩ := List.mem_map.mp hr
      split_ifs
      · exact h r₀ hr₀
      · exact h r₀ hr₀

/-! ## What a log may hold -/

/-- The status of a registration as `register_with_unique_alias` reads it. -/
def ObjectRegistration.isActive (registration : ObjectRegistration) : Bool :=
  ((HealthStatus.tryFrom registration.healthStatus).getD .unknown).isActive

def HeldBy (log : List (LogEntry ν)) (scope : Scope) (aliasName : String) :
    Option ObjectRegistration → Prop
  | some holder =>
      ∃ failures, recorded log (scope, holder.objectId) = some ⟨some aliasName, failures⟩
  | none =>
      aliasName ≠ "" → ∀ objectId x, recorded log (scope, objectId) = some x →
        x.aliasName ≠ some aliasName

/-- A lookup has filled the cache of the node for the alias with what it had read, and the entry
has not been thrown away since. -/
def Filled (log : List (LogEntry ν)) (node : ν) (aliasName : String)
    (value : Option ObjectRegistration) (ts : Nat) : Prop :=
  ∃ earlier later filler scope,
    log = earlier ++ LogEntry.filled filler node aliasName value ts :: later ∧
    (∀ caller, LogEntry.dropped caller node aliasName ∉ later) ∧
    LogEntry.read filler scope aliasName value ∈ earlier

/-- A lookup that is answered so is right: it has read the answer from the table, or from an
entry of the node's cache that was filled less than 30 seconds before. -/
def Answered (log : List (LogEntry ν)) (caller : Nat) (node : ν) (ctx : RequestContext)
    (aliasName : String) (value : Option ObjectRegistration) : Prop :=
  LogEntry.read caller ctx.scope aliasName value ∈ log ∨
    ∃ earlier later now ts, log = earlier ++ LogEntry.hit caller node aliasName now value :: later ∧
      now - ts < 30000 ∧ Filled earlier node aliasName value ts

/-- A verdict of a call on an object: it has counted the failure, read the registration, judged
the status by the count and written it, and for a dead node it has marked the objects dead. -/
def Verdict (log : List (LogEntry ν)) (caller : Nat) (scope : Scope) (objectId : String)
    (status : HealthStatus) : Prop :=
  ∃ n registration e₁ e₂ e₃,
    log = e₁ ++ LogEntry.counted caller scope objectId n ::
      (e₂ ++ .served caller (.statement (.get scope objectId)) (.ok (some registration)) :: e₃) ∧
    status = statusAfter registration n ∧
    .served caller (.statement (.updateHealthStatus scope objectId status)) (.ok ()) ∈ e₃ ∧
    (status = .dead → registration.objectType = objectTypeNode → ∃ m,
      .served caller (.statement (.markDeadByNodeId scope registration.objectId)) (.ok m) ∈ e₃)

/-- What the log may hold after the entries `before`. -/
def LogEntry.Sound (before : List (LogEntry ν)) : LogEntry ν → Prop
  | .served _ (.statement (.put scope registration _)) (.ok ()) =>
      registration.aliasName ≠ "" → ∀ k x, k ≠ (scope, registration.objectId) →
        recorded before k = some x → x.aliasName ≠ some registration.aliasName
  | .served caller (.statement (.delete scope objectId false)) _ =>
      ∃ aliasName existing, LogEntry.read caller scope aliasName (some existing) ∈ before ∧
        existing.objectId = objectId ∧ existing.isActive = false
  | .served _ (.statement (.getByAlias scope aliasName)) (.ok holder) =>
      HeldBy before scope aliasName holder
  | .served _ (.statement (.incrementHeartbeatFailures scope objectId)) (.ok n) =>
      ∃ x, recorded before (scope, objectId) = some x ∧ n = (x.failures + 1) % 2 ^ 32
  | .served _ (.cache node (.get aliasName now)) (some value) =>
      ∃ ts, now - ts < 30000 ∧ Filled before node aliasName value ts
  | .served caller (.cache _ (.insert aliasName value _)) _ =>
      ∃ scope, LogEntry.read caller scope aliasName value ∈ before
  | .returned caller (.lookedUp node ctx aliasName (.ok value)) =>
      Answered before caller node ctx aliasName value
  | .returned caller (.failureRecorded ctx objectId (.ok status)) =>
      Verdict before caller ctx.scope objectId status
  | _ => True

/-- The table and the caches agree with the log. -/
structure Consistent (c : Cluster ν) (log : List (LogEntry ν)) : Prop where
  recorded : ∀ k, (c.table.find k).map Row.recorded = recorded log k
  blobs : OwnBlobs c.table
  limits : ∀ node, (c.caches node).ttl = 30000 ∧ (c.caches node).capacity = 10000
  fits : ∀ node, (c.caches node).Fits
  cached : ∀ node aliasName value ts, (c.caches node).map.lookup aliasName = some (value, ts) →
    Filled log node aliasName value ts
  sound : EachAfter LogEntry.Sound log

theorem start_consistent (clock : List Nat) (faults : List (Option String)) :
    Consistent (Cluster.start clock faults : Cluster ν) [] where
  recorded _ := rfl
  blobs r hr := by cases hr
  limits _ := ⟨rfl, rfl⟩
  fits _ := AliasLruCache.new_fits _ _
  cached _ _ _ _ h := by cases h
  sound := eachAfter_nil

theorem Filled.concat {log : List (LogEntry ν)} {node : ν} {aliasName : String}
    {value : Option ObjectRegistration} {ts : Nat} (h : Filled log node aliasName value ts)
    {e : LogEntry ν} (he : ∀ caller, e ≠ LogEntry.dropped caller node aliasName) :
    Filled (log ++ [e]) node aliasName value ts := by
  obtain ⟨earlier, later, filler, scope, rfl, hkept, hread⟩ := h
  refine ⟨earlier, later ++ [e], filler, scope, by simp, fun caller => ?_, hread⟩
  rw [List.mem_append, List.mem_singleton]
  rintro (hmem | rfl)
  · exact hkept caller hmem
  · exact he caller rfl

namespace CacheOp

theorem limits_perform (op : CacheOp) (c : AliasLruCache) :
    (op.perform c).2.ttl = c.ttl ∧ (op.perform c).2.capacity = c.capacity := by
  have hremove (key : String) :
      (c.remove key).ttl = c.ttl ∧ (c.remove key).capacity = c.capacity := by
    unfold AliasLruCache.remove
    cases c.map.lookup key <;> exact ⟨rfl, rfl⟩
  cases op with
  | get key now =>
      show (c.get key now).2.ttl = c.ttl ∧ (c.get key now).2.capacity = c.capacity
      unfold AliasLruCache.get
      split_ifs
      · exact hremove key
      · exact ⟨rfl, rfl⟩
  | insert key value now =>
      show (c.insert key value now).ttl = c.ttl ∧ (c.insert key value now).capacity = c.capacity
      unfold AliasLruCache.insert
      cases c.map.lookup key with
      | some y => exact ⟨rfl, rfl⟩
      | none =>
          dsimp only
          split_ifs
          · cases c.queue <;> exact ⟨rfl, rfl⟩
          · exact ⟨rfl, rfl⟩
  | remove key => exact hremove key

theorem fits_perform (op : CacheOp) {c : AliasLruCache} (h : c.Fits) (hcapacity : 0 < c.capacity) :
    (op.perform c).2.Fits := by
  cases op with
  | get key now => exact h.get key now
  | insert key value now => exact h.insert hcapacity key value now
  | remove key => exact h.remove key

end CacheOp

/-! ## One request -/

/-- What the log has to hold before a request of the caller that not every method may make. -/
def Request.Justified (caller : Nat) (log : List (LogEntry ν)) : Request ν → Prop
  | .statement (.delete scope objectId false) =>
      ∃ aliasName existing, LogEntry.read caller scope aliasName (some existing) ∈ log ∧
        existing.objectId = objectId ∧ existing.isActive = false
  | .cache _ (.insert aliasName value _) =>
      ∃ scope, LogEntry.read caller scope aliasName value ∈ log
  | _ => True

section Serve

variable {c : Cluster ν} {log : List (LogEntry ν)} {caller : Nat}

/-- A statement that fails leaves the table as it is, and its answer says nothing. -/
theorem Consistent.fault (h : Consistent c log) (faults : List (Option String)) (s : Statement)
    (message : String)
    (hsound : LogEntry.Sound log (.served caller (.statement s) (.error (.storage message)))) :
    Consistent { c with faults := faults }
      (log ++ [.served caller (.statement s) (.error (.storage message))]) where
  recorded k := by
    rw [recorded_concat, ← h.recorded k]
    cases s <;> rfl
  blobs := h.blobs
  limits := h.limits
  fits := h.fits
  cached node aliasName value ts hlookup :=
    (h.cached node aliasName value ts hlookup).concat (fun _ he => by cases he)
  sound := h.sound.concat hsound

theorem getByAlias_some {t : RegistryTable} (hown : OwnBlobs t) {scope : Scope}
    {aliasName : String} {existing : ObjectRegistration}
    (h : (t.perform (.getByAlias scope aliasName)).1 = .ok (some existing)) :
    ∃ r, t.find (scope, existing.objectId) = some r ∧ r.aliasName = some aliasName := by
  unfold RegistryTable.perform at h
  dsimp only at h
  split_ifs at h
  · cases h
  have hrow := Except.ok.inj h
  obtain ⟨r, hr, rfl⟩ := Option.map_eq_some_iff.mp hrow
  have hp := List.find?_some hr
  simp only [Bool.and_eq_true, decide_eq_true_eq] at hp
  have hmem := List.mem_of_find?_eq_some hr
  refine ⟨r, ?_, hp.2⟩
  have hkey : (scope, r.mergeIndexedRow.objectId) = r.key := by
    show (scope, r.registration.objectId) = (r.scope, r.objectId)
    rw [hown r hmem, hp.1]
  rw [hkey]
  exact Table.find_of_mem hmem

theorem getByAlias_none {t : RegistryTable} {scope : Scope} {aliasName objectId : String} {r : Row}
    (halias : aliasName ≠ "") (h : (t.perform (.getByAlias scope aliasName)).1 = .ok none)
    (hkey : r.key = (scope, objectId)) (hmem : r ∈ t.rows) : r.aliasName ≠ some aliasName := by
  intro hsame
  unfold RegistryTable.perform at h
  dsimp only at h
  rw [if_neg halias] at h
  have hnone := Option.map_eq_none_iff.mp (Except.ok.inj h)
  refine List.find?_eq_none.mp hnone r hmem ?_
  rw [hsame, show r.scope = scope from congrArg Prod.fst hkey]
  simp

/-- The answer of a statement is what the log lets one expect. -/
theorem Consistent.sound_statement (h : Consistent c log) {s : Statement}
    (hjustified : Request.Justified caller log (.statement s : Request ν)) :
    LogEntry.Sound log (.served caller (.statement s) (c.table.perform s).1) := by
  cases s with
  | put scope registration now =>
      cases hres : (c.table.perform (.put scope registration now)).1 with
      | error e => trivial
      | ok _ =>
          intro halias k x hk hx hsame
          rw [← h.recorded k] at hx
          obtain ⟨r, hr, rfl⟩ := Option.map_eq_some_iff.mp hx
          have hrkey := Table.key_of_find hr
          refine (RegistryTable.put_ok hres).2 r (List.mem_of_find?_eq_some hr)
            (by rw [hrkey]; exact hk) ⟨?_, ?_⟩
          · intro hnone
            rw [show r.recorded.aliasName = r.aliasName from rfl, hnone] at hsame
            cases hsame
          · rw [show r.aliasName = r.recorded.aliasName from rfl, hsame]
            exact (if_neg halias).symm
  | get scope objectId => trivial
  | delete scope objectId flag =>
      cases flag with
      | true => trivial
      | false => exact hjustified
  | discoverNodes ctx nodeId => trivial
  | updateHeartbeat scope objectId timestamp => trivial
  | updateHealthStatus scope objectId status => trivial
  | getByAlias scope aliasName =>
      cases hres : (c.table.perform (.getByAlias scope aliasName)).1 with
      | error e => trivial
      | ok holder =>
          cases holder with
          | none =>
              intro halias objectId x hx hsame
              rw [← h.recorded] at hx
              obtain ⟨r, hr, rfl⟩ := Option.map_eq_some_iff.mp hx
              exact getByAlias_none halias hres (Table.key_of_find hr)
                (List.mem_of_find?_eq_some hr) hsame
          | some existing =>
              obtain ⟨r, hr, halias⟩ := getByAlias_some h.blobs hres
              refine ⟨r.heartbeatFailureCount, ?_⟩
              rw [← h.recorded, hr, ← halias]
              rfl
  | incrementHeartbeatFailures scope objectId =>
      unfold RegistryTable.perform
      dsimp only
      cases hfind : c.table.find (scope, objectId) with
      | none => trivial
      | some r =>
          refine ⟨r.recorded, ?_, rfl⟩
          rw [← h.recorded, hfind]
          rfl
  | resetHeartbeatFailures scope objectId => trivial
  | markDeadByNodeId scope nodeId => trivial

theorem Consistent.statement (h : Consistent c log) {s : Statement}
    (hjustified : Request.Justified caller log (.statement s : Request ν))
    (faults : List (Option String)) :
    Consistent { c with table := (c.table.perform s).2, faults := faults }
      (log ++ [.served caller (.statement s) (c.table.perform s).1]) where
  recorded k := by
    rw [recorded_concat, ← h.recorded k]
    exact recorded_perform caller c.table s k
  blobs := ownBlobs_perform h.blobs s
  limits := h.limits
  fits := h.fits
  cached node aliasName value ts hlookup :=
    (h.cached node aliasName value ts hlookup).concat (fun _ he => by cases he)
  sound := h.sound.concat (h.sound_statement hjustified)

variable [DecidableEq ν]

theorem Consistent.cache (h : Consistent c log) {node : ν} {op : CacheOp}
    (hjustified : Request.Justified caller log (.cache node op)) :
    Consistent
      { c with caches := Function.update c.caches node (op.perform (c.caches node)).2 }
      (log ++ [.served caller (.cache node op) (op.perform (c.caches node)).1]) where
  recorded k := by
    rw [recorded_concat]
    exact h.recorded k
  blobs := h.blobs
  limits node' := by
    by_cases hnode : node' = node
    · subst hnode
      show (Function.update c.caches node' _ node').ttl = 30000 ∧
        (Function.update c.caches node' _ node').capacity = 10000
      rw [Function.update_self, (op.limits_perform _).1, (op.limits_perform _).2]
      exact h.limits node'
    · show (Function.update c.caches node _ node').ttl = 30000 ∧
        (Function.update c.caches node _ node').capacity = 10000
      rw [Function.update_of_ne hnode]
      exact h.limits node'
  fits node' := by
    by_cases hnode : node' = node
    · subst hnode
      show (Function.update c.caches node' _ node').Fits
      rw [Function.update_self]
      refine op.fits_perform (h.fits node') ?_
      rw [(h.limits node').2]
      exact Nat.succ_pos _
    · show (Function.update c.caches node _ node').Fits
      rw [Function.update_of_ne hnode]
      exact h.fits node'
  cached node' aliasName value ts hlookup := by
    change (Function.update c.caches node _ node').map.lookup aliasName = _ at hlookup
    by_cases hnode : node' = node
    · subst hnode
      rw [Function.update_self] at hlookup
      cases op with
      | get key now =>
          exact (h.cached node' aliasName value ts
            (AliasLruCache.lookup_of_get hlookup)).concat (fun _ he => by cases he)
      | insert key value' now =>
          rcases AliasLruCache.lookup_of_insert hlookup with ⟨rfl, hx⟩ | hold
          · cases hx
            obtain ⟨scope, hread⟩ := hjustified
            exact ⟨log, [], caller, scope, rfl, fun _ => List.not_mem_nil, hread⟩
          · exact (h.cached node' aliasName value ts hold).concat (fun _ he => by cases he)
      | remove key =>
          change ((c.caches node').remove key).map.lookup aliasName = _ at hlookup
          rw [AliasLruCache.lookup_remove] at hlookup
          split_ifs at hlookup with hkey
          exact (h.cached node' aliasName value ts hlookup).concat
            (fun _ he => by cases he; exact hkey rfl)
    · rw [Function.update_of_ne hnode] at hlookup
      exact (h.cached node' aliasName value ts hlookup).concat
        (fun _ he => by cases he; exact hnode rfl)
  sound := by
    refine h.sound.concat ?_
    cases op with
    | get key now =>
        show LogEntry.Sound log
          (.served caller (.cache node (.get key now)) ((c.caches node).get key now).1)
        cases hres : ((c.caches node).get key now).1 with
        | none => trivial
        | some value =>
            obtain ⟨ts, hlookup, hage⟩ := AliasLruCache.get_eq_some hres
            rw [(h.limits node).1] at hage
            exact ⟨ts, hage, h.cached node key value ts hlookup⟩
    | insert key value now => exact hjustified
    | remove key => trivial

/-- Every justified request keeps the table and the caches in agreement with the log. -/
theorem Consistent.serve (h : Consistent c log) (request : Request ν)
    (hjustified : request.Justified caller log) :
    Consistent (Cluster.serve request c).2
      (log ++ [.served caller request (Cluster.serve request c).1]) := by
  cases request with
  | now =>
      exact
        { recorded := fun k => by rw [recorded_concat]; exact h.recorded k
          blobs := h.blobs
          limits := h.limits
          fits := h.fits
          cached := fun node aliasName value ts hlookup =>
            (h.cached node aliasName value ts hlookup).concat (fun _ he => by cases he)
          sound := h.sound.concat trivial }
  | cache node op => exact h.cache hjustified
  | statement s =>
      show Consistent (c.execute s).2 (log ++ [.served caller (.statement s) (c.execute s).1])
      unfold Cluster.execute
      split
      · rename_i message faults _
        refine h.fault faults s message ?_
        cases s with
        | delete scope objectId flag =>
            cases flag with
            | true => trivial
            | false => exact hjustified
        | _ => trivial
      · exact h.statement hjustified _

end Serve

end PlexSpaces.Registry
