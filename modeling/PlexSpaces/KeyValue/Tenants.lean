import PlexSpaces.KeyValue.Sqlite
import PlexSpaces.Lib.Run
/-!
# Tenants of one store

The store with its watchers.  Every statement names the tenant, so the rows of a
tenant and what its calls return do not depend on the calls of others.  A watch
does not name one: `notify_watchers` goes through the watches of all tenants.
-/

namespace PlexSpaces.KeyValue

open PlexSpaces.Lib

/-- A watch, with the tenant that holds its receiver and the events sent to it.  A send on a
full channel waits for the receiver; the calls of a run are those that return. -/
structure Watch where
  pattern : String
  isPrefix : Bool
  receiver : String
  events : List KVEvent

def Watch.matchesKey (watch : Watch) (key : String) : Bool :=
  if watch.isPrefix then watch.pattern.toList.isPrefixOf key.toList else key == watch.pattern

def Watch.send (watch : Watch) (events : List KVEvent) : Watch :=
  { watch with events := watch.events ++ events.filter fun event => watch.matchesKey event.key }

/-- The store, and what its calls returned so far, each with the tenant that made it. -/
structure SqliteKVStore where
  rows : KvTable
  watches : List Watch := []
  returned : List (String × Except KVError Reply) := []

inductive Request where
  | operation (op : Operation)
  | watch (key : String)
  | watchPrefix (keyPrefix : String)

structure TimedRequest where
  secs : Nat
  ctx : RequestContext
  request : Request

namespace SqliteKVStore

def notifyWatchers (watches : List Watch) (events : List KVEvent) : List Watch :=
  watches.map fun watch => watch.send events

def step (s : SqliteKVStore) (call : TimedRequest) : SqliteKVStore :=
  match call.request with
  | .operation op =>
      let effect := perform call.ctx (nowTimestamp call.secs) s.rows op
      { rows := effect.table
        watches := notifyWatchers s.watches effect.events
        returned := s.returned ++ [(call.ctx.tenantId, effect.result)] }
  | .watch key => { s with watches := s.watches ++ [⟨key, false, call.ctx.tenantId, []⟩] }
  | .watchPrefix keyPrefix =>
      { s with watches := s.watches ++ [⟨keyPrefix, true, call.ctx.tenantId, []⟩] }

/-- What the calls of a tenant returned and its receivers got. -/
def observed (tenant : String) (s : SqliteKVStore) :
    List (String × Except KVError Reply) × List Watch :=
  (s.returned.filter fun entry => entry.1 == tenant,
    s.watches.filter fun watch => watch.receiver == tenant)

def callsOf (tenant : String) (calls : List TimedRequest) : List TimedRequest :=
  calls.filter fun call => call.ctx.tenantId == tenant

end SqliteKVStore

/-! ## The rows of a tenant -/

section Rows

variable (tenant : String)

def rowsOf (db : KvTable) : KvTable := db.restrict fun id => id.1 == tenant

variable {tenant} {ctx : RequestContext} {now : Int} {db : KvTable} {key : String}

theorem RequestContext.owns_tenant {row : KvRow} (h : ctx.owns row = true) :
    row.tenantId = ctx.tenantId :=
  beq_iff_eq.mp (Bool.and_eq_true_iff.mp h).1

theorem RequestContext.sees_tenant {row : KvRow} (h : ctx.sees row = true) :
    row.tenantId = ctx.tenantId :=
  beq_iff_eq.mp (Bool.and_eq_true_iff.mp h).1

def NamesTenant (ctx : RequestContext) (p : KvRow → Bool) : Prop :=
  ∀ row, p row = true → row.tenantId = ctx.tenantId

theorem namesTenant_sees (p : KvRow → Bool) : NamesTenant ctx fun row => ctx.sees row && p row :=
  fun _ h => RequestContext.sees_tenant (Bool.and_eq_true_iff.mp h).1

theorem namesTenant_owns (p : KvRow → Bool) : NamesTenant ctx fun row => ctx.owns row && p row :=
  fun _ h => RequestContext.owns_tenant (Bool.and_eq_true_iff.mp h).1

theorem NamesTenant.and {p : KvRow → Bool} (h : NamesTenant ctx p) (p' : KvRow → Bool) :
    NamesTenant ctx fun row => p row && p' row :=
  fun row hboth => h row (Bool.and_eq_true_iff.mp hboth).1

section Own

variable (hctx : ctx.tenantId = tenant)

include hctx

theorem select_rowsOf {p : KvRow → Bool} (hp : NamesTenant ctx p) :
    (rowsOf tenant db).select p = db.select p :=
  Table.select_restrict fun row hrow => beq_iff_eq.mpr ((hp row hrow).trans hctx)

theorem fetch_rowsOf : fetch ctx now (rowsOf tenant db) key = fetch ctx now db key := by
  rw [fetch, fetch, select_rowsOf hctx ((namesTenant_sees _).and _)]

theorem get_rowsOf : get ctx now (rowsOf tenant db) key = get ctx now db key := by
  rw [get, get, fetch_rowsOf hctx]

theorem rowsOf_write (value : List UInt8) (expiresAt : Option Int) :
    rowsOf tenant (write ctx db key value expiresAt) =
      write ctx (rowsOf tenant db) key value expiresAt :=
  Table.restrict_upsert (beq_iff_eq.mpr hctx)

theorem rowsOf_writeValue (value : List UInt8) :
    rowsOf tenant (writeValue ctx db key value) = writeValue ctx (rowsOf tenant db) key value :=
  Table.restrict_upsert (beq_iff_eq.mpr hctx)

theorem rowsOf_refreshTtl {ttl : Nat} :
    refreshTtl ctx now (rowsOf tenant db) key ttl =
      { refreshTtl ctx now db key ttl with
        table := rowsOf tenant (refreshTtl ctx now db key ttl).table } := by
  rw [refreshTtl, refreshTtl, select_rowsOf hctx ((namesTenant_owns _).and _)]
  split_ifs
  · rfl
  · congr 1
    exact (Table.restrict_updateWhere _ _ _ _).symm

theorem rowsOf_increment {delta : Int} :
    increment ctx now (rowsOf tenant db) key delta =
      { increment ctx now db key delta with
        table := rowsOf tenant (increment ctx now db key delta).table } := by
  rw [increment, increment, get_rowsOf hctx]
  cases (get ctx now db key).elim (.ok 0) decodeI64 with
  | error e => rfl
  | ok current =>
      dsimp only
      rw [rowsOf_writeValue hctx]

/-- A call of the tenant is a call on its rows. -/
theorem perform_rowsOf (op : Operation) :
    perform ctx now (rowsOf tenant db) op =
      { perform ctx now db op with table := rowsOf tenant (perform ctx now db op).table } := by
  cases op with
  | get key => rw [perform, perform, get_rowsOf hctx]; rfl
  | put key value => rw [perform, perform, put, put, get_rowsOf hctx, ← rowsOf_write hctx]; rfl
  | delete key =>
      rw [perform, perform, delete, delete, get_rowsOf hctx, rowsOf, ← Table.restrict_deleteWhere]
      rfl
  | existsKey key => rw [perform, perform, existsKey, existsKey, fetch_rowsOf hctx]; rfl
  | list keyPrefix =>
      rw [perform, perform, list, list, select_rowsOf hctx ((namesTenant_sees _).and _)]
      rfl
  | multiGet keys =>
      have hget : get ctx now (rowsOf tenant db) = get ctx now db := by
        funext key
        exact get_rowsOf hctx
      rw [perform, perform, multiGet, multiGet, hget]
      rfl
  | multiPut pairs =>
      have hfold : ∀ db : KvTable, pairs.foldl (fun db pair => write ctx db pair.1 pair.2 none)
          (rowsOf tenant db) =
          rowsOf tenant (pairs.foldl (fun db pair => write ctx db pair.1 pair.2 none) db) := by
        induction pairs with
        | nil => exact fun _ => rfl
        | cons pair pairs ih =>
            intro db
            rw [List.foldl_cons, List.foldl_cons, ← rowsOf_write hctx, ih]
      rw [perform, perform, multiPut, multiPut, hfold]
      rfl
  | putWithTtl key value ttl =>
      rw [perform, perform, putWithTtl, putWithTtl, get_rowsOf hctx, ← rowsOf_write hctx]
      rfl
  | refreshTtl key ttl => rw [perform, perform, rowsOf_refreshTtl hctx]; rfl
  | getTtl key => rw [perform, perform, getTtl, getTtl, fetch_rowsOf hctx]; rfl
  | cas key expected newValue =>
      rw [perform, perform, cas, cas, get_rowsOf hctx, ← rowsOf_write hctx]
      split_ifs <;> rfl
  | increment key delta => rw [perform, perform, rowsOf_increment hctx]; rfl
  | decrement key delta =>
      rw [perform, perform, decrement, decrement, rowsOf_increment hctx]
      rfl
  | clearPrefix keyPrefix =>
      rw [perform, perform, clearPrefix, clearPrefix, select_rowsOf hctx (namesTenant_owns _),
        rowsOf, ← Table.restrict_deleteWhere]
      rfl
  | countPrefix keyPrefix =>
      rw [perform, perform, countPrefix, countPrefix,
        select_rowsOf hctx ((namesTenant_sees _).and _)]
      rfl
  | getStats =>
      rw [perform, perform, getStats, getStats, select_rowsOf hctx (namesTenant_sees _)]
      rfl

/-- What a call of the tenant returns and sends depends on its rows only. -/
theorem perform_congr {db' : KvTable} (h : rowsOf tenant db = rowsOf tenant db')
    (op : Operation) :
    (perform ctx now db op).result = (perform ctx now db' op).result ∧
      (perform ctx now db op).events = (perform ctx now db' op).events ∧
      rowsOf tenant (perform ctx now db op).table =
        rowsOf tenant (perform ctx now db' op).table := by
  have hsame : perform ctx now (rowsOf tenant db) op = perform ctx now (rowsOf tenant db') op := by
    rw [h]
  rw [perform_rowsOf hctx, perform_rowsOf hctx] at hsame
  rw [Effect.mk.injEq] at hsame
  exact ⟨hsame.1, hsame.2.2, hsame.2.1⟩

end Own

section Foreign

variable (hctx : ctx.tenantId ≠ tenant)

include hctx

theorem rowsOf_write_of_ne (value : List UInt8) (expiresAt : Option Int) :
    rowsOf tenant (write ctx db key value expiresAt) = rowsOf tenant db :=
  Table.restrict_upsert_of_not (beq_eq_false_iff_ne.mpr hctx)

theorem rowsOf_increment_of_ne {delta : Int} :
    rowsOf tenant (increment ctx now db key delta).table = rowsOf tenant db := by
  rw [increment]
  cases (get ctx now db key).elim (.ok 0) decodeI64 with
  | error e => rfl
  | ok current => exact Table.restrict_upsert_of_not (beq_eq_false_iff_ne.mpr hctx)

theorem not_tenant_of_ne {p : KvRow → Bool} (hp : NamesTenant ctx p) (row : KvRow)
    (hrow : p row = true) : (row.id.1 == tenant) = false :=
  beq_eq_false_iff_ne.mpr fun htenant => hctx ((hp row hrow).symm.trans htenant)

/-- A call of another tenant leaves the rows of the tenant as they are. -/
theorem rowsOf_perform_of_ne (op : Operation) :
    rowsOf tenant (perform ctx now db op).table = rowsOf tenant db := by
  cases op with
  | put key value => exact rowsOf_write_of_ne hctx value none
  | delete key =>
      exact Table.restrict_deleteWhere_of_not (not_tenant_of_ne hctx (namesTenant_owns _))
  | multiPut pairs =>
      change rowsOf tenant (pairs.foldl (fun db pair => write ctx db pair.1 pair.2 none) db) = _
      induction pairs generalizing db with
      | nil => rfl
      | cons pair pairs ih => rw [List.foldl_cons, ih, rowsOf_write_of_ne hctx]
  | putWithTtl key value ttl => exact rowsOf_write_of_ne hctx value _
  | refreshTtl key ttl =>
      change rowsOf tenant (refreshTtl ctx now db key ttl).table = _
      rw [refreshTtl]
      split_ifs
      · rfl
      · have hp : NamesTenant ctx fun row => ctx.owns row && row.key == key && row.live now :=
          (namesTenant_owns _).and _
        rw [rowsOf, rowsOf]
        exact Table.restrict_updateWhere_of_not
          (f := fun row : KvRow => { row with expiresAt := some (expiryFromTtl now ttl) })
          (fun _ => rfl) (not_tenant_of_ne hctx hp)
  | cas key expected newValue =>
      change rowsOf tenant (cas ctx now db key expected newValue).table = _
      rw [cas]
      split_ifs
      · exact rowsOf_write_of_ne hctx newValue none
      · rfl
  | increment key delta => exact rowsOf_increment_of_ne hctx
  | decrement key delta => exact rowsOf_increment_of_ne hctx
  | clearPrefix keyPrefix =>
      exact Table.restrict_deleteWhere_of_not (not_tenant_of_ne hctx (namesTenant_owns _))
  | _ => rfl

end Foreign

end Rows

/-! ## What a call notifies -/

/-- The keys whose watchers a call notifies, from the rows before it. -/
def notifiedKeys (ctx : RequestContext) (now : Int) (db : KvTable) : Operation → List String
  | .put key _ | .putWithTtl key _ _ => [key]
  | .delete key => if (get ctx now db key).isSome then [key] else []
  | .multiPut pairs => pairs.map (·.1)
  | .cas key expected _ => if get ctx now db key = expected then [key] else []
  | .increment key _ | .decrement key _ =>
      if (get ctx now db key).all fun value => value.length = 8 then [key] else []
  | .get _ | .existsKey _ | .list _ | .multiGet _ | .refreshTtl _ _ | .getTtl _ | .clearPrefix _
  | .countPrefix _ | .getStats => []

theorem increment_events (ctx : RequestContext) (now : Int) (db : KvTable) (key : String)
    (delta : Int) : (increment ctx now db key delta).events.map (·.key) =
      if (get ctx now db key).all fun value => value.length = 8 then [key] else [] := by
  rw [increment]
  cases get ctx now db key with
  | none => rfl
  | some value =>
      rw [Option.elim_some, decodeI64, Option.all_some]
      by_cases hlength : value.length = 8
      · rw [if_neg (not_not.mpr hlength), if_pos (decide_eq_true hlength)]
        rfl
      · rw [if_pos hlength, if_neg (by simpa using hlength)]
        rfl

theorem perform_events (ctx : RequestContext) (now : Int) (db : KvTable) (op : Operation) :
    (perform ctx now db op).events.map (·.key) = notifiedKeys ctx now db op := by
  cases op with
  | delete key =>
      rw [perform, notifiedKeys, delete]
      cases get ctx now db key <;> rfl
  | multiPut pairs =>
      change (pairs.map _).map _ = pairs.map _
      rw [List.map_map]
      rfl
  | refreshTtl key ttl =>
      change (refreshTtl ctx now db key ttl).events.map (·.key) = []
      rw [refreshTtl]
      split_ifs <;> rfl
  | cas key expected newValue =>
      change (cas ctx now db key expected newValue).events.map (·.key) = _
      rw [cas, notifiedKeys]
      split_ifs <;> rfl
  | increment key delta => exact increment_events ctx now db key delta
  | decrement key delta => exact increment_events ctx now db key _
  | _ => rfl

/-! ## Two runs -/

namespace SqliteKVStore

/-- A call of another tenant that changes a key finds no watch of this tenant on it. -/
def Unheard (tenant : String) (s : SqliteKVStore) (call : TimedRequest) : Prop :=
  call.ctx.tenantId ≠ tenant → ∀ op, call.request = .operation op →
    ∀ key ∈ notifiedKeys call.ctx (nowTimestamp call.secs) s.rows op, ∀ watch ∈ s.watches,
      watch.receiver = tenant → watch.matchesKey key = false

def stepBoth (tenant : String) (s : SqliteKVStore × SqliteKVStore) (call : TimedRequest) :
    SqliteKVStore × SqliteKVStore :=
  (s.1.step call, if call.ctx.tenantId == tenant then s.2.step call else s.2)

/-- The watch has got every event of the other, or more. -/
def Watch.Ahead (watch watch' : Watch) : Prop :=
  { watch with events := watch'.events } = watch' ∧ watch'.events.length ≤ watch.events.length

/-- What the two runs share as long as nothing is known of the events. -/
structure Alike (tenant : String) (s : SqliteKVStore × SqliteKVStore) : Prop where
  rows : rowsOf tenant s.1.rows = rowsOf tenant s.2.rows
  returned : (s.1.observed tenant).1 = (s.2.observed tenant).1
  watches : List.Forall₂ Watch.Ahead (s.1.observed tenant).2 (s.2.observed tenant).2

theorem run_stepBoth (tenant : String) (s : SqliteKVStore × SqliteKVStore)
    (calls : List TimedRequest) :
    run (stepBoth tenant) s calls = (run step s.1 calls, run step s.2 (callsOf tenant calls)) := by
  induction calls generalizing s with
  | nil => rfl
  | cons call calls ih =>
      rw [run_cons, ih, stepBoth, callsOf, callsOf, List.filter_cons]
      split_ifs <;> rfl

section Step

variable {tenant : String} {s : SqliteKVStore × SqliteKVStore} {call : TimedRequest}

theorem Watch.send_events (watch : Watch) (events : List KVEvent) :
    (watch.send events).events =
      watch.events ++ events.filter fun event => watch.matchesKey event.key := rfl

theorem notifyWatchers_filter (watches : List Watch) (events : List KVEvent) :
    (notifyWatchers watches events).filter (fun watch => watch.receiver == tenant) =
      notifyWatchers (watches.filter fun watch => watch.receiver == tenant) events :=
  List.filter_map

theorem Watch.Ahead.send {watch watch' : Watch} (h : Watch.Ahead watch watch')
    (events : List KVEvent) : Watch.Ahead (watch.send events) (watch'.send events) := by
  obtain ⟨hsame, hlength⟩ := h
  rw [← hsame] at hlength ⊢
  refine ⟨rfl, ?_⟩
  rw [Watch.send_events, Watch.send_events, List.length_append, List.length_append]
  exact Nat.add_le_add_right hlength _

theorem Watch.Ahead.send_left {watch watch' : Watch} (h : Watch.Ahead watch watch')
    (events : List KVEvent) : Watch.Ahead (watch.send events) watch' := by
  refine ⟨h.1, h.2.trans ?_⟩
  rw [Watch.send_events, List.length_append]
  exact Nat.le_add_right _ _

theorem send_inj {watch watch' : Watch} (h : Watch.Ahead watch watch') (events : List KVEvent) :
    watch.send events = watch'.send events ↔ watch = watch' := by
  obtain ⟨hsame, -⟩ := h
  constructor
  · intro hsend
    have hevents := congrArg Watch.events hsend
    rw [← hsame] at hevents ⊢
    rw [Watch.send_events, Watch.send_events] at hevents
    have hcancel : watch.events = watch'.events := List.append_cancel_right hevents
    rw [← hcancel]
  · rintro rfl
    rfl

theorem notifyWatchers_inj {ws ws' : List Watch} (h : List.Forall₂ Watch.Ahead ws ws')
    (events : List KVEvent) :
    notifyWatchers ws events = notifyWatchers ws' events ↔ ws = ws' := by
  induction h with
  | nil => exact Iff.rfl
  | @cons watch watch' ws ws' hwatch _ ih =>
      rw [notifyWatchers, notifyWatchers, List.map_cons, List.map_cons, List.cons.injEq,
        List.cons.injEq, send_inj hwatch]
      exact and_congr_right fun _ => ih

def Watch.Silent (watch : Watch) (events : List KVEvent) : Prop :=
  ∀ event ∈ events, watch.matchesKey event.key = false

theorem send_eq_iff {watch watch' : Watch} (h : Watch.Ahead watch watch')
    (events : List KVEvent) :
    watch.send events = watch' ↔ watch = watch' ∧ Watch.Silent watch events := by
  obtain ⟨hsame, hlength⟩ := h
  have hsilent : Watch.Silent watch events ↔
      (events.filter fun event => watch.matchesKey event.key) = [] := by
    rw [List.filter_eq_nil_iff]
    exact forall₂_congr fun _ _ => Bool.not_eq_true _ |>.symm.to_iff
  rw [hsilent]
  constructor
  · intro hsend
    have hevents := congrArg Watch.events hsend
    rw [Watch.send_events] at hevents
    rw [← hevents, List.length_append] at hlength
    have hnil : (events.filter fun event => watch.matchesKey event.key) = [] :=
      List.eq_nil_of_length_eq_zero (by omega)
    rw [hnil, List.append_nil] at hevents
    refine ⟨?_, hnil⟩
    rw [← hsame, ← hevents]
  · rintro ⟨rfl, hnil⟩
    rw [Watch.send, hnil, List.append_nil]

theorem notifyWatchers_eq_iff {ws ws' : List Watch} (h : List.Forall₂ Watch.Ahead ws ws')
    (events : List KVEvent) :
    notifyWatchers ws events = ws' ↔ ws = ws' ∧ ∀ watch ∈ ws, Watch.Silent watch events := by
  induction h with
  | nil => exact ⟨fun _ => ⟨rfl, nofun⟩, fun _ => rfl⟩
  | @cons watch watch' ws ws' hwatch _ ih =>
      rw [notifyWatchers, List.map_cons, List.cons.injEq, List.cons.injEq, send_eq_iff hwatch,
        List.forall_mem_cons]
      rw [notifyWatchers] at ih
      rw [ih, and_and_and_comm]

theorem unheard_iff {op : Operation} (htenant : call.ctx.tenantId ≠ tenant)
    (hop : call.request = .operation op) :
    s.1.Unheard tenant call ↔ ∀ watch ∈ (s.1.observed tenant).2, Watch.Silent watch
      (perform call.ctx (nowTimestamp call.secs) s.1.rows op).events := by
  have hkeys := perform_events call.ctx (nowTimestamp call.secs) s.1.rows op
  constructor
  · intro h watch hwatch event hevent
    obtain ⟨hmem, hreceiver⟩ := List.mem_filter.mp hwatch
    refine h htenant op hop event.key ?_ watch hmem (beq_iff_eq.mp hreceiver)
    rw [← hkeys]
    exact List.mem_map_of_mem hevent
  · intro h _ op' hop' key hkey watch hwatch hreceiver
    rw [hop] at hop'
    cases hop'
    rw [← hkeys] at hkey
    obtain ⟨event, hevent, rfl⟩ := List.mem_map.mp hkey
    exact h watch (List.mem_filter.mpr ⟨hwatch, beq_iff_eq.mpr hreceiver⟩) event hevent

theorem observed_watch_own {s : SqliteKVStore} (watch : Watch) (hwatch : watch.receiver = tenant) :
    ({ s with watches := s.watches ++ [watch] } : SqliteKVStore).observed tenant =
      ((s.observed tenant).1, (s.observed tenant).2 ++ [watch]) := by
  rw [observed, observed, List.filter_append, List.filter_singleton, beq_iff_eq.mpr hwatch]
  rfl

theorem observed_watch_foreign {s : SqliteKVStore} (watch : Watch)
    (hwatch : watch.receiver ≠ tenant) :
    ({ s with watches := s.watches ++ [watch] } : SqliteKVStore).observed tenant =
      s.observed tenant := by
  rw [observed, observed, List.filter_append, List.filter_singleton,
    beq_eq_false_iff_ne.mpr hwatch]
  exact congrArg _ (List.append_nil _)

theorem Alike.watch (h : Alike tenant s) (watch : Watch) (hwatch : watch.receiver = tenant) :
    Alike tenant ({ s.1 with watches := s.1.watches ++ [watch] },
        { s.2 with watches := s.2.watches ++ [watch] }) ∧
      (observed tenant { s.1 with watches := s.1.watches ++ [watch] } =
          observed tenant { s.2 with watches := s.2.watches ++ [watch] } ↔
        s.1.observed tenant = s.2.observed tenant) := by
  refine ⟨⟨h.rows, ?_, ?_⟩, ?_⟩
  · rw [observed_watch_own watch hwatch, observed_watch_own watch hwatch]
    exact h.returned
  · rw [observed_watch_own watch hwatch, observed_watch_own watch hwatch]
    exact List.rel_append h.watches (.cons ⟨rfl, le_rfl⟩ .nil)
  · rw [observed_watch_own watch hwatch, observed_watch_own watch hwatch, Prod.ext_iff,
      Prod.ext_iff]
    exact and_congr_right fun _ => List.append_left_inj _

theorem observed_operation {s : SqliteKVStore} {op : Operation}
    (hop : call.request = .operation op) :
    (s.step call).observed tenant =
      ((s.observed tenant).1 ++ [(call.ctx.tenantId,
          (perform call.ctx (nowTimestamp call.secs) s.rows op).result)].filter
            (fun entry => entry.1 == tenant),
        notifyWatchers (s.observed tenant).2
          (perform call.ctx (nowTimestamp call.secs) s.rows op).events) := by
  rw [step, hop]
  dsimp only
  rw [observed, List.filter_append, notifyWatchers_filter]
  rfl

theorem rows_operation {s : SqliteKVStore} {op : Operation}
    (hop : call.request = .operation op) :
    (s.step call).rows = (perform call.ctx (nowTimestamp call.secs) s.rows op).table := by
  rw [step, hop]

/-- A call of the tenant does the same in both runs. -/
theorem Alike.own (h : Alike tenant s) (htenant : call.ctx.tenantId = tenant) :
    Alike tenant (s.1.step call, s.2.step call) ∧
      ((s.1.step call).observed tenant = (s.2.step call).observed tenant ↔
        s.1.observed tenant = s.2.observed tenant) := by
  cases hop : call.request with
  | operation op =>
      obtain ⟨hresult, hevents, hrows⟩ :=
        @perform_congr tenant call.ctx (nowTimestamp call.secs) _ htenant _ h.rows op
      have hwatches : List.Forall₂ Watch.Ahead
          (notifyWatchers (s.1.observed tenant).2
            (perform call.ctx (nowTimestamp call.secs) s.2.rows op).events)
          (notifyWatchers (s.2.observed tenant).2
            (perform call.ctx (nowTimestamp call.secs) s.2.rows op).events) := by
        rw [notifyWatchers, notifyWatchers, List.forall₂_map_left_iff, List.forall₂_map_right_iff]
        exact h.watches.imp fun _ _ hahead => hahead.send _
      refine ⟨⟨?_, ?_, ?_⟩, ?_⟩
      · rw [rows_operation hop, rows_operation hop]
        exact hrows
      · rw [observed_operation hop, observed_operation hop, hresult, h.returned]
      · rw [observed_operation hop, observed_operation hop, hevents]
        exact hwatches
      · rw [observed_operation hop, observed_operation hop, hresult, hevents, Prod.ext_iff,
          Prod.ext_iff, h.returned]
        exact and_congr (iff_of_true rfl rfl) (notifyWatchers_inj h.watches _)
  | watch key =>
      rw [step, step, hop]
      exact h.watch ⟨key, false, call.ctx.tenantId, []⟩ htenant
  | watchPrefix keyPrefix =>
      rw [step, step, hop]
      exact h.watch ⟨keyPrefix, true, call.ctx.tenantId, []⟩ htenant

/-- A call of another tenant is seen exactly if it sends an event to a watch of the tenant. -/
theorem Alike.foreign (h : Alike tenant s) (htenant : call.ctx.tenantId ≠ tenant) :
    Alike tenant (s.1.step call, s.2) ∧
      ((s.1.step call).observed tenant = s.2.observed tenant ↔
        s.1.observed tenant = s.2.observed tenant ∧ s.1.Unheard tenant call) := by
  have hwatch : ∀ watch : Watch, watch.receiver = call.ctx.tenantId →
      (s.1.step call) = { s.1 with watches := s.1.watches ++ [watch] } →
      (∀ op, call.request ≠ .operation op) →
      Alike tenant (s.1.step call, s.2) ∧
        ((s.1.step call).observed tenant = s.2.observed tenant ↔
          s.1.observed tenant = s.2.observed tenant ∧ s.1.Unheard tenant call) := by
    intro watch hreceiver hstep hop
    have hsame : (s.1.step call).observed tenant = s.1.observed tenant := by
      rw [hstep]
      exact observed_watch_foreign watch fun heq => htenant (hreceiver.symm.trans heq)
    refine ⟨⟨?_, ?_, ?_⟩, ?_⟩
    · rw [hstep]
      exact h.rows
    · rw [hsame]
      exact h.returned
    · rw [hsame]
      exact h.watches
    · rw [hsame]
      exact (and_iff_left fun _ op hrequest => absurd hrequest (hop op)).symm
  cases hop : call.request with
  | operation op =>
      have hdropped : [(call.ctx.tenantId,
          (perform call.ctx (nowTimestamp call.secs) s.1.rows op).result)].filter
            (fun entry => entry.1 == tenant) = [] :=
        List.filter_cons_of_neg (by simpa using htenant)
      refine ⟨⟨?_, ?_, ?_⟩, ?_⟩
      · rw [rows_operation hop]
        exact (rowsOf_perform_of_ne htenant op).trans h.rows
      · rw [observed_operation hop, hdropped, List.append_nil]
        exact h.returned
      · rw [observed_operation hop]
        dsimp only
        rw [notifyWatchers, List.forall₂_map_left_iff]
        exact h.watches.imp fun _ _ hahead => hahead.send_left _
      · rw [observed_operation hop, hdropped, List.append_nil, unheard_iff htenant hop,
          Prod.ext_iff, Prod.ext_iff, notifyWatchers_eq_iff h.watches, and_assoc]
  | watch key =>
      refine hwatch ⟨key, false, call.ctx.tenantId, []⟩ rfl ?_ ?_
      · rw [step, hop]
      · rw [hop]
        nofun
  | watchPrefix keyPrefix =>
      refine hwatch ⟨keyPrefix, true, call.ctx.tenantId, []⟩ rfl ?_ ?_
      · rw [step, hop]
      · rw [hop]
        nofun

theorem alike_stepBoth (h : Alike tenant s) (call : TimedRequest) :
    Alike tenant (stepBoth tenant s call) ∧
      ((stepBoth tenant s call).1.observed tenant = (stepBoth tenant s call).2.observed tenant ↔
        s.1.observed tenant = s.2.observed tenant ∧ s.1.Unheard tenant call) := by
  rw [stepBoth]
  by_cases htenant : call.ctx.tenantId = tenant
  · rw [if_pos (beq_iff_eq.mpr htenant)]
    obtain ⟨halike, hiff⟩ := h.own htenant
    exact ⟨halike, hiff.trans (and_iff_left fun hne => absurd htenant hne).symm⟩
  · rw [if_neg (fun heq => htenant (beq_iff_eq.mp heq))]
    exact h.foreign htenant

end Step

def new : SqliteKVStore := { rows := Table.empty }

/-- What a tenant observes is what it would without the calls of the others exactly if none of
them changes a key that the tenant watches. -/
theorem tenants_isolated_iff (tenant : String) (calls : List TimedRequest) :
    (run step new calls).observed tenant = (run step new (callsOf tenant calls)).observed tenant ↔
      Along step (Unheard tenant) new calls := by
  have hboth := @run_iff_along _ _ (stepBoth tenant) (I := Alike tenant)
    (P := fun s call => s.1.Unheard tenant call)
    (Q := fun s => s.1.observed tenant = s.2.observed tenant)
    (fun s call h => (alike_stepBoth h call).1) (fun s call h => (alike_stepBoth h call).2)
    (s := (new, new)) ⟨rfl, rfl, .nil⟩ calls
  rw [run_stepBoth] at hboth
  rw [hboth]
  exact (and_iff_right rfl).trans (along_map Prod.fst fun _ _ => rfl)

/-- A tenant watches a key of its own, and another tenant puts one of the same name. -/
theorem not_tenants_isolated : ¬∀ (tenant : String) (calls : List TimedRequest),
    (run step new calls).observed tenant =
      (run step new (callsOf tenant calls)).observed tenant := by
  intro h
  have hsame := h "a" [⟨0, { tenantId := "a", nsName := "n" }, .watch "k"⟩,
    ⟨0, { tenantId := "b", nsName := "n" }, .operation (.put "k" [42])⟩]
  have hevents := congrArg (fun observed => observed.2.map (·.events)) hsame
  have hsent : [[⟨"k", .put, none, some [42]⟩]] = [([] : List KVEvent)] := hevents
  cases hsent

end SqliteKVStore

end PlexSpaces.KeyValue
