import PlexSpaces.KeyValue.Sqlite
import PlexSpaces.Lib.ExpiryMap
import PlexSpaces.Lib.Run
/-!
# The store as a map with expiry

The operations of a map from a tenant, a namespace and a key to a value that may
expire.  The rows that have expired stay in the table until a statement writes
them; every statement but one sets the expiry of the row that it finds.  An
increment leaves it, so a counter that has expired stays expired.
-/

namespace PlexSpaces.KeyValue

open PlexSpaces.Lib

/-- The map that the store is meant to be. -/
abbrev EntryMap := ExpiryMap (String × String × String) (List UInt8) Int

/-! ## The operations of the map -/

section Map

variable (now : Int) (m : EntryMap) (k : String × String × String)

def EntryMap.value? : Option (List UInt8) := (m.lookup now k).map (·.value)

def EntryMap.refresh (key : String) (ttl : Nat) : Except KVError Unit × EntryMap :=
  match m.lookup now k with
  | none => (.error (.keyNotFound key), m)
  | some e => (.ok (), Function.update m k (some ⟨e.value, some (now + ttl)⟩))

def EntryMap.timeLeft : Option Nat :=
  (m.lookup now k).bind fun e => e.expiresAt.map fun exp => (exp - now).toNat

def EntryMap.compareAndSet (expected : Option (List UInt8)) (newValue : List UInt8) :
    Bool × EntryMap :=
  if m.value? now k = expected then (true, Function.update m k (some ⟨newValue, none⟩))
  else (false, m)

/-- A counter that is absent counts from zero; one that expires still does. -/
def EntryMap.add (delta : Int) : Except KVError Int × EntryMap :=
  match (m.value? now k).elim (.ok 0) decodeI64 with
  | .error e => (.error e, m)
  | .ok current =>
      (.ok (current + delta), Function.update m k
        (some ⟨encodeI64 (current + delta), (m.lookup now k).bind (·.expiresAt)⟩))

end Map

/-- The operations of the map; the others are left alone. -/
def Operation.onEntries : Operation → Bool
  | .get _ | .put _ _ | .delete _ | .existsKey _ | .multiGet _ | .multiPut _ | .putWithTtl _ _ _
  | .refreshTtl _ _ | .getTtl _ | .cas _ _ _ | .increment _ _ | .decrement _ _ => true
  | .list _ | .clearPrefix _ | .countPrefix _ | .getStats => false

def EntryMap.perform (ctx : RequestContext) (now : Int) (m : EntryMap) :
    Operation → Except KVError Reply × EntryMap
  | .get key => (.ok (.value (m.value? now (ctx.rowId key))), m)
  | .put key value => (.ok .unit, Function.update m (ctx.rowId key) (some ⟨value, none⟩))
  | .delete key => (.ok .unit, Function.update m (ctx.rowId key) none)
  | .existsKey key => (.ok (.flag (m.lookup now (ctx.rowId key)).isSome), m)
  | .multiGet keys => (.ok (.values (keys.map fun key => m.value? now (ctx.rowId key))), m)
  | .multiPut pairs =>
      (.ok .unit, pairs.foldl
        (fun m pair => Function.update m (ctx.rowId pair.1) (some ⟨pair.2, none⟩)) m)
  | .putWithTtl key value ttl =>
      (.ok .unit, Function.update m (ctx.rowId key) (some ⟨value, some (now + ttl)⟩))
  | .refreshTtl key ttl => (m.refresh now (ctx.rowId key) key ttl).map (·.map fun _ => .unit) id
  | .getTtl key => (.ok (.ttl (m.timeLeft now (ctx.rowId key))), m)
  | .cas key expected newValue =>
      (m.compareAndSet now (ctx.rowId key) expected newValue).map (fun flag => .ok (.flag flag)) id
  | .increment key delta => (m.add now (ctx.rowId key) delta).map (·.map .number) id
  | .decrement key delta => (m.add now (ctx.rowId key) (-delta)).map (·.map .number) id
  | .list _ | .clearPrefix _ | .countPrefix _ | .getStats => (.ok .unit, m)

/-! ## The rows as a map -/

def KvRow.entry (row : KvRow) : Expiring (List UInt8) Int := ⟨row.value, row.expiresAt⟩

def entries (db : KvTable) : EntryMap := fun k => (db.find k).map KvRow.entry

/-- The context of a caller with a namespace of its own. -/
structure RequestContext.Ordinary (ctx : RequestContext) : Prop where
  admin : ctx.admin = false
  nsName : ctx.nsName ≠ ""

section Entries

variable {ctx : RequestContext} {now : Int} {db : KvTable} {key : String}

theorem RequestContext.Ordinary.sees (hctx : ctx.Ordinary) : ctx.sees = ctx.owns := by
  have hns : ctx.nsName.isEmpty = false :=
    Bool.eq_false_iff.mpr fun h => hctx.nsName (String.isEmpty_iff.mp h)
  funext row
  rw [RequestContext.sees, RequestContext.owns, RequestContext.shouldSkipNamespaceFilter, hns,
    Bool.and_false, Bool.false_or]

theorem owns_and_key (row : KvRow) :
    (ctx.owns row && row.key == key) = decide (row.id = ctx.rowId key) := by
  rw [Bool.eq_iff_iff, decide_eq_true_iff, RequestContext.owns, Bool.and_eq_true, Bool.and_eq_true,
    beq_iff_eq, beq_iff_eq, beq_iff_eq, KvRow.id, RequestContext.rowId, Prod.mk.injEq,
    Prod.mk.injEq, and_assoc]

theorem fetch_eq (hctx : ctx.Ordinary) :
    fetch ctx now db key = (db.find (ctx.rowId key)).filter fun row => row.live now := by
  rw [fetch, Table.select, List.head?_filter, hctx.sees]
  simp only [owns_and_key]
  exact db.find?_key_and _ _

theorem fetch_entry (hctx : ctx.Ordinary) :
    (fetch ctx now db key).map KvRow.entry = (entries db).lookup now (ctx.rowId key) := by
  rw [fetch_eq hctx, ExpiryMap.lookup, entries, Option.filter_map]
  rfl

theorem get_eq (hctx : ctx.Ordinary) :
    get ctx now db key = (entries db).value? now (ctx.rowId key) := by
  rw [EntryMap.value?, ← fetch_entry hctx, Option.map_map]
  rfl

theorem entries_upsert (value : List UInt8) (expiresAt : Option Int) (f : KvRow → KvRow)
    (hf : ∀ row, (f row).id = row.id) :
    entries (db.upsert ⟨ctx.tenantId, ctx.nsName, key, value, expiresAt⟩ f hf) =
      Function.update (entries db) (ctx.rowId key)
        (some ((((db.find (ctx.rowId key)).map f).map KvRow.entry).getD ⟨value, expiresAt⟩)) := by
  funext k
  rw [entries, Table.find_upsert, Function.update_apply]
  have hkey : KvRow.id ⟨ctx.tenantId, ctx.nsName, key, value, expiresAt⟩ = ctx.rowId key := rfl
  rw [hkey]
  split_ifs with hk
  · cases db.find (ctx.rowId key) with
    | none => rfl
    | some row => rfl
  · rfl

theorem entries_write (value : List UInt8) (expiresAt : Option Int) :
    entries (write ctx db key value expiresAt) =
      Function.update (entries db) (ctx.rowId key) (some ⟨value, expiresAt⟩) := by
  refine (entries_upsert value expiresAt _ _).trans ?_
  cases db.find (ctx.rowId key) with
  | none => rfl
  | some row => rfl

theorem entries_writeValue (value : List UInt8) :
    entries (writeValue ctx db key value) = Function.update (entries db) (ctx.rowId key)
      (some ⟨value, (entries db (ctx.rowId key)).bind (·.expiresAt)⟩) := by
  refine (entries_upsert value none _ _).trans ?_
  rw [entries]
  cases db.find (ctx.rowId key) with
  | none => rfl
  | some row => rfl

theorem entries_delete :
    entries (delete ctx now db key).table = Function.update (entries db) (ctx.rowId key) none := by
  funext k
  rw [entries, delete, Table.find_deleteWhere, Function.update_apply]
  simp only [owns_and_key]
  cases hfind : db.find k with
  | none =>
      rw [entries, hfind, Option.filter_none, Option.map_none, ite_self]
  | some row =>
      rw [Option.filter_some, Table.key_of_find hfind]
      by_cases hk : k = ctx.rowId key
      · rw [if_neg (by simp [hk]), if_pos hk]
        rfl
      · rw [if_pos (by simp [hk]), if_neg hk, entries, hfind]

theorem lookup_some_of_row {k : String × String × String} {row : KvRow}
    (hfind : db.find k = some row) :
    (entries db).lookup now k = if row.live now then some row.entry else none := by
  rw [ExpiryMap.lookup, entries, hfind, Option.map_some, Option.filter_some]
  rfl

theorem refreshTtl_spec {ttl : Nat} (hexpiry : expiryFromTtl now ttl = now + ttl) :
    ((refreshTtl ctx now db key ttl).result, entries (refreshTtl ctx now db key ttl).table) =
      (entries db).refresh now (ctx.rowId key) key ttl := by
  have haffected : (fun row : KvRow => ctx.owns row && row.key == key && row.live now) =
      fun row => decide (row.id = ctx.rowId key) && row.live now := by
    funext row
    rw [owns_and_key]
  have hfetched := db.find?_key_and (ctx.rowId key) fun row => row.live now
  have hnone : (db.select fun row => decide (row.id = ctx.rowId key) && row.live now).isEmpty =
      ((db.find (ctx.rowId key)).filter fun row => row.live now).isNone := by
    rw [← hfetched, Bool.eq_iff_iff, List.isEmpty_iff, Option.isNone_iff_eq_none, Table.select,
      List.filter_eq_nil_iff, List.find?_eq_none]
  rw [refreshTtl, haffected, hnone, EntryMap.refresh]
  cases hfind : db.find (ctx.rowId key) with
  | none =>
      rw [ExpiryMap.lookup, entries, hfind]
      rfl
  | some row =>
      rw [lookup_some_of_row hfind, Option.filter_some]
      cases hlive : row.live now with
      | false => rfl
      | true =>
          simp only [if_true, Option.isNone_some, Bool.false_eq_true, if_false, hexpiry]
          refine Prod.ext rfl ?_
          funext k
          dsimp only
          rw [entries, Table.find_updateWhere, Function.update_apply]
          split_ifs with hk
          · rw [hk, hfind, Option.map_some, Option.map_some, Table.key_of_find hfind,
              decide_eq_true rfl, hlive]
            rfl
          · cases hother : db.find k with
            | none => rw [entries, hother]; rfl
            | some row' =>
                rw [Option.map_some, Option.map_some, Table.key_of_find hother, decide_eq_false hk,
                  entries, hother]
                rfl

/-- The row of a counter, when there is one, has not expired. -/
def CounterLive (ctx : RequestContext) (now : Int) (db : KvTable) (key : String) : Prop :=
  ∀ row ∈ db.find (ctx.rowId key), row.live now = true

/-- What is counted from, for the sum with the delta to be one that is kept. -/
def SumFits (ctx : RequestContext) (now : Int) (db : KvTable) (key : String) (delta : Int) : Prop :=
  ∀ current, (get ctx now db key).elim (.ok 0) decodeI64 = .ok current →
    asI64 (current + delta) = current + delta

theorem sumFits_of_eq {key : String} {delta : Int} (current : Int)
    (h : (get ctx now db key).elim (.ok 0) decodeI64 = .ok current)
    (hfits : asI64 (current + delta) = current + delta) : SumFits ctx now db key delta := by
  intro current' hcurrent
  cases h.symm.trans hcurrent
  exact hfits

theorem increment_result {delta : Int} (hctx : ctx.Ordinary)
    (hfits : SumFits ctx now db key delta) :
    (increment ctx now db key delta).result = ((entries db).add now (ctx.rowId key) delta).1 := by
  rw [increment, EntryMap.add, ← get_eq hctx]
  cases hcurrent : (get ctx now db key).elim (.ok 0) decodeI64 with
  | error e => rfl
  | ok current =>
      dsimp only
      rw [hfits current hcurrent]

theorem increment_entries {delta : Int} (hctx : ctx.Ordinary)
    (hfits : SumFits ctx now db key delta) (hlive : CounterLive ctx now db key) :
    entries (increment ctx now db key delta).table =
      ((entries db).add now (ctx.rowId key) delta).2 := by
  rw [increment, EntryMap.add, ← get_eq hctx]
  cases hcurrent : (get ctx now db key).elim (.ok 0) decodeI64 with
  | error e => rfl
  | ok current =>
      dsimp only
      rw [hfits current hcurrent, entries_writeValue]
      congr 3
      cases hfind : db.find (ctx.rowId key) with
      | none =>
          rw [ExpiryMap.lookup, entries, hfind]
          rfl
      | some row =>
          rw [lookup_some_of_row hfind, if_pos (hlive row hfind), entries, hfind]
          rfl

/-- A counter whose row has expired is set, and stays expired. -/
theorem get_increment_of_expired {delta : Int} (hctx : ctx.Ordinary)
    (hexpired : ¬CounterLive ctx now db key) :
    get ctx now (increment ctx now db key delta).table key = none := by
  rw [CounterLive] at hexpired
  push Not at hexpired
  obtain ⟨row, hfind, hdead⟩ := hexpired
  have hnone : get ctx now db key = none := by
    rw [get_eq hctx, EntryMap.value?, lookup_some_of_row hfind, if_neg hdead]
    rfl
  rw [get_eq hctx, increment, hnone]
  dsimp only [Option.elim]
  rw [entries_writeValue, EntryMap.value?, ExpiryMap.lookup_update_self, entries, hfind,
    Option.filter_some]
  exact congrArg _ (if_neg hdead)

end Entries

/-! ## Calls on equal maps -/

section Same

variable {ctx : RequestContext} {now : Int} {m m' : EntryMap}

theorem EntryMap.value?_congr (h : m.Same now m') (k : String × String × String) :
    m.value? now k = m'.value? now k := by
  rw [value?, value?, h k]

theorem EntryMap.add_congr (h : m.Same now m') (k : String × String × String) (delta : Int) :
    (m.add now k delta).1 = (m'.add now k delta).1 ∧
      ExpiryMap.Same now (m.add now k delta).2 (m'.add now k delta).2 := by
  rw [add, add, value?_congr h, h k]
  cases (m'.value? now k).elim (.ok 0) decodeI64 with
  | error e => exact ⟨rfl, h⟩
  | ok current => exact ⟨rfl, h.update _ _⟩

theorem EntryMap.perform_congr (h : m.Same now m') (op : Operation) :
    (m.perform ctx now op).1 = (m'.perform ctx now op).1 ∧
      ExpiryMap.Same now (m.perform ctx now op).2 (m'.perform ctx now op).2 := by
  cases op with
  | get key => exact ⟨congrArg (Except.ok ∘ Reply.value) (value?_congr h _), h⟩
  | put key value => exact ⟨rfl, h.update _ _⟩
  | delete key => exact ⟨rfl, h.update _ _⟩
  | existsKey key =>
      refine ⟨?_, h⟩
      rw [perform, perform, h]
  | multiGet keys =>
      refine ⟨?_, h⟩
      rw [perform, perform]
      simp only [value?_congr h]
  | multiPut pairs =>
      refine ⟨rfl, ?_⟩
      rw [perform, perform]
      dsimp only
      induction pairs generalizing m m' with
      | nil => exact h
      | cons pair pairs ih => exact ih (h.update _ _)
  | putWithTtl key value ttl => exact ⟨rfl, h.update _ _⟩
  | refreshTtl key ttl =>
      rw [perform, perform, refresh, refresh, h]
      cases m'.lookup now (ctx.rowId key) with
      | none => exact ⟨rfl, h⟩
      | some e => exact ⟨rfl, h.update _ _⟩
  | getTtl key =>
      refine ⟨?_, h⟩
      rw [perform, perform, timeLeft, timeLeft, h]
  | cas key expected newValue =>
      rw [perform, perform, compareAndSet, compareAndSet, value?_congr h]
      split_ifs
      · exact ⟨rfl, h.update _ _⟩
      · exact ⟨rfl, h⟩
  | increment key delta =>
      obtain ⟨hresult, hnext⟩ := add_congr h (ctx.rowId key) delta
      exact ⟨congrArg (·.map Reply.number) hresult, hnext⟩
  | decrement key delta =>
      obtain ⟨hresult, hnext⟩ := add_congr h (ctx.rowId key) (-delta)
      exact ⟨congrArg (·.map Reply.number) hresult, hnext⟩
  | _ => exact ⟨rfl, h⟩

end Same

/-! ## A call on the rows -/

def Operation.counter : Operation → Option String
  | .increment key _ | .decrement key _ => some key
  | _ => none

def Operation.Fits (ctx : RequestContext) (now : Int) (db : KvTable) : Operation → Prop
  | .putWithTtl _ _ ttl | .refreshTtl _ ttl => now + ttl < 2 ^ 63
  | .increment key delta => SumFits ctx now db key delta
  | .decrement key delta => asI64 (-delta) = -delta ∧ SumFits ctx now db key (-delta)
  | _ => True

def EntryMap.Bounded (m : EntryMap) : Prop :=
  ∀ k e, m k = some e → ∀ exp ∈ e.expiresAt, exp < 2 ^ 63

section Perform

variable {ctx : RequestContext} {now : Int} {db : KvTable} {m : EntryMap}

theorem asI64_of_nonneg {n : Int} (hn : 0 ≤ n) (hlt : n < 2 ^ 63) : asI64 n = n :=
  Int.bmod_eq_of_le (by omega) (by omega)

theorem expiryFromTtl_eq {ttl : Nat} (hnow : 0 ≤ now) (hfits : now + ttl < 2 ^ 63) :
    expiryFromTtl now ttl = now + ttl := by
  rw [expiryFromTtl, asI64_of_nonneg (Int.natCast_nonneg ttl) (by omega),
    asI64_of_nonneg (by omega) hfits]

theorem getTtl_eq {key : String} (hctx : ctx.Ordinary) (hnow : 0 ≤ now)
    (hbounded : (entries db).Bounded) :
    getTtl ctx now db key = (entries db).timeLeft now (ctx.rowId key) := by
  rw [getTtl, EntryMap.timeLeft, fetch_eq hctx]
  cases hfind : db.find (ctx.rowId key) with
  | none =>
      rw [ExpiryMap.lookup, entries, hfind]
      rfl
  | some row =>
      rw [lookup_some_of_row hfind, Option.filter_some]
      split_ifs with hlive
      · cases hexp : row.expiresAt with
        | none => simp [KvRow.entry, hexp]
        | some exp =>
            have hentry : entries db (ctx.rowId key) = some row.entry := by
              rw [entries, hfind]
              rfl
            have hlater : now < exp := by
              rw [KvRow.live, hexp] at hlive
              exact of_decide_eq_true hlive
            have hless : exp < 2 ^ 63 := hbounded _ _ hentry exp hexp
            have hleft : (exp - now) % 2 ^ 64 = exp - now :=
              Int.emod_eq_of_lt (by omega) (by omega)
            rw [Option.bind_some, Option.bind_some, KvRow.entry, hexp, Option.map_some,
              Option.map_some, hleft]
      · rfl

theorem entries_multiPut (pairs : List (String × List UInt8)) :
    entries (multiPut ctx db pairs).table = pairs.foldl
      (fun m pair => Function.update m (ctx.rowId pair.1) (some ⟨pair.2, none⟩)) (entries db) := by
  rw [multiPut]
  dsimp only
  induction pairs generalizing db with
  | nil => rfl
  | cons pair pairs ih => rw [List.foldl_cons, List.foldl_cons, ih, entries_write]

variable {op : Operation}

theorem perform_result (hctx : ctx.Ordinary) (hop : op.onEntries = true) (hnow : 0 ≤ now)
    (hfits : op.Fits ctx now db) (hbounded : (entries db).Bounded) :
    (perform ctx now db op).result = ((entries db).perform ctx now op).1 := by
  cases op with
  | get key => exact congrArg (Except.ok ∘ Reply.value) (get_eq hctx)
  | existsKey key =>
      rw [perform, EntryMap.perform, ← fetch_entry hctx, Option.isSome_map]
      rfl
  | multiGet keys =>
      rw [perform, EntryMap.perform]
      simp only [← get_eq hctx]
      rfl
  | refreshTtl key ttl =>
      have hspec := @refreshTtl_spec ctx now db key ttl (expiryFromTtl_eq hnow hfits)
      exact congrArg (Except.map fun _ => Reply.unit) (congrArg Prod.fst hspec)
  | getTtl key => exact congrArg (Except.ok ∘ Reply.ttl) (getTtl_eq hctx hnow hbounded)
  | cas key expected newValue =>
      rw [perform, EntryMap.perform, cas, EntryMap.compareAndSet, ← get_eq hctx]
      split_ifs <;> rfl
  | increment key delta => exact congrArg (Except.map Reply.number) (increment_result hctx hfits)
  | decrement key delta =>
      rw [perform, decrement, hfits.1]
      exact congrArg (Except.map Reply.number) (increment_result hctx hfits.2)
  | put | delete | multiPut | putWithTtl => rfl
  | list | clearPrefix | countPrefix | getStats => cases hop

theorem perform_entries (hctx : ctx.Ordinary) (hop : op.onEntries = true) (hnow : 0 ≤ now)
    (hfits : op.Fits ctx now db) (hlive : ∀ key ∈ op.counter, CounterLive ctx now db key) :
    entries (perform ctx now db op).table = ((entries db).perform ctx now op).2 := by
  cases op with
  | put key value => exact entries_write value none
  | delete key => exact @entries_delete ctx now db key
  | multiPut pairs => exact entries_multiPut pairs
  | putWithTtl key value ttl =>
      rw [perform, putWithTtl, expiryFromTtl_eq hnow hfits]
      exact entries_write value _
  | refreshTtl key ttl =>
      have hspec := @refreshTtl_spec ctx now db key ttl (expiryFromTtl_eq hnow hfits)
      exact congrArg Prod.snd hspec
  | cas key expected newValue =>
      rw [perform, EntryMap.perform, cas, EntryMap.compareAndSet, ← get_eq hctx]
      split_ifs
      · exact entries_write newValue none
      · rfl
  | increment key delta => exact increment_entries hctx hfits (hlive key rfl)
  | decrement key delta =>
      rw [perform, decrement, hfits.1]
      exact increment_entries hctx hfits.2 (hlive key rfl)
  | get | existsKey | multiGet | getTtl => rfl
  | list | clearPrefix | countPrefix | getStats => cases hop

theorem EntryMap.Bounded.update (hm : m.Bounded) (k : String × String × String)
    {e : Option (Expiring (List UInt8) Int)}
    (he : ∀ e' ∈ e, ∀ exp ∈ e'.expiresAt, exp < 2 ^ 63) :
    EntryMap.Bounded (Function.update m k e) := by
  intro k' e' hfound
  rw [Function.update_apply] at hfound
  split_ifs at hfound
  · exact he e' hfound
  · exact hm k' e' hfound

theorem EntryMap.Bounded.add (hm : m.Bounded) (k : String × String × String) (delta : Int) :
    EntryMap.Bounded (m.add now k delta).2 := by
  rw [EntryMap.add]
  cases (m.value? now k).elim (.ok 0) decodeI64 with
  | error e => exact hm
  | ok current =>
      refine hm.update k fun e' he' exp hexp => ?_
      cases he'
      obtain ⟨e, hfound, hexp⟩ := Option.bind_eq_some_iff.mp hexp
      exact hm k e (Option.filter_eq_some_iff.mp hfound).1 exp hexp

/-- No call writes a time that is not a 64-bit number. -/
theorem EntryMap.Bounded.perform (hm : m.Bounded) (hfits : op.Fits ctx now db) :
    EntryMap.Bounded (m.perform ctx now op).2 := by
  cases op with
  | put key value => exact hm.update _ fun e he exp hexp => by cases he; cases hexp
  | delete key => exact hm.update _ nofun
  | multiPut pairs =>
      rw [EntryMap.perform]
      dsimp only
      clear hfits
      induction pairs generalizing m with
      | nil => exact hm
      | cons pair pairs ih =>
          exact ih (hm.update _ fun e he exp hexp => by cases he; cases hexp)
  | putWithTtl key value ttl =>
      exact hm.update _ fun e he exp hexp => by cases he; cases hexp; exact hfits
  | refreshTtl key ttl =>
      rw [EntryMap.perform, EntryMap.refresh]
      cases m.lookup now (ctx.rowId key) with
      | none => exact hm
      | some e => exact hm.update _ fun e he exp hexp => by cases he; cases hexp; exact hfits
  | cas key expected newValue =>
      rw [EntryMap.perform, EntryMap.compareAndSet]
      split_ifs
      · exact hm.update _ fun e he exp hexp => by cases he; cases hexp
      · exact hm
  | increment key delta => exact hm.add _ delta
  | decrement key delta => exact hm.add _ (-delta)
  | _ => exact hm

end Perform

/-! ## Runs -/

/-- A call, and how many seconds after the one before it is made. -/
structure Call where
  wait : Nat
  ctx : RequestContext
  op : Operation

/-- The store and the map, side by side, and the time in seconds. -/
structure Paired where
  db : KvTable
  map : EntryMap
  clock : Nat

namespace Paired

def start (clock : Nat) : Paired := ⟨Table.empty, fun _ => none, clock⟩

variable (s : Paired) (call : Call)

def time : Nat := s.clock + call.wait

def effect : Effect Reply := perform call.ctx (nowTimestamp (s.time call)) s.db call.op

def intended : Except KVError Reply × EntryMap := s.map.perform call.ctx (s.time call) call.op

def step : Paired := ⟨(s.effect call).table, (s.intended call).2, s.time call⟩

/-- A call of a map operation, by a caller with a namespace, whose sums are 64-bit numbers. -/
structure Allowed : Prop where
  ordinary : call.ctx.Ordinary
  onEntries : call.op.onEntries = true
  time : s.time call < 2 ^ 63
  fits : call.op.Fits call.ctx (s.time call) s.db

/-- The store returns what the map does, and so does a `get` that comes right after. -/
structure Agrees : Prop where
  result : (s.effect call).result = (s.intended call).1
  gets : ∀ ctx : RequestContext, ctx.Ordinary → ∀ key,
    get ctx (nowTimestamp (s.time call)) (s.effect call).table key =
      (s.intended call).2.value? (s.time call) (ctx.rowId key)

/-- The call does not count in a row that has expired. -/
def CountsLive : Prop :=
  ∀ key ∈ call.op.counter, CounterLive call.ctx (s.time call) s.db key

instance : Decidable (s.CountsLive call) :=
  inferInstanceAs (Decidable (∀ key ∈ call.op.counter,
    ∀ row ∈ s.db.find (call.ctx.rowId key), row.live (s.time call) = true))

/-- The rows are the map. -/
structure Represents : Prop where
  same : ExpiryMap.Same (s.clock : Int) (entries s.db) s.map
  bounded : (entries s.db).Bounded

variable {s call}

theorem represents_start (clock : Nat) : (start clock).Represents :=
  ⟨.refl _ _, nofun⟩

theorem Allowed.now (h : s.Allowed call) : nowTimestamp (s.time call) = s.time call :=
  asI64_of_nonneg (Int.natCast_nonneg _) (by exact_mod_cast h.time)

theorem Represents.later (hs : s.Represents) :
    ExpiryMap.Same (s.time call : Int) (entries s.db) s.map :=
  hs.same.later (Int.ofNat_le.mpr (Nat.le_add_right s.clock call.wait))

theorem Represents.result (hs : s.Represents) (h : s.Allowed call) :
    (s.effect call).result = (s.intended call).1 := by
  rw [effect, intended, h.now,
    perform_result h.ordinary h.onEntries (Int.natCast_nonneg _) h.fits hs.bounded]
  exact (EntryMap.perform_congr hs.later call.op).1

theorem Represents.step (hs : s.Represents) (h : s.Allowed call) (hlive : s.CountsLive call) :
    (s.step call).Represents := by
  have hentries : entries (s.effect call).table =
      ((entries s.db).perform call.ctx (s.time call) call.op).2 := by
    rw [effect, h.now]
    exact perform_entries h.ordinary h.onEntries (Int.natCast_nonneg _) h.fits hlive
  refine ⟨?_, ?_⟩
  · rw [Paired.step, hentries]
    exact (EntryMap.perform_congr hs.later call.op).2
  · rw [Paired.step, hentries]
    exact hs.bounded.perform h.fits

theorem Represents.agrees (hs : s.Represents) (h : s.Allowed call) (hlive : s.CountsLive call) :
    s.Agrees call := by
  refine ⟨hs.result h, fun ctx hctx key => ?_⟩
  rw [h.now, get_eq hctx]
  exact EntryMap.value?_congr (hs.step h hlive).same _

/-- What was counted in a row that has expired is lost. -/
theorem Allowed.countsLive (h : s.Allowed call) (hs : s.Represents) (hagrees : s.Agrees call) :
    s.CountsLive call := by
  have hcounted : ∀ key delta, s.intended call = (s.map.add (s.time call) (call.ctx.rowId key)
      delta).map (·.map .number) id → (s.effect call).table =
        (increment call.ctx (s.time call) s.db key delta).table →
      CounterLive call.ctx (s.time call) s.db key := by
    intro key delta hintended heffect
    by_contra hexpired
    have hlost := hagrees.gets call.ctx h.ordinary key
    rw [h.now, heffect, get_increment_of_expired h.ordinary hexpired, hintended] at hlost
    have hnone : (entries s.db).lookup (s.time call : Int) (call.ctx.rowId key) = none := by
      rw [CounterLive] at hexpired
      push Not at hexpired
      obtain ⟨row, hfind, hdead⟩ := hexpired
      rw [lookup_some_of_row hfind, if_neg hdead]
    rw [hs.later] at hnone
    have hadd : (s.map.add (s.time call) (call.ctx.rowId key) delta).2 =
        Function.update s.map (call.ctx.rowId key) (some ⟨encodeI64 (0 + delta), none⟩) := by
      rw [EntryMap.add, EntryMap.value?, hnone]
      rfl
    rw [Prod.map_snd, hadd, id_eq, EntryMap.value?, ExpiryMap.lookup_update_self] at hlost
    cases hlost
  intro key hkey
  cases hop : call.op with
  | increment _ delta =>
      rw [hop] at hkey
      cases hkey
      refine hcounted key delta ?_ ?_
      · rw [intended, hop]
        rfl
      · rw [effect, hop, h.now]
        rfl
  | decrement _ delta =>
      rw [hop] at hkey
      cases hkey
      refine hcounted key (-delta) ?_ ?_
      · rw [intended, hop]
        rfl
      · have hfits := h.fits
        rw [hop] at hfits
        rw [effect, hop, h.now, perform, decrement, hfits.1]
        rfl
  | _ =>
      rw [hop] at hkey
      cases hkey

end Paired

/-- In every run the store returns what the map does exactly if no call counts in a row that
has expired. -/
theorem store_is_map_iff (clock : Nat) (calls : List Call)
    (hallowed : Along Paired.step Paired.Allowed (.start clock) calls) :
    Along Paired.step Paired.Agrees (.start clock) calls ↔
      Along Paired.step Paired.CountsLive (.start clock) calls := by
  have hboth : Along Paired.step (fun s call => s.Allowed call ∧ s.Agrees call) (.start clock)
        calls ↔
      Along Paired.step (fun s call => s.Allowed call ∧ s.CountsLive call) (.start clock) calls :=
    along_congr (I := Paired.Represents)
      (fun s call hs => and_congr_right fun h => ⟨h.countsLive hs, hs.agrees h⟩)
      (fun s call hs h => hs.step h.1 (h.1.countsLive hs h.2))
      (Paired.represents_start clock) calls
  rw [along_and, along_and] at hboth
  exact (and_congr_right_iff.mp hboth) hallowed

/-- A counter is counted up and down while it lives, and read before and after it has expired. -/
def liveCounter : List Call :=
  let ctx : RequestContext := { tenantId := "t", nsName := "n" }
  [⟨0, ctx, .putWithTtl "k" (encodeI64 5) 10⟩, ⟨3, ctx, .increment "k" 2⟩,
    ⟨2, ctx, .decrement "k" 4⟩, ⟨1, ctx, .get "k"⟩, ⟨5, ctx, .get "k"⟩]

theorem store_is_map_iff_liveCounter :
    Along Paired.step Paired.Agrees (.start 0) liveCounter := by
  have hctx : RequestContext.Ordinary { tenantId := "t", nsName := "n" } := ⟨rfl, by decide⟩
  have hallowed : Along Paired.step Paired.Allowed (.start 0) liveCounter :=
    ⟨⟨hctx, rfl, by decide, Int.lt_of_add_one_le (by decide)⟩,
      ⟨hctx, rfl, by decide, sumFits_of_eq 5 (by decide +kernel) rfl⟩,
      ⟨hctx, rfl, by decide, rfl, sumFits_of_eq 7 (by decide +kernel) rfl⟩,
      ⟨hctx, rfl, by decide, trivial⟩, ⟨hctx, rfl, by decide, trivial⟩, trivial⟩
  refine (store_is_map_iff 0 liveCounter hallowed).mpr ?_
  decide +kernel

def shortCounter (delta : Int) : List Call :=
  [⟨0, { tenantId := "t", nsName := "n" }, .putWithTtl "k" (encodeI64 5) 1⟩,
    ⟨1, { tenantId := "t", nsName := "n" }, .increment "k" delta⟩]

theorem allowed_shortCounter : Along Paired.step Paired.Allowed (.start 0) (shortCounter 2) := by
  have hctx : RequestContext.Ordinary { tenantId := "t", nsName := "n" } := ⟨rfl, by decide⟩
  refine ⟨⟨hctx, rfl, by decide, Int.lt_of_add_one_le (by decide)⟩, ⟨hctx, rfl, by decide, ?_⟩,
    trivial⟩
  intro current hcurrent
  have hzero : Except.ok 0 = Except.ok (ε := KVError) current := hcurrent
  cases hzero
  decide

/-- The counter is two when it is incremented, and absent right after. -/
theorem not_store_is_map : ¬∀ (clock : Nat) (calls : List Call),
    Along Paired.step Paired.Allowed (.start clock) calls →
      Along Paired.step Paired.Agrees (.start clock) calls := by
  intro h
  have hall := allowed_shortCounter
  have hfirst := (Paired.represents_start 0).step hall.1 nofun
  have hcounts := hall.2.1.countsLive hfirst (h 0 (shortCounter 2) hall).2.1 "k" rfl
  have hrow : (write { tenantId := "t", nsName := "n" } Table.empty "k" (encodeI64 5)
      (some (expiryFromTtl (nowTimestamp 0) 1))).find ("t", "n", "k") =
      some ⟨"t", "n", "k", encodeI64 5, some (expiryFromTtl (nowTimestamp 0) 1)⟩ := rfl
  have hlive : KvRow.live 1 _ = true := hcounts _ hrow
  rw [KvRow.live, expiryFromTtl_eq (by decide) (by decide)] at hlive
  exact Bool.false_ne_true hlive

end PlexSpaces.KeyValue
