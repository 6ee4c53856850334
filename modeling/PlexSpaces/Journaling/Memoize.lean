import PlexSpaces.Facets.Container
import PlexSpaces.Lib.Hex
import Mathlib.Data.List.Dedup
import Mathlib.Logic.Function.Basic
/-!
# Memoized results

Facets that keep the results of their actors in one key-value store and answer from it.  The key
of a result is a prefix with the hash of actor, handler and arguments, or with the `memo_key` that
the caller gives, as it is.  The keys of a prefix, oldest first, are kept in a list that is stored
under the prefix, too, so that a caller can name the key of the list, or the key of another
handler or actor.  Where that does not happen, a hit comes from the same actor and handler, and no
more results than `max_entries` are kept (`memoization_transparent`).
-/

namespace PlexSpaces.Journaling

open PlexSpaces.Lib PlexSpaces.Facets

structure MemoizeConfig where
  keyPrefix : String
  ttlSeconds : UInt32
  maxEntries : UInt32
  handlerNames : List String

structure MemoizeFacet where
  actorId : Option String
  tenantId : String
  ns : String

/-- A method call that a facet intercepts; `memoKey` is the header. -/
structure MemoCall where
  tenantId : String
  ns : String
  actorId : String
  method : String
  args : List UInt8
  memoKey : Option String

/-- What the facets store: the envelope of a result with its digits, or a list of keys. -/
inductive Cell
  | envelope (v : List Char) (exp : Nat)
  | keyList (keys : List String)
  deriving DecidableEq

abbrev Cells := Assoc (String × String × String) Cell

/-- The facets, which are told apart by numbers, and their store. -/
structure MemoWorld where
  facets : Nat → MemoizeFacet
  kvStore : Cells

inductive MemoEvent
  | onAttach (facet : Nat) (actorId : String) (tenantId ns : Option String)
  | onDetach (facet : Nat)
  | beforeMethod (facet nowMs : Nat) (method : String) (args : List UInt8)
      (memoKey : Option String)
  | afterMethod (facet nowMs : Nat) (method : String) (args result : List UInt8)
      (memoKey : Option String)

/-- The configuration of the facets, and the hash of an actor, a handler and arguments. -/
structure Memoizer where
  config : MemoizeConfig
  hash : String → String → List UInt8 → UInt64

def MemoizeFacet.new : MemoizeFacet := ⟨none, "", ""⟩

/-- The `memo_key` that counts: one that is not empty. -/
def MemoCall.explicit (r : MemoCall) : Option String := r.memoKey.filter (· ≠ "")

def MemoCall.cell (r : MemoCall) (key : String) : String × String × String :=
  (r.tenantId, r.ns, key)

namespace Memoizer

def shouldIntercept (m : Memoizer) (handler : String) : Bool :=
  m.config.handlerNames.isEmpty || m.config.handlerNames.contains handler

def effectivePrefix (m : Memoizer) (actorId : String) : String :=
  if m.config.keyPrefix.isEmpty then "memo:" ++ actorId ++ ":" else m.config.keyPrefix

def hashText (m : Memoizer) (r : MemoCall) : String :=
  String.ofList (fixedHex 16 (m.hash r.actorId r.method r.args).toNat)

def cacheKey (m : Memoizer) (r : MemoCall) : String :=
  match r.explicit with
  | some explicit => m.effectivePrefix r.actorId ++ explicit
  | none => m.effectivePrefix r.actorId ++ m.hashText r

def lruListKey (m : Memoizer) (actorId : String) : String := m.effectivePrefix actorId ++ "__lru"

/-- A list of keys has no `v`. -/
def readCache (m : Memoizer) (kv : Cells) (nowMs : Nat) (r : MemoCall) : Option (List UInt8) :=
  match kv.lookup (r.cell (m.cacheKey r)) with
  | some (.envelope v exp) => if 0 < exp ∧ exp < nowMs then none else hexDecode v
  | some (.keyList _) | none => none

/-- An envelope is no list of keys, and is read as the empty one. -/
def storedList (m : Memoizer) (kv : Cells) (r : MemoCall) : List String :=
  match kv.lookup (r.cell (m.lruListKey r.actorId)) with
  | some (.keyList keys) => keys
  | some (.envelope _ _) | none => []

/-- Evict from the front while there are more keys than the limit. -/
def evictOldest (limit : Nat) (r : MemoCall) (kv : Cells) : List String → Cells × List String
  | [] => (kv, [])
  | oldest :: keys =>
      if limit < keys.length + 1 then evictOldest limit r (kv.erase (r.cell oldest)) keys
      else (kv, oldest :: keys)

def enforceMaxEntries (m : Memoizer) (kv : Cells) (r : MemoCall) : Cells :=
  let keys := (m.storedList kv r).filter (· ≠ m.cacheKey r) ++ [m.cacheKey r]
  let (kv, keys) := evictOldest m.config.maxEntries.toNat r kv keys
  kv.insert (r.cell (m.lruListKey r.actorId)) (.keyList keys)

def writeCache (m : Memoizer) (kv : Cells) (nowMs : Nat) (r : MemoCall) (result : List UInt8) :
    Cells :=
  let exp := if 0 < m.config.ttlSeconds then nowMs + m.config.ttlSeconds.toNat * 1000 else 0
  let kv := kv.insert (r.cell (m.cacheKey r)) (.envelope (hexEncode result) exp)
  if 0 < m.config.maxEntries then m.enforceMaxEntries kv r else kv

def onAttach (f : MemoizeFacet) (actorId : String) (tenantId ns : Option String) :
    MemoizeFacet :=
  ⟨some actorId, tenantId.getD f.tenantId, ns.getD f.ns⟩

/-- The call as it is cached, unless the facet lets it pass. -/
def request (m : Memoizer) (f : MemoizeFacet) (method : String) (args : List UInt8)
    (memoKey : Option String) : Option MemoCall :=
  if m.shouldIntercept method then
    f.actorId.map fun actorId => ⟨f.tenantId, f.ns, actorId, method, args, memoKey⟩
  else none

def beforeMethod (m : Memoizer) (w : MemoWorld) (facet nowMs : Nat) (method : String)
    (args : List UInt8) (memoKey : Option String) : InterceptResult :=
  match m.request (w.facets facet) method args memoKey with
  | none => .proceed
  | some r =>
      match m.readCache w.kvStore nowMs r with
      | some cached => .shortCircuit cached
      | none => .proceed

def afterMethod (m : Memoizer) (w : MemoWorld) (facet nowMs : Nat) (method : String)
    (args result : List UInt8) (memoKey : Option String) : MemoWorld :=
  match m.request (w.facets facet) method args memoKey with
  | none => w
  | some r => { w with kvStore := m.writeCache w.kvStore nowMs r result }

def after (m : Memoizer) (w : MemoWorld) : MemoEvent → MemoWorld
  | .onAttach facet actorId tenantId ns =>
      { w with
        facets := Function.update w.facets facet
          (onAttach (w.facets facet) actorId tenantId ns) }
  | .onDetach facet =>
      { w with
        facets := Function.update w.facets facet { w.facets facet with actorId := none } }
  | .beforeMethod _ _ _ _ _ => w
  | .afterMethod facet nowMs method args result memoKey =>
      m.afterMethod w facet nowMs method args result memoKey

end Memoizer

/-- A result that was handed to a facet to be stored. -/
structure Produced where
  call : MemoCall
  result : List UInt8

/-- The world with all results produced so far. -/
structure MemoHistory where
  world : MemoWorld
  produced : List Produced

namespace Memoizer

variable (m : Memoizer)

/-- The call of an event that reads or writes the cache. -/
def requested (h : MemoHistory) : MemoEvent → Option MemoCall
  | .beforeMethod facet _ method args memoKey | .afterMethod facet _ method args _ memoKey =>
      m.request (h.world.facets facet) method args memoKey
  | .onAttach _ _ _ _ | .onDetach _ => none

def producedBy (h : MemoHistory) (e : MemoEvent) : List Produced :=
  match e with
  | .afterMethod _ _ _ _ result _ => ((m.requested h e).map fun r => ⟨r, result⟩).toList
  | _ => []

def record (h : MemoHistory) (e : MemoEvent) : MemoHistory :=
  ⟨m.after h.world e, h.produced ++ m.producedBy h e⟩

def start : MemoHistory := ⟨⟨fun _ => .new, ∅⟩, []⟩

/-- A hit is a result of the same actor and handler, produced under the same key. -/
def HitTraced (h : MemoHistory) : MemoEvent → Prop
  | .beforeMethod facet nowMs method args memoKey =>
      ∀ cached, m.beforeMethod h.world facet nowMs method args memoKey = .shortCircuit cached →
        ∃ r ∈ m.request (h.world.facets facet) method args memoKey, ∃ p ∈ h.produced,
          p.result = cached ∧ p.call.actorId = r.actorId ∧ p.call.method = r.method ∧
            p.call.cell (m.cacheKey p.call) = r.cell (m.cacheKey r)
  | _ => True

/-- The keys of results produced under a prefix that are in the store. -/
def cachedKeys (h : MemoHistory) (tenantId ns keyPrefix : String) : List String :=
  (((h.produced.filter fun p => p.call.tenantId = tenantId ∧ p.call.ns = ns ∧
    m.effectivePrefix p.call.actorId = keyPrefix).map fun p => m.cacheKey p.call).dedup).filter
      fun key =>
        match h.world.kvStore.lookup (tenantId, ns, key) with
        | some (.envelope _ _) => true
        | some (.keyList _) | none => false

/-- No prefix has more results than `max_entries`. -/
def Bounded (h : MemoHistory) : Prop :=
  ∀ tenantId ns keyPrefix,
    (m.cachedKeys h tenantId ns keyPrefix).length ≤ m.config.maxEntries.toNat

/-- Hashes of different actors, handlers or arguments are different. -/
def HashApart (r r' : MemoCall) : Prop :=
  r.explicit = none → r'.explicit = none →
    m.hash r.actorId r.method r.args = m.hash r'.actorId r'.method r'.args →
      r.actorId = r'.actorId ∧ r.method = r'.method ∧ r.args = r'.args

/-- A `memo_key` does not give the key of another actor or handler. -/
def KeyApart (r r' : MemoCall) : Prop :=
  r.explicit.isSome ∨ r'.explicit.isSome →
    r.cell (m.cacheKey r) = r'.cell (m.cacheKey r') →
      r.actorId = r'.actorId ∧ r.method = r'.method

/-- A `memo_key` does not give the key of a list. -/
def ListApart (r r' : MemoCall) : Prop :=
  r.explicit.isSome → r.cell (m.cacheKey r) ≠ r'.cell (m.lruListKey r'.actorId)

def CollisionFree (h : MemoHistory) (e : MemoEvent) : Prop :=
  ∀ r ∈ m.requested h e, ∀ p ∈ h.produced, m.HashApart p.call r

/-- The key of a call is the key of no other actor or handler and, if the call is to store its
result and the results are counted, of no list. -/
def KeysApart (h : MemoHistory) (e : MemoEvent) : Prop :=
  (∀ r ∈ m.requested h e, ∀ p ∈ h.produced, m.KeyApart p.call r) ∧
    (0 < m.config.maxEntries → ∀ q ∈ m.producedBy h e, m.ListApart q.call q.call ∧
      ∀ p ∈ h.produced, m.ListApart p.call q.call ∧ m.ListApart q.call p.call)

section Keys

variable {m : Memoizer} {r r' : MemoCall}

theorem cacheKey_of_hashed (h : r.explicit = none) :
    m.cacheKey r = m.effectivePrefix r.actorId ++ m.hashText r := by
  rw [cacheKey, h]

/-- The keys of hashed calls are different unless actor, handler and arguments are the same. -/
theorem hashed_inj (hhash : m.HashApart r r') (hr : r.explicit = none) (hr' : r'.explicit = none)
    (hkey : m.cacheKey r = m.cacheKey r') : r.actorId = r'.actorId ∧ r.method = r'.method := by
  rw [cacheKey_of_hashed hr, cacheKey_of_hashed hr', ← String.toList_inj, String.toList_append,
    String.toList_append, hashText, hashText, String.toList_ofList, String.toList_ofList] at hkey
  have hdigits := (List.append_inj' hkey (by rw [length_fixedHex, length_fixedHex])).2
  have hsame := fixedHex_inj (UInt64.toNat_lt _) (UInt64.toNat_lt _) hdigits
  obtain ⟨hactor, hmethod, -⟩ := hhash hr hr' (UInt64.toNat_inj.mp hsame)
  exact ⟨hactor, hmethod⟩

theorem hashed_ne_listKey (hr : r.explicit = none) (actorId : String) :
    m.cacheKey r ≠ m.lruListKey actorId := by
  intro hkey
  rw [cacheKey_of_hashed hr, lruListKey, ← String.toList_inj, String.toList_append,
    String.toList_append, hashText, String.toList_ofList, fixedHex, ← List.append_assoc] at hkey
  have hsuffix : "__lru".toList = "__lr".toList ++ ['u'] := by decide
  rw [hsuffix, ← List.append_assoc] at hkey
  have hlast := List.singleton_inj.mp (List.append_inj' hkey rfl).2
  exact digitChar_ne (by decide) (Nat.mod_lt _ (by decide)) hlast.symm

/-- The calls with one key are of one actor and handler. -/
theorem same_of_key_eq (hhash : m.HashApart r r') (hkey : m.KeyApart r r')
    (h : r.cell (m.cacheKey r) = r'.cell (m.cacheKey r')) :
    r.actorId = r'.actorId ∧ r.method = r'.method := by
  by_cases hexplicit : r.explicit.isSome ∨ r'.explicit.isSome
  · exact hkey hexplicit h
  · rw [not_or, Option.not_isSome_iff_eq_none, Option.not_isSome_iff_eq_none] at hexplicit
    exact hashed_inj hhash hexplicit.1 hexplicit.2 (Prod.mk.inj (Prod.mk.inj h).2).2

theorem cell_ne_of_listApart (h : m.ListApart r r') :
    r.cell (m.cacheKey r) ≠ r'.cell (m.lruListKey r'.actorId) := by
  cases hexplicit : r.explicit with
  | some key => exact h (Option.isSome_iff_exists.mpr ⟨key, hexplicit⟩)
  | none =>
      intro hcell
      exact hashed_ne_listKey hexplicit _ (Prod.mk.inj (Prod.mk.inj hcell).2).2

theorem cell_inj {key key' : String} : r.cell key = r'.cell key' ↔
    r.tenantId = r'.tenantId ∧ r.ns = r'.ns ∧ key = key' := by
  rw [MemoCall.cell, MemoCall.cell, Prod.mk.injEq, Prod.mk.injEq]

theorem lruListKey_inj {actorId actorId' : String} :
    m.lruListKey actorId = m.lruListKey actorId' ↔
      m.effectivePrefix actorId = m.effectivePrefix actorId' := by
  rw [lruListKey, lruListKey, ← String.toList_inj, String.toList_append, String.toList_append,
    List.append_cancel_right_eq, String.toList_inj]

end Keys

section Store

variable {m : Memoizer} {r : MemoCall} {kv : Cells}

/-- What is evicted: the keys in front of the last `limit` ones. -/
theorem evictOldest_spec (limit : Nat) (r : MemoCall) (kv : Cells) (keys : List String) :
    (evictOldest limit r kv keys).2 = keys.drop (keys.length - limit) ∧
      ∀ cell, (evictOldest limit r kv keys).1.lookup cell =
        if ∃ key ∈ keys.take (keys.length - limit), cell = r.cell key then none
        else kv.lookup cell := by
  induction keys generalizing kv with
  | nil => exact ⟨List.drop_nil.symm, fun cell => by simp [evictOldest]⟩
  | cons oldest keys ih =>
      rw [evictOldest, List.length_cons]
      split_ifs with hover
      · obtain ⟨hlist, hlookup⟩ := ih (kv.erase (r.cell oldest))
        have hcount : keys.length + 1 - limit = keys.length - limit + 1 := by omega
        rw [hcount, List.drop_succ_cons, List.take_succ_cons]
        refine ⟨hlist, fun cell => ?_⟩
        rw [hlookup, Assoc.lookup_erase]
        by_cases hcell : cell = r.cell oldest <;> simp [hcell]
      · have hcount : keys.length + 1 - limit = 0 := by omega
        rw [hcount]
        exact ⟨rfl, fun cell => by simp⟩

theorem storedList_congr {kv' : Cells} {r' : MemoCall}
    (h : kv'.lookup (r'.cell (m.lruListKey r'.actorId)) =
      kv.lookup (r.cell (m.lruListKey r.actorId))) : m.storedList kv' r' = m.storedList kv r := by
  rw [storedList, storedList, h]

theorem storedList_of_keyList {keys : List String}
    (h : kv.lookup (r.cell (m.lruListKey r.actorId)) = some (.keyList keys)) :
    m.storedList kv r = keys := by
  rw [storedList, h]

theorem writeCache_unlimited (kv : Cells) (nowMs : Nat) (r : MemoCall) (result : List UInt8)
    (hunlimited : ¬0 < m.config.maxEntries) : ∃ exp, m.writeCache kv nowMs r result =
      kv.insert (r.cell (m.cacheKey r)) (.envelope (hexEncode result) exp) :=
  ⟨_, if_neg hunlimited⟩

/-- A write with a limit: the keys of the list and the new key are evicted or kept. -/
structure Wrote (m : Memoizer) (r : MemoCall) (result : List UInt8) (kv kv' : Cells)
    (evicted kept : List String) : Prop where
  keys : (m.storedList kv r).filter (· ≠ m.cacheKey r) ++ [m.cacheKey r] = evicted ++ kept
  short : kept.length ≤ m.config.maxEntries.toNat
  lookup : ∃ exp, ∀ cell, kv'.lookup cell =
    if cell = r.cell (m.lruListKey r.actorId) then some (.keyList kept)
    else if ∃ key ∈ evicted, cell = r.cell key then none
    else if cell = r.cell (m.cacheKey r) then some (.envelope (hexEncode result) exp)
    else kv.lookup cell

theorem exists_wrote (kv : Cells) (nowMs : Nat) (result : List UInt8)
    (hlimit : 0 < m.config.maxEntries)
    (hlist : r.cell (m.cacheKey r) ≠ r.cell (m.lruListKey r.actorId)) :
    ∃ evicted kept, Wrote m r result kv (m.writeCache kv nowMs r result) evicted kept := by
  obtain ⟨exp, hexp⟩ : ∃ exp, m.writeCache kv nowMs r result = m.enforceMaxEntries
      (kv.insert (r.cell (m.cacheKey r)) (.envelope (hexEncode result) exp)) r :=
    ⟨_, if_pos hlimit⟩
  have hstored : m.storedList (kv.insert (r.cell (m.cacheKey r))
      (.envelope (hexEncode result) exp)) r = m.storedList kv r :=
    storedList_congr (Assoc.lookup_insert_of_ne kv _ hlist.symm)
  rw [hexp, enforceMaxEntries, hstored]
  generalize hkeys : (m.storedList kv r).filter (· ≠ m.cacheKey r) ++ [m.cacheKey r] = keys
  obtain ⟨hkept, hlookup⟩ := evictOldest_spec m.config.maxEntries.toNat r
    (kv.insert (r.cell (m.cacheKey r)) (.envelope (hexEncode result) exp)) keys
  refine ⟨keys.take (keys.length - m.config.maxEntries.toNat),
    keys.drop (keys.length - m.config.maxEntries.toNat),
    hkeys.trans (List.take_append_drop _ _).symm, ?_, exp, fun cell => ?_⟩
  · rw [List.length_drop]
    omega
  · dsimp only
    rw [Assoc.lookup_insert, hkept, hlookup, Assoc.lookup_insert]

section Wrote

variable {result : List UInt8} {kv' : Cells} {evicted kept : List String} {r' : MemoCall}

theorem Wrote.mem_keys (hw : Wrote m r result kv kv' evicted kept) {key : String} :
    key ∈ evicted ++ kept ↔ key = m.cacheKey r ∨ key ∈ m.storedList kv r := by
  rw [← hw.keys, List.mem_append, List.mem_singleton, List.mem_filter, decide_eq_true_eq]
  by_cases hkey : key = m.cacheKey r <;> simp [hkey]

/-- An envelope after the write is that of the result, or was there before. -/
theorem Wrote.envelope (hw : Wrote m r result kv kv' evicted kept)
    {cell : String × String × String} {v : List Char} {exp : Nat}
    (hcell : kv'.lookup cell = some (.envelope v exp)) :
    (∀ key ∈ evicted, cell ≠ r.cell key) ∧
      (cell = r.cell (m.cacheKey r) ∧ v = hexEncode result ∨
        cell ≠ r.cell (m.cacheKey r) ∧ kv.lookup cell = some (.envelope v exp)) := by
  obtain ⟨exp', hlookup⟩ := hw.lookup
  rw [hlookup] at hcell
  by_cases hlru : cell = r.cell (m.lruListKey r.actorId)
  · rw [if_pos hlru] at hcell
    cases hcell
  · rw [if_neg hlru] at hcell
    by_cases hevicted : ∃ key ∈ evicted, cell = r.cell key
    · rw [if_pos hevicted] at hcell
      cases hcell
    · rw [if_neg hevicted] at hcell
      refine ⟨fun key hkey hsame => hevicted ⟨key, hkey, hsame⟩, ?_⟩
      by_cases hnew : cell = r.cell (m.cacheKey r)
      · rw [if_pos hnew] at hcell
        cases hcell
        exact .inl ⟨hnew, rfl⟩
      · rw [if_neg hnew] at hcell
        exact .inr ⟨hnew, hcell⟩

theorem Wrote.storedList_own (hw : Wrote m r result kv kv' evicted kept)
    (hsame : r'.cell (m.lruListKey r'.actorId) = r.cell (m.lruListKey r.actorId)) :
    m.storedList kv' r' = kept := by
  obtain ⟨exp', hlookup⟩ := hw.lookup
  refine storedList_of_keyList ?_
  rw [hsame, hlookup, if_pos rfl]

theorem Wrote.storedList_other (hw : Wrote m r result kv kv' evicted kept)
    (hother : r'.cell (m.lruListKey r'.actorId) ≠ r.cell (m.lruListKey r.actorId)) :
    m.storedList kv' r' = [] ∨ m.storedList kv' r' = m.storedList kv r' := by
  obtain ⟨exp', hlookup⟩ := hw.lookup
  unfold storedList
  rw [hlookup, if_neg hother]
  split_ifs
  · exact .inl rfl
  · exact .inl rfl
  · exact .inr rfl

theorem Wrote.length_storedList_le (hw : Wrote m r result kv kv' evicted kept)
    (hshort : (m.storedList kv r').length ≤ m.config.maxEntries.toNat) :
    (m.storedList kv' r').length ≤ m.config.maxEntries.toNat := by
  by_cases hsame : r'.cell (m.lruListKey r'.actorId) = r.cell (m.lruListKey r.actorId)
  · rw [hw.storedList_own hsame]
    exact hw.short
  · rcases hw.storedList_other hsame with hnil | hold
    · rw [hnil]
      exact Nat.zero_le _
    · rw [hold]
      exact hshort

/-- A list that is under no key of a result is not lost. -/
theorem Wrote.storedList_kept (hw : Wrote m r result kv kv' evicted kept)
    (hother : r'.cell (m.lruListKey r'.actorId) ≠ r.cell (m.lruListKey r.actorId))
    (hkeys : ∀ key ∈ evicted ++ kept, r'.cell (m.lruListKey r'.actorId) ≠ r.cell key) :
    m.storedList kv' r' = m.storedList kv r' := by
  obtain ⟨exp', hlookup⟩ := hw.lookup
  refine storedList_congr ?_
  rw [hlookup, if_neg hother, if_neg, if_neg (hkeys _ (hw.mem_keys.mpr (.inl rfl)))]
  rintro ⟨key, hgone, hcell⟩
  exact hkeys key (List.mem_append_left _ hgone) hcell

end Wrote

end Store

/-- Every envelope in the store holds a result that was produced under its key. -/
def Traced (h : MemoHistory) : Prop :=
  ∀ cell v exp, h.world.kvStore.lookup cell = some (.envelope v exp) →
    ∃ p ∈ h.produced, p.call.cell (m.cacheKey p.call) = cell ∧ hexEncode p.result = v

/-- The lists are within the limit, and hold the keys of all envelopes of their prefix. -/
structure Listed (h : MemoHistory) : Prop where
  listed : ∀ p ∈ h.produced, ∀ v exp,
    h.world.kvStore.lookup (p.call.cell (m.cacheKey p.call)) = some (.envelope v exp) →
      m.cacheKey p.call ∈ m.storedList h.world.kvStore p.call
  known : ∀ r, ∀ key ∈ m.storedList h.world.kvStore r,
    ∃ p ∈ h.produced, p.call.cell (m.cacheKey p.call) = r.cell key
  short : ∀ r, (m.storedList h.world.kvStore r).length ≤ m.config.maxEntries.toNat

section Steps

variable {m : Memoizer} {h : MemoHistory} {r : MemoCall} {nowMs : Nat} {result : List UInt8}

def MemoHistory.write (m : Memoizer) (h : MemoHistory) (nowMs : Nat) (r : MemoCall)
    (result : List UInt8) : MemoHistory :=
  ⟨{ h.world with kvStore := m.writeCache h.world.kvStore nowMs r result },
    h.produced ++ [⟨r, result⟩]⟩

theorem mem_produced_write {p : Produced} : p ∈ (MemoHistory.write m h nowMs r result).produced ↔
    p ∈ h.produced ∨ p = ⟨r, result⟩ := by
  rw [MemoHistory.write, List.mem_append, List.mem_singleton]

theorem Traced.write (ht : m.Traced h)
    (hlist : 0 < m.config.maxEntries →
      r.cell (m.cacheKey r) ≠ r.cell (m.lruListKey r.actorId)) :
    m.Traced (MemoHistory.write m h nowMs r result) := by
  intro cell v exp hcell
  change (m.writeCache h.world.kvStore nowMs r result).lookup cell = _ at hcell
  have hnew : cell = r.cell (m.cacheKey r) ∧ v = hexEncode result ∨
      h.world.kvStore.lookup cell = some (.envelope v exp) := by
    by_cases hlimit : 0 < m.config.maxEntries
    · obtain ⟨evicted, kept, hwrote⟩ :=
        exists_wrote h.world.kvStore nowMs result hlimit (hlist hlimit)
      exact (hwrote.envelope hcell).2.imp_right And.right
    · obtain ⟨exp', hwrite⟩ := writeCache_unlimited h.world.kvStore nowMs r result hlimit
      rw [hwrite, Assoc.lookup_insert] at hcell
      split_ifs at hcell with hkey
      · cases hcell
        exact .inl ⟨hkey, rfl⟩
      · exact .inr hcell
  rcases hnew with ⟨rfl, rfl⟩ | hold
  · exact ⟨⟨r, result⟩, mem_produced_write.mpr (.inr rfl), rfl, rfl⟩
  · obtain ⟨p, hp, hproduced⟩ := ht cell v exp hold
    exact ⟨p, mem_produced_write.mpr (.inl hp), hproduced⟩

/-- No key of a result is the key of a list. -/
def Apart (m : Memoizer) (produced : List Produced) : Prop :=
  ∀ p ∈ produced, ∀ q ∈ produced,
    p.call.cell (m.cacheKey p.call) ≠ q.call.cell (m.lruListKey q.call.actorId)

section Written

variable {kv' : Cells} {evicted kept : List String}

/-- The key of the call was produced now, those of its list before. -/
theorem Listed.known_of_mem (hl : m.Listed h)
    (hwrote : Wrote m r result h.world.kvStore kv' evicted kept) {key : String}
    (hmem : key ∈ evicted ++ kept) :
    ∃ p ∈ (MemoHistory.write m h nowMs r result).produced,
      p.call.cell (m.cacheKey p.call) = r.cell key := by
  rcases hwrote.mem_keys.mp hmem with rfl | hold
  · exact ⟨_, mem_produced_write.mpr (.inr rfl), rfl⟩
  · obtain ⟨p, hp, hcell⟩ := hl.known r key hold
    exact ⟨p, mem_produced_write.mpr (.inl hp), hcell⟩

theorem Listed.known_of_wrote (hl : m.Listed h)
    (hwrote : Wrote m r result h.world.kvStore kv' evicted kept) {r' : MemoCall} {key : String}
    (hmem : key ∈ m.storedList kv' r') :
    ∃ p ∈ (MemoHistory.write m h nowMs r result).produced,
      p.call.cell (m.cacheKey p.call) = r'.cell key := by
  by_cases hsame : r'.cell (m.lruListKey r'.actorId) = r.cell (m.lruListKey r.actorId)
  · rw [hwrote.storedList_own hsame] at hmem
    obtain ⟨htenant, hns, -⟩ := cell_inj.mp hsame
    obtain ⟨p, hp, hcell⟩ := hl.known_of_mem hwrote (List.mem_append_right _ hmem)
    exact ⟨p, hp, hcell.trans (cell_inj.mpr ⟨htenant.symm, hns.symm, rfl⟩)⟩
  · rcases hwrote.storedList_other hsame with hnil | hold
    · rw [hnil] at hmem
      cases hmem
    · rw [hold] at hmem
      obtain ⟨p, hp, hcell⟩ := hl.known r' key hmem
      exact ⟨p, mem_produced_write.mpr (.inl hp), hcell⟩

end Written

/-- A write keeps the lists when no key of a result is the key of a list, and the key of the call
is that of its actor only. -/
theorem Listed.write (hl : m.Listed h) (hlimit : 0 < m.config.maxEntries)
    (hapart : m.Apart (MemoHistory.write m h nowMs r result).produced)
    (hsource : ∀ p ∈ h.produced, p.call.cell (m.cacheKey p.call) = r.cell (m.cacheKey r) →
      p.call.actorId = r.actorId) :
    m.Listed (MemoHistory.write m h nowMs r result) := by
  have hnew : (⟨r, result⟩ : Produced) ∈ (MemoHistory.write m h nowMs r result).produced :=
    mem_produced_write.mpr (.inr rfl)
  obtain ⟨evicted, kept, hwrote⟩ :=
    exists_wrote h.world.kvStore nowMs result hlimit (hapart _ hnew _ hnew)
  refine ⟨fun p hp v exp henvelope => ?_, fun r' key hmem => hl.known_of_wrote hwrote hmem,
    fun r' => hwrote.length_storedList_le (hl.short r')⟩
  change _ ∈ m.storedList (m.writeCache h.world.kvStore nowMs r result) p.call
  obtain ⟨hstays, hold⟩ := hwrote.envelope henvelope
  by_cases hsame : p.call.cell (m.lruListKey p.call.actorId) = r.cell (m.lruListKey r.actorId)
  · -- the prefix of the call: its keys are kept or evicted
    rw [hwrote.storedList_own hsame]
    obtain ⟨htenant, hns, -⟩ := cell_inj.mp hsame
    have hmem : m.cacheKey p.call ∈ evicted ++ kept := by
      rw [hwrote.mem_keys]
      rcases hold with ⟨hcell, -⟩ | ⟨hne, hold⟩
      · exact .inl (cell_inj.mp hcell).2.2
      · rcases mem_produced_write.mp hp with hp | rfl
        · have hlisted := hl.listed p hp v exp hold
          rw [storedList_congr (congrArg (AList.lookup · h.world.kvStore) hsame)] at hlisted
          exact .inr hlisted
        · exact absurd rfl hne
    refine (List.mem_append.mp hmem).resolve_left fun hgone => hstays _ hgone ?_
    exact cell_inj.mpr ⟨htenant, hns, rfl⟩
  · -- another prefix: neither its list nor the result is written
    rw [hwrote.storedList_kept hsame]
    · rcases mem_produced_write.mp hp with hp | rfl
      · rcases hold with ⟨hcell, -⟩ | ⟨-, hold⟩
        · obtain ⟨htenant, hns, -⟩ := cell_inj.mp hcell
          refine absurd (cell_inj.mpr ⟨htenant, hns, ?_⟩) hsame
          rw [hsource p hp hcell]
        · exact hl.listed p hp v exp hold
      · exact absurd rfl hsame
    · intro key hmem hcell
      obtain ⟨q, hq, hqkey⟩ := hl.known_of_mem hwrote hmem
      exact hapart q hq p hp (hqkey.trans hcell.symm)

structure Kept (m : Memoizer) (h : MemoHistory) : Prop where
  traced : m.Traced h
  limited : 0 < m.config.maxEntries → m.Listed h ∧ m.Apart h.produced

theorem Kept.congr {h' : MemoHistory} (hk : m.Kept h)
    (hstore : h'.world.kvStore = h.world.kvStore) (hproduced : h'.produced = h.produced) :
    m.Kept h' := by
  obtain ⟨w, produced⟩ := h
  obtain ⟨w', produced'⟩ := h'
  obtain rfl : produced' = produced := hproduced
  change w'.kvStore = w.kvStore at hstore
  refine ⟨?_, fun hlimit => ?_⟩
  · have ht := hk.traced
    unfold Traced at ht ⊢
    rw [hstore]
    exact ht
  · obtain ⟨hl, hapart⟩ := hk.limited hlimit
    refine ⟨⟨?_, ?_, ?_⟩, hapart⟩
    · rw [hstore]
      exact hl.listed
    · rw [hstore]
      exact hl.known
    · rw [hstore]
      exact hl.short

/-- An event writes one result, or changes neither the store nor what was produced. -/
theorem record_cases (m : Memoizer) (h : MemoHistory) (e : MemoEvent) :
    ((m.record h e).world.kvStore = h.world.kvStore ∧ (m.record h e).produced = h.produced) ∨
      ∃ nowMs r result, r ∈ m.requested h e ∧ ⟨r, result⟩ ∈ m.producedBy h e ∧
        m.record h e = MemoHistory.write m h nowMs r result := by
  cases e with
  | onAttach facet actorId tenantId ns => exact .inl ⟨rfl, List.append_nil _⟩
  | onDetach facet => exact .inl ⟨rfl, List.append_nil _⟩
  | beforeMethod facet nowMs method args memoKey => exact .inl ⟨rfl, List.append_nil _⟩
  | afterMethod facet nowMs method args result memoKey =>
      have hrecord : m.record h (.afterMethod facet nowMs method args result memoKey) =
          ⟨m.afterMethod h.world facet nowMs method args result memoKey, h.produced ++
            ((m.request (h.world.facets facet) method args memoKey).map fun r =>
              (⟨r, result⟩ : Produced)).toList⟩ := rfl
      rw [hrecord, afterMethod]
      cases hrequest : m.request (h.world.facets facet) method args memoKey with
      | none => exact .inl ⟨rfl, List.append_nil _⟩
      | some r =>
          have hby : m.producedBy h (.afterMethod facet nowMs method args result memoKey) =
              ((m.request (h.world.facets facet) method args memoKey).map fun r =>
                (⟨r, result⟩ : Produced)).toList := rfl
          refine .inr ⟨nowMs, r, result, hrequest, ?_, rfl⟩
          rw [hby, hrequest]
          exact List.mem_singleton_self _

theorem Kept.record {e : MemoEvent} (hk : m.Kept h) (hfree : m.CollisionFree h e)
    (hkeys : m.KeysApart h e) : m.Kept (m.record h e) := by
  obtain ⟨hstore, hproduced⟩ | ⟨nowMs, r, result, hr, hq, hwrite⟩ := m.record_cases h e
  · exact hk.congr hstore hproduced
  · rw [hwrite]
    refine ⟨hk.traced.write fun hlimit => ?_, fun hlimit => ?_⟩
    · exact cell_ne_of_listApart (hkeys.2 hlimit _ hq).1
    · obtain ⟨hl, hapart⟩ := hk.limited hlimit
      obtain ⟨hself, hothers⟩ := hkeys.2 hlimit _ hq
      have hapart' : m.Apart (MemoHistory.write m h nowMs r result).produced := by
        intro p hp q hq
        rcases mem_produced_write.mp hp with hp | rfl <;>
          rcases mem_produced_write.mp hq with hq | rfl
        · exact hapart p hp q hq
        · exact cell_ne_of_listApart (hothers p hp).1
        · exact cell_ne_of_listApart (hothers q hq).2
        · exact cell_ne_of_listApart hself
      refine ⟨hl.write hlimit hapart' fun p hp hcell => ?_, hapart'⟩
      exact (same_of_key_eq (hfree r hr p hp) (hkeys.1 r hr p hp) hcell).1

theorem Kept.hitTraced {e : MemoEvent} (hk : m.Kept h) (hfree : m.CollisionFree h e)
    (hkeys : m.KeysApart h e) : m.HitTraced h e := by
  cases e with
  | onAttach facet actorId tenantId ns => trivial
  | onDetach facet => trivial
  | afterMethod facet nowMs method args result memoKey => trivial
  | beforeMethod facet nowMs method args memoKey =>
      intro cached hhit
      rw [beforeMethod] at hhit
      cases hrequest : m.request (h.world.facets facet) method args memoKey with
      | none =>
          rw [hrequest] at hhit
          cases hhit
      | some r =>
          rw [hrequest] at hhit
          change (match m.readCache h.world.kvStore nowMs r with
            | some cached => InterceptResult.shortCircuit cached
            | none => .proceed) = _ at hhit
          refine ⟨r, rfl, ?_⟩
          unfold readCache at hhit
          cases hcell : h.world.kvStore.lookup (r.cell (m.cacheKey r)) with
          | none => rw [hcell] at hhit; cases hhit
          | some cell =>
              rw [hcell] at hhit
              cases cell with
              | keyList keys => cases hhit
              | envelope v exp =>
                  obtain ⟨p, hp, hkey, rfl⟩ := hk.traced _ v exp hcell
                  obtain ⟨hactor, hmethod⟩ :=
                    same_of_key_eq (hfree r hrequest p hp) (hkeys.1 r hrequest p hp) hkey
                  refine ⟨p, hp, ?_, hactor, hmethod, hkey⟩
                  dsimp only at hhit
                  rw [hexDecode_hexEncode] at hhit
                  split_ifs at hhit
                  cases hhit
                  rfl

theorem Kept.bounded (hk : m.Kept h) (hlimit : 0 < m.config.maxEntries) : m.Bounded h := by
  obtain ⟨hl, -⟩ := hk.limited hlimit
  intro tenantId ns keyPrefix
  have hnodup : (m.cachedKeys h tenantId ns keyPrefix).Nodup := (List.nodup_dedup _).filter _
  have hmem : ∀ key ∈ m.cachedKeys h tenantId ns keyPrefix, ∃ r,
      r.tenantId = tenantId ∧ r.ns = ns ∧ m.effectivePrefix r.actorId = keyPrefix ∧
        key ∈ m.storedList h.world.kvStore r := by
    intro key hkey
    obtain ⟨hproduced, hstored⟩ := List.mem_filter.mp hkey
    obtain ⟨p, hp, rfl⟩ := List.mem_map.mp (List.mem_dedup.mp hproduced)
    obtain ⟨hp', hmatch⟩ := List.mem_filter.mp hp
    obtain ⟨htenant, hns, hprefix⟩ := of_decide_eq_true hmatch
    refine ⟨p.call, htenant, hns, hprefix, ?_⟩
    subst htenant hns
    split at hstored
    · next v exp hcell => exact hl.listed p hp' v exp hcell
    · cases hstored
    · cases hstored
  cases hkeys : m.cachedKeys h tenantId ns keyPrefix with
  | nil => exact Nat.zero_le _
  | cons key keys =>
      obtain ⟨r, htenant, hns, hprefix, -⟩ := hmem key (hkeys ▸ List.mem_cons_self)
      rw [← hkeys]
      have hsub : m.cachedKeys h tenantId ns keyPrefix ⊆ m.storedList h.world.kvStore r := by
        intro key' hkey'
        obtain ⟨r', htenant', hns', hprefix', hlisted⟩ := hmem key' hkey'
        rwa [storedList_congr] at hlisted
        have hcell : r'.cell (m.lruListKey r'.actorId) = r.cell (m.lruListKey r.actorId) :=
          cell_inj.mpr ⟨htenant'.trans htenant.symm, hns'.trans hns.symm,
            lruListKey_inj.mpr (hprefix'.trans hprefix.symm)⟩
        rw [hcell]
      exact (hnodup.subperm hsub).length_le.trans (hl.short r)

end Steps

/-- In every run in which the hashes do not collide and the keys are apart, each hit is a result
that was produced by the same actor and handler under the same key, and, with a limit, no prefix
has more results than the limit after any event. -/
theorem memoization_transparent (m : Memoizer) (es : List MemoEvent)
    (hrun : Along m.record (fun h e => m.CollisionFree h e ∧ m.KeysApart h e) start es) :
    Along m.record m.HitTraced start es ∧
      (0 < m.config.maxEntries →
        Along m.record (fun h e => m.Bounded (m.record h e)) start es) := by
  have hstart : m.Kept start := by
    refine ⟨?_, fun _ => ⟨⟨?_, ?_, ?_⟩, ?_⟩⟩
    · intro cell v exp hcell
      cases (AList.lookup_empty _).symm.trans hcell
    · intro p hp
      cases hp
    · intro r key hkey
      cases hkey
    · exact fun r => Nat.zero_le _
    · intro p hp
      cases hp
  refine ⟨hrun.of_invariant (I := m.Kept) (fun h e hk hc => ?_) hstart, fun hlimit =>
    hrun.of_invariant (I := m.Kept) (fun h e hk hc => ?_) hstart⟩
  · exact ⟨hk.hitTraced hc.1 hc.2, hk.record hc.1 hc.2⟩
  · exact ⟨(hk.record hc.1 hc.2).bounded hlimit, hk.record hc.1 hc.2⟩

section Examples

/-- One result of the actor `a` a prefix. -/
def oneEntry : Memoizer := ⟨⟨"", 0, 1, []⟩, fun _ _ _ => 0⟩

/-- A hashed call and one with a `memo_key`, which evicts it. -/
def apartEvents : List MemoEvent :=
  [.onAttach 0 "a" none none, .afterMethod 0 0 "f" [1] [10] none,
    .beforeMethod 0 0 "f" [1] none, .afterMethod 0 0 "g" [2] [20] (some "k")]

/-- The `memo_key` of the list between two others. -/
def listKeyEvents : List MemoEvent :=
  [.onAttach 0 "a" none none, .afterMethod 0 0 "f" [1] [10] (some "k"),
    .afterMethod 0 0 "f" [2] [20] (some "__lru"), .afterMethod 0 0 "f" [3] [30] (some "l")]

/-- One `memo_key` for two handlers. -/
def sharedKeyEvents : List MemoEvent :=
  [.onAttach 0 "a" none none, .afterMethod 0 0 "f" [1] [10] (some "k"),
    .beforeMethod 0 0 "g" [1] (some "k")]

instance (m : Memoizer) (r r' : MemoCall) : Decidable (m.HashApart r r') :=
  inferInstanceAs (Decidable (_ → _ → _ → _))

instance (m : Memoizer) (r r' : MemoCall) : Decidable (m.KeyApart r r') :=
  inferInstanceAs (Decidable (_ → _ → _))

instance (m : Memoizer) (r r' : MemoCall) : Decidable (m.ListApart r r') :=
  inferInstanceAs (Decidable (_ → _))

instance (m : Memoizer) (h : MemoHistory) (e : MemoEvent) : Decidable (m.CollisionFree h e) :=
  inferInstanceAs (Decidable (∀ r ∈ m.requested h e, ∀ p ∈ h.produced, m.HashApart p.call r))

instance (m : Memoizer) (h : MemoHistory) (e : MemoEvent) : Decidable (m.KeysApart h e) :=
  inferInstanceAs (Decidable ((∀ r ∈ m.requested h e, ∀ p ∈ h.produced, m.KeyApart p.call r) ∧ _))

theorem memoization_transparent_apartEvents :
    Along oneEntry.record oneEntry.HitTraced start apartEvents ∧
      (0 < oneEntry.config.maxEntries →
        Along oneEntry.record (fun h e => oneEntry.Bounded (oneEntry.record h e)) start
          apartEvents) :=
  memoization_transparent oneEntry apartEvents (by decide +kernel)

/-- The handler `g` gets the result of the handler `f`; and after a result under the key of the
list, the results of the keys that it held are not evicted. -/
theorem not_memoization_transparent :
    (¬∀ (m : Memoizer) (es : List MemoEvent), Along m.record m.CollisionFree start es →
      Along m.record m.HitTraced start es) ∧
      ¬∀ (m : Memoizer) (es : List MemoEvent), Along m.record m.CollisionFree start es →
        0 < m.config.maxEntries →
          Along m.record (fun h e => m.Bounded (m.record h e)) start es := by
  constructor
  · intro h
    obtain ⟨-, -, hhit, -⟩ := h oneEntry sharedKeyEvents (by decide +kernel)
    have hsame := hhit [10] (by decide +kernel)
    exact absurd hsame (by decide +kernel)
  · intro h
    obtain ⟨-, -, -, hbounded, -⟩ := h oneEntry listKeyEvents (by decide +kernel) (by decide)
    exact absurd (hbounded "" "" "memo:a:") (by decide +kernel)

end Examples

end Memoizer

end PlexSpaces.Journaling
