import PlexSpaces.Facets.Container
import PlexSpaces.Lib.Hex
import PlexSpaces.Lib.Recency
import PlexSpaces.Lib.Separator
/-!
# The caching facet

The facet answers a method from the last result for the same arguments while that is younger than
the time to live.  Results are kept in a hash map beside a queue of their keys, which insertion
and hits keep in the order of recency (`caching_is_lru`).  A key is the method and the arguments
in hexadecimal digits, with a colon between them.
-/

namespace PlexSpaces.Facets

open PlexSpaces.Lib

/-- `format!("{}:{}", method, hex::encode(args))`. -/
def cacheKey (method : String) (args : List UInt8) : String :=
  String.ofList (method.toList ++ ':' :: hexEncode args)

structure LruEntry where
  value : List UInt8
  insertedAt : Nat
  deriving DecidableEq

/-- `order` is from the oldest to the newest. -/
structure LruCache where
  order : List String
  entries : Assoc String LruEntry
  capacity : Nat

namespace LruCache

def new (capacity : Nat) : LruCache := ⟨[], ∅, capacity⟩

def remove (c : LruCache) (key : String) : LruCache :=
  { c with entries := c.entries.erase key, order := c.order.filter (· ≠ key) }

def get (c : LruCache) (now ttl : Nat) (key : String) : Option (List UInt8) × LruCache :=
  match c.entries.lookup key with
  | none => (none, c)
  | some entry =>
      if ttl ≤ now - entry.insertedAt then (none, c.remove key)
      else (some entry.value, { c with order := c.order.filter (· ≠ key) ++ [key] })

def evict (c : LruCache) (key : String) : LruCache :=
  if key ∈ c.entries then { c with order := c.order.filter (· ≠ key) }
  else if c.capacity ≤ c.entries.keys.length then
    match c.order with
    | [] => c
    | lruKey :: order => { c with order, entries := c.entries.erase lruKey }
  else c

def insert (c : LruCache) (now : Nat) (key : String) (value : List UInt8) : LruCache :=
  let c := c.evict key
  { c with order := c.order ++ [key], entries := c.entries.insert key ⟨value, now⟩ }

def clear (c : LruCache) : LruCache := { c with order := [], entries := ∅ }

end LruCache

/-- Times are in nanoseconds. -/
structure CachingFacet where
  cache : LruCache
  ttl : Nat

/-- The calls of a facet, with the time on the clock. -/
inductive CachingCall
  | beforeMethod (now : Nat) (method : String) (args : List UInt8)
  | afterMethod (now : Nat) (method : String) (args result : List UInt8)
  | onDetach (now : Nat)

def CachingCall.time : CachingCall → Nat
  | .beforeMethod now _ _ | .afterMethod now _ _ _ | .onDetach now => now

namespace CachingFacet

def start (capacity ttl : Nat) : CachingFacet := ⟨.new capacity, ttl⟩

/-- The arguments are the numbers under `max_entries` and `ttl_seconds`. -/
def new (maxEntries ttlSeconds : Option Nat) : CachingFacet :=
  start (maxEntries.getD 1000) (ttlSeconds.getD 300 * 10 ^ 9)

def beforeMethod (f : CachingFacet) (now : Nat) (method : String) (args : List UInt8) :
    InterceptResult × CachingFacet :=
  let (found, cache) := f.cache.get now f.ttl (cacheKey method args)
  match found with
  | some value => (.shortCircuit value, { f with cache })
  | none => (.proceed, { f with cache })

def afterMethod (f : CachingFacet) (now : Nat) (method : String) (args result : List UInt8) :
    InterceptResult × CachingFacet :=
  (.proceed, { f with cache := f.cache.insert now (cacheKey method args) result })

def call (f : CachingFacet) : CachingCall → InterceptResult × CachingFacet
  | .beforeMethod now method args => f.beforeMethod now method args
  | .afterMethod now method args result => f.afterMethod now method args result
  | .onDetach _ => (.proceed, { f with cache := f.cache.clear })

def after (f : CachingFacet) (c : CachingCall) : CachingFacet := (f.call c).2

def touchedBy (f : CachingFacet) (c : CachingCall) : List String :=
  match c, (f.call c).1 with
  | .beforeMethod _ method args, .shortCircuit _ => [cacheKey method args]
  | .afterMethod _ method args _, _ => [cacheKey method args]
  | _, _ => []

/-- The keys that the calls of a run insert or hit, in their order. -/
def touchedAlong : CachingFacet → List CachingCall → List String
  | _, [] => []
  | f, c :: cs => f.touchedBy c ++ touchedAlong (f.after c) cs

/-- The result that a call stores for a method and its arguments, and when. -/
def storedBy (q : String × List UInt8) : CachingCall → Option (List UInt8 × Nat)
  | .afterMethod now method args result => if (method, args) = q then some (result, now) else none
  | _ => none

def lastStored (q : String × List UInt8) (cs : List CachingCall) : Option (List UInt8 × Nat) :=
  (cs.filterMap (storedBy q)).getLast?

/-- A call evicts a key: an insertion drops it. -/
def Evicts (f : CachingFacet) (now : Nat) (method : String) (args result : List UInt8)
    (key : String) : Prop :=
  key ∈ f.cache.entries ∧ key ∉ (f.afterMethod now method args result).2.cache.entries

instance (f : CachingFacet) (now : Nat) (method : String) (args result : List UInt8)
    (key : String) : Decidable (f.Evicts now method args result key) :=
  inferInstanceAs (Decidable (_ ∧ ¬_))

/-- A call neither evicts the result kept for a method and its arguments nor clears the cache. -/
def Spares (q : String × List UInt8) (f : CachingFacet) : CachingCall → Prop
  | .beforeMethod _ _ _ => True
  | .afterMethod now method args result => ¬f.Evicts now method args result (cacheKey q.1 q.2)
  | .onDetach _ => False

instance (q : String × List UInt8) (f : CachingFacet) (c : CachingCall) :
    Decidable (f.Spares q c) :=
  match c with
  | .beforeMethod _ _ _ => inferInstanceAs (Decidable True)
  | .afterMethod _ _ _ _ => inferInstanceAs (Decidable (¬_))
  | .onDetach _ => inferInstanceAs (Decidable False)

/-- A result was stored for a method and its arguments, and what was called since spares it. -/
def Spared (f : CachingFacet) (q : String × List UInt8) (cs : List CachingCall) : Prop :=
  ∃ before c between, cs = before ++ c :: between ∧ (storedBy q c).isSome ∧
    Along after (Spares q) (run after f (before ++ [c])) between

/-- The last touch of a key comes before touches of all others that are held. -/
def LeastRecent (history : List String) (held : LruCache) (key : String) : Prop :=
  ∃ earlier later, history = earlier ++ key :: later ∧ key ∉ later ∧
    ∀ key' ∈ held.entries, key' ≠ key → key' ∈ later

end CachingFacet

theorem cacheKey_inj {method method' : String} {args args' : List UInt8}
    (h : cacheKey method args = cacheKey method' args') : method = method' ∧ args = args' := by
  have hchars := congrArg (cutLast ':') (String.ofList_injective h)
  rw [cutLast_append_cons _ (notMem_hexEncode (by decide) args),
    cutLast_append_cons _ (notMem_hexEncode (by decide) args'), Option.some_inj,
    Prod.mk.injEq] at hchars
  exact ⟨String.toList_injective hchars.1, hexEncode_inj hchars.2⟩

namespace LruCache

variable {c : LruCache} {history : List String} {now ttl : Nat} {key key' : String}
variable {value : List UInt8} {entry : LruEntry}

/-- The keys of the entries stand in the queue, in the order of their last touches. -/
structure Recent (c : LruCache) (history : List String) : Prop where
  order : c.order.Sublist history.dedup
  mem : ∀ key, key ∈ c.order ↔ key ∈ c.entries

theorem Recent.nodup (h : c.Recent history) : c.order.Nodup :=
  h.order.nodup (List.nodup_dedup history)

theorem Recent.length (h : c.Recent history) : c.entries.keys.length = c.order.length := by
  refine ((List.perm_ext_iff_of_nodup c.entries.keys_nodup h.nodup).mpr fun key => ?_).length_eq
  rw [h.mem, AList.mem_keys]

theorem recent_new (capacity : Nat) : (new capacity).Recent [] :=
  ⟨List.Sublist.refl _, fun _ => ⟨nofun, fun h => (AList.notMem_empty _ h).elim⟩⟩

theorem recent_clear (c : LruCache) (history : List String) : c.clear.Recent history :=
  ⟨List.nil_sublist _, fun _ => ⟨nofun, fun h => (AList.notMem_empty _ h).elim⟩⟩

theorem Recent.remove (h : c.Recent history) (key : String) : (c.remove key).Recent history := by
  refine ⟨List.filter_sublist.trans h.order, fun key' => ?_⟩
  change key' ∈ c.order.filter (· ≠ key) ↔ key' ∈ c.entries.erase key
  rw [List.mem_filter, decide_eq_true_eq, AList.mem_erase, h.mem, and_comm]

theorem get_cases (c : LruCache) (now ttl : Nat) (key : String) :
    (c.entries.lookup key = none ∧ c.get now ttl key = (none, c)) ∨
      (∃ entry, c.entries.lookup key = some entry ∧ ttl ≤ now - entry.insertedAt ∧
        c.get now ttl key = (none, c.remove key)) ∨
      ∃ entry, c.entries.lookup key = some entry ∧ now - entry.insertedAt < ttl ∧
        c.get now ttl key = (some entry.value, { c with order := touch c.order key }) := by
  unfold get
  cases hfind : c.entries.lookup key with
  | none => exact .inl ⟨rfl, rfl⟩
  | some entry =>
      by_cases hold : ttl ≤ now - entry.insertedAt
      · exact .inr (.inl ⟨entry, rfl, hold, if_pos hold⟩)
      · exact .inr (.inr ⟨entry, rfl, Nat.lt_of_not_le hold, if_neg hold⟩)

theorem Recent.get (h : c.Recent history) (now ttl : Nat) (key : String) :
    (c.get now ttl key).2.Recent
      (history ++ if (c.get now ttl key).1.isSome then [key] else []) := by
  obtain ⟨-, hget⟩ | ⟨entry, -, -, hget⟩ | ⟨entry, hfind, -, hget⟩ := c.get_cases now ttl key
  · rw [hget]
    exact (List.append_nil history).symm ▸ h
  · rw [hget]
    exact (List.append_nil history).symm ▸ h.remove key
  · rw [hget]
    refine ⟨touch_sublist h.order, fun key' => ?_⟩
    rw [mem_touch, h.mem]
    refine ⟨?_, Or.inl⟩
    rintro (hmem | rfl)
    · exact hmem
    · exact AList.lookup_isSome.mp (Option.isSome_iff_exists.mpr ⟨entry, hfind⟩)

/-- Making room for a key drops it from the queue, or drops the front of the queue when the cache
is full. -/
theorem evict_cases (c : LruCache) (key : String) :
    (key ∈ c.entries ∧ c.evict key = { c with order := c.order.filter (· ≠ key) }) ∨
      (key ∉ c.entries ∧ c.capacity ≤ c.entries.keys.length ∧ ∃ lruKey order,
        c.order = lruKey :: order ∧
          c.evict key = { c with order, entries := c.entries.erase lruKey }) ∨
      (key ∉ c.entries ∧ (c.entries.keys.length < c.capacity ∨ c.order = []) ∧
        c.evict key = c) := by
  unfold evict
  by_cases hmem : key ∈ c.entries
  · exact .inl ⟨hmem, if_pos hmem⟩
  · rw [if_neg hmem]
    by_cases hfull : c.capacity ≤ c.entries.keys.length
    · rw [if_pos hfull]
      cases horder : c.order with
      | nil => exact .inr (.inr ⟨hmem, .inr rfl, rfl⟩)
      | cons lruKey order => exact .inr (.inl ⟨hmem, hfull, lruKey, order, rfl, rfl⟩)
    · exact .inr (.inr ⟨hmem, .inl (Nat.lt_of_not_le hfull), if_neg hfull⟩)

theorem capacity_insert (c : LruCache) (now : Nat) (key : String) (value : List UInt8) :
    (c.insert now key value).capacity = c.capacity := by
  change (c.evict key).capacity = c.capacity
  obtain ⟨-, hevict⟩ | ⟨-, -, _, _, -, hevict⟩ | ⟨-, -, hevict⟩ := c.evict_cases key <;> rw [hevict]

theorem Recent.insert (h : c.Recent history) (now : Nat) (key : String) (value : List UInt8) :
    (c.insert now key value).Recent (history ++ [key]) := by
  have hmem : ∀ key', key' ∈ (c.evict key).order ∨ key' = key ↔
      key' = key ∨ key' ∈ (c.evict key).entries := by
    intro key'
    obtain ⟨-, hevict⟩ | ⟨-, -, lruKey, order, horder, hevict⟩ | ⟨-, -, hevict⟩ := c.evict_cases key
    · rw [hevict, List.mem_filter, decide_eq_true_eq, h.mem]
      by_cases hkey : key' = key <;> simp [hkey]
    · have hnodup := h.nodup
      rw [horder, List.nodup_cons] at hnodup
      rw [hevict, AList.mem_erase, ← h.mem, horder, List.mem_cons]
      by_cases hlru : key' = lruKey
      · subst hlru
        simp [hnodup.1]
      · simp [hlru, or_comm]
    · rw [hevict, h.mem, or_comm]
  refine ⟨?_, fun key' => ?_⟩
  · change ((c.evict key).order ++ [key]).Sublist (history ++ [key]).dedup
    obtain ⟨-, hevict⟩ | ⟨hnew, -, lruKey, order, horder, hevict⟩ | ⟨hnew, -, hevict⟩ :=
      c.evict_cases key
    · rw [hevict]
      exact touch_sublist h.order
    · have hnotMem : key ∉ lruKey :: order := by rwa [← horder, h.mem]
      rw [hevict, ← touch_of_notMem fun hmem => hnotMem (List.mem_cons_of_mem _ hmem)]
      have hrest : order.Sublist history.dedup :=
        (List.sublist_cons_self _ _).trans (horder ▸ h.order)
      exact touch_sublist hrest
    · have hnotMem : key ∉ c.order := by rwa [h.mem]
      rw [hevict, ← touch_of_notMem hnotMem]
      exact touch_sublist h.order
  · change key' ∈ (c.evict key).order ++ [key] ↔ key' ∈ (c.evict key).entries.insert key _
    rw [List.mem_append, List.mem_singleton, AList.mem_insert]
    exact hmem key'

/-- A cache with room for one entry does not grow beyond its capacity. -/
theorem Recent.length_insert (h : c.Recent history) (hpos : 1 ≤ c.capacity)
    (hsize : c.order.length ≤ c.capacity) (now : Nat) (key : String) (value : List UInt8) :
    (c.insert now key value).order.length ≤ c.capacity := by
  change ((c.evict key).order ++ [key]).length ≤ c.capacity
  rw [List.length_append, List.length_singleton]
  obtain ⟨hmem, hevict⟩ | ⟨-, -, lruKey, order, horder, hevict⟩ | ⟨-, hroom, hevict⟩ :=
    c.evict_cases key
  · have hlt : (c.order.filter (· ≠ key)).length < c.order.length :=
      List.length_filter_lt_length_iff_exists.mpr ⟨key, (h.mem key).mpr hmem, by simp⟩
    rw [hevict]
    change (c.order.filter (· ≠ key)).length + 1 ≤ c.capacity
    omega
  · rw [horder, List.length_cons] at hsize
    rw [hevict]
    exact hsize
  · rw [hevict]
    rw [h.length] at hroom
    rcases hroom with hroom | hempty
    · omega
    · rw [hempty, List.length_nil]
      exact hpos

theorem capacity_get (c : LruCache) (now ttl : Nat) (key : String) :
    (c.get now ttl key).2.capacity = c.capacity := by
  obtain ⟨-, hget⟩ | ⟨_, -, -, hget⟩ | ⟨_, -, -, hget⟩ := c.get_cases now ttl key <;> rw [hget]
  rfl

theorem length_get_le (c : LruCache) (now ttl : Nat) (key : String) (h : c.Recent history) :
    (c.get now ttl key).2.order.length ≤ c.order.length := by
  obtain ⟨-, hget⟩ | ⟨entry, -, -, hget⟩ | ⟨entry, hfind, -, hget⟩ := c.get_cases now ttl key
  · rw [hget]
  · rw [hget]
    exact List.length_filter_le _ _
  · have hmem : key ∈ c.order :=
      (h.mem key).mpr (AList.lookup_isSome.mp (Option.isSome_iff_exists.mpr ⟨entry, hfind⟩))
    have hlt : (c.order.filter (· ≠ key)).length < c.order.length :=
      List.length_filter_lt_length_iff_exists.mpr ⟨key, hmem, by simp⟩
    rw [hget]
    change (c.order.filter (· ≠ key) ++ [key]).length ≤ _
    rw [List.length_append, List.length_singleton]
    omega

theorem front_of_evicted (hmem : key' ∈ c.entries)
    (hgone : key' ∉ (c.insert now key value).entries) :
    c.capacity ≤ c.entries.keys.length ∧ ∃ order, c.order = key' :: order := by
  change key' ∉ (c.evict key).entries.insert key _ at hgone
  rw [AList.mem_insert, not_or] at hgone
  obtain ⟨-, hevict⟩ | ⟨-, hfull, lruKey, order, horder, hevict⟩ | ⟨-, -, hevict⟩ :=
    c.evict_cases key
  · rw [hevict] at hgone
    exact absurd hmem hgone.2
  · rw [hevict, AList.mem_erase, not_and'] at hgone
    have hlru := not_not.mp (hgone.2 hmem)
    exact ⟨hfull, order, hlru ▸ horder⟩
  · rw [hevict] at hgone
    exact absurd hmem hgone.2

theorem lookup_insert (c : LruCache) (now : Nat) (key key' : String) (value : List UInt8)
    (hfind : (c.insert now key value).entries.lookup key' = some entry) :
    (key' = key ∧ entry = ⟨value, now⟩) ∨
      (key' ≠ key ∧ c.entries.lookup key' = some entry) := by
  change ((c.evict key).entries.insert key ⟨value, now⟩).lookup key' = some entry at hfind
  rw [Assoc.lookup_insert] at hfind
  split_ifs at hfind with hkey
  · exact .inl ⟨hkey, (Option.some.inj hfind).symm⟩
  · refine .inr ⟨hkey, ?_⟩
    obtain ⟨-, hevict⟩ | ⟨-, -, lruKey, order, -, hevict⟩ | ⟨-, -, hevict⟩ := c.evict_cases key
    · rw [hevict] at hfind
      exact hfind
    · rw [hevict, Assoc.lookup_erase] at hfind
      split_ifs at hfind
      exact hfind
    · rw [hevict] at hfind
      exact hfind

theorem lookup_get (c : LruCache) (now ttl : Nat) (key key' : String)
    (hfind : (c.get now ttl key).2.entries.lookup key' = some entry) :
    c.entries.lookup key' = some entry := by
  obtain ⟨-, hget⟩ | ⟨_, -, -, hget⟩ | ⟨_, -, -, hget⟩ := c.get_cases now ttl key
  · rw [hget] at hfind
    exact hfind
  · rw [hget] at hfind
    change (c.entries.erase key).lookup key' = some entry at hfind
    rw [Assoc.lookup_erase] at hfind
    split_ifs at hfind
    exact hfind
  · rw [hget] at hfind
    exact hfind

/-- A lookup keeps the entries that are not older than the time to live. -/
theorem lookup_get_of_fresh (c : LruCache) (hfind : c.entries.lookup key' = some entry)
    (hfresh : now - entry.insertedAt < ttl) :
    (c.get now ttl key).2.entries.lookup key' = some entry := by
  obtain ⟨-, hget⟩ | ⟨old, hold, hexpired, hget⟩ | ⟨_, -, -, hget⟩ := c.get_cases now ttl key
  · rw [hget]
    exact hfind
  · have hkey : key' ≠ key := by
      rintro rfl
      rw [hfind] at hold
      cases hold
      exact Nat.not_le_of_lt hfresh hexpired
    rw [hget]
    change (c.entries.erase key).lookup key' = some entry
    rw [Assoc.lookup_erase, if_neg hkey]
    exact hfind
  · rw [hget]
    exact hfind

end LruCache

namespace CachingFacet

variable {f : CachingFacet} {history : List String} {cs : List CachingCall} {c : CachingCall}

theorem touchedAlong_concat (f : CachingFacet) (cs : List CachingCall) (c : CachingCall) :
    touchedAlong f (cs ++ [c]) = touchedAlong f cs ++ (run after f cs).touchedBy c := by
  induction cs generalizing f with
  | nil => exact List.append_nil _
  | cons b cs ih =>
      rw [List.cons_append, touchedAlong, ih, touchedAlong, List.append_assoc, run_cons]

theorem lastStored_concat (q : String × List UInt8) (cs : List CachingCall) (c : CachingCall) :
    lastStored q (cs ++ [c]) = (storedBy q c).or (lastStored q cs) := by
  rw [lastStored, lastStored, List.filterMap_append, List.getLast?_append]
  cases hstored : storedBy q c with
  | none => simp [hstored]
  | some stored => simp [hstored]

theorem beforeMethod_eq (f : CachingFacet) (now : Nat) (method : String) (args : List UInt8) :
    f.beforeMethod now method args =
      (match (f.cache.get now f.ttl (cacheKey method args)).1 with
        | some value => .shortCircuit value
        | none => .proceed,
        { f with cache := (f.cache.get now f.ttl (cacheKey method args)).2 }) := by
  unfold beforeMethod
  rcases f.cache.get now f.ttl (cacheKey method args) with ⟨_ | value, cache⟩ <;> rfl

theorem cache_after_beforeMethod (f : CachingFacet) (now : Nat) (method : String)
    (args : List UInt8) : (f.after (.beforeMethod now method args)).cache =
      (f.cache.get now f.ttl (cacheKey method args)).2 :=
  congrArg (·.2.cache) (f.beforeMethod_eq now method args)

theorem shortCircuit_iff {now : Nat} {method : String} {args value : List UInt8} :
    (f.beforeMethod now method args).1 = .shortCircuit value ↔
      ∃ time, f.cache.entries.lookup (cacheKey method args) = some ⟨value, time⟩ ∧
        now - time < f.ttl := by
  rw [beforeMethod_eq]
  obtain ⟨hnone, hget⟩ | ⟨entry, hfind, hold, hget⟩ | ⟨entry, hfind, hfresh, hget⟩ :=
    f.cache.get_cases now f.ttl (cacheKey method args) <;> rw [hget]
  · simp [hnone]
  · refine ⟨nofun, ?_⟩
    rintro ⟨time, hsome, hfresh⟩
    cases hfind.symm.trans hsome
    exact absurd hold (Nat.not_le_of_lt hfresh)
  · constructor
    · intro hshort
      cases hshort
      exact ⟨entry.insertedAt, hfind, hfresh⟩
    · rintro ⟨time, hsome, -⟩
      cases hfind.symm.trans hsome
      rfl

theorem time_of_lastStored {q : String × List UInt8} {value : List UInt8} {time : Nat}
    (h : lastStored q cs = some (value, time)) : time ∈ cs.map CachingCall.time := by
  obtain ⟨c, hc, hstored⟩ := List.mem_filterMap.mp (List.mem_of_getLast? h)
  refine List.mem_map.mpr ⟨c, hc, ?_⟩
  cases c with
  | beforeMethod now method args => cases hstored
  | onDetach now => cases hstored
  | afterMethod now method args result =>
      rw [storedBy] at hstored
      split_ifs at hstored
      cases hstored
      rfl

theorem call_ttl (f : CachingFacet) (c : CachingCall) :
    (f.after c).ttl = f.ttl ∧ (f.after c).cache.capacity = f.cache.capacity := by
  cases c with
  | beforeMethod now method args =>
      change (f.beforeMethod now method args).2.ttl = _ ∧
        (f.beforeMethod now method args).2.cache.capacity = _
      rw [beforeMethod_eq]
      exact ⟨rfl, f.cache.capacity_get now f.ttl _⟩
  | afterMethod now method args result => exact ⟨rfl, f.cache.capacity_insert now _ result⟩
  | onDetach now => exact ⟨rfl, rfl⟩

/-- What a call keeps: the cache is in the order of the touches and within its capacity, and each
entry is the last result stored for its method and arguments. -/
structure Kept (f : CachingFacet) (history : List String)
    (stored : String × List UInt8 → Option (List UInt8 × Nat)) : Prop where
  recent : f.cache.Recent history
  size : f.cache.order.length ≤ f.cache.capacity
  value : ∀ q entry, f.cache.entries.lookup (cacheKey q.1 q.2) = some entry →
    stored q = some (entry.value, entry.insertedAt)

variable {stored : String × List UInt8 → Option (List UInt8 × Nat)}

theorem touchedBy_beforeMethod (f : CachingFacet) (now : Nat) (method : String)
    (args : List UInt8) : f.touchedBy (.beforeMethod now method args) =
      if (f.cache.get now f.ttl (cacheKey method args)).1.isSome then [cacheKey method args]
      else [] := by
  have hcall : f.call (.beforeMethod now method args) = _ := f.beforeMethod_eq now method args
  unfold touchedBy
  rw [hcall]
  cases (f.cache.get now f.ttl (cacheKey method args)).1 <;> rfl

theorem Kept.after (h : f.Kept history stored) (hpos : 1 ≤ f.cache.capacity) (c : CachingCall) :
    (f.after c).Kept (history ++ f.touchedBy c) fun q => (storedBy q c).or (stored q) := by
  cases c with
  | beforeMethod now method args =>
      have hcapacity := (f.call_ttl (.beforeMethod now method args)).2
      refine ⟨?_, ?_, fun q entry hfind => ?_⟩
      · rw [cache_after_beforeMethod, touchedBy_beforeMethod]
        exact h.recent.get now f.ttl _
      · rw [hcapacity, cache_after_beforeMethod]
        exact (f.cache.length_get_le now f.ttl _ h.recent).trans h.size
      · rw [cache_after_beforeMethod] at hfind
        exact h.value q entry (f.cache.lookup_get now f.ttl _ _ hfind)
  | afterMethod now method args result =>
      refine ⟨h.recent.insert now _ result, ?_, fun q entry hfind => ?_⟩
      · rw [(f.call_ttl _).2]
        exact h.recent.length_insert hpos h.size now _ result
      · rw [storedBy]
        obtain ⟨hkey, rfl⟩ | ⟨hkey, hold⟩ := f.cache.lookup_insert now _ _ result hfind
        · obtain ⟨hmethod, hargs⟩ := cacheKey_inj hkey
          rw [if_pos (Prod.ext hmethod.symm hargs.symm), Option.some_or]
        · have hq : (method, args) ≠ q := by
            rintro rfl
            exact hkey rfl
          rw [if_neg hq, Option.none_or]
          exact h.value q entry hold
  | onDetach now =>
      refine ⟨f.cache.recent_clear _, Nat.zero_le _, fun q entry hfind => ?_⟩
      cases (AList.lookup_empty _).symm.trans hfind

theorem capacity_run (f : CachingFacet) (cs : List CachingCall) :
    (run after f cs).ttl = f.ttl ∧ (run after f cs).cache.capacity = f.cache.capacity := by
  refine run_invariant (I := fun f' : CachingFacet => f'.ttl = f.ttl ∧
    f'.cache.capacity = f.cache.capacity) ?_ ⟨rfl, rfl⟩
  intro c _ f' hf'
  rw [(f'.call_ttl c).1, (f'.call_ttl c).2]
  exact hf'

theorem kept_run {capacity : Nat} (ttl : Nat) (hpos : 1 ≤ capacity) (cs : List CachingCall) :
    (run after (start capacity ttl) cs).Kept (touchedAlong (start capacity ttl) cs)
      fun q => lastStored q cs := by
  induction cs using List.reverseRecOn with
  | nil =>
      refine ⟨LruCache.recent_new capacity, Nat.zero_le _, fun q entry hfind => ?_⟩
      cases (AList.lookup_empty _).symm.trans hfind
  | append_singleton cs c ih =>
      have hcapacity := (capacity_run (start capacity ttl) cs).2
      have hnext := ih.after (hcapacity.symm ▸ hpos) c
      rw [run_concat, touchedAlong_concat]
      simp only [lastStored_concat]
      exact hnext

/-- What a call spares is what was stored before it, or by it. -/
theorem spared_concat {q : String × List UInt8} :
    f.Spared q (cs ++ [c]) ↔
      (storedBy q c).isSome ∨ f.Spared q cs ∧ (run after f cs).Spares q c := by
  constructor
  · rintro ⟨before, store, between, hcs, hstore, hspares⟩
    obtain rfl | ⟨between, last, rfl⟩ := between.eq_nil_or_concat'
    · obtain ⟨rfl, hlast⟩ := List.append_inj' hcs rfl
      exact .inl (List.cons.inj hlast |>.1 ▸ hstore)
    · rw [← List.cons_append, ← List.append_assoc] at hcs
      obtain ⟨rfl, hlast⟩ := List.append_inj' hcs rfl
      obtain ⟨hbetween, hlast'⟩ := (along_concat ..).mp hspares
      rw [← run_append, List.append_assoc, List.singleton_append] at hlast'
      exact .inr ⟨⟨before, store, between, rfl, hstore, hbetween⟩, List.cons.inj hlast |>.1 ▸ hlast'⟩
  · rintro (hstore | ⟨⟨before, store, between, rfl, hstore, hbetween⟩, hlast⟩)
    · exact ⟨cs, c, [], rfl, hstore, trivial⟩
    · refine ⟨before, store, between ++ [c], by simp, hstore, ?_⟩
      rw [along_concat, ← run_append, List.append_assoc, List.singleton_append]
      exact ⟨hbetween, hlast⟩

theorem spared_of_lookup (capacity ttl : Nat) {q : String × List UInt8} {entry : LruEntry}
    (hfind : (run after (start capacity ttl) cs).cache.entries.lookup (cacheKey q.1 q.2) =
      some entry) : (start capacity ttl).Spared q cs := by
  induction cs using List.reverseRecOn generalizing entry with
  | nil => cases (AList.lookup_empty _).symm.trans hfind
  | append_singleton cs c ih =>
      rw [run_concat] at hfind
      rw [spared_concat]
      cases c with
      | beforeMethod now method args =>
          rw [cache_after_beforeMethod] at hfind
          exact .inr ⟨ih (LruCache.lookup_get _ now _ _ _ hfind), trivial⟩
      | afterMethod now method args result =>
          obtain ⟨hkey, -⟩ | ⟨-, hold⟩ := LruCache.lookup_insert _ now _ _ result hfind
          · obtain ⟨hmethod, hargs⟩ := cacheKey_inj hkey
            left
            rw [storedBy, if_pos (Prod.ext hmethod.symm hargs.symm)]
            rfl
          · refine .inr ⟨ih hold, fun hevicts => hevicts.2 (AList.lookup_isSome.mp ?_)⟩
            exact Option.isSome_iff_exists.mpr ⟨entry, hfind⟩
      | onDetach now => cases (AList.lookup_empty _).symm.trans hfind

/-- What was stored and spared since is held while it is younger than the time to live. -/
theorem lookup_of_spared (capacity ttl : Nat) {q : String × List UInt8} {value : List UInt8}
    {time now : Nat} (hspared : (start capacity ttl).Spared q cs)
    (hstored : lastStored q cs = some (value, time))
    (hnow : ∀ time ∈ cs.map CachingCall.time, time ≤ now) (hfresh : now < time + ttl) :
    (run after (start capacity ttl) cs).cache.entries.lookup (cacheKey q.1 q.2) =
      some ⟨value, time⟩ := by
  induction cs using List.reverseRecOn with
  | nil => cases hstored
  | append_singleton cs c ih =>
      have hbefore : ∀ time ∈ cs.map CachingCall.time, time ≤ now := fun time hmem =>
        hnow time (by rw [List.map_append]; exact List.mem_append_left _ hmem)
      have hcall : c.time ≤ now := hnow c.time (by simp)
      have httl := (capacity_run (start capacity ttl) cs).1
      rw [spared_concat] at hspared
      rw [lastStored_concat] at hstored
      rw [run_concat]
      cases c with
      | beforeMethod now' method args =>
          have hold := ih (hspared.resolve_left nofun).1 hstored hbefore
          rw [cache_after_beforeMethod, httl]
          refine LruCache.lookup_get_of_fresh _ hold ?_
          have hle := hbefore time (time_of_lastStored hstored)
          change now' ≤ now at hcall
          change now' - time < ttl
          omega
      | afterMethod now' method args result =>
          by_cases hq : (method, args) = q
          · rw [storedBy, if_pos hq, Option.some_or] at hstored
            cases hstored
            subst hq
            exact Assoc.lookup_insert_self _ _ _
          · rw [storedBy, if_neg hq] at hstored hspared
            obtain ⟨hspared, hlast⟩ := hspared.resolve_left nofun
            have hold := ih hspared hstored hbefore
            have hheld := AList.lookup_isSome.mp (Option.isSome_iff_exists.mpr ⟨_, hold⟩)
            have hkept := not_not.mp fun hgone => hlast ⟨hheld, hgone⟩
            obtain ⟨entry, hentry⟩ := Option.isSome_iff_exists.mp (AList.lookup_isSome.mpr hkept)
            obtain ⟨hkey, -⟩ | ⟨-, hsame⟩ := LruCache.lookup_insert _ now' _ _ result hentry
            · obtain ⟨hmethod, hargs⟩ := cacheKey_inj hkey
              exact absurd (Prod.ext hmethod.symm hargs.symm) hq
            · rw [hold] at hsame
              cases hsame
              exact hentry
      | onDetach now' => exact (hspared.resolve_left nofun).2.elim

/-- After any run, the queue holds the keys of the entries, each once, and no more than the
capacity; a key that is evicted next is the one whose last touch is the longest ago; and a method
is short-circuited next by the last result stored for it and its arguments, exactly if that is
younger than the time to live and nothing has evicted it since. -/
theorem caching_is_lru (capacity ttl : Nat) (cs : List CachingCall) (hcapacity : 1 ≤ capacity) :
    let f := run after (start capacity ttl) cs
    (f.cache.order.Nodup ∧ (∀ key, key ∈ f.cache.order ↔ key ∈ f.cache.entries) ∧
        f.cache.entries.keys.length ≤ capacity) ∧
      (∀ now method args result key, f.Evicts now method args result key →
        f.cache.entries.keys.length = capacity ∧
          LeastRecent (touchedAlong (start capacity ttl) cs) f.cache key) ∧
      (∀ now method args value, (∀ time ∈ cs.map CachingCall.time, time ≤ now) →
        ((f.beforeMethod now method args).1 = .shortCircuit value ↔
          ∃ time, lastStored (method, args) cs = some (value, time) ∧ time ≤ now ∧
            now < time + ttl ∧ (start capacity ttl).Spared (method, args) cs)) ∧
      ∀ method args method' args', cacheKey method args = cacheKey method' args' →
        method = method' ∧ args = args' := by
  intro f
  have hkept := kept_run ttl hcapacity cs
  obtain ⟨httl, hsame⟩ := capacity_run (start capacity ttl) cs
  change f.cache.capacity = capacity at hsame
  have hsize : f.cache.entries.keys.length ≤ capacity := by
    rw [hkept.recent.length]
    exact hkept.size.trans (le_of_eq hsame)
  refine ⟨⟨hkept.recent.nodup, hkept.recent.mem, hsize⟩, ?_, ?_, fun _ _ _ _ => cacheKey_inj⟩
  · rintro now method args result key ⟨hheld, hgone⟩
    obtain ⟨hfull, order, horder⟩ := LruCache.front_of_evicted hheld hgone
    rw [hsame] at hfull
    refine ⟨Nat.le_antisymm hsize hfull, ?_⟩
    obtain ⟨earlier, later, hhistory, hlast, hrest⟩ :=
      exists_last_of_sublist (horder ▸ hkept.recent.order)
    refine ⟨earlier, later, hhistory, hlast, fun key' hheld' hne => hrest key' ?_⟩
    rw [← hkept.recent.mem, horder, List.mem_cons] at hheld'
    exact hheld'.resolve_left hne
  · intro now method args value hnow
    change f.ttl = ttl at httl
    rw [shortCircuit_iff, httl]
    constructor
    · rintro ⟨time, hfind, hfresh⟩
      have hstored := hkept.value (method, args) _ hfind
      have hle := hnow time (time_of_lastStored hstored)
      have hspared := spared_of_lookup capacity ttl (q := (method, args)) hfind
      exact ⟨time, hstored, hle, by omega, hspared⟩
    · rintro ⟨time, hstored, hle, hfresh, hspared⟩
      exact ⟨time, lookup_of_spared capacity ttl (q := (method, args)) hspared hstored hnow hfresh,
        by omega⟩

/-- Four results in a cache of two: the hit of the first keeps it, and the second is evicted. -/
def hitAndEvict : List CachingCall :=
  [.afterMethod 0 "m" [1] [10], .afterMethod 1 "m" [2] [20], .beforeMethod 2 "m" [1],
    .afterMethod 3 "m" [3] [30]]

/-- The first result was stored and spared since, so it answers; the second does not answer, so
it was not spared. -/
theorem caching_is_lru_hitAndEvict :
    ((run after (start 2 60) hitAndEvict).beforeMethod 4 "m" [1]).1 = .shortCircuit [10] ∧
      ¬(start 2 60).Spared ("m", [2]) hitAndEvict := by
  obtain ⟨-, -, hanswers, -⟩ := caching_is_lru 2 60 hitAndEvict (by decide)
  refine ⟨(hanswers 4 "m" [1] [10] (by decide)).mpr
    ⟨0, rfl, by decide, by decide, [], _, _, rfl, rfl, by decide +kernel⟩, fun hspared => ?_⟩
  have hhit := (hanswers 4 "m" [2] [20] (by decide)).mpr
    ⟨1, rfl, by decide, by decide, hspared⟩
  revert hhit
  decide +kernel

end CachingFacet

end PlexSpaces.Facets
