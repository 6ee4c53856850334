import PlexSpaces.Lib.Assoc
/-!
# Key-value stores

A store of values under texts, with the keys that begin with a given text.  The
structure carries the laws of its operations; `KeyValueStore.ofAssoc` is a store
on a hash table.
-/

namespace PlexSpaces.Lib

universe u v

structure KeyValueStore (σ : Type u) (V : Type v) where
  get : σ → String → Option V
  put : σ → String → V → σ
  delete : σ → String → σ
  list : σ → String → List String
  get_put : ∀ s k v k', get (put s k v) k' = if k' = k then some v else get s k'
  get_delete : ∀ s k k', get (delete s k) k' = if k' = k then none else get s k'
  mem_list : ∀ s p k, k ∈ list s p ↔ (get s k).isSome ∧ p.toList <+: k.toList
  nodup_list : ∀ s p, (list s p).Nodup

namespace KeyValueStore

variable {σ : Type u} {V : Type v} (kv : KeyValueStore σ V)

def deleteAll (s : σ) (keys : List String) : σ := keys.foldl kv.delete s

theorem get_deleteAll (s : σ) (keys : List String) (k : String) :
    kv.get (kv.deleteAll s keys) k = if k ∈ keys then none else kv.get s k := by
  induction keys generalizing s with
  | nil => rfl
  | cons key keys ih =>
      rw [deleteAll, List.foldl_cons, ← deleteAll, ih, kv.get_delete]
      by_cases hkey : k = key
      · simp [hkey]
      · simp [hkey]

/-- Delete every key that begins with `p`. -/
theorem get_deleteAll_list (s : σ) (p k : String) :
    kv.get (kv.deleteAll s (kv.list s p)) k =
      if p.toList <+: k.toList then none else kv.get s k := by
  rw [get_deleteAll]
  by_cases hprefix : p.toList <+: k.toList
  · rw [if_pos hprefix, ite_eq_left_iff, kv.mem_list]
    exact fun hnot => Option.not_isSome_iff_eq_none.mp fun hsome => hnot ⟨hsome, hprefix⟩
  · rw [if_neg hprefix, if_neg fun hmem => hprefix ((kv.mem_list s p k).mp hmem).2]

/-- The keys that begin with `p` are `p` with each text of a list behind it. -/
theorem exists_list_eq (s : σ) (p : String) :
    ∃ texts : List String, kv.list s p = texts.map (p ++ ·) ∧ texts.Nodup := by
  have hrest : ∀ k ∈ kv.list s p, ∃ text, k = p ++ text := by
    intro k hk
    obtain ⟨rest, hrest⟩ := ((kv.mem_list s p k).mp hk).2
    refine ⟨String.ofList rest, String.toList_inj.mp ?_⟩
    rw [String.toList_append, String.toList_ofList, hrest]
  have hnodup := kv.nodup_list s p
  generalize kv.list s p = keys at hrest hnodup ⊢
  induction keys with
  | nil => exact ⟨[], rfl, List.nodup_nil⟩
  | cons key keys ih =>
      obtain ⟨hnot, hnodup⟩ := List.nodup_cons.mp hnodup
      obtain ⟨texts, rfl, htexts⟩ := ih (fun k hk => hrest k (List.mem_cons_of_mem _ hk)) hnodup
      obtain ⟨text, rfl⟩ := hrest key List.mem_cons_self
      exact ⟨text :: texts, rfl,
        List.nodup_cons.mpr ⟨fun h => hnot (List.mem_map_of_mem h), htexts⟩⟩

def ofAssoc : KeyValueStore (Assoc String V) V where
  get s k := s.lookup k
  put s k v := s.insert k v
  delete s k := s.erase k
  list s p := s.keys.filter fun k => p.toList.isPrefixOf k.toList
  get_put s k v k' := Assoc.lookup_insert s k k' v
  get_delete s k k' := Assoc.lookup_erase s k k'
  mem_list s p k := by
    rw [List.mem_filter, List.isPrefixOf_iff_prefix, AList.lookup_isSome, AList.mem_keys]
  nodup_list s p := s.nodupKeys.filter _

end KeyValueStore

/-! ## One step at a time -/

inductive StoreRequest (V : Type) where
  | get (key : String)
  | put (key : String) (value : V)
  | delete (key : String)
  | list (start : String)

namespace StoreRequest

variable {V : Type}

@[reducible] def Reply : StoreRequest V → Type
  | get _ => Option V
  | put _ _ | delete _ => Unit
  | list _ => List String

def writes : StoreRequest V → Bool
  | put _ _ | delete _ => true
  | get _ | list _ => false

end StoreRequest

namespace KeyValueStore

variable {σ V : Type} (kv : KeyValueStore σ V)

def serve : (request : StoreRequest V) → σ → request.Reply × σ
  | .get key, s => (kv.get s key, s)
  | .put key value, s => ((), kv.put s key value)
  | .delete key, s => ((), kv.delete s key)
  | .list start, s => (kv.list s start, s)

theorem serve_get (key : String) (s : σ) : kv.serve (.get key) s = (kv.get s key, s) := rfl

theorem serve_list (start : String) (s : σ) : kv.serve (.list start) s = (kv.list s start, s) :=
  rfl

theorem serve_put (key : String) (value : V) (s : σ) :
    kv.serve (.put key value) s = ((), kv.put s key value) := rfl

theorem serve_of_not_writes (request : StoreRequest V) (s : σ) (h : request.writes = false) :
    (kv.serve request s).2 = s := by
  cases request with
  | get | list => rfl
  | put | delete => cases h

end KeyValueStore

end PlexSpaces.Lib
