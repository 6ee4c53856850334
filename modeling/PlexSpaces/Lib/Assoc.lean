import Mathlib.Data.List.AList
import Mathlib.Data.Finmap
/-!
# Finite maps with an entry interface

A hash map is modelled twice.  `Assoc K V` is an association list without
duplicate keys: its entry order is the (unspecified) iteration order of the
table, so a statement over every `Assoc` covers every iteration order.
`FMap K V` is the same map with the order forgotten; equality on it is equality
of tables.  `mergeWith` is the loop that folds the entries of one table into a
clone of another, `lookup_mergeWith` its meaning at one key.
-/

namespace PlexSpaces.Lib

universe u v w

abbrev Assoc (K : Type u) (V : Type v) := AList (fun _ : K => V)

abbrev FMap (K : Type u) (V : Type v) := Finmap (fun _ : K => V)

namespace Assoc

variable {K : Type u} {V : Type v} {W : Type w}

def values (m : Assoc K V) : List V := m.entries.map Sigma.snd

variable [DecidableEq K]

@[simp] theorem lookup_insert_self (m : Assoc K V) (k : K) (v : V) :
    (m.insert k v).lookup k = some v :=
  AList.lookup_insert m

theorem lookup_insert_of_ne (m : Assoc K V) {k k' : K} (v : V) (h : k' ≠ k) :
    (m.insert k v).lookup k' = m.lookup k' :=
  AList.lookup_insert_ne h

theorem lookup_insert (m : Assoc K V) (k k' : K) (v : V) :
    (m.insert k v).lookup k' = if k' = k then some v else m.lookup k' := by
  split_ifs with h
  · subst h
    exact lookup_insert_self m k' v
  · exact lookup_insert_of_ne m v h

theorem lookup_erase (m : Assoc K V) (k k' : K) :
    (m.erase k).lookup k' = if k' = k then none else m.lookup k' := by
  split_ifs with h
  · subst h
    exact AList.lookup_erase k' m
  · exact AList.lookup_erase_ne h

theorem mem_entries_of_lookup {m : Assoc K V} {k : K} {v : V}
    (h : m.lookup k = some v) : (⟨k, v⟩ : Sigma fun _ : K => V) ∈ m.entries :=
  AList.mem_lookup_iff.mp h

theorem lookup_of_mem_entries {m : Assoc K V} {e : Sigma fun _ : K => V}
    (h : e ∈ m.entries) : m.lookup e.1 = some e.2 :=
  AList.mem_lookup_iff.mpr h

theorem mem_values {m : Assoc K V} {v : V} :
    v ∈ m.values ↔ ∃ k, m.lookup k = some v := by
  constructor
  · intro h
    obtain ⟨e, he, rfl⟩ := List.mem_map.mp h
    exact ⟨e.1, lookup_of_mem_entries he⟩
  · rintro ⟨k, h⟩
    exact List.mem_map.mpr ⟨⟨k, v⟩, mem_entries_of_lookup h, rfl⟩

/-- Keep the entries that satisfy `p`. -/
def retain (p : K → V → Bool) (m : Assoc K V) : Assoc K V where
  entries := m.entries.filter fun e => p e.1 e.2
  nodupKeys := m.nodupKeys.sublist List.filter_sublist

theorem lookup_retain (p : K → V → Bool) (m : Assoc K V) (k : K) :
    (m.retain p).lookup k = (m.lookup k).filter (p k) := by
  cases hm : m.lookup k with
  | none =>
      rw [Option.filter_none]
      apply AList.lookup_eq_none.mpr
      intro hmem
      obtain ⟨v, hv⟩ := Option.isSome_iff_exists.mp (AList.lookup_isSome.mpr hmem)
      have he := (List.mem_filter.mp (mem_entries_of_lookup hv)).1
      rw [lookup_of_mem_entries he] at hm
      cases hm
  | some v =>
      have he := mem_entries_of_lookup hm
      by_cases hp : p k v = true
      · rw [Option.filter_some, if_pos hp]
        exact lookup_of_mem_entries (m := m.retain p) (List.mem_filter.mpr ⟨he, hp⟩)
      · rw [Option.filter_some, if_neg hp]
        apply AList.lookup_eq_none.mpr
        intro hmem
        obtain ⟨w, hw⟩ := Option.isSome_iff_exists.mp (AList.lookup_isSome.mpr hmem)
        have hw' := List.mem_filter.mp (mem_entries_of_lookup hw)
        have hwv : w = v := by
          have := lookup_of_mem_entries hw'.1
          rw [hm] at this
          exact (Option.some.inj this).symm
        subst hwv
        exact hp hw'.2

/-- Apply `f` to every value. -/
def mapValues (f : V → V) (m : Assoc K V) : Assoc K V where
  entries := m.entries.map fun e => ⟨e.1, f e.2⟩
  nodupKeys := by
    have hkeys : (m.entries.map fun e => (⟨e.1, f e.2⟩ : Sigma fun _ : K => V)).keys =
        m.entries.keys := by
      rw [List.keys, List.map_map]
      rfl
    rw [List.NodupKeys, hkeys]
    exact m.nodupKeys

theorem lookup_mapValues (f : V → V) (m : Assoc K V) (k : K) :
    (m.mapValues f).lookup k = (m.lookup k).map f := by
  cases hm : m.lookup k with
  | some v =>
      have he : (⟨k, f v⟩ : Sigma fun _ : K => V) ∈ (m.mapValues f).entries :=
        List.mem_map.mpr ⟨⟨k, v⟩, mem_entries_of_lookup hm, rfl⟩
      exact lookup_of_mem_entries he
  | none =>
      cases hmap : (m.mapValues f).lookup k with
      | none => rfl
      | some w =>
          obtain ⟨e, he, heq⟩ := List.mem_map.mp (mem_entries_of_lookup hmap)
          have hkey : e.1 = k := congrArg Sigma.fst heq
          have hlookup := lookup_of_mem_entries he
          rw [hkey, hm] at hlookup
          cases hlookup

/-! ## The entry loop -/

/-- `entry(k).and_modify(|x| *x = f(x, v)).or_insert(v)`. -/
def upsertWith (f : V → V → V) (m : Assoc K V) (k : K) (v : V) : Assoc K V :=
  match m.lookup k with
  | some x => m.insert k (f x v)
  | none => m.insert k v

theorem lookup_upsertWith (f : V → V → V) (m : Assoc K V) (k k' : K) (v : V) :
    (m.upsertWith f k v).lookup k' =
      if k' = k then (m.lookup k).merge f (some v) else m.lookup k' := by
  unfold upsertWith
  cases hm : m.lookup k with
  | none => rw [lookup_insert, Option.merge_none_left]
  | some x => rw [lookup_insert, Option.merge_some_some]

/-- Fold a list of entries into `m`, combining with `f` on a key already there. -/
def upsertAll (f : V → V → V) (m : Assoc K V) (es : List (Sigma fun _ : K => V)) :
    Assoc K V :=
  es.foldl (fun acc e => acc.upsertWith f e.1 e.2) m

/-- The loop `for (k, v) in b { a.entry(k).and_modify(..).or_insert(v) }` on a
clone of `a`. -/
def mergeWith (f : V → V → V) (a b : Assoc K V) : Assoc K V :=
  a.upsertAll f b.entries

theorem lookup_upsertAll (f : V → V → V) (m : Assoc K V) (k : K)
    (es : List (Sigma fun _ : K => V)) (hes : es.NodupKeys) :
    (m.upsertAll f es).lookup k = (m.lookup k).merge f (es.dlookup k) := by
  induction es generalizing m with
  | nil => simp [upsertAll]
  | cons e es ih =>
      obtain ⟨k', v'⟩ := e
      rw [List.nodupKeys_cons] at hes
      change ((m.upsertWith f k' v').upsertAll f es).lookup k = _
      rw [ih _ hes.2, lookup_upsertWith]
      by_cases hk : k = k'
      · subst hk
        -- The key does not occur again, so the rest of the loop skips it.
        have hnone : es.dlookup k = none := List.dlookup_eq_none.mpr hes.1
        rw [if_pos rfl, hnone, List.dlookup_cons_eq, Option.merge_none_right]
      · rw [if_neg hk, List.dlookup_cons_ne _ _ hk]

theorem lookup_mergeWith (f : V → V → V) (a b : Assoc K V) (k : K) :
    (a.mergeWith f b).lookup k = (a.lookup k).merge f (b.lookup k) :=
  lookup_upsertAll f a k b.entries b.nodupKeys

end Assoc

namespace FMap

variable {K : Type u} {V : Type v} [DecidableEq K]

/-- `Assoc.mergeWith` on tables; the result does not depend on the iteration
order of either side. -/
def mergeWith (f : V → V → V) (a b : FMap K V) : FMap K V :=
  Finmap.liftOn₂ a b (fun a b => (Assoc.mergeWith f a b).toFinmap) (by
    intro a₁ b₁ a₂ b₂ ha hb
    apply Finmap.ext_lookup
    intro k
    change (Assoc.mergeWith f a₁ b₁).lookup k = (Assoc.mergeWith f a₂ b₂).lookup k
    rw [Assoc.lookup_mergeWith, Assoc.lookup_mergeWith, AList.perm_lookup ha,
      AList.perm_lookup hb])

@[simp] theorem lookup_mergeWith (f : V → V → V) (a b : FMap K V) (k : K) :
    (a.mergeWith f b).lookup k = (a.lookup k).merge f (b.lookup k) := by
  induction a, b using Finmap.induction_on₂ with
  | H a b =>
      unfold mergeWith
      rw [Finmap.liftOn₂_toFinmap]
      exact Assoc.lookup_mergeWith f a b k

/-! ## The laws of `mergeWith` are those of `f` -/

theorem mergeWith_assoc (f : V → V → V) [Std.Associative f] (a b c : FMap K V) :
    (a.mergeWith f b).mergeWith f c = a.mergeWith f (b.mergeWith f c) := by
  apply Finmap.ext_lookup
  intro k
  simp only [lookup_mergeWith]
  exact (Option.associative_merge f).assoc _ _ _

theorem mergeWith_comm (f : V → V → V) [Std.Commutative f] (a b : FMap K V) :
    a.mergeWith f b = b.mergeWith f a := by
  apply Finmap.ext_lookup
  intro k
  rw [lookup_mergeWith, lookup_mergeWith]
  exact (Option.commutative_merge f).comm _ _

theorem mergeWith_idem (f : V → V → V) [Std.IdempotentOp f] (a : FMap K V) :
    a.mergeWith f a = a := by
  apply Finmap.ext_lookup
  intro k
  rw [lookup_mergeWith]
  exact (Option.idempotentOp_merge f).idempotent _

@[simp] theorem empty_mergeWith (f : V → V → V) (a : FMap K V) : mergeWith f ∅ a = a := by
  apply Finmap.ext_lookup
  intro k
  rw [lookup_mergeWith, Finmap.lookup_empty, Option.merge_none_left]

end FMap

end PlexSpaces.Lib
