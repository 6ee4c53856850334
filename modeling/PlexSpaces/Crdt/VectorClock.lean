import PlexSpaces.Crdt.Laws
/-!
# Vector clocks

A clock counts the operations of every node it has seen; a node without an entry counts zero.
`happens_before` compares entry by entry and also asks for no more entries than the other clock
has.  Clocks are made by `inc` and `merge`, so unless a counter wraps, no entry is zero, every
entry of an earlier clock has its counterpart, and the second test never decides
(`happensBefore_iff`).
-/

namespace PlexSpaces.Crdt

open PlexSpaces.Lib PlexSpaces.Crdt.Lattice

namespace VectorClock

/-- `*c += 1`, as a release build adds. -/
def inc (c : VectorClock) (nodeId : String) : VectorClock :=
  ⟨c.clocks.insert nodeId
    (match c.clocks.lookup nodeId with
      | some n => n + 1
      | none => 1)⟩

def get (c : VectorClock) (nodeId : String) : UInt64 := (c.clocks.lookup nodeId).getD 0

def happensBefore (c other : VectorClock) : Bool :=
  decide (∀ k ∈ c.clocks.keys, c.get k ≤ other.get k) &&
    decide (c.clocks.keys.card ≤ other.clocks.keys.card)

def concurrent (c other : VectorClock) : Bool :=
  !c.happensBefore other && !other.happensBefore c

/-- The counter of the node can count one more operation. -/
def HasRoom (c : VectorClock) (nodeId : String) : Prop := (c.get nodeId).toNat + 1 < 2 ^ 64

/-- The clocks that `inc` and `merge` make, where `allowed` permits the increment. -/
inductive Reachable (allowed : VectorClock → String → Prop) : VectorClock → Prop
  | new : Reachable allowed new
  | inc {c : VectorClock} (nodeId : String) :
      Reachable allowed c → allowed c nodeId → Reachable allowed (c.inc nodeId)
  | merge {a b : VectorClock} :
      Reachable allowed a → Reachable allowed b → Reachable allowed (merge a b)

def Proper (c : VectorClock) : Prop := ∀ k ∈ c.clocks.keys, 0 < c.get k

/-! ## The entries after each operation -/

@[simp] theorem get_new (k : String) : new.get k = 0 := by
  rw [get, new, Finmap.lookup_empty]
  rfl

theorem get_inc (c : VectorClock) (nodeId k : String) :
    (c.inc nodeId).get k = if k = nodeId then c.get nodeId + 1 else c.get k := by
  unfold inc get
  split_ifs with hk
  · subst hk
    rw [Finmap.lookup_insert]
    cases c.clocks.lookup k <;> rfl
  · rw [Finmap.lookup_insert_of_ne _ hk]

theorem get_inc_self (c : VectorClock) (nodeId : String) :
    (c.inc nodeId).get nodeId = c.get nodeId + 1 := by
  rw [get_inc, if_pos rfl]

theorem get_inc_of_ne (c : VectorClock) {nodeId k : String} (h : k ≠ nodeId) :
    (c.inc nodeId).get k = c.get k := by
  rw [get_inc, if_neg h]

theorem mem_keys_iff {c : VectorClock} {k : String} :
    k ∈ c.clocks.keys ↔ ∃ v, c.clocks.lookup k = some v := by
  rw [Finmap.mem_keys, Finmap.mem_iff]

theorem get_merge (a b : VectorClock) (k : String) :
    (merge a b).get k = max (a.get k) (b.get k) := by
  change ((a.clocks.mergeWith max b.clocks).lookup k).getD 0 = _
  rw [FMap.lookup_mergeWith]
  unfold get
  cases a.clocks.lookup k with
  | none => cases b.clocks.lookup k <;> simp [UInt64.max_def]
  | some x => cases b.clocks.lookup k <;> simp [UInt64.max_def]

theorem toNat_get_merge (a b : VectorClock) (k : String) :
    ((merge a b).get k).toNat = max (a.get k).toNat (b.get k).toNat := by
  rw [get_merge, UInt64.toNat_max]

theorem toNat_get_inc_self {c : VectorClock} {nodeId : String} (h : c.HasRoom nodeId) :
    ((c.inc nodeId).get nodeId).toNat = (c.get nodeId).toNat + 1 := by
  rw [get_inc_self, UInt64.toNat_add]
  exact Nat.mod_eq_of_lt h

/-! ## Clocks without a zero -/

theorem Proper.lookup {c : VectorClock} (h : c.Proper) (k : String) :
    c.clocks.lookup k = if c.get k = 0 then none else some (c.get k) := by
  cases hk : c.clocks.lookup k with
  | none => simp [get, hk]
  | some v =>
      have hpos := h k (mem_keys_iff.mpr ⟨v, hk⟩)
      have hget : c.get k = v := by rw [get, hk]; rfl
      rw [hget] at hpos ⊢
      have hne : v ≠ 0 := by
        rintro rfl
        exact UInt64.lt_irrefl 0 hpos
      rw [if_neg hne]

theorem proper_new : new.Proper := by
  intro k hk
  obtain ⟨v, hv⟩ := mem_keys_iff.mp hk
  rw [new, Finmap.lookup_empty] at hv
  cases hv

theorem Proper.inc {c : VectorClock} {nodeId : String} (h : c.Proper)
    (hroom : c.HasRoom nodeId) : (c.inc nodeId).Proper := by
  intro k hk
  by_cases hkn : k = nodeId
  · subst hkn
    rw [UInt64.lt_iff_toNat_lt, toNat_get_inc_self hroom]
    exact Nat.succ_pos _
  · rw [get_inc_of_ne _ hkn]
    apply h
    rw [mem_keys_iff] at hk ⊢
    rwa [VectorClock.inc, Finmap.lookup_insert_of_ne _ hkn] at hk

theorem Proper.merge {a b : VectorClock} (ha : a.Proper) (hb : b.Proper) :
    (Lattice.merge a b).Proper := by
  intro k hk
  rw [get_merge, UInt64.lt_iff_toNat_lt, UInt64.toNat_max]
  obtain ⟨v, hv⟩ := mem_keys_iff.mp hk
  change (a.clocks.mergeWith max b.clocks).lookup k = some v at hv
  rw [FMap.lookup_mergeWith] at hv
  cases hak : a.clocks.lookup k with
  | some x => exact lt_max_of_lt_left (UInt64.lt_iff_toNat_lt.mp (ha k (mem_keys_iff.mpr ⟨x, hak⟩)))
  | none =>
      cases hbk : b.clocks.lookup k with
      | some x =>
          exact lt_max_of_lt_right (UInt64.lt_iff_toNat_lt.mp (hb k (mem_keys_iff.mpr ⟨x, hbk⟩)))
      | none => simp [hak, hbk] at hv

theorem Reachable.proper {c : VectorClock} (h : Reachable HasRoom c) : c.Proper := by
  induction h with
  | new => exact proper_new
  | inc nodeId _ hroom ih => exact ih.inc hroom
  | merge _ _ iha ihb => exact iha.merge ihb

/-- The entry-wise order of the counters, whether there is an entry or not. -/
def Below (a b : VectorClock) : Prop := ∀ k, a.get k ≤ b.get k

/-- Between clocks without a zero the number of entries never decides. -/
theorem happensBefore_iff {a b : VectorClock} (ha : a.Proper) :
    a.happensBefore b = true ↔ a.Below b := by
  rw [happensBefore, Bool.and_eq_true, decide_eq_true_iff, decide_eq_true_iff]
  constructor
  · rintro ⟨hall, -⟩ k
    cases hk : a.clocks.lookup k with
    | none =>
        rw [get, hk]
        exact UInt64.le_iff_toNat_le.mpr (Nat.zero_le _)
    | some v => exact hall k (mem_keys_iff.mpr ⟨v, hk⟩)
  · intro h
    constructor
    · exact fun k _ => h k
    · refine Finset.card_le_card ?_
      intro k hk
      have hpos : 0 < b.get k := UInt64.lt_of_lt_of_le (ha k hk) (h k)
      rw [mem_keys_iff]
      cases hb : b.clocks.lookup k with
      | some v => exact ⟨v, rfl⟩
      | none =>
          rw [get, hb] at hpos
          exact absurd hpos (UInt64.lt_irrefl 0)

theorem Below.antisymm {a b : VectorClock} (ha : a.Proper) (hb : b.Proper) (hab : a.Below b)
    (hba : b.Below a) : a = b := by
  obtain ⟨clocks⟩ := a
  obtain ⟨clocks'⟩ := b
  congr 1
  apply Finmap.ext_lookup
  intro k
  have hget := UInt64.le_antisymm (hab k) (hba k)
  rw [ha.lookup k, hb.lookup k, hget]

theorem below_merge_iff {a b c : VectorClock} : (merge a b).Below c ↔ a.Below c ∧ b.Below c := by
  simp only [Below, UInt64.le_iff_toNat_le, toNat_get_merge, max_le_iff]
  exact forall_and

/-- What it means that clocks order causality: the test is a partial order, that of the counters,
in which the merge is the least upper bound, and clocks are concurrent that it does not relate. -/
structure OrdersCausality (a b c : VectorClock) : Prop where
  refl : a.happensBefore a = true
  trans : a.happensBefore b = true → b.happensBefore c = true → a.happensBefore c = true
  antisymm : a.happensBefore b = true → b.happensBefore a = true → a = b
  pointwise : a.happensBefore b = true ↔ ∀ k, a.get k ≤ b.get k
  left_le_merge : a.happensBefore (merge a b) = true
  right_le_merge : b.happensBefore (merge a b) = true
  merge_least : a.happensBefore c = true → b.happensBefore c = true →
    (merge a b).happensBefore c = true
  concurrent_iff : a.concurrent b = true ↔
    ¬(∀ k, a.get k ≤ b.get k) ∧ ¬∀ k, b.get k ≤ a.get k

theorem Proper.ordersCausality {a b : VectorClock} (ha : a.Proper) (hb : b.Proper)
    (c : VectorClock) : OrdersCausality a b c := by
  have hab := ha.merge hb
  have hself : (Lattice.merge a b).Below (Lattice.merge a b) := fun k => UInt64.le_refl _
  refine ⟨?_, ?_, ?_, happensBefore_iff ha, ?_, ?_, ?_, ?_⟩
  · exact (happensBefore_iff ha).mpr fun k => UInt64.le_refl _
  · rw [happensBefore_iff ha, happensBefore_iff hb, happensBefore_iff ha]
    exact fun h h' k => UInt64.le_trans (h k) (h' k)
  · rw [happensBefore_iff ha, happensBefore_iff hb]
    exact Below.antisymm ha hb
  · exact (happensBefore_iff ha).mpr (below_merge_iff.mp hself).1
  · exact (happensBefore_iff hb).mpr (below_merge_iff.mp hself).2
  · rw [happensBefore_iff ha, happensBefore_iff hb, happensBefore_iff hab]
    exact fun h h' => below_merge_iff.mpr ⟨h, h'⟩
  · rw [concurrent, Bool.and_eq_true, Bool.not_eq_true', Bool.not_eq_true', Bool.eq_false_iff,
      Bool.eq_false_iff, ne_eq, ne_eq, happensBefore_iff ha, happensBefore_iff hb]
    exact Iff.rfl

end VectorClock

end PlexSpaces.Crdt
