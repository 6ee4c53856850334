import Mathlib.Logic.Function.Basic
import PlexSpaces.Crdt.Laws
import PlexSpaces.Lib.Run
/-!
# Observed-remove sets across replicas

Any number of replicas add, remove and merge.  The operations of a run are
numbered, and the causal history of a replica is the set of the operations it
made or received.  What a replica contains is a matter of its history alone: an
addition counts unless a removal of the same value in the history saw its id.

The invariant reads both halves of the set off the history: the ids of a value
are those of its additions, and the removed ids are those that some removal saw.
-/

namespace PlexSpaces.Crdt

open PlexSpaces.Lib PlexSpaces.Crdt.Lattice

universe u v

namespace OrSetLattice

variable {T : Type u} [DecidableEq T]

def ids (s : OrSetLattice T) (value : T) : Finset String := (s.added.lookup value).getD ∅

theorem ids_new (v : T) : (new : OrSetLattice T).ids v = ∅ := by
  rw [ids, new, Finmap.lookup_empty]
  rfl

theorem ids_add (s : OrSetLattice T) (value : T) (uniqueId : String) (v : T) :
    (s.add value uniqueId).ids v = if v = value then insert uniqueId (s.ids v) else s.ids v := by
  by_cases hv : v = value
  · subst hv
    simp [ids, add]
  · simp [ids, add, hv]

theorem ids_merge (a b : OrSetLattice T) (v : T) : (merge a b).ids v = a.ids v ∪ b.ids v := by
  change ((a.added.mergeWith (· ∪ ·) b.added).lookup v).getD ∅ = _
  rw [FMap.lookup_mergeWith]
  unfold ids
  cases a.added.lookup v with
  | none => simp
  | some x =>
      cases b.added.lookup v with
      | none => simp
      | some y => rfl

theorem ids_remove (s : OrSetLattice T) (value v : T) : (s.remove value).ids v = s.ids v := by
  unfold remove ids
  cases s.added.lookup value with
  | none => rfl
  | some x => rfl

theorem removed_remove (s : OrSetLattice T) (value : T) :
    (s.remove value).removed = s.removed ∪ s.ids value := by
  unfold remove ids
  cases s.added.lookup value with
  | none => simp
  | some x => rfl

theorem contains_iff_ids (s : OrSetLattice T) (v : T) :
    s.contains v = true ↔ ∃ id ∈ s.ids v, id ∉ s.removed := by
  unfold contains ids
  cases s.added.lookup v with
  | none => simp
  | some x => simp

theorem mem_elements (s : OrSetLattice T) (v : T) : v ∈ s.elements ↔ s.contains v = true := by
  rw [elements, Finset.mem_filter, and_iff_right_iff_imp]
  intro hv
  rw [Finmap.mem_keys]
  by_contra hmem
  rw [contains, Finmap.lookup_eq_none.mpr hmem] at hv
  cases hv

end OrSetLattice

inductive ReplicaOp (ι : Type v) (T : Type u)
  | add (replica : ι) (value : T) (uniqueId : String)
  | remove (replica : ι) (value : T)
  | merge (replica source : ι)

/-- How many operations there were, and which of them each replica knows. -/
structure Causality (ι : Type v) where
  count : Nat
  past : ι → Finset Nat

namespace Replicas

variable {ι : Type v} {T : Type u} [DecidableEq ι]

def observe (c : Causality ι) : ReplicaOp ι T → Causality ι
  | .add i _ _ => ⟨c.count + 1, Function.update c.past i (insert c.count (c.past i))⟩
  | .remove i _ => ⟨c.count + 1, Function.update c.past i (insert c.count (c.past i))⟩
  | .merge i j => ⟨c.count + 1, Function.update c.past i (c.past i ∪ c.past j)⟩

/-- The causal history of a replica: its own operations and those it received, by
their position in the run. -/
def history (ops : List (ReplicaOp ι T)) : ι → Finset Nat :=
  (run observe ⟨0, fun _ => ∅⟩ ops).past

/-- The operations of `past` add `v` under `id`. -/
def AddedIn (ops : List (ReplicaOp ι T)) (past : Finset Nat) (v : T) (id : String) : Prop :=
  ∃ a ∈ past, ∃ i : ι, ops[a]? = some (ReplicaOp.add i v id)

/-- Operation `r` is a removal of `v`, and `id` was among the ids of `v` in the
causal history of the replica that made it. -/
def PresentAt (ops : List (ReplicaOp ι T)) (r : Nat) (v : T) (id : String) : Prop :=
  ∃ i : ι, ops[r]? = some (ReplicaOp.remove i v) ∧ AddedIn ops (history (ops.take r) i) v id

/-- No two additions of the run share an id. -/
def UniqueIds (ops : List (ReplicaOp ι T)) : Prop :=
  ∀ (a b : Nat) (i j : ι) (v w : T) (id : String), ops[a]? = some (ReplicaOp.add i v id) →
    ops[b]? = some (ReplicaOp.add j w id) → a = b

/-! ## A longer run -/

theorem count_observe (ops : List (ReplicaOp ι T)) :
    (run observe (⟨0, fun _ => ∅⟩ : Causality ι) ops).count = ops.length := by
  induction ops using List.reverseRecOn with
  | nil => rfl
  | append_singleton ops op ih =>
      rw [run_concat, List.length_append, ← ih]
      cases op with
      | add i v id => rfl
      | remove i v => rfl
      | merge i j => rfl

theorem history_concat (ops : List (ReplicaOp ι T)) (op : ReplicaOp ι T) :
    history (ops ++ [op]) = match op with
      | .add i _ _ => Function.update (history ops) i (insert ops.length (history ops i))
      | .remove i _ => Function.update (history ops) i (insert ops.length (history ops i))
      | .merge i j => Function.update (history ops) i (history ops i ∪ history ops j) := by
  rw [← count_observe ops, history, run_concat]
  cases op with
  | add i v id => rfl
  | remove i v => rfl
  | merge i j => rfl

theorem lt_length_of_mem_history {ops : List (ReplicaOp ι T)} {i : ι} {a : Nat}
    (ha : a ∈ history ops i) : a < ops.length := by
  induction ops using List.reverseRecOn generalizing i a with
  | nil => simp [history] at ha
  | append_singleton ops op ih =>
      rw [List.length_append, List.length_singleton]
      have hupdate : ∀ (j : ι) (past : Finset Nat), (∀ a ∈ past, a < ops.length + 1) →
          a ∈ Function.update (history ops) j past i → a < ops.length + 1 := by
        intro j past hpast hmem
        by_cases hij : i = j
        · subst hij
          rw [Function.update_self] at hmem
          exact hpast a hmem
        · rw [Function.update_of_ne hij] at hmem
          exact Nat.lt_succ_of_lt (ih hmem)
      have hinsert : ∀ j, ∀ a ∈ insert ops.length (history ops j), a < ops.length + 1 := by
        intro j a ha
        rcases Finset.mem_insert.mp ha with rfl | ha
        · omega
        · exact Nat.lt_succ_of_lt (ih ha)
      rw [history_concat] at ha
      cases op with
      | add j v id => exact hupdate j _ (hinsert j) ha
      | remove j v => exact hupdate j _ (hinsert j) ha
      | merge j k =>
          refine hupdate j _ ?_ ha
          intro a ha
          rcases Finset.mem_union.mp ha with ha | ha
          · exact Nat.lt_succ_of_lt (ih ha)
          · exact Nat.lt_succ_of_lt (ih ha)

omit [DecidableEq ι] in
theorem addedIn_concat {ops : List (ReplicaOp ι T)} (op : ReplicaOp ι T) {past : Finset Nat}
    (hpast : ∀ a ∈ past, a < ops.length) {v : T} {id : String} :
    AddedIn (ops ++ [op]) past v id ↔ AddedIn ops past v id := by
  unfold AddedIn
  refine exists_congr fun a => and_congr_right fun ha => ?_
  rw [List.getElem?_append_left (hpast a ha)]

theorem presentAt_concat {ops : List (ReplicaOp ι T)} {op : ReplicaOp ι T} {r : Nat}
    (hr : r < ops.length) {v : T} {id : String} :
    PresentAt (ops ++ [op]) r v id ↔ PresentAt ops r v id := by
  unfold PresentAt
  rw [List.getElem?_append_left hr, List.take_append_of_le_length hr.le]
  refine exists_congr fun i => and_congr_right fun _ => addedIn_concat op ?_
  intro a ha
  have hlt := lt_length_of_mem_history ha
  rw [List.length_take] at hlt
  omega

omit [DecidableEq ι] in
theorem addedIn_insert {ops : List (ReplicaOp ι T)} {op : ReplicaOp ι T} {past : Finset Nat}
    (hpast : ∀ a ∈ past, a < ops.length) {v : T} {id : String} :
    AddedIn (ops ++ [op]) (insert ops.length past) v id ↔
      (∃ i, op = .add i v id) ∨ AddedIn ops past v id := by
  rw [← addedIn_concat op hpast]
  unfold AddedIn
  constructor
  · rintro ⟨a, ha, i, hadd⟩
    rcases Finset.mem_insert.mp ha with rfl | ha
    · rw [List.getElem?_concat_length] at hadd
      exact Or.inl ⟨i, Option.some.inj hadd⟩
    · exact Or.inr ⟨a, ha, i, hadd⟩
  · rintro (⟨i, rfl⟩ | ⟨a, ha, i, hadd⟩)
    · exact ⟨ops.length, Finset.mem_insert_self _ _, i, List.getElem?_concat_length⟩
    · exact ⟨a, Finset.mem_insert_of_mem ha, i, hadd⟩

omit [DecidableEq ι] in
theorem addedIn_union {ops : List (ReplicaOp ι T)} {past past' : Finset Nat} {v : T}
    {id : String} :
    AddedIn ops (past ∪ past') v id ↔ AddedIn ops past v id ∨ AddedIn ops past' v id := by
  unfold AddedIn
  simp only [Finset.mem_union, or_and_right, exists_or]

theorem presentAt_concat_length {ops : List (ReplicaOp ι T)} {op : ReplicaOp ι T} {v : T}
    {id : String} :
    PresentAt (ops ++ [op]) ops.length v id ↔
      ∃ i, op = .remove i v ∧ AddedIn ops (history ops i) v id := by
  unfold PresentAt
  rw [List.getElem?_concat_length, List.take_left]
  refine exists_congr fun i => and_congr (by simp) (addedIn_concat op ?_)
  exact fun a ha => lt_length_of_mem_history ha

/-- Some removal of `past` saw `id`. -/
def RemovedIn (ops : List (ReplicaOp ι T)) (past : Finset Nat) (id : String) : Prop :=
  ∃ r ∈ past, ∃ v, PresentAt ops r v id

theorem removedIn_concat {ops : List (ReplicaOp ι T)} (op : ReplicaOp ι T) {past : Finset Nat}
    (hpast : ∀ a ∈ past, a < ops.length) {id : String} :
    RemovedIn (ops ++ [op]) past id ↔ RemovedIn ops past id := by
  unfold RemovedIn
  refine exists_congr fun r => and_congr_right fun hr => exists_congr fun v => ?_
  exact presentAt_concat (hpast r hr)

theorem removedIn_insert {ops : List (ReplicaOp ι T)} {op : ReplicaOp ι T} {past : Finset Nat}
    (hpast : ∀ a ∈ past, a < ops.length) {id : String} :
    RemovedIn (ops ++ [op]) (insert ops.length past) id ↔
      (∃ i v, op = .remove i v ∧ AddedIn ops (history ops i) v id) ∨ RemovedIn ops past id := by
  rw [← removedIn_concat op hpast]
  unfold RemovedIn
  constructor
  · rintro ⟨r, hr, v, hpresent⟩
    rcases Finset.mem_insert.mp hr with rfl | hr
    · obtain ⟨i, hop, hadded⟩ := presentAt_concat_length.mp hpresent
      exact Or.inl ⟨i, v, hop, hadded⟩
    · exact Or.inr ⟨r, hr, v, hpresent⟩
  · rintro (⟨i, v, hop, hadded⟩ | ⟨r, hr, v, hpresent⟩)
    · exact ⟨ops.length, Finset.mem_insert_self _ _, v,
        presentAt_concat_length.mpr ⟨i, hop, hadded⟩⟩
    · exact ⟨r, Finset.mem_insert_of_mem hr, v, hpresent⟩

theorem removedIn_union {ops : List (ReplicaOp ι T)} {past past' : Finset Nat} {id : String} :
    RemovedIn ops (past ∪ past') id ↔ RemovedIn ops past id ∨ RemovedIn ops past' id := by
  unfold RemovedIn
  simp only [Finset.mem_union, or_and_right, exists_or]

/-! ## The replicas follow their histories -/

variable [DecidableEq T]

def step (s : ι → OrSetLattice T) : ReplicaOp ι T → ι → OrSetLattice T
  | .add i value uniqueId => Function.update s i ((s i).add value uniqueId)
  | .remove i value => Function.update s i ((s i).remove value)
  | .merge i j => Function.update s i (merge (s i) (s j))

def after (ops : List (ReplicaOp ι T)) : ι → OrSetLattice T :=
  run step (fun _ => OrSetLattice.new) ops

theorem after_concat (ops : List (ReplicaOp ι T)) (op : ReplicaOp ι T) :
    after (ops ++ [op]) = step (after ops) op :=
  run_concat _ _ _

/-- A set holds the ids that the operations of `past` have added and removed. -/
structure Reads (ops : List (ReplicaOp ι T)) (past : Finset Nat) (s : OrSetLattice T) :
    Prop where
  mem_ids : ∀ v id, id ∈ s.ids v ↔ AddedIn ops past v id
  mem_removed : ∀ id, id ∈ s.removed ↔ RemovedIn ops past id

namespace Reads

variable {ops : List (ReplicaOp ι T)} {past past' : Finset Nat} {s s' : OrSetLattice T}

theorem concat (h : Reads ops past s) (op : ReplicaOp ι T)
    (hpast : ∀ a ∈ past, a < ops.length) : Reads (ops ++ [op]) past s := by
  constructor
  · intro v id
    rw [addedIn_concat _ hpast]
    exact h.mem_ids v id
  · intro id
    rw [removedIn_concat _ hpast]
    exact h.mem_removed id

theorem add (h : Reads ops past s) (i : ι) (value : T) (uniqueId : String)
    (hpast : ∀ a ∈ past, a < ops.length) :
    Reads (ops ++ [.add i value uniqueId]) (insert ops.length past) (s.add value uniqueId) := by
  constructor
  · intro v id
    rw [addedIn_insert hpast, OrSetLattice.ids_add, ← h.mem_ids v id]
    by_cases hv : v = value
    · subst hv
      simp [eq_comm]
    · simp [hv, Ne.symm hv]
  · intro id
    rw [removedIn_insert hpast, ← h.mem_removed id]
    change id ∈ s.removed ↔ _
    simp

theorem remove {i : ι} (h : Reads ops (history ops i) s) (value : T) :
    Reads (ops ++ [.remove i value]) (insert ops.length (history ops i)) (s.remove value) := by
  have hpast : ∀ a ∈ history ops i, a < ops.length := fun a ha => lt_length_of_mem_history ha
  constructor
  · intro v id
    rw [addedIn_insert hpast, OrSetLattice.ids_remove, ← h.mem_ids v id]
    simp
  · intro id
    rw [removedIn_insert hpast, OrSetLattice.removed_remove, Finset.mem_union, h.mem_removed,
      h.mem_ids, or_comm]
    apply or_congr_left
    constructor
    · intro hadded
      exact ⟨i, value, rfl, hadded⟩
    · rintro ⟨j, v, hop, hadded⟩
      cases hop
      exact hadded

theorem merge (h : Reads ops past s) (h' : Reads ops past' s') :
    Reads ops (past ∪ past') (Lattice.merge s s') := by
  constructor
  · intro v id
    rw [addedIn_union, OrSetLattice.ids_merge, Finset.mem_union, h.mem_ids, h'.mem_ids]
  · intro id
    rw [removedIn_union, ← h.mem_removed, ← h'.mem_removed]
    exact Finset.mem_union

end Reads

/-- The step lemma at one replica: the others keep set and history. -/
theorem reads_after_concat {ops : List (ReplicaOp ι T)}
    (h : ∀ i, Reads ops (history ops i) (after ops i)) (op : ReplicaOp ι T) (i : ι) :
    Reads (ops ++ [op]) (history (ops ++ [op]) i) (after (ops ++ [op]) i) := by
  have hpast : ∀ j, ∀ a ∈ history ops j, a < ops.length :=
    fun j a ha => lt_length_of_mem_history ha
  rw [after_concat, history_concat]
  cases op with
  | add j value uniqueId =>
      by_cases hij : i = j
      · subst hij
        simp only [step, Function.update_self]
        exact (h i).add i value uniqueId (hpast i)
      · simp only [step, Function.update_of_ne hij]
        exact (h i).concat _ (hpast i)
  | remove j value =>
      by_cases hij : i = j
      · subst hij
        simp only [step, Function.update_self]
        exact (h i).remove value
      · simp only [step, Function.update_of_ne hij]
        exact (h i).concat _ (hpast i)
  | merge j k =>
      by_cases hij : i = j
      · subst hij
        simp only [step, Function.update_self]
        exact ((h i).concat _ (hpast i)).merge ((h k).concat _ (hpast k))
      · simp only [step, Function.update_of_ne hij]
        exact (h i).concat _ (hpast i)

theorem reads_after (ops : List (ReplicaOp ι T)) :
    ∀ i, Reads ops (history ops i) (after ops i) := by
  induction ops using List.reverseRecOn with
  | nil =>
      intro i
      constructor
      · intro v id
        simp [after, history, OrSetLattice.ids_new, AddedIn]
      · intro id
        simp [after, history, OrSetLattice.new, RemovedIn]
  | append_singleton ops op ih => exact reads_after_concat ih op

/-! ## What a replica contains -/

/-- An addition of `v` in the history whose id no removal of `v` in it saw. -/
def Survives (ops : List (ReplicaOp ι T)) (past : Finset Nat) (v : T) : Prop :=
  ∃ a ∈ past, ∃ (j : ι) (id : String), ops[a]? = some (ReplicaOp.add j v id) ∧
    ∀ r ∈ past, ¬ PresentAt ops r v id

omit [DecidableEq T] in
/-- A removal that saw an id removed the value that was added under it. -/
theorem value_of_presentAt {ops : List (ReplicaOp ι T)} (hunique : UniqueIds ops) {a r : Nat}
    {j : ι} {v w : T} {id : String} (hadd : ops[a]? = some (ReplicaOp.add j v id))
    (hpresent : PresentAt ops r w id) : w = v := by
  obtain ⟨k, -, b, -, l, hadd'⟩ := hpresent
  have hab : a = b := hunique a b j l v w id hadd hadd'
  subst hab
  rw [hadd] at hadd'
  cases hadd'
  rfl

theorem contains_iff_survives {ops : List (ReplicaOp ι T)} (hunique : UniqueIds ops) (i : ι)
    (v : T) : (after ops i).contains v = true ↔ Survives ops (history ops i) v := by
  have hreads := reads_after ops i
  rw [OrSetLattice.contains_iff_ids]
  constructor
  · rintro ⟨id, hid, hlive⟩
    obtain ⟨a, ha, j, hadd⟩ := (hreads.mem_ids v id).mp hid
    refine ⟨a, ha, j, id, hadd, ?_⟩
    intro r hr hpresent
    exact hlive ((hreads.mem_removed id).mpr ⟨r, hr, v, hpresent⟩)
  · rintro ⟨a, ha, j, id, hadd, hunseen⟩
    refine ⟨id, (hreads.mem_ids v id).mpr ⟨a, ha, j, hadd⟩, ?_⟩
    intro hremoved
    obtain ⟨r, hr, w, hpresent⟩ := (hreads.mem_removed id).mp hremoved
    have hw := value_of_presentAt hunique hadd hpresent
    subst hw
    exact hunseen r hr hpresent

/-- A replica contains a value exactly when an addition in its causal history
survives; an addition that no removal in the history had seen wins; and equal
histories give equal elements. -/
theorem orSet_follows_history (ops : List (ReplicaOp ι T)) (hunique : UniqueIds ops) :
    (∀ i v, (after ops i).contains v = true ↔ Survives ops (history ops i) v) ∧
    (∀ i a j v id, a ∈ history ops i → ops[a]? = some (ReplicaOp.add j v id) →
      (∀ r ∈ history ops i, ∀ k, ops[r]? = some (ReplicaOp.remove k v) →
        a ∉ history (ops.take r) k) → (after ops i).contains v = true) ∧
    (∀ i j, history ops i = history ops j → (after ops i).elements = (after ops j).elements) := by
  refine ⟨contains_iff_survives hunique, ?_, ?_⟩
  · intro i a j v id ha hadd hconcurrent
    rw [contains_iff_survives hunique]
    refine ⟨a, ha, j, id, hadd, ?_⟩
    rintro r hr ⟨k, hremove, b, hb, l, hadd'⟩
    have hab : a = b := hunique a b j l v v id hadd hadd'
    subst hab
    exact hconcurrent r hr k hremove hb
  · intro i j hsame
    ext v
    rw [OrSetLattice.mem_elements, OrSetLattice.mem_elements, contains_iff_survives hunique,
      contains_iff_survives hunique, hsame]

/-- The second replica removes what it knows while the first adds again; both then know
everything, and the second addition wins. -/
def concurrentAdd : List (ReplicaOp Bool String) :=
  [.add false "job" "n0-1", .merge true false, .remove true "job", .add false "job" "n0-2",
    .merge true false, .merge false true]

theorem concurrentAdd_uniqueIds : UniqueIds concurrentAdd := by
  intro a b i j v w id ha hb
  have haddition : ∀ (k : Nat) (l : Bool) (x : String),
      concurrentAdd[k]? = some (ReplicaOp.add l x id) →
        k = 0 ∧ id = "n0-1" ∨ k = 3 ∧ id = "n0-2" := by
    intro k l x hk
    match k with
    | 0 => simp_all [concurrentAdd]
    | 1 => simp [concurrentAdd] at hk
    | 2 => simp [concurrentAdd] at hk
    | 3 => simp_all [concurrentAdd]
    | 4 => simp [concurrentAdd] at hk
    | 5 => simp [concurrentAdd] at hk
    | k + 6 => simp [concurrentAdd] at hk
  rcases haddition a i v ha with ⟨rfl, rfl⟩ | ⟨rfl, rfl⟩
  · rcases haddition b j w hb with ⟨rfl, -⟩ | ⟨-, hid⟩
    · rfl
    · exact absurd hid (by decide)
  · rcases haddition b j w hb with ⟨-, hid⟩ | ⟨rfl, -⟩
    · exact absurd hid (by decide)
    · rfl

theorem orSet_follows_history_concurrent :
    (after concurrentAdd false).contains "job" = true ∧
      (after concurrentAdd false).elements = (after concurrentAdd true).elements := by
  obtain ⟨-, hwins, hsame⟩ := orSet_follows_history concurrentAdd concurrentAdd_uniqueIds
  refine ⟨?_, hsame false true (by decide)⟩
  refine hwins false 3 false "job" "n0-2" (by decide) rfl ?_
  have hother : ∀ r ∈ history concurrentAdd false, ∀ k : Bool,
      3 ∉ history (concurrentAdd.take r) k := by decide
  exact fun r hr k _ => hother r hr k

end Replicas

end PlexSpaces.Crdt
