import Mathlib.Data.Multiset.AddSub
import PlexSpaces.Lib.Run
import PlexSpaces.Tuples.Space
/-!
# Conservation of tuples

A history runs a space and remembers what was written into it and what the takes
handed out.  It is conserved when the two agree up to what is still in the space.
In memory every step conserves.  Over SQL a step conserves exactly when a written
tuple survives its JSON form and a `take` finds at most one matching row, because
`take` deletes all the rows it finds and hands out the last
(`conserved_step_iff`).
-/

namespace PlexSpaces.Tuples

open PlexSpaces.Lib

abbrev PlainTuple := { t : Tuple // t.lease = none }

inductive SpaceOp
  | write (tuple : PlainTuple) (id : String)
  | take (pattern : Pattern)
  | takeAll (pattern : Pattern)

structure History where
  space : TupleSpace
  written : Multiset Tuple
  taken : Multiset Tuple

namespace History

variable (codec : TupleCodec)

def start (storage : TupleSpaceBackend) : History := ⟨TupleSpace.new storage, 0, 0⟩

/-- One call at a clock reading; only calls that return `Ok` count. -/
def step (h : History) (a : SpaceOp × Nat) : History :=
  match a with
  | (.write tuple id, now) =>
      match h.space.write codec tuple.1 id now with
      | (.ok _, s) => { h with space := s, written := h.written + {tuple.1} }
      | (.error _, s) => { h with space := s }
  | (.take pattern, now) =>
      match h.space.take codec pattern now with
      | (.ok found, s) => { h with space := s, taken := h.taken + (found.toList : Multiset Tuple) }
      | (.error _, s) => { h with space := s }
  | (.takeAll pattern, now) =>
      match h.space.takeAll codec pattern now with
      | (.ok found, s) => { h with space := s, taken := h.taken + (found : Multiset Tuple) }
      | (.error _, s) => { h with space := s }

def contents : TupleSpaceBackend → Multiset Tuple
  | .inMemory tuples => tuples
  | .external table => (table.rows.filterMap (SqlStorage.rowTuple? codec) : List Tuple)

/-- What was written is what was taken and what is left. -/
def Conserved (h : History) : Prop :=
  h.written = h.taken + contents codec h.space.storage

/-- The condition over SQL: a tuple that is written comes back from its JSON form,
and a `take` finds at most one row. -/
def Keeps (h : History) (a : SpaceOp × Nat) : Prop :=
  match h.space.storage, a.1 with
  | .external table, .write tuple id =>
      ∀ data, codec.encode tuple.1 = .ok data → id ∉ table.rows.map (·.id) →
        codec.decode data = .ok tuple.1
  | .external table, .take pattern =>
      (table.rows.filter (SqlStorage.rowMatches codec pattern)).length ≤ 1
  | _, _ => True

/-- Nothing in the backend expires, and every row can be decoded. -/
def Plain : TupleSpaceBackend → Prop
  | .inMemory tuples => ∀ t ∈ tuples, t.lease = none
  | .external table =>
      SqlStorage.Decodable codec table.rows ∧ ∀ r ∈ table.rows, r.expiresAt = none

/-! ## In memory -/

theorem filter_not_isExpired {tuples : List Tuple} (h : ∀ t ∈ tuples, t.lease = none)
    (now : Nat) : tuples.filter (!·.isExpired now) = tuples := by
  rw [List.filter_eq_self]
  intro t ht
  rw [Tuple.isExpired_of_lease_none (h t ht)]
  rfl

theorem perm_cons_eraseP {p : Tuple → Bool} {tuples : List Tuple} {t : Tuple}
    (h : tuples.find? p = some t) : tuples.Perm (t :: tuples.eraseP p) := by
  induction tuples with
  | nil => cases h
  | cons u tuples ih =>
      by_cases hu : p u = true
      · rw [List.find?_cons_of_pos hu] at h
        cases h
        rw [List.eraseP_cons_of_pos hu]
      · rw [List.find?_cons_of_neg hu] at h
        rw [List.eraseP_cons_of_neg hu]
        exact ((ih h).cons u).trans (List.Perm.swap t u _)

theorem write_inMemory {s : TupleSpace} {tuples : List Tuple}
    (hs : s.storage = .inMemory tuples) (hplain : ∀ t ∈ tuples, t.lease = none)
    (tuple : Tuple) (id : String) (now : Nat) :
    ∃ s', s.write codec tuple id now = (.ok (), s') ∧
      s'.storage = .inMemory (tuples ++ [tuple]) := by
  unfold TupleSpace.write TupleSpace.writeToStorage
  rw [hs]
  dsimp only
  rw [filter_not_isExpired hplain]
  exact ⟨_, rfl, rfl⟩

theorem take_inMemory {s : TupleSpace} {tuples : List Tuple}
    (hs : s.storage = .inMemory tuples) (hplain : ∀ t ∈ tuples, t.lease = none)
    (pattern : Pattern) (now : Nat) :
    ∃ s' rest, s.take codec pattern now = (.ok (tuples.find? (·.matches pattern)), s') ∧
      s'.storage = .inMemory rest ∧
      tuples.Perm ((tuples.find? (·.matches pattern)).toList ++ rest) := by
  unfold TupleSpace.take TupleSpace.takeFromStorage
  rw [hs]
  dsimp only
  rw [filter_not_isExpired hplain]
  cases hfind : tuples.find? (·.matches pattern) with
  | none => exact ⟨_, tuples, rfl, rfl, List.Perm.refl _⟩
  | some t => exact ⟨_, _, rfl, rfl, perm_cons_eraseP hfind⟩

theorem takeAll_inMemory {s : TupleSpace} {tuples : List Tuple}
    (hs : s.storage = .inMemory tuples) (hplain : ∀ t ∈ tuples, t.lease = none)
    (pattern : Pattern) (now : Nat) :
    ∃ s', s.takeAll codec pattern now = (.ok (tuples.filter (·.matches pattern)), s') ∧
      s'.storage = .inMemory (tuples.filter (!·.matches pattern)) := by
  unfold TupleSpace.takeAll
  rw [hs]
  dsimp only
  rw [filter_not_isExpired hplain]
  exact ⟨_, rfl, rfl⟩

/-- In memory a step keeps conservation, and tuples stay without leases. -/
theorem step_inMemory {h : History} {tuples : List Tuple}
    (hs : h.space.storage = .inMemory tuples) (hplain : ∀ t ∈ tuples, t.lease = none)
    (hcons : Conserved codec h) (a : SpaceOp × Nat) :
    Conserved codec (step codec h a) ∧
      ∃ tuples', (step codec h a).space.storage = .inMemory tuples' ∧
        ∀ t ∈ tuples', t.lease = none := by
  have hwritten : h.written = h.taken + (tuples : Multiset Tuple) := by
    rw [Conserved, hs] at hcons
    exact hcons
  obtain ⟨op, now⟩ := a
  cases op with
  | write tuple id =>
      obtain ⟨s', hcall, hstore⟩ := write_inMemory codec hs hplain tuple.1 id now
      have hstep : step codec h (.write tuple id, now) =
          { h with space := s', written := h.written + {tuple.1} } := by
        simp only [step, hcall]
      rw [hstep]
      refine ⟨?_, _, hstore, ?_⟩
      · simp only [Conserved, hstore, contents, hwritten]
        rw [← Multiset.coe_add, ← add_assoc, Multiset.coe_singleton]
      · intro t ht
        rcases List.mem_append.mp ht with hold | hnew
        · exact hplain t hold
        · rw [List.mem_singleton.mp hnew]
          exact tuple.2
  | take pattern =>
      obtain ⟨s', rest, hcall, hstore, hperm⟩ := take_inMemory codec hs hplain pattern now
      have hstep : step codec h (.take pattern, now) =
          { h with space := s', taken := h.taken +
            ((tuples.find? (·.matches pattern)).toList : Multiset Tuple) } := by
        simp only [step, hcall]
      rw [hstep]
      refine ⟨?_, _, hstore, ?_⟩
      · simp only [Conserved, hstore, contents, hwritten]
        rw [add_assoc, Multiset.coe_add, Multiset.coe_eq_coe.mpr hperm]
      · intro t ht
        exact hplain t (hperm.mem_iff.mpr (List.mem_append_right _ ht))
  | takeAll pattern =>
      obtain ⟨s', hcall, hstore⟩ := takeAll_inMemory codec hs hplain pattern now
      have hstep : step codec h (.takeAll pattern, now) =
          { h with space := s', taken := h.taken +
            (tuples.filter (·.matches pattern) : List Tuple) } := by
        simp only [step, hcall]
      rw [hstep]
      refine ⟨?_, _, hstore, ?_⟩
      · simp only [Conserved, hstore, contents, hwritten]
        rw [add_assoc, Multiset.coe_add,
          Multiset.coe_eq_coe.mpr (List.filter_append_perm _ tuples).symm]
      · intro t ht
        exact hplain t (List.mem_filter.mp ht).1

/-! ## Over SQL -/

theorem select_isLive {table : TupleTable} (h : ∀ r ∈ table.rows, r.expiresAt = none)
    (now : Nat) : table.select (TupleRow.isLive now) = table.rows := by
  rw [Table.select, List.filter_eq_self]
  intro r hr
  rw [TupleRow.isLive, h r hr]

/-- A storage `take` on a plain table returns the tuples of all matching rows and
deletes these rows. -/
theorem sqlTake_eq {table : TupleTable} (hplain : Plain codec (.external table))
    (pattern : Pattern) (now : Nat) :
    ∃ table', SqlStorage.take codec table pattern now =
        (.ok ((table.rows.filter (SqlStorage.rowMatches codec pattern)).filterMap
          (SqlStorage.rowTuple? codec)), table') ∧
      table'.rows = table.rows.filter fun r => !SqlStorage.rowMatches codec pattern r := by
  obtain ⟨stored, hscan, hids, htuples⟩ :=
    SqlStorage.processRows_of_decodable pattern hplain.1
  have hscan' : SqlStorage.scanTuples codec table pattern now = .ok stored := by
    rw [SqlStorage.scanTuples, select_isLive hplain.2, hscan]
  have hrows := table.rows_deleteKeys_select (SqlStorage.rowMatches codec pattern)
  rw [Table.select, ← hids] at hrows
  unfold SqlStorage.take
  rw [hscan', ← htuples]
  cases stored with
  | nil =>
      refine ⟨table, rfl, ?_⟩
      rw [← hrows]
      simp [Table.deleteKeys]
  | cons first rest => exact ⟨_, rfl, hrows⟩

theorem contents_filter_add (rows : List TupleRow) (p : TupleRow → Bool) :
    ((rows.filterMap (SqlStorage.rowTuple? codec) : List Tuple) : Multiset Tuple) =
      ((rows.filter p).filterMap (SqlStorage.rowTuple? codec) : List Tuple) +
        ((rows.filter fun r => !p r).filterMap (SqlStorage.rowTuple? codec) : List Tuple) := by
  rw [Multiset.coe_add, Multiset.coe_eq_coe, ← List.filterMap_append]
  exact ((List.filter_append_perm p rows).symm).filterMap _

theorem length_filterMap_rowTuple? {rows : List TupleRow}
    (h : SqlStorage.Decodable codec rows) :
    (rows.filterMap (SqlStorage.rowTuple? codec)).length = rows.length := by
  induction rows with
  | nil => rfl
  | cons r rows ih =>
      obtain ⟨tuple, ht⟩ := h r List.mem_cons_self
      have hsome : SqlStorage.rowTuple? codec r = some tuple := by
        rw [SqlStorage.rowTuple?, ht]
      rw [List.filterMap_cons, hsome, List.length_cons, List.length_cons,
        ih fun r' hr' => h r' (List.mem_cons_of_mem r hr')]

/-- The last element is the whole list exactly when there is at most one. -/
theorem getLast?_toList_eq_iff (l : List Tuple) :
    ((l.getLast?.toList : List Tuple) : Multiset Tuple) = (l : Multiset Tuple) ↔
      l.length ≤ 1 := by
  constructor
  · intro h
    have hcard := congrArg Multiset.card h
    rw [Multiset.coe_card, Multiset.coe_card] at hcard
    rw [← hcard]
    exact Option.length_toList_le
  · intro h
    match l, h with
    | [], _ => rfl
    | [t], _ => rfl

theorem take_external {s : TupleSpace} {table : TupleTable}
    (hs : s.storage = .external table) (hplain : Plain codec (.external table))
    (pattern : Pattern) (now : Nat) :
    ∃ s' table', s.take codec pattern now =
        (.ok ((table.rows.filter (SqlStorage.rowMatches codec pattern)).filterMap
          (SqlStorage.rowTuple? codec)).getLast?, s') ∧
      s'.storage = .external table' ∧
      table'.rows = table.rows.filter fun r => !SqlStorage.rowMatches codec pattern r := by
  obtain ⟨table', htake, hrows⟩ := sqlTake_eq codec hplain pattern now
  unfold TupleSpace.take TupleSpace.takeFromStorage
  rw [hs]
  dsimp only
  rw [htake]
  exact ⟨_, table', rfl, rfl, hrows⟩

theorem takeAll_external {s : TupleSpace} {table : TupleTable}
    (hs : s.storage = .external table) (hplain : Plain codec (.external table))
    (pattern : Pattern) (now : Nat) :
    ∃ s' table', s.takeAll codec pattern now =
        (.ok ((table.rows.filter (SqlStorage.rowMatches codec pattern)).filterMap
          (SqlStorage.rowTuple? codec)), s') ∧
      s'.storage = .external table' ∧
      table'.rows = table.rows.filter fun r => !SqlStorage.rowMatches codec pattern r := by
  obtain ⟨table', htake, hrows⟩ := sqlTake_eq codec hplain pattern now
  unfold TupleSpace.takeAll
  rw [hs]
  dsimp only
  rw [htake]
  exact ⟨_, table', rfl, rfl, hrows⟩

/-- A write over SQL is rejected and changes nothing, or appends a row. -/
theorem write_external {s : TupleSpace} {table : TupleTable}
    (hs : s.storage = .external table) (tuple : Tuple) (id : String) (now : Nat) :
    (∃ e s', s.write codec tuple id now = (.error e, s') ∧ s'.storage = .external table ∧
        ∀ data, codec.encode tuple = .ok data → id ∈ table.rows.map (·.id)) ∨
      ∃ data s' table', s.write codec tuple id now = (.ok (), s') ∧
        codec.encode tuple = .ok data ∧ id ∉ table.rows.map (·.id) ∧
        s'.storage = .external table' ∧
        table'.rows = table.rows ++ [SqlStorage.rowFor tuple data id now] := by
  unfold TupleSpace.write TupleSpace.writeToStorage SqlStorage.write
  rw [hs]
  dsimp only
  cases hencode : codec.encode tuple with
  | error e => exact Or.inl ⟨_, _, rfl, rfl, fun _ hdata => nomatch hdata⟩
  | ok data =>
      dsimp only
      cases hinsert : table.insert? (SqlStorage.rowFor tuple data id now) with
      | none =>
          have htaken : id ∈ table.rows.map (·.id) := Table.insert?_eq_none_iff.mp hinsert
          exact Or.inl ⟨_, _, rfl, rfl, fun _ _ => htaken⟩
      | some table' =>
          have hfree : id ∉ table.rows.map (·.id) := by
            intro htaken
            have hnone : table.insert? (SqlStorage.rowFor tuple data id now) = none :=
              Table.insert?_eq_none_iff.mpr htaken
            rw [hnone] at hinsert
            cases hinsert
          exact Or.inr ⟨data, _, table', rfl, rfl, hfree, rfl, Table.rows_of_insert? hinsert⟩

theorem Plain.filter {table table' : TupleTable} (hplain : Plain codec (.external table))
    {p : TupleRow → Bool} (hrows : table'.rows = table.rows.filter p) :
    Plain codec (.external table') := by
  constructor
  · intro r hr
    rw [hrows] at hr
    exact hplain.1 r (List.mem_filter.mp hr).1
  · intro r hr
    rw [hrows] at hr
    exact hplain.2 r (List.mem_filter.mp hr).1

theorem Plain.append {table table' : TupleTable} (hplain : Plain codec (.external table))
    {row : TupleRow} (hrows : table'.rows = table.rows ++ [row])
    (hdecodes : ∃ tuple, codec.decode row.tupleData = .ok tuple) (hlasts : row.expiresAt = none) :
    Plain codec (.external table') := by
  constructor
  · intro r hr
    rw [hrows] at hr
    rcases List.mem_append.mp hr with hold | hnew
    · exact hplain.1 r hold
    · rw [List.mem_singleton.mp hnew]
      exact hdecodes
  · intro r hr
    rw [hrows] at hr
    rcases List.mem_append.mp hr with hold | hnew
    · exact hplain.2 r hold
    · rw [List.mem_singleton.mp hnew]
      exact hlasts

theorem contents_append {table table' : TupleTable} {row : TupleRow}
    (hrows : table'.rows = table.rows ++ [row]) :
    contents codec (.external table') = contents codec (.external table) +
      ((SqlStorage.rowTuple? codec row).toList : List Tuple) := by
  have hsingle : [row].filterMap (SqlStorage.rowTuple? codec) =
      (SqlStorage.rowTuple? codec row).toList := by
    rw [List.filterMap_cons]
    cases SqlStorage.rowTuple? codec row <;> rfl
  simp only [contents, hrows, List.filterMap_append, ← Multiset.coe_add, hsingle]

theorem rowTuple?_rowFor (tuple : Tuple) (data id : String) (now : Nat) :
    SqlStorage.rowTuple? codec (SqlStorage.rowFor tuple data id now) = some tuple ↔
      codec.decode data = .ok tuple := by
  unfold SqlStorage.rowTuple? SqlStorage.rowFor
  dsimp only
  cases codec.decode data with
  | error e => simp
  | ok t => simp

theorem step_write_external {h : History} {table : TupleTable}
    (hs : h.space.storage = .external table) (hplain : Plain codec (.external table))
    (hcons : Conserved codec h) (tuple : PlainTuple) (id : String) (now : Nat) :
    (Conserved codec (step codec h (.write tuple id, now)) ↔
        Keeps codec h (.write tuple id, now)) ∧
      (Keeps codec h (.write tuple id, now) →
        ∃ table', (step codec h (.write tuple id, now)).space.storage = .external table' ∧
          Plain codec (.external table')) := by
  have hkeeps : Keeps codec h (.write tuple id, now) ↔
      ∀ data, codec.encode tuple.1 = .ok data → id ∉ table.rows.map (·.id) →
        codec.decode data = .ok tuple.1 := by
    simp only [Keeps, hs]
  have hwritten : h.written = h.taken + contents codec (.external table) := by
    rw [← hs]
    exact hcons
  rw [hkeeps]
  rcases write_external codec hs tuple.1 id now with
    ⟨e, s', hcall, hstore, htaken⟩ | ⟨data, s', table', hcall, hencode, hfree, hstore, hrows⟩
  · have hstep : step codec h (.write tuple id, now) = { h with space := s' } := by
      simp only [step, hcall]
    rw [hstep]
    refine ⟨iff_of_true ?_ ?_, fun _ => ⟨table, hstore, hplain⟩⟩
    · rw [Conserved, hstore]
      exact hwritten
    · intro data hdata hfree
      exact absurd (htaken data hdata) hfree
  · have hstep : step codec h (.write tuple id, now) =
        { h with space := s', written := h.written + {tuple.1} } := by
      simp only [step, hcall]
    have hcontents := contents_append codec hrows
    have hrow := rowTuple?_rowFor codec tuple.1 data id now
    have hcondition : (∀ data, codec.encode tuple.1 = .ok data →
        id ∉ table.rows.map (·.id) → codec.decode data = .ok tuple.1) ↔
        codec.decode data = .ok tuple.1 := by
      constructor
      · exact fun hall => hall data hencode hfree
      · intro hdecode data' hencode' _
        rw [hencode] at hencode'
        cases hencode'
        exact hdecode
    rw [hstep, hcondition]
    constructor
    · simp only [Conserved, hstore, hcontents, hwritten]
      rw [← add_assoc, add_right_inj, ← hrow]
      -- The new row counts for the written tuple exactly when it decodes to it.
      cases SqlStorage.rowTuple? codec (SqlStorage.rowFor tuple.1 data id now) with
      | none => simp
      | some t => simp [eq_comm]
    · intro hdecode
      exact ⟨table', hstore, hplain.append codec hrows ⟨tuple.1, hdecode⟩
        (by simp only [SqlStorage.rowFor, tuple.2, Option.map_none])⟩

theorem step_take_external {h : History} {table : TupleTable}
    (hs : h.space.storage = .external table) (hplain : Plain codec (.external table))
    (hcons : Conserved codec h) (pattern : Pattern) (now : Nat) :
    (Conserved codec (step codec h (.take pattern, now)) ↔
        Keeps codec h (.take pattern, now)) ∧
      ∃ table', (step codec h (.take pattern, now)).space.storage = .external table' ∧
        Plain codec (.external table') := by
  obtain ⟨s', table', hcall, hstore, hrows⟩ := take_external codec hs hplain pattern now
  have hstep : step codec h (.take pattern, now) = { h with
      space := s', taken := h.taken + ((((table.rows.filter
        (SqlStorage.rowMatches codec pattern)).filterMap
          (SqlStorage.rowTuple? codec)).getLast?.toList : List Tuple) : Multiset Tuple) } := by
    simp only [step, hcall]
  have hwritten : h.written = h.taken + contents codec (.external table) := by
    rw [← hs]
    exact hcons
  have hmatching : SqlStorage.Decodable codec
      (table.rows.filter (SqlStorage.rowMatches codec pattern)) :=
    fun r hr => hplain.1 r (List.mem_filter.mp hr).1
  rw [hstep]
  refine ⟨?_, table', hstore, hplain.filter codec hrows⟩
  simp only [Conserved, Keeps, hs, hstore, contents, hrows, hwritten]
  rw [contents_filter_add codec table.rows (SqlStorage.rowMatches codec pattern),
    add_assoc, add_right_inj, add_left_inj, eq_comm, getLast?_toList_eq_iff,
    length_filterMap_rowTuple? codec hmatching]

theorem step_takeAll_external {h : History} {table : TupleTable}
    (hs : h.space.storage = .external table) (hplain : Plain codec (.external table))
    (hcons : Conserved codec h) (pattern : Pattern) (now : Nat) :
    Conserved codec (step codec h (.takeAll pattern, now)) ∧
      ∃ table', (step codec h (.takeAll pattern, now)).space.storage = .external table' ∧
        Plain codec (.external table') := by
  obtain ⟨s', table', hcall, hstore, hrows⟩ := takeAll_external codec hs hplain pattern now
  have hstep : step codec h (.takeAll pattern, now) = { h with
      space := s', taken := h.taken + ((table.rows.filter
        (SqlStorage.rowMatches codec pattern)).filterMap
          (SqlStorage.rowTuple? codec) : List Tuple) } := by
    simp only [step, hcall]
  have hwritten : h.written = h.taken + contents codec (.external table) := by
    rw [← hs]
    exact hcons
  rw [hstep]
  refine ⟨?_, table', hstore, hplain.filter codec hrows⟩
  simp only [Conserved, hstore, contents, hrows, hwritten]
  rw [contents_filter_add codec table.rows (SqlStorage.rowMatches codec pattern), add_assoc]

/-! ## Runs -/

def Sound (h : History) : Prop := Conserved codec h ∧ Plain codec h.space.storage

theorem conserved_step_iff {h : History} (hsound : Sound codec h) (a : SpaceOp × Nat) :
    (Conserved codec (step codec h a) ↔ Keeps codec h a) ∧
      (Keeps codec h a → Sound codec (step codec h a)) := by
  obtain ⟨hcons, hplain⟩ := hsound
  cases hs : h.space.storage with
  | inMemory tuples =>
      rw [hs] at hplain
      obtain ⟨hcons', tuples', hstore, hplain'⟩ := step_inMemory codec hs hplain hcons a
      have hkeeps : Keeps codec h a := by
        simp only [Keeps, hs]
      refine ⟨iff_of_true hcons' hkeeps, fun _ => ⟨hcons', ?_⟩⟩
      rw [hstore]
      exact hplain'
  | external table =>
      rw [hs] at hplain
      obtain ⟨op, now⟩ := a
      cases op with
      | write tuple id =>
          obtain ⟨hiff, hnext⟩ := step_write_external codec hs hplain hcons tuple id now
          refine ⟨hiff, fun hkeeps => ⟨hiff.mpr hkeeps, ?_⟩⟩
          obtain ⟨table', hstore, hplain'⟩ := hnext hkeeps
          rw [hstore]
          exact hplain'
      | take pattern =>
          obtain ⟨hiff, table', hstore, hplain'⟩ :=
            step_take_external codec hs hplain hcons pattern now
          refine ⟨hiff, fun hkeeps => ⟨hiff.mpr hkeeps, ?_⟩⟩
          rw [hstore]
          exact hplain'
      | takeAll pattern =>
          obtain ⟨hcons', table', hstore, hplain'⟩ :=
            step_takeAll_external codec hs hplain hcons pattern now
          have hkeeps : Keeps codec h (.takeAll pattern, now) := by
            simp only [Keeps, hs]
          refine ⟨iff_of_true hcons' hkeeps, fun _ => ⟨hcons', ?_⟩⟩
          rw [hstore]
          exact hplain'

theorem along_keeps_inMemory (ops : List (SpaceOp × Nat)) :
    Along (step codec) (Keeps codec) (start (.inMemory [])) ops := by
  apply along_of_invariant (I := fun h : History => Conserved codec h ∧
    ∃ tuples, h.space.storage = .inMemory tuples ∧ ∀ t ∈ tuples, t.lease = none)
  · rintro h a ⟨hcons, tuples, hs, hplain⟩
    refine ⟨?_, step_inMemory codec hs hplain hcons a⟩
    simp only [Keeps, hs]
  · exact ⟨rfl, [], rfl, fun t ht => nomatch ht⟩

theorem start_sound {storage : TupleSpaceBackend}
    (h : storage ∈ [.inMemory [], .external Table.empty]) : Sound codec (start storage) := by
  rcases List.mem_cons.mp h with rfl | h
  · exact ⟨rfl, fun t ht => nomatch ht⟩
  · rw [List.mem_singleton.mp h]
    refine ⟨rfl, ?_, ?_⟩
    · intro r hr
      cases hr
    · intro r hr
      cases hr

/-- A `take` that meets a matching tuple, and over SQL only one, removes exactly
the tuple it returns. -/
theorem take_removes_one {h : History} (hsound : Sound codec h) {pattern : Pattern}
    {now : Nat} (hkeeps : Keeps codec h (.take pattern, now)) {t : Tuple}
    (ht : t ∈ contents codec h.space.storage) (hmatch : t.matches pattern = true) :
    ∃ t' s', h.space.take codec pattern now = (.ok (some t'), s') ∧
      t'.matches pattern = true ∧
      contents codec h.space.storage = t' ::ₘ contents codec s'.storage := by
  have hplain := hsound.2
  cases hs : h.space.storage with
  | inMemory tuples =>
      rw [hs] at hplain ht
      obtain ⟨s', rest, hcall, hstore, hperm⟩ := take_inMemory codec hs hplain pattern now
      have hfound : (tuples.find? (·.matches pattern)).isSome = true :=
        List.find?_isSome.mpr ⟨t, ht, hmatch⟩
      obtain ⟨t', ht'⟩ := Option.isSome_iff_exists.mp hfound
      rw [ht'] at hcall hperm
      refine ⟨t', s', hcall, List.find?_some (p := fun u : Tuple => u.matches pattern) ht', ?_⟩
      rw [hstore]
      exact Multiset.coe_eq_coe.mpr hperm
  | external table =>
      rw [hs] at hplain ht
      simp only [Keeps, hs] at hkeeps
      obtain ⟨s', table', hcall, hstore, hrows⟩ := take_external codec hs hplain pattern now
      have hsplit := contents_filter_add codec table.rows (SqlStorage.rowMatches codec pattern)
      obtain ⟨r, hr, hrt⟩ := List.mem_filterMap.mp (Multiset.mem_coe.mp ht)
      have hmem : r ∈ table.rows.filter (SqlStorage.rowMatches codec pattern) := by
        rw [List.mem_filter, SqlStorage.rowMatches, hrt]
        exact ⟨hr, hmatch⟩
      have honly : table.rows.filter (SqlStorage.rowMatches codec pattern) = [r] := by
        obtain ⟨r', hr'⟩ := List.length_eq_one_iff.mp
          (le_antisymm hkeeps (List.length_pos_of_mem hmem))
        rw [hr', List.mem_singleton] at hmem
        rw [hr', hmem]
      have hfound : [r].filterMap (SqlStorage.rowTuple? codec) = [t] := by
        rw [List.filterMap_cons, hrt]
        rfl
      rw [honly, hfound] at hcall hsplit
      refine ⟨t, s', hcall, hmatch, ?_⟩
      rw [hstore]
      simp only [contents, hrows]
      exact hsplit

/-- In memory every run conserves tuples.  Over SQL a run does so in every state
exactly when every written tuple survives its JSON form and every `take` finds at
most one matching row.  In such runs a `take` that meets a matching tuple removes
exactly the one it returns. -/
theorem tuples_conserved (ops : List (SpaceOp × Nat)) :
    Along (step codec) (fun h a => Conserved codec (step codec h a))
        (start (.inMemory [])) ops ∧
      (Along (step codec) (fun h a => Conserved codec (step codec h a))
          (start (.external Table.empty)) ops ↔
        Along (step codec) (Keeps codec) (start (.external Table.empty)) ops) ∧
      ∀ storage ∈ [.inMemory [], .external Table.empty],
        Along (step codec) (Keeps codec) (start storage) ops →
        ∀ (pattern : Pattern) (now : Nat),
          let h := run (step codec) (start storage) ops
          Keeps codec h (.take pattern, now) →
          (∃ t ∈ contents codec h.space.storage, t.matches pattern = true) →
          ∃ t s', h.space.take codec pattern now = (.ok (some t), s') ∧
            t.matches pattern = true ∧
            contents codec h.space.storage = t ::ₘ contents codec s'.storage := by
  have hiff : ∀ storage ∈ [.inMemory [], .external Table.empty],
      (Along (step codec) (fun h a => Conserved codec (step codec h a)) (start storage) ops ↔
        Along (step codec) (Keeps codec) (start storage) ops) := by
    intro storage hstorage
    exact along_congr (I := Sound codec)
      (fun h a hsound => (conserved_step_iff codec hsound a).1)
      (fun h a hsound hcons => (conserved_step_iff codec hsound a).2
        ((conserved_step_iff codec hsound a).1.mp hcons))
      (start_sound codec hstorage) ops
  refine ⟨?_, hiff _ (by simp), ?_⟩
  · rw [hiff _ (by simp)]
    exact along_keeps_inMemory codec ops
  · intro storage hstorage hkeeps pattern now h hone hmatch
    obtain ⟨t, ht, hm⟩ := hmatch
    have hsound : Sound codec h := hkeeps.invariant
      (fun h a hs hk => (conserved_step_iff codec hs a).2 hk) (start_sound codec hstorage)
    exact take_removes_one codec hsound hone ht hm

/-! ## A duplicate tuple over SQL -/

def ticket : PlainTuple := ⟨Tuple.new [.string "ticket"], rfl⟩

def ticketCodec : TupleCodec where
  encode := fun t =>
    if t = ticket.1 then
      .ok "\x7b\"fields\":[\x7b\"String\":\"ticket\"\x7d],\"lease\":null,\"metadata\":\x7b\x7d\x7d"
    else .error "not a ticket"
  decode := fun _ => .ok ticket.1

/-- Two equal tuples are written and one `take` consumes both. -/
theorem not_tuples_conserved :
    ¬ ∀ (codec : TupleCodec) (ops : List (SpaceOp × Nat)),
      (∀ t id now, (SpaceOp.write t id, now) ∈ ops →
        ∃ data, codec.encode t.1 = .ok data ∧ codec.decode data = .ok t.1) →
      Conserved codec (run (step codec) (start (.external Table.empty)) ops) := by
  intro hclaim
  have hcons := hclaim ticketCodec
    [(.write ticket "row-1", 1), (.write ticket "row-2", 2), (.take ⟨[.wildcard]⟩, 3)]
    (by
      intro t id now hmem
      have ht : t = ticket := by
        simp only [List.mem_cons, Prod.mk.injEq, SpaceOp.write.injEq, List.not_mem_nil,
          or_false, reduceCtorEq, false_and] at hmem
        rcases hmem with ⟨⟨ht, -⟩, -⟩ | ⟨⟨ht, -⟩, -⟩
        · exact ht
        · exact ht
      rw [ht]
      exact ⟨_, rfl, rfl⟩)
  have hcard := congrArg Multiset.card hcons
  revert hcard
  decide

end History

end PlexSpaces.Tuples
