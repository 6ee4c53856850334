import PlexSpaces.Journaling.Sqlite
/-!
# Sequence numbers of the SQLite journal storage

A counter that is ahead of the numbers stored under its key gives out numbers that the table
does not refuse.  An entry with a number of its own sets the counter after it, even when larger
numbers are stored, and an event with a number of its own leaves the counter behind
(`not_gives_fresh_numbers`).  In a run without such records every number given out is new
(`gives_fresh_numbers`), also when insertions fail, since the counters never fall behind the
tables (`Fresh`).
-/

namespace PlexSpaces.Journaling

open PlexSpaces.Lib

namespace Numbered

/-- The number is greater than all that are stored, and no row under such a number is refused. -/
def Good : Numbered → Prop
  | .assigned number stored => ∀ s ∈ stored, s.toInt < number.toNat
  | .refused => False

end Numbered

theorem toInt_toInt64_le (n : UInt64) : n.toInt64.toInt ≤ n.toNat := by
  have heq : n.toInt64.toInt = n.toBitVec.toInt := rfl
  rw [heq, BitVec.toInt_eq_toNat_cond]
  split_ifs
  · exact le_rfl
  · have hnat : n.toBitVec.toNat = n.toNat := rfl
    omega

theorem toInt_add_one {m : Int64} (h : m.toInt + 1 < 2 ^ 63) : (m + 1).toInt = m.toInt + 1 := by
  have hle := Int64.le_toInt m
  rw [Int64.toInt_add, Int64.toInt_one, Int.bmod_eq_of_le]
  · omega
  · omega

namespace Rows

variable {P : Type} {t : Rows P}

theorem mem_numbers {actorId : String} {s : Int64} :
    s ∈ t.numbers actorId ↔ ∃ r ∈ t.rows, r.actorId = actorId ∧ r.sequence = s := by
  simp [numbers, Table.select, and_assoc]

theorem le_maxSequence {actorId : String} {s : Int64} (h : s ∈ t.numbers actorId) :
    s.toInt ≤ (t.maxSequence actorId).toInt := by
  have hmem : s.toInt ∈ (t.numbers actorId).map Int64.toInt := List.mem_map_of_mem h
  obtain ⟨m, hm⟩ := Option.isSome_iff_exists.mp (List.isSome_max?_of_mem hmem)
  obtain ⟨hin, hle⟩ := List.max?_eq_some_iff.mp hm
  obtain ⟨s', -, hs'⟩ := List.mem_map.mp hin
  have hmax : (t.maxSequence actorId).toInt = m := by
    rw [maxSequence, hm, Option.getD_some, ← hs', Int64.ofInt_toInt]
  rw [hmax]
  exact hle _ hmem

theorem rows_of_insert {t' : Rows P} {e : Record P} {number : UInt64}
    (h : t.insert e number = .ok t') :
    t'.rows = t.rows ++ [⟨e.id, e.actorId, number.toInt64, e.payload⟩] := by
  unfold insert at h
  split at h
  · cases h
  · rename_i hinsert
    split at h
    · cases h
    · cases h
      exact Table.rows_of_insert? hinsert

theorem mem_numbers_of_insert {e : Record P} {number : UInt64}
    (h : t.insert e number = .error .sequence) : number.toInt64 ∈ t.numbers e.actorId := by
  unfold insert at h
  split at h
  · rename_i hinsert
    obtain ⟨r, hr, hkey⟩ := List.mem_map.mp (Table.insert?_eq_none_iff.mp hinsert)
    exact mem_numbers.mpr ⟨r, hr, congrArg Prod.fst hkey, congrArg Prod.snd hkey⟩
  · split at h <;> cases h

/-- A row is not refused for a number that is not stored for its actor. -/
theorem refusals_eq_nil {e : Record P} {number : UInt64} {taken : Taken}
    (hinsert : t.insert e number = .error taken)
    (h : e.sequence = 0 → number.toInt64 ∉ t.numbers e.actorId) : refusals e taken = [] := by
  unfold refusals
  split_ifs with hcond
  · obtain ⟨hzero, rfl⟩ := hcond
    exact absurd (mem_numbers_of_insert hinsert) (h hzero)
  · rfl

end Rows

namespace SqliteJournalStorage

variable {E V : Type} {st : SqliteJournalStorage E V} {k : String}

/-- The numbers stored for the actors whose counter has this key. -/
def stored (st : SqliteJournalStorage E V) (k : String) : List Int64 :=
  st.journalEntries.numbers k ++
    (st.actorEvents.select fun r => eventsKey r.actorId = k).map Row.sequence

/-- The counter under the key, if there is one, is after the number. -/
def Below (st : SqliteJournalStorage E V) (k : String) (s : Int64) : Prop :=
  ∀ current, st.sequences.lookup k = some current → s < current.toInt64

def Fresh (st : SqliteJournalStorage E V) : Prop := ∀ k, ∀ s ∈ st.stored k, st.Below k s

/-- Numbers are left under the key, and a counter that has to be read from the table does not
start behind numbers of the other table under the same key. -/
def CanNumber (st : SqliteJournalStorage E V) (k : String) (maxSeq : Int64) : Prop :=
  match st.sequences.lookup k with
  | some current => current.toInt64.toInt + 1 < 2 ^ 63
  | none => maxSeq.toInt + 2 < 2 ^ 63 ∧ ∀ s ∈ st.stored k, s.toInt ≤ maxSeq.toInt + 1

/-- A number that comes with an entry is not below those stored for the actor. -/
def EntryOrderly (st : SqliteJournalStorage E V) (e : Record E) : Prop :=
  if e.sequence = 0 then st.CanNumber e.actorId (st.journalEntries.maxSequence e.actorId)
  else e.sequence.toInt64.toInt + 1 < 2 ^ 63 ∧
    ∀ s ∈ st.stored e.actorId, s ≤ e.sequence.toInt64

/-- A number that comes with an event is below the actor's counter.  Where the batch has to read
the counter from the table, the events before this one have no larger number. -/
def EventOrderly (w : Prepared E V) (e : Record V) : Prop :=
  if e.sequence = 0 then
    w.storage.CanNumber (eventsKey e.actorId) (w.storage.actorEvents.maxSequence e.actorId) ∧
      (w.storage.sequences.lookup (eventsKey e.actorId) = none → ∀ p ∈ w.prepared,
        p.1.actorId = e.actorId → p.2.toInt64 ≤ w.storage.actorEvents.maxSequence e.actorId)
  else w.storage.Below (eventsKey e.actorId) e.sequence.toInt64

/-- An entry of a batch whose counter would have to be read from the table ends the batch. -/
def BatchOrderly (b : Batch E V) (e : Record E) : Prop :=
  b.failed = none → (e.sequence = 0 ∧ b.storage.sequences.lookup e.actorId = none) ∨
    b.storage.EntryOrderly e

instance (st : SqliteJournalStorage E V) (k : String) (s : Int64) :
    Decidable (st.Below k s) :=
  match h : st.sequences.lookup k with
  | none => .isTrue fun current hcurrent => by
      rw [h] at hcurrent
      cases hcurrent
  | some c => decidable_of_iff (s < c.toInt64) <| by
      constructor
      · intro hlt current hcurrent
        rw [h] at hcurrent
        cases hcurrent
        exact hlt
      · intro hbelow
        exact hbelow c h

instance (st : SqliteJournalStorage E V) (k : String) (maxSeq : Int64) :
    Decidable (st.CanNumber k maxSeq) :=
  match h : st.sequences.lookup k with
  | some current =>
      decidable_of_iff (current.toInt64.toInt + 1 < 2 ^ 63) (by rw [CanNumber, h])
  | none =>
      -- over the stored numbers, not over all 64-bit integers
      have := List.decidableBAll (fun s : Int64 => s.toInt ≤ maxSeq.toInt + 1) (st.stored k)
      decidable_of_iff
        (maxSeq.toInt + 2 < 2 ^ 63 ∧ ∀ s ∈ st.stored k, s.toInt ≤ maxSeq.toInt + 1)
        (by rw [CanNumber, h])

instance (st : SqliteJournalStorage E V) (e : Record E) : Decidable (st.EntryOrderly e) :=
  have := List.decidableBAll (fun s => s ≤ e.sequence.toInt64) (st.stored e.actorId)
  inferInstanceAs (Decidable (ite (e.sequence = 0) (st.CanNumber _ _)
    (_ ∧ ∀ s ∈ st.stored e.actorId, s ≤ e.sequence.toInt64)))

instance (w : Prepared E V) (e : Record V) : Decidable (EventOrderly w e) :=
  inferInstanceAs (Decidable (ite (e.sequence = 0)
    (w.storage.CanNumber _ _ ∧ (_ = none → ∀ p ∈ w.prepared, _ → _)) (w.storage.Below _ _)))

instance (b : Batch E V) (e : Record E) : Decidable (BatchOrderly b e) :=
  inferInstanceAs (Decidable (b.failed = none → _ ∨ b.storage.EntryOrderly e))

inductive Call (E V : Type)
  | appendEntry (e : Record E)
  | appendBatch (es : List (Record E))
  | appendEvent (e : Record V)
  | appendEventsBatch (es : List (Record V))
  | truncateTo (actorId : String) (sequence : UInt64)
  | purgeActor (actorId : String)

def call (st : SqliteJournalStorage E V) : Call E V → SqliteJournalStorage E V
  | .appendEntry e => (st.appendEntry e).2.1
  | .appendBatch es => (st.appendBatch es).2.1
  | .appendEvent e => (st.appendEvent e).2.1
  | .appendEventsBatch es => (st.appendEventsBatch es).2.1
  | .truncateTo actorId sequence => (st.truncateTo actorId sequence).2
  | .purgeActor actorId => (st.purgeActor actorId).2

def trace (st : SqliteJournalStorage E V) : Call E V → List Numbered
  | .appendEntry e => (st.appendEntry e).2.2
  | .appendBatch es => (st.appendBatch es).2.2
  | .appendEvent e => (st.appendEvent e).2.2
  | .appendEventsBatch es => (st.appendEventsBatch es).2.2
  | .truncateTo _ _ | .purgeActor _ => []

/-- The numbers that come with the records of a call keep the counters ahead. -/
def Orderly (st : SqliteJournalStorage E V) : Call E V → Prop
  | .appendEntry e => st.EntryOrderly e
  | .appendBatch es => Along Batch.insertEntry BatchOrderly ⟨st, [], none, []⟩ es
  | .appendEvent e => EventOrderly ⟨st, [], []⟩ e
  | .appendEventsBatch es => Along Prepared.push EventOrderly ⟨st, [], []⟩ es
  | .truncateTo _ _ | .purgeActor _ => True

/-- All numbers that the call gives out are new. -/
def GivesFresh (st : SqliteJournalStorage E V) (c : Call E V) : Prop :=
  ∀ o ∈ st.trace c, o.Good

instance (st : SqliteJournalStorage E V) : ∀ c : Call E V, Decidable (st.Orderly c)
  | .appendEntry e => inferInstanceAs (Decidable (st.EntryOrderly e))
  | .appendBatch es =>
      inferInstanceAs (Decidable (Along Batch.insertEntry BatchOrderly ⟨st, [], none, []⟩ es))
  | .appendEvent e => inferInstanceAs (Decidable (EventOrderly ⟨st, [], []⟩ e))
  | .appendEventsBatch es =>
      inferInstanceAs (Decidable (Along Prepared.push EventOrderly ⟨st, [], []⟩ es))
  | .truncateTo _ _ | .purgeActor _ => inferInstanceAs (Decidable True)

section Counter

theorem mem_stored {s : Int64} : s ∈ st.stored k ↔
    (∃ r ∈ st.journalEntries.rows, r.actorId = k ∧ r.sequence = s) ∨
      ∃ r ∈ st.actorEvents.rows, eventsKey r.actorId = k ∧ r.sequence = s := by
  simp [stored, Rows.numbers, Table.select, and_assoc]

theorem Fresh.mono {st' : SqliteJournalStorage E V} (h : st.Fresh)
    (hstored : ∀ k, ∀ s ∈ st'.stored k, s ∈ st.stored k)
    (hcounter : ∀ k c, st'.sequences.lookup k = some c → st.sequences.lookup k = some c) :
    st'.Fresh :=
  fun k s hs current hcurrent => h k s (hstored k s hs) current (hcounter k current hcurrent)

theorem toInt_succ {n : UInt64} (h : n.toInt64.toInt + 1 < 2 ^ 63) :
    (n + 1).toInt64.toInt = n.toInt64.toInt + 1 := by
  rw [UInt64.toInt64_add]
  exact toInt_add_one h

/-- A counter that is set after a number is after all that are not larger. -/
theorem below_setCounter {k' : String} {s : Int64} {n : UInt64}
    (hroom : n.toInt64.toInt + 1 < 2 ^ 63) (hle : k' = k → s.toInt ≤ n.toInt64.toInt)
    (h : k' ≠ k → st.Below k' s) :
    Below { st with sequences := st.sequences.insert k (n + 1) } k' s := by
  intro current hcurrent
  rw [Assoc.lookup_insert] at hcurrent
  split_ifs at hcurrent with hk
  · cases hcurrent
    have hn := hle hk
    rw [Int64.lt_iff_toInt_lt, toInt_succ hroom]
    omega
  · exact h hk current hcurrent

theorem below_setCounter_self {n : UInt64} (hroom : n.toInt64.toInt + 1 < 2 ^ 63) :
    Below { st with sequences := st.sequences.insert k (n + 1) } k n.toInt64 :=
  below_setCounter hroom (fun _ => le_rfl) fun hk => absurd rfl hk

theorem Fresh.setCounter (h : st.Fresh) {n : UInt64} (hroom : n.toInt64.toInt + 1 < 2 ^ 63)
    (hle : ∀ s ∈ st.stored k, s.toInt ≤ n.toInt64.toInt) :
    Fresh { st with sequences := st.sequences.insert k (n + 1) } := by
  intro k' s hs
  refine below_setCounter hroom ?_ fun _ => h k' s hs
  rintro rfl
  exact hle s hs

/-- What `next_sequence` and `next_event_sequence` do with the counter of a key. -/
theorem nextNumber_spec (h : st.Fresh) {own : List Int64} {maxSeq : Int64}
    (hown : ∀ s ∈ own, s ∈ st.stored k ∧ s.toInt ≤ maxSeq.toInt) (hcan : st.CanNumber k maxSeq) :
    ∃ n, nextNumber st.sequences k maxSeq = (n, st.sequences.insert k (n + 1)) ∧
      n.toInt64.toInt + 1 < 2 ^ 63 ∧ (∀ s ∈ st.stored k, s.toInt ≤ n.toInt64.toInt) ∧
      (∀ s ∈ own, s < n.toInt64) ∧
      (st.sequences.lookup k = some n ∨
        st.sequences.lookup k = none ∧ n.toInt64.toInt = maxSeq.toInt + 1) := by
  unfold nextNumber
  unfold CanNumber at hcan
  cases hlookup : st.sequences.lookup k with
  | some current =>
      rw [hlookup] at hcan
      refine ⟨current, rfl, hcan, ?_, ?_, .inl rfl⟩
      · intro s hs
        exact (Int64.lt_iff_toInt_lt.mp (h k s hs current hlookup)).le
      · intro s hs
        exact h k s (hown s hs).1 current hlookup
  | none =>
      rw [hlookup] at hcan
      obtain ⟨hroom, hle⟩ := hcan
      have hnext : (maxSeq + 1).toUInt64.toInt64.toInt = maxSeq.toInt + 1 :=
        toInt_add_one (by omega)
      refine ⟨(maxSeq + 1).toUInt64, rfl, ?_, ?_, ?_, .inr ⟨rfl, hnext⟩⟩
      · rw [hnext]
        omega
      · intro s hs
        rw [hnext]
        exact hle s hs
      · intro s hs
        rw [Int64.lt_iff_toInt_lt, hnext]
        have := (hown s hs).2
        omega

theorem good_of_lt {own : List Int64} {n : UInt64} (h : ∀ s ∈ own, s < n.toInt64) :
    (Numbered.assigned n own).Good := by
  intro s hs
  exact (Int64.lt_iff_toInt_lt.mp (h s hs)).trans_le (toInt_toInt64_le n)

end Counter

section Entries

/-- The number of an entry, and the storage with its counter set after the number. -/
theorem numberEntry_spec (h : st.Fresh) {e : Record E} (he : st.EntryOrderly e) :
    ∃ n trace, st.numberEntry e =
        (n, { st with sequences := st.sequences.insert e.actorId (n + 1) }, trace) ∧
      Fresh { st with sequences := st.sequences.insert e.actorId (n + 1) } ∧
      n.toInt64.toInt + 1 < 2 ^ 63 ∧ (∀ o ∈ trace, o.Good) ∧
      (e.sequence = 0 → n.toInt64 ∉ st.journalEntries.numbers e.actorId) := by
  unfold EntryOrderly at he
  unfold numberEntry
  by_cases hzero : e.sequence = 0
  · rw [if_pos hzero] at he ⊢
    have hown : ∀ s ∈ st.journalEntries.numbers e.actorId, s ∈ st.stored e.actorId ∧
        s.toInt ≤ (st.journalEntries.maxSequence e.actorId).toInt := by
      intro s hs
      exact ⟨List.mem_append_left _ hs, Rows.le_maxSequence hs⟩
    obtain ⟨n, hnext, hroom, hle, hlt, -⟩ := nextNumber_spec h hown he
    simp only [nextSequence, hnext]
    refine ⟨n, _, rfl, h.setCounter hroom hle, hroom, ?_, ?_⟩
    · intro o ho
      rw [List.mem_singleton.mp ho]
      exact good_of_lt hlt
    · intro _ hmem
      have := Int64.lt_iff_toInt_lt.mp (hlt _ hmem)
      omega
  · rw [if_neg hzero] at he ⊢
    refine ⟨e.sequence, [], rfl, h.setCounter he.1 ?_, he.1, ?_, ?_⟩
    · intro s hs
      exact Int64.le_iff_toInt_le.mp (he.2 s hs)
    · intro o ho
      cases ho
    · intro hzero'
      exact absurd hzero' hzero

/-- A row under a number that the counter is after keeps the counters ahead. -/
theorem Fresh.insertEntry (h : st.Fresh) {e : Record E} {n : UInt64} {t : Rows E}
    (hbelow : st.Below e.actorId n.toInt64) (hinsert : st.journalEntries.insert e n = .ok t) :
    Fresh { st with journalEntries := t } := by
  intro k s hstored
  rcases mem_stored.mp hstored with ⟨r, hr, hk, hs⟩ | hs
  · rw [Rows.rows_of_insert hinsert, List.mem_append, List.mem_singleton] at hr
    rcases hr with hr | rfl
    · exact h k s (mem_stored.mpr (.inl ⟨r, hr, hk, hs⟩))
    · subst hk hs
      exact hbelow
  · exact h k s (mem_stored.mpr (.inr hs))

theorem appendEntry_fresh (h : st.Fresh) {e : Record E} (he : st.EntryOrderly e) :
    Fresh (st.appendEntry e).2.1 ∧ ∀ o ∈ (st.appendEntry e).2.2, o.Good := by
  obtain ⟨n, trace, hnumber, hfresh, hroom, htrace, hnew⟩ := numberEntry_spec h he
  unfold appendEntry
  simp only [hnumber]
  split
  · rename_i taken hinsert
    rw [Rows.refusals_eq_nil hinsert hnew, List.append_nil]
    exact ⟨hfresh, htrace⟩
  · rename_i t hinsert
    exact ⟨hfresh.insertEntry (below_setCounter_self hroom) hinsert, htrace⟩

/-- The counters of a batch are ahead of the rows that its transaction sees, which are at least
those of the storage. -/
structure BatchFresh (st : SqliteJournalStorage E V) (b : Batch E V) : Prop where
  fresh : b.storage.Fresh
  stored : ∀ k, ∀ s ∈ st.stored k, s ∈ b.storage.stored k
  good : ∀ o ∈ b.trace, o.Good

theorem batchFresh_insertEntry {b : Batch E V} (h : st.BatchFresh b) {e : Record E}
    (he : BatchOrderly b e) : st.BatchFresh (b.insertEntry e) := by
  unfold Batch.insertEntry
  split_ifs with hfailed hmiss
  · exact h
  · exact ⟨h.fresh, h.stored, h.good⟩
  have horderly := (he (by simpa using hfailed)).resolve_left hmiss
  obtain ⟨n, trace, hnumber, hfresh, hroom, htrace, hnew⟩ := numberEntry_spec h.fresh horderly
  have hgood : ∀ o ∈ b.trace ++ trace, o.Good := by
    intro o ho
    exact (List.mem_append.mp ho).elim (h.good o) (htrace o)
  simp only [hnumber]
  split
  · rename_i taken hinsert
    rw [Rows.refusals_eq_nil hinsert hnew, List.append_nil]
    exact ⟨hfresh, h.stored, hgood⟩
  · rename_i t hinsert
    refine ⟨hfresh.insertEntry (below_setCounter_self hroom) hinsert, ?_, hgood⟩
    intro k s hs
    rcases mem_stored.mp (h.stored k s hs) with ⟨r, hr, hkey⟩ | hs
    · refine mem_stored.mpr (.inl ⟨r, ?_, hkey⟩)
      rw [Rows.rows_of_insert hinsert]
      exact List.mem_append_left _ hr
    · exact mem_stored.mpr (.inr hs)

theorem appendBatch_fresh (h : st.Fresh) {es : List (Record E)}
    (hes : Along Batch.insertEntry BatchOrderly ⟨st, [], none, []⟩ es) :
    Fresh (st.appendBatch es).2.1 ∧ ∀ o ∈ (st.appendBatch es).2.2, o.Good := by
  have hstart : st.BatchFresh ⟨st, [], none, []⟩ := by
    refine ⟨h, fun k s hs => hs, ?_⟩
    intro o ho
    cases ho
  have hbatch := hes.invariant (fun b e hb he => batchFresh_insertEntry hb he) hstart
  unfold appendBatch
  simp only
  split
  · refine ⟨?_, hbatch.good⟩
    intro k s hs
    exact hbatch.fresh k s (hbatch.stored k s hs)
  · exact ⟨hbatch.fresh, hbatch.good⟩

end Entries

section Events

theorem eventsKey_inj {a b : String} : eventsKey a = eventsKey b ↔ a = b :=
  String.append_left_inj _

/-- The prepared events do not change the tables, and the counters are ahead of their numbers
as well.  The number of an event that came without one is greater than those before it. -/
structure PreparedFresh (tables : Tables E V) (w : Prepared E V) : Prop where
  tables_eq : w.storage.toTables = tables
  fresh : w.storage.Fresh
  good : ∀ o ∈ w.trace, o.Good
  below : ∀ p ∈ w.prepared, w.storage.Below (eventsKey p.1.actorId) p.2.toInt64
  stored : ∀ p ∈ w.prepared, p.1.sequence = 0 →
    ∀ s ∈ tables.actorEvents.numbers p.1.actorId, s < p.2.toInt64
  sorted : w.prepared.Pairwise fun p q =>
    q.1.sequence = 0 → p.1.actorId = q.1.actorId → p.2.toInt64 < q.2.toInt64

/-- The number of an event.  Where it is given out, it is after the stored and the prepared numbers
of the actor. -/
theorem numberEvent_spec {tables : Tables E V} {w : Prepared E V} (h : PreparedFresh tables w)
    {e : Record V} (he : EventOrderly w e) :
    ∃ n st' trace, w.storage.numberEvent e = (n, st', trace) ∧ st'.toTables = tables ∧
      st'.Fresh ∧ (∀ o ∈ trace, o.Good) ∧
      (∀ p ∈ w.prepared ++ [(e, n)], st'.Below (eventsKey p.1.actorId) p.2.toInt64) ∧
      (e.sequence = 0 → (∀ s ∈ tables.actorEvents.numbers e.actorId, s < n.toInt64) ∧
        ∀ p ∈ w.prepared, p.1.actorId = e.actorId → p.2.toInt64 < n.toInt64) := by
  unfold EventOrderly at he
  unfold numberEvent
  by_cases hzero : e.sequence = 0
  · rw [if_pos hzero] at he ⊢
    obtain ⟨hcan, hprepared⟩ := he
    have hown : ∀ s ∈ w.storage.actorEvents.numbers e.actorId,
        s ∈ w.storage.stored (eventsKey e.actorId) ∧
          s.toInt ≤ (w.storage.actorEvents.maxSequence e.actorId).toInt := by
      intro s hs
      obtain ⟨r, hr, hactor, hsequence⟩ := Rows.mem_numbers.mp hs
      exact ⟨mem_stored.mpr (.inr ⟨r, hr, congrArg eventsKey hactor, hsequence⟩),
        Rows.le_maxSequence hs⟩
    obtain ⟨n, hnext, hroom, hle, hlt, hlookup⟩ := nextNumber_spec h.fresh hown hcan
    have hafter : ∀ p ∈ w.prepared, p.1.actorId = e.actorId → p.2.toInt64 < n.toInt64 := by
      intro p hp hactor
      rcases hlookup with hsome | ⟨hnone, hvalue⟩
      · exact h.below p hp n (by rw [hactor]; exact hsome)
      · have := Int64.le_iff_toInt_le.mp (hprepared hnone p hp hactor)
        rw [Int64.lt_iff_toInt_lt]
        omega
    simp only [nextEventSequence, hnext]
    refine ⟨n, _, _, rfl, h.tables_eq, h.fresh.setCounter hroom hle, ?_, ?_, ?_⟩
    · exact List.forall_mem_singleton.mpr (good_of_lt hlt)
    · refine List.forall_mem_append.mpr
        ⟨?_, List.forall_mem_singleton.mpr (below_setCounter_self hroom)⟩
      intro p hp
      refine below_setCounter hroom (fun hk => ?_) fun _ => h.below p hp
      exact (Int64.lt_iff_toInt_lt.mp (hafter p hp (eventsKey_inj.mp hk))).le
    · rw [← h.tables_eq]
      exact fun _ => ⟨hlt, hafter⟩
  · rw [if_neg hzero] at he ⊢
    refine ⟨e.sequence, w.storage, [], rfl, h.tables_eq, h.fresh, ?_, ?_, ?_⟩
    · intro o ho
      cases ho
    · exact List.forall_mem_append.mpr ⟨h.below, List.forall_mem_singleton.mpr he⟩
    · exact fun hauto => absurd hauto hzero

theorem preparedFresh_push {tables : Tables E V} {w : Prepared E V} (h : PreparedFresh tables w)
    {e : Record V} (he : EventOrderly w e) : PreparedFresh tables (w.push e) := by
  obtain ⟨n, st', trace, hnumber, htables, hfresh, hgood, hbelow, hauto⟩ := numberEvent_spec h he
  have hpush : w.push e = ⟨st', w.prepared ++ [(e, n)], w.trace ++ trace⟩ := by
    rw [Prepared.push, hnumber]
  rw [hpush]
  refine ⟨htables, hfresh, ?_, hbelow, ?_, ?_⟩
  · exact List.forall_mem_append.mpr ⟨h.good, hgood⟩
  · exact List.forall_mem_append.mpr
      ⟨h.stored, List.forall_mem_singleton.mpr fun hzero => (hauto hzero).1⟩
  · refine List.pairwise_append.mpr ⟨h.sorted, List.pairwise_singleton _ _, ?_⟩
    intro p hp q hq hzero hactor
    cases List.mem_singleton.mp hq
    exact (hauto hzero).2 p hp hactor

theorem preparedFresh_start (h : st.Fresh) : PreparedFresh st.toTables ⟨st, [], []⟩ where
  tables_eq := rfl
  fresh := h
  good := by
    intro o ho
    cases ho
  below := by
    intro p hp
    cases hp
  stored := by
    intro p hp
    cases hp
  sorted := List.Pairwise.nil

/-- The transaction refuses no number that was given out, and inserts only what is prepared. -/
theorem insertEvents_spec {t : Rows V} {ps : List (Record V × UInt64)}
    (hstored : ∀ p ∈ ps, p.1.sequence = 0 → ∀ s ∈ t.numbers p.1.actorId, s < p.2.toInt64)
    (hsorted : ps.Pairwise fun p q =>
      q.1.sequence = 0 → p.1.actorId = q.1.actorId → p.2.toInt64 < q.2.toInt64) :
    (insertEvents t ps).2 = [] ∧ ∀ t', (insertEvents t ps).1 = .ok t' → ∀ r ∈ t'.rows,
      r ∈ t.rows ∨ ∃ p ∈ ps, r.actorId = p.1.actorId ∧ r.sequence = p.2.toInt64 := by
  induction ps generalizing t with
  | nil =>
      refine ⟨rfl, ?_⟩
      rintro t' ⟨⟩ r hr
      exact .inl hr
  | cons p ps ih =>
      obtain ⟨e, n⟩ := p
      obtain ⟨hhead, htail⟩ := List.pairwise_cons.mp hsorted
      rw [insertEvents]
      split
      · rename_i taken hinsert
        refine ⟨Rows.refusals_eq_nil hinsert ?_, ?_⟩
        · intro hauto hmem
          have hlt := hstored _ List.mem_cons_self hauto _ hmem
          exact absurd (Int64.lt_iff_toInt_lt.mp hlt) (lt_irrefl _)
        · intro t' ht'
          cases ht'
      · rename_i t₁ hinsert
        have hrows := Rows.rows_of_insert hinsert
        have hstored₁ : ∀ p ∈ ps, p.1.sequence = 0 →
            ∀ s ∈ t₁.numbers p.1.actorId, s < p.2.toInt64 := by
          intro p hp hauto s hs
          obtain ⟨r, hr, hactor, hsequence⟩ := Rows.mem_numbers.mp hs
          rw [hrows, List.mem_append, List.mem_singleton] at hr
          rcases hr with hr | rfl
          · exact hstored p (List.mem_cons_of_mem _ hp) hauto s
              (Rows.mem_numbers.mpr ⟨r, hr, hactor, hsequence⟩)
          · rw [← hsequence]
            exact hhead p hp hauto hactor
        obtain ⟨htrace, hout⟩ := ih hstored₁ htail
        refine ⟨htrace, ?_⟩
        intro t' ht' r hr
        rcases hout t' ht' r hr with hr | ⟨p, hp, hkey⟩
        · rw [hrows, List.mem_append, List.mem_singleton] at hr
          rcases hr with hr | rfl
          · exact .inl hr
          · exact .inr ⟨(e, n), List.mem_cons_self, rfl, rfl⟩
        · exact .inr ⟨p, List.mem_cons_of_mem _ hp, hkey⟩

theorem PreparedFresh.insertEvents {w : Prepared E V} (h : PreparedFresh st.toTables w)
    {t : Rows V} (ht : ∀ r ∈ t.rows, r ∈ w.storage.actorEvents.rows ∨
      ∃ p ∈ w.prepared, r.actorId = p.1.actorId ∧ r.sequence = p.2.toInt64) :
    Fresh { w.storage with actorEvents := t } := by
  intro k s hstored
  rcases mem_stored.mp hstored with hs | ⟨r, hr, hk, hs⟩
  · exact h.fresh k s (mem_stored.mpr (.inl hs))
  · rcases ht r hr with hr | ⟨p, hp, hactor, hsequence⟩
    · exact h.fresh k s (mem_stored.mpr (.inr ⟨r, hr, hk, hs⟩))
    · rw [← hk, ← hs, hactor, hsequence]
      exact h.below p hp

theorem appendEventsBatch_fresh (h : st.Fresh) {es : List (Record V)}
    (hes : Along Prepared.push EventOrderly ⟨st, [], []⟩ es) :
    Fresh (st.appendEventsBatch es).2.1 ∧ ∀ o ∈ (st.appendEventsBatch es).2.2, o.Good := by
  have hw := hes.invariant (fun w e hw he => preparedFresh_push hw he) (preparedFresh_start h)
  have hstored := hw.stored
  rw [← hw.tables_eq] at hstored
  obtain ⟨htrace, hrows⟩ := insertEvents_spec hstored hw.sorted
  unfold appendEventsBatch
  simp only
  generalize run Prepared.push ⟨st, [], []⟩ es = w at hw htrace hrows
  rcases hinsert : insertEvents w.storage.actorEvents w.prepared with ⟨_ | t, trace⟩
  all_goals
    rw [hinsert] at htrace hrows
    subst htrace
    simp only [List.append_nil]
  · exact ⟨hw.fresh, hw.good⟩
  · exact ⟨hw.insertEvents (hrows t rfl), hw.good⟩

theorem appendEvent_eq (st : SqliteJournalStorage E V) (e : Record V) :
    (st.appendEvent e).2 = (st.appendEventsBatch [e]).2 := by
  unfold appendEvent appendEventsBatch
  simp only [run_cons, run_nil, Prepared.push, List.nil_append, insertEvents]
  split <;> simp_all

end Events

/-- A call with orderly numbers keeps the counters ahead of the tables. -/
theorem fresh_call (h : st.Fresh) (c : Call E V) (hc : st.Orderly c) :
    (st.call c).Fresh ∧ st.GivesFresh c := by
  cases c with
  | appendEntry e => exact appendEntry_fresh h hc
  | appendBatch es => exact appendBatch_fresh h hc
  | appendEvent e =>
      have hes : Along Prepared.push EventOrderly ⟨st, [], []⟩ [e] := ⟨hc, trivial⟩
      have hbatch := appendEventsBatch_fresh h hes
      rw [← appendEvent_eq] at hbatch
      exact hbatch
  | appendEventsBatch es => exact appendEventsBatch_fresh h hc
  | truncateTo actorId sequence =>
      refine ⟨h.mono ?_ fun k c hcounter => hcounter, ?_⟩
      · intro k s hs
        rcases mem_stored.mp hs with ⟨r, hr, hkey⟩ | hs
        · exact mem_stored.mpr (.inl ⟨r, (List.mem_filter.mp hr).1, hkey⟩)
        · exact mem_stored.mpr (.inr hs)
      · intro o ho
        cases ho
  | purgeActor actorId =>
      refine ⟨h.mono ?_ ?_, ?_⟩
      · intro k s hs
        rcases mem_stored.mp hs with ⟨r, hr, hkey⟩ | ⟨r, hr, hkey⟩
        · exact mem_stored.mpr (.inl ⟨r, (List.mem_filter.mp hr).1, hkey⟩)
        · exact mem_stored.mpr (.inr ⟨r, (List.mem_filter.mp hr).1, hkey⟩)
      · intro k c hcounter
        change ((st.sequences.erase actorId).erase (eventsKey actorId)).lookup k = some c
          at hcounter
        rw [Assoc.lookup_erase, Assoc.lookup_erase] at hcounter
        split_ifs at hcounter
        exact hcounter
      · intro o ho
        cases ho

/-- In a run whose records keep the counters ahead, every number that is given out is greater
than those stored for its actor, and no row under such a number is refused. -/
theorem gives_fresh_numbers (tables : Tables E V) (cs : List (Call E V))
    (hrun : Along call Orderly ⟨tables, ∅⟩ cs) : Along call GivesFresh ⟨tables, ∅⟩ cs := by
  refine hrun.of_invariant (I := Fresh) ?_ ?_
  · intro st c h hc
    exact (fresh_call h c hc).symm
  · intro k s _ current hcurrent
    rw [AList.lookup_empty] at hcurrent
    cases hcurrent

section Examples

/-- A record of actor `a` whose payload does not matter. -/
def record (id : String) (sequence : UInt64) : Record Unit := ⟨id, "a", sequence, ()⟩

/-- Numbers of both kinds, a batch that fails and a truncation. -/
def orderlyCalls : List (Call Unit Unit) :=
  [.appendEntry (record "1" 5), .appendEntry (record "2" 0),
    .appendBatch [record "3" 0, record "4" 9, record "5" 9], .appendEntry (record "6" 0),
    .truncateTo "a" 6, .appendEvent (record "1" 4), .appendEventsBatch [record "2" 0, record "3" 2],
    .appendEvent (record "4" 0)]

def noTables : Tables Unit Unit := ⟨Table.empty, Table.empty, Table.empty, Table.empty⟩

theorem gives_fresh_numbers_orderly : Along call GivesFresh ⟨noTables, ∅⟩ orderlyCalls :=
  gives_fresh_numbers noTables orderlyCalls (by decide +kernel)

/-- An entry with the number 4 after one with the number 5 sets the counter back to 5, which the
next entry without a number then gets in vain. -/
theorem not_gives_fresh_numbers :
    ¬∀ (tables : Tables Unit Unit) (cs : List (Call Unit Unit)),
      Along call GivesFresh ⟨tables, ∅⟩ cs := by
  intro h
  have hrun := h noTables
    ([.appendEntry (record "1" 5), .appendEntry (record "2" 4)] ++ [.appendEntry (record "3" 0)])
  have hlast := ((along_concat _ _ _ _).mp hrun).2
  have hrefused : Numbered.refused ∈
      (run call ⟨noTables, ∅⟩ [.appendEntry (record "1" 5), .appendEntry (record "2" 4)]).trace
        (.appendEntry (record "3" 0)) := by decide +kernel
  exact hlast _ hrefused

end Examples

end SqliteJournalStorage

end PlexSpaces.Journaling
