import PlexSpaces.Journaling.Sqlite
/-!
# Batches of journal entries

A batch numbers its entries while its transaction holds the only connection, so an entry
without a number gets one only from a counter that is cached; `append_events_batch` gives out
all numbers before its transaction for that reason.  Where every counter is cached and no row
is refused, a batch does what its entries do one by one (`batch_like_singles_iff`).
-/

namespace PlexSpaces.Journaling

open PlexSpaces.Lib

namespace Rows

variable {P : Type} {t : Rows P}

/-- Neither the number of the record nor its id is taken. -/
def Free (t : Rows P) (e : Record P) (number : UInt64) : Prop :=
  (e.actorId, number.toInt64) ∉ t.rows.map Row.key ∧ e.id ∉ t.rows.map Row.id

instance (t : Rows P) (e : Record P) (number : UInt64) : Decidable (t.Free e number) :=
  inferInstanceAs (Decidable (_ ∧ _))

theorem exists_insert_iff {e : Record P} {number : UInt64} :
    (∃ t', t.insert e number = .ok t') ↔ t.Free e number := by
  unfold insert Free
  cases hinsert : t.insert? ⟨e.id, e.actorId, number.toInt64, e.payload⟩ with
  | none =>
      have htaken := Table.insert?_eq_none_iff.mp hinsert
      refine iff_of_false ?_ fun h => h.1 htaken
      rintro ⟨t', h⟩
      cases h
  | some t' =>
      have hnumber : (e.actorId, number.toInt64) ∉ t.rows.map Row.key := by
        intro htaken
        rw [Table.insert?_eq_none_iff.mpr htaken] at hinsert
        cases hinsert
      by_cases hid : e.id ∈ t.rows.map Row.id
      · simp [hid]
      · simp [hid, hnumber]

end Rows

namespace SqliteJournalStorage

variable {E V : Type} {st : SqliteJournalStorage E V} {b : Batch E V} {e : Record E}

def afterEntry (st : SqliteJournalStorage E V) (e : Record E) : SqliteJournalStorage E V :=
  (st.appendEntry e).2.1

/-- The answers to the entries appended one after another, and the storage after them. -/
def appendEach (st : SqliteJournalStorage E V) :
    List (Record E) → List (Except JournalError UInt64) × SqliteJournalStorage E V
  | [] => ([], st)
  | e :: es =>
      ((st.appendEntry e).1 :: ((st.afterEntry e).appendEach es).1,
        ((st.afterEntry e).appendEach es).2)

/-- The batch stores the rows that its entries store one by one, and returns the first and the
last of their numbers and how many there are. -/
def BatchLikeSingles (st : SqliteJournalStorage E V) (es : List (Record E)) : Prop :=
  ∃ numbers : List UInt64, (st.appendEach es).1 = numbers.map .ok ∧
    (st.appendBatch es).1 = .ok (numbers.headD 0, numbers.getLastD 0, es.length) ∧
    (st.appendBatch es).2.1.toTables = (st.appendEach es).2.toTables

/-- An entry without a number has its counter in the cache, and the row is not refused. -/
def Ready (st : SqliteJournalStorage E V) (e : Record E) : Prop :=
  (e.sequence = 0 → (st.sequences.lookup e.actorId).isSome) ∧
    st.journalEntries.Free e (st.numberEntry e).1

instance (st : SqliteJournalStorage E V) (e : Record E) : Decidable (st.Ready e) :=
  inferInstanceAs (Decidable (_ ∧ _))

theorem numberEntry_journalEntries (st : SqliteJournalStorage E V) (e : Record E) :
    (st.numberEntry e).2.1.journalEntries = st.journalEntries := by
  unfold numberEntry
  split_ifs <;> rfl

/-- What the loop of a batch does with an entry is what `append_entry` does. -/
theorem insertEntry_of_ready (hfailed : b.failed = none) (h : b.storage.Ready e) :
    ∃ number, (b.storage.appendEntry e).1 = .ok number ∧
      (b.insertEntry e).storage = b.storage.afterEntry e ∧
      (b.insertEntry e).numbers = b.numbers ++ [number] ∧ (b.insertEntry e).failed = none := by
  obtain ⟨hcached, hfree⟩ := h
  have hcounter : ¬(e.sequence = 0 ∧ b.storage.sequences.lookup e.actorId = none) := by
    rintro ⟨hzero, hnone⟩
    have hsome := hcached hzero
    rw [hnone] at hsome
    cases hsome
  obtain ⟨t, hinsert⟩ := Rows.exists_insert_iff.mpr hfree
  rw [← numberEntry_journalEntries b.storage e] at hinsert
  refine ⟨(b.storage.numberEntry e).1, ?_⟩
  unfold afterEntry appendEntry Batch.insertEntry
  simp [hfailed, hcounter, hinsert]

theorem insertEntry_of_not_ready (hfailed : b.failed = none) (h : ¬b.storage.Ready e) :
    (b.insertEntry e).failed.isSome := by
  unfold Batch.insertEntry
  rw [hfailed]
  by_cases hcounter : e.sequence = 0 ∧ b.storage.sequences.lookup e.actorId = none
  · simp [hcounter]
  · have hcached : e.sequence = 0 → (b.storage.sequences.lookup e.actorId).isSome := by
      intro hzero
      exact Option.isSome_iff_ne_none.mpr fun hnone => hcounter ⟨hzero, hnone⟩
    have htaken : ¬∃ t', b.storage.journalEntries.insert e (b.storage.numberEntry e).1 = .ok t' :=
      fun hinsert => h ⟨hcached, Rows.exists_insert_iff.mp hinsert⟩
    rw [← numberEntry_journalEntries b.storage e] at htaken
    simp only [Option.isSome_none, Bool.false_eq_true, if_false, hcounter]
    split
    · rfl
    · next t hinsert => exact absurd ⟨t, hinsert⟩ htaken

/-- A batch that has failed leaves the rest of its entries. -/
theorem run_insertEntry_of_failed (h : b.failed.isSome) (es : List (Record E)) :
    run Batch.insertEntry b es = b := by
  induction es with
  | nil => rfl
  | cons e es ih =>
      have hskip : b.insertEntry e = b := by rw [Batch.insertEntry, if_pos h]
      rw [run_cons, hskip, ih]

theorem run_insertEntry_of_ready (hfailed : b.failed = none) {es : List (Record E)}
    (h : Along afterEntry Ready b.storage es) :
    ∃ numbers : List UInt64, (b.storage.appendEach es).1 = numbers.map .ok ∧
      (run Batch.insertEntry b es).storage = (b.storage.appendEach es).2 ∧
      (run Batch.insertEntry b es).numbers = b.numbers ++ numbers ∧
      (run Batch.insertEntry b es).failed = none := by
  induction es generalizing b with
  | nil => exact ⟨[], rfl, rfl, (List.append_nil _).symm, hfailed⟩
  | cons e es ih =>
      obtain ⟨hready, hrest⟩ := h
      obtain ⟨number, hone, hstorage, hnumbers, hnone⟩ := insertEntry_of_ready hfailed hready
      rw [← hstorage] at hrest
      obtain ⟨numbers, heach, hstorages, hall, hend⟩ := ih hnone hrest
      refine ⟨number :: numbers, ?_, ?_, ?_, hend⟩
      · rw [appendEach, hone, ← hstorage, heach, List.map_cons]
      · rw [run_cons, hstorages, hstorage, appendEach]
      · rw [run_cons, hall, hnumbers, List.append_assoc, List.singleton_append]

theorem run_insertEntry_of_not_ready (hfailed : b.failed = none) {es : List (Record E)}
    (h : ¬Along afterEntry Ready b.storage es) :
    (run Batch.insertEntry b es).failed.isSome := by
  induction es generalizing b with
  | nil => exact absurd trivial h
  | cons e es ih =>
      rw [run_cons]
      by_cases hready : b.storage.Ready e
      · obtain ⟨number, -, hstorage, -, hnone⟩ := insertEntry_of_ready hfailed hready
        refine ih hnone ?_
        rw [hstorage]
        exact fun hrest => h ⟨hready, hrest⟩
      · have hstop := insertEntry_of_not_ready hfailed hready
        rw [run_insertEntry_of_failed hstop]
        exact hstop

/-- A batch is its entries one by one exactly when each of them, at its turn, has its counter in
the cache or a number of its own, and a row that is not refused. -/
theorem batch_like_singles_iff (st : SqliteJournalStorage E V) (es : List (Record E)) :
    st.BatchLikeSingles es ↔ Along afterEntry Ready st es := by
  constructor
  · rintro ⟨numbers, -, hbatch, -⟩
    by_contra h
    have hstop := run_insertEntry_of_not_ready (b := ⟨st, [], none, []⟩) rfl h
    obtain ⟨error, herror⟩ := Option.isSome_iff_exists.mp hstop
    rw [appendBatch] at hbatch
    simp only [herror] at hbatch
    cases hbatch
  · intro h
    obtain ⟨numbers, heach, hstorage, hnumbers, hnone⟩ :=
      run_insertEntry_of_ready (b := ⟨st, [], none, []⟩) rfl h
    refine ⟨numbers, heach, ?_, ?_⟩
    · rw [appendBatch]
      simp only [hnone, hnumbers, List.nil_append]
    · rw [appendBatch]
      simp only [hnone, hstorage]

/-- On a storage that has just been opened, a batch of one entry without a number waits for the
connection that its own transaction holds; appended alone, the entry gets the number 1. -/
theorem not_batch_like_singles :
    ¬∀ (st : SqliteJournalStorage Unit Unit) (es : List (Record Unit)), es ≠ [] →
      (∀ e ∈ es, e.sequence = 0) → st.BatchLikeSingles es := by
  intro h
  obtain ⟨numbers, -, hbatch, -⟩ :=
    h ⟨⟨Table.empty, Table.empty, Table.empty, Table.empty⟩, ∅⟩ [⟨"1", "a", 0, ()⟩]
      (List.cons_ne_nil _ _) (by decide)
  cases hbatch

end SqliteJournalStorage

end PlexSpaces.Journaling
