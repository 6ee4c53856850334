import Mathlib.Data.List.Sort
import PlexSpaces.Journaling.Sqlite
/-!
# Reading the events of an actor

The events of an actor in the order of their numbers, all at once or page by page.  A page is
fetched with one row more than it returns, which tells whether another page follows, and names
the offset of that page.  The offset is an `i32`: one that does not fit is negative, and a
negative offset is the first page again.  Following the offsets reads every event exactly when
the offset of the last page fits (`paged_replay_complete_iff`).
-/

namespace PlexSpaces.Journaling

open PlexSpaces.Lib

structure PageRequest where
  offset : Int32
  limit : Int32

structure PageResponse where
  totalSize : Int32
  offset : Int32
  limit : Int32
  hasNext : Bool

def PageRequest.skipCount (request : PageRequest) : Nat := request.offset.toInt.toNat

/-- `limit.clamp(1, 1000)`. -/
def PageRequest.pageSize (request : PageRequest) : Nat :=
  (min (max request.limit.toInt 1) 1000).toNat

def Row.event {V : Type} (r : Row V) : Record V :=
  ⟨r.id, r.actorId, r.sequence.toUInt64, r.payload⟩

namespace SqliteJournalStorage

variable {E V : Type}

/-- `WHERE actor_id = ? AND sequence >= ? ORDER BY sequence ASC`. -/
def eventRows (st : SqliteJournalStorage E V) (actorId : String) (fromSequence : UInt64) :
    List (Row V) :=
  (st.actorEvents.select fun r => r.actorId = actorId ∧
    fromSequence.toInt64 ≤ r.sequence).insertionSort fun r r' => r.sequence ≤ r'.sequence

def replayEventsFrom (st : SqliteJournalStorage E V) (actorId : String) (fromSequence : UInt64) :
    List (Record V) :=
  (st.eventRows actorId fromSequence).map Row.event

def replayEventsFromPaginated (st : SqliteJournalStorage E V) (actorId : String)
    (fromSequence : UInt64) (request : PageRequest) : List (Record V) × PageResponse :=
  let rows := ((st.eventRows actorId fromSequence).drop request.skipCount).take
    (request.pageSize + 1)
  let events := (rows.take request.pageSize).map Row.event
  (events,
    { totalSize := 0
      offset := Int32.ofInt (request.skipCount + events.length)
      limit := Int32.ofInt request.pageSize
      hasNext := request.pageSize < rows.length })

/-- The pages from an offset on, each at the offset that the page before it names, until there
is no next one; `none` when the fuel runs out. -/
def followPages (st : SqliteJournalStorage E V) (actorId : String) (fromSequence : UInt64)
    (limit : Int32) : Nat → Int32 → Option (List (Record V))
  | 0, _ => none
  | fuel + 1, offset =>
      let page := st.replayEventsFromPaginated actorId fromSequence ⟨offset, limit⟩
      if page.2.hasNext then
        (st.followPages actorId fromSequence limit fuel page.2.offset).map (page.1 ++ ·)
      else some page.1

/-- The pages come to an end, and together they are the events in their order. -/
def PagedReplayComplete (st : SqliteJournalStorage E V) (actorId : String)
    (fromSequence : UInt64) (limit : Int32) : Prop :=
  ∃ fuel, st.followPages actorId fromSequence limit fuel 0 =
    some (st.replayEventsFrom actorId fromSequence)

section Paging

variable {st : SqliteJournalStorage E V} {actorId : String} {fromSequence : UInt64}
variable {limit offset : Int32}

def pageSize (limit : Int32) : Nat := PageRequest.pageSize ⟨0, limit⟩

theorem pageSize_pos (limit : Int32) : 0 < pageSize limit := by
  unfold pageSize PageRequest.pageSize
  omega

theorem pageSize_le (limit : Int32) : pageSize limit ≤ 1000 := by
  unfold pageSize PageRequest.pageSize
  omega

/-- An offset that does not fit is the first page again. -/
theorem toNat_toInt_ofInt {n : Nat} (h : n < 2 ^ 32) :
    (Int32.ofInt n).toInt.toNat = if n < 2 ^ 31 then n else 0 := by
  have hsize : Int32.size = 2 ^ 32 := rfl
  rw [Int32.toInt_ofInt, hsize]
  split_ifs with hn
  · rw [Int.bmod_eq_of_le (by omega) (by omega), Int.toNat_natCast]
  · have hnegative : (n : Int).bmod (2 ^ 32) = n - 2 ^ 32 := by
      rw [Int.bmod_eq_iff (by decide)]
      refine ⟨by omega, by omega, ⟨-1, by omega⟩⟩
    omega

theorem page_events : (st.replayEventsFromPaginated actorId fromSequence ⟨offset, limit⟩).1 =
    ((st.replayEventsFrom actorId fromSequence).drop offset.toInt.toNat).take (pageSize limit) := by
  rw [replayEventsFromPaginated, replayEventsFrom, ← List.map_drop, ← List.map_take,
    List.take_take, Nat.min_eq_left (Nat.le_succ _)]
  rfl

theorem page_hasNext :
    (st.replayEventsFromPaginated actorId fromSequence ⟨offset, limit⟩).2.hasNext = true ↔
      offset.toInt.toNat + pageSize limit <
        (st.replayEventsFrom actorId fromSequence).length := by
  have hsize : PageRequest.pageSize ⟨offset, limit⟩ = pageSize limit := rfl
  have hskip : PageRequest.skipCount ⟨offset, limit⟩ = offset.toInt.toNat := rfl
  have hlength : (st.replayEventsFrom actorId fromSequence).length =
      (st.eventRows actorId fromSequence).length := List.length_map _
  rw [replayEventsFromPaginated, hlength]
  simp only [hsize, hskip, decide_eq_true_eq, List.length_take, List.length_drop,
    lt_min_iff]
  omega

theorem page_offset
    (h : offset.toInt.toNat + pageSize limit <
      (st.replayEventsFrom actorId fromSequence).length) :
    (st.replayEventsFromPaginated actorId fromSequence ⟨offset, limit⟩).2.offset =
      Int32.ofInt (offset.toInt.toNat + pageSize limit : Nat) := by
  have hlength : (st.replayEventsFromPaginated actorId fromSequence
      ⟨offset, limit⟩).1.length = pageSize limit := by
    rw [page_events, List.length_take, List.length_drop]
    omega
  rw [replayEventsFromPaginated] at hlength ⊢
  simp only at hlength ⊢
  rw [hlength, Int.natCast_add]
  rfl

theorem followPages_succ (fuel : Nat) :
    st.followPages actorId fromSequence limit (fuel + 1) offset =
    if offset.toInt.toNat + pageSize limit <
        (st.replayEventsFrom actorId fromSequence).length then
      (st.followPages actorId fromSequence limit fuel
        (Int32.ofInt (offset.toInt.toNat + pageSize limit : Nat))).map
          (((st.replayEventsFrom actorId fromSequence).drop offset.toInt.toNat).take
            (pageSize limit) ++ ·)
    else some ((st.replayEventsFrom actorId fromSequence).drop offset.toInt.toNat) := by
  rw [followPages]
  simp only [page_hasNext, page_events]
  split_ifs with hnext
  · rw [page_offset hnext]
  · rw [List.take_of_length_le]
    rw [List.length_drop]
    omega

/-- While the offset of the last page fits, the pages from an offset on are the events from
there on. -/
theorem exists_followPages (hfits : ((st.replayEventsFrom actorId fromSequence).length - 1) /
      pageSize limit * pageSize limit < 2 ^ 31)
    (hmultiple : pageSize limit ∣ offset.toInt.toNat) :
    ∃ fuel, st.followPages actorId fromSequence limit fuel offset =
      some ((st.replayEventsFrom actorId fromSequence).drop offset.toInt.toNat) := by
  have hpos := pageSize_pos limit
  -- the induction is on the events that are left
  generalize hleft : (st.replayEventsFrom actorId fromSequence).length - offset.toInt.toNat = left
  induction left using Nat.strong_induction_on generalizing offset with
  | _ left ih =>
      by_cases hnext : offset.toInt.toNat + pageSize limit <
          (st.replayEventsFrom actorId fromSequence).length
      · have hmultiple' : pageSize limit ∣ offset.toInt.toNat + pageSize limit :=
          (Nat.dvd_add_right hmultiple).mpr (Nat.dvd_refl _)
        have hle : offset.toInt.toNat + pageSize limit ≤
            ((st.replayEventsFrom actorId fromSequence).length - 1) /
              pageSize limit * pageSize limit := by
          obtain ⟨page, hpage⟩ := hmultiple'
          rw [hpage, Nat.mul_comm]
          refine Nat.mul_le_mul_right _ ((Nat.le_div_iff_mul_le hpos).mpr ?_)
          rw [Nat.mul_comm, ← hpage]
          omega
        have hoffset := toNat_toInt_ofInt (n := offset.toInt.toNat + pageSize limit) (by omega)
        rw [if_pos (by omega)] at hoffset
        have hrest : ∃ fuel, st.followPages actorId fromSequence limit fuel
            (Int32.ofInt (offset.toInt.toNat + pageSize limit : Nat)) = some
              ((st.replayEventsFrom actorId fromSequence).drop
                (Int32.ofInt (offset.toInt.toNat + pageSize limit : Nat)).toInt.toNat) := by
          refine ih _ ?_ ?_ rfl
          · omega
          · rw [hoffset]
            exact hmultiple'
        obtain ⟨fuel, hfuel⟩ := hrest
        refine ⟨fuel + 1, ?_⟩
        rw [followPages_succ, if_pos hnext, hfuel, hoffset, Option.map_some,
          ← List.drop_drop, List.take_append_drop]
      · refine ⟨1, ?_⟩
        rw [followPages_succ, if_neg hnext]

/-- Where the offset of the last page does not fit, the pages begin again before it. -/
theorem followPages_eq_none (hover : 2 ^ 31 ≤
      ((st.replayEventsFrom actorId fromSequence).length - 1) / pageSize limit * pageSize limit)
    (hmultiple : pageSize limit ∣ offset.toInt.toNat) (fuel : Nat) :
    st.followPages actorId fromSequence limit fuel offset = none := by
  have hpos := pageSize_pos limit
  have hle := pageSize_le limit
  induction fuel generalizing offset with
  | zero => rfl
  | succ fuel ih =>
      have hlt : offset.toInt.toNat < 2 ^ 31 := by
        have := offset.toInt_lt
        omega
      have hnext : offset.toInt.toNat + pageSize limit <
          (st.replayEventsFrom actorId fromSequence).length := by
        obtain ⟨page, hpage⟩ := hmultiple
        have hpages : page + 1 ≤
            ((st.replayEventsFrom actorId fromSequence).length - 1) / pageSize limit := by
          refine Nat.lt_of_mul_lt_mul_left (a := pageSize limit) ?_
          rw [← hpage, Nat.mul_comm]
          omega
        have hlast := (Nat.le_div_iff_mul_le hpos).mp hpages
        rw [Nat.succ_mul, Nat.mul_comm, ← hpage] at hlast
        omega
      rw [followPages_succ, if_pos hnext, ih, Option.map_none]
      rw [toNat_toInt_ofInt (by omega)]
      split_ifs
      · exact (Nat.dvd_add_right hmultiple).mpr (Nat.dvd_refl _)
      · exact Nat.dvd_zero _

end Paging

/-- Following the pages is reading all events exactly when the last page starts at an offset
that fits. -/
theorem paged_replay_complete_iff (st : SqliteJournalStorage E V) (actorId : String)
    (fromSequence : UInt64) (limit : Int32) :
    st.PagedReplayComplete actorId fromSequence limit ↔
      ((st.eventRows actorId fromSequence).length - 1) / pageSize limit * pageSize limit <
        2 ^ 31 := by
  have hlength : (st.eventRows actorId fromSequence).length =
      (st.replayEventsFrom actorId fromSequence).length := (List.length_map _).symm
  rw [hlength]
  constructor
  · rintro ⟨fuel, hfuel⟩
    by_contra hover
    rw [followPages_eq_none (Nat.le_of_not_lt hover) (Nat.dvd_zero _)] at hfuel
    cases hfuel
  · intro hfits
    exact exists_followPages hfits (Nat.dvd_zero _)

/-- The events 1 to `n` of one actor. -/
def eventsUpTo (n : Nat) (h : n < 2 ^ 63) : Rows Unit where
  rows := (List.range' 1 n).map fun i => ⟨toString i, "a", Int64.ofNat i, ()⟩
  nodup := by
    rw [List.map_map]
    refine List.Nodup.map_on ?_ List.nodup_range'
    intro i hi j hj heq
    have hi := List.mem_range'_1.mp hi
    have hj := List.mem_range'_1.mp hj
    have hsequence := congrArg Int64.toInt (Prod.mk.inj heq).2
    simp only [Int64.toInt_ofNat_of_lt (show i < 2 ^ 63 by omega),
      Int64.toInt_ofNat_of_lt (show j < 2 ^ 63 by omega)] at hsequence
    exact Int.ofNat.inj hsequence

/-- The offset of the page after `2 ^ 31` events is negative, and the pages of one event begin
again. -/
theorem not_paged_replay_complete :
    ¬∀ (st : SqliteJournalStorage Unit Unit) (actorId : String) (fromSequence : UInt64)
      (limit : Int32), st.PagedReplayComplete actorId fromSequence limit := by
  intro h
  obtain ⟨fuel, hfuel⟩ := h
    ⟨⟨Table.empty, Table.empty, eventsUpTo (2 ^ 31 + 1) (by decide), Table.empty⟩, ∅⟩ "a" 0 1
  rw [followPages_eq_none ?_ (Nat.dvd_zero _)] at hfuel
  · cases hfuel
  · have hsize : pageSize 1 = 1 := by decide
    rw [replayEventsFrom, List.length_map, eventRows, List.length_insertionSort, Table.select,
      List.filter_eq_self.mpr, hsize]
    · simp [eventsUpTo]
    · intro r hr
      obtain ⟨i, hi, rfl⟩ := List.mem_map.mp hr
      have hi := List.mem_range'_1.mp hi
      have hpos : (0 : Int64) ≤ Int64.ofNat i := by
        rw [Int64.le_iff_toInt_le, Int64.toInt_ofNat_of_lt (by omega)]
        exact Int.natCast_nonneg i
      simpa using hpos

end SqliteJournalStorage

end PlexSpaces.Journaling
