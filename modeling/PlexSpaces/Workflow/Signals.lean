import PlexSpaces.Lib.Run
import Mathlib.Data.List.Nodup
/-!
# Signals in the database

`check_signal` is two statements: one selects the payload of the oldest signal, the other deletes
the oldest signal.  Between the two there are those of other calls, and of signals that were
received in one second either is the oldest.  A signal is returned once, and the signals are
returned in their order, when no call selects between the two statements of another one and every
signal is received in a later second than those that are still there (`signals_consumedOnce`).
-/

namespace PlexSpaces.Workflow.Signals

open PlexSpaces.Lib

/-- What a signal is addressed to. -/
structure Key where
  executionId : String
  signalName : String
deriving DecidableEq, Repr

/-- A row of `signals`.  `receivedAt` counts seconds; `sequence` numbers the signals in the order
in which they are sent. -/
structure Row (P : Type) where
  sequence : Nat
  key : Key
  payload : P
  receivedAt : Nat
deriving DecidableEq, Repr

/-- A call of `check_signal` that found a signal and has not deleted one yet. -/
structure CheckSignal (P : Type) where
  call : Nat
  row : Row P

/-- The table and the calls on it, with all signals that were sent and those that were returned. -/
structure Store (P : Type) where
  signals : List (Row P) := []
  checking : List (CheckSignal P) := []
  sent : List (Row P) := []
  returned : List (Row P) := []

/-- A statement; `pick` is the choice of the database between rows of one time. -/
inductive Statement (P : Type) where
  | sendSignal (key : Key) (payload : P) (receivedAt : Nat)
  | select (call : Nat) (key : Key) (pick : Nat)
  | delete (call : Nat) (pick : Nat)

variable {P : Type}

def rowsOf (key : Key) (rows : List (Row P)) : List (Row P) :=
  rows.filter (·.key = key)

/-- `ORDER BY received_at ASC LIMIT 1`. -/
def oldest (key : Key) (pick : Nat) (rows : List (Row P)) : Option (Row P) :=
  let candidates := (rowsOf key rows).filter fun row =>
    (rowsOf key rows).all (row.receivedAt ≤ ·.receivedAt)
  candidates[pick % candidates.length]?

namespace Store

def step (s : Store P) : Statement P → Store P
  | .sendSignal key payload receivedAt =>
      let row : Row P := { sequence := s.sent.length, key, payload, receivedAt }
      { s with signals := s.signals ++ [row], sent := s.sent ++ [row] }
  | .select call key pick =>
      if s.checking.any (·.call = call) then s
      else
        match oldest key pick s.signals with
        | some row => { s with checking := s.checking ++ [⟨call, row⟩] }
        -- the call returns that there is no signal
        | none => s
  | .delete call pick =>
      match s.checking.find? (·.call = call) with
      | none => s
      | some check =>
          let signals :=
            match oldest check.row.key pick s.signals with
            | some row => s.signals.filter (·.sequence ≠ row.sequence)
            | none => s.signals
          -- the call returns the payload that it selected
          { s with
            signals
            checking := s.checking.filter (·.call ≠ call)
            returned := s.returned ++ [check.row] }

/-- No signal of the key is returned twice or deleted without having been returned, and they are
returned in the order in which they were sent. -/
structure ConsumedOnce (key : Key) (s : Store P) : Prop where
  wasSent : ∀ row ∈ rowsOf key s.returned, row ∈ s.sent
  atMostOnce : ((rowsOf key s.returned).map (·.sequence)).Nodup
  noneLost : ∀ row ∈ rowsOf key s.sent, row ∉ s.signals → row ∈ s.returned
  inOrder : ((rowsOf key s.returned).map (·.sequence)).Pairwise (· < ·)

/-- A signal comes in a later second than those of its key, and no call selects for the key while
another one has yet to delete. -/
def Apart (key : Key) (s : Store P) : Statement P → Prop
  | .sendSignal key' _ receivedAt =>
      key' = key → ∀ row ∈ s.signals, row.key = key → row.receivedAt < receivedAt
  | .select _ key' _ => key' = key → ∀ check ∈ s.checking, check.row.key ≠ key
  | .delete _ _ => True

instance (key : Key) (s : Store P) (statement : Statement P) :
    Decidable (Apart key s statement) :=
  match statement with
  | .sendSignal key' _ receivedAt => inferInstanceAs (Decidable
      (key' = key → ∀ row ∈ s.signals, row.key = key → row.receivedAt < receivedAt))
  | .select _ key' _ => inferInstanceAs (Decidable
      (key' = key → ∀ check ∈ s.checking, check.row.key ≠ key))
  | .delete _ _ => inferInstanceAs (Decidable True)

/-! ## The oldest signal -/

section Oldest

variable {key key' : Key} {rows : List (Row P)}

theorem rowsOf_append (key : Key) (rows rows' : List (Row P)) :
    rowsOf key (rows ++ rows') = rowsOf key rows ++ rowsOf key rows' :=
  List.filter_append ..

theorem rowsOf_singleton (key : Key) (row : Row P) :
    rowsOf key [row] = if row.key = key then [row] else [] := by
  by_cases hkey : row.key = key
  · rw [if_pos hkey]
    exact List.filter_cons_of_pos (decide_eq_true hkey)
  · rw [if_neg hkey]
    exact List.filter_cons_of_neg (by simpa using hkey)

theorem mem_rowsOf {row : Row P} : row ∈ rowsOf key rows ↔ row ∈ rows ∧ row.key = key := by
  rw [rowsOf, List.mem_filter, decide_eq_true_iff]

/-- Signals with a time of their own leave the database no choice. -/
theorem oldest_eq_head? (hincreasing : (rowsOf key rows).Pairwise (·.receivedAt < ·.receivedAt))
    (pick : Nat) : oldest key pick rows = (rowsOf key rows).head? := by
  unfold oldest
  generalize rowsOf key rows = matching at hincreasing
  cases matching with
  | nil => rfl
  | cons row rest =>
      obtain ⟨hfirst, -⟩ := List.pairwise_cons.mp hincreasing
      have hpasses : (row :: rest).all (row.receivedAt ≤ ·.receivedAt) = true := by
        rw [List.all_cons, Bool.and_eq_true, List.all_eq_true, decide_eq_true_iff]
        exact ⟨Nat.le_refl _,
          fun other hother => decide_eq_true (Nat.le_of_lt (hfirst other hother))⟩
      have hothers :
          rest.filter (fun r => (row :: rest).all (r.receivedAt ≤ ·.receivedAt)) = [] := by
        refine List.filter_eq_nil_iff.mpr fun other hother hall => ?_
        rw [List.all_cons, Bool.and_eq_true, decide_eq_true_iff] at hall
        exact absurd hall.1 (Nat.not_le.mpr (hfirst other hother))
      have hcandidates : (row :: rest).filter (fun r =>
          (row :: rest).all (r.receivedAt ≤ ·.receivedAt)) = [row] := by
        rw [List.filter_cons, if_pos hpasses, hothers]
      dsimp only
      rw [hcandidates, List.length_singleton, Nat.mod_one]
      rfl

theorem oldest_key {pick : Nat} {row : Row P} (h : oldest key pick rows = some row) :
    row ∈ rows ∧ row.key = key := by
  have hmem := List.mem_of_getElem? h
  exact mem_rowsOf.mp (List.mem_filter.mp hmem).1

end Oldest

/-! ## The invariant -/

section Invariant

variable {key : Key} {s : Store P}

/-- What is kept between the statements on a key that are apart. -/
structure Consistent (key : Key) (s : Store P) : Prop where
  numbered : s.sent.map (·.sequence) = List.range s.sent.length
  stored : s.signals.Sublist s.sent
  accounted : rowsOf key s.sent = rowsOf key s.returned ++ rowsOf key s.signals
  increasing : (rowsOf key s.signals).Pairwise (·.receivedAt < ·.receivedAt)
  selected : ∀ check ∈ s.checking, check.row.key = key →
    (rowsOf key s.signals).head? = some check.row
  alone : (s.checking.filter (·.row.key = key)).length ≤ 1

theorem Consistent.inj (h : Consistent key s) {row row' : Row P} (hrow : row ∈ s.signals)
    (hrow' : row' ∈ s.signals) (hsame : row.sequence = row'.sequence) : row = row' := by
  have hnodup : (s.sent.map (·.sequence)).Nodup := h.numbered ▸ List.nodup_range
  exact List.inj_on_of_nodup_map hnodup (h.stored.subset hrow) (h.stored.subset hrow') hsame

theorem consistent_empty (key : Key) : Consistent key ({} : Store P) :=
  ⟨rfl, .slnil, rfl, .nil, fun check hcheck => by (cases hcheck), Nat.zero_le 1⟩

theorem Consistent.sendSignal (h : Consistent key s) {key' : Key} {payload : P} {receivedAt : Nat}
    (hapart : Apart key s (.sendSignal key' payload receivedAt)) :
    Consistent key (s.step (.sendSignal key' payload receivedAt)) := by
  refine ⟨?_, h.stored.append (List.Sublist.refl _), ?_, ?_, fun check hcheck hkey => ?_, h.alone⟩
  · rw [step, List.map_append, h.numbered, List.length_append, List.length_singleton,
      List.range_succ]
    rfl
  · change rowsOf key (s.sent ++ [_]) = rowsOf key s.returned ++ rowsOf key (s.signals ++ [_])
    rw [rowsOf_append, rowsOf_append, h.accounted, List.append_assoc]
  · change (rowsOf key (s.signals ++ [_])).Pairwise _
    rw [rowsOf_append, rowsOf_singleton]
    split
    · next hkey =>
      refine List.pairwise_append.mpr ⟨h.increasing, List.pairwise_singleton _ _, ?_⟩
      intro row hrow row' hrow'
      obtain ⟨hmem, hrowKey⟩ := mem_rowsOf.mp hrow
      rw [List.mem_singleton.mp hrow']
      exact hapart hkey row hmem hrowKey
    · rw [List.append_nil]
      exact h.increasing
  · change (rowsOf key (s.signals ++ [_])).head? = some check.row
    rw [rowsOf_append, List.head?_append, h.selected check hcheck hkey]
    rfl

theorem Consistent.select (h : Consistent key s) {call pick : Nat} {key' : Key}
    (hapart : Apart key s (.select call key' pick)) :
    Consistent key (s.step (.select call key' pick)) := by
  rw [step]
  split
  · exact h
  · split
    · next row hrow =>
      obtain ⟨-, hrowKey⟩ := oldest_key hrow
      refine ⟨h.numbered, h.stored, h.accounted, h.increasing, fun check hcheck hkey => ?_, ?_⟩
      · rcases List.mem_append.mp hcheck with hcheck | hcheck
        · exact h.selected check hcheck hkey
        · rw [List.mem_singleton.mp hcheck] at hkey ⊢
          rw [← hrow, hrowKey.symm.trans hkey, oldest_eq_head? h.increasing]
      · rw [List.filter_append, List.length_append]
        by_cases hkey : key' = key
        · have hnone : s.checking.filter (·.row.key = key) = [] :=
            List.filter_eq_nil_iff.mpr fun check hcheck => by
              simpa using hapart hkey check hcheck
          rw [hnone]
          exact (Nat.zero_add _).trans_le (List.length_filter_le _ _)
        · have hother : [CheckSignal.mk call row].filter (·.row.key = key) = [] :=
            List.filter_cons_of_neg (by simpa [hrowKey] using hkey)
          rw [hother]
          exact h.alone
    · exact h

theorem Consistent.filter_sequence (h : Consistent key s) {row : Row P} (hrow : row ∈ s.signals)
    {rest : List (Row P)} (hrest : ∀ other ∈ rest, other ∈ s.signals ∧ other ≠ row) :
    rest.filter (·.sequence ≠ row.sequence) = rest := by
  refine List.filter_eq_self.mpr fun other hother => decide_eq_true fun hsame => ?_
  obtain ⟨hmem, hne⟩ := hrest other hother
  exact hne (h.inj hmem hrow hsame)

theorem rowsOf_filter (rows : List (Row P)) (p : Row P → Bool) :
    rowsOf key (rows.filter p) = (rowsOf key rows).filter p := List.filter_comm ..

theorem eq_of_length_le_one {α : Type} {as : List α} (hlength : as.length ≤ 1) {a b : α}
    (ha : a ∈ as) (hb : b ∈ as) : a = b := by
  match as with
  | [] => cases ha
  | [c] => exact (List.mem_singleton.mp ha).trans (List.mem_singleton.mp hb).symm
  | _ :: _ :: _ => exact absurd hlength (by rw [List.length_cons, List.length_cons]; omega)

/-- The call that selected the first row of the key deletes it. -/
theorem Consistent.delete_own (h : Consistent key s) {check : CheckSignal P}
    (hcheck : check ∈ s.checking) (hkey : check.row.key = key) (pick : Nat) :
    ∃ rest, rowsOf key s.signals = check.row :: rest ∧
      oldest check.row.key pick s.signals = some check.row ∧
      rowsOf key (s.signals.filter (·.sequence ≠ check.row.sequence)) = rest := by
  have hhead := h.selected check hcheck hkey
  obtain ⟨rest, hrest⟩ := List.head?_eq_some_iff.mp hhead
  have hmem : ∀ row ∈ check.row :: rest, row ∈ s.signals :=
    fun row hrow => (mem_rowsOf.mp (hrest ▸ hrow : row ∈ rowsOf key s.signals)).1
  refine ⟨rest, hrest, ?_, ?_⟩
  · rw [hkey, oldest_eq_head? h.increasing, hhead]
  · have hincreasing := h.increasing
    rw [hrest] at hincreasing
    obtain ⟨hfirst, -⟩ := List.pairwise_cons.mp hincreasing
    rw [rowsOf_filter, hrest, List.filter_cons_of_neg (by simp)]
    refine h.filter_sequence (hmem _ List.mem_cons_self) fun other hother =>
      ⟨hmem other (List.mem_cons_of_mem _ hother), ?_⟩
    rintro rfl
    exact Nat.lt_irrefl _ (hfirst _ hother)

theorem Consistent.delete_other (h : Consistent key s) {row : Row P} (hrow : row ∈ s.signals)
    (hkey : row.key ≠ key) :
    rowsOf key (s.signals.filter (·.sequence ≠ row.sequence)) = rowsOf key s.signals := by
  rw [rowsOf_filter]
  refine h.filter_sequence hrow fun other hother => ?_
  obtain ⟨hmem, hotherKey⟩ := mem_rowsOf.mp hother
  refine ⟨hmem, ?_⟩
  rintro rfl
  exact hkey hotherKey

theorem Consistent.delete (h : Consistent key s) (call pick : Nat) :
    Consistent key (s.step (.delete call pick)) := by
  rw [step]
  split
  · exact h
  · next check hfind =>
    have hcheck := List.mem_of_find?_eq_some hfind
    have hcall : check.call = call := by simpa using List.find?_some hfind
    have halone : ((s.checking.filter (·.call ≠ call)).filter (·.row.key = key)).length ≤ 1 := by
      rw [List.filter_comm]
      exact Nat.le_trans (List.length_filter_le _ _) h.alone
    by_cases hkey : check.row.key = key
    · obtain ⟨rest, hrest, holdest, hdeleted⟩ := h.delete_own hcheck hkey pick
      rw [holdest]
      refine ⟨h.numbered, List.filter_sublist.trans h.stored, ?_, ?_,
        fun other hother hotherKey => ?_, halone⟩
      · rw [hdeleted, rowsOf_append, rowsOf_singleton, if_pos hkey, h.accounted, hrest,
          List.append_assoc]
        rfl
      · rw [hdeleted]
        exact (List.pairwise_cons.mp (hrest ▸ h.increasing)).2
      · -- no other call on the key is between its statements
        obtain ⟨hmem, hne⟩ := List.mem_filter.mp hother
        have hsame := eq_of_length_le_one h.alone
          (List.mem_filter.mpr ⟨hmem, decide_eq_true hotherKey⟩)
          (List.mem_filter.mpr ⟨hcheck, decide_eq_true hkey⟩)
        exact absurd (hsame ▸ hcall) (of_decide_eq_true hne)
    · have hreturned : rowsOf key (s.returned ++ [check.row]) = rowsOf key s.returned := by
        rw [rowsOf_append, rowsOf_singleton, if_neg hkey, List.append_nil]
      have hselected : ∀ other ∈ s.checking.filter (·.call ≠ call), other.row.key = key →
          (rowsOf key s.signals).head? = some other.row :=
        fun other hother => h.selected other (List.mem_filter.mp hother).1
      cases holdest : oldest check.row.key pick s.signals with
      | none =>
          exact ⟨h.numbered, h.stored, hreturned ▸ h.accounted, h.increasing, hselected, halone⟩
      | some row =>
          obtain ⟨hrow, hrowKey⟩ := oldest_key holdest
          have hsame := h.delete_other hrow (hrowKey ▸ hkey)
          refine ⟨h.numbered, List.filter_sublist.trans h.stored, ?_, ?_, ?_, halone⟩
          · rw [hreturned, hsame]
            exact h.accounted
          · rw [hsame]
            exact h.increasing
          · rw [hsame]
            exact hselected

theorem Consistent.step (h : Consistent key s) {statement : Statement P}
    (hapart : Apart key s statement) : Consistent key (s.step statement) := by
  cases statement with
  | sendSignal key' payload receivedAt => exact h.sendSignal hapart
  | select call key' pick => exact h.select hapart
  | delete call pick => exact h.delete call pick

theorem Consistent.consumedOnce (h : Consistent key s) : ConsumedOnce key s := by
  have hsorted : ((rowsOf key s.sent).map (·.sequence)).Pairwise (· < ·) := by
    have hall : (s.sent.map (·.sequence)).Pairwise (· < ·) := h.numbered ▸ List.pairwise_lt_range
    exact hall.sublist (List.filter_sublist.map _)
  rw [h.accounted, List.map_append] at hsorted
  have hreturned := (List.pairwise_append.mp hsorted).1
  refine ⟨fun row hrow => ?_, hreturned.imp Nat.ne_of_lt, fun row hrow hgone => ?_, hreturned⟩
  · have hmem : row ∈ rowsOf key s.sent := h.accounted ▸ List.mem_append_left _ hrow
    exact (mem_rowsOf.mp hmem).1
  · rw [h.accounted] at hrow
    rcases List.mem_append.mp hrow with hrow | hrow
    · exact (mem_rowsOf.mp hrow).1
    · exact absurd (mem_rowsOf.mp hrow).1 hgone

end Invariant

/-- In every run with the statements on a key apart, its signals are consumed once. -/
theorem signals_consumedOnce (key : Key) (statements : List (Statement P))
    (hapart : Along step (Apart key) {} statements) :
    ConsumedOnce key (run step {} statements) :=
  (hapart.invariant (fun _ _ h happly => h.step happly) (consistent_empty key)).consumedOnce

section Example

def approval : Key := ⟨"exec-1", "approval"⟩

def twoSignals : List (Statement Nat) := [.sendSignal approval 7 1, .sendSignal approval 8 2]

theorem signals_consumedOnce_oneByOne :
    Along step (Apart approval) ({} : Store Nat)
        (twoSignals ++ [.select 0 approval 0, .delete 0 0, .select 1 approval 0, .delete 1 0]) ∧
      ConsumedOnce approval (run step ({} : Store Nat)
        (twoSignals ++ [.select 0 approval 0, .delete 0 0, .select 1 approval 0, .delete 1 0])) :=
  ⟨by decide, signals_consumedOnce approval _ (by decide)⟩

/-- Two calls that select before either deletes return the first signal twice, and the second
signal is deleted by one of them. -/
theorem not_signals_consumedOnce :
    ¬ ∀ (key : Key) (statements : List (Statement Nat)),
      ConsumedOnce key (run step {} statements) := by
  intro hall
  have honce := (hall approval (twoSignals ++ [.select 0 approval 0, .select 1 approval 0,
    .delete 0 0, .delete 1 0])).atMostOnce
  revert honce
  decide

end Example

end Store

end PlexSpaces.Workflow.Signals
