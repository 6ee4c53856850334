import Mathlib.Logic.Function.Basic
import PlexSpaces.Lib.Run
import PlexSpaces.Tuples.Conservation
/-!
# Concurrent takes on one table

`SqlStorage::take` is several statements: a scan, in the blocking case more scans,
and a deletion by id.  Here every statement is one step, and the statements of
any number of calls alternate as they like with each other and with inserts.

A call holds the rows it has selected from its last scan until its deletion.  The
deletion does not look at how many rows it removed, so a row that two calls hold
at once is returned by both (`not_take_exclusive`).  When no scan selects a row
that another call holds, every row is returned at most once
(`take_exclusive_of_noOverlap`).
-/

namespace PlexSpaces.Tuples

open PlexSpaces.Lib

/-- Where a call of `take` stands, named after the statement that comes next. -/
inductive TakePhase
  | scanning
  | polling
  | rescanning
  | deleting (found : List StoredTuple)
  | returned (found : List StoredTuple)
  | failed (error : TupleSpaceError)

structure TakeCall where
  pattern : Pattern
  hasTimeout : Bool
  phase : TakePhase

/-- The table, the ids it has ever had, and the calls.  Row ids are ULIDs and are
not used twice. -/
structure World (ι : Type) where
  table : TupleTable
  used : List String
  calls : ι → TakeCall

inductive Statement (ι : Type)
  | scan (i : ι) (now : Nat)
  | timeUp (i : ι)
  | delete (i : ι)
  | fail (i : ι) (error : TupleSpaceError)
  | insert (row : TupleRow)
  | clear

namespace TakePhase

def afterScan (hasTimeout : Bool) (result : Except TupleSpaceError (List StoredTuple)) :
    TakePhase → TakePhase
  | scanning =>
      match result with
      | .error e => failed e
      | .ok [] => if hasTimeout then polling else returned []
      | .ok found => deleting found
  | polling =>
      match result with
      | .error e => failed e
      | .ok [] => polling
      | .ok _ => rescanning
  | rescanning =>
      match result with
      | .error e => failed e
      | .ok [] => returned []
      | .ok found => deleting found
  | done => done

/-- The ids of the rows that the call holds or has returned. -/
def claims : TakePhase → List String
  | deleting found => found.map (·.id)
  | returned found => found.map (·.id)
  | _ => []

/-- The ids of the rows that the call has returned. -/
def got : TakePhase → List String
  | returned found => found.map (·.id)
  | _ => []

def result : TakePhase → Option (Except TupleSpaceError (List Tuple))
  | returned found => some (.ok (found.map (·.tuple)))
  | failed e => some (.error e)
  | _ => none

theorem got_subset_claims (ph : TakePhase) : ph.got ⊆ ph.claims := by
  cases ph with
  | returned found => exact fun x hx => hx
  | _ => exact fun x hx => nomatch hx

end TakePhase

namespace World

variable {ι : Type} (codec : TupleCodec)

def setPhase [DecidableEq ι] (w : World ι) (i : ι) (phase : TakePhase) : World ι :=
  { w with calls := Function.update w.calls i { w.calls i with phase := phase } }

/-- One statement.  A deletion removes the rows that are still there and the call
returns all it had selected. -/
def step [DecidableEq ι] (w : World ι) : Statement ι → World ι
  | .scan i now =>
      let call := w.calls i
      w.setPhase i (call.phase.afterScan call.hasTimeout
        (SqlStorage.scanTuples codec w.table call.pattern now))
  | .timeUp i =>
      match (w.calls i).phase with
      | .polling => w.setPhase i (.returned [])
      | _ => w
  | .delete i =>
      match (w.calls i).phase with
      | .deleting found =>
          { w with table := w.table.deleteKeys (found.map StoredTuple.id) }.setPhase i
            (.returned found)
      | _ => w
  | .fail i error =>
      match (w.calls i).phase with
      | .returned _ => w
      | .failed _ => w
      | _ => w.setPhase i (.failed error)
  | .insert row =>
      if row.id ∈ w.used then w
      else
        match w.table.insert? row with
        | some table => { w with table := table, used := row.id :: w.used }
        | none => w
  | .clear => { w with table := Table.empty }

def Exclusive (w : World ι) : Prop :=
  ∀ i j, i ≠ j → ∀ x ∈ (w.calls i).phase.got, x ∉ (w.calls j).phase.got

/-- The calls have not started, and the ids in the table count as used. -/
def Initial (w : World ι) : Prop :=
  (∀ i, (w.calls i).phase = .scanning) ∧ ∀ r ∈ w.table.rows, r.id ∈ w.used

/-- A scan whose rows the call is going to delete selects no row that another
call has selected and not yet deleted. -/
def NoOverlap (w : World ι) : Statement ι → Prop
  | .scan i now =>
      let call := w.calls i
      ∀ found, call.phase.afterScan call.hasTimeout
          (SqlStorage.scanTuples codec w.table call.pattern now) = .deleting found →
        ∀ s ∈ found, ∀ j, j ≠ i → ∀ held, (w.calls j).phase = .deleting held →
          s.id ∉ held.map (·.id)
  | _ => True

/-! ## Scans -/

theorem processRows_subset {pattern : Pattern} {rows : List TupleRow}
    {found : List StoredTuple} (h : SqlStorage.processRows codec pattern rows = .ok found) :
    ∀ s ∈ found, s.id ∈ rows.map (·.id) := by
  induction rows generalizing found with
  | nil =>
      cases h
      exact fun s hs => nomatch hs
  | cons row rest ih =>
      unfold SqlStorage.processRows at h
      split at h
      · cases h
      · split at h
        · cases h
        · rename_i hrest
          split_ifs at h
          · cases h
            intro s hs
            rcases List.mem_cons.mp hs with rfl | htail
            · exact List.mem_cons_self
            · exact List.mem_cons_of_mem _ (ih hrest s htail)
          · cases h
            intro s hs
            exact List.mem_cons_of_mem _ (ih hrest s hs)

theorem scanTuples_subset {table : TupleTable} {pattern : Pattern} {now : Nat}
    {found : List StoredTuple}
    (h : SqlStorage.scanTuples codec table pattern now = .ok found) :
    ∀ s ∈ found, s.id ∈ table.rows.map (·.id) := by
  intro s hs
  obtain ⟨r, hr, hid⟩ := List.mem_map.mp (processRows_subset codec h s hs)
  exact List.mem_map.mpr ⟨r, (List.mem_filter.mp hr).1, hid⟩

/-- What a scan can do to a phase: leave a finished call alone, put the call on
hold without claims, or make it hold exactly the rows that were found. -/
theorem afterScan_cases (hasTimeout : Bool)
    (result : Except TupleSpaceError (List StoredTuple)) (ph : TakePhase) :
    ph.afterScan hasTimeout result = ph ∨
      (ph.afterScan hasTimeout result).claims = [] ∨
      ∃ found, result = .ok found ∧ ph.afterScan hasTimeout result = .deleting found := by
  cases ph with
  | deleting held => exact Or.inl rfl
  | returned rows => exact Or.inl rfl
  | failed e => exact Or.inl rfl
  | polling =>
      right
      left
      cases result with
      | error e => rfl
      | ok found =>
          cases found with
          | nil => rfl
          | cons s found => rfl
  | scanning =>
      right
      cases result with
      | error e => exact Or.inl rfl
      | ok found =>
          cases found with
          | nil =>
              left
              simp only [TakePhase.afterScan]
              split_ifs <;> rfl
          | cons s found => exact Or.inr ⟨_, rfl, rfl⟩
  | rescanning =>
      right
      cases result with
      | error e => exact Or.inl rfl
      | ok found =>
          cases found with
          | nil => exact Or.inl rfl
          | cons s found => exact Or.inr ⟨_, rfl, rfl⟩

/-- The statements of one call with nothing in between are the storage's `take`. -/
theorem take_as_statements [DecidableEq ι] (w : World ι) (i : ι) (now : Nat)
    (hphase : (w.calls i).phase = .scanning) (htimeout : (w.calls i).hasTimeout = false) :
    let w' := run (step codec) w [.scan i now, .delete i]
    w'.table = (SqlStorage.take codec w.table (w.calls i).pattern now).2 ∧
      (w'.calls i).phase.result =
        some (SqlStorage.take codec w.table (w.calls i).pattern now).1 := by
  simp only [run_cons, run_nil, step, setPhase, hphase, htimeout, Function.update_self]
  unfold SqlStorage.take
  cases SqlStorage.scanTuples codec w.table (w.calls i).pattern now with
  | error e => simp [TakePhase.afterScan, TakePhase.result]
  | ok found =>
      cases found with
      | nil => simp [TakePhase.afterScan, TakePhase.result]
      | cons s found => simp [TakePhase.afterScan, TakePhase.result]

/-! ## The invariant -/

structure Inv (w : World ι) : Prop where
  disjoint : ∀ i j, i ≠ j → ∀ x ∈ (w.calls i).phase.claims, x ∉ (w.calls j).phase.claims
  gone : ∀ i, ∀ x ∈ (w.calls i).phase.got, x ∉ w.table.rows.map (·.id)
  seen : ∀ i, ∀ x ∈ (w.calls i).phase.claims, x ∈ w.used
  stored : ∀ x ∈ w.table.rows.map (·.id), x ∈ w.used

theorem Inv.exclusive {w : World ι} (h : Inv w) : Exclusive w := by
  intro i j hij x hi hj
  exact h.disjoint i j hij x (TakePhase.got_subset_claims _ hi)
    (TakePhase.got_subset_claims _ hj)

theorem Initial.inv {w : World ι} (h : Initial w) : Inv w := by
  have hnone : ∀ i, (w.calls i).phase.claims = [] := by
    intro i
    rw [h.1 i]
    rfl
  refine ⟨?_, ?_, ?_, ?_⟩
  · intro i j _ x hx
    rw [hnone i] at hx
    cases hx
  · intro i x hx
    have hclaim := TakePhase.got_subset_claims _ hx
    rw [hnone i] at hclaim
    cases hclaim
  · intro i x hx
    rw [hnone i] at hx
    cases hx
  · intro x hx
    obtain ⟨r, hr, rfl⟩ := List.mem_map.mp hx
    exact h.2 r hr

theorem Inv.shrink {w : World ι} (h : Inv w) {table : TupleTable}
    (hsub : ∀ x ∈ table.rows.map (·.id), x ∈ w.table.rows.map (·.id)) :
    Inv { w with table := table } :=
  ⟨h.disjoint, fun i x hx hmem => h.gone i x hx (hsub x hmem), h.seen,
    fun x hx => h.stored x (hsub x hx)⟩

variable [DecidableEq ι]

/-- Give one call a new phase: its claims must be used ids that no other call
claims, and what it has returned must have left the table. -/
theorem Inv.setPhase {w : World ι} (h : Inv w) (i : ι) {phase : TakePhase}
    (hothers : ∀ j, j ≠ i → ∀ x ∈ phase.claims, x ∉ (w.calls j).phase.claims)
    (hgone : ∀ x ∈ phase.got, x ∉ w.table.rows.map (·.id))
    (hseen : ∀ x ∈ phase.claims, x ∈ w.used) : Inv (w.setPhase i phase) := by
  have hself : ((w.setPhase i phase).calls i).phase = phase := by
    simp [World.setPhase]
  have hother : ∀ j, j ≠ i → ((w.setPhase i phase).calls j).phase = (w.calls j).phase := by
    intro j hj
    simp [World.setPhase, Function.update_of_ne hj]
  refine ⟨?_, ?_, ?_, h.stored⟩
  · intro j k hjk x hx
    by_cases hj : j = i
    · subst hj
      rw [hself] at hx
      rw [hother k (Ne.symm hjk)]
      exact hothers k (Ne.symm hjk) x hx
    · rw [hother j hj] at hx
      by_cases hk : k = i
      · subst hk
        rw [hself]
        exact fun hx' => hothers j hj x hx' hx
      · rw [hother k hk]
        exact h.disjoint j k hjk x hx
  · intro j x hx
    by_cases hj : j = i
    · subst hj
      rw [hself] at hx
      exact hgone x hx
    · rw [hother j hj] at hx
      exact h.gone j x hx
  · intro j x hx
    by_cases hj : j = i
    · subst hj
      rw [hself] at hx
      exact hseen x hx
    · rw [hother j hj] at hx
      exact h.seen j x hx

theorem Inv.setPhase_of_no_claims {w : World ι} (h : Inv w) (i : ι) {phase : TakePhase}
    (hnone : phase.claims = []) : Inv (w.setPhase i phase) := by
  apply h.setPhase i
  · rw [hnone]
    exact fun _ _ x hx => nomatch hx
  · intro x hx
    have hclaim := TakePhase.got_subset_claims _ hx
    rw [hnone] at hclaim
    cases hclaim
  · rw [hnone]
    exact fun x hx => nomatch hx

theorem Inv.scan {w : World ι} (h : Inv w) (i : ι) (now : Nat)
    (hover : NoOverlap codec w (.scan i now)) : Inv (step codec w (.scan i now)) := by
  rcases afterScan_cases (w.calls i).hasTimeout
      (SqlStorage.scanTuples codec w.table (w.calls i).pattern now) (w.calls i).phase with
    hsame | hnone | ⟨found, hresult, hdeleting⟩
  · change Inv (w.setPhase i _)
    rw [hsame]
    exact h.setPhase i (fun j hj x hx => h.disjoint i j (Ne.symm hj) x hx) (h.gone i) (h.seen i)
  · exact h.setPhase_of_no_claims i hnone
  · have hin := scanTuples_subset codec hresult
    change Inv (w.setPhase i _)
    rw [hdeleting]
    apply h.setPhase i
    · intro j hj x hx hclaim
      obtain ⟨s, hs, rfl⟩ := List.mem_map.mp hx
      cases hph : (w.calls j).phase with
      | deleting held =>
          rw [hph] at hclaim
          exact hover found hdeleting s hs j hj held hph hclaim
      | returned rows =>
          have hgot : s.id ∈ (w.calls j).phase.got := by
            rw [hph] at hclaim ⊢
            exact hclaim
          exact h.gone j s.id hgot (hin s hs)
      | scanning =>
          rw [hph] at hclaim
          cases hclaim
      | polling =>
          rw [hph] at hclaim
          cases hclaim
      | rescanning =>
          rw [hph] at hclaim
          cases hclaim
      | failed e =>
          rw [hph] at hclaim
          cases hclaim
    · exact fun x hx => nomatch hx
    · intro x hx
      obtain ⟨s, hs, rfl⟩ := List.mem_map.mp hx
      exact h.stored _ (hin s hs)

theorem Inv.delete {w : World ι} (h : Inv w) (i : ι) : Inv (step codec w (.delete i)) := by
  simp only [step]
  split
  · rename_i found hph
    have hclaims : (w.calls i).phase.claims = found.map (·.id) := by
      rw [hph]
      rfl
    have hsub : ∀ x ∈ (w.table.deleteKeys (found.map StoredTuple.id)).rows.map (·.id),
        x ∈ w.table.rows.map (·.id) := by
      intro x hx
      obtain ⟨r, hr, rfl⟩ := List.mem_map.mp hx
      exact List.mem_map_of_mem (Table.mem_deleteKeys.mp hr).1
    apply (h.shrink hsub).setPhase i
    · intro j hj x hx
      exact h.disjoint i j (Ne.symm hj) x (by rw [hclaims]; exact hx)
    · intro x hx hmem
      obtain ⟨r, hr, rfl⟩ := List.mem_map.mp hmem
      exact (Table.mem_deleteKeys.mp hr).2 hx
    · intro x hx
      exact h.seen i x (by rw [hclaims]; exact hx)
  · exact h

theorem Inv.insert {w : World ι} (h : Inv w) (row : TupleRow) :
    Inv (step codec w (.insert row)) := by
  simp only [step]
  split_ifs with hused
  · exact h
  · split
    · rename_i table hinsert
      have hrows := Table.rows_of_insert? hinsert
      refine ⟨h.disjoint, ?_, ?_, ?_⟩
      · intro j x hx hmem
        rw [hrows, List.map_append, List.mem_append] at hmem
        rcases hmem with hold | hnew
        · exact h.gone j x hx hold
        · rw [List.map_singleton, List.mem_singleton] at hnew
          exact hused (hnew ▸ h.seen j x (TakePhase.got_subset_claims _ hx))
      · intro j x hx
        exact List.mem_cons_of_mem _ (h.seen j x hx)
      · intro x hx
        rw [hrows, List.map_append, List.mem_append] at hx
        rcases hx with hold | hnew
        · exact List.mem_cons_of_mem _ (h.stored x hold)
        · rw [List.map_singleton, List.mem_singleton] at hnew
          rw [hnew]
          exact List.mem_cons_self
    · exact h

theorem Inv.step {w : World ι} (h : Inv w) {a : Statement ι} (ha : NoOverlap codec w a) :
    Inv (World.step codec w a) := by
  cases a with
  | scan i now => exact h.scan codec i now ha
  | delete i => exact h.delete codec i
  | insert row => exact h.insert codec row
  | clear => exact h.shrink (fun x hx => nomatch hx)
  | timeUp i =>
      simp only [World.step]
      split
      · exact h.setPhase_of_no_claims i rfl
      · exact h
  | fail i e =>
      simp only [World.step]
      split
      · exact h
      · exact h
      · exact h.setPhase_of_no_claims i rfl

/-- In every run in which no scan selects a row that another call holds, every
row is returned by at most one call. -/
theorem take_exclusive_of_noOverlap (w : World ι) (hinit : Initial w)
    (statements : List (Statement ι))
    (hrun : Along (World.step codec) (NoOverlap codec) w statements) :
    Exclusive (run (World.step codec) w statements) :=
  (hrun.invariant (fun _ _ h ha => h.step codec ha) hinit.inv).exclusive

/-- One ticket in the table and two calls that want it. -/
def oneTicket : World Bool where
  table := ⟨[SqlStorage.rowFor History.ticket.1 "ticket" "row-1" 0], by decide⟩
  used := ["row-1"]
  calls := fun _ => ⟨⟨[.wildcard]⟩, false, .scanning⟩

theorem oneTicket_initial : Initial oneTicket :=
  ⟨fun _ => rfl, by decide⟩

/-- One call after the other. -/
theorem take_exclusive_of_noOverlap_sequential :
    Exclusive (run (World.step History.ticketCodec) oneTicket
      [.scan false 1, .delete false, .scan true 2]) := by
  apply take_exclusive_of_noOverlap History.ticketCodec oneTicket oneTicket_initial
  refine ⟨?_, trivial, ?_, trivial⟩
  · intro found _ s _ j _ held hheld
    cases hheld
  · intro found _ s _ j hj held hheld
    have hreturned : j = false := by simpa using hj
    subst hreturned
    cases hheld

/-- Both calls select the row before either deletes it, and both return it. -/
theorem not_take_exclusive :
    ¬ ∀ (codec : TupleCodec) (ι : Type) (_ : DecidableEq ι) (w : World ι), Initial w →
      ∀ statements, Exclusive (run (World.step codec) w statements) := by
  intro hclaim
  have hexclusive := hclaim History.ticketCodec Bool inferInstance oneTicket oneTicket_initial
    [.scan false 1, .scan true 1, .delete false, .delete true]
  exact hexclusive false true (by decide) "row-1" (by decide) (by decide)

end World

end PlexSpaces.Tuples
