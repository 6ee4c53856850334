import Mathlib.Logic.Function.Basic
import PlexSpaces.Lib.Run
import PlexSpaces.Lib.Table
import PlexSpaces.Mailbox.IdempotencyStore
/-!
# Claims in the SQLite idempotency store

A call is a sequence of SQL statements, and the statements of different calls interleave.
`check_and_record` reads the clock, inserts a row unless there is one, reads the row that
was there, and takes an expired row over if it is still the one it has read.

The takeover writes the state `complete`, so until the claimant has completed its record
the other callers get `Duplicate` (`not_exclusive_claims`); a row that goes between two
statements is taken for a first claim that no row keeps; and a late `complete_record`
completes the record of whoever has claimed the key since.  Runs in which none of this
happens are exclusive (`claims_exclusive`).
-/

namespace PlexSpaces.Mailbox

open PlexSpaces.Lib

inductive EntryStatus
  | inFlight
  | complete
  deriving DecidableEq

/-- A row of `idempotency_entries`. -/
structure IdempotencyEntry where
  tenantId : String
  nsName : String
  idempotencyKey : String
  state : EntryStatus
  response : Option Bytes
  createdAt : Nat
  expiresAt : Nat

abbrev EntryKey := String × String × String

/-- `PRIMARY KEY (tenant_id, namespace, idempotency_key)`. -/
def IdempotencyEntry.key (e : IdempotencyEntry) : EntryKey :=
  (e.tenantId, e.nsName, e.idempotencyKey)

abbrev IdempotencyTable := Table IdempotencyEntry IdempotencyEntry.key

namespace IdempotencyTable

/-- `INSERT OR IGNORE`; whether a row was inserted. -/
def insertOrIgnore (db : IdempotencyTable) (k : EntryKey) (now expiresAt : Nat) :
    Bool × IdempotencyTable :=
  match db.insert? ⟨k.1, k.2.1, k.2.2, .inFlight, none, now, expiresAt⟩ with
  | some db => (true, db)
  | none => (false, db)

/-- `UPDATE .. SET state = 'complete', .. WHERE .. AND expires_at = ?`; whether a row was
updated. -/
def claimExpired (db : IdempotencyTable) (k : EntryKey) (now expiresAt observed : Nat) :
    Bool × IdempotencyTable :=
  match db.find k with
  | some e =>
      if e.expiresAt = observed then
        (true, db.update k (fun e =>
          { e with
            state := .complete
            response := none
            createdAt := now
            expiresAt := expiresAt }) fun _ => rfl)
      else (false, db)
  | none => (false, db)

/-- The `UPDATE` of `complete_record`. -/
def complete (db : IdempotencyTable) (k : EntryKey) (response : Option Bytes)
    (expiresAt : Nat) : IdempotencyTable :=
  db.update k (fun e =>
    { e with state := .complete, response := response, expiresAt := expiresAt }) fun _ => rfl

/-- `DELETE FROM idempotency_entries WHERE expires_at < ?`. -/
def deleteExpired (db : IdempotencyTable) (now : Nat) : IdempotencyTable :=
  db.deleteWhere fun e => decide (e.expiresAt < now)

end IdempotencyTable

namespace IdempotencyTable

variable {db : IdempotencyTable} {k : EntryKey} {now expiresAt : Nat}

theorem insertOrIgnore_of_none (h : db.find k = none) (now expiresAt : Nat) :
    ∃ db', db.insertOrIgnore k now expiresAt = (true, db') ∧
      db'.find k = some ⟨k.1, k.2.1, k.2.2, .inFlight, none, now, expiresAt⟩ := by
  unfold insertOrIgnore
  cases hinsert : db.insert? ⟨k.1, k.2.1, k.2.2, .inFlight, none, now, expiresAt⟩ with
  | none =>
      obtain ⟨e, he⟩ := Table.mem_map_key_iff.mp (Table.insert?_eq_none_iff.mp hinsert)
      have hkey : db.find k = some e := he
      rw [h] at hkey
      cases hkey
  | some db' =>
      refine ⟨db', rfl, ?_⟩
      rw [Table.find_insert? hinsert k]
      exact if_pos rfl

theorem insertOrIgnore_of_some {e : IdempotencyEntry} (h : db.find k = some e) :
    db.insertOrIgnore k now expiresAt = (false, db) := by
  have hinsert : db.insert? ⟨k.1, k.2.1, k.2.2, .inFlight, none, now, expiresAt⟩ = none :=
    Table.insert?_eq_none_iff.mpr (Table.mem_map_key_iff.mpr ⟨e, h⟩)
  rw [insertOrIgnore, hinsert]

theorem claimExpired_of_ne {observed : Nat} (h : ∀ e ∈ db.find k, e.expiresAt ≠ observed) :
    db.claimExpired k now expiresAt observed = (false, db) := by
  unfold claimExpired
  cases hfind : db.find k with
  | none => rfl
  | some e => exact if_neg (h e hfind)

theorem find_complete (response : Option Bytes) :
    (db.complete k response expiresAt).find k = (db.find k).map fun e =>
      { e with state := .complete, response := response, expiresAt := expiresAt } :=
  (Table.find_update db k _ _ k).trans (if_pos rfl)

theorem find_deleteExpired :
    (db.deleteExpired now).find k = (db.find k).filter fun e => !decide (e.expiresAt < now) :=
  Table.find_deleteWhere db _ k

end IdempotencyTable

/-- The answer that the state of a row gives. -/
def IdempotencyEntry.outcome (e : IdempotencyEntry) : IdempotencyOutcome :=
  match e.state with
  | .complete => .duplicate e.response
  | .inFlight => .inFlight

/-- The next statement of a call, with what the call carries; `now` was read at its start. -/
inductive Statement
  | insert (now : Nat)
  | select (now : Nat)
  | claim (now exp : Nat)
  | reselect (now : Nat)
  | complete (now : Nat) (response : Option Bytes)
  | cleanup (now : Nat)
  deriving DecidableEq

/-- What a call does after a statement. -/
inductive Reply
  | goOn (next : Statement)
  | answer (outcome : IdempotencyOutcome)
  | done

namespace Statement

def now : Statement → Nat
  | .insert now | .select now | .claim now _ | .reselect now | .complete now _
  | .cleanup now => now

/-- A statement of a call on the key `k`, and the code that follows it. -/
def execute (ttl : Nat) (k : EntryKey) (db : IdempotencyTable) :
    Statement → Reply × IdempotencyTable
  | .insert now =>
      match db.insertOrIgnore k now (now + ttl) with
      | (true, db) => (.answer .firstSeen, db)
      | (false, db) => (.goOn (.select now), db)
  | .select now =>
      match db.find k with
      | none => (.answer .firstSeen, db)
      | some e =>
          if e.expiresAt < now then (.goOn (.claim now e.expiresAt), db)
          else (.answer e.outcome, db)
  | .claim now exp =>
      match db.claimExpired k now (now + ttl) exp with
      | (true, db) => (.answer .firstSeen, db)
      | (false, db) => (.goOn (.reselect now), db)
  | .reselect _ =>
      match db.find k with
      | none => (.answer .firstSeen, db)
      | some e => (.answer e.outcome, db)
  | .complete now response => (.done, db.complete k response (now + ttl))
  | .cleanup now => (.done, db.deleteExpired now)

end Statement

/-- A first-seen answer: who got it, the clock that the call had read, the clock at the
answer, when the record expires, and whether the claimant has completed it. -/
structure Claim (ι : Type) where
  caller : ι
  now : Nat
  time : Nat
  expiresAt : Nat
  completed : Bool

/-- The table with the callers `ι`, each in at most one call, the clock, the claims and the
answers so far, newest first. -/
structure Callers (ι : Type) where
  db : IdempotencyTable
  next : ι → Option Statement
  clock : Nat
  claims : List (Claim ι)
  answers : List (ι × IdempotencyOutcome)

inductive CallerEvent (ι : Type)
  | pass (elapsed : Nat)
  | checkAndRecord (i : ι)
  | completeRecord (i : ι) (response : Option Bytes)
  | cleanupExpired (i : ι)
  | execute (i : ι)
  | fail (i : ι)

/-- The claimant of the newest claim completes its record: the claim is completed, and the
record lives on if it is still there. -/
def completeClaim {ι : Type} [DecidableEq ι] (i : ι) (expiresAt : Nat) (present : Bool) :
    List (Claim ι) → List (Claim ι)
  | [] => []
  | c :: rest =>
      if c.caller = i then
        { c with
          completed := true
          expiresAt := if present then expiresAt else c.expiresAt } :: rest
      else c :: rest

/-- The claims stay with their callers and the times of their calls; without a record they do
not live longer. -/
theorem exists_of_mem_completeClaim {ι : Type} [DecidableEq ι] {i : ι} {expiresAt : Nat}
    {present : Bool} {claims : List (Claim ι)} {c : Claim ι}
    (hc : c ∈ completeClaim i expiresAt present claims) :
    ∃ c₀ ∈ claims, c.caller = c₀.caller ∧ c.now = c₀.now ∧
      (present = false → c.expiresAt = c₀.expiresAt) := by
  cases claims with
  | nil => cases hc
  | cons first rest =>
      rw [completeClaim] at hc
      by_cases hcaller : first.caller = i
      · rw [if_pos hcaller] at hc
        rcases List.mem_cons.mp hc with rfl | hc
        · refine ⟨first, List.mem_cons_self, rfl, rfl, ?_⟩
          rintro rfl
          rfl
        · exact ⟨c, List.mem_cons_of_mem _ hc, rfl, rfl, fun _ => rfl⟩
      · rw [if_neg hcaller] at hc
        exact ⟨c, hc, rfl, rfl, fun _ => rfl⟩

namespace Callers

variable {ι : Type} [DecidableEq ι] (ttl : Nat) (k : EntryKey)

def start (clock : Nat) : Callers ι := ⟨Table.empty, fun _ => none, clock, [], []⟩

def begin (s : Callers ι) (i : ι) (statement : Statement) : Callers ι :=
  match s.next i with
  | none => { s with next := Function.update s.next i (some statement) }
  | some _ => s

def claimsAfter (s : Callers ι) (i : ι) (statement : Statement) : Reply → List (Claim ι)
  | .answer .firstSeen =>
      ⟨i, statement.now, s.clock, statement.now + ttl, false⟩ :: s.claims
  | .done =>
      match statement with
      | .complete now _ => completeClaim i (now + ttl) (s.db.find k).isSome s.claims
      | _ => s.claims
  | _ => s.claims

def step (s : Callers ι) : CallerEvent ι → Callers ι
  | .pass elapsed => { s with clock := s.clock + elapsed }
  | .checkAndRecord i => s.begin i (.insert s.clock)
  | .completeRecord i response => s.begin i (.complete s.clock response)
  | .cleanupExpired i => s.begin i (.cleanup s.clock)
  | .execute i =>
      match s.next i with
      | none => s
      | some statement =>
          let (reply, db) := statement.execute ttl k s.db
          { s with
            db := db
            next := Function.update s.next i
              (match reply with
                | .goOn next => some next
                | _ => none)
            claims := s.claimsAfter ttl k i statement reply
            answers :=
              match reply with
              | .answer outcome => (i, outcome) :: s.answers
              | _ => s.answers }
  | .fail i => { s with next := Function.update s.next i none }

/-- An answer that a step gives is right: a first-seen answer comes when every record of an
earlier claim has expired; and as long as the newest record lives and its claimant has not
completed it, the answer is `InFlight`. -/
def RightAnswer (s : Callers ι) (e : CallerEvent ι) : Prop :=
  ∀ i outcome, (s.step ttl k e).answers = (i, outcome) :: s.answers →
    (outcome = .firstSeen → ∀ c ∈ s.claims, c.now + ttl < s.clock ∧ c.expiresAt < s.clock) ∧
    ∀ c ∈ s.claims.head?, c.completed = false → s.clock ≤ c.expiresAt → outcome = .inFlight

/-- A caller that reads the row finds one, an expired row is not taken over, and a record is
completed by the caller that has claimed it last. -/
def Orderly (s : Callers ι) : CallerEvent ι → Prop
  | .execute i =>
      match s.next i with
      | some (.select _) | some (.reselect _) => (s.db.find k).isSome = true
      | some (.claim _ exp) => ∀ e ∈ s.db.find k, e.expiresAt ≠ exp
      | some (.complete _ _) => ∀ c ∈ s.claims.head?, c.caller = i
      | _ => True
  | _ => True

/-- The row belongs to the newest claim, and all other claims have expired. -/
structure Exclusive (s : Callers ι) : Prop where
  gone : s.db.find k = none → ∀ c ∈ s.claims, c.expiresAt < s.clock
  held : ∀ e, s.db.find k = some e → ∃ c rest, s.claims = c :: rest ∧
    e.expiresAt = c.expiresAt ∧ (e.state = .complete → c.completed = true) ∧
    ∀ c' ∈ rest, c'.expiresAt < s.clock
  lives : ∀ c ∈ s.claims, c.now + ttl ≤ c.expiresAt
  past : ∀ c ∈ s.claims, c.now ≤ s.clock
  started : ∀ i statement, s.next i = some statement → statement.now ≤ s.clock
  pending : ∀ i now response, s.next i = some (.complete now response) →
    ∀ c ∈ s.claims, c.caller = i → c.now ≤ now

section Step

variable {ttl k} {s : Callers ι}

omit [DecidableEq ι] in
theorem exclusive_start (clock : Nat) : (start clock : Callers ι).Exclusive ttl k := by
  refine ⟨?_, ?_, ?_, ?_, ?_, ?_⟩
  · intro _ c hc
    cases hc
  · intro e he
    cases he
  · intro c hc
    cases hc
  · intro c hc
    cases hc
  · intro i statement hnext
    cases hnext
  · intro i now response hnext
    cases hnext

/-- A call that goes on or ends, without a change of the table. -/
theorem Exclusive.goOn (h : s.Exclusive ttl k) (i : ι) (next : Option Statement)
    (hnow : ∀ statement ∈ next, statement.now ≤ s.clock)
    (hpending : ∀ now response, next = some (.complete now response) →
      ∀ c ∈ s.claims, c.caller = i → c.now ≤ now)
    (answers : List (ι × IdempotencyOutcome)) :
    ({ s with next := Function.update s.next i next, answers := answers } :
      Callers ι).Exclusive ttl k := by
  refine ⟨h.gone, h.held, h.lives, h.past, ?_, ?_⟩
  · intro j statement hnext
    by_cases hj : j = i
    · subst hj
      exact hnow statement (by simpa using hnext)
    · exact h.started j statement (by simpa [hj] using hnext)
  · intro j now response hnext
    by_cases hj : j = i
    · subst hj
      exact hpending now response (by simpa using hnext)
    · exact h.pending j now response (by simpa [hj] using hnext)

theorem answers_begin (s : Callers ι) (i : ι) (statement : Statement) :
    (s.begin i statement).answers = s.answers := by
  unfold Callers.begin
  split
  · rfl
  · rfl

theorem Exclusive.begin (h : s.Exclusive ttl k) (i : ι) {statement : Statement}
    (hnow : statement.now = s.clock) : (s.begin i statement).Exclusive ttl k := by
  unfold Callers.begin
  cases hnext : s.next i with
  | some other => exact h
  | none =>
      refine h.goOn i (some statement) ?_ ?_ s.answers
      · intro statement' hst
        cases hst
        exact hnow.le
      · intro now response hst c hc _
        cases hst
        exact (h.past c hc).trans hnow.ge

omit [DecidableEq ι] in
theorem Exclusive.pass (h : s.Exclusive ttl k) (elapsed : Nat) :
    ({ s with clock := s.clock + elapsed } : Callers ι).Exclusive ttl k := by
  have hle : s.clock ≤ s.clock + elapsed := Nat.le_add_right _ _
  refine ⟨?_, ?_, h.lives, ?_, ?_, h.pending⟩
  · intro hnone c hc
    exact (h.gone hnone c hc).trans_le hle
  · intro e he
    obtain ⟨c, rest, hclaims, hexp, hstate, hrest⟩ := h.held e he
    exact ⟨c, rest, hclaims, hexp, hstate, fun c' hc' => (hrest c' hc').trans_le hle⟩
  · intro c hc
    exact (h.past c hc).trans hle
  · intro i statement hnext
    exact (h.started i statement hnext).trans hle

/-- When a call ends, the other calls stay where they are. -/
theorem next_of_ended {i j : ι} {statement : Statement}
    (hj : Function.update s.next i none j = some statement) :
    j ≠ i ∧ s.next j = some statement := by
  by_cases hji : j = i
  · subst hji
    simp at hj
  · exact ⟨hji, by simpa [hji] using hj⟩

theorem Exclusive.claimed (h : s.Exclusive ttl k) {i : ι} {now : Nat} {db : IdempotencyTable}
    (hnext : s.next i = some (.insert now)) (hnone : s.db.find k = none)
    (hfind : db.find k = some ⟨k.1, k.2.1, k.2.2, .inFlight, none, now, now + ttl⟩)
    (answers : List (ι × IdempotencyOutcome)) :
    ({ s with
      db := db
      next := Function.update s.next i none
      claims := ⟨i, now, s.clock, now + ttl, false⟩ :: s.claims
      answers := answers } : Callers ι).Exclusive ttl k := by
  refine ⟨?_, ?_, ?_, ?_, ?_, ?_⟩
  · intro hdb
    rw [hfind] at hdb
    cases hdb
  · intro e he
    rw [hfind] at he
    cases he
    refine ⟨_, _, rfl, rfl, ?_, h.gone hnone⟩
    intro hstate
    cases hstate
  · intro c hc
    rcases List.mem_cons.mp hc with rfl | hc
    · exact le_rfl
    · exact h.lives c hc
  · intro c hc
    rcases List.mem_cons.mp hc with rfl | hc
    · exact h.started i _ hnext
    · exact h.past c hc
  · intro j statement hj
    exact h.started j statement (next_of_ended hj).2
  · intro j now' response hj c hc hcaller
    obtain ⟨hne, hj⟩ := next_of_ended hj
    rcases List.mem_cons.mp hc with rfl | hc
    · exact absurd hcaller.symm hne
    · exact h.pending j now' response hj c hc hcaller

theorem Exclusive.completed (h : s.Exclusive ttl k) {i : ι} {now : Nat}
    {response : Option Bytes} (hnext : s.next i = some (.complete now response))
    (hclaimant : ∀ c ∈ s.claims.head?, c.caller = i) :
    ({ s with
      db := s.db.complete k response (now + ttl)
      next := Function.update s.next i none
      claims := completeClaim i (now + ttl) (s.db.find k).isSome s.claims } :
      Callers ι).Exclusive ttl k := by
  have hstarted : ∀ j statement, Function.update s.next i none j = some statement →
      statement.now ≤ s.clock := fun j statement hj => h.started j statement (next_of_ended hj).2
  have hpast : ∀ c ∈ completeClaim i (now + ttl) (s.db.find k).isSome s.claims,
      c.now ≤ s.clock := by
    intro c hc
    obtain ⟨c₀, hc₀, -, hsame, -⟩ := exists_of_mem_completeClaim hc
    rw [hsame]
    exact h.past c₀ hc₀
  have hpending : ∀ j now' response', Function.update s.next i none j =
      some (.complete now' response') →
      ∀ c ∈ completeClaim i (now + ttl) (s.db.find k).isSome s.claims,
        c.caller = j → c.now ≤ now' := by
    intro j now' response' hj c hc hcaller
    obtain ⟨c₀, hc₀, hsame, hnow, -⟩ := exists_of_mem_completeClaim hc
    rw [hnow]
    exact h.pending j now' response' (next_of_ended hj).2 c₀ hc₀ (hsame ▸ hcaller)
  cases hfind : s.db.find k with
  | none =>
      -- the row is gone, and completing the claim does not bring it back
      rw [hfind] at hpast hpending
      refine ⟨?_, ?_, ?_, hpast, hstarted, hpending⟩
      · intro _ c hc
        obtain ⟨c₀, hc₀, -, -, hexpires⟩ := exists_of_mem_completeClaim hc
        rw [hexpires rfl]
        exact h.gone hfind c₀ hc₀
      · intro e he
        rw [IdempotencyTable.find_complete, hfind] at he
        cases he
      · intro c hc
        obtain ⟨c₀, hc₀, -, hnow, hexpires⟩ := exists_of_mem_completeClaim hc
        rw [hnow, hexpires rfl]
        exact h.lives c₀ hc₀
  | some e =>
      obtain ⟨c, rest, hclaims, -, -, hexpired⟩ := h.held e hfind
      have hc : c ∈ s.claims := by
        rw [hclaims]
        exact List.mem_cons_self
      have hcaller : c.caller = i := hclaimant c (by rw [hclaims]; rfl)
      have hcomplete : completeClaim i (now + ttl) true s.claims =
          { c with completed := true, expiresAt := now + ttl } :: rest := by
        rw [hclaims, completeClaim, if_pos hcaller]
        rfl
      rw [hfind, Option.isSome_some, hcomplete] at hpast hpending
      rw [Option.isSome_some, hcomplete]
      refine ⟨?_, ?_, ?_, hpast, hstarted, hpending⟩
      · intro hnone
        rw [IdempotencyTable.find_complete, hfind] at hnone
        cases hnone
      · intro e' he'
        rw [IdempotencyTable.find_complete, hfind] at he'
        cases he'
        exact ⟨_, _, rfl, rfl, fun _ => rfl, hexpired⟩
      · intro c' hc'
        rcases List.mem_cons.mp hc' with rfl | hc'
        · exact Nat.add_le_add_right (h.pending i now response hnext c hc hcaller) ttl
        · exact h.lives c' (by rw [hclaims]; exact List.mem_cons_of_mem _ hc')

theorem Exclusive.cleaned (h : s.Exclusive ttl k) {i : ι} {now : Nat}
    (hnext : s.next i = some (.cleanup now)) :
    ({ s with
      db := s.db.deleteExpired now
      next := Function.update s.next i none } : Callers ι).Exclusive ttl k := by
  have hnow : now ≤ s.clock := h.started i _ hnext
  refine ⟨?_, ?_, h.lives, h.past, fun j statement hj => h.started j statement
    (next_of_ended hj).2, fun j now' response hj => h.pending j now' response
    (next_of_ended hj).2⟩
  · intro hnone c hc
    rw [IdempotencyTable.find_deleteExpired] at hnone
    cases hfind : s.db.find k with
    | none => exact h.gone hfind c hc
    | some e =>
        have hold : e.expiresAt < now := by
          by_contra hlive
          rw [hfind, Option.filter_some, if_pos (by simpa using hlive)] at hnone
          cases hnone
        obtain ⟨c₀, rest, hclaims, hexp, -, hrest⟩ := h.held e hfind
        rw [hclaims] at hc
        rcases List.mem_cons.mp hc with rfl | hc
        · rw [← hexp]
          exact hold.trans_le hnow
        · exact hrest c hc
  · intro e he
    rw [IdempotencyTable.find_deleteExpired] at he
    exact h.held e (Option.eq_some_of_filter_eq_some he)

omit [DecidableEq ι] in
theorem Exclusive.outcome_eq (h : s.Exclusive ttl k) {e : IdempotencyEntry}
    (hfind : s.db.find k = some e) :
    e.outcome ≠ .firstSeen ∧ ∀ c ∈ s.claims.head?, c.completed = false → e.outcome = .inFlight := by
  obtain ⟨c, rest, hclaims, -, hstate, -⟩ := h.held e hfind
  unfold IdempotencyEntry.outcome
  cases hcomplete : e.state with
  | complete =>
      refine ⟨by simp, ?_⟩
      intro c' hc' hnot
      rw [hclaims] at hc'
      cases hc'
      rw [hstate hcomplete] at hnot
      cases hnot
  | inFlight => exact ⟨by simp, fun _ _ _ => rfl⟩

theorem rightAnswer_of_silent {e : CallerEvent ι}
    (h : (s.step ttl k e).answers = s.answers) : s.RightAnswer ttl k e := by
  intro i outcome hanswer
  rw [h] at hanswer
  exact absurd hanswer (List.cons_ne_self _ _).symm

/-- A call that answers from the row is right, and ends. -/
theorem Exclusive.answered (h : s.Exclusive ttl k) {i : ι} {statement : Statement}
    {e : IdempotencyEntry} (hnext : s.next i = some statement) (hfind : s.db.find k = some e)
    (hexecute : statement.execute ttl k s.db = (.answer e.outcome, s.db)) :
    s.RightAnswer ttl k (.execute i) ∧ (s.step ttl k (.execute i)).Exclusive ttl k := by
  obtain ⟨hfirst, hflight⟩ := h.outcome_eq hfind
  have hclaims : s.claimsAfter ttl k i statement (.answer e.outcome) = s.claims := by
    cases houtcome : e.outcome with
    | firstSeen => exact absurd houtcome hfirst
    | _ => rfl
  have hstep : s.step ttl k (.execute i) =
      { s with
        next := Function.update s.next i none
        answers := (i, e.outcome) :: s.answers } := by
    simp only [step, hnext, hexecute, hclaims]
  rw [RightAnswer, hstep]
  constructor
  · intro j outcome hanswer
    cases (List.cons.inj hanswer).1
    exact ⟨fun heq => absurd heq hfirst, fun c hc hnot _ => hflight c hc hnot⟩
  · exact h.goOn i none (fun _ hst => by cases hst) (fun _ _ hst => by cases hst) _

theorem Exclusive.wentOn (h : s.Exclusive ttl k) {i : ι} {statement : Statement}
    (next : Statement) (hnext : s.next i = some statement) (hsame : next.now = statement.now)
    (hcheck : ∀ now response, next ≠ .complete now response)
    (hexecute : statement.execute ttl k s.db = (.goOn next, s.db)) :
    s.RightAnswer ttl k (.execute i) ∧ (s.step ttl k (.execute i)).Exclusive ttl k := by
  have hstep : s.step ttl k (.execute i) =
      { s with next := Function.update s.next i (some next) } := by
    simp only [step, hnext, hexecute]
    rfl
  refine ⟨rightAnswer_of_silent (by rw [hstep]), ?_⟩
  rw [hstep]
  refine h.goOn i (some next) ?_ ?_ s.answers
  · intro statement' hst
    cases hst
    rw [hsame]
    exact h.started i statement hnext
  · intro now response hst
    exact absurd (Option.some.inj hst) (hcheck now response)

theorem Exclusive.inserted (h : s.Exclusive ttl k) {i : ι} {now : Nat}
    (hnext : s.next i = some (.insert now)) (hfind : s.db.find k = none) :
    s.RightAnswer ttl k (.execute i) ∧ (s.step ttl k (.execute i)).Exclusive ttl k := by
  obtain ⟨db, hinsert, hrow⟩ := IdempotencyTable.insertOrIgnore_of_none hfind now (now + ttl)
  have hstep : s.step ttl k (.execute i) =
      { s with
        db := db
        next := Function.update s.next i none
        claims := ⟨i, now, s.clock, now + ttl, false⟩ :: s.claims
        answers := (i, .firstSeen) :: s.answers } := by
    simp only [Callers.step, hnext, Statement.execute, hinsert]
    rfl
  rw [RightAnswer, hstep]
  refine ⟨?_, h.claimed hnext hfind hrow _⟩
  intro j outcome hanswer
  cases (List.cons.inj hanswer).1
  refine ⟨fun _ c hc => ?_, fun c hc _ hlive => ?_⟩
  · have hgone := h.gone hfind c hc
    exact ⟨(h.lives c hc).trans_lt hgone, hgone⟩
  · have hgone := h.gone hfind c (List.mem_of_mem_head? hc)
    omega

theorem Exclusive.ended {i : ι} {next : Callers ι} (hnext : next.Exclusive ttl k)
    (hanswers : next.answers = s.answers) (hstep : s.step ttl k (.execute i) = next) :
    s.RightAnswer ttl k (.execute i) ∧ (s.step ttl k (.execute i)).Exclusive ttl k := by
  subst hstep
  exact ⟨rightAnswer_of_silent hanswers, hnext⟩

theorem Exclusive.execute (h : s.Exclusive ttl k) {i : ι}
    (horderly : s.Orderly k (.execute i)) :
    s.RightAnswer ttl k (.execute i) ∧ (s.step ttl k (.execute i)).Exclusive ttl k := by
  cases hnext : s.next i with
  | none =>
      refine h.ended rfl ?_
      simp only [Callers.step, hnext]
  | some statement =>
      simp only [Orderly, hnext] at horderly
      cases statement with
      | insert now =>
          cases hfind : s.db.find k with
          | none => exact h.inserted hnext hfind
          | some e =>
              refine h.wentOn (.select now) hnext rfl (fun _ _ => by simp) ?_
              simp only [Statement.execute, IdempotencyTable.insertOrIgnore_of_some hfind]
      | select now =>
          obtain ⟨e, hfind⟩ := Option.isSome_iff_exists.mp horderly
          by_cases hold : e.expiresAt < now
          · refine h.wentOn (.claim now e.expiresAt) hnext rfl (fun _ _ => by simp) ?_
            simp only [Statement.execute, hfind, if_pos hold]
          · refine h.answered hnext hfind ?_
            simp only [Statement.execute, hfind, if_neg hold]
      | claim now exp =>
          refine h.wentOn (.reselect now) hnext rfl (fun _ _ => by simp) ?_
          simp only [Statement.execute, IdempotencyTable.claimExpired_of_ne horderly]
      | reselect now =>
          obtain ⟨e, hfind⟩ := Option.isSome_iff_exists.mp horderly
          refine h.answered hnext hfind ?_
          simp only [Statement.execute, hfind]
      | complete now response =>
          refine (h.completed hnext horderly).ended rfl ?_
          simp only [Callers.step, hnext, Statement.execute]
          rfl
      | cleanup now =>
          refine (h.cleaned hnext).ended rfl ?_
          simp only [Callers.step, hnext, Statement.execute]
          rfl

/-- Each orderly step gives a right answer and keeps the claims exclusive. -/
theorem Exclusive.step (h : s.Exclusive ttl k) {e : CallerEvent ι} (horderly : s.Orderly k e) :
    s.RightAnswer ttl k e ∧ (s.step ttl k e).Exclusive ttl k := by
  cases e with
  | pass elapsed => exact ⟨rightAnswer_of_silent rfl, h.pass elapsed⟩
  | checkAndRecord i => exact ⟨rightAnswer_of_silent (answers_begin s i _), h.begin i rfl⟩
  | completeRecord i response =>
      exact ⟨rightAnswer_of_silent (answers_begin s i _), h.begin i rfl⟩
  | cleanupExpired i => exact ⟨rightAnswer_of_silent (answers_begin s i _), h.begin i rfl⟩
  | fail i =>
      exact ⟨rightAnswer_of_silent rfl,
        h.goOn i none (fun _ hst => by cases hst) (fun _ _ hst => by cases hst) s.answers⟩
  | execute i => exact h.execute horderly

end Step

/-- In every run on one key in which no caller finds the row gone, no expired row is taken
over, and records are completed by the newest claimant: two first-seen answers are
separated by the expiry of the first record, and until its claimant has completed it the
other callers get `InFlight`. -/
theorem claims_exclusive (ttl : Nat) (k : EntryKey) (clock : Nat) (es : List (CallerEvent ι))
    (horderly : Along (step ttl k) (Orderly k) (start clock) es) :
    Along (step ttl k) (RightAnswer ttl k) (start clock) es :=
  horderly.of_invariant (fun _ _ h he => h.step he) (exclusive_start clock)

/-- Two callers; the second one comes while the first one is at work. -/
def twoCallers : List (CallerEvent Nat) :=
  [.checkAndRecord 0, .execute 0, .checkAndRecord 1, .execute 1, .execute 1]

theorem claims_exclusive_twoCallers :
    Along (step 10 ("t", "n", "k")) (Orderly ("t", "n", "k")) (start 0) twoCallers ∧
      Along (step 10 ("t", "n", "k")) (RightAnswer 10 ("t", "n", "k")) (start 0) twoCallers := by
  have horderly : Along (step 10 ("t", "n", "k")) (Orderly ("t", "n", "k")) (start 0)
      twoCallers := ⟨trivial, trivial, trivial, trivial, rfl, trivial⟩
  exact ⟨horderly, claims_exclusive 10 ("t", "n", "k") 0 twoCallers horderly⟩

/-- The record of caller 0 has expired; caller 1 takes it over and caller 2 looks at it. -/
def takeover : List (CallerEvent Nat) :=
  [.checkAndRecord 0, .execute 0, .pass 11, .checkAndRecord 1, .execute 1, .execute 1, .execute 1,
    .checkAndRecord 2, .execute 2]

/-- Caller 1 has not completed its record, and caller 2 gets `Duplicate`. -/
theorem not_exclusive_claims :
    ¬∀ (ttl : Nat) (k : EntryKey) (clock : Nat) (es : List (CallerEvent Nat)),
      Along (step ttl k) (RightAnswer ttl k) (start clock) es := by
  intro h
  have hlast := ((along_concat _ _ takeover (.execute 2)).mp
    (h 10 ("t", "n", "k") 0 (takeover ++ [.execute 2]))).2
  have hanswer := (hlast 2 (.duplicate none) (by decide +kernel)).2
    ⟨1, 11, 11, 21, false⟩ rfl rfl (by decide)
  cases hanswer

end Callers

end PlexSpaces.Mailbox
