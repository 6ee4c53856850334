import PlexSpaces.Mailbox.FirstSeen
import PlexSpaces.Mailbox.SqliteIdempotency
/-!
# The contract of idempotency stores

`IdempotencyStore` is the trait as one mailbox sees it, with its tenant and namespace fixed
and one call after another.  What the callers rely on is part of it: a key that is answered
as known has a record that has not expired, only a first-seen answer makes a record, and a
claimed key is known until the time to live is over.  Both stores keep the contract.
-/

namespace PlexSpaces.Mailbox

open PlexSpaces.Lib

structure IdempotencyStore (σ : Type) where
  new : σ
  ttl : Nat
  /-- The clock readings are of the lookup and of the new entry. -/
  checkAndRecord : σ → Nat → Nat → String → Except String IdempotencyOutcome × σ
  completeRecord : σ → Nat → String → Option Bytes → σ
  cleanupExpired : σ → Nat → σ
  /-- There is a record of the key that expires after the time. -/
  Recorded : σ → String → Nat → Prop
  not_recorded_new : ∀ key expires, ¬Recorded new key expires
  recorded_of_known : ∀ s now insertedAt key outcome,
    (checkAndRecord s now insertedAt key).1 = .ok outcome → outcome ≠ .firstSeen →
      ∃ expires, Recorded s key expires ∧ now ≤ expires
  recorded_checkAndRecord : ∀ s now insertedAt key k expires,
    Recorded (checkAndRecord s now insertedAt key).2 k expires → Recorded s k expires ∨
      (checkAndRecord s now insertedAt key).1 = .ok .firstSeen ∧ k = key ∧
        expires ≤ max now insertedAt + ttl
  recorded_completeRecord : ∀ s now key response k expires,
    Recorded (completeRecord s now key response) k expires → Recorded s k expires ∨
      k = key ∧ expires = now + ttl ∧ ∃ expires, Recorded s key expires
  recorded_cleanupExpired : ∀ s now k expires,
    Recorded (cleanupExpired s now) k expires → Recorded s k expires
  known_of_claimed : ∀ s now insertedAt key,
    (checkAndRecord s now insertedAt key).1 = .ok .firstSeen →
      ∀ now' insertedAt', now' ≤ min now insertedAt + ttl → ∃ outcome, outcome ≠ .firstSeen ∧
        (checkAndRecord (checkAndRecord s now insertedAt key).2 now' insertedAt' key).1 =
          .ok outcome

namespace Bucket

variable {b : Bucket} {k key : String} {state : EntryState} {now insertedAt expires : Nat}

/-- There is an entry of the key that expires after the time. -/
def Recorded (b : Bucket) (key : String) (expires : Nat) : Prop :=
  ∃ state, b.entries.lookup key = some state ∧ expires = state.insertedAt + b.ttl

theorem lookup_of_lookup_forget (h : (b.forget key).entries.lookup k = some state) :
    b.entries.lookup k = some state := by
  rw [lookup_forget] at h
  split_ifs at h
  exact h

theorem lookup_of_lookup_evictOldest (h : b.evictOldest.entries.lookup k = some state) :
    b.entries.lookup k = some state := by
  unfold evictOldest at h
  split_ifs at h
  · cases horder : b.order with
    | nil =>
        rw [horder] at h
        exact h
    | cons oldest rest =>
        rw [horder] at h
        change (b.entries.erase oldest).lookup k = some state at h
        rw [Assoc.lookup_erase] at h
        split_ifs at h
        exact h
  · exact h

theorem ttl_insertInFlight : (b.insertInFlight now key).ttl = b.ttl := evictOldest_ttl

/-- What `check_and_record` does: it answers from an entry that has not expired, or it makes
an entry in what is left of the bucket. -/
theorem checkAndRecord_spec (b : Bucket) (now insertedAt : Nat) (key : String) :
    (∃ state, b.entries.lookup key = some state ∧ now ≤ state.insertedAt + b.ttl ∧
      b.checkAndRecord now insertedAt key = (state.outcome, b)) ∨
      ∃ b' : Bucket, b'.ttl = b.ttl ∧
        (∀ k state, b'.entries.lookup k = some state → b.entries.lookup k = some state) ∧
        b.checkAndRecord now insertedAt key = (.firstSeen, b'.insertInFlight insertedAt key) := by
  unfold checkAndRecord getValid
  cases hlookup : b.entries.lookup key with
  | none => exact .inr ⟨b, rfl, fun k state h => h, rfl⟩
  | some state =>
      by_cases hexpired : b.ttl < now - state.insertedAt
      · right
        simp only [if_pos hexpired]
        exact ⟨b.forget key, rfl, fun k state h => lookup_of_lookup_forget h, rfl⟩
      · left
        simp only [if_neg hexpired]
        exact ⟨state, rfl, by omega, rfl⟩

theorem outcome_ne_firstSeen (state : EntryState) : state.outcome ≠ .firstSeen := by
  cases state with
  | inFlight _ =>
      intro h
      cases h
  | complete _ _ =>
      intro h
      cases h

theorem recorded_of_known (insertedAt : Nat)
    (h : (b.checkAndRecord now insertedAt key).1 ≠ .firstSeen) :
    ∃ expires, b.Recorded key expires ∧ now ≤ expires := by
  rcases checkAndRecord_spec b now insertedAt key with ⟨state, hlookup, hnow, -⟩ | ⟨b', -, -, heq⟩
  · exact ⟨_, ⟨state, hlookup, rfl⟩, hnow⟩
  · rw [heq] at h
    exact absurd rfl h

theorem recorded_checkAndRecord (h : (b.checkAndRecord now insertedAt key).2.Recorded k expires) :
    b.Recorded k expires ∨ (b.checkAndRecord now insertedAt key).1 = .firstSeen ∧ k = key ∧
      expires = insertedAt + b.ttl := by
  rcases checkAndRecord_spec b now insertedAt key with ⟨state, -, -, heq⟩ | ⟨b', httl, hsub, heq⟩
  · rw [heq] at h
    exact .inl h
  · rw [heq] at h ⊢
    obtain ⟨state, hlookup, hexpires⟩ := h
    rw [ttl_insertInFlight, httl] at hexpires
    change (b'.evictOldest.entries.insert key _).lookup k = some state at hlookup
    rw [Assoc.lookup_insert] at hlookup
    split_ifs at hlookup with hk
    · cases hlookup
      exact .inr ⟨rfl, hk, hexpires⟩
    · exact .inl ⟨state, hsub k state (lookup_of_lookup_evictOldest hlookup), hexpires⟩

theorem recorded_completeRecord {response : Option Bytes}
    (h : (b.completeRecord key response).Recorded k expires) : b.Recorded k expires := by
  unfold completeRecord at h
  cases hkey : b.entries.lookup key with
  | none =>
      rw [hkey] at h
      exact h
  | some state' =>
      rw [hkey] at h
      obtain ⟨state, hlookup, hexpires⟩ := h
      change (b.entries.insert key _).lookup k = some state at hlookup
      rw [Assoc.lookup_insert] at hlookup
      split_ifs at hlookup with hk
      · cases hlookup
        exact ⟨state', by rw [hk, hkey], hexpires⟩
      · exact ⟨state, hlookup, hexpires⟩

theorem ttl_completeRecord (response : Option Bytes) :
    (b.completeRecord key response).ttl = b.ttl := by
  unfold completeRecord
  split
  · rfl
  · rfl

theorem ttl_checkAndRecord : (b.checkAndRecord now insertedAt key).2.ttl = b.ttl := by
  rcases checkAndRecord_spec b now insertedAt key with ⟨state, -, -, heq⟩ | ⟨b', httl, -, heq⟩
  · rw [heq]
  · rw [heq]
    exact ttl_insertInFlight.trans httl

theorem recorded_evictExpired (h : (b.evictExpired now).2.Recorded k expires) :
    b.Recorded k expires := by
  obtain ⟨state, hlookup, hexpires⟩ := h
  have hkept : ∀ keys : List String, (run forget b keys).entries.lookup k = some state →
      b.entries.lookup k = some state := fun keys =>
    run_invariant
      (I := fun b' : Bucket => b'.entries.lookup k = some state → b.entries.lookup k = some state)
      (fun _ _ _ hb' hlookup' => hb' (lookup_of_lookup_forget hlookup')) id
  exact ⟨state, hkept _ hlookup, hexpires.trans (congrArg _ (foldl_forget_limits _).2)⟩

/-- A claimed key is answered as known until its entry expires. -/
theorem known_of_claimed (h : (b.checkAndRecord now insertedAt key).1 = .firstSeen)
    {now' insertedAt' : Nat} (hnow : now' ≤ insertedAt + b.ttl) :
    ((b.checkAndRecord now insertedAt key).2.checkAndRecord now' insertedAt' key).1 ≠
      .firstSeen := by
  rcases checkAndRecord_spec b now insertedAt key with ⟨state, -, -, heq⟩ | ⟨b', httl, -, heq⟩
  · rw [heq] at h
    exact absurd h (outcome_ne_firstSeen state)
  · rw [heq]
    have hlookup : (b'.insertInFlight insertedAt key).entries.lookup key =
        some (.inFlight insertedAt) := Assoc.lookup_insert_self _ _ _
    have hvalid : ¬(b'.insertInFlight insertedAt key).ttl <
        now' - (EntryState.inFlight insertedAt).insertedAt := by
      rw [ttl_insertInFlight, httl]
      change ¬b.ttl < now' - insertedAt
      omega
    simp only [checkAndRecord, getValid, hlookup, if_neg hvalid]
    exact outcome_ne_firstSeen _

end Bucket

namespace InMemoryIdempotencyStore

/-- The in-memory store, as a mailbox of the tenant and the namespace uses it. -/
def keyStore (capacityPerBucket ttl : Nat) (tenantId nsName : String) :
    IdempotencyStore
      { s : InMemoryIdempotencyStore // (s.bucketOf (bucketKey tenantId nsName)).ttl = ttl } where
  new := ⟨new capacityPerBucket ttl, rfl⟩
  ttl := ttl
  checkAndRecord s now insertedAt key :=
    (.ok (s.val.checkAndRecord now insertedAt tenantId nsName key).1,
      ⟨(s.val.checkAndRecord now insertedAt tenantId nsName key).2, by
        rw [(checkAndRecord_spec s.val now insertedAt tenantId nsName key).2.bucketOf, if_pos rfl,
          Bucket.ttl_checkAndRecord, s.property]⟩)
  completeRecord s _ key response :=
    ⟨s.val.completeRecord tenantId nsName key response, by
      rw [(completeRecord_spec s.val tenantId nsName key response).bucketOf, if_pos rfl,
        Bucket.ttl_completeRecord, s.property]⟩
  cleanupExpired s now :=
    ⟨(s.val.cleanupExpired now).2, by
      rw [cleanupExpired_bucketOf]
      exact (Bucket.foldl_forget_limits _).2.trans s.property⟩
  Recorded s := (s.val.bucketOf (bucketKey tenantId nsName)).Recorded
  not_recorded_new key expires h := by
    obtain ⟨state, hlookup, -⟩ := h
    cases hlookup
  recorded_of_known s now insertedAt key outcome h hknown := by
    have houtcome := (checkAndRecord_spec s.val now insertedAt tenantId nsName key).1
    rw [Except.ok.injEq] at h
    rw [h] at houtcome
    refine Bucket.recorded_of_known insertedAt ?_
    rw [← houtcome]
    exact hknown
  recorded_checkAndRecord s now insertedAt key k expires h := by
    obtain ⟨houtcome, hwrites⟩ := checkAndRecord_spec s.val now insertedAt tenantId nsName key
    dsimp only at h
    rw [hwrites.bucketOf, if_pos rfl] at h
    rcases Bucket.recorded_checkAndRecord h with hold | ⟨hfirst, hk, hexpires⟩
    · exact .inl hold
    · rw [s.property] at hexpires
      exact .inr ⟨congrArg Except.ok (houtcome.trans hfirst), hk, by omega⟩
  recorded_completeRecord s now key response k expires h := by
    dsimp only at h
    rw [(completeRecord_spec s.val tenantId nsName key response).bucketOf, if_pos rfl] at h
    exact .inl (Bucket.recorded_completeRecord h)
  recorded_cleanupExpired s now k expires h := by
    dsimp only at h
    rw [cleanupExpired_bucketOf] at h
    exact Bucket.recorded_evictExpired h
  known_of_claimed s now insertedAt key h now' insertedAt' hnow := by
    obtain ⟨houtcome, hwrites⟩ := checkAndRecord_spec s.val now insertedAt tenantId nsName key
    rw [Except.ok.injEq] at h
    refine ⟨_, ?_, rfl⟩
    rw [(checkAndRecord_spec _ now' insertedAt' tenantId nsName key).1, hwrites.bucketOf,
      if_pos rfl]
    refine Bucket.known_of_claimed (houtcome.symm.trans h) ?_
    rw [s.property]
    omega

end InMemoryIdempotencyStore

namespace IdempotencyTable

def callAlone (ttl : Nat) (k : EntryKey) :
    Nat → Statement → IdempotencyTable → Option IdempotencyOutcome × IdempotencyTable
  | 0, _, db => (none, db)
  | steps + 1, statement, db =>
      match statement.execute ttl k db with
      | (.goOn next, db) => callAlone ttl k steps next db
      | (.answer outcome, db) => (some outcome, db)
      | (.done, db) => (none, db)

/-- `check_and_record` alone on the table: at most four statements. -/
def checkAndRecord (ttl : Nat) (k : EntryKey) (now : Nat) (db : IdempotencyTable) :
    IdempotencyOutcome × IdempotencyTable :=
  let (outcome, db) := callAlone ttl k 4 (.insert now) db
  (outcome.getD .firstSeen, db)

def expiry (db : IdempotencyTable) (k : EntryKey) : Option Nat :=
  (db.find k).map IdempotencyEntry.expiresAt

variable {ttl : Nat} {db : IdempotencyTable} {k : EntryKey} {now : Nat}

theorem outcome_ne_firstSeen (e : IdempotencyEntry) : e.outcome ≠ .firstSeen := by
  unfold IdempotencyEntry.outcome
  cases e.state with
  | inFlight =>
      intro h
      cases h
  | complete =>
      intro h
      cases h

theorem expiry_insertOrIgnore (h : db.find k = none) (now expires : Nat) :
    ∃ db', db.insertOrIgnore k now expires = (true, db') ∧
      ∀ k', db'.expiry k' = if k' = k then some expires else db.expiry k' := by
  unfold insertOrIgnore
  cases hinsert : db.insert? ⟨k.1, k.2.1, k.2.2, .inFlight, none, now, expires⟩ with
  | none =>
      obtain ⟨e, he⟩ := Table.mem_map_key_iff.mp (Table.insert?_eq_none_iff.mp hinsert)
      rw [show db.find k = some e from he] at h
      cases h
  | some db' =>
      refine ⟨db', rfl, ?_⟩
      intro k'
      rw [expiry, Table.find_insert? hinsert k']
      change (if k' = k then _ else db.find k').map _ = _
      split_ifs
      · rfl
      · rfl

theorem expiry_claimExpired {e : IdempotencyEntry} (h : db.find k = some e)
    (now expires : Nat) :
    ∃ db', db.claimExpired k now expires e.expiresAt = (true, db') ∧
      ∀ k', db'.expiry k' = if k' = k then some expires else db.expiry k' := by
  unfold claimExpired
  simp only [h, if_true]
  refine ⟨_, rfl, ?_⟩
  intro k'
  refine (congrArg _ (Table.find_update db k _ _ k')).trans ?_
  split_ifs
  · rw [h]
    rfl
  · rfl

/-- What `check_and_record` does alone: it answers from a row that has not expired, or it
writes one. -/
theorem checkAndRecord_spec (ttl : Nat) (k : EntryKey) (now : Nat) (db : IdempotencyTable) :
    (∃ e, db.find k = some e ∧ now ≤ e.expiresAt ∧
      db.checkAndRecord ttl k now = (e.outcome, db)) ∨
      (∀ e, db.find k = some e → e.expiresAt < now) ∧
        ∃ db', (∀ k', db'.expiry k' = if k' = k then some (now + ttl) else db.expiry k') ∧
          db.checkAndRecord ttl k now = (.firstSeen, db') := by
  cases hfind : db.find k with
  | none =>
      obtain ⟨db', hinsert, hexpiry⟩ := expiry_insertOrIgnore hfind now (now + ttl)
      refine .inr ⟨?_, db', hexpiry, ?_⟩
      · intro e he
        cases he
      simp only [checkAndRecord, callAlone, Statement.execute, hinsert, Option.getD_some]
  | some e =>
      have hinsert : db.insertOrIgnore k now (now + ttl) = (false, db) :=
        insertOrIgnore_of_some hfind
      by_cases hexpired : e.expiresAt < now
      · obtain ⟨db', hclaim, hexpiry⟩ := expiry_claimExpired hfind now (now + ttl)
        refine .inr ⟨?_, db', hexpiry, ?_⟩
        · intro e' he
          cases he
          exact hexpired
        simp only [checkAndRecord, callAlone, Statement.execute, hinsert, hfind, if_pos hexpired,
          hclaim, Option.getD_some]
      · refine .inl ⟨e, rfl, by omega, ?_⟩
        simp only [checkAndRecord, callAlone, Statement.execute, hinsert, hfind,
          if_neg hexpired, Option.getD_some]

theorem expiry_complete (response : Option Bytes) (expires : Nat) (k' : EntryKey) :
    (db.complete k response expires).expiry k' =
      if k' = k then (db.expiry k).map fun _ => expires else db.expiry k' := by
  refine (congrArg _ (Table.find_update db k _ _ k')).trans ?_
  split_ifs
  · rw [expiry, Option.map_map, Option.map_map]
    rfl
  · rfl

theorem expiry_deleteExpired {expires : Nat} (h : (db.deleteExpired now).expiry k = some expires) :
    db.expiry k = some expires := by
  obtain ⟨e, he, rfl⟩ := Option.map_eq_some_iff.mp h
  rw [find_deleteExpired, Option.filter_eq_some_iff] at he
  rw [expiry, he.1]
  rfl

/-- The SQLite store, as a mailbox of the tenant and the namespace uses it. -/
def keyStore (ttl : Nat) (tenantId nsName : String) : IdempotencyStore IdempotencyTable where
  new := Table.empty
  ttl := ttl
  checkAndRecord db now _ key :=
    (.ok (db.checkAndRecord ttl (tenantId, nsName, key) now).1,
      (db.checkAndRecord ttl (tenantId, nsName, key) now).2)
  completeRecord db now key response :=
    db.complete (tenantId, nsName, key) response (now + ttl)
  cleanupExpired db now := db.deleteExpired now
  Recorded db key expires := db.expiry (tenantId, nsName, key) = some expires
  not_recorded_new key expires h := by cases h
  recorded_of_known db now insertedAt key outcome h hknown := by
    rw [Except.ok.injEq] at h
    rcases checkAndRecord_spec ttl (tenantId, nsName, key) now db with
      ⟨e, hfind, hnow, -⟩ | ⟨-, db', -, heq⟩
    · exact ⟨e.expiresAt, by rw [expiry, hfind]; rfl, hnow⟩
    · rw [heq] at h
      exact absurd h.symm hknown
  recorded_checkAndRecord db now insertedAt key k expires h := by
    rcases checkAndRecord_spec ttl (tenantId, nsName, key) now db with
      ⟨e, -, -, heq⟩ | ⟨-, db', hexpiry, heq⟩
    · rw [heq] at h
      exact .inl h
    · rw [heq] at h ⊢
      rw [hexpiry] at h
      split_ifs at h with hk
      · simp only [Prod.mk.injEq, true_and] at hk
        cases h
        exact .inr ⟨rfl, hk, by omega⟩
      · exact .inl h
  recorded_completeRecord db now key response k expires h := by
    rw [expiry_complete] at h
    split_ifs at h with hk
    · simp only [Prod.mk.injEq, true_and] at hk
      obtain ⟨old, hold, rfl⟩ := Option.map_eq_some_iff.mp h
      exact .inr ⟨hk, rfl, old, hold⟩
    · exact .inl h
  recorded_cleanupExpired db now k expires h := expiry_deleteExpired h
  known_of_claimed db now insertedAt key h now' insertedAt' hnow := by
    rw [Except.ok.injEq] at h
    rcases checkAndRecord_spec ttl (tenantId, nsName, key) now db with
      ⟨e, -, -, heq⟩ | ⟨-, db', hexpiry, heq⟩
    · rw [heq] at h
      exact absurd h (outcome_ne_firstSeen e)
    · rw [heq]
      refine ⟨_, ?_, rfl⟩
      have hrow : db'.expiry (tenantId, nsName, key) = some (now + ttl) :=
        (hexpiry _).trans (if_pos rfl)
      obtain ⟨e, hfind, hexpires⟩ := Option.map_eq_some_iff.mp hrow
      rcases checkAndRecord_spec ttl (tenantId, nsName, key) now' db' with
        ⟨e, -, -, heq'⟩ | ⟨hexpired, -⟩
      · rw [heq']
        exact outcome_ne_firstSeen e
      · have hlate := hexpired e hfind
        omega

end IdempotencyTable

end PlexSpaces.Mailbox
