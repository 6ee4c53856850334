import PlexSpaces.Lib.Run
import PlexSpaces.Lib.Separator
import PlexSpaces.Mailbox.IdempotencyStore
/-!
# First-seen answers of the in-memory store

In a bucket, the map and the order list name the same keys (`Consistent`).  A key that was
inserted is still there, with its time, and the keys behind it in the order were all
inserted after it (`Held`); it goes when it has expired, or when a full bucket has put
`capacity` other keys behind it.  So a second first-seen answer for a key comes after the
time to live or after that many insertions (`Trace.Tracked.separated`).

A bucket does not depend on the calls on other buckets (`ledger_view`), so the same holds
in a store.
-/

namespace PlexSpaces.Mailbox

open PlexSpaces.Lib

namespace Bucket

/-- The map and the order list name the same keys, each once, within the capacity. -/
structure Consistent (b : Bucket) : Prop where
  nodup : b.order.Nodup
  mem_iff : ∀ k, k ∈ b.order ↔ k ∈ b.entries
  bounded : b.order.length ≤ b.capacity

/-- The key has an entry of the time `insertedAt`, and at most `behind` keys are behind it in
the order. -/
structure Held (b : Bucket) (key : String) (insertedAt behind : Nat) : Prop where
  entry : ∃ state, b.entries.lookup key = some state ∧ state.insertedAt = insertedAt
  place : ∃ before after, b.order = before ++ key :: after ∧ after.length ≤ behind

section Steps

variable {b : Bucket} {key k : String} {insertedAt now behind : Nat}

theorem consistent_new (capacity ttl : Nat) : (new capacity ttl).Consistent :=
  ⟨List.nodup_nil, fun _ => iff_of_false List.not_mem_nil (AList.notMem_empty _),
    Nat.zero_le _⟩

theorem lookup_forget : (b.forget key).entries.lookup k =
    if k = key then none else b.entries.lookup k :=
  Assoc.lookup_erase b.entries key k

theorem Consistent.length_keys (h : b.Consistent) : b.entries.keys.length = b.order.length := by
  apply List.Perm.length_eq
  refine (List.perm_ext_iff_of_nodup b.entries.keys_nodup h.nodup).mpr ?_
  intro k
  rw [h.mem_iff k]
  exact AList.mem_keys.symm

theorem Consistent.forget (h : b.Consistent) (key : String) : (b.forget key).Consistent := by
  refine ⟨h.nodup.filter _, ?_, (List.length_filter_le _ _).trans h.bounded⟩
  intro k
  change k ∈ b.order.filter (· ≠ key) ↔ k ∈ b.entries.erase key
  rw [List.mem_filter, AList.mem_erase, h.mem_iff k, decide_eq_true_eq]
  exact and_comm

theorem Consistent.forget_eq_self (h : b.Consistent) (hkey : b.entries.lookup key = none) :
    b.forget key = b := by
  have hentries : key ∉ b.entries := AList.lookup_eq_none.mp hkey
  have horder : b.order.filter (· ≠ key) = b.order := by
    apply List.filter_eq_self.mpr
    intro k hk
    rw [decide_eq_true_eq]
    rintro rfl
    exact hentries ((h.mem_iff k).mp hk)
  have herase : b.entries.erase key = b.entries := by
    apply AList.ext
    exact List.kerase_of_notMem_keys hentries
  rw [Bucket.forget, horder, herase]

theorem evictOldest_cases (h : b.Consistent) (hcapacity : 1 ≤ b.capacity) :
    (b.order.length < b.capacity ∧ b.evictOldest = b) ∨
      ∃ oldest rest, b.order = oldest :: rest ∧ rest.length + 1 = b.capacity ∧
        b.evictOldest = { b with entries := b.entries.erase oldest, order := rest } := by
  unfold evictOldest
  rw [h.length_keys]
  by_cases hfull : b.capacity ≤ b.order.length
  · rw [if_pos hfull]
    cases horder : b.order with
    | nil =>
        rw [horder, List.length_nil] at hfull
        omega
    | cons oldest rest =>
        have hbounded := h.bounded
        rw [horder, List.length_cons] at hfull hbounded
        exact .inr ⟨oldest, rest, rfl, by omega, rfl⟩
  · rw [if_neg hfull]
    exact .inl ⟨by omega, rfl⟩

theorem evictOldest_spec (h : b.Consistent) (hcapacity : 1 ≤ b.capacity) :
    b.evictOldest.Consistent ∧ b.evictOldest.order.length < b.capacity ∧
      b.evictOldest.order.Sublist b.order := by
  rcases evictOldest_cases h hcapacity with ⟨hroom, heq⟩ | ⟨oldest, rest, horder, hlen, heq⟩
  · rw [heq]
    exact ⟨h, hroom, List.Sublist.refl _⟩
  · have hnodup := h.nodup
    rw [horder, List.nodup_cons] at hnodup
    rw [heq, horder]
    refine ⟨⟨hnodup.2, ?_, ?_⟩, ?_, List.sublist_cons_self _ _⟩
    · intro k
      change k ∈ rest ↔ k ∈ b.entries.erase oldest
      rw [AList.mem_erase, ← h.mem_iff k, horder, List.mem_cons]
      constructor
      · intro hk
        refine ⟨?_, .inr hk⟩
        rintro rfl
        exact hnodup.1 hk
      · rintro ⟨hne, hk⟩
        exact hk.resolve_left hne
    · change rest.length ≤ b.capacity
      omega
    · change rest.length < b.capacity
      omega

theorem evictOldest_capacity : b.evictOldest.capacity = b.capacity := by
  unfold evictOldest
  split_ifs
  · split <;> rfl
  · rfl

theorem evictOldest_ttl : b.evictOldest.ttl = b.ttl := by
  unfold evictOldest
  split_ifs
  · split <;> rfl
  · rfl

theorem Consistent.insertInFlight (h : b.Consistent) (hcapacity : 1 ≤ b.capacity)
    (hkey : key ∉ b.order) (now : Nat) : (b.insertInFlight now key).Consistent := by
  obtain ⟨hconsistent, hroom, hsub⟩ := evictOldest_spec h hcapacity
  have hkey' : key ∉ b.evictOldest.order := fun hmem => hkey (hsub.subset hmem)
  refine ⟨?_, ?_, ?_⟩
  · change (b.evictOldest.order ++ [key]).Nodup
    exact List.nodup_append'.mpr ⟨hconsistent.nodup, List.nodup_singleton key,
      List.disjoint_singleton.mpr hkey'⟩
  · intro k
    change k ∈ b.evictOldest.order ++ [key] ↔ k ∈ b.evictOldest.entries.insert key _
    rw [AList.mem_insert, List.mem_append, List.mem_singleton, hconsistent.mem_iff k]
    exact or_comm
  · change (b.evictOldest.order ++ [key]).length ≤ b.evictOldest.capacity
    rw [evictOldest_capacity, List.length_append, List.length_singleton]
    omega

theorem key_notMem_forget : key ∉ (b.forget key).order := by
  intro hmem
  have := (List.mem_filter.mp hmem).2
  simp at this

theorem Held.forget (h : b.Held k insertedAt behind) (hne : k ≠ key) :
    (b.forget key).Held k insertedAt behind := by
  obtain ⟨⟨state, hlookup, hstate⟩, before, after, horder, hlen⟩ := h
  refine ⟨⟨state, by rw [lookup_forget, if_neg hne, hlookup], hstate⟩,
    before.filter (· ≠ key), after.filter (· ≠ key), ?_,
    (List.length_filter_le _ _).trans hlen⟩
  change b.order.filter (· ≠ key) = _
  rw [horder, List.filter_append, List.filter_cons_of_pos (by simpa using hne)]

/-- A full bucket drops a key only when all its other keys are behind it. -/
theorem Held.evictOldest (h : b.Held k insertedAt behind) (hb : b.Consistent)
    (hcapacity : 1 ≤ b.capacity) :
    b.evictOldest.Held k insertedAt behind ∨ b.capacity ≤ behind + 1 := by
  rcases evictOldest_cases hb hcapacity with ⟨-, heq⟩ | ⟨oldest, rest, horder, hlen, heq⟩
  · rw [heq]
    exact .inl h
  · obtain ⟨⟨state, hlookup, hstate⟩, before, after, hplace, hbehind⟩ := h
    rw [horder] at hplace
    cases before with
    | nil =>
        obtain ⟨-, rfl⟩ := List.cons.inj hplace
        exact .inr (by omega)
    | cons first before =>
        obtain ⟨rfl, rfl⟩ := List.cons.inj hplace
        have hne : k ≠ oldest := by
          rintro rfl
          have hnodup := hb.nodup
          rw [horder, List.nodup_cons] at hnodup
          exact hnodup.1 (List.mem_append_right _ List.mem_cons_self)
        left
        rw [heq]
        refine ⟨⟨state, ?_, hstate⟩, before, after, rfl, hbehind⟩
        rw [Assoc.lookup_erase, if_neg hne, hlookup]

theorem Held.insertInFlight (h : b.Held k insertedAt behind) (hb : b.Consistent)
    (hcapacity : 1 ≤ b.capacity) (hne : k ≠ key) (now : Nat) :
    (b.insertInFlight now key).Held k insertedAt (behind + 1) ∨ b.capacity ≤ behind + 1 := by
  rcases h.evictOldest hb hcapacity with hheld | hfull
  · obtain ⟨⟨state, hlookup, hstate⟩, before, after, horder, hlen⟩ := hheld
    refine .inl ⟨⟨state, ?_, hstate⟩, before, after ++ [key], ?_, ?_⟩
    · change (b.evictOldest.entries.insert key _).lookup k = _
      rw [Assoc.lookup_insert_of_ne _ _ hne, hlookup]
    · change b.evictOldest.order ++ [key] = _
      rw [horder, List.append_assoc]
      rfl
    · rw [List.length_append, List.length_singleton]
      omega
  · exact .inr hfull

theorem held_insertInFlight (b : Bucket) (now : Nat) (key : String) :
    (b.insertInFlight now key).Held key now 0 :=
  ⟨⟨.inFlight now, Assoc.lookup_insert_self _ _ _, rfl⟩, b.evictOldest.order, [], rfl, le_rfl⟩

/-- What `check_and_record` does: it answers from an entry that is not expired, or it makes a
new entry. -/
theorem checkAndRecord_cases (h : b.Consistent) (now insertedAt : Nat) (key : String) :
    (∃ state, b.entries.lookup key = some state ∧
      b.checkAndRecord now insertedAt key = (state.outcome, b)) ∨
      (∀ state, b.entries.lookup key = some state → state.insertedAt + b.ttl < now) ∧
        b.checkAndRecord now insertedAt key =
          (.firstSeen, (b.forget key).insertInFlight insertedAt key) := by
  unfold checkAndRecord getValid
  cases hlookup : b.entries.lookup key with
  | none =>
      rw [h.forget_eq_self hlookup]
      refine .inr ⟨?_, rfl⟩
      intro state hstate
      cases hstate
  | some state =>
      by_cases hexpired : b.ttl < now - state.insertedAt
      · right
        simp only [if_pos hexpired]
        refine ⟨?_, trivial⟩
        intro state' hstate
        cases hstate
        omega
      · left
        simp only [if_neg hexpired]
        exact ⟨state, rfl, rfl⟩

theorem Held.completeRecord (h : b.Held k insertedAt behind) (key : String)
    (response : Option Bytes) : (b.completeRecord key response).Held k insertedAt behind := by
  unfold Bucket.completeRecord
  cases hkey : b.entries.lookup key with
  | none => exact h
  | some state =>
      obtain ⟨⟨state', hlookup, hstate⟩, hplace⟩ := h
      by_cases hk : k = key
      · subst hk
        rw [hkey] at hlookup
        cases hlookup
        exact ⟨⟨_, Assoc.lookup_insert_self _ _ _, hstate⟩, hplace⟩
      · exact ⟨⟨state', by rw [← hlookup]; exact Assoc.lookup_insert_of_ne _ _ hk, hstate⟩, hplace⟩

theorem Consistent.completeRecord (h : b.Consistent) (key : String) (response : Option Bytes) :
    (b.completeRecord key response).Consistent := by
  unfold Bucket.completeRecord
  cases hkey : b.entries.lookup key with
  | none => exact h
  | some state =>
      refine ⟨h.nodup, ?_, h.bounded⟩
      intro k
      change k ∈ b.order ↔ k ∈ b.entries.insert key _
      rw [AList.mem_insert, h.mem_iff k]
      constructor
      · exact .inr
      · rintro (rfl | hk)
        · exact AList.lookup_isSome.mp (by rw [hkey]; rfl)
        · exact hk

theorem Consistent.checkAndRecord (h : b.Consistent) (hcapacity : 1 ≤ b.capacity)
    (now insertedAt : Nat) (key : String) : (b.checkAndRecord now insertedAt key).2.Consistent := by
  rcases checkAndRecord_cases h now insertedAt key with ⟨state, -, heq⟩ | ⟨-, heq⟩
  · rw [heq]
    exact h
  · rw [heq]
    exact (h.forget key).insertInFlight hcapacity key_notMem_forget insertedAt

/-- The loop of `evict_expired` forgets the keys of a list. -/
theorem Consistent.forgetAll (h : b.Consistent) (keys : List String) :
    (keys.foldl Bucket.forget b).Consistent :=
  run_invariant (fun key _ _ h => h.forget key) h

theorem Held.forgetAll (h : b.Held k insertedAt behind) {keys : List String} (hk : k ∉ keys) :
    (keys.foldl Bucket.forget b).Held k insertedAt behind := by
  refine run_invariant (I := fun b : Bucket => b.Held k insertedAt behind) ?_ h
  intro key hkey b hb
  refine hb.forget ?_
  rintro rfl
  exact hk hkey

/-- A key leaves in a cleanup only when it has expired. -/
theorem Held.evictExpired (h : b.Held k insertedAt behind) (now : Nat) :
    (b.evictExpired now).2.Held k insertedAt behind ∨ insertedAt + b.ttl < now := by
  by_cases hexpired : insertedAt + b.ttl < now
  · exact .inr hexpired
  · refine .inl (h.forgetAll ?_)
    intro hmem
    obtain ⟨e, he, rfl⟩ := List.mem_map.mp hmem
    obtain ⟨he, hold⟩ := List.mem_filter.mp he
    obtain ⟨⟨state, hlookup, hstate⟩, -⟩ := h
    rw [Assoc.lookup_of_mem_entries he] at hlookup
    cases hlookup
    rw [decide_eq_true_eq] at hold
    omega

theorem foldl_forget_limits (keys : List String) :
    (keys.foldl Bucket.forget b).capacity = b.capacity ∧
      (keys.foldl Bucket.forget b).ttl = b.ttl := by
  induction keys generalizing b with
  | nil => exact ⟨rfl, rfl⟩
  | cons key keys ih => exact ih

end Steps

end Bucket

/-- An answer of `check_and_record`, with the time of the lookup and of the new entry. -/
structure Answer where
  key : String
  now : Nat
  insertedAt : Nat
  outcome : IdempotencyOutcome
  deriving DecidableEq

inductive BucketCall
  | checkAndRecord (key : String) (now insertedAt : Nat)
  | completeRecord (key : String) (response : Option Bytes)
  | cleanupExpired (now : Nat)

def BucketCall.times : BucketCall → List Nat
  | .checkAndRecord _ now insertedAt => [now, insertedAt]
  | .completeRecord _ _ => []
  | .cleanupExpired now => [now]

def otherInsertions (key : String) (answers : List Answer) : List Answer :=
  answers.filter fun a => a.outcome = .firstSeen ∧ a.key ≠ key

/-- Of the answers, newest first: two first-seen answers for a key are separated by more than
the time to live or by `capacity` insertions of other keys. -/
def Separated (capacity ttl : Nat) (answers : List Answer) : Prop :=
  ∀ later a₂ between a₁ earlier, answers = later ++ a₂ :: (between ++ a₁ :: earlier) →
    a₁.outcome = .firstSeen → a₂.outcome = .firstSeen → a₁.key = a₂.key →
    a₁.insertedAt + ttl < a₂.now ∨ capacity ≤ (otherInsertions a₁.key between).length

/-- A bucket with the latest reading of the clock and its answers so far, newest first. -/
structure Trace where
  bucket : Bucket
  clock : Nat
  answers : List Answer

namespace Trace

def new (capacity ttl : Nat) : Trace := ⟨Bucket.new capacity ttl, 0, []⟩

def step (t : Trace) : BucketCall → Trace
  | .checkAndRecord key now insertedAt =>
      let (outcome, bucket) := t.bucket.checkAndRecord now insertedAt key
      ⟨bucket, insertedAt, ⟨key, now, insertedAt, outcome⟩ :: t.answers⟩
  | .completeRecord key response => { t with bucket := t.bucket.completeRecord key response }
  | .cleanupExpired now => ⟨(t.bucket.evictExpired now).2, now, t.answers⟩

/-- The clock does not go back in the call. -/
def Timely (t : Trace) : BucketCall → Prop
  | .checkAndRecord _ now insertedAt => t.clock ≤ now ∧ now ≤ insertedAt
  | .completeRecord _ _ => True
  | .cleanupExpired now => t.clock ≤ now

/-- A first-seen answer, followed by the answers `later`, is accounted for: its entry is still
there, or it has expired, or enough other keys have been inserted. -/
def Accounted (capacity ttl : Nat) (t : Trace) (later : List Answer) (a : Answer) : Prop :=
  t.bucket.Held a.key a.insertedAt (otherInsertions a.key later).length ∨
    a.insertedAt + ttl < t.clock ∨ capacity ≤ (otherInsertions a.key later).length

structure Tracked (capacity ttl : Nat) (t : Trace) : Prop where
  consistent : t.bucket.Consistent
  capacity_eq : t.bucket.capacity = capacity
  ttl_eq : t.bucket.ttl = ttl
  accounted : ∀ later a earlier, t.answers = later ++ a :: earlier → a.outcome = .firstSeen →
    t.Accounted capacity ttl later a
  separated : Separated capacity ttl t.answers

section Step

variable {capacity ttl : Nat} {t : Trace}

theorem tracked_new (capacity ttl : Nat) : (new capacity ttl).Tracked capacity ttl := by
  refine ⟨Bucket.consistent_new capacity ttl, rfl, rfl, ?_, ?_⟩
  · intro later a earlier hsplit
    simp [new] at hsplit
  · intro later a₂ between a₁ earlier hsplit
    simp [new] at hsplit

theorem otherInsertions_cons_of_firstSeen {key : String} {a : Answer} (later : List Answer)
    (ha : a.outcome = .firstSeen) (hne : a.key ≠ key) :
    (otherInsertions key (a :: later)).length = (otherInsertions key later).length + 1 := by
  rw [otherInsertions, List.filter_cons_of_pos (by simp [ha, hne])]
  rfl

theorem otherInsertions_cons_of_ne {key : String} {a : Answer} {later : List Answer}
    (ha : a.outcome ≠ .firstSeen) :
    otherInsertions key (a :: later) = otherInsertions key later := by
  rw [otherInsertions, List.filter_cons_of_neg (by simp [ha])]
  rfl

theorem Tracked.answered (h : t.Tracked capacity ttl) {a : Answer}
    (ha : a.outcome ≠ .firstSeen) {clock : Nat} (hclock : t.clock ≤ clock) :
    (⟨t.bucket, clock, a :: t.answers⟩ : Trace).Tracked capacity ttl := by
  refine ⟨h.consistent, h.capacity_eq, h.ttl_eq, ?_, ?_⟩
  · intro later a₁ earlier hsplit hfirst
    rcases List.cons_eq_append_iff.mp hsplit with ⟨-, heq⟩ | ⟨later', rfl, hrest⟩
    · obtain ⟨rfl, -⟩ := List.cons.inj heq
      exact absurd hfirst ha
    · rw [Accounted, otherInsertions_cons_of_ne ha]
      rcases h.accounted later' a₁ earlier hrest hfirst with hheld | hexpired | hfull
      · exact .inl hheld
      · exact .inr (.inl (hexpired.trans_le hclock))
      · exact .inr (.inr hfull)
  · intro later a₂ between a₁ earlier hsplit hfirst₁ hfirst₂ hkey
    rcases List.cons_eq_append_iff.mp hsplit with ⟨-, heq⟩ | ⟨later', rfl, hrest⟩
    · obtain ⟨rfl, -⟩ := List.cons.inj heq
      exact absurd hfirst₂ ha
    · exact h.separated later' a₂ between a₁ earlier hrest hfirst₁ hfirst₂ hkey

/-- A first-seen answer accounts for every earlier insertion of its key. -/
theorem Tracked.expired_of_firstSeen (h : t.Tracked capacity ttl) {key : String} {now : Nat}
    (hclock : t.clock ≤ now)
    (hnone : ∀ state, t.bucket.entries.lookup key = some state →
      state.insertedAt + t.bucket.ttl < now)
    {later : List Answer} {a : Answer} {earlier : List Answer}
    (hsplit : t.answers = later ++ a :: earlier) (hfirst : a.outcome = .firstSeen)
    (hkey : a.key = key) :
    a.insertedAt + ttl < now ∨ capacity ≤ (otherInsertions a.key later).length := by
  rcases h.accounted later a earlier hsplit hfirst with hheld | hexpired | hfull
  · obtain ⟨⟨state, hlookup, hstate⟩, -⟩ := hheld
    rw [hkey] at hlookup
    have hold := hnone state hlookup
    rw [hstate, h.ttl_eq] at hold
    exact .inl hold
  · exact .inl (hexpired.trans_le hclock)
  · exact .inr hfull

/-- A new entry is made for `key`. -/
theorem Tracked.firstSeen (h : t.Tracked capacity ttl) (hcapacity : 1 ≤ capacity) {key : String}
    {now insertedAt : Nat} (hclock : t.clock ≤ now) (hlater : now ≤ insertedAt)
    (hnone : ∀ state, t.bucket.entries.lookup key = some state →
      state.insertedAt + t.bucket.ttl < now) :
    (⟨(t.bucket.forget key).insertInFlight insertedAt key, insertedAt,
      ⟨key, now, insertedAt, .firstSeen⟩ :: t.answers⟩ : Trace).Tracked capacity ttl := by
  have hroom : 1 ≤ (t.bucket.forget key).capacity := by
    rw [← h.capacity_eq] at hcapacity
    exact hcapacity
  have hforget := h.consistent.forget key
  refine ⟨hforget.insertInFlight hroom Bucket.key_notMem_forget insertedAt, ?_, ?_, ?_, ?_⟩
  · rw [← h.capacity_eq]
    exact Bucket.evictOldest_capacity
  · rw [← h.ttl_eq]
    exact Bucket.evictOldest_ttl
  · intro later a earlier hsplit hfirst
    rcases List.cons_eq_append_iff.mp hsplit with ⟨rfl, heq⟩ | ⟨later', rfl, hrest⟩
    · obtain ⟨rfl, -⟩ := List.cons.inj heq
      exact .inl (Bucket.held_insertInFlight _ insertedAt key)
    · by_cases hkey : a.key = key
      · have hexpired := h.expired_of_firstSeen hclock hnone hrest hfirst hkey
        have hsame : otherInsertions a.key (⟨key, now, insertedAt, .firstSeen⟩ :: later') =
            otherInsertions a.key later' := by
          rw [otherInsertions, List.filter_cons_of_neg (by simp [hkey])]
          rfl
        rw [Accounted, hsame]
        rcases hexpired with hexpired | hfull
        · exact .inr (.inl (hexpired.trans_le hlater))
        · exact .inr (.inr hfull)
      · have hmore := otherInsertions_cons_of_firstSeen
          (a := ⟨key, now, insertedAt, .firstSeen⟩) later' rfl (Ne.symm hkey)
        rw [Accounted, hmore]
        rcases h.accounted later' a earlier hrest hfirst with hheld | hexpired | hfull
        · rcases (hheld.forget hkey).insertInFlight hforget hroom hkey insertedAt with hheld | hfull
          · exact .inl hheld
          · refine .inr (.inr ?_)
            rw [← h.capacity_eq]
            exact hfull
        · refine .inr (.inl ?_)
          exact hexpired.trans_le (hclock.trans hlater)
        · exact .inr (.inr (hfull.trans (Nat.le_succ _)))
  · intro later a₂ between a₁ earlier hsplit hfirst₁ hfirst₂ hkey
    rcases List.cons_eq_append_iff.mp hsplit with ⟨rfl, heq⟩ | ⟨later', rfl, hrest⟩
    · obtain ⟨rfl, hanswers⟩ := List.cons.inj heq
      exact h.expired_of_firstSeen hclock hnone hanswers.symm hfirst₁ hkey
    · exact h.separated later' a₂ between a₁ earlier hrest hfirst₁ hfirst₂ hkey

/-- A change of the bucket that keeps what is held and perhaps expired. -/
theorem Tracked.changed (h : t.Tracked capacity ttl) {bucket : Bucket} {clock : Nat}
    (hclock : t.clock ≤ clock) (hconsistent : bucket.Consistent)
    (hlimits : bucket.capacity = t.bucket.capacity ∧ bucket.ttl = t.bucket.ttl)
    (hheld : ∀ k insertedAt behind, t.bucket.Held k insertedAt behind →
      bucket.Held k insertedAt behind ∨ insertedAt + t.bucket.ttl < clock) :
    (⟨bucket, clock, t.answers⟩ : Trace).Tracked capacity ttl := by
  refine ⟨hconsistent, hlimits.1.trans h.capacity_eq, hlimits.2.trans h.ttl_eq, ?_, h.separated⟩
  intro later a earlier hsplit hfirst
  rcases h.accounted later a earlier hsplit hfirst with hheld' | hexpired | hfull
  · rcases hheld _ _ _ hheld' with hheld' | hexpired
    · exact .inl hheld'
    · rw [h.ttl_eq] at hexpired
      exact .inr (.inl hexpired)
  · exact .inr (.inl (hexpired.trans_le hclock))
  · exact .inr (.inr hfull)

theorem Tracked.step (h : t.Tracked capacity ttl) (hcapacity : 1 ≤ capacity) {c : BucketCall}
    (htimely : t.Timely c) : (t.step c).Tracked capacity ttl := by
  cases c with
  | checkAndRecord key now insertedAt =>
      obtain ⟨hclock, hlater⟩ := htimely
      rcases Bucket.checkAndRecord_cases h.consistent now insertedAt key with
        ⟨state, -, heq⟩ | ⟨hnone, heq⟩
      · simp only [Trace.step, heq]
        refine h.answered ?_ (hclock.trans hlater)
        cases state with
        | _ => simp [EntryState.outcome]
      · simp only [Trace.step, heq]
        exact h.firstSeen hcapacity hclock hlater hnone
  | completeRecord key response =>
      refine h.changed le_rfl (h.consistent.completeRecord key response) ?_ ?_
      · unfold Bucket.completeRecord
        cases t.bucket.entries.lookup key with
        | none => exact ⟨rfl, rfl⟩
        | some state => exact ⟨rfl, rfl⟩
      · intro k insertedAt behind hheld
        exact .inl (hheld.completeRecord key response)
  | cleanupExpired now =>
      refine h.changed htimely (h.consistent.forgetAll _) (Bucket.foldl_forget_limits _) ?_
      intro k insertedAt behind hheld
      exact hheld.evictExpired now

end Step

/-- A run at times that do not go back keeps the clock in order at each step. -/
theorem along_timely {t : Trace} {calls : List BucketCall}
    (htimes : (calls.flatMap BucketCall.times).Pairwise (· ≤ ·))
    (hclock : ∀ time ∈ calls.flatMap BucketCall.times, t.clock ≤ time) :
    Along Trace.step Timely t calls := by
  induction calls generalizing t with
  | nil => trivial
  | cons c calls ih =>
      rw [List.flatMap_cons] at htimes hclock
      obtain ⟨hcall, hrest, hlater⟩ := List.pairwise_append.mp htimes
      have hfirst : ∀ time ∈ c.times, t.clock ≤ time :=
        fun time ht => hclock time (List.mem_append_left _ ht)
      have hothers : ∀ time ∈ calls.flatMap BucketCall.times, t.clock ≤ time :=
        fun time ht => hclock time (List.mem_append_right _ ht)
      cases c with
      | checkAndRecord key now insertedAt =>
          refine ⟨⟨hfirst now (by simp [BucketCall.times]), ?_⟩, ih hrest ?_⟩
          · simpa [BucketCall.times] using hcall
          · intro time ht
            exact hlater insertedAt (by simp [BucketCall.times]) time ht
      | completeRecord key response => exact ⟨trivial, ih hrest hothers⟩
      | cleanupExpired now =>
          refine ⟨hfirst now (by simp [BucketCall.times]), ih hrest ?_⟩
          intro time ht
          exact hlater now (by simp [BucketCall.times]) time ht

theorem tracked_run {capacity ttl : Nat} (hcapacity : 1 ≤ capacity) {calls : List BucketCall}
    (htimes : (calls.flatMap BucketCall.times).Pairwise (· ≤ ·)) :
    (run Trace.step (new capacity ttl) calls).Tracked capacity ttl := by
  refine (along_timely htimes ?_).invariant (fun t c h htimely => h.step hcapacity htimely)
    (tracked_new capacity ttl)
  intro time _
  exact Nat.zero_le time

end Trace

inductive Call
  | checkAndRecord (tenantId nsName key : String) (now insertedAt : Nat)
  | completeRecord (tenantId nsName key : String) (response : Option Bytes)
  | cleanupExpired (now : Nat)

namespace Call

def times : Call → List Nat
  | .checkAndRecord _ _ _ now insertedAt => [now, insertedAt]
  | .completeRecord _ _ _ _ => []
  | .cleanupExpired now => [now]

def onBucket (bucketKey : String) : Call → Option BucketCall
  | .checkAndRecord tenantId nsName key now insertedAt =>
      if InMemoryIdempotencyStore.bucketKey tenantId nsName = bucketKey then
        some (.checkAndRecord key now insertedAt) else none
  | .completeRecord tenantId nsName key response =>
      if InMemoryIdempotencyStore.bucketKey tenantId nsName = bucketKey then
        some (.completeRecord key response) else none
  | .cleanupExpired now => some (.cleanupExpired now)

theorem times_of_onBucket {bucketKey : String} {c : Call} {bc : BucketCall}
    (h : c.onBucket bucketKey = some bc) : bc.times = c.times := by
  cases c with
  | cleanupExpired now => cases h; rfl
  | _ =>
      simp only [onBucket] at h
      split_ifs at h
      cases h
      rfl

theorem times_sublist (bucketKey : String) (calls : List Call) :
    ((calls.filterMap (onBucket bucketKey)).flatMap BucketCall.times).Sublist
      (calls.flatMap times) := by
  induction calls with
  | nil => exact List.Sublist.slnil
  | cons c calls ih =>
      rw [List.flatMap_cons]
      cases hc : c.onBucket bucketKey with
      | none =>
          rw [List.filterMap_cons_none hc]
          exact ih.trans (List.sublist_append_right _ _)
      | some bc =>
          rw [List.filterMap_cons_some hc, List.flatMap_cons, times_of_onBucket hc]
          exact (List.Sublist.refl _).append ih

end Call

namespace InMemoryIdempotencyStore

/-- The bucket, or the one that would be made for the next call. -/
def bucketOf (s : InMemoryIdempotencyStore) (key : String) : Bucket :=
  (s.buckets.lookup key).getD (Bucket.new s.capacityPerBucket s.ttl)

/-- A call on the bucket `key` that leaves it as `bucket`. -/
structure Writes (key : String) (bucket : Bucket) (s s' : InMemoryIdempotencyStore) : Prop where
  capacity_eq : s'.capacityPerBucket = s.capacityPerBucket
  ttl_eq : s'.ttl = s.ttl
  lookup : ∀ k, s'.buckets.lookup k = if k = key then some bucket else s.buckets.lookup k

variable {s s' : InMemoryIdempotencyStore} {tenantId nsName key : String} {bucket : Bucket}

theorem Writes.bucketOf (h : Writes key bucket s s') (k : String) :
    s'.bucketOf k = if k = key then bucket else s.bucketOf k := by
  unfold InMemoryIdempotencyStore.bucketOf
  rw [h.lookup k, h.capacity_eq, h.ttl_eq]
  split_ifs
  · rfl
  · rfl

theorem getOrCreateBucket_fst (s : InMemoryIdempotencyStore) (tenantId nsName : String) :
    (s.getOrCreateBucket tenantId nsName).1 = s.bucketOf (bucketKey tenantId nsName) := by
  simp only [getOrCreateBucket, InMemoryIdempotencyStore.bucketOf]
  cases s.buckets.lookup (bucketKey tenantId nsName) with
  | some bucket => rfl
  | none => rfl

theorem getOrCreateBucket_writes (s : InMemoryIdempotencyStore) (tenantId nsName : String)
    (bucket : Bucket) :
    Writes (bucketKey tenantId nsName) bucket s
      { (s.getOrCreateBucket tenantId nsName).2 with
        buckets := (s.getOrCreateBucket tenantId nsName).2.buckets.insert
          (bucketKey tenantId nsName) bucket } := by
  simp only [getOrCreateBucket]
  cases s.buckets.lookup (bucketKey tenantId nsName) with
  | some created =>
      refine ⟨rfl, rfl, ?_⟩
      intro k
      exact Assoc.lookup_insert s.buckets _ k bucket
  | none =>
      refine ⟨rfl, rfl, ?_⟩
      intro k
      refine (Assoc.lookup_insert _ _ k bucket).trans ?_
      split_ifs with hk
      · rfl
      · exact Assoc.lookup_insert_of_ne _ _ hk

theorem checkAndRecord_spec (s : InMemoryIdempotencyStore) (now insertedAt : Nat)
    (tenantId nsName key : String) :
    (s.checkAndRecord now insertedAt tenantId nsName key).1 =
        ((s.bucketOf (bucketKey tenantId nsName)).checkAndRecord now insertedAt key).1 ∧
      Writes (bucketKey tenantId nsName)
        ((s.bucketOf (bucketKey tenantId nsName)).checkAndRecord now insertedAt key).2 s
        (s.checkAndRecord now insertedAt tenantId nsName key).2 := by
  rw [← getOrCreateBucket_fst]
  exact ⟨rfl, getOrCreateBucket_writes s tenantId nsName _⟩

theorem completeRecord_spec (s : InMemoryIdempotencyStore) (tenantId nsName key : String)
    (response : Option Bytes) :
    Writes (bucketKey tenantId nsName)
      ((s.bucketOf (bucketKey tenantId nsName)).completeRecord key response) s
      (s.completeRecord tenantId nsName key response) := by
  rw [← getOrCreateBucket_fst]
  exact getOrCreateBucket_writes s tenantId nsName _

theorem cleanupExpired_bucketOf (s : InMemoryIdempotencyStore) (now : Nat) (k : String) :
    (s.cleanupExpired now).2.bucketOf k = ((s.bucketOf k).evictExpired now).2 := by
  unfold InMemoryIdempotencyStore.bucketOf cleanupExpired
  dsimp only
  rw [Assoc.lookup_mapValues]
  cases s.buckets.lookup k with
  | some bucket => rfl
  | none => rfl

theorem bucketKey_inj {tenantId tenantId' nsName nsName' : String}
    (h : '\x00' ∉ tenantId.toList) (h' : '\x00' ∉ tenantId'.toList) :
    bucketKey tenantId nsName = bucketKey tenantId' nsName' ↔
      tenantId = tenantId' ∧ nsName = nsName' := by
  have htext : ∀ t n : String, (bucketKey t n).toList = t.toList ++ '\x00' :: n.toList := by
    intro t n
    simp [bucketKey]
  rw [← String.toList_inj, htext, htext, append_cons_inj h h', String.toList_inj,
    String.toList_inj]

end InMemoryIdempotencyStore

/-- A store with its answers so far, newest first. -/
structure Ledger where
  store : InMemoryIdempotencyStore
  answers : List ((String × String) × Answer)

namespace Ledger

open InMemoryIdempotencyStore

def new (capacity ttl : Nat) : Ledger := ⟨InMemoryIdempotencyStore.new capacity ttl, []⟩

def step (l : Ledger) : Call → Ledger
  | .checkAndRecord tenantId nsName key now insertedAt =>
      let (outcome, store) := l.store.checkAndRecord now insertedAt tenantId nsName key
      ⟨store, ((tenantId, nsName), ⟨key, now, insertedAt, outcome⟩) :: l.answers⟩
  | .completeRecord tenantId nsName key response =>
      { l with store := l.store.completeRecord tenantId nsName key response }
  | .cleanupExpired now => { l with store := (l.store.cleanupExpired now).2 }

def answersOf (l : Ledger) (key : String) : List Answer :=
  l.answers.filterMap fun x => if bucketKey x.1.1 x.1.2 = key then some x.2 else none

theorem answersOf_cons (l : Ledger) (store : InMemoryIdempotencyStore) (tenantId nsName : String)
    (a : Answer) (key : String) :
    (⟨store, ((tenantId, nsName), a) :: l.answers⟩ : Ledger).answersOf key =
      if bucketKey tenantId nsName = key then a :: l.answersOf key else l.answersOf key := by
  simp only [answersOf, List.filterMap_cons]
  split_ifs
  · rfl
  · rfl

/-- One bucket of the store is what the calls on it have made of it. -/
structure View (key : String) (l : Ledger) (t : Trace) : Prop where
  bucket : l.store.bucketOf key = t.bucket
  answers : l.answersOf key = t.answers

theorem View.step {key : String} {l : Ledger} {t : Trace} (h : View key l t) (c : Call) :
    View key (l.step c) (run Trace.step t (c.onBucket key).toList) := by
  cases c with
  | checkAndRecord tenantId nsName k now insertedAt =>
      obtain ⟨hfst, hwrites⟩ := checkAndRecord_spec l.store now insertedAt tenantId nsName k
      by_cases hkey : bucketKey tenantId nsName = key
      · subst hkey
        rw [h.bucket] at hfst hwrites
        simp only [Call.onBucket, if_true]
        refine ⟨?_, ?_⟩
        · exact (hwrites.bucketOf _).trans (if_pos rfl)
        · refine (answersOf_cons l _ tenantId nsName ⟨k, now, insertedAt,
            (l.store.checkAndRecord now insertedAt tenantId nsName k).1⟩ _).trans ?_
          rw [if_pos rfl, h.answers, hfst]
          rfl
      · simp only [Call.onBucket, if_neg hkey]
        refine ⟨?_, ?_⟩
        · exact ((hwrites.bucketOf _).trans (if_neg (Ne.symm hkey))).trans h.bucket
        · refine (answersOf_cons l _ tenantId nsName _ _).trans ?_
          rw [if_neg hkey]
          exact h.answers
  | completeRecord tenantId nsName k response =>
      have hwrites := completeRecord_spec l.store tenantId nsName k response
      by_cases hkey : bucketKey tenantId nsName = key
      · subst hkey
        rw [h.bucket] at hwrites
        simp only [Call.onBucket, if_true]
        exact ⟨(hwrites.bucketOf _).trans (if_pos rfl), h.answers⟩
      · simp only [Call.onBucket, if_neg hkey]
        exact ⟨((hwrites.bucketOf _).trans (if_neg (Ne.symm hkey))).trans h.bucket, h.answers⟩
  | cleanupExpired now =>
      refine ⟨?_, h.answers⟩
      refine (cleanupExpired_bucketOf l.store now key).trans ?_
      rw [h.bucket]
      rfl

/-- What a run makes of one bucket depends on the calls on it alone. -/
theorem ledger_view (capacity ttl : Nat) (key : String) (calls : List Call) :
    View key (run step (new capacity ttl) calls)
      (run Trace.step (Trace.new capacity ttl) (calls.filterMap (Call.onBucket key))) := by
  induction calls using List.reverseRecOn with
  | nil => exact ⟨rfl, rfl⟩
  | append_singleton calls c ih =>
      have hview := ih.step c
      rw [run_concat, List.filterMap_append]
      have hsplit : run Trace.step (Trace.new capacity ttl)
          (calls.filterMap (Call.onBucket key) ++ [c].filterMap (Call.onBucket key)) =
          run Trace.step (run Trace.step (Trace.new capacity ttl)
            (calls.filterMap (Call.onBucket key))) (c.onBucket key).toList := by
        rw [run, run, List.foldl_append]
        cases hc : c.onBucket key with
        | none => rw [List.filterMap_cons_none hc]; rfl
        | some bc => rw [List.filterMap_cons_some hc]; rfl
      rw [hsplit]
      exact hview

/-- In every run of a store at times that do not go back: each bucket keeps its map and its
order list in step and within its capacity; two first-seen answers for one key of a bucket
are separated by more than the time to live or by `capacity` insertions of other keys; and
the answers of a bucket are those of any other run with the same calls on it. -/
theorem store_sound (capacity ttl : Nat) (hcapacity : 1 ≤ capacity) (calls : List Call)
    (htimes : (calls.flatMap Call.times).Pairwise (· ≤ ·)) :
    (∀ key bucket, (run step (new capacity ttl) calls).store.buckets.lookup key = some bucket →
      bucket.Consistent ∧ bucket.capacity = capacity) ∧
    (∀ tenantId nsName, Separated capacity ttl
      ((run step (new capacity ttl) calls).answersOf (bucketKey tenantId nsName))) ∧
    ∀ tenantId nsName calls', calls'.filterMap (Call.onBucket (bucketKey tenantId nsName)) =
        calls.filterMap (Call.onBucket (bucketKey tenantId nsName)) →
      (run step (new capacity ttl) calls').answersOf (bucketKey tenantId nsName) =
        (run step (new capacity ttl) calls).answersOf (bucketKey tenantId nsName) := by
  have htracked : ∀ key, (run Trace.step (Trace.new capacity ttl)
      (calls.filterMap (Call.onBucket key))).Tracked capacity ttl :=
    fun key => Trace.tracked_run hcapacity (htimes.sublist (Call.times_sublist key calls))
  refine ⟨?_, ?_, ?_⟩
  · intro key bucket hlookup
    have hbucket := (ledger_view capacity ttl key calls).bucket
    rw [InMemoryIdempotencyStore.bucketOf, hlookup, Option.getD_some] at hbucket
    rw [hbucket]
    exact ⟨(htracked key).consistent, (htracked key).capacity_eq⟩
  · intro tenantId nsName
    rw [(ledger_view capacity ttl _ calls).answers]
    exact (htracked _).separated
  · intro tenantId nsName calls' hsame
    rw [(ledger_view capacity ttl _ calls').answers, (ledger_view capacity ttl _ calls).answers,
      hsame]

/-- The key `k` is claimed, evicted by another key and claimed again. -/
theorem store_sound_evicted :
    1 ≤ 1 ∧
      ([.checkAndRecord "t" "n" "k" 0 0, .checkAndRecord "t" "n" "other" 1 1,
        .checkAndRecord "t" "n" "k" 2 2].flatMap Call.times).Pairwise (· ≤ ·) ∧
      Separated 1 60 ((run step (new 1 60)
        [.checkAndRecord "t" "n" "k" 0 0, .checkAndRecord "t" "n" "other" 1 1,
          .checkAndRecord "t" "n" "k" 2 2]).answersOf (bucketKey "t" "n")) :=
  ⟨le_rfl, by decide, (store_sound 1 60 le_rfl [.checkAndRecord "t" "n" "k" 0 0,
    .checkAndRecord "t" "n" "other" 1 1, .checkAndRecord "t" "n" "k" 2 2] (by decide)).2.1
    "t" "n"⟩

end Ledger

end PlexSpaces.Mailbox
