import PlexSpaces.Channel.Waiting
import PlexSpaces.Lib.Pool
import PlexSpaces.Outbox.Partitioned
/-!
# Retries of a durable outbox

A relay over the SQLite channel.  The relay counts attempts by the delivery count
of the row and gives up by its own limit; the channel refuses to requeue a row
whose delivery count has reached the channel's limit, and a requeue after a
refused permit raises the count as well.  `honours_retry_policy_iff` says for
which runs every message leaves by a successful delivery or after as many failed
ones as the policy allows.
-/

namespace PlexSpaces.Outbox

open PlexSpaces.Lib PlexSpaces.Channel

def sqliteApi (channel : SqliteChannel) : ChannelApi Database where
  send message db :=
    let (result, db) := Interaction.run Database.serve (channel.send message) db
    (result.isOk, db)
  tryReceive maxMessages db :=
    Interaction.run Database.serve (channel.receive maxMessages.toNat) db
  ack messageId db := (Interaction.run Database.serve (channel.ack messageId) db).2
  nack messageId requeue delay db :=
    (Interaction.run Database.serve (channel.nack messageId requeue delay) db).2

/-! ## The outbox and its record -/

def Attempt.isRefused : Attempt → Bool
  | refused _ => true
  | _ => false

def Attempt.isDelivered : Attempt → Bool
  | delivered _ => true
  | _ => false

def Attempt.isFailed : Attempt → Bool
  | failed _ _ => true
  | _ => false

/-- The failed calls of `deliver` among the attempts. -/
def failures (attempts : List Attempt) : Nat := attempts.countP (·.isFailed)

/-- An outbox with one relay, and a record of its messages: the attempts for each message since
it was inserted, and those for each message that no longer waits. -/
structure DurableOutbox where
  partition : Partition Database
  attempts : String → List Attempt := fun _ => []
  departures : List (List Attempt) := []

/-- A limiter is shared, so that others may change it. -/
inductive DurableAction where
  | send (message : Message)
  | relay (action : RelayAction)
  | wait (ms : Nat)
  | limiter (limiter : ConcurrencyLimiter)

def Partition.withChannel (p : Partition Database) (db : Database) : Partition Database :=
  { p with state := { p.state with channel := db } }

namespace DurableOutbox

variable (outbox : DurableOutbox)

def database : Database := outbox.partition.state.channel

def act : DurableAction → Partition Database
  | .send message => (outbox.partition.send message).2
  | .relay action => outbox.partition.step action
  | .wait ms =>
      outbox.partition.withChannel { outbox.database with clock := outbox.database.clock + ms }
  | .limiter limiter =>
      { outbox.partition with state := { outbox.partition.state with limiter } }

def attempt? : DurableAction → Option Attempt
  | .relay action => outbox.partition.attempt? action
  | _ => none

def waitingIds (scope : Scope) (p : Partition Database) : List String :=
  (p.state.channel.waiting scope).map (·.id)

/-- The attempts for a message that waited before the action; a message that did not is new. -/
def attemptsWith (scope : Scope) (attempt : Option Attempt) (id : String) : List Attempt :=
  if id ∈ waitingIds scope outbox.partition then
    outbox.attempts id ++ attempt.toList.filter (·.message.id = id)
  else []

/-- The record of an action that made the attempt and led to the partition. -/
def record (scope : Scope) (attempt : Option Attempt) (p : Partition Database) : DurableOutbox where
  partition := p
  attempts := outbox.attemptsWith scope attempt
  departures := outbox.departures ++
    ((waitingIds scope outbox.partition).filter (· ∉ waitingIds scope p)).map
      (outbox.attemptsWith scope attempt)

def step (scope : Scope) (outbox : DurableOutbox) (action : DurableAction) : DurableOutbox :=
  outbox.record scope (outbox.attempt? action) (outbox.act action)

end DurableOutbox

/-- A relay over a channel, before its first step. -/
def DurableOutbox.start (relay : OutboxRelay) (channel : SqliteChannel)
    (limiter : ConcurrencyLimiter) (db : Database) : DurableOutbox where
  partition := { relay, api := sqliteApi channel, state := { channel := db, limiter } }

/-! ## What the policy promises -/

/-- The message was delivered, or `m` calls of `deliver` failed. -/
def Honoured (m : Nat) (attempts : List Attempt) : Prop :=
  (∃ a ∈ attempts, a.isDelivered = true) ∨ failures attempts = m

instance (m : Nat) (attempts : List Attempt) : Decidable (Honoured m attempts) :=
  inferInstanceAs (Decidable (_ ∨ _))

/-- The message was not delivered, and `m` calls of `deliver` failed. -/
def exhausted (m : Nat) (attempts : List Attempt) : Bool :=
  !attempts.any (·.isDelivered) && failures attempts == m

/-- Every message that left was delivered or failed `m` times, and `dead_lettered` counts the
latter. -/
def DurableOutbox.HonoursPolicy (m : Nat) (outbox : DurableOutbox) : Prop :=
  (∀ attempts ∈ outbox.departures, Honoured m attempts) ∧
    outbox.partition.state.stats.deadLettered = outbox.departures.countP (exhausted m)

instance (m : Nat) (outbox : DurableOutbox) : Decidable (outbox.HonoursPolicy m) :=
  inferInstanceAs (Decidable ((∀ attempts ∈ outbox.departures, Honoured m attempts) ∧ _))

/-- Permits were refused only once all but one of the `m` deliveries had failed. -/
def RefusedLate (m : Nat) (attempts : List Attempt) : Prop :=
  EachAfter (fun before a => a.isRefused = true → m ≤ failures before + 1) attempts

instance (m : Nat) (attempts : List Attempt) : Decidable (RefusedLate m attempts) :=
  inferInstanceAs (Decidable (EachAfter _ attempts))

/-- No requeue exceeds the channel's limit, and the relay does not give up a message for which a
permit was refused before its last but one failed delivery. -/
def DurableOutbox.Allows (maxRetries : UInt32) (outbox : DurableOutbox) (action : DurableAction) :
    Prop :=
  match outbox.attempt? action with
  | some (.refused message) => message.deliveryCount < maxRetries
  | some (.failed message error) =>
      let policy := outbox.partition.relay.retryPolicy
      if shouldRetry policy (message.deliveryCount + 1) error.toString then
        message.deliveryCount < maxRetries
      else
        RefusedLate policy.maxAttempts.toNat (outbox.attempts message.id)
  | _ => True

instance (maxRetries : UInt32) (outbox : DurableOutbox) (action : DurableAction) :
    Decidable (outbox.Allows maxRetries action) :=
  match h : outbox.attempt? action with
  | some (.refused message) =>
      decidable_of_iff (message.deliveryCount < maxRetries) (by rw [DurableOutbox.Allows, h])
  | some (.failed message error) =>
      let policy := outbox.partition.relay.retryPolicy
      decidable_of_iff
        (if shouldRetry policy (message.deliveryCount + 1) error.toString then
          message.deliveryCount < maxRetries
        else RefusedLate policy.maxAttempts.toNat (outbox.attempts message.id))
        (by rw [DurableOutbox.Allows, h])
  | some (.delivered _) => .isTrue (by rw [DurableOutbox.Allows, h]; trivial)
  | none => .isTrue (by rw [DurableOutbox.Allows, h]; trivial)

/-! ## Messages that were tried -/

section Tried

variable {m dc : Nat} {maxRetries : UInt32} {attempts : List Attempt} {message : Message}
variable {error : DeliveryError}

theorem failures_refused : failures (attempts ++ [.refused message]) = failures attempts :=
  List.countP_append

theorem failures_failed :
    failures (attempts ++ [.failed message error]) = failures attempts + 1 :=
  List.countP_append

theorem refusedLate_failed :
    RefusedLate m (attempts ++ [.failed message error]) ↔ RefusedLate m attempts :=
  eachAfter_concat.trans (and_iff_left nofun)

theorem refusedLate_refused :
    RefusedLate m (attempts ++ [.refused message]) ↔
      RefusedLate m attempts ∧ m ≤ failures attempts + 1 :=
  eachAfter_concat.trans (and_congr_right' ⟨fun h => h rfl, fun h _ => h⟩)

/-- What every run keeps for a message that waits: each attempt raised the delivery count, and
while the last but one failure has not come, a refused permit takes the place of a failure. -/
structure Tried (m : Nat) (maxRetries : UInt32) (dc : Nat) (attempts : List Attempt) : Prop where
  count : dc = attempts.length
  limit : dc ≤ maxRetries.toNat
  undelivered : attempts.any (·.isDelivered) = false
  failures_lt : failures attempts < m
  failures_le : failures attempts ≤ attempts.length
  late : RefusedLate m attempts → failures attempts = attempts.length ∨ failures attempts + 1 = m
  early : ¬RefusedLate m attempts →
    failures attempts < attempts.length ∧ failures attempts + 1 < m

theorem tried_nil (hm : 0 < m) : Tried m maxRetries 0 [] where
  count := rfl
  limit := Nat.zero_le _
  undelivered := rfl
  failures_lt := hm
  failures_le := le_rfl
  late _ := .inl rfl
  early h := absurd eachAfter_nil h

namespace Tried

theorem refused (h : Tried m maxRetries dc attempts) (hlimit : dc < maxRetries.toNat) :
    Tried m maxRetries (dc + 1) (attempts ++ [.refused message]) where
  count := by rw [h.count, List.length_append, List.length_singleton]
  limit := hlimit
  undelivered := by rw [List.any_append, h.undelivered]; rfl
  failures_lt := failures_refused.trans_lt h.failures_lt
  failures_le := by
    rw [failures_refused, List.length_append]
    exact h.failures_le.trans (Nat.le_add_right _ _)
  late hlate := by
    rw [refusedLate_refused] at hlate
    rw [failures_refused]
    exact .inr (le_antisymm h.failures_lt hlate.2)
  early hearly := by
    rw [refusedLate_refused, not_and_or, not_le] at hearly
    rw [failures_refused, List.length_append, List.length_singleton]
    refine ⟨Nat.lt_succ_of_le h.failures_le, ?_⟩
    exact hearly.elim (fun hearly => (h.early hearly).2) id

theorem retried (h : Tried m maxRetries dc attempts) (hlimit : dc < maxRetries.toNat)
    (hretry : dc + 1 < m) :
    Tried m maxRetries (dc + 1) (attempts ++ [.failed message error]) := by
  have hcount := h.count
  have hle := h.failures_le
  refine ⟨?_, hlimit, ?_, ?_, ?_, ?_, ?_⟩
  · rw [h.count, List.length_append, List.length_singleton]
  · rw [List.any_append, h.undelivered]
    rfl
  · rw [failures_failed]
    omega
  · rw [failures_failed, List.length_append, List.length_singleton]
    omega
  · intro hlate
    rw [failures_failed, List.length_append, List.length_singleton]
    have hall := h.late (refusedLate_failed.mp hlate)
    omega
  · intro hearly
    rw [failures_failed, List.length_append, List.length_singleton]
    obtain ⟨hlt, -⟩ := h.early fun hlate => hearly (refusedLate_failed.mpr hlate)
    omega

/-- A message that is given up has failed `m` times exactly if permits were refused late. -/
theorem exhausted_iff (h : Tried m maxRetries dc attempts) (hlast : m ≤ dc + 1) :
    failures (attempts ++ [.failed message error]) = m ↔ RefusedLate m attempts := by
  have hcount := h.count
  have hlt := h.failures_lt
  rw [failures_failed]
  constructor
  · intro hfailures
    by_contra hearly
    obtain ⟨-, hearly⟩ := h.early hearly
    omega
  · intro hlate
    have hall := h.late hlate
    omega

end Tried

end Tried

/-! ## The record -/

namespace DurableOutbox

section Record

variable {scope : Scope} {outbox : DurableOutbox} {p : Partition Database}
variable {attempt : Option Attempt} {id : String}

theorem attemptsWith_none (hid : id ∈ waitingIds scope outbox.partition) :
    outbox.attemptsWith scope none id = outbox.attempts id := by
  rw [attemptsWith, if_pos hid]
  exact List.append_nil _

theorem attemptsWith_other (hid : id ∈ waitingIds scope outbox.partition)
    (hattempt : ∀ a ∈ attempt, a.message.id ≠ id) :
    outbox.attemptsWith scope attempt id = outbox.attempts id := by
  rw [attemptsWith, if_pos hid, List.filter_eq_nil_iff.mpr, List.append_nil]
  simpa using hattempt

theorem attemptsWith_self {a : Attempt} (hid : a.message.id ∈ waitingIds scope outbox.partition) :
    outbox.attemptsWith scope (some a) a.message.id = outbox.attempts a.message.id ++ [a] := by
  rw [attemptsWith, if_pos hid, Option.toList_some, List.filter_cons_of_pos (by simp)]
  rfl

theorem attemptsWith_new (hid : id ∉ waitingIds scope outbox.partition) :
    outbox.attemptsWith scope attempt id = [] := if_neg hid

theorem departures_record_of_subset
    (hsub : waitingIds scope outbox.partition ⊆ waitingIds scope p) :
    (outbox.record scope attempt p).departures = outbox.departures := by
  have hleft : (waitingIds scope outbox.partition).filter (· ∉ waitingIds scope p) = [] :=
    List.filter_eq_nil_iff.mpr fun id hid => by simpa using hsub hid
  rw [record, hleft]
  exact List.append_nil _

theorem departures_record_of_gone (hid : id ∈ waitingIds scope outbox.partition)
    (hgone : p.state.channel.waiting scope =
      (outbox.database.waiting scope).filter fun row => row.id ≠ id) :
    (outbox.record scope attempt p).departures =
      outbox.departures ++ [outbox.attemptsWith scope attempt id] := by
  have hnodup : (waitingIds scope outbox.partition).Nodup := Database.nodup_waiting _ _
  have hleft : (waitingIds scope outbox.partition).filter (· ∉ waitingIds scope p) = [id] := by
    calc
      _ = (waitingIds scope outbox.partition).filter (· = id) := by
        refine List.filter_congr fun id' hid' => ?_
        obtain ⟨row, hrow, rfl⟩ := List.mem_map.mp hid'
        rw [waitingIds, hgone, decide_eq_decide, List.mem_map]
        constructor
        · intro hnot
          by_contra hne
          exact hnot ⟨row, List.mem_filter.mpr ⟨hrow, by simpa using hne⟩, rfl⟩
        · rintro hid ⟨row', hrow', hrow⟩
          exact of_decide_eq_true (List.mem_filter.mp hrow').2 (hrow.trans hid)
      _ = List.replicate (List.count id (waitingIds scope outbox.partition)) id :=
        List.filter_eq _
      _ = [id] := by rw [List.count_eq_one_of_mem hnodup hid, List.replicate_one]
  rw [record, hleft]
  rfl

end Record

/-! ## Steps -/

/-- What every run keeps. -/
structure Consistent (relay : OutboxRelay) (channel : SqliteChannel) (outbox : DurableOutbox) :
    Prop where
  ofRelay : outbox.partition.relay = relay
  ofChannel : outbox.partition.api = sqliteApi channel
  nodup : (outbox.partition.state.batch.map (·.id)).Nodup
  batch : ∀ message ∈ outbox.partition.state.batch,
    ∃ row ∈ outbox.database.waiting channel.scope,
      row.id = message.id ∧ message.deliveryCount = .ofNat row.deliveryCount
  tried : ∀ row ∈ outbox.database.waiting channel.scope,
    Tried relay.retryPolicy.maxAttempts.toNat (maxRetriesFromConfig channel.config)
      row.deliveryCount (outbox.attempts row.id)
  counted : outbox.partition.state.stats.deadLettered ≤
    outbox.departures.countP fun attempts => !attempts.any (·.isDelivered)

/-- What a step adds to the record, by the condition under which it honours the policy. -/
inductive Recorded (m : Nat) (outbox outbox' : DurableOutbox) : Prop → Prop
  | same (hdepartures : outbox'.departures = outbox.departures)
      (hcounter : outbox'.partition.state.stats.deadLettered =
        outbox.partition.state.stats.deadLettered) : Recorded m outbox outbox' True
  | delivered (attempts : List Attempt) (hdelivered : attempts.any (·.isDelivered) = true)
      (hdepartures : outbox'.departures = outbox.departures ++ [attempts])
      (hcounter : outbox'.partition.state.stats.deadLettered =
        outbox.partition.state.stats.deadLettered) : Recorded m outbox outbox' True
  | exhausted (attempts : List Attempt) (hundelivered : attempts.any (·.isDelivered) = false)
      (hdepartures : outbox'.departures = outbox.departures ++ [attempts])
      (hcounter : outbox'.partition.state.stats.deadLettered =
        outbox.partition.state.stats.deadLettered + 1) :
      Recorded m outbox outbox' (failures attempts = m)
  | dropped (attempts : List Attempt) (hundelivered : attempts.any (·.isDelivered) = false)
      (hdepartures : outbox'.departures = outbox.departures ++ [attempts])
      (hcounter : outbox'.partition.state.stats.deadLettered =
        outbox.partition.state.stats.deadLettered) : Recorded m outbox outbox' False

section Recorded

variable {m : Nat} {outbox outbox' : DurableOutbox} {allowed : Prop}

theorem Recorded.counted (h : Recorded m outbox outbox' allowed)
    (hcounted : outbox.partition.state.stats.deadLettered ≤
      outbox.departures.countP fun attempts => !attempts.any (·.isDelivered)) :
    outbox'.partition.state.stats.deadLettered ≤
      outbox'.departures.countP fun attempts => !attempts.any (·.isDelivered) := by
  cases h with
  | same hdepartures hcounter => rwa [hdepartures, hcounter]
  | delivered attempts hdelivered hdepartures hcounter =>
      rw [hdepartures, hcounter, List.countP_append]
      exact Nat.le_add_right_of_le hcounted
  | exhausted attempts hundelivered hdepartures hcounter =>
      rw [hdepartures, hcounter, List.countP_append]
      simpa [hundelivered] using hcounted
  | dropped attempts hundelivered hdepartures hcounter =>
      rw [hdepartures, hcounter, List.countP_append]
      exact Nat.le_add_right_of_le hcounted

/-- Where every departure is honoured, the undelivered messages are the exhausted ones. -/
theorem honoursPolicy_iff :
    outbox.HonoursPolicy m ↔ (∀ attempts ∈ outbox.departures, Honoured m attempts) ∧
      outbox.partition.state.stats.deadLettered =
        outbox.departures.countP fun attempts => !attempts.any (·.isDelivered) := by
  refine and_congr_right fun hhonoured => ?_
  rw [List.countP_congr fun attempts hmem => ?_]
  have h := hhonoured attempts hmem
  rw [Honoured, ← List.any_eq_true] at h
  simp only [exhausted, Bool.and_eq_true, beq_iff_eq]
  refine and_iff_left_of_imp fun hundelivered => h.resolve_left ?_
  simpa using hundelivered

theorem Recorded.honoursPolicy_iff (h : Recorded m outbox outbox' allowed)
    (hcounted : outbox.partition.state.stats.deadLettered ≤
      outbox.departures.countP fun attempts => !attempts.any (·.isDelivered)) :
    outbox'.HonoursPolicy m ↔ outbox.HonoursPolicy m ∧ allowed := by
  rw [DurableOutbox.honoursPolicy_iff, DurableOutbox.honoursPolicy_iff]
  cases h with
  | same hdepartures hcounter => rw [hdepartures, hcounter, and_true]
  | delivered attempts hdelivered hdepartures hcounter =>
      have hhonoured : Honoured m attempts := .inl (List.any_eq_true.mp hdelivered)
      rw [hdepartures, hcounter, List.forall_mem_append, List.forall_mem_singleton,
        List.countP_append, List.countP_singleton, and_true, and_iff_left hhonoured]
      simp [hdelivered]
  | exhausted attempts hundelivered hdepartures hcounter =>
      have hhonoured : Honoured m attempts ↔ failures attempts = m := by
        rw [Honoured, ← List.any_eq_true, hundelivered]
        simp
      rw [hdepartures, hcounter, List.forall_mem_append, List.forall_mem_singleton,
        List.countP_append, List.countP_singleton, hhonoured, and_right_comm]
      simp [hundelivered]
  | dropped attempts hundelivered hdepartures hcounter =>
      rw [hdepartures, hcounter, List.countP_append, List.countP_singleton]
      refine iff_of_false (fun h => ?_) fun h => h.2
      have hcount := h.2
      rw [hundelivered] at hcount
      simp at hcount
      omega

end Recorded

section Step

variable {relay : OutboxRelay} {channel : SqliteChannel} {outbox : DurableOutbox}

/-- The messages that wait go on waiting with their delivery counts, and new ones have none. -/
structure Kept (before after : List ChannelMessage) : Prop where
  kept : ∀ row ∈ before, ∃ row' ∈ after, row'.id = row.id ∧ row'.deliveryCount = row.deliveryCount
  new : ∀ row' ∈ after,
    (∃ row ∈ before, row.id = row'.id ∧ row.deliveryCount = row'.deliveryCount) ∨
      (row'.deliveryCount = 0 ∧ row'.id ∉ before.map (·.id))

theorem kept_refl (rows : List ChannelMessage) : Kept rows rows where
  kept row hrow := ⟨row, hrow, rfl, rfl⟩
  new row hrow := .inl ⟨row, hrow, rfl, rfl⟩

theorem kept_of_sent {message : Message} {db db' : Database} {ok : Bool}
    (h : Sent channel message db db' ok) :
    Kept (db.waiting channel.scope) (db'.waiting channel.scope) := by
  cases h with
  | rewritten f hf hwaiting =>
      rw [hwaiting]
      constructor
      · exact fun row hrow =>
          ⟨f row, List.mem_map_of_mem hrow, hf.id row, hf.deliveryCount row⟩
      · intro row' hrow'
        obtain ⟨row, hrow, rfl⟩ := List.mem_map.mp hrow'
        exact .inl ⟨row, hrow, (hf.id row).symm, (hf.deliveryCount row).symm⟩
  | appended timestamp _ hfree hwaiting =>
      rw [hwaiting]
      constructor
      · exact fun row hrow => ⟨row, List.mem_append_left _ hrow, rfl, rfl⟩
      · intro row' hrow'
        rcases List.mem_append.mp hrow' with hrow' | hrow'
        · exact .inl ⟨row', hrow', rfl, rfl⟩
        · rw [List.mem_singleton.mp hrow']
          refine .inr ⟨rfl, fun hmem => hfree ?_⟩
          exact (List.filter_sublist.map ChannelMessage.id).subset hmem
  | refused hwaiting => exact hwaiting ▸ kept_refl _

theorem Consistent.idle (h : outbox.Consistent relay channel)
    (hm : 0 < relay.retryPolicy.maxAttempts.toNat) {p : Partition Database}
    (hrelay : p.relay = outbox.partition.relay) (hapi : p.api = outbox.partition.api)
    (hcounter : p.state.stats.deadLettered = outbox.partition.state.stats.deadLettered)
    (hkept : Kept (outbox.database.waiting channel.scope) (p.state.channel.waiting channel.scope))
    (hnodup : (p.state.batch.map (·.id)).Nodup)
    (hbatch : ∀ message ∈ p.state.batch, ∃ row ∈ outbox.database.waiting channel.scope,
      row.id = message.id ∧ message.deliveryCount = .ofNat row.deliveryCount) :
    (outbox.record channel.scope none p).Consistent relay channel ∧
      Recorded relay.retryPolicy.maxAttempts.toNat outbox (outbox.record channel.scope none p)
        True := by
  have hdepartures : (outbox.record channel.scope none p).departures = outbox.departures := by
    refine departures_record_of_subset fun id hid => ?_
    obtain ⟨row, hrow, rfl⟩ := List.mem_map.mp hid
    obtain ⟨row', hrow', hid', -⟩ := hkept.kept row hrow
    exact List.mem_map.mpr ⟨row', hrow', hid'⟩
  have hrecorded : Recorded relay.retryPolicy.maxAttempts.toNat outbox
      (outbox.record channel.scope none p) True := .same hdepartures hcounter
  refine ⟨⟨hrelay.trans h.ofRelay, hapi.trans h.ofChannel, hnodup, ?_, ?_,
    hrecorded.counted h.counted⟩, hrecorded⟩
  · intro message hmessage
    obtain ⟨row, hrow, hid, hcount⟩ := hbatch message hmessage
    obtain ⟨row', hrow', hid', hcount'⟩ := hkept.kept row hrow
    exact ⟨row', hrow', hid'.trans hid, hcount'.symm ▸ hcount⟩
  · intro row' hrow'
    change Tried _ _ _ (outbox.attemptsWith channel.scope none row'.id)
    rcases hkept.new row' hrow' with ⟨row, hrow, hid, hcount⟩ | ⟨hcount, hnew⟩
    · rw [attemptsWith_none (List.mem_map.mpr ⟨row, hrow, hid⟩), ← hid, ← hcount]
      exact h.tried row hrow
    · rw [attemptsWith_new hnew, hcount]
      exact tried_nil hm

section Process

variable {message : Message} {batch : List Message} {row : ChannelMessage} {a : Attempt}
variable {p : Partition Database}

theorem Consistent.rest (h : outbox.Consistent relay channel)
    (hbatch : outbox.partition.state.batch = message :: batch) :
    (batch.map (·.id)).Nodup ∧ ∀ message' ∈ batch, message'.id ≠ message.id ∧
      ∃ row ∈ outbox.database.waiting channel.scope,
        row.id = message'.id ∧ message'.deliveryCount = .ofNat row.deliveryCount := by
  have hnodup := h.nodup
  rw [hbatch, List.map_cons, List.nodup_cons] at hnodup
  refine ⟨hnodup.2, fun message' hmessage' => ⟨?_, ?_⟩⟩
  · intro hid
    exact hnodup.1 (List.mem_map.mpr ⟨message', hmessage', hid⟩)
  · exact h.batch message' (hbatch ▸ List.mem_cons_of_mem _ hmessage')

theorem Consistent.requeued (h : outbox.Consistent relay channel)
    (hbatch : outbox.partition.state.batch = message :: batch)
    (hrow : row ∈ outbox.database.waiting channel.scope) (hid : row.id = message.id)
    (hmessage : a.message = message)
    (hrelay : p.relay = outbox.partition.relay) (hapi : p.api = outbox.partition.api)
    (hrest : p.state.batch = batch)
    (hcounter : p.state.stats.deadLettered = outbox.partition.state.stats.deadLettered)
    (hwaiting : ∃ sendAt, p.state.channel.waiting channel.scope =
      (outbox.database.waiting channel.scope).map fun row' =>
        if row'.id = row.id then row'.requeued sendAt else row')
    (htried : Tried relay.retryPolicy.maxAttempts.toNat (maxRetriesFromConfig channel.config)
      (row.deliveryCount + 1) (outbox.attempts message.id ++ [a])) :
    (outbox.record channel.scope (some a) p).Consistent relay channel ∧
      Recorded relay.retryPolicy.maxAttempts.toNat outbox
        (outbox.record channel.scope (some a) p) True := by
  obtain ⟨sendAt, hwaiting⟩ := hwaiting
  obtain ⟨hnodup, hothers⟩ := h.rest hbatch
  have hmem : ∀ row' ∈ outbox.database.waiting channel.scope, row'.id = row.id → row' = row :=
    fun row' hrow' hid' =>
      Database.eq_of_mem_waiting hrow (Database.mem_waiting.mp hrow').1 hid'
  have hids : waitingIds channel.scope p = waitingIds channel.scope outbox.partition := by
    rw [waitingIds, hwaiting, List.map_map]
    refine List.map_congr_left fun row' _ => ?_
    rw [Function.comp_apply, apply_ite ChannelMessage.id]
    exact ite_self _
  have hrecorded : Recorded relay.retryPolicy.maxAttempts.toNat outbox
      (outbox.record channel.scope (some a) p) True :=
    .same (departures_record_of_subset fun _ hid => hids.symm ▸ hid) hcounter
  refine ⟨⟨hrelay.trans h.ofRelay, hapi.trans h.ofChannel, hrest ▸ hnodup, ?_, ?_,
    hrecorded.counted h.counted⟩, hrecorded⟩
  · intro message' hmessage'
    change message' ∈ p.state.batch at hmessage'
    obtain ⟨hne, row', hrow', hid', hcount⟩ := hothers message' (hrest ▸ hmessage')
    refine ⟨row', ?_, hid', hcount⟩
    change row' ∈ p.state.channel.waiting channel.scope
    rw [hwaiting]
    refine List.mem_map.mpr ⟨row', hrow', if_neg ?_⟩
    rwa [hid', hid]
  · intro row' hrow'
    change row' ∈ p.state.channel.waiting channel.scope at hrow'
    rw [hwaiting] at hrow'
    obtain ⟨row₀, hrow₀, rfl⟩ := List.mem_map.mp hrow'
    change Tried _ _ _ (outbox.attemptsWith channel.scope (some a) _)
    by_cases hid' : row₀.id = row.id
    · obtain rfl := hmem row₀ hrow₀ hid'
      rw [if_pos rfl]
      change Tried _ _ (row₀.deliveryCount + 1)
        (outbox.attemptsWith channel.scope (some a) row₀.id)
      rw [hid, ← hmessage, attemptsWith_self, hmessage]
      · exact htried
      · rw [hmessage, ← hid]
        exact List.mem_map_of_mem hrow₀
    · rw [if_neg hid', attemptsWith_other (List.mem_map_of_mem hrow₀)]
      · exact h.tried row₀ hrow₀
      · rintro _ ⟨⟩ hself
        rw [hmessage, ← hid] at hself
        exact hid' hself.symm

theorem departures_gone (hmem : row ∈ outbox.database.waiting channel.scope)
    (hid : row.id = message.id) (hmessage : a.message = message)
    (hwaiting : p.state.channel.waiting channel.scope =
      (outbox.database.waiting channel.scope).filter fun row' => row'.id ≠ row.id) :
    (outbox.record channel.scope (some a) p).departures =
      outbox.departures ++ [outbox.attempts message.id ++ [a]] := by
  have hself : a.message.id ∈ waitingIds channel.scope outbox.partition := by
    rw [hmessage, ← hid]
    exact List.mem_map_of_mem hmem
  rw [departures_record_of_gone (List.mem_map_of_mem hmem) hwaiting, hid, ← hmessage,
    attemptsWith_self hself]

theorem Consistent.gone (h : outbox.Consistent relay channel)
    (hbatch : outbox.partition.state.batch = message :: batch)
    (hid : row.id = message.id) (hmessage : a.message = message)
    (hrelay : p.relay = outbox.partition.relay) (hapi : p.api = outbox.partition.api)
    (hrest : p.state.batch = batch)
    (hwaiting : p.state.channel.waiting channel.scope =
      (outbox.database.waiting channel.scope).filter fun row' => row'.id ≠ row.id)
    {m : Nat} {allowed : Prop}
    (hrecorded : Recorded m outbox (outbox.record channel.scope (some a) p) allowed) :
    (outbox.record channel.scope (some a) p).Consistent relay channel := by
  obtain ⟨hnodup, hothers⟩ := h.rest hbatch
  refine ⟨hrelay.trans h.ofRelay, hapi.trans h.ofChannel, hrest ▸ hnodup, ?_, ?_,
    hrecorded.counted h.counted⟩
  · intro message' hmessage'
    change message' ∈ p.state.batch at hmessage'
    obtain ⟨hne, row', hrow', hid', hcount⟩ := hothers message' (hrest ▸ hmessage')
    refine ⟨row', ?_, hid', hcount⟩
    change row' ∈ p.state.channel.waiting channel.scope
    rw [hwaiting]
    refine List.mem_filter.mpr ⟨hrow', decide_eq_true ?_⟩
    rwa [hid', hid]
  · intro row' hrow'
    change row' ∈ p.state.channel.waiting channel.scope at hrow'
    rw [hwaiting] at hrow'
    obtain ⟨hrow', hne⟩ := List.mem_filter.mp hrow'
    change Tried _ _ _ (outbox.attemptsWith channel.scope (some a) row'.id)
    rw [attemptsWith_other (List.mem_map_of_mem hrow')]
    · exact h.tried row' hrow'
    · rintro _ ⟨⟩ hself
      rw [hmessage, ← hid] at hself
      exact of_decide_eq_true hne hself.symm

end Process

/-! ## The step of a whole outbox -/

theorem ofNat_lt_iff {n : Nat} {max : UInt32} (h : n ≤ max.toNat) :
    UInt32.ofNat n < max ↔ n < max.toNat := by
  rw [UInt32.lt_iff_toNat_lt, UInt32.toNat_ofNat_of_lt' (h.trans_lt max.toNat_lt)]

theorem toNat_ofNat_succ {n : Nat} {max : UInt32} (h : n < max.toNat) :
    (UInt32.ofNat n + 1).toNat = n + 1 := by
  have hmax := max.toNat_lt
  rw [UInt32.toNat_add, UInt32.toNat_ofNat_of_lt' (h.trans hmax), UInt32.toNat_one,
    Nat.mod_eq_of_lt (by omega)]

theorem toNat_ofNat_succ_le (n : Nat) : (UInt32.ofNat n + 1).toNat ≤ n + 1 := by
  rw [UInt32.toNat_add, UInt32.toNat_ofNat', UInt32.toNat_one]
  omega

theorem shouldRetry_iff {policy : RetryPolicy} (hm : 1 ≤ policy.maxAttempts)
    (hfilter : policy.retryableErrors = []) (attempt : UInt32) (error : String) :
    shouldRetry policy attempt error = true ↔ attempt < policy.maxAttempts := by
  have hne : policy.maxAttempts ≠ 0 := by
    rintro hzero
    rw [hzero] at hm
    exact absurd hm (by decide)
  rw [shouldRetry, if_neg hne, hfilter]
  simp [UInt32.not_le]

section Process

variable {message : Message} {batch : List Message} {row : ChannelMessage} {a : Attempt}
variable {p : Partition Database}

/-- A message is to be requeued: it is, or the channel's limit makes it leave. -/
theorem Consistent.nack_requeue (h : outbox.Consistent relay channel)
    (hbatch : outbox.partition.state.batch = message :: batch)
    (hrow : row ∈ outbox.database.waiting channel.scope) (hid : row.id = message.id)
    (hcount : message.deliveryCount = .ofNat row.deliveryCount)
    (hmessage : a.message = message) (hundelivered : a.isDelivered = false)
    (hrelay : p.relay = outbox.partition.relay) (hapi : p.api = outbox.partition.api)
    (hrest : p.state.batch = batch)
    (hcounter : p.state.stats.deadLettered = outbox.partition.state.stats.deadLettered)
    {delay : Option Nat}
    (hchannel : p.state.channel =
      (Interaction.run Database.serve (channel.nack message.id true delay) outbox.database).2)
    (htried : row.deliveryCount < (maxRetriesFromConfig channel.config).toNat →
      Tried relay.retryPolicy.maxAttempts.toNat (maxRetriesFromConfig channel.config)
        (row.deliveryCount + 1) (outbox.attempts message.id ++ [a])) :
    (outbox.record channel.scope (some a) p).Consistent relay channel ∧ ∃ allowed,
      (message.deliveryCount < maxRetriesFromConfig channel.config ↔ allowed) ∧
      Recorded relay.retryPolicy.maxAttempts.toNat outbox
        (outbox.record channel.scope (some a) p) allowed := by
  have hlimit := (h.tried row hrow).limit
  rw [hcount]
  rw [← hid] at hchannel
  by_cases hbelow : UInt32.ofNat row.deliveryCount < maxRetriesFromConfig channel.config
  · obtain ⟨sendAt, -, hwaiting⟩ := waiting_nack_requeue hrow hbelow delay
    obtain ⟨hconsistent, hrecorded⟩ := h.requeued hbatch hrow hid hmessage hrelay hapi hrest
      hcounter ⟨sendAt, hchannel ▸ hwaiting⟩ (htried ((ofNat_lt_iff hlimit).mp hbelow))
    exact ⟨hconsistent, True, iff_true_intro hbelow, hrecorded⟩
  · have hgone := hchannel ▸ waiting_nack_gone hrow (fun _ => hbelow) delay
    have hdeparted : Recorded relay.retryPolicy.maxAttempts.toNat outbox
        (outbox.record channel.scope (some a) p) False := by
      refine .dropped _ ?_ (departures_gone hrow hid hmessage hgone) hcounter
      have hpending := (h.tried row hrow).undelivered
      rw [hid] at hpending
      simp [hpending, hundelivered]
    exact ⟨h.gone hbatch hid hmessage hrelay hapi hrest hgone hdeparted, False,
      iff_false_intro hbelow, hdeparted⟩

end Process

theorem Consistent.process (h : outbox.Consistent relay channel)
    (hm : 1 ≤ relay.retryPolicy.maxAttempts) (hfilter : relay.retryPolicy.retryableErrors = [])
    (outcome : Outcome) :
    (outbox.step channel.scope (.relay (.process outcome))).Consistent relay channel ∧ ∃ allowed,
      (outbox.Allows (maxRetriesFromConfig channel.config) (.relay (.process outcome)) ↔ allowed) ∧
      Recorded relay.retryPolicy.maxAttempts.toNat outbox
        (outbox.step channel.scope (.relay (.process outcome))) allowed := by
  cases hbatch : outbox.partition.state.batch with
  | nil =>
      have hattempt : outbox.attempt? (.relay (.process outcome)) = none := by
        rw [attempt?, Partition.attempt?, hbatch]
        rfl
      have hact : outbox.act (.relay (.process outcome)) = outbox.partition := by
        rw [act, Partition.step, OutboxRelay.step, hbatch]
      rw [step, Allows, hattempt, hact]
      obtain ⟨hconsistent, hrecorded⟩ := h.idle (UInt32.le_iff_toNat_le.mp hm) rfl rfl rfl
        (kept_refl _) h.nodup h.batch
      exact ⟨hconsistent, True, Iff.rfl, hrecorded⟩
  | cons message batch =>
      obtain ⟨a, hattempt, hmessage, hrest, heffect⟩ :=
        Partition.step_process outbox.partition hbatch outcome
      obtain ⟨row, hrow, hid, hcount⟩ := h.batch message (hbatch ▸ List.mem_cons_self)
      have htried := h.tried row hrow
      rw [hid] at htried
      have hattempt : outbox.attempt? (.relay (.process outcome)) = some a := hattempt
      rw [step, Allows, hattempt]
      rw [h.ofChannel, h.ofRelay] at heffect
      cases heffect with
      | refused hpermit hchannel hstats =>
          exact h.nack_requeue hbatch hrow hid hcount hmessage rfl rfl rfl hrest
            (congrArg _ hstats) hchannel htried.refused
      | delivered hchannel hstats =>
          have hgone := waiting_ack hrow
          have hcounter := congrArg RelayStats.deadLettered hstats
          rw [hid] at hgone
          have hrecorded : Recorded relay.retryPolicy.maxAttempts.toNat outbox
              (outbox.record channel.scope (some (.delivered message))
                (outbox.act (.relay (.process outcome)))) True :=
            .delivered _ (List.any_append.trans (Bool.or_true _))
              (departures_gone hrow hid rfl (hid ▸ hchannel ▸ hgone)) hcounter
          exact ⟨h.gone hbatch hid rfl rfl rfl hrest (hid ▸ hchannel ▸ hgone) hrecorded, True,
            Iff.rfl, hrecorded⟩
      | retried error backoff hretry hchannel hstats =>
          dsimp only
          rw [h.ofRelay, if_pos hretry]
          refine h.nack_requeue hbatch hrow hid hcount hmessage rfl rfl rfl hrest
            (congrArg _ hstats) hchannel fun hlimit => htried.retried hlimit ?_
          rw [shouldRetry_iff hm hfilter, hcount, UInt32.lt_iff_toNat_lt] at hretry
          rwa [toNat_ofNat_succ hlimit] at hretry
      | exhausted error hretry hchannel hstats =>
          dsimp only
          have hgone := waiting_nack_gone hrow (fun h => absurd h Bool.false_ne_true) none
          have hcounter := congrArg RelayStats.deadLettered hstats
          rw [hid] at hgone
          rw [h.ofRelay, if_neg (by simp [hretry])]
          -- the attempt is the last by the relay's own count
          have hlast : relay.retryPolicy.maxAttempts.toNat ≤ row.deliveryCount + 1 := by
            rw [Bool.eq_false_iff, ne_eq, shouldRetry_iff hm hfilter, hcount, UInt32.not_lt,
              UInt32.le_iff_toNat_le] at hretry
            exact hretry.trans (toNat_ofNat_succ_le _)
          have hrecorded : Recorded relay.retryPolicy.maxAttempts.toNat outbox
              (outbox.record channel.scope (some (.failed message error))
                (outbox.act (.relay (.process outcome)))) _ :=
            .exhausted _ (by rw [List.any_append, htried.undelivered]; rfl)
              (departures_gone hrow hid rfl (hid ▸ hchannel ▸ hgone)) hcounter
          exact ⟨h.gone hbatch hid rfl rfl rfl hrest (hid ▸ hchannel ▸ hgone) hrecorded, _,
            (htried.exhausted_iff hlast).symm, hrecorded⟩

theorem Consistent.polled (h : outbox.Consistent relay channel)
    (hm : 0 < relay.retryPolicy.maxAttempts.toNat) :
    (outbox.record channel.scope none (outbox.partition.step .poll)).Consistent relay channel ∧
      Recorded relay.retryPolicy.maxAttempts.toNat outbox
        (outbox.record channel.scope none (outbox.partition.step .poll)) True := by
  have hsame := h.idle hm rfl rfl rfl (kept_refl _) h.nodup h.batch
  rw [Partition.step, OutboxRelay.step]
  split
  next =>
    rw [OutboxRelay.poll]
    dsimp only
    split
    next => exact hsame
    next =>
      rw [h.ofChannel]
      obtain ⟨rows, hreceived, hnodup, hwaiting⟩ := @receive_waiting channel
        (min outbox.partition.state.limiter.available
          outbox.partition.relay.batchSize.toUInt32).toNat outbox.database
      refine h.idle hm rfl h.ofChannel.symm rfl (kept_refl _) ?_ ?_
      · change ((Interaction.run Database.serve (channel.receive _) outbox.database).1.map
          (·.id)).Nodup
        rw [hreceived, List.map_map]
        exact hnodup
      · intro message hmessage
        change message ∈
          (Interaction.run Database.serve (channel.receive _) outbox.database).1 at hmessage
        rw [hreceived] at hmessage
        obtain ⟨row, hrow, rfl⟩ := List.mem_map.mp hmessage
        exact ⟨row, hwaiting row hrow, rfl, rfl⟩
  next => exact hsame

/-- A step keeps what every run keeps, and honours the policy exactly if it is allowed. -/
theorem Consistent.step (h : outbox.Consistent relay channel)
    (hm : 1 ≤ relay.retryPolicy.maxAttempts) (hfilter : relay.retryPolicy.retryableErrors = [])
    (action : DurableAction) :
    (outbox.step channel.scope action).Consistent relay channel ∧ ∃ allowed,
      (outbox.Allows (maxRetriesFromConfig channel.config) action ↔ allowed) ∧
      Recorded relay.retryPolicy.maxAttempts.toNat outbox (outbox.step channel.scope action)
        allowed := by
  have hm' : 0 < relay.retryPolicy.maxAttempts.toNat := UInt32.le_iff_toNat_le.mp hm
  have hidle {p : Partition Database} (hattempt : outbox.attempt? action = none)
      (hact : outbox.act action = p)
      (hidle : (outbox.record channel.scope none p).Consistent relay channel ∧
        Recorded relay.retryPolicy.maxAttempts.toNat outbox
          (outbox.record channel.scope none p) True) :
      (outbox.step channel.scope action).Consistent relay channel ∧ ∃ allowed,
        (outbox.Allows (maxRetriesFromConfig channel.config) action ↔ allowed) ∧
        Recorded relay.retryPolicy.maxAttempts.toNat outbox (outbox.step channel.scope action)
          allowed := by
    rw [DurableOutbox.step, Allows, hattempt, hact]
    exact ⟨hidle.1, True, Iff.rfl, hidle.2⟩
  cases action with
  | send message =>
      have hchannel : (outbox.partition.send message).2.state.channel =
          (Interaction.run Database.serve (channel.send message) outbox.database).2 := by
        rw [Partition.send, h.ofChannel]
        rfl
      refine hidle rfl rfl (h.idle hm' rfl rfl rfl ?_ h.nodup h.batch)
      exact hchannel ▸ kept_of_sent (sent_send message outbox.database)
  | wait ms => exact hidle rfl rfl (h.idle hm' rfl rfl rfl (kept_refl _) h.nodup h.batch)
  | limiter limiter =>
      exact hidle rfl rfl (h.idle hm' rfl rfl rfl (kept_refl _) h.nodup h.batch)
  | relay action =>
      cases action with
      | run => exact hidle rfl rfl (h.idle hm' rfl rfl rfl (kept_refl _) h.nodup h.batch)
      | stop => exact hidle rfl rfl (h.idle hm' rfl rfl rfl (kept_refl _) h.nodup h.batch)
      | poll => exact hidle rfl rfl (h.polled hm')
      | process outcome => exact h.process hm hfilter outcome

end Step

/-- A relay that starts with messages that were not tried yet. -/
theorem consistent_start {relay : OutboxRelay} {channel : SqliteChannel}
    (hm : 1 ≤ relay.retryPolicy.maxAttempts) (limiter : ConcurrencyLimiter) {db : Database}
    (hfresh : ∀ row ∈ db.waiting channel.scope, row.deliveryCount = 0) :
    (start relay channel limiter db).Consistent relay channel where
  ofRelay := rfl
  ofChannel := rfl
  nodup := List.nodup_nil
  batch _ hmessage := absurd hmessage List.not_mem_nil
  tried row hrow := by
    rw [hfresh row hrow]
    exact tried_nil (UInt32.le_iff_toNat_le.mp hm)
  counted := le_rfl

end DurableOutbox

/-- A durable outbox honours the retry policy in a run exactly when no requeue exceeds the
channel's limit and no message is given up that was refused a permit early. -/
theorem honours_retry_policy_iff (relay : OutboxRelay) (channel : SqliteChannel)
    (hm : 1 ≤ relay.retryPolicy.maxAttempts) (hfilter : relay.retryPolicy.retryableErrors = [])
    (limiter : ConcurrencyLimiter) (db : Database)
    (hfresh : ∀ row ∈ db.waiting channel.scope, row.deliveryCount = 0)
    (actions : List DurableAction) :
    (run (DurableOutbox.step channel.scope) (DurableOutbox.start relay channel limiter db)
        actions).HonoursPolicy relay.retryPolicy.maxAttempts.toNat ↔
      Along (DurableOutbox.step channel.scope)
        (DurableOutbox.Allows (maxRetriesFromConfig channel.config))
        (DurableOutbox.start relay channel limiter db) actions := by
  have hconsistent := DurableOutbox.consistent_start hm limiter hfresh
  have hruns := run_iff_along (I := DurableOutbox.Consistent relay channel)
    (Q := DurableOutbox.HonoursPolicy relay.retryPolicy.maxAttempts.toNat)
    (P := DurableOutbox.Allows (maxRetriesFromConfig channel.config))
    (fun outbox action h => (h.step hm hfilter action).1)
    (fun outbox action h => by
      obtain ⟨-, allowed, hallowed, hrecorded⟩ := h.step hm hfilter action
      rw [hrecorded.honoursPolicy_iff h.counted, hallowed])
    hconsistent actions
  rw [hruns, and_iff_right]
  exact ⟨fun attempts hmem => absurd hmem List.not_mem_nil, rfl⟩

/-- Five attempts by the relay's policy, and three requeues by the channel's. -/
def fiveAttempts : OutboxRelay where
  retryPolicy := { maxAttempts := 5 }
  batchSize := 100

def twoAttempts : OutboxRelay where
  retryPolicy := { maxAttempts := 2 }
  batchSize := 100

def somePermits : ConcurrencyLimiter where
  currentLimit := 4
  minLimit := 1
  maxLimit := 4
  strategy := .fixed

def failing (n : Nat) : List DurableAction :=
  [.send { id := "m" }, .relay .run] ++
    (List.replicate n
      [.relay .poll, .relay (.process (.failed (.transient "down") 0))]).flatten

theorem not_honours_retry_policy :
    ¬(run (DurableOutbox.step (SqliteChannel.scope {}))
        (DurableOutbox.start fiveAttempts {} somePermits {}) (failing 4)).HonoursPolicy 5 := by
  decide +kernel

theorem honours_retry_policy_twice :
    (run (DurableOutbox.step (SqliteChannel.scope {}))
      (DurableOutbox.start twoAttempts {} somePermits {}) (failing 2)).HonoursPolicy 2 :=
  (honours_retry_policy_iff twoAttempts {} (by decide) rfl somePermits {} nofun (failing 2)).mpr
    (by decide +kernel)

end PlexSpaces.Outbox
