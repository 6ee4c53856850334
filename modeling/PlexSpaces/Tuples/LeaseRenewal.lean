import PlexSpaces.Lib.Run
import PlexSpaces.Tuples.Sql
/-!
# Renewing a lease

`renew_lease` sets the expiry column of a row.  For a call without a TTL it takes
the time that is left of the lease inside the stored tuple, which no renewal
changes, and not its original length; so it sets the original expiry again, up to
the next second.
-/

namespace PlexSpaces.Tuples

open PlexSpaces.Lib

/-- The time that is left, in seconds; a part of a second counts when it is a millisecond at
least. -/
def Lease.ttlSeconds (l : Lease) (now : Nat) : Nat :=
  if now < l.expiresAt then
    let duration := l.expiresAt - now
    let seconds := duration / 1000000000
    let millis := duration / 1000000 % 1000
    if 0 < millis then seconds + 1 else seconds
  else 0

/-- What is left is the whole length exactly when that is a number of seconds and at most 999
milliseconds have passed. -/
theorem Lease.ttlSeconds_eq_iff {l : Lease} {start length now : Nat}
    (hexpires : l.expiresAt = start + length) (hnow : start ≤ now) :
    l.ttlSeconds now * 1000000000 = length ↔
      length = 0 ∨ 1000000000 ∣ length ∧ now - start ≤ 999000000 := by
  rw [Lease.ttlSeconds, hexpires]
  dsimp only
  split_ifs <;> omega

/-- `as i64`. -/
def asI64 (n : Nat) : Int := (n : Int).bmod (2 ^ 64)

/-- A duration in whole milliseconds, as an `i64`. -/
def wholeMillis (ttl : Nat) : Int := asI64 (ttl / 1000000)

namespace SqlStorage

variable (codec : TupleCodec) (lastInstant : Nat)

/-- The new expiry, `none` when the arithmetic panics. -/
def calculateNewExpiry (tuple : Tuple) (newTtl : Option Nat) (now : Nat) :
    Except TupleSpaceError (Option Nat) :=
  match newTtl with
  | some ttl =>
      -- `chrono` has no duration of `i64::MIN` milliseconds
      if wholeMillis ttl = -2 ^ 63 then .ok none
      else .ok (plusNanos lastInstant now (wholeMillis ttl * 1000000))
  | none =>
      match tuple.lease with
      | some lease => .ok (plusNanos lastInstant now (lease.ttlSeconds now * 1000000000))
      | none => .error (.leaseError "No lease associated with tuple")

/-- The answer of `renew_lease`, `none` when it panics. -/
def renewLease (t : TupleTable) (tupleId : String) (newTtl : Option Nat) (now : Nat) :
    Option (Except TupleSpaceError Nat) × TupleTable :=
  match t.find tupleId with
  | none => (some (.error .notFound), t)
  | some row =>
      if row.renewable = false then (some (.error (.leaseError "Lease is not renewable")), t)
      else
        match codec.decode row.tupleData with
        | .error e =>
            (some (.error (.serializationError ("Deserialization failed: " ++ e))), t)
        | .ok tuple =>
            match calculateNewExpiry lastInstant tuple newTtl now with
            | .error e => (some (.error e), t)
            | .ok none => (none, t)
            | .ok (some newExpires) =>
                (some (.ok newExpires),
                  t.update tupleId (fun row => { row with expiresAt := some newExpires })
                    fun _ => rfl)

/-! ## Renewals of one lease -/

/-- A call of `renew_lease`. -/
structure Renewal where
  time : Nat
  newTtl : Option Nat

variable (tupleId : String) (start length : Nat)

/-- The row holds a tuple with a renewable lease that began at `start` for `length`. -/
structure Leased (t : TupleTable) : Prop where
  row : ∃ row, t.find tupleId = some row ∧ row.renewable = true ∧ row.expiresAt.isSome ∧
    ∃ tuple lease, codec.decode row.tupleData = .ok tuple ∧ tuple.lease = some lease ∧
      lease.expiresAt = start + length

def renew (t : TupleTable) (call : Renewal) : TupleTable :=
  (renewLease codec lastInstant t tupleId call.newTtl call.time).2

def Succeeds (t : TupleTable) (call : Renewal) : Prop :=
  ∃ newExpires, (renewLease codec lastInstant t tupleId call.newTtl call.time).1 =
    some (.ok newExpires)

/-- The new expiry is not earlier than the one it replaces when the TTL reaches past that, and
without a TTL the lease has its original length again. -/
def Extends (t : TupleTable) (call : Renewal) : Prop :=
  ∀ newExpires, (renewLease codec lastInstant t tupleId call.newTtl call.time).1 =
      some (.ok newExpires) →
    (∀ old ∈ (t.find tupleId).bind (·.expiresAt),
      old ≤ call.time + call.newTtl.getD length → old ≤ newExpires) ∧
    (call.newTtl = none → newExpires = call.time + length)

/-- With a TTL, the expiry that is replaced does not lie between what its whole milliseconds
reach and what it reaches itself.  Without one, the length is a number of seconds and not more
than 999 milliseconds of it have passed, or it is zero. -/
def InTime (t : TupleTable) (call : Renewal) : Prop :=
  match call.newTtl with
  | some ttl => ∀ old ∈ (t.find tupleId).bind (·.expiresAt),
      call.time + ttl < old ∨ (old : Int) ≤ call.time + wholeMillis ttl * 1000000
  | none => length = 0 ∨ 1000000000 ∣ length ∧ call.time - start ≤ 999000000

variable {codec lastInstant tupleId start length}

theorem renewLease_ok {t : TupleTable} (hleased : Leased codec tupleId start length t)
    {call : Renewal} {newExpires : Nat}
    (hok : (renewLease codec lastInstant t tupleId call.newTtl call.time).1 =
      some (.ok newExpires)) :
    renew codec lastInstant tupleId t call = t.update tupleId
        (fun row => { row with expiresAt := some newExpires }) (fun _ => rfl) ∧
      match call.newTtl with
      | some ttl => (newExpires : Int) = call.time + wholeMillis ttl * 1000000
      | none => ∃ lease : Lease, lease.expiresAt = start + length ∧
          newExpires = call.time + lease.ttlSeconds call.time * 1000000000 := by
  obtain ⟨row, hfind, hrenewable, -, tuple, lease, hdecode, hlease, hexpires⟩ := hleased.row
  have hnot : ¬row.renewable = false := by rw [hrenewable]; exact Bool.noConfusion
  rw [renew]
  rw [renewLease] at hok ⊢
  rw [hfind] at hok ⊢
  dsimp only at hok ⊢
  rw [if_neg hnot, hdecode] at hok ⊢
  dsimp only at hok ⊢
  cases hcalc : calculateNewExpiry lastInstant tuple call.newTtl call.time with
  | error e =>
      rw [hcalc] at hok
      cases hok
  | ok expires =>
      rw [hcalc] at hok
      cases expires with
      | none => cases hok
      | some expires =>
          cases hok
          refine ⟨rfl, ?_⟩
          cases httl : call.newTtl with
          | some ttl =>
              rw [httl, calculateNewExpiry] at hcalc
              dsimp only
              split_ifs at hcalc
              · cases hcalc
              · exact plusNanos_eq_some (Except.ok.inj hcalc)
          | none =>
              rw [httl, calculateNewExpiry, hlease] at hcalc
              have hsum := plusNanos_eq_some (Except.ok.inj hcalc)
              exact ⟨lease, hexpires, by omega⟩

theorem Leased.renew {t : TupleTable} (hleased : Leased codec tupleId start length t)
    {call : Renewal} (hok : Succeeds codec lastInstant tupleId t call) :
    Leased codec tupleId start length (renew codec lastInstant tupleId t call) := by
  obtain ⟨newExpires, hok⟩ := hok
  obtain ⟨row, hfind, hrenewable, -, hrest⟩ := hleased.row
  rw [(renewLease_ok hleased hok).1]
  refine ⟨{ row with expiresAt := some newExpires }, ?_, hrenewable, rfl, hrest⟩
  rw [Table.find_update, if_pos rfl, hfind]
  rfl

/-- A call that succeeds extends the lease exactly when it comes in time. -/
theorem extends_iff {t : TupleTable} (hleased : Leased codec tupleId start length t)
    {call : Renewal} (hstart : start ≤ call.time)
    (hok : Succeeds codec lastInstant tupleId t call) :
    Extends codec lastInstant tupleId length t call ↔ InTime tupleId start length t call := by
  obtain ⟨newExpires, hok⟩ := hok
  have hnew := (renewLease_ok hleased hok).2
  have hanswer : Extends codec lastInstant tupleId length t call ↔
      (∀ old ∈ (t.find tupleId).bind (·.expiresAt),
        old ≤ call.time + call.newTtl.getD length → old ≤ newExpires) ∧
      (call.newTtl = none → newExpires = call.time + length) := by
    refine ⟨fun h => h newExpires hok, fun h other hother => ?_⟩
    have hsame : newExpires = other := Except.ok.inj (Option.some.inj (hok.symm.trans hother))
    exact hsame ▸ h
  rw [hanswer, InTime]
  cases httl : call.newTtl with
  | some ttl =>
      rw [httl] at hnew
      dsimp only at hnew ⊢
      rw [and_iff_left (by rintro ⟨⟩)]
      refine forall_congr' fun old => imp_congr_right fun _ => ?_
      rw [Option.getD_some]
      omega
  | none =>
      rw [httl] at hnew
      dsimp only at hnew ⊢
      obtain ⟨lease, hexpires, hnew⟩ := hnew
      rw [← Lease.ttlSeconds_eq_iff hexpires hstart, Option.getD_none]
      constructor
      · rintro ⟨-, h⟩
        have hlength := h rfl
        omega
      · intro hlength
        refine ⟨fun old _ hold => ?_, fun _ => ?_⟩
        · omega
        · omega

/-- In a run of calls that succeed, every one extends the lease exactly when every one comes in
time. -/
theorem lease_renewal_extends_iff {t : TupleTable}
    (hleased : Leased codec tupleId start length t) {calls : List Renewal}
    (hstart : ∀ call ∈ calls, start ≤ call.time)
    (hok : Along (renew codec lastInstant tupleId) (Succeeds codec lastInstant tupleId) t calls) :
    Along (renew codec lastInstant tupleId) (Extends codec lastInstant tupleId length) t calls ↔
      Along (renew codec lastInstant tupleId) (InTime tupleId start length) t calls := by
  have hkind : Along (renew codec lastInstant tupleId) (fun t call =>
      start ≤ call.time ∧ Succeeds codec lastInstant tupleId t call) t calls :=
    along_and.mpr ⟨along_of_forall hstart t, hok⟩
  exact hkind.congr (fun t call hleased h => extends_iff hleased h.1 h.2)
    (fun t call hleased h _ => hleased.renew h.2) hleased

/-! ## A lease of one minute -/

/-- A tuple with a renewable lease from time 0 on, and its JSON form. -/
def minuteCodec : TupleCodec where
  encode := fun _ => .error "not used"
  decode := fun _ => .ok
    { Tuple.new [.string "lock"] with lease := some ⟨60000000000, none, true⟩ }

def minuteTable : TupleTable :=
  ⟨[⟨"row-1", "lock", 0, some 60000000000, true⟩], List.nodup_singleton _⟩

theorem minuteTable_leased : Leased minuteCodec "row-1" 0 60000000000 minuteTable :=
  ⟨⟨"row-1", "lock", 0, some 60000000000, true⟩, rfl, rfl, rfl, _, _, rfl, rfl, rfl⟩

theorem lease_renewal_extends_iff_minute :
    Along (renew minuteCodec (10 ^ 30) "row-1") (Extends minuteCodec (10 ^ 30) "row-1" 60000000000)
        minuteTable [⟨500000000, none⟩, ⟨30000000000, some 90000000000⟩] ↔
      Along (renew minuteCodec (10 ^ 30) "row-1") (InTime "row-1" 0 60000000000) minuteTable
        [⟨500000000, none⟩, ⟨30000000000, some 90000000000⟩] :=
  lease_renewal_extends_iff minuteTable_leased (by decide)
    ⟨⟨60500000000, by decide +kernel⟩, ⟨120000000000, by decide +kernel⟩, trivial⟩

/-- Renewed after half of its time, the lease ends when it would have ended. -/
theorem not_lease_renewal_extends :
    ¬∀ calls : List Renewal, (calls.map (·.time)).Pairwise (· ≤ ·) →
      Along (renew minuteCodec (10 ^ 30) "row-1") (Succeeds minuteCodec (10 ^ 30) "row-1")
        minuteTable calls →
      Along (renew minuteCodec (10 ^ 30) "row-1")
        (Extends minuteCodec (10 ^ 30) "row-1" 60000000000) minuteTable calls := by
  intro h
  have hanswer : (renewLease minuteCodec (10 ^ 30) minuteTable "row-1" none 30000000000).1 =
      some (.ok 60000000000) := by decide +kernel
  obtain ⟨hextends, -⟩ := h [⟨30000000000, none⟩] (by decide) ⟨⟨_, hanswer⟩, trivial⟩
  have hlength := (hextends _ hanswer).2 rfl
  exact absurd hlength (by decide)

end SqlStorage

end PlexSpaces.Tuples
