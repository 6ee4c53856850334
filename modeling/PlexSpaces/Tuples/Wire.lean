import PlexSpaces.Tuples.Tuple
/-!
# Tuples on the wire

Tuples as protobuf messages and back.  The encoder leaves the metadata out, sends
an owner that is missing as an empty one, and drops the nanoseconds of a lease with
more time left than an `i64` counts.
-/

namespace PlexSpaces.Tuples

open PlexSpaces.Lib

/-! ## Messages -/

inductive ProtoValue
  | integer (value : Int64)
  | float (value : OrderedFloat)
  | string (value : String)
  | boolean (value : Bool)
  | binary (value : List UInt8)
  | null (value : Bool)
  | wildcard (value : Bool)
  deriving DecidableEq

structure ProtoTupleField where
  value : Option ProtoValue

/-- The kind of a `google.protobuf.Value`; a number by its bits. -/
inductive ProstKind
  | nullValue
  | numberValue (value : UInt64)
  | stringValue (value : String)
  | boolValue (value : Bool)
  | structValue (fields : List (String × Option ProstKind))
  | listValue (values : List (Option ProstKind))

structure ProstDuration where
  seconds : Int
  nanos : Int
  deriving DecidableEq

structure ProstTimestamp where
  seconds : Int
  nanos : Int
  deriving DecidableEq

structure ProtoLease where
  ttl : Option ProstDuration
  owner : String
  renewable : Bool
  expiresAt : Option ProstTimestamp

structure ProtoTuple where
  id : String
  fields : List ProtoTupleField
  timestamp : Option ProstTimestamp
  lease : Option ProtoLease
  metadata : Assoc String (Option ProstKind)

inductive TupleProtoConversionError
  | emptyFields (what : String)
  | missingValue
  | wildcardInTupleValue
  deriving DecidableEq

/-! ## Encoding -/

def tupleFieldToProtoField : TupleField → ProtoTupleField
  | .integer value => ⟨some (.integer value)⟩
  | .float value => ⟨some (.float value)⟩
  | .string value => ⟨some (.string value)⟩
  | .boolean value => ⟨some (.boolean value)⟩
  | .binary value => ⟨some (.binary value)⟩
  | .null => ⟨some (.null true)⟩

/-- All the nanoseconds of a duration, when an `i64` can hold them. -/
def numNanoseconds (duration : Nat) : Option Nat :=
  if duration < 2 ^ 63 then some duration else none

/-- `unixEpoch` is the instant from which timestamps count. -/
def timestampOf (unixEpoch instant : Nat) : ProstTimestamp :=
  let sinceEpoch := (instant : Int) - unixEpoch
  ⟨sinceEpoch / 1000000000, sinceEpoch % 1000000000⟩

/-- The time that is left, in seconds and nanoseconds. -/
def protoTtl (lease : Lease) (now : Nat) : ProstDuration :=
  let ttlDuration := if now < lease.expiresAt then lease.expiresAt - now else 0
  { seconds := (ttlDuration / 1000000000 : Nat)
    nanos := ((numNanoseconds ttlDuration).getD 0 % 1000000000 : Nat) }

/-- The tuple as a message with a fresh id, at a clock reading. -/
def tupleToProtoTuple (unixEpoch : Nat) (id : String) (tuple : Tuple) (now : Nat) :
    ProtoTuple where
  id := id
  fields := tuple.fields.map tupleFieldToProtoField
  timestamp := some (timestampOf unixEpoch now)
  lease := tuple.lease.map fun lease =>
    { ttl := some (protoTtl lease now)
      owner := lease.owner.getD ""
      renewable := lease.renewable
      expiresAt := some (timestampOf unixEpoch lease.expiresAt) }
  metadata := ∅

/-! ## Decoding -/

def protoFieldToTupleField (field : ProtoTupleField) :
    Except TupleProtoConversionError TupleField :=
  match field.value with
  | some (.integer value) => .ok (.integer value)
  | some (.float value) => .ok (.float value)
  | some (.string value) => .ok (.string value)
  | some (.boolean value) => .ok (.boolean value)
  | some (.binary value) => .ok (.binary value)
  | some (.null _) => .ok .null
  | some (.wildcard _) => .error .wildcardInTupleValue
  | none => .error .missingValue

def protoFields : List ProtoTupleField → Except TupleProtoConversionError (List TupleField)
  | [] => .ok []
  | field :: fields => do
      let first ← protoFieldToTupleField field
      let rest ← protoFields fields
      return first :: rest

section Decode

variable (numberToString : UInt64 → String) (debug : ProstKind → String) (lastInstant : Nat)

def metadataString : Option ProstKind → String
  | some (.stringValue inner) => inner
  | some (.numberValue inner) => numberToString inner
  | some (.boolValue inner) => if inner then "true" else "false"
  | some .nullValue | none => ""
  | some (.listValue values) => debug (.listValue values)
  | some (.structValue fields) => debug (.structValue fields)

/-- The lease of the message at a clock reading; `none` when its end is no instant. -/
def protoLeaseToLease (lease : ProtoLease) (ttl : ProstDuration) (now : Nat) : Option Lease := do
  let expiresAt ← plusNanos lastInstant now (ttl.seconds * 1000000000 + ttl.nanos)
  return { expiresAt
           owner := if lease.owner = "" then none else some lease.owner
           renewable := lease.renewable }

/-- The answer of the decoder at a clock reading, `none` when it panics. -/
def protoTupleToTuple (proto : ProtoTuple) (now : Nat) :
    Option (Except TupleProtoConversionError Tuple) :=
  if proto.fields = [] then some (.error (.emptyFields "Tuple"))
  else
    match protoFields proto.fields with
    | .error e => some (.error e)
    | .ok fields =>
        let metadata := proto.metadata.entries.foldl
          (fun metadata entry =>
            metadata.insert entry.1 (metadataString numberToString debug entry.2))
          (∅ : FMap String String)
        match proto.lease.bind fun lease => lease.ttl.map fun ttl => (lease, ttl) with
        | none => some (.ok ⟨fields, none, metadata⟩)
        | some (lease, ttl) =>
            (protoLeaseToLease lastInstant lease ttl now).map fun lease =>
              .ok ⟨fields, some lease, metadata⟩

end Decode

/-! ## The round trip -/

theorem protoFields_map (fields : List TupleField) :
    protoFields (fields.map tupleFieldToProtoField) = .ok fields := by
  induction fields with
  | nil => rfl
  | cons field fields ih =>
      have hfield : protoFieldToTupleField (tupleFieldToProtoField field) = .ok field := by
        cases field <;> rfl
      rw [List.map_cons, protoFields, hfield, ih]
      rfl

/-- What is left of the lease arrives whole: it fits into an `i64` of nanoseconds, or is a number
of seconds. -/
def Lease.ArrivesWhole (lease : Lease) (now : Nat) : Prop :=
  lease.expiresAt - now < 2 ^ 63 ∨ 1000000000 ∣ lease.expiresAt - now

section RoundTrip

variable {numberToString : UInt64 → String} {debug : ProstKind → String}
  {unixEpoch lastInstant now : Nat} {id : String}

def arrived (left : Nat) : Nat :=
  left / 1000000000 * 1000000000 + (numNanoseconds left).getD 0 % 1000000000

theorem arrived_le (left : Nat) : arrived left ≤ left := by
  rw [arrived, numNanoseconds]
  split_ifs
  · rw [Option.getD_some]
    omega
  · rw [Option.getD_none]
    omega

theorem arrived_eq_iff (left : Nat) :
    arrived left = left ↔ left < 2 ^ 63 ∨ 1000000000 ∣ left := by
  rw [arrived, numNanoseconds]
  split_ifs with hfits
  · rw [Option.getD_some]
    omega
  · rw [Option.getD_none]
    omega

def arrivedOwner (owner : Option String) : Option String :=
  if owner.getD "" = "" then none else some (owner.getD "")

theorem arrivedOwner_eq_iff (owner : Option String) :
    arrivedOwner owner = owner ↔ owner ≠ some "" := by
  rw [arrivedOwner]
  cases owner with
  | none => simp
  | some name => by_cases hname : name = "" <;> simp [hname]

/-- What comes back: the fields, no metadata, and the lease up to its owner and its last
nanoseconds. -/
theorem decode_encode {t : Tuple} (hfields : t.fields ≠ [])
    (hlease : ∀ lease ∈ t.lease, now ≤ lease.expiresAt ∧ lease.expiresAt ≤ lastInstant) :
    protoTupleToTuple numberToString debug lastInstant (tupleToProtoTuple unixEpoch id t now) now =
      some (.ok ⟨t.fields, t.lease.map fun lease =>
        ⟨now + arrived (lease.expiresAt - now), arrivedOwner lease.owner, lease.renewable⟩,
        ∅⟩) := by
  have hnonempty : t.fields.map tupleFieldToProtoField ≠ [] :=
    fun h => hfields (List.map_eq_nil_iff.mp h)
  rw [protoTupleToTuple, tupleToProtoTuple, if_neg hnonempty, protoFields_map]
  cases hcase : t.lease with
  | none => rfl
  | some lease =>
      obtain ⟨halive, hlast⟩ := hlease lease hcase
      have hle := arrived_le (lease.expiresAt - now)
      have hleft : (if now < lease.expiresAt then lease.expiresAt - now else 0) =
          lease.expiresAt - now := by
        split_ifs
        · rfl
        · omega
      have hinstant : plusNanos lastInstant now
          ((protoTtl lease now).seconds * 1000000000 + (protoTtl lease now).nanos) =
            some (now + arrived (lease.expiresAt - now)) := by
        have hsum : (protoTtl lease now).seconds * 1000000000 + (protoTtl lease now).nanos =
            (arrived (lease.expiresAt - now) : Nat) := by
          rw [protoTtl, hleft, arrived, Int.natCast_add, Int.natCast_mul]
          rfl
        rw [hsum, plusNanos, if_pos (by omega)]
        exact congrArg some (by omega)
      change Option.map _ (protoLeaseToLease lastInstant _ (protoTtl lease now) now) = _
      rw [protoLeaseToLease, hinstant]
      rfl

/-- A tuple with a field and a lease that has not expired comes back as it was exactly when it has
no metadata, the owner of its lease is not the empty text, and what is left of the lease arrives
whole. -/
theorem wire_round_trip_iff (numberToString : UInt64 → String) (debug : ProstKind → String)
    (unixEpoch lastInstant : Nat) (id : String) (now : Nat) {t : Tuple} (hfields : t.fields ≠ [])
    (hlease : ∀ lease ∈ t.lease, now ≤ lease.expiresAt ∧ lease.expiresAt ≤ lastInstant) :
    protoTupleToTuple numberToString debug lastInstant (tupleToProtoTuple unixEpoch id t now) now =
        some (.ok t) ↔
      t.metadata = ∅ ∧ ∀ lease ∈ t.lease, lease.owner ≠ some "" ∧ lease.ArrivesWhole now := by
  rw [decode_encode hfields hlease, Option.some_inj]
  obtain ⟨fields, lease, metadata⟩ := t
  have hok : ∀ t t' : Tuple, (Except.ok t : Except TupleProtoConversionError Tuple) = .ok t' ↔
      t = t' := fun _ _ => ⟨Except.ok.inj, congrArg Except.ok⟩
  rw [hok, Tuple.mk.injEq, and_iff_right rfl, and_comm, eq_comm]
  refine and_congr_right fun _ => ?_
  cases lease with
  | none => simp
  | some lease =>
      have halive := (hlease lease rfl).1
      rw [Option.map_some, Option.some_inj]
      have hlease' : ∀ P : Lease → Prop, (∀ l ∈ some lease, P l) ↔ P lease :=
        fun P => ⟨fun h => h lease rfl, fun h l hl => Option.some.inj hl ▸ h⟩
      rw [hlease', ← arrivedOwner_eq_iff, Lease.ArrivesWhole, ← arrived_eq_iff]
      obtain ⟨expiresAt, owner, renewable⟩ := lease
      rw [Lease.mk.injEq, and_comm, and_assoc, and_iff_right rfl, and_comm]
      dsimp only at halive ⊢
      refine and_comm.trans (and_congr_right fun _ => ?_)
      omega

def leasedJob : Tuple :=
  ⟨[.string "job"], some ⟨60000000000, some "worker-1", true⟩, ∅⟩

theorem wire_round_trip_iff_leasedJob :
    protoTupleToTuple (fun _ => "") (fun _ => "") (10 ^ 30)
        (tupleToProtoTuple 0 "01J" leasedJob 500) 500 = some (.ok leasedJob) ↔
      leasedJob.metadata = ∅ ∧
        ∀ lease ∈ leasedJob.lease, lease.owner ≠ some "" ∧ lease.ArrivesWhole 500 :=
  wire_round_trip_iff _ _ 0 (10 ^ 30) "01J" 500 (by decide) fun lease hlease => by
    cases hlease
    decide

/-- The metadata is lost. -/
theorem not_wire_round_trip :
    ¬∀ t : Tuple, t.fields ≠ [] → (∀ lease ∈ t.lease, lease.isExpired 0 = false) →
      protoTupleToTuple (fun _ => "") (fun _ => "") (10 ^ 30) (tupleToProtoTuple 0 "01J" t 0) 0 =
        some (.ok t) := by
  intro h
  have hback := h ⟨[.integer 1], none, (∅ : FMap String String).insert "origin" "node-1"⟩
    (by decide) (by decide)
  rw [decode_encode (by decide) (by decide)] at hback
  have hmetadata := congrArg Tuple.metadata (Except.ok.inj (Option.some.inj hback))
  revert hmetadata
  decide

end RoundTrip

end PlexSpaces.Tuples
