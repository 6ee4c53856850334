import Mathlib.Algebra.Order.Group.Nat
import Mathlib.Data.List.Basic
/-!
# The shard of a key

`calculate_shard_id` routes a message to a shard of its group: by the hash of the key, by
the next virtual node on a ring of hashes, or by the place of the key among boundaries.  The
two hash functions are parameters: `DefaultHasher` over the bytes of a key, and over the
name of a virtual node.

A profile with overflow checks (`dev`, `test`) panics where a result does not fit, one
without them (`release`) wraps around.
-/

namespace PlexSpaces.Shards

/-- An error text, or a panic of the arithmetic. -/
inductive PartitionError
  | message (text : String)
  | overflow
  deriving DecidableEq

structure Profile where
  overflowChecks : Bool
  deriving DecidableEq

namespace Profile

variable (profile : Profile)

/-- What a build makes of an operation, given whether its result fits. -/
def checked {α : Type} (fits : Prop) [Decidable fits] (wrapped : α) : Except PartitionError α :=
  if profile.overflowChecks ∧ ¬fits then .error .overflow else .ok wrapped

/-- `a + b` in `u64`. -/
def add (a b : UInt64) : Except PartitionError UInt64 :=
  profile.checked (a.toNat + b.toNat < 2 ^ 64) (a + b)

/-- `a - b` in `u64`. -/
def sub (a b : UInt64) : Except PartitionError UInt64 :=
  profile.checked (b.toNat ≤ a.toNat) (a - b)

/-- `a * b` in `u32`. -/
def mul (a b : UInt32) : Except PartitionError UInt32 :=
  profile.checked (a.toNat * b.toNat < 2 ^ 32) (a * b)

variable {profile} in
theorem checked_of_fits {α : Type} {fits : Prop} [Decidable fits] (wrapped : α) (h : fits) :
    profile.checked fits wrapped = .ok wrapped :=
  if_neg fun ⟨_, hnot⟩ => hnot h

theorem checked_true_iff {α : Type} {fits : Prop} [Decidable fits] (wrapped : α) :
    (∃ a, Profile.checked ⟨true⟩ fits wrapped = .ok a) ↔ fits := by
  constructor
  · rintro ⟨a, ha⟩
    by_contra hnot
    rw [checked, if_pos ⟨rfl, hnot⟩] at ha
    cases ha
  · intro h
    exact ⟨wrapped, checked_of_fits wrapped h⟩

end Profile

structure Hashes where
  key : List UInt8 → UInt64
  node : String → UInt64

def partitionStrategyHash : Int := 1

def partitionStrategyRange : Int := 2

def partitionStrategyConsistentHash : Int := 3

/-- `u64::MAX`. -/
def u64Max : UInt64 := 18446744073709551615

def virtualNodesPerShard : Nat := 100

/-- `0..shard_count`. -/
def shardIds (shardCount : UInt32) : List UInt32 :=
  (List.range shardCount.toNat).map UInt32.ofNat

@[simp] theorem mem_shardIds {shardCount shard : UInt32} :
    shard ∈ shardIds shardCount ↔ shard < shardCount := by
  simp only [shardIds, List.mem_map, List.mem_range, UInt32.lt_iff_toNat_lt]
  constructor
  · rintro ⟨i, hi, rfl⟩
    rwa [UInt32.toNat_ofNat_of_lt' (Nat.lt_trans hi shardCount.toNat_lt)]
  · intro h
    exact ⟨shard.toNat, h, UInt32.ofNat_toNat⟩

def hashPartition (hashes : Hashes) (partitionKey : List UInt8) (shardCount : UInt32) : UInt32 :=
  (hashes.key partitionKey % shardCount.toUInt64).toUInt32

def vnKey (shardId : UInt32) (vn : Nat) : String :=
  "shard-" ++ toString shardId.toNat ++ "-vn-" ++ toString vn

/-- The clockwise distance on the ring, in the arithmetic of the build. -/
def distance (profile : Profile) (keyHash vnHash : UInt64) : Except PartitionError UInt64 :=
  if keyHash ≤ vnHash then profile.sub vnHash keyHash
  else do
    let rest ← profile.sub u64Max keyHash
    let sum ← profile.add rest vnHash
    profile.add sum 1

/-- The body of the loop over the virtual nodes, on `best_shard` and `best_distance`. -/
def tryVirtualNode (profile : Profile) (hashes : Hashes) (keyHash : UInt64) (shardId : UInt32)
    (best : UInt32 × UInt64) (vn : Nat) : Except PartitionError (UInt32 × UInt64) := do
  let d ← distance profile keyHash (hashes.node (vnKey shardId vn))
  return if d < best.2 then (shardId, d) else best

def consistentHashPartition (profile : Profile) (hashes : Hashes) (partitionKey : List UInt8)
    (shardCount : UInt32) : Except PartitionError UInt32 := do
  let keyHash := hashes.key partitionKey
  let best ← (shardIds shardCount).foldlM (fun best shardId =>
    (List.range virtualNodesPerShard).foldlM (tryVirtualNode profile hashes keyHash shardId) best)
    ((0 : UInt32), u64Max)
  return best.1

/-- The loop over the boundaries, from the boundary `i` on. -/
def scanRanges (partitionKey : List UInt8) : UInt32 → List (List UInt8) → Option UInt32
  | _, [] => none
  | i, boundary :: ranges =>
      if partitionKey < boundary then some i else scanRanges partitionKey (i + 1) ranges

def rangePartition (profile : Profile) (partitionKey : List UInt8) (shardCount : UInt32)
    (rangeRanges : Option (List (List UInt8))) : Except PartitionError UInt32 :=
  match rangeRanges with
  | some ranges =>
      if ranges.length ≠ shardCount.toNat then
        .error (.message ("Range boundaries count (" ++ toString ranges.length ++
          ") must match shard_count (" ++ toString shardCount.toNat ++ ")"))
      else .ok ((scanRanges partitionKey 0 ranges).getD (shardCount - 1))
  | none =>
      match partitionKey with
      | [] => .error (.message "Partition key cannot be empty for range partitioning")
      | firstByte :: _ => do
          let scaled ← profile.mul firstByte.toUInt32 shardCount
          return min (scaled / 256) (shardCount - 1)

def calculateShardId (profile : Profile) (hashes : Hashes) (partitionKey : List UInt8)
    (strategy : Int) (shardCount : UInt32) (rangeRanges : Option (List (List UInt8))) :
    Except PartitionError UInt32 :=
  if shardCount = 0 then .error (.message "shard_count must be > 0")
  else if strategy = partitionStrategyHash then .ok (hashPartition hashes partitionKey shardCount)
  else if strategy = partitionStrategyConsistentHash then
    consistentHashPartition profile hashes partitionKey shardCount
  else if strategy = partitionStrategyRange then
    rangePartition profile partitionKey shardCount rangeRanges
  else .error (.message ("Unsupported partition strategy: " ++ toString strategy))

end PlexSpaces.Shards
