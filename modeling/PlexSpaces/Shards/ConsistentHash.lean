import PlexSpaces.Lib.FirstLeast
import PlexSpaces.Shards.Partition
/-!
# The ring of virtual nodes

Consistent hashing gives a key to the shard whose virtual node comes next clockwise.  On the
ring of the 64-bit hashes the distance that the loop computes is the difference modulo
`2 ^ 64`, so no step of it overflows.  The loop starts at shard 0 with the largest distance;
when no virtual node is nearer, all are at that distance and shard 0 is right.
-/

namespace PlexSpaces.Shards

open PlexSpaces.Lib

namespace Hashes

variable (hashes : Hashes) (partitionKey : List UInt8)

/-- The number of positions from the key clockwise to a virtual node. -/
def clockwise (shard : UInt32) (vn : Nat) : Nat :=
  ((hashes.node (vnKey shard vn)).toNat + (2 ^ 64 - (hashes.key partitionKey).toNat)) % 2 ^ 64

/-- A virtual node of the shard is at the least distance among those of `shardCount` shards. -/
def OwnsNearest (shardCount shard : UInt32) : Prop :=
  ∃ vn < virtualNodesPerShard, ∀ other < shardCount, ∀ vn' < virtualNodesPerShard,
    hashes.clockwise partitionKey shard vn ≤ hashes.clockwise partitionKey other vn'

/-- The lowest-numbered shard that owns a virtual node at the least distance. -/
structure Nearest (shardCount shard : UInt32) : Prop where
  lt : shard < shardCount
  owns : hashes.OwnsNearest partitionKey shardCount shard
  lowest : ∀ other < shard, ¬hashes.OwnsNearest partitionKey shardCount other

/-- The position of a virtual node, seen from the key. -/
def offset (node : UInt32 × Nat) : UInt64 :=
  hashes.node (vnKey node.1 node.2) - hashes.key partitionKey

theorem toNat_offset (node : UInt32 × Nat) :
    (hashes.offset partitionKey node).toNat = hashes.clockwise partitionKey node.1 node.2 := by
  rw [offset, UInt64.toNat_sub, clockwise, Nat.add_comm]

end Hashes

variable {profile : Profile} {hashes : Hashes} {partitionKey : List UInt8}
  {shardCount shard : UInt32}

/-- The distance is the difference on the ring, whatever the build does with overflows. -/
theorem distance_eq (keyHash vnHash : UInt64) :
    distance profile keyHash vnHash = .ok (vnHash - keyHash) := by
  unfold distance
  split
  case isTrue hle => exact Profile.checked_of_fits _ hle
  case isFalse hlt =>
    have hmax : u64Max.toNat = 2 ^ 64 - 1 := rfl
    have hkey := keyHash.toNat_lt
    have hbehind : vnHash.toNat < keyHash.toNat := Nat.lt_of_not_le hlt
    have hrest : (u64Max - keyHash).toNat = 2 ^ 64 - 1 - keyHash.toNat := by
      rw [UInt64.toNat_sub_of_le _ _ (UInt64.le_iff_toNat_le.mpr (by omega)), hmax]
    have hsum : (u64Max - keyHash + vnHash).toNat =
        2 ^ 64 - 1 - keyHash.toNat + vnHash.toNat := by
      rw [UInt64.toNat_add, hrest, Nat.mod_eq_of_lt (by omega)]
    have hwrapped : u64Max - keyHash + vnHash + 1 = vnHash - keyHash := by
      apply UInt64.toNat_inj.mp
      rw [UInt64.toNat_add, hsum, UInt64.toNat_sub]
      simp only [UInt64.toNat_one]
      omega
    rw [Profile.sub, Profile.checked_of_fits _ (by omega)]
    change (profile.add (u64Max - keyHash) vnHash >>= fun sum => profile.add sum 1) = _
    rw [Profile.add, Profile.checked_of_fits _ (by omega)]
    change profile.add (u64Max - keyHash + vnHash) 1 = _
    rw [Profile.add, Profile.checked_of_fits _ (by rw [hsum, UInt64.toNat_one]; omega), hwrapped]

def virtualNodes (shardCount : UInt32) : List (UInt32 × Nat) :=
  (shardIds shardCount).flatMap fun shard => (List.range virtualNodesPerShard).map (shard, ·)

@[simp] theorem mem_virtualNodes {node : UInt32 × Nat} :
    node ∈ virtualNodes shardCount ↔ node.1 < shardCount ∧ node.2 < virtualNodesPerShard := by
  obtain ⟨shard, vn⟩ := node
  simp [virtualNodes]

theorem pairwise_shardIds (shardCount : UInt32) :
    (shardIds shardCount).Pairwise fun a b => a ≤ b := by
  rw [shardIds, List.pairwise_map]
  refine List.pairwise_lt_range.imp_of_mem ?_
  intro i j _ hj hij
  have hj := Nat.lt_trans (List.mem_range.mp hj) shardCount.toNat_lt
  rw [UInt32.le_iff_toNat_le, UInt32.toNat_ofNat_of_lt' hj,
    UInt32.toNat_ofNat_of_lt' (Nat.lt_trans hij hj)]
  exact Nat.le_of_lt hij

theorem pairwise_virtualNodes (shardCount : UInt32) :
    (virtualNodes shardCount).Pairwise fun a b => a.1 ≤ b.1 := by
  rw [virtualNodes, List.pairwise_flatMap]
  refine ⟨fun shard _ => ?_, (pairwise_shardIds shardCount).imp ?_⟩
  · rw [List.pairwise_map]
    exact List.pairwise_of_forall fun _ _ => UInt32.le_refl shard
  · intro a b hab x hx y hy
    obtain ⟨_, _, rfl⟩ := List.mem_map.mp hx
    obtain ⟨_, _, rfl⟩ := List.mem_map.mp hy
    exact hab

theorem virtualNodes_succ {grown : UInt32} (h : grown.toNat = shardCount.toNat + 1) :
    virtualNodes grown = virtualNodes shardCount ++
      (List.range virtualNodesPerShard).map (shardCount, ·) := by
  simp [virtualNodes, shardIds, h, List.range_succ]

/-- The search over the virtual nodes, without the monad. -/
def nearestNode (hashes : Hashes) (partitionKey : List UInt8) (nodes : List (UInt32 × Nat)) :
    UInt32 × UInt64 :=
  nodes.foldl (nearer Prod.fst (hashes.offset partitionKey)) (0, u64Max)

theorem consistentHashPartition_eq :
    consistentHashPartition profile hashes partitionKey shardCount =
      .ok (nearestNode hashes partitionKey (virtualNodes shardCount)).1 := by
  have hbody (shardId : UInt32) (best : UInt32 × UInt64) (vn : Nat) :
      tryVirtualNode profile hashes (hashes.key partitionKey) shardId best vn =
        pure (nearer Prod.fst (hashes.offset partitionKey) best (shardId, vn)) := by
    rw [tryVirtualNode, distance_eq]
    rfl
  have hinner (shardId : UInt32) (best : UInt32 × UInt64) :
      (List.range virtualNodesPerShard).foldlM
          (tryVirtualNode profile hashes (hashes.key partitionKey) shardId) best =
        pure (((List.range virtualNodesPerShard).map (shardId, ·)).foldl
          (nearer Prod.fst (hashes.offset partitionKey)) best) := by
    rw [funext fun best => funext fun vn => hbody shardId best vn, List.foldlM_pure,
      List.foldl_map]
  rw [consistentHashPartition, nearestNode, virtualNodes, List.foldl_flatMap]
  simp only [hinner, List.foldlM_pure]
  rfl

theorem nearest_nearestNode (hpos : 0 < shardCount) :
    hashes.Nearest partitionKey shardCount
      (nearestNode hashes partitionKey (virtualNodes shardCount)).1 := by
  have hleast (other : UInt32) (hother : other < shardCount) (vn : Nat)
      (hvn : vn < virtualNodesPerShard) :
      (nearestNode hashes partitionKey (virtualNodes shardCount)).2.toNat ≤
        hashes.clockwise partitionKey other vn := by
    rw [← hashes.toNat_offset partitionKey (other, vn), ← UInt64.le_iff_toNat_le]
    exact foldl_nearer_le_of_mem _ _ _ (mem_virtualNodes.mpr ⟨hother, hvn⟩)
  rcases foldl_nearer_cases Prod.fst (hashes.offset partitionKey) ((0 : UInt32), u64Max)
    (virtualNodes shardCount) with hkept | ⟨l₁, node, l₂, hnodes, hfound, -, hfirst⟩
  · -- Every virtual node is at the largest distance.
    rw [← nearestNode] at hkept
    rw [hkept] at hleast ⊢
    refine ⟨hpos, ⟨0, by decide, fun other hother vn hvn => ?_⟩, ?_⟩
    · refine Nat.le_trans ?_ (hleast other hother vn hvn)
      exact Nat.le_of_lt_succ (Nat.mod_lt _ (by decide))
    · intro other hother
      exact absurd hother (UInt32.not_lt_zero)
  · rw [← nearestNode] at hfound
    have hmem : node ∈ virtualNodes shardCount := by rw [hnodes]; simp
    obtain ⟨hshard, hvn⟩ := mem_virtualNodes.mp hmem
    rw [hfound] at hleast ⊢
    rw [hashes.toNat_offset] at hleast
    refine ⟨hshard, ⟨node.2, hvn, hleast⟩, ?_⟩
    rintro other hother ⟨vn, hvn', howns⟩
    -- The virtual nodes of a lower shard come before the one that was taken.
    have hin : (other, vn) ∈ l₁ := by
      have hin : (other, vn) ∈ l₁ ++ node :: l₂ := by
        rw [← hnodes]
        exact mem_virtualNodes.mpr ⟨UInt32.lt_trans hother hshard, hvn'⟩
      rcases List.mem_append.mp hin with hin | hin
      · exact hin
      · have hsorted := pairwise_virtualNodes shardCount
        rw [hnodes, List.pairwise_append, List.pairwise_cons] at hsorted
        rcases List.mem_cons.mp hin with rfl | hin
        · exact absurd hother (UInt32.lt_irrefl _)
        · exact absurd hother (UInt32.not_lt.mpr (hsorted.2.1.1 _ hin))
    have hlt := UInt64.lt_iff_toNat_lt.mp (hfirst _ hin)
    rw [hashes.toNat_offset, hashes.toNat_offset] at hlt
    exact absurd (howns node.1 hshard node.2 hvn) (Nat.not_le.mpr hlt)

/-- With one shard more a key stays or moves to the new shard. -/
theorem nearestNode_succ {grown : UInt32} (h : grown.toNat = shardCount.toNat + 1) :
    (nearestNode hashes partitionKey (virtualNodes grown)).1 =
        (nearestNode hashes partitionKey (virtualNodes shardCount)).1 ∨
      (nearestNode hashes partitionKey (virtualNodes grown)).1 = shardCount := by
  rw [virtualNodes_succ h, nearestNode, List.foldl_append, ← nearestNode]
  rcases foldl_nearer_cases Prod.fst (hashes.offset partitionKey)
    (nearestNode hashes partitionKey (virtualNodes shardCount))
    ((List.range virtualNodesPerShard).map (shardCount, ·)) with
    hkept | ⟨l₁, node, l₂, hnodes, hfound, -⟩
  · exact .inl (by rw [hkept])
  · right
    have hmem : node ∈ (List.range virtualNodesPerShard).map (shardCount, ·) := by
      rw [hnodes]; simp
    obtain ⟨vn, -, rfl⟩ := List.mem_map.mp hmem
    rw [hfound]

/-- A key goes to the lowest-numbered shard that owns a virtual node at the least clockwise
distance, no distance overflows, and with one shard more the key stays or moves to the new
one. -/
theorem consistentHashPartition_nearest (hashes : Hashes) (partitionKey : List UInt8)
    (shardCount : UInt32) :
    (∀ shard vn, ∃ d, d.toNat = hashes.clockwise partitionKey shard vn ∧ ∀ profile,
      distance profile (hashes.key partitionKey) (hashes.node (vnKey shard vn)) = .ok d) ∧
    ∃ shard, (∀ profile,
        consistentHashPartition profile hashes partitionKey shardCount = .ok shard) ∧
      (0 < shardCount → hashes.Nearest partitionKey shardCount shard) ∧
      ∀ grown : UInt32, grown.toNat = shardCount.toNat + 1 → ∃ next, (∀ profile,
          consistentHashPartition profile hashes partitionKey grown = .ok next) ∧
        (next = shard ∨ next = shardCount) := by
  refine ⟨fun shard vn => ⟨_, hashes.toNat_offset partitionKey (shard, vn), ?_⟩,
    _, ?_, nearest_nearestNode, ?_⟩
  · intro profile
    exact distance_eq _ _
  · intro profile
    exact consistentHashPartition_eq
  · intro grown hgrown
    exact ⟨_, fun _ => consistentHashPartition_eq, nearestNode_succ hgrown⟩

def Hashes.lengths : Hashes where
  key bytes := UInt64.ofNat bytes.length
  node name := UInt64.ofNat name.length

theorem consistentHashPartition_nearest_lengths : ∃ shard,
    consistentHashPartition ⟨true⟩ .lengths [1, 2, 3] 2 = .ok shard ∧
      Hashes.lengths.Nearest [1, 2, 3] 2 shard ∧ ∃ next,
        consistentHashPartition ⟨true⟩ .lengths [1, 2, 3] 3 = .ok next ∧
          (next = shard ∨ next = 2) := by
  obtain ⟨-, shard, hshard, hnearest, hgrown⟩ :=
    consistentHashPartition_nearest .lengths [1, 2, 3] 2
  obtain ⟨next, hnext, hmoved⟩ := hgrown 3 (by decide)
  exact ⟨shard, hshard _, hnearest (by decide), next, hnext _, hmoved⟩

end PlexSpaces.Shards
