import PlexSpaces.Shards.CreateGroup
import PlexSpaces.Shards.Partition
/-!
# Ranges of ordered keys

Range partitioning should keep the order of the keys.  The scan of the boundaries does, sorted
or not.  Without boundaries the first byte is scaled in `u32`: from `2 ^ 32` on the product
panics or wraps around, and a larger key comes to a lower shard.
-/

namespace PlexSpaces.Shards

/-- The shard counts that `create_shard_group` lets pass. -/
def Admitted (shardCount : UInt32) : Prop :=
  ∃ req config, checkRequest req = .ok config ∧ config.shardCount = shardCount

theorem admitted_iff {shardCount : UInt32} :
    Admitted shardCount ↔ shardCount ≠ 0 ∧ ¬1000000000 < shardCount := by
  constructor
  · rintro ⟨req, config, hcheck, rfl⟩
    simp only [checkRequest] at hcheck
    split at hcheck
    · cases hcheck
    · split_ifs at hcheck with hzero hmax
      cases hcheck
      exact ⟨hzero, hmax⟩
  · rintro ⟨hzero, hmax⟩
    refine ⟨⟨some ⟨"group", shardCount, none⟩, "actor"⟩, ⟨"group", shardCount, none⟩, ?_, rfl⟩
    simp [checkRequest, hzero, hmax]

/-- Both keys get a shard of the group, the smaller key not the higher one. -/
def PreservesOrder (profile : Profile) (shardCount : UInt32)
    (ranges : Option (List (List UInt8))) (a b : List UInt8) : Prop :=
  ∃ s t, rangePartition profile a shardCount ranges = .ok s ∧
    rangePartition profile b shardCount ranges = .ok t ∧ s ≤ t ∧ s < shardCount ∧ t < shardCount

variable {profile : Profile} {shardCount i s t : UInt32} {ranges : List (List UInt8)}
  {a b : List UInt8}

/-- The scan answers with a boundary from `i` on. -/
theorem scanRanges_bounds (hfits : i.toNat + ranges.length < 2 ^ 32)
    (h : scanRanges a i ranges = some s) : i ≤ s ∧ s.toNat < i.toNat + ranges.length := by
  induction ranges generalizing i with
  | nil => cases h
  | cons boundary ranges ih =>
      rw [scanRanges] at h
      simp only [List.length_cons] at hfits ⊢
      split at h
      · cases h
        exact ⟨UInt32.le_refl _, by omega⟩
      · have hnext : (i + 1).toNat = i.toNat + 1 := by
          rw [UInt32.toNat_add, UInt32.toNat_one, Nat.mod_eq_of_lt (by omega)]
        obtain ⟨hle, hlt⟩ := ih (by omega) h
        rw [UInt32.le_iff_toNat_le] at hle ⊢
        exact ⟨by omega, by omega⟩

/-- A key below a boundary has the smaller keys below it too. -/
theorem scanRanges_mono (hab : a ≤ b) (hfits : i.toNat + ranges.length < 2 ^ 32)
    (h : scanRanges b i ranges = some t) : ∃ s, scanRanges a i ranges = some s ∧ s ≤ t := by
  induction ranges generalizing i with
  | nil => cases h
  | cons boundary ranges ih =>
      have hbounds := (scanRanges_bounds hfits h).1
      rw [scanRanges] at h ⊢
      simp only [List.length_cons] at hfits
      split at h
      case isTrue hb => exact ⟨i, if_pos (List.lt_of_le_of_lt hab hb), hbounds⟩
      case isFalse hb =>
        split
        · exact ⟨i, rfl, hbounds⟩
        · refine ih ?_ h
          rw [UInt32.toNat_add, UInt32.toNat_one, Nat.mod_eq_of_lt (by omega)]
          omega

theorem preservesOrder_some (hpos : 0 < shardCount.toNat)
    (hlength : ranges.length = shardCount.toNat) (hab : a ≤ b) :
    PreservesOrder profile shardCount (some ranges) a b := by
  have hone : (1 : UInt32) ≤ shardCount := UInt32.le_iff_toNat_le.mpr hpos
  have hlast : (shardCount - 1).toNat = shardCount.toNat - 1 := by
    rw [UInt32.toNat_sub_of_le _ _ hone, UInt32.toNat_one]
  have hfits : (0 : UInt32).toNat + ranges.length < 2 ^ 32 := by
    rw [hlength, UInt32.toNat_zero, Nat.zero_add]
    exact shardCount.toNat_lt
  have hbelow (key : List UInt8) :
      (scanRanges key 0 ranges).getD (shardCount - 1) < shardCount := by
    rw [UInt32.lt_iff_toNat_lt]
    cases hscan : scanRanges key 0 ranges with
    | none => rw [Option.getD_none, hlast]; omega
    | some s =>
        have hs := (scanRanges_bounds hfits hscan).2
        rw [hlength, UInt32.toNat_zero, Nat.zero_add] at hs
        exact hs
  have hok (key : List UInt8) : rangePartition profile key shardCount (some ranges) =
      .ok ((scanRanges key 0 ranges).getD (shardCount - 1)) :=
    if_neg (by simp [hlength])
  refine ⟨_, _, hok a, hok b, ?_, hbelow a, hbelow b⟩
  cases hscan : scanRanges b 0 ranges with
  | none =>
      have ha := UInt32.lt_iff_toNat_lt.mp (hbelow a)
      rw [Option.getD_none, UInt32.le_iff_toNat_le, hlast]
      omega
  | some t =>
      obtain ⟨s, hs, hst⟩ := scanRanges_mono hab hfits hscan
      rw [hs]
      exact hst

section FirstByte

variable {x y : UInt8} {as bs : List UInt8}

theorem rangePartition_cons (hfits : x.toNat * shardCount.toNat < 2 ^ 32) :
    rangePartition profile (x :: as) shardCount none =
      .ok (min (x.toUInt32 * shardCount / 256) (shardCount - 1)) := by
  simp only [rangePartition, Profile.mul]
  rw [Profile.checked_of_fits _ (by rwa [UInt8.toNat_toUInt32])]
  rfl

/-- The shard of a first byte whose product fits, as a number. -/
theorem toNat_scaled (hpos : 0 < shardCount.toNat)
    (hfits : x.toNat * shardCount.toNat < 2 ^ 32) :
    (min (x.toUInt32 * shardCount / 256) (shardCount - 1)).toNat =
      x.toNat * shardCount.toNat / 256 := by
  have hone : (1 : UInt32) ≤ shardCount := UInt32.le_iff_toNat_le.mpr hpos
  have hmul : (x.toUInt32 * shardCount / 256).toNat = x.toNat * shardCount.toNat / 256 := by
    rw [UInt32.toNat_div, UInt32.toNat_mul, UInt8.toNat_toUInt32, Nat.mod_eq_of_lt hfits]
    rfl
  have hlt : x.toNat * shardCount.toNat / 256 < shardCount.toNat := by
    rw [Nat.div_lt_iff_lt_mul (by decide), Nat.mul_comm]
    exact Nat.mul_lt_mul_of_pos_left x.toNat_lt hpos
  have hle : x.toUInt32 * shardCount / 256 ≤ shardCount - 1 := by
    rw [UInt32.le_iff_toNat_le, hmul, UInt32.toNat_sub_of_le _ _ hone, UInt32.toNat_one]
    omega
  rw [← hmul]
  exact congrArg UInt32.toNat (if_pos hle)

theorem preservesOrder_none (hpos : 0 < shardCount.toNat) (hab : x :: as ≤ y :: bs)
    (hfits : y.toNat * shardCount.toNat < 2 ^ 32) :
    PreservesOrder profile shardCount none (x :: as) (y :: bs) := by
  have hxy : x.toNat ≤ y.toNat := by
    rcases List.cons_le_cons_iff.mp hab with hlt | ⟨rfl, -⟩
    · exact Nat.le_of_lt (UInt8.lt_iff_toNat_lt.mp hlt)
    · exact Nat.le_refl _
  have hscaled : x.toNat * shardCount.toNat ≤ y.toNat * shardCount.toNat :=
    Nat.mul_le_mul_right _ hxy
  have hfits' : x.toNat * shardCount.toNat < 2 ^ 32 := Nat.lt_of_le_of_lt hscaled hfits
  have hbelow (z : UInt8) : z.toNat * shardCount.toNat / 256 < shardCount.toNat := by
    rw [Nat.div_lt_iff_lt_mul (by decide), Nat.mul_comm]
    exact Nat.mul_lt_mul_of_pos_left z.toNat_lt hpos
  refine ⟨_, _, rangePartition_cons hfits', rangePartition_cons hfits, ?_, ?_, ?_⟩
  · rw [UInt32.le_iff_toNat_le, toNat_scaled hpos hfits', toNat_scaled hpos hfits]
    exact Nat.div_le_div_right hscaled
  · rw [UInt32.lt_iff_toNat_lt, toNat_scaled hpos hfits']
    exact hbelow x
  · rw [UInt32.lt_iff_toNat_lt, toNat_scaled hpos hfits]
    exact hbelow y

/-- A product that does not fit panics in a build with overflow checks. -/
theorem fits_of_rangePartition_ok
    (h : rangePartition ⟨true⟩ (y :: bs) shardCount none = .ok t) :
    y.toNat * shardCount.toNat < 2 ^ 32 := by
  rw [← UInt8.toNat_toUInt32]
  apply (Profile.checked_true_iff (y.toUInt32 * shardCount)).mp
  change ∃ scaled, Profile.mul ⟨true⟩ y.toUInt32 shardCount = .ok scaled
  simp only [rangePartition] at h
  cases hmul : Profile.mul ⟨true⟩ y.toUInt32 shardCount with
  | error e => rw [hmul] at h; cases h
  | ok scaled => exact ⟨scaled, rfl⟩

end FirstByte

/-- Every build keeps the order exactly if there are boundaries or the first byte of the larger
key, times the number of shards, fits. -/
theorem preservesOrder_iff (shardCount : UInt32) (hadmitted : Admitted shardCount)
    (ranges : Option (List (List UInt8)))
    (hlength : ∀ boundaries ∈ ranges, boundaries.length = shardCount.toNat)
    (a b : List UInt8) (ha : a ≠ []) (hb : b ≠ []) (hab : a ≤ b) :
    (∀ profile, PreservesOrder profile shardCount ranges a b) ↔
      ranges.isSome ∨ ∀ firstByte ∈ b.head?, firstByte.toNat * shardCount.toNat < 2 ^ 32 := by
  have hpos : 0 < shardCount.toNat := by
    refine Nat.pos_of_ne_zero fun h => (admitted_iff.mp hadmitted).1 ?_
    exact UInt32.toNat_inj.mp h
  cases ranges with
  | some boundaries =>
      simp only [Option.isSome_some, true_or, iff_true]
      exact fun profile => preservesOrder_some hpos (hlength boundaries rfl) hab
  | none =>
      obtain ⟨x, as, rfl⟩ := List.exists_cons_of_ne_nil ha
      obtain ⟨y, bs, rfl⟩ := List.exists_cons_of_ne_nil hb
      simp only [Option.isSome_none, Bool.false_eq_true, false_or, List.head?_cons,
        Option.mem_some_iff, forall_eq']
      constructor
      · intro h
        obtain ⟨_, _, -, hok, -⟩ := h ⟨true⟩
        exact fits_of_rangePartition_ok hok
      · intro hfits profile
        exact preservesOrder_none hpos hab hfits

/-- With boundaries, and by the first byte. -/
theorem preservesOrder_iff_three :
    PreservesOrder ⟨true⟩ 3 (some [[80], [160], [255]]) [7] [200, 1] ∧
      PreservesOrder ⟨true⟩ 3 none [80] [200] := by
  have hadmitted : Admitted 3 := admitted_iff.mpr (by decide)
  have hlength : ∀ boundaries ∈ some [[80], [160], ([255] : List UInt8)],
      boundaries.length = (3 : UInt32).toNat := by
    rintro _ ⟨⟩
    rfl
  have hfits : ∀ firstByte ∈ ([200] : List UInt8).head?,
      firstByte.toNat * (3 : UInt32).toNat < 2 ^ 32 := by
    rintro _ ⟨⟩
    decide
  constructor
  · exact (preservesOrder_iff 3 hadmitted _ hlength [7] [200, 1] (by decide) (by decide)
      (by decide)).mpr (.inl rfl) ⟨true⟩
  · exact (preservesOrder_iff 3 hadmitted none nofun [80] [200] (by decide) (by decide)
      (by decide)).mpr (.inr hfits) ⟨true⟩

/-- With 10^9 shards the key 4 comes to a higher shard than the key 5, or the key 5 panics. -/
theorem not_preservesOrder : Admitted 1000000000 ∧ ([4] : List UInt8) ≤ [5] ∧
    ∀ profile, ¬PreservesOrder profile 1000000000 none [4] [5] := by
  refine ⟨admitted_iff.mpr (by decide), by decide, ?_⟩
  rintro ⟨overflowChecks⟩ ⟨s, t, hs, ht, hle, -⟩
  cases overflowChecks with
  | true => cases ht
  | false =>
      cases hs
      cases ht
      exact absurd hle (by decide)

end PlexSpaces.Shards
