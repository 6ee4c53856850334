import PlexSpaces.Lib.Binary64
import PlexSpaces.Lib.Json
/-!
# The numbers of JSON texts

A number as `serde_json` keeps it: an integer of 64 bits, apart for the negative ones, or a finite
float.  Equality goes by the kind first, so that 5 and 5.0 are not equal; `value` is the number
that each stands for.
-/

namespace PlexSpaces.Lib

inductive JsonNumber where
  | posInt (n : UInt64)
  | negInt (n : Int64) (negative : n < 0)
  | float (bits : UInt64) (finite : Binary64.isFinite bits = true)

namespace JsonNumber

/-- Floats are equal when their values are, as the two zeros are. -/
instance : BEq JsonNumber where
  beq
    | posInt m, posInt n => m == n
    | negInt m _, negInt n _ => m == n
    | float a _, float b _ => Binary64.value a == Binary64.value b
    | _, _ => false

def asU64 : JsonNumber → Option UInt64
  | posInt n => some n
  | negInt _ _ | float _ _ => none

def asF64 : JsonNumber → UInt64
  | posInt n => Binary64.ofNat n.toNat
  | negInt n _ => Binary64.ofInt n.toInt
  | float bits _ => bits

/-- `Number::from_f64`. -/
def ofF64 (bits : UInt64) : Option JsonNumber :=
  if finite : Binary64.isFinite bits = true then some (float bits finite) else none

/-- The number, in units of the smallest positive float. -/
def value : JsonNumber → Int
  | posInt n => n.toNat * Binary64.one
  | negInt n _ => n.toInt * Binary64.one
  | float bits _ => Binary64.value bits

def isFloat : JsonNumber → Bool
  | float _ _ => true
  | posInt _ | negInt _ _ => false

/-- Numbers are ordered by their floats. -/
instance : LT JsonNumber := ⟨fun m n => Binary64.value m.asF64 < Binary64.value n.asF64⟩

instance : DecidableLT JsonNumber := fun m n =>
  inferInstanceAs (Decidable (Binary64.value m.asF64 < Binary64.value n.asF64))

/-- An integer between `-2 ^ 53` and `2 ^ 53`. -/
def Small (n : JsonNumber) : Prop := ∃ k : Int, k.natAbs < 2 ^ 53 ∧ n.value = k * Binary64.one

theorem isFinite_asF64 (n : JsonNumber) : Binary64.isFinite n.asF64 = true := by
  cases n with
  | posInt n => exact Binary64.isFinite_ofNat n.toNat_lt
  | negInt n negative =>
      refine Binary64.isFinite_ofInt ?_
      have hlow := n.le_toInt
      have hhigh := n.toInt_lt
      omega
  | float bits finite => exact finite

def toDouble (n : JsonNumber) : JsonNumber := float n.asF64 n.isFinite_asF64

theorem ofF64_asF64 (n : JsonNumber) : ofF64 n.asF64 = some n.toDouble :=
  dif_pos n.isFinite_asF64

variable {n : JsonNumber}

theorem one_pos : 0 < Binary64.one := Nat.two_pow_pos _

theorem natAbs_lt_of_small {k : Int} (hsmall : n.Small) (h : n.value = k * Binary64.one) :
    k.natAbs < 2 ^ 53 := by
  obtain ⟨k', hlt, hk'⟩ := hsmall
  have hpos : (Binary64.one : Int) ≠ 0 := Int.natCast_ne_zero.mpr one_pos.ne'
  rw [Int.eq_of_mul_eq_mul_right hpos (h.symm.trans hk')]
  exact hlt

theorem value_toDouble (h : n.Small) : n.toDouble.value = n.value := by
  cases n with
  | posInt m =>
      have hlt := natAbs_lt_of_small h rfl
      have hfloat : Binary64.ofInt m.toNat = Binary64.ofNat m.toNat := if_neg (by omega)
      have hvalue := (Binary64.value_ofInt hlt).1
      rw [hfloat] at hvalue
      exact hvalue
  | negInt m negative =>
      have hlt := natAbs_lt_of_small h rfl
      exact (Binary64.value_ofInt hlt).1
  | float bits finite => rfl

theorem small_of_toDouble (h : n.toDouble.Small) : n.Small := by
  obtain ⟨k, hlt, hk⟩ := h
  have hvalue : n.toDouble.value.natAbs < 2 ^ 53 * Binary64.one := by
    rw [hk, Int.natAbs_mul, Int.natAbs_natCast]
    exact Nat.mul_lt_mul_of_pos_right hlt one_pos
  cases n with
  | posInt m =>
      refine ⟨m.toNat, Nat.lt_of_not_le fun hle => ?_, rfl⟩
      have hfloat : Binary64.ofInt m.toNat = Binary64.ofNat m.toNat := if_neg (by omega)
      have hlarge := Binary64.le_value_ofInt (k := m.toNat) hle m.toNat_lt
      rw [hfloat] at hlarge
      exact absurd hvalue (Nat.not_lt.mpr hlarge)
  | negInt m negative =>
      refine ⟨m.toInt, Nat.lt_of_not_le fun hle => ?_, rfl⟩
      have hlow := m.le_toInt
      have hhigh := m.toInt_lt
      exact absurd hvalue (Nat.not_lt.mpr (Binary64.le_value_ofInt hle (by omega)))
  | float bits finite => exact ⟨k, hlt, hk⟩

/-! ## Equality -/

theorem posInt_nonneg (m : UInt64) : 0 ≤ (posInt m).value :=
  Int.mul_nonneg (Int.natCast_nonneg _) (Int.natCast_nonneg _)

theorem negInt_neg (m : Int64) (negative : m < 0) : (negInt m negative).value < 0 :=
  Int.mul_neg_of_neg_of_pos (Int64.lt_iff_toInt_lt.mp negative)
    (Int.natCast_pos.mpr one_pos)

/-- Equal numbers have the same value and are both floats or both integers. -/
theorem beq_iff (m n : JsonNumber) :
    (m == n) = true ↔ (m.isFloat, m.value) = (n.isFloat, n.value) := by
  have hone : (Binary64.one : Int) ≠ 0 := Int.natCast_ne_zero.mpr one_pos.ne'
  rw [Prod.mk.injEq]
  cases m with
  | posInt a =>
      cases n with
      | posInt b =>
          change (a == b) = true ↔ false = false ∧ _
          rw [value, value, Int.mul_eq_mul_right_iff hone, Int.natCast_inj, UInt64.toNat_inj,
            beq_iff_eq, eq_self, true_and]
      | negInt b negative =>
          have hnonneg := posInt_nonneg a
          have hneg := negInt_neg b negative
          refine ⟨fun h => ?_, fun h => ?_⟩
          · cases h
          · omega
      | float b finite => exact ⟨fun h => Bool.noConfusion h, fun h => Bool.noConfusion h.1⟩
  | negInt a negative =>
      cases n with
      | posInt b =>
          have hnonneg := posInt_nonneg b
          have hneg := negInt_neg a negative
          refine ⟨fun h => ?_, fun h => ?_⟩
          · cases h
          · omega
      | negInt b negative' =>
          change (a == b) = true ↔ false = false ∧ _
          rw [value, value, Int.mul_eq_mul_right_iff hone, Int64.toInt_inj, beq_iff_eq, eq_self,
            true_and]
      | float b finite => exact ⟨fun h => Bool.noConfusion h, fun h => Bool.noConfusion h.1⟩
  | float a finite =>
      cases n with
      | posInt b => exact ⟨fun h => Bool.noConfusion h, fun h => Bool.noConfusion h.1⟩
      | negInt b negative => exact ⟨fun h => Bool.noConfusion h, fun h => Bool.noConfusion h.1⟩
      | float b finite' =>
          change (Binary64.value a == Binary64.value b) = true ↔ true = true ∧ _
          rw [beq_iff_eq, eq_self, true_and]
          rfl

end JsonNumber

end PlexSpaces.Lib
