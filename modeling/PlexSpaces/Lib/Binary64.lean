import Mathlib.Algebra.Order.Ring.Int
import Mathlib.Data.Nat.Basic
import Mathlib.Tactic.Ring
/-!
# Binary64 numbers

A float by its 64 bits: the sign, eleven bits of exponent and 52 bits of fraction.  Every
finite value is a whole number of the smallest positive ones, and infinity counts as the
number that follows the largest of them.  Two floats that are numbers have one value exactly
when they have the same bits or are both a zero (`value_eq_iff`).  An integer is rounded to the
nearest float, and one below `2 ^ 53` is a float itself (`value_ofInt`).
-/

namespace PlexSpaces.Lib.Binary64

def exponent (bits : UInt64) : Nat := bits.toNat / 2 ^ 52 % 2 ^ 11

def fraction (bits : UInt64) : Nat := bits.toNat % 2 ^ 52

def isNegative (bits : UInt64) : Bool := 2 ^ 63 ≤ bits.toNat

def isNan (bits : UInt64) : Bool := exponent bits = 2 ^ 11 - 1 ∧ fraction bits ≠ 0

/-- Either zero: no bit but the sign is set. -/
def isZero (bits : UInt64) : Bool := bits.toNat % 2 ^ 63 = 0

/-- The absolute value, in units of the smallest positive float. -/
def magnitude (bits : UInt64) : Nat :=
  if exponent bits = 0 then fraction bits
  else (2 ^ 52 + fraction bits) * 2 ^ (exponent bits - 1)

def value (bits : UInt64) : Int :=
  if isNegative bits then -(magnitude bits : Int) else magnitude bits

theorem fraction_lt (bits : UInt64) : fraction bits < 2 ^ 52 :=
  Nat.mod_lt _ (by decide)

theorem toNat_eq (bits : UInt64) :
    bits.toNat = (if isNegative bits then 2 ^ 63 else 0) + (exponent bits * 2 ^ 52 +
      fraction bits) := by
  have hlt := bits.toNat_lt
  unfold isNegative exponent fraction
  by_cases hneg : 2 ^ 63 ≤ bits.toNat
  · simp only [hneg, decide_true, if_true]
    omega
  · simp only [hneg, decide_false, Bool.false_eq_true, if_false]
    omega

theorem isZero_iff {bits : UInt64} :
    isZero bits = true ↔ exponent bits = 0 ∧ fraction bits = 0 := by
  have hlt := bits.toNat_lt
  rw [isZero, decide_eq_true_iff, exponent, fraction]
  omega

theorem le_magnitude {bits : UInt64} (h : exponent bits ≠ 0) :
    2 ^ 52 * 2 ^ (exponent bits - 1) ≤ magnitude bits := by
  rw [magnitude, if_neg h]
  exact Nat.mul_le_mul_right _ (Nat.le_add_right _ _)

theorem magnitude_lt (bits : UInt64) : magnitude bits < 2 ^ 52 * 2 ^ exponent bits := by
  have hfraction := fraction_lt bits
  by_cases h : exponent bits = 0
  · rw [magnitude, if_pos h, h]
    omega
  · rw [magnitude, if_neg h]
    obtain ⟨e, he⟩ := Nat.exists_eq_succ_of_ne_zero h
    rw [he, Nat.succ_sub_one, Nat.pow_succ]
    calc
      (2 ^ 52 + fraction bits) * 2 ^ e < (2 ^ 52 + 2 ^ 52) * 2 ^ e :=
        Nat.mul_lt_mul_of_pos_right (by omega) (Nat.two_pow_pos e)
      _ = 2 ^ 52 * (2 ^ e * 2) := by ring

theorem magnitude_lt_of_exponent_lt {a b : UInt64} (h : exponent a < exponent b) :
    magnitude a < magnitude b := by
  have hb : exponent b ≠ 0 := Nat.ne_zero_of_lt h
  calc
    magnitude a < 2 ^ 52 * 2 ^ exponent a := magnitude_lt a
    _ ≤ 2 ^ 52 * 2 ^ (exponent b - 1) :=
      Nat.mul_le_mul_left _ (Nat.pow_le_pow_right (by decide) (by omega))
    _ ≤ magnitude b := le_magnitude hb

theorem eq_of_magnitude_eq {a b : UInt64} (h : magnitude a = magnitude b) :
    exponent a = exponent b ∧ fraction a = fraction b := by
  have hexponent : exponent a = exponent b := by
    rcases Nat.lt_trichotomy (exponent a) (exponent b) with hlt | heq | hlt
    · exact absurd h (magnitude_lt_of_exponent_lt hlt).ne
    · exact heq
    · exact absurd h.symm (magnitude_lt_of_exponent_lt hlt).ne
  refine ⟨hexponent, ?_⟩
  unfold magnitude at h
  by_cases hzero : exponent b = 0
  · rwa [if_pos (hexponent.trans hzero), if_pos hzero] at h
  · rw [if_neg (fun ha => hzero (hexponent.symm.trans ha)), if_neg hzero, hexponent] at h
    have hsum := Nat.eq_of_mul_eq_mul_right (Nat.two_pow_pos _) h
    omega

theorem magnitude_eq_zero_iff {bits : UInt64} : magnitude bits = 0 ↔ isZero bits = true := by
  rw [isZero_iff]
  constructor
  · intro h
    by_cases hzero : exponent bits = 0
    · rw [magnitude, if_pos hzero] at h
      exact ⟨hzero, h⟩
    · have hle := le_magnitude hzero
      have hpos : 0 < 2 ^ 52 * 2 ^ (exponent bits - 1) :=
        Nat.mul_pos (by decide) (Nat.two_pow_pos _)
      omega
  · rintro ⟨hexponent, hfraction⟩
    rw [magnitude, if_pos hexponent, hfraction]

theorem value_eq_iff {a b : UInt64} :
    value a = value b ↔ a = b ∨ isZero a = true ∧ isZero b = true := by
  constructor
  · intro h
    by_cases hsign : isNegative a = isNegative b
    · left
      have hmagnitude : magnitude a = magnitude b := by
        unfold value at h
        rw [hsign] at h
        split_ifs at h <;> omega
      obtain ⟨hexponent, hfraction⟩ := eq_of_magnitude_eq hmagnitude
      apply UInt64.toNat_inj.mp
      rw [toNat_eq a, toNat_eq b, hsign, hexponent, hfraction]
    · right
      -- a value and its negative are equal only if both are zero
      have hboth : magnitude a = 0 ∧ magnitude b = 0 := by
        unfold value at h
        cases ha : isNegative a <;> cases hb : isNegative b <;> simp [ha, hb] at h hsign <;> omega
      exact ⟨magnitude_eq_zero_iff.mp hboth.1, magnitude_eq_zero_iff.mp hboth.2⟩
  · rintro (rfl | ⟨ha, hb⟩)
    · rfl
    · rw [value, value, magnitude_eq_zero_iff.mpr ha, magnitude_eq_zero_iff.mpr hb]
      simp

/-! ## Integers -/

/-- The smallest positive float is two to the power of this number, negated. -/
def unitExponent : Nat := 1074

def one : Nat := 2 ^ unitExponent

def isFinite (bits : UInt64) : Bool := exponent bits ≠ 2 ^ 11 - 1

/-- The quotient, rounded to the nearest integer and to the even one of two. -/
def divRound (n d : Nat) : Nat :=
  if d < 2 * (n % d) ∨ d = 2 * (n % d) ∧ n / d % 2 = 1 then n / d + 1 else n / d

/-- The significand of a positive integer: 53 bits, rounded where it has more. -/
def significand (n : Nat) : Nat :=
  if n.log2 ≤ 52 then n * 2 ^ (52 - n.log2) else divRound n (2 ^ (n.log2 - 52))

/-- The float of an integer of at most 64 bits. -/
def ofNat (n : Nat) : UInt64 :=
  if n = 0 then 0 else .ofNat ((n.log2 + 1023) * 2 ^ 52 + (significand n - 2 ^ 52))

def ofInt (k : Int) : UInt64 :=
  if k < 0 then .ofNat (2 ^ 63 + (ofNat k.natAbs).toNat) else ofNat k.natAbs

/-- The integer part, as far as 64 bits hold it; 0 for what is negative or no number. -/
def toU64 (bits : UInt64) : UInt64 :=
  if isNan bits ∨ isNegative bits then 0 else .ofNat (min (magnitude bits / one) (2 ^ 64 - 1))

section Small

variable {n : Nat}

theorem significand_bounds (hpos : n ≠ 0) (h : n < 2 ^ 53) :
    significand n = n * 2 ^ (52 - n.log2) ∧ n.log2 ≤ 52 ∧
      2 ^ 52 ≤ significand n ∧ significand n < 2 ^ 53 := by
  have hlog : n.log2 ≤ 52 := Nat.le_of_lt_succ ((Nat.log2_lt hpos).mpr h)
  have hlow : 2 ^ n.log2 ≤ n := Nat.log2_self_le hpos
  have hhigh : n < 2 ^ (n.log2 + 1) := Nat.lt_log2_self
  have heq : significand n = n * 2 ^ (52 - n.log2) := if_pos hlog
  have hsplit : 2 ^ n.log2 * 2 ^ (52 - n.log2) = 2 ^ 52 := by
    rw [← Nat.pow_add, Nat.add_sub_of_le hlog]
  have hsplit' : 2 ^ (n.log2 + 1) * 2 ^ (52 - n.log2) = 2 ^ 53 := by
    rw [Nat.pow_succ, Nat.mul_right_comm, hsplit, ← Nat.pow_succ]
  refine ⟨heq, hlog, ?_, ?_⟩
  · rw [heq, ← hsplit]
    exact Nat.mul_le_mul_right _ hlow
  · rw [heq, ← hsplit']
    exact Nat.mul_lt_mul_of_pos_right hhigh (Nat.two_pow_pos _)

theorem toNat_ofNat (hpos : n ≠ 0) (h : n < 2 ^ 53) :
    (ofNat n).toNat = (n.log2 + 1023) * 2 ^ 52 + (significand n - 2 ^ 52) := by
  obtain ⟨-, hlog, hlow, hhigh⟩ := significand_bounds hpos h
  rw [ofNat, if_neg hpos, UInt64.toNat_ofNat']
  exact Nat.mod_eq_of_lt (by omega)

/-- Bits that are those of a small integer but for the sign have its magnitude. -/
theorem magnitude_of_toNat_mod (h : n < 2 ^ 53) {bits : UInt64}
    (hbits : bits.toNat % 2 ^ 63 = (ofNat n).toNat) :
    magnitude bits = n * one ∧ isFinite bits = true := by
  by_cases hpos : n = 0
  · subst hpos
    have hzero : isZero bits = true := decide_eq_true hbits
    have hexponent := (isZero_iff.mp hzero).1
    refine ⟨(magnitude_eq_zero_iff.mpr hzero).trans (Nat.zero_mul _).symm, ?_⟩
    rw [isFinite, hexponent]
    rfl
  · obtain ⟨heq, hlog, hlow, hhigh⟩ := significand_bounds hpos h
    rw [toNat_ofNat hpos h] at hbits
    have hexponent : exponent bits = n.log2 + 1023 := by
      unfold exponent
      omega
    have hfraction : 2 ^ 52 + fraction bits = significand n := by
      unfold fraction
      omega
    have hunits : 52 - n.log2 + (n.log2 + 1023 - 1) = unitExponent := by
      unfold unitExponent
      omega
    refine ⟨?_, ?_⟩
    · rw [magnitude, if_neg (by omega), hfraction, heq, hexponent, Nat.mul_assoc, ← Nat.pow_add,
        hunits, one]
    · rw [isFinite, hexponent]
      exact decide_eq_true (by omega)

theorem ofNat_lt (h : n < 2 ^ 53) : (ofNat n).toNat < 2 ^ 63 := by
  by_cases hpos : n = 0
  · subst hpos
    decide
  · obtain ⟨-, hlog, hlow, hhigh⟩ := significand_bounds hpos h
    rw [toNat_ofNat hpos h]
    omega

/-- An integer below `2 ^ 53` is a float. -/
theorem value_ofInt {k : Int} (h : k.natAbs < 2 ^ 53) :
    value (ofInt k) = k * one ∧ isFinite (ofInt k) = true := by
  have hlt := ofNat_lt h
  by_cases hneg : k < 0
  · have htoNat : (ofInt k).toNat = 2 ^ 63 + (ofNat k.natAbs).toNat := by
      rw [ofInt, if_pos hneg, UInt64.toNat_ofNat']
      exact Nat.mod_eq_of_lt (by omega)
    have hmod : (ofInt k).toNat % 2 ^ 63 = (ofNat k.natAbs).toNat := by omega
    obtain ⟨hmagnitude, hfinite⟩ := magnitude_of_toNat_mod h hmod
    have hsign : isNegative (ofInt k) = true := decide_eq_true (by omega)
    refine ⟨?_, hfinite⟩
    rw [value, if_pos hsign, hmagnitude, Int.natCast_mul, ← Int.neg_mul]
    congr 1
    omega
  · have heq : ofInt k = ofNat k.natAbs := if_neg hneg
    have hmod : (ofInt k).toNat % 2 ^ 63 = (ofNat k.natAbs).toNat := by
      rw [heq]
      exact Nat.mod_eq_of_lt hlt
    obtain ⟨hmagnitude, hfinite⟩ := magnitude_of_toNat_mod h hmod
    have hsign : ¬isNegative (ofInt k) = true := by
      rw [isNegative, decide_eq_true_eq, heq]
      omega
    refine ⟨?_, hfinite⟩
    rw [value, if_neg hsign, hmagnitude, Int.natCast_mul]
    congr 1
    omega

end Small

theorem le_significand {n : Nat} (hpos : n ≠ 0) : 2 ^ 52 ≤ significand n := by
  by_cases hlog : n.log2 ≤ 52
  · exact (significand_bounds hpos ((Nat.log2_lt hpos).mp (by omega))).2.2.1
  · have hsplit : 2 ^ 52 * 2 ^ (n.log2 - 52) ≤ n := by
      rw [← Nat.pow_add, Nat.add_sub_of_le (by omega)]
      exact Nat.log2_self_le hpos
    have hdiv : 2 ^ 52 ≤ n / 2 ^ (n.log2 - 52) :=
      (Nat.le_div_iff_mul_le (Nat.two_pow_pos _)).mpr hsplit
    rw [significand, if_neg hlog, divRound]
    split_ifs <;> omega

theorem significand_le {n : Nat} : significand n ≤ 2 ^ 53 := by
  by_cases hpos : n = 0
  · subst hpos
    decide
  by_cases hlog : n.log2 ≤ 52
  · have hlt : n < 2 ^ 53 := (Nat.log2_lt hpos).mp (by omega)
    exact (significand_bounds hpos hlt).2.2.2.le
  · have hlt : n < 2 ^ 53 * 2 ^ (n.log2 - 52) := by
      rw [← Nat.pow_add]
      refine Nat.lt_of_lt_of_eq Nat.lt_log2_self (congrArg (2 ^ ·) ?_)
      omega
    have hdiv : n / 2 ^ (n.log2 - 52) < 2 ^ 53 :=
      Nat.div_lt_of_lt_mul (Nat.mul_comm _ _ ▸ hlt)
    rw [significand, if_neg hlog, divRound]
    split_ifs <;> omega

theorem toNat_ofNat_lt {n : Nat} (h : n < 2 ^ 64) : (ofNat n).toNat < 1088 * 2 ^ 52 := by
  by_cases hpos : n = 0
  · subst hpos
    decide
  · have hlog : n.log2 < 64 := (Nat.log2_lt hpos).mpr h
    have hle := significand_le (n := n)
    rw [ofNat, if_neg hpos, UInt64.toNat_ofNat']
    refine Nat.lt_of_le_of_lt (Nat.mod_le _ _) ?_
    omega

/-- An integer from `2 ^ 53` on is not rounded to a smaller one. -/
theorem le_magnitude_of_toNat_mod {n : Nat} (hlow : 2 ^ 53 ≤ n) (hhigh : n < 2 ^ 64)
    {bits : UInt64} (hbits : bits.toNat % 2 ^ 63 = (ofNat n).toNat) :
    2 ^ 53 * one ≤ magnitude bits := by
  have hpos : n ≠ 0 := by omega
  have hlog : 53 ≤ n.log2 := (Nat.le_log2 hpos).mpr hlow
  have hlog' : n.log2 < 64 := (Nat.log2_lt hpos).mpr hhigh
  have hge := le_significand hpos
  have hle := significand_le (n := n)
  have htoNat : (ofNat n).toNat = (n.log2 + 1023) * 2 ^ 52 + (significand n - 2 ^ 52) := by
    rw [ofNat, if_neg hpos, UInt64.toNat_ofNat']
    exact Nat.mod_eq_of_lt (by omega)
  have hexponent : unitExponent + 1 ≤ exponent bits - 1 := by
    unfold exponent unitExponent
    omega
  calc
    2 ^ 53 * one = 2 ^ 52 * 2 ^ (unitExponent + 1) := by
      unfold one
      ring
    _ ≤ 2 ^ 52 * 2 ^ (exponent bits - 1) :=
      Nat.mul_le_mul_left _ (Nat.pow_le_pow_right (by decide) hexponent)
    _ ≤ magnitude bits := le_magnitude (by omega)

theorem natAbs_value (bits : UInt64) : (value bits).natAbs = magnitude bits := by
  rw [value]
  split_ifs <;> omega

theorem le_value_ofInt {k : Int} (hlow : 2 ^ 53 ≤ k.natAbs) (hhigh : k.natAbs < 2 ^ 64) :
    2 ^ 53 * one ≤ (value (ofInt k)).natAbs := by
  have hlt := toNat_ofNat_lt hhigh
  rw [natAbs_value]
  refine le_magnitude_of_toNat_mod hlow hhigh ?_
  unfold ofInt
  split_ifs
  · rw [UInt64.toNat_ofNat']
    omega
  · omega

theorem isFinite_ofNat {n : Nat} (h : n < 2 ^ 64) : isFinite (ofNat n) = true := by
  have hlt := toNat_ofNat_lt h
  refine decide_eq_true ?_
  unfold exponent
  omega

theorem isNan_of_isFinite {bits : UInt64} (h : isFinite bits = true) : isNan bits = false :=
  decide_eq_false fun hnan => of_decide_eq_true h hnan.1

theorem value_ofInt_nonpos {k : Int} (hneg : k < 0) (h : k.natAbs < 2 ^ 64) :
    value (ofInt k) ≤ 0 := by
  have hlt := toNat_ofNat_lt h
  have hsign : isNegative (ofInt k) = true := by
    rw [ofInt, if_pos hneg]
    refine decide_eq_true ?_
    rw [UInt64.toNat_ofNat']
    omega
  rw [value, if_pos hsign]
  omega

theorem isFinite_ofInt {k : Int} (h : k.natAbs < 2 ^ 64) : isFinite (ofInt k) = true := by
  have hlt := toNat_ofNat_lt h
  have hsum : (UInt64.ofNat (2 ^ 63 + (ofNat k.natAbs).toNat)).toNat =
      2 ^ 63 + (ofNat k.natAbs).toNat := by
    rw [UInt64.toNat_ofNat']
    exact Nat.mod_eq_of_lt (by omega)
  refine decide_eq_true ?_
  unfold ofInt exponent
  split_ifs
  · rw [hsum]
    omega
  · omega

/-! ## Integer parts -/

section IntegerPart

variable {bits : UInt64}

theorem toNat_toU64 (hnan : isNan bits = false) (hsign : isNegative bits = false) :
    (toU64 bits).toNat = min (magnitude bits / one) (2 ^ 64 - 1) := by
  rw [toU64, if_neg (by rw [hnan, hsign]; decide), UInt64.toNat_ofNat']
  exact Nat.mod_eq_of_lt (by omega)

theorem toU64_le_value (hnonneg : 0 ≤ value bits) :
    ((toU64 bits).toNat * one : Int) ≤ value bits := by
  by_cases hzero : isNan bits = true ∨ isNegative bits = true
  · rw [toU64, if_pos hzero]
    rwa [show (0 : UInt64).toNat = 0 from rfl, Int.natCast_zero, Int.zero_mul]
  · obtain ⟨hnan, hsign⟩ := not_or.mp hzero
    have hle : (toU64 bits).toNat * one ≤ magnitude bits := by
      rw [toNat_toU64 (Bool.eq_false_iff.mpr hnan) (Bool.eq_false_iff.mpr hsign)]
      calc
        min (magnitude bits / one) (2 ^ 64 - 1) * one ≤ magnitude bits / one * one :=
          Nat.mul_le_mul_right _ (Nat.min_le_left _ _)
        _ ≤ magnitude bits := Nat.div_mul_le_self _ _
    rw [value, if_neg hsign]
    exact_mod_cast hle

/-- The integer part of a number is 0 when the number is below one. -/
theorem toU64_eq_zero_iff (hnan : isNan bits = false) :
    (toU64 bits).toNat = 0 ↔ value bits < one := by
  have hone : 0 < one := Nat.two_pow_pos _
  cases hsign : isNegative bits with
  | true =>
      rw [toU64, if_pos (.inr hsign), value, if_pos hsign]
      exact iff_of_true rfl (by omega)
  | false =>
      rw [toNat_toU64 hnan hsign, value, hsign, if_neg Bool.false_ne_true]
      have hdiv := Nat.div_eq_zero_iff (a := magnitude bits) (b := one)
      omega

end IntegerPart

end PlexSpaces.Lib.Binary64
