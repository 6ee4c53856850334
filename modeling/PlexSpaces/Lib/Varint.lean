import Mathlib.Algebra.Order.Group.Nat
import Mathlib.Data.List.Basic
/-!
# Base-128 numbers

A number as bytes of seven bits, the lowest first; every byte but the last has
its high bit set.  `decode` reads such a number from the front of some bytes and
gives up after a number of bytes.  Decoding what was encoded gives the number back
(`decode_encode`), whatever bytes follow.
-/

namespace PlexSpaces.Lib.Varint

def continued (n : Nat) : UInt8 := UInt8.ofNat (n % 128 + 128)

def encode (n : Nat) : List UInt8 :=
  if n < 128 then [UInt8.ofNat n] else continued n :: encode (n / 128)
termination_by n

inductive Bad where
  | underflow
  | tooLong
  deriving DecidableEq

/-- The number in front and how many bytes it has, at most the given number. -/
def decode : Nat → List UInt8 → Except Bad (Nat × Nat)
  | 0, _ => .error .tooLong
  | _ + 1, [] => .error .underflow
  | more + 1, byte :: bytes =>
      if byte < 0x80 then .ok (byte.toNat, 1)
      else
        match decode more bytes with
        | .error bad => .error bad
        | .ok (n, size) => .ok (byte.toNat % 128 + 128 * n, size + 1)

theorem encode_of_lt {n : Nat} (h : n < 128) : encode n = [UInt8.ofNat n] := by
  rw [encode, if_pos h]

theorem encode_of_ge {n : Nat} (h : 128 ≤ n) : encode n = continued n :: encode (n / 128) := by
  rw [encode, if_neg (Nat.not_lt.mpr h)]

theorem toNat_ofNat {n : Nat} (h : n < 256) : (UInt8.ofNat n).toNat = n := by
  rw [UInt8.toNat_ofNat']
  exact Nat.mod_eq_of_lt h

theorem toNat_continued (n : Nat) : (continued n).toNat = n % 128 + 128 :=
  toNat_ofNat (by omega)

theorem encode_ne_nil (n : Nat) : encode n ≠ [] := by
  rw [encode]
  split_ifs <;> exact List.cons_ne_nil _ _

theorem length_encode_pos (n : Nat) : 0 < (encode n).length :=
  List.length_pos_iff.mpr (encode_ne_nil n)

theorem length_encode_le {n k : Nat} (h : n < 128 ^ (k + 1)) : (encode n).length ≤ k + 1 := by
  induction k generalizing n with
  | zero => rw [encode_of_lt (by simpa using h)]; exact le_rfl
  | succ k ih =>
      by_cases hn : n < 128
      · rw [encode_of_lt hn]
        exact Nat.succ_le_succ (Nat.zero_le _)
      · rw [encode_of_ge (Nat.not_lt.mp hn), List.length_cons]
        have hdiv : n / 128 < 128 ^ (k + 1) := by
          rw [Nat.div_lt_iff_lt_mul (by decide), ← pow_succ]
          exact h
        exact Nat.succ_le_succ (ih hdiv)

theorem decode_encode {k n : Nat} (h : (encode n).length ≤ k) (rest : List UInt8) :
    decode k (encode n ++ rest) = .ok (n, (encode n).length) := by
  induction k generalizing n with
  | zero => exact absurd (length_encode_pos n) (Nat.not_lt.mpr h)
  | succ k ih =>
      by_cases hn : n < 128
      · rw [encode_of_lt hn, List.singleton_append, decode, if_pos]
        · rw [toNat_ofNat (by omega)]
          rfl
        · rw [UInt8.lt_iff_toNat_lt, toNat_ofNat (by omega)]
          exact hn
      · rw [encode_of_ge (Nat.not_lt.mp hn), List.length_cons] at h ⊢
        have hrest := ih (Nat.le_of_succ_le_succ h)
        rw [List.cons_append, decode, hrest, if_neg]
        · dsimp only
          rw [toNat_continued, Nat.add_mod_right, Nat.mod_mod, Nat.mod_add_div]
        · rw [UInt8.lt_iff_toNat_lt, toNat_continued]
          exact Nat.not_lt.mpr (Nat.le_add_left 128 _)

theorem encode_injective : Function.Injective encode := by
  intro n n' h
  have hn := decode_encode (k := (encode n).length) le_rfl []
  have hn' := decode_encode (k := (encode n').length) le_rfl []
  rw [← h, hn] at hn'
  exact (Prod.mk.inj (Except.ok.inj hn')).1

theorem decode_append {k : Nat} {bytes : List UInt8} {r : Nat × Nat} (h : decode k bytes = .ok r)
    (rest : List UInt8) : decode k (bytes ++ rest) = .ok r := by
  induction k generalizing bytes r with
  | zero => cases h
  | succ k ih =>
      cases bytes with
      | nil => cases h
      | cons byte bytes =>
          rw [decode] at h
          rw [List.cons_append, decode]
          split_ifs at h ⊢
          · exact h
          · cases hmore : decode k bytes with
            | error bad =>
                rw [hmore] at h
                cases h
            | ok more =>
                rw [hmore] at h
                rw [ih hmore]
                exact h

theorem decode_size {k n size : Nat} {bytes : List UInt8} (h : decode k bytes = .ok (n, size)) :
    0 < size ∧ size ≤ bytes.length ∧ size ≤ k := by
  induction k generalizing bytes n size with
  | zero => cases h
  | succ k ih =>
      cases bytes with
      | nil => cases h
      | cons byte bytes =>
          rw [decode] at h
          split_ifs at h
          · cases h
            exact ⟨Nat.one_pos, Nat.succ_le_succ (Nat.zero_le _), Nat.succ_le_succ (Nat.zero_le _)⟩
          · cases hmore : decode k bytes with
            | error bad =>
                rw [hmore] at h
                cases h
            | ok more =>
                rw [hmore] at h
                cases h
                obtain ⟨-, hbytes, hk⟩ := ih hmore
                exact ⟨Nat.succ_pos _, Nat.succ_le_succ hbytes, Nat.succ_le_succ hk⟩

end PlexSpaces.Lib.Varint
