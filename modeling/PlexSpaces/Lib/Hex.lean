import Mathlib.Algebra.Order.Group.Nat
import Mathlib.Data.Nat.Digits.Defs
/-!
# Hexadecimal digits

Bytes as pairs of lower-case digits and back, and numbers in a fixed number of digits.
-/

namespace PlexSpaces.Lib

def hexEncode (bytes : List UInt8) : List Char :=
  bytes.flatMap fun b => [Nat.digitChar (b.toNat / 16), Nat.digitChar (b.toNat % 16)]

/-- `char::to_digit(16)`. -/
def hexDigit? (c : Char) : Option Nat :=
  if '0' ≤ c ∧ c ≤ '9' then some (c.toNat - '0'.toNat)
  else if 'a' ≤ c ∧ c ≤ 'f' then some (c.toNat - 'a'.toNat + 10)
  else if 'A' ≤ c ∧ c ≤ 'F' then some (c.toNat - 'A'.toNat + 10)
  else none

/-- `u8::from_str_radix(.., 16)` of two characters, of which the first may be a sign. -/
def hexByte? (high low : Char) : Option UInt8 :=
  if high = '+' then (hexDigit? low).map UInt8.ofNat
  else (hexDigit? high).bind fun h => (hexDigit? low).map fun l => UInt8.ofNat (16 * h + l)

def hexDecode : List Char → Option (List UInt8)
  | [] => some []
  | [_] => none
  | high :: low :: digits =>
      (hexByte? high low).bind fun b => (hexDecode digits).map fun bytes => b :: bytes

/-- The last `width` digits of a number. -/
def fixedHex : Nat → Nat → List Char
  | 0, _ => []
  | width + 1, n => fixedHex width (n / 16) ++ [Nat.digitChar (n % 16)]

section Digits

variable {m n width : Nat}

theorem hexDigit?_digitChar : ∀ n < 16, hexDigit? (Nat.digitChar n) = some n := by
  decide

theorem digitChar_inj (hm : m < 16) (hn : n < 16) (h : Nat.digitChar m = Nat.digitChar n) :
    m = n := by
  have hdigit := hexDigit?_digitChar m hm
  rw [h, hexDigit?_digitChar n hn] at hdigit
  exact (Option.some.inj hdigit).symm

theorem digitChar_ne {c : Char} (hc : hexDigit? c = none) (hn : n < 16) :
    c ≠ Nat.digitChar n := by
  rintro rfl
  rw [hexDigit?_digitChar n hn] at hc
  cases hc

end Digits

section Bytes

theorem hexEncode_cons (b : UInt8) (bytes : List UInt8) :
    hexEncode (b :: bytes) =
      Nat.digitChar (b.toNat / 16) :: Nat.digitChar (b.toNat % 16) :: hexEncode bytes := rfl

theorem hexByte?_digits (b : UInt8) :
    hexByte? (Nat.digitChar (b.toNat / 16)) (Nat.digitChar (b.toNat % 16)) = some b := by
  have hlt := b.toNat_lt
  have hplus : ¬Nat.digitChar (b.toNat / 16) = '+' :=
    Ne.symm (digitChar_ne (by decide) (by omega))
  have hvalue : 16 * (b.toNat / 16) + b.toNat % 16 = b.toNat := Nat.div_add_mod _ _
  rw [hexByte?, if_neg hplus, hexDigit?_digitChar _ (by omega), hexDigit?_digitChar _ (by omega),
    Option.bind_some, Option.map_some, hvalue, UInt8.ofNat_toNat]

theorem hexDecode_hexEncode (bytes : List UInt8) : hexDecode (hexEncode bytes) = some bytes := by
  induction bytes with
  | nil => rfl
  | cons b bytes ih =>
      rw [hexEncode_cons, hexDecode, hexByte?_digits, ih]
      rfl

theorem hexEncode_inj {bytes bytes' : List UInt8} (h : hexEncode bytes = hexEncode bytes') :
    bytes = bytes' := by
  have hdecode := hexDecode_hexEncode bytes
  rw [h, hexDecode_hexEncode] at hdecode
  exact (Option.some.inj hdecode).symm

theorem notMem_hexEncode {c : Char} (hc : hexDigit? c = none) (bytes : List UInt8) :
    c ∉ hexEncode bytes := by
  intro hmem
  obtain ⟨b, -, hdigit⟩ := List.mem_flatMap.mp hmem
  have hlt := b.toNat_lt
  rcases List.mem_cons.mp hdigit with hhigh | hlow
  · exact digitChar_ne hc (by omega) hhigh
  · exact digitChar_ne hc (by omega) (List.mem_singleton.mp hlow)

end Bytes

section Fixed

theorem length_fixedHex (width n : Nat) : (fixedHex width n).length = width := by
  induction width generalizing n with
  | zero => rfl
  | succ width ih => rw [fixedHex, List.length_append, ih, List.length_singleton]

theorem fixedHex_inj {width m n : Nat} (hm : m < 16 ^ width) (hn : n < 16 ^ width)
    (h : fixedHex width m = fixedHex width n) : m = n := by
  induction width generalizing m n with
  | zero => omega
  | succ width ih =>
      rw [fixedHex, fixedHex] at h
      obtain ⟨hrest, hlast⟩ := List.append_inj' h rfl
      rw [Nat.pow_succ] at hm hn
      have hdiv : m / 16 = n / 16 := ih (by omega) (by omega) hrest
      have hmod : m % 16 = n % 16 :=
        digitChar_inj (by omega) (by omega) (List.singleton_inj.mp hlast)
      omega

end Fixed

end PlexSpaces.Lib
