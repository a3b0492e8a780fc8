import Mathlib

set_option autoImplicit false

namespace Packed

theorem toNat_lifted (byte : UInt8) (shift : UInt32) (inside : shift.toNat ≤ 24) :
    (byte.toUInt32 <<< shift).toNat = byte.toNat * 2 ^ shift.toNat := by
  have small := byte.toNat_lt
  have power : 2 ^ shift.toNat ≤ 2 ^ 24 := Nat.pow_le_pow_right (by decide) inside
  have bound : byte.toNat * 2 ^ shift.toNat < 2 ^ 32 :=
    calc byte.toNat * 2 ^ shift.toNat ≤ 255 * 2 ^ 24 := Nat.mul_le_mul (by omega) power
      _ < 2 ^ 32 := by decide
  rw [UInt32.toNat_shiftLeft, UInt8.toNat_toUInt32, Nat.mod_eq_of_lt (by omega : shift.toNat < 32),
    Nat.shiftLeft_eq, Nat.mod_eq_of_lt bound]

theorem toNat_or (high low : UInt32) (k : Nat) (above : 2 ^ k ∣ high.toNat)
    (below : low.toNat < 2 ^ k) : (high ||| low).toNat = high.toNat + low.toNat := by
  obtain ⟨part, whole⟩ := above
  rw [UInt32.toNat_or, whole, ← Nat.two_pow_add_eq_or_of_lt below]

theorem toNat_pack (b0 b1 b2 b3 : UInt8) :
    (b0.toUInt32 <<< 24 ||| b1.toUInt32 <<< 16 ||| b2.toUInt32 <<< 8 ||| b3.toUInt32).toNat =
      ((b0.toNat * 256 + b1.toNat) * 256 + b2.toNat) * 256 + b3.toNat := by
  have top := toNat_lifted b0 24 (by decide)
  have upper := toNat_lifted b1 16 (by decide)
  have lower := toNat_lifted b2 8 (by decide)
  have last : b3.toUInt32.toNat = b3.toNat := UInt8.toNat_toUInt32 b3
  have small0 := b0.toNat_lt
  have small1 := b1.toNat_lt
  have small2 := b2.toNat_lt
  have small3 := b3.toNat_lt
  simp only [UInt32.reduceToNat, Nat.reducePow] at top upper lower
  have first := toNat_or (b0.toUInt32 <<< 24) (b1.toUInt32 <<< 16) 24 (by omega) (by omega)
  have second := toNat_or (b0.toUInt32 <<< 24 ||| b1.toUInt32 <<< 16) (b2.toUInt32 <<< 8) 16
    (by omega) (by omega)
  have third := toNat_or (b0.toUInt32 <<< 24 ||| b1.toUInt32 <<< 16 ||| b2.toUInt32 <<< 8)
    b3.toUInt32 8 (by omega) (by omega)
  omega

theorem toNat_field (word shift mask : UInt32) (width : Nat) (inside : shift.toNat < 32)
    (ones : mask.toNat = 2 ^ width - 1) :
    ((word >>> shift) &&& mask).toNat = word.toNat / 2 ^ shift.toNat % 2 ^ width := by
  rw [UInt32.toNat_and, UInt32.toNat_shiftRight, Nat.mod_eq_of_lt inside, ones,
    Nat.and_two_pow_sub_one_eq_mod, Nat.shiftRight_eq_div_pow]

end Packed
