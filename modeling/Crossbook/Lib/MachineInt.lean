import Mathlib

set_option autoImplicit false

namespace MachineInt

instance linearOrder : LinearOrder Int64 where
  toLE := inferInstance
  toLT := inferInstance
  toOrd := inferInstance
  le_refl := Int64.le_refl
  le_trans _ _ _ := Int64.le_trans
  le_antisymm _ _ := Int64.le_antisymm
  le_total := Int64.le_total
  lt_iff_le_not_ge a b := by grind
  toDecidableLE := inferInstance
  toDecidableEq := inferInstance
  toDecidableLT := inferInstance
  compare_eq_compareOfLessAndEq _ _ := rfl

theorem toNat_toUInt64 (x : Int64) : (x.toUInt64.toNat : Int) = x.toInt % 2 ^ 64 := by
  have bits : x.toUInt64.toNat = x.toBitVec.toNat := rfl
  have value : x.toInt = x.toBitVec.toInt := rfl
  have bound := x.toBitVec.isLt
  rw [bits, value, BitVec.toInt_eq_toNat_cond]
  split <;> omega

theorem toInt_toInt64 (x : UInt64) (small : x.toNat < 2 ^ 63) : x.toInt64.toInt = x.toNat := by
  have value : x.toInt64.toInt = x.toBitVec.toInt := rfl
  have bits : x.toNat = x.toBitVec.toNat := rfl
  rw [value, bits, BitVec.toInt_eq_toNat_cond, if_pos (by omega)]

theorem toInt_toInt64_mod (x : UInt64) : (x.toInt64.toInt - x.toNat) % 2 ^ 64 = 0 := by
  have value : x.toInt64.toInt = x.toBitVec.toInt := rfl
  have bits : x.toNat = x.toBitVec.toNat := rfl
  have bound := x.toBitVec.isLt
  rw [value, bits, BitVec.toInt_eq_toNat_cond]
  split <;> omega

theorem offset_eq_iff (base ticks : Int64) (width index : Nat) (inside : index < width)
    (fits : base.toInt + width ≤ 2 ^ 63) :
    (ticks.toUInt64 - base.toUInt64).toNat = index ↔ ticks.toInt = base.toInt + index := by
  have left := toNat_toUInt64 ticks
  have right := toNat_toUInt64 base
  have low := ticks.le_toInt
  have high := ticks.toInt_lt
  have baseLow := base.le_toInt
  rw [UInt64.toNat_sub]
  omega

theorem toInt_offset (base : Int64) (index : Nat) (fits : base.toInt + index < 2 ^ 63) :
    (base.toUInt64 + UInt64.ofNat index).toInt64.toInt = base.toInt + index := by
  have low := base.le_toInt
  have wrapped := toInt_toInt64_mod (base.toUInt64 + UInt64.ofNat index)
  have value := toNat_toUInt64 base
  have resultLow := (base.toUInt64 + UInt64.ofNat index).toInt64.le_toInt
  have resultHigh := (base.toUInt64 + UInt64.ofNat index).toInt64.toInt_lt
  rw [UInt64.toNat_add, UInt64.toNat_ofNat'] at wrapped
  omega

theorem toInt_add_of_fits (x y : Int64) (low : -2 ^ 63 ≤ x.toInt + y.toInt)
    (high : x.toInt + y.toInt < 2 ^ 63) : (x + y).toInt = x.toInt + y.toInt := by
  rw [Int64.toInt_add]
  exact Int.bmod_eq_of_le (by omega) (by omega)

theorem toInt_sub_of_fits (x y : Int64) (low : -2 ^ 63 ≤ x.toInt - y.toInt)
    (high : x.toInt - y.toInt < 2 ^ 63) : (x - y).toInt = x.toInt - y.toInt := by
  rw [Int64.toInt_sub]
  exact Int.bmod_eq_of_le (by omega) (by omega)

theorem toInt_mul_of_fits (x y : Int64) (low : -2 ^ 63 ≤ x.toInt * y.toInt)
    (high : x.toInt * y.toInt < 2 ^ 63) : (x * y).toInt = x.toInt * y.toInt := by
  rw [Int64.toInt_mul]
  exact Int.bmod_eq_of_le (by omega) (by omega)

theorem toInt_neg_of_ne (x : Int64) (movable : x.toInt ≠ -2 ^ 63) : (-x).toInt = -x.toInt := by
  have low := x.le_toInt
  have high := x.toInt_lt
  rw [Int64.toInt_neg]
  exact Int.bmod_eq_of_le (by omega) (by omega)

theorem toInt_sub_of_pos {x y : Int64} (before : x ≤ y) (apart : 0 < y - x) :
    (y - x).toInt = y.toInt - x.toInt := by
  -- A positive difference of ordered words is the exact one.
  rw [Int64.le_iff_toInt_le] at before
  rw [Int64.lt_iff_toInt_lt, Int64.toInt_zero] at apart
  have low := x.le_toInt
  have high := y.toInt_lt
  rw [Int64.toInt_sub, Int.bmod_def] at apart ⊢
  split at apart
  · omega
  · omega

theorem byte_forall {P : UInt8 → Prop} (each : ∀ value < 256, P (UInt8.ofNat value))
    (byte : UInt8) : P byte := by
  rw [← UInt8.ofNat_toNat (x := byte)]
  exact each byte.toNat byte.toNat_lt

theorem toNat_div_ten_lt {x : UInt64} (more : x / 10 ≠ 0) : (x / 10).toNat < x.toNat := by
  have positive : (x / 10).toNat ≠ 0 := fun zero => more (UInt64.toNat_inj.mp zero)
  rw [UInt64.toNat_div] at positive ⊢
  change x.toNat / 10 ≠ 0 at positive
  change x.toNat / 10 < x.toNat
  omega

end MachineInt
