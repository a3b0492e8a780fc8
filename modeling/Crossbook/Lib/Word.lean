import Mathlib

set_option autoImplicit false

namespace Word

theorem toNat_one_shiftLeft {shift : UInt64} (small : shift.toNat < 64) :
    ((1 : UInt64) <<< shift).toNat = 2 ^ shift.toNat := by
  have below : 2 ^ shift.toNat < 2 ^ 64 := Nat.pow_lt_pow_right (by norm_num) small
  rw [UInt64.toNat_shiftLeft, Nat.mod_eq_of_lt small, Nat.shiftLeft_eq, Nat.mod_eq_of_lt]
  · simp
  · simpa using below

theorem log2_or (left right : Nat) : (left ||| right).log2 = max left.log2 right.log2 := by
  by_cases leftZero : left = 0
  · simp [leftZero]
  by_cases rightZero : right = 0
  · simp [rightZero]
  have nonzero : left ||| right ≠ 0 := by
    have le : left ≤ left ||| right := Nat.left_le_or
    omega
  rw [Nat.log2_eq_iff nonzero]
  constructor
  · obtain larger | larger := le_total left.log2 right.log2
    · rw [max_eq_right larger]
      exact (Nat.log2_self_le rightZero).trans Nat.right_le_or
    · rw [max_eq_left larger]
      exact (Nat.log2_self_le leftZero).trans Nat.left_le_or
  · apply Nat.or_lt_two_pow
    · exact Nat.lt_log2_self.trans_le (Nat.pow_le_pow_right (by norm_num) (by omega))
    · exact Nat.lt_log2_self.trans_le (Nat.pow_le_pow_right (by norm_num) (by omega))

theorem log2_ones {magnitude : Nat} (positive : 1 ≤ magnitude) :
    (2 ^ magnitude - 1).log2 = magnitude - 1 := by
  obtain ⟨half, rfl⟩ := Nat.exists_eq_add_of_le' positive
  have nonzero : 0 < 2 ^ half := Nat.two_pow_pos half
  have double : 2 ^ (half + 1) = 2 ^ half + 2 ^ half := by rw [Nat.pow_succ]; omega
  rw [Nat.log2_eq_iff (by omega), Nat.add_sub_cancel]
  omega

theorem toNat_add_one {value : UInt64} (room : value.toNat + 1 < 2 ^ 64) :
    (value + 1).toNat = value.toNat + 1 := by
  rw [UInt64.toNat_add]
  exact Nat.mod_eq_of_lt room

theorem toNat_min (a b : UInt64) : (min a b).toNat = min a.toNat b.toNat := by
  change (if a ≤ b then a else b).toNat = _
  split
  next le => exact (min_eq_left (UInt64.le_iff_toNat_le.mp le)).symm
  next gt => exact (min_eq_right (UInt64.lt_iff_toNat_lt.mp (UInt64.not_le.mp gt)).le).symm

theorem toNat_max (a b : UInt64) : (max a b).toNat = max a.toNat b.toNat := by
  change (if a ≤ b then b else a).toNat = _
  split
  next le => exact (max_eq_right (UInt64.le_iff_toNat_le.mp le)).symm
  next gt => exact (max_eq_left (UInt64.lt_iff_toNat_lt.mp (UInt64.not_le.mp gt)).le).symm

instance max_associative : Std.Associative (max : UInt64 → UInt64 → UInt64) where
  assoc a b c := by
    rw [← UInt64.toNat_inj]
    simp only [toNat_max, max_assoc]

theorem if_gt_eq_max (a b : UInt64) : (if b > a then b else a) = max a b := by
  rw [← UInt64.toNat_inj, toNat_max]
  split
  next gt => exact (max_eq_right (UInt64.lt_iff_toNat_lt.mp gt).le).symm
  next le => exact (max_eq_left (UInt64.le_iff_toNat_le.mp (UInt64.not_lt.mp le))).symm

theorem if_lt_eq_min (a b : UInt64) : (if b < a then b else a) = min a b := by
  rw [← UInt64.toNat_inj, toNat_min]
  split
  next lt => exact (min_eq_right (UInt64.lt_iff_toNat_lt.mp lt).le).symm
  next ge => exact (min_eq_left (UInt64.le_iff_toNat_le.mp (UInt64.not_lt.mp ge))).symm

theorem max_zero (a : UInt64) : max a 0 = a := by
  rw [← UInt64.toNat_inj, toNat_max]
  simp

theorem zero_max (a : UInt64) : max 0 a = a := by
  rw [← UInt64.toNat_inj, toNat_max]
  simp

theorem foldl_from_unit {α : Type} (op : α → α → α) [Std.Associative op] {unit : α}
    (rightUnit : ∀ a, op a unit = a) (start : α) (xs : List α) :
    xs.foldl op start = op start (xs.foldl op unit) := by
  calc
    xs.foldl op start = xs.foldl op (op start unit) := by rw [rightUnit]
    _ = op start (xs.foldl op unit) := List.foldl_assoc

end Word
