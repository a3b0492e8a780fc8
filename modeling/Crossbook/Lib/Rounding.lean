import Mathlib

set_option autoImplicit false

namespace Rounding

variable {num den x : ℤ}

theorem ceil_div_le (positive : 0 < den) : ⌈(num : ℚ) / den⌉ ≤ x ↔ num ≤ x * den := by
  rw [Int.ceil_le, div_le_iff₀ (by exact_mod_cast positive)]
  exact_mod_cast Iff.rfl

theorem lt_ceil_div (positive : 0 < den) : x < ⌈(num : ℚ) / den⌉ ↔ x * den < num := by
  rw [← not_le, ceil_div_le positive, not_le]

theorem le_ceil_div (positive : 0 < den) (below : x * den ≤ num) : x ≤ ⌈(num : ℚ) / den⌉ := by
  apply Int.le_of_sub_one_lt
  rw [lt_ceil_div positive]
  linarith

theorem le_floor_div (positive : 0 < den) : x ≤ ⌊(num : ℚ) / den⌋ ↔ x * den ≤ num := by
  rw [Int.le_floor, le_div_iff₀ (by exact_mod_cast positive)]
  exact_mod_cast Iff.rfl

theorem ceil_div_neg (num den : ℤ) : ⌈((-num : ℤ) : ℚ) / den⌉ = -⌊(num : ℚ) / den⌋ := by
  rw [Int.cast_neg, neg_div, Int.ceil_neg]

theorem ceil_div_eq (positive : 0 < den) (below : (x - 1) * den < num) (above : num ≤ x * den) :
    ⌈(num : ℚ) / den⌉ = x :=
  le_antisymm ((ceil_div_le positive).mpr above)
    (Int.le_of_sub_one_lt ((lt_ceil_div positive).mpr below))

section Remainders

variable {q r : ℤ}

theorem ceil_div_of_pos_rem (positive : 0 < den) (whole : num = den * q + r)
    (small : r.natAbs < den.natAbs) : ⌈(num : ℚ) / den⌉ = if 0 < r then q + 1 else q := by
  split
  next more =>
    have inside : r < den := by omega
    apply ceil_div_eq positive <;> rw [whole] <;> linarith
  next less =>
    have inside : -den < r ∧ r ≤ 0 := by omega
    apply ceil_div_eq positive <;> rw [whole] <;> linarith [inside.1, inside.2]

theorem div_mirrored (num den : ℤ) : (num : ℚ) / den = ((-num : ℤ) : ℚ) / ((-den : ℤ) : ℚ) := by
  rw [Int.cast_neg, Int.cast_neg, neg_div_neg_eq]

theorem ceil_div_of_rem (nonzero : den ≠ 0) (whole : num = den * q + r)
    (small : r.natAbs < den.natAbs) :
    ⌈(num : ℚ) / den⌉ = if r ≠ 0 ∧ (r < 0 ↔ den < 0) then q + 1 else q := by
  rcases nonzero.lt_or_gt with negative | positive
  · have mirrored : -num = -den * q + -r := by linarith
    rw [div_mirrored, ceil_div_of_pos_rem (by omega) mirrored (by omega)]
    exact if_congr (by omega) rfl rfl
  · rw [ceil_div_of_pos_rem positive whole small]
    exact if_congr (by omega) rfl rfl

theorem floor_div_of_rem (nonzero : den ≠ 0) (whole : num = den * q + r)
    (small : r.natAbs < den.natAbs) :
    ⌊(num : ℚ) / den⌋ = if r ≠ 0 ∧ ¬ (r < 0 ↔ den < 0) then q - 1 else q := by
  have mirrored : -num = den * -q + -r := by linarith
  have raised := ceil_div_of_rem nonzero mirrored (by omega)
  rw [ceil_div_neg, neg_eq_iff_eq_neg] at raised
  rw [raised]
  split_ifs <;> omega

end Remainders

theorem ceil_div_mono {num' den' : ℤ} (positive : 0 < den) (positive' : 0 < den')
    (smaller : num * den' ≤ num' * den) : ⌈(num : ℚ) / den⌉ ≤ ⌈(num' : ℚ) / den'⌉ := by
  apply Int.ceil_mono
  rw [div_le_div_iff₀ (by exact_mod_cast positive) (by exact_mod_cast positive')]
  exact_mod_cast smaller

end Rounding
