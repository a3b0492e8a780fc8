import Crossbook.Fixed.Exactness
import Crossbook.Venues.BinanceSbe

set_option autoImplicit false

namespace Crossbook

open Scientific

def exactMantissa (value : ℚ) (scale : Scale) : Option Int64 :=
  let scaled := value * 10 ^ scale.toNat
  if scaled.isInt ∧ Fits scaled.num then some (Int64.ofInt scaled.num) else none

theorem exactMantissa_eq_some (value : ℚ) (scale : Scale) (r : Int64) :
    exactMantissa value scale = some r ↔ (r.toInt : ℚ) = value * 10 ^ scale.toNat := by
  unfold exactMantissa
  dsimp only
  generalize value * 10 ^ scale.toNat = scaled
  constructor
  · intro found
    rw [Option.ite_none_right_eq_some, Option.some.injEq] at found
    obtain ⟨⟨whole, fits⟩, rfl⟩ := found
    rw [toInt_ofInt_of_fits fits]
    exact Rat.eq_num_of_isInt whole |>.symm
  · rintro rfl
    rw [if_pos ⟨by simp [Rat.isInt], by simpa using fits_toInt r⟩, Rat.num_intCast, Int64.ofInt_toInt]

namespace BinanceSbeDecoder

structure RescalesExactly (mantissa : Int64) (exponent : Int8) (scale : Scale) : Prop where
  exact (r : Int64) : rescale mantissa exponent scale = some r ↔
    (r.toInt : ℚ) = mantissa.toInt * (10 : ℚ) ^ (exponent.toInt + scale.toNat)
  parse (n : Numeral) : n.value = mantissa.toInt * (10 : ℚ) ^ exponent.toInt →
    rescale mantissa exponent scale = exactMantissa n.value scale

section Shifts

variable {mantissa r : Int64} {k : Nat}

theorem scaled_up_iff (m r : Int) (k : Nat) :
    (r : ℚ) = m * (10 : ℚ) ^ (k : Int) ↔ r = m * 10 ^ k := by
  rw [zpow_natCast]
  exact_mod_cast Iff.rfl

theorem scaled_down_iff (m r : Int) (k : Nat) :
    (r : ℚ) = m * (10 : ℚ) ^ (-k : Int) ↔ r * 10 ^ k = m := by
  have nonzero : (10 : ℚ) ^ k ≠ 0 := by positivity
  rw [zpow_neg, zpow_natCast, ← div_eq_mul_inv, eq_div_iff nonzero]
  exact_mod_cast Iff.rfl

theorem toInt_kPow10 (small : k ≤ 18) : (kPow10 k).toInt = 10 ^ k := by
  rw [kPow10, Int64.toInt_ofNat_of_lt (pow_le_max small)]
  push_cast
  rfl

theorem lt_mul_pow {m : Int} (positive : 0 < m) (large : 18 < k) : 2 ^ 63 < m * 10 ^ k := by
  -- A positive number times a power past the table's end is past every `Int64`.
  have power : (2 ^ 63 : Int) < 10 ^ k := by exact_mod_cast ten_pow_large large
  exact power.trans_le (le_mul_of_one_le_left (by positivity) positive)

theorem multiply_iff (nonneg : 0 ≤ mantissa.toInt) (small : k ≤ 18) :
    checkedMul mantissa (kPow10 k) = some r ↔ r.toInt = mantissa.toInt * 10 ^ k := by
  have power : (0 : Int) ≤ 10 ^ k := by positivity
  rw [checkedMul_eq_some _ _ _ nonneg (by rwa [toInt_kPow10 small]), toInt_kPow10 small]
  exact and_iff_right_of_imp fun value => value ▸ r.toInt_lt

theorem divide_iff (nonneg : 0 ≤ mantissa.toInt) (small : k ≤ 18) :
    (if mantissa % kPow10 k ≠ 0 then none else some (mantissa / kPow10 k)) = some r ↔
      r.toInt * 10 ^ k = mantissa.toInt := by
  have power : (0 : Int) < 10 ^ k := by positivity
  have divisor := toInt_kPow10 small
  have quotient := toInt_div_of_pos mantissa (kPow10 k) (by rwa [divisor])
  rw [divisor, Int.tdiv_eq_ediv_of_nonneg nonneg] at quotient
  have whole : mantissa % kPow10 k = 0 ↔ (10 : Int) ^ k ∣ mantissa.toInt := by
    rw [← Int64.toInt_inj, Int64.toInt_mod, divisor, Int64.toInt_zero, Int.dvd_iff_tmod_eq_zero]
  rw [Option.ite_none_left_eq_some, not_not, whole, Option.some.injEq, ← Int64.toInt_inj, quotient]
  constructor
  · rintro ⟨divides, value⟩
    rw [← value, Int.ediv_mul_cancel divides]
  · intro value
    refine ⟨⟨r.toInt, by rw [← value, mul_comm]⟩, ?_⟩
    rw [← value, Int.mul_ediv_cancel _ power.ne']

theorem no_large_multiple (nonneg : 0 ≤ mantissa.toInt) (large : 18 < k)
    (value : r.toInt = mantissa.toInt * 10 ^ k) : mantissa = 0 := by
  have high := r.toInt_lt
  rcases nonneg.eq_or_lt with zero | positive
  · exact Int64.toInt_inj.mp (by simpa using zero.symm)
  · have := lt_mul_pow positive large
    omega

theorem no_large_divisor (nonneg : 0 ≤ mantissa.toInt) (large : 18 < k)
    (value : r.toInt * 10 ^ k = mantissa.toInt) : r = 0 ∧ mantissa = 0 := by
  have high := mantissa.toInt_lt
  have power : (0 : Int) < 10 ^ k := by positivity
  have zero : r.toInt = 0 := by
    have bounded : 0 ≤ r.toInt := by
      by_contra negative
      have := mul_neg_of_neg_of_pos (not_le.mp negative) power
      omega
    rcases bounded.eq_or_lt with zero | positive
    · exact zero.symm
    · have := lt_mul_pow positive large
      omega
  rw [zero, zero_mul] at value
  exact ⟨Int64.toInt_inj.mp (by simpa using zero), Int64.toInt_inj.mp (by simpa using value.symm)⟩

end Shifts

/-- The inputs that reach the refusal of a zero. -/
def ZeroPastTable (mantissa : Int64) (exponent : Int8) (scale : Scale) : Prop :=
  mantissa = 0 ∧ 18 < exponent.toInt + scale.toNat

section Exactness

variable (mantissa : Int64) (exponent : Int8) (scale : Scale)

theorem rescale_eq_some (nonneg : 0 ≤ mantissa.toInt) (r : Int64) :
    rescale mantissa exponent scale = some r ↔
      (r.toInt : ℚ) = mantissa.toInt * (10 : ℚ) ^ (exponent.toInt + scale.toNat) ∧
        ¬ ZeroPastTable mantissa exponent scale := by
  have table : (kMaxScale.toNat : Int) = 18 := rfl
  unfold rescale ZeroPastTable
  dsimp only
  rw [table, add_comm (scale.toNat : Int)]
  generalize exponent.toInt + (scale.toNat : Int) = shift
  rcases lt_trichotomy shift 0 with below | rfl | above
  · obtain ⟨k, size⟩ := Int.eq_ofNat_of_zero_le (by omega : 0 ≤ -shift)
    obtain rfl : shift = -k := by omega
    rw [if_neg (by omega), if_neg (by omega), scaled_down_iff, neg_neg, Int.toNat_natCast,
      and_iff_left (by omega)]
    split
    next large =>
      constructor
      · intro found
        obtain ⟨rfl, same⟩ := Option.ite_none_right_eq_some.mp found
        rw [← Option.some.inj same]
        simp
      · intro value
        obtain ⟨rfl, rfl⟩ := no_large_divisor nonneg (by omega) value
        rfl
    next small => exact divide_iff nonneg (by omega)
  · simp [Int64.toInt_inj, eq_comm]
  · obtain ⟨k, rfl⟩ := Int.eq_ofNat_of_zero_le above.le
    rw [if_neg (by omega), if_pos above, scaled_up_iff, Int.toNat_natCast]
    split
    next large =>
      refine iff_of_false nofun fun ⟨value, regular⟩ => regular ⟨?_, large⟩
      exact no_large_multiple nonneg (by omega) value
    next small => rw [multiply_iff nonneg (by omega), and_iff_left fun past => small past.2]

theorem rescale_exact_iff (nonneg : 0 ≤ mantissa.toInt) :
    RescalesExactly mantissa exponent scale ↔ ¬ ZeroPastTable mantissa exponent scale := by
  constructor
  · rintro rescales ⟨rfl, past⟩
    have found := (rescales.exact 0).mpr (by simp)
    exact ((rescale_eq_some 0 exponent scale nonneg 0).mp found).2 ⟨rfl, past⟩
  · intro regular
    have exact (r : Int64) := (rescale_eq_some mantissa exponent scale nonneg r).trans
      (and_iff_left regular)
    refine ⟨exact, fun n same => Option.ext fun r => ?_⟩
    have power : (10 : ℚ) ^ (exponent.toInt + scale.toNat) =
        10 ^ exponent.toInt * 10 ^ scale.toNat := by
      rw [zpow_add₀ (by norm_num), zpow_natCast]
    rw [exact r, exactMantissa_eq_some, same, power, mul_assoc]

theorem rescale_exact_iff_price :
    RescalesExactly 6912345000000 (-8) 2 ↔ ¬ ZeroPastTable 6912345000000 (-8) 2 :=
  rescale_exact_iff 6912345000000 (-8) 2 (by decide)

theorem zero_refused_past_table :
    ¬ (∀ (mantissa : Int64) (exponent : Int8) (scale : Scale), 0 ≤ mantissa.toInt → scale ≤ 18 →
      RescalesExactly mantissa exponent scale) := by
  intro claimed
  have found := ((claimed 0 11 8 (by decide) (by decide)).exact 0).mpr (by simp)
  exact absurd found (by decide)

end Exactness

end BinanceSbeDecoder

end Crossbook
