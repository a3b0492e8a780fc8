import Crossbook.Fixed.Reading

set_option autoImplicit false

namespace Crossbook

open Scientific

def scaled (digits : Nat) (shift : Int) : ℚ := digits * (10 : ℚ) ^ shift

def writtenShift (n : Numeral) (scale : Scale) : Int := scale.toNat + n.power

/-- What a shift does: the least `int` is its own negation and drops nothing. -/
def effective (shift : Int32) : Int := if shift.toInt = -2 ^ 31 then 0 else shift.toInt

def appliedShift (n : Numeral) (scale : Scale) : Int :=
  effective (Int32.ofInt (cutShift n scale))

/-- The exponent is past a thousand, or the fraction longer than an `int` counts. -/
def Cut (n : Numeral) (scale : Scale) : Prop := appliedShift n scale ≠ writtenShift n scale

def settle (digits : Nat) (shift : Int) : Except ParseError Nat :=
  if 0 ≤ shift then
    if 18 < shift ∨ 2 ^ 63 ≤ digits * 10 ^ shift.toNat then .error .overflow
    else .ok (digits * 10 ^ shift.toNat)
  else if 10 ^ (-shift).toNat ∣ digits then .ok (digits / 10 ^ (-shift).toNat)
  else .error .precisionLoss

def settledAs : Except ParseError Nat → ParseResult
  | .ok mantissa => ⟨Int64.ofNat mantissa, .ok⟩
  | .error error => ⟨0, error⟩

section Shift

variable {digits : Nat} {shift : Int}

theorem pow_le_max {exponent : Nat} (small : exponent ≤ 18) : 10 ^ exponent < 2 ^ 63 := by
  have bound : 10 ^ exponent ≤ 10 ^ 18 := Nat.pow_le_pow_right (by decide) small
  omega

theorem ten_pow_large {exponent : Nat} (large : 18 < exponent) : 2 ^ 63 < 10 ^ exponent := by
  have bound : 10 ^ 19 ≤ 10 ^ exponent := Nat.pow_le_pow_right (by decide) large
  omega

theorem dvd_of_pow_large {exponent : Nat} (large : 18 < exponent) (small : digits < 2 ^ 63)
    (divides : 10 ^ exponent ∣ digits) : digits = 0 :=
  Nat.eq_zero_of_dvd_of_lt divides (small.trans (ten_pow_large large))

theorem scaleUp {exponent : Nat} (small : digits < 2 ^ 63) (bounded : exponent ≤ 18) :
    checkedMul (Int64.ofNat digits) (kPow10 exponent) =
      if 2 ^ 63 ≤ digits * 10 ^ exponent then none
      else some (Int64.ofNat (digits * 10 ^ exponent)) := by
  have left := Int64.toInt_ofNat_of_lt small
  have right : (kPow10 exponent).toInt = (10 ^ exponent : Nat) :=
    Int64.toInt_ofNat_of_lt (pow_le_max bounded)
  have product (out : Int64) := checkedMul_eq_some (Int64.ofNat digits) (kPow10 exponent) out
    (left ▸ Int.natCast_nonneg _) (right ▸ Int.natCast_nonneg _)
  rw [left, right, ← Nat.cast_mul] at product
  split
  next large =>
    rw [Option.eq_none_iff_forall_ne_some]
    intro out found
    have fits := ((product out).mp found).1
    omega
  next fits => exact (product _).mpr ⟨by omega, Int64.toInt_ofNat_of_lt (by omega)⟩

theorem ofNat_eq_zero (small : digits < 2 ^ 63) : Int64.ofNat digits = 0 ↔ digits = 0 := by
  rw [← Int64.toInt_inj, Int64.toInt_ofNat_of_lt small, Int64.toInt_zero]
  omega

theorem scaleDown (exponent : Nat) (small : digits < 2 ^ 63) (bounded : exponent ≤ 18) :
    (if Int64.ofNat digits % kPow10 exponent ≠ 0 then ParseResult.mk 0 .precisionLoss
      else ⟨Int64.ofNat digits / kPow10 exponent, .ok⟩) =
      settledAs (if 10 ^ exponent ∣ digits then .ok (digits / 10 ^ exponent)
        else .error .precisionLoss) := by
  have bound := pow_le_max bounded
  have rest : digits % 10 ^ exponent < 2 ^ 63 :=
    (Nat.mod_lt _ (by positivity)).trans bound
  have whole : Int64.ofNat (digits % 10 ^ exponent) = 0 ↔ 10 ^ exponent ∣ digits := by
    rw [ofNat_eq_zero rest, Nat.dvd_iff_mod_eq_zero]
  rw [kPow10, ← Int64.ofNat_mod small bound, ← Int64.ofNat_div small bound]
  by_cases divides : 10 ^ exponent ∣ digits
  · rw [if_neg (not_not.mpr (whole.mpr divides)), if_pos divides]
    rfl
  · rw [if_pos (whole.not.mpr divides), if_neg divides]
    rfl

theorem past_maxScale (shift : Int32) : kMaxScale.toUInt32.toInt32 < shift ↔ 18 < shift.toInt := by
  have limit : (kMaxScale.toUInt32.toInt32).toInt = 18 := by decide
  rw [Int32.lt_iff_toInt_lt, limit]

theorem settle_zero (small : digits < 2 ^ 63) : settle digits 0 = .ok digits := by
  have fits : ¬ (18 < (0 : Int) ∨ 2 ^ 63 ≤ digits * 10 ^ (0 : Int).toNat) := by
    rw [Int.toNat_zero, pow_zero, mul_one]
    omega
  rw [settle, if_pos le_rfl, if_neg fits, Int.toNat_zero, pow_zero, mul_one]

theorem shiftMantissa_up (small : digits < 2 ^ 63) (shift : Int32) (above : 0 < shift.toInt) :
    shiftMantissa (Int64.ofNat digits) shift = settledAs (settle digits shift.toInt) := by
  have positive : 0 < shift := Int32.lt_iff_toInt_lt.mpr above
  rw [shiftMantissa, if_pos positive, settle, if_pos above.le]
  by_cases far : 18 < shift.toInt
  · rw [if_pos ((past_maxScale shift).mpr far), if_pos (.inl far)]
    rfl
  · rw [if_neg ((past_maxScale shift).not.mpr far), scaleUp small (by omega)]
    by_cases large : 2 ^ 63 ≤ digits * 10 ^ shift.toInt.toNat
    · rw [if_pos large, if_pos (.inr large)]
      rfl
    · rw [if_neg large, if_neg (not_or.mpr ⟨far, large⟩)]
      rfl

theorem shiftMantissa_down (small : digits < 2 ^ 63) (shift : Int32) (below : shift.toInt < 0)
    (movable : shift.toInt ≠ -2 ^ 31) :
    shiftMantissa (Int64.ofNat digits) shift = settledAs (settle digits shift.toInt) := by
  have notPositive : ¬ 0 < shift := by
    rw [Int32.lt_iff_toInt_lt]
    exact not_lt.mpr below.le
  have negative : shift < 0 := Int32.lt_iff_toInt_lt.mpr below
  have low := shift.le_toInt
  have drop : (-shift).toInt = -shift.toInt := by
    rw [Int32.toInt_neg]
    exact Int.bmod_eq_of_le (by omega) (by omega)
  have past := past_maxScale (-shift)
  rw [drop] at past
  rw [shiftMantissa, if_neg notPositive, if_pos negative, settle, if_neg (not_le.mpr below)]
  dsimp only
  rw [drop]
  by_cases deep : 18 < -shift.toInt
  · rw [if_pos (past.mpr deep)]
    by_cases zero : digits = 0
    · rw [if_pos ((ofNat_eq_zero small).mpr zero), zero, if_pos (dvd_zero _), Nat.zero_div]
      rfl
    · have indivisible : ¬ 10 ^ (-shift.toInt).toNat ∣ digits :=
        fun divides => zero (dvd_of_pow_large (by omega) small divides)
      rw [if_neg ((ofNat_eq_zero small).not.mpr zero), if_neg indivisible]
      rfl
  · rw [if_neg (past.not.mpr deep)]
    exact scaleDown _ small (by omega)

theorem shiftMantissa_settle (small : digits < 2 ^ 63) (shift : Int32) :
    shiftMantissa (Int64.ofNat digits) shift = settledAs (settle digits (effective shift)) := by
  rcases lt_trichotomy shift.toInt 0 with below | level | above
  · by_cases edge : shift.toInt = -2 ^ 31
    · -- The negation wraps back to the least `int`, whose table index is zero.
      have least : shift = Int32.minValue := Int32.toInt_inj.mp edge
      have one := scaleDown 0 small (by decide)
      rw [pow_zero, if_pos (one_dvd _), Nat.div_one] at one
      rw [effective, if_pos edge, settle_zero small, least]
      exact one
    · rw [effective, if_neg edge]
      exact shiftMantissa_down small shift below edge
  · have none : shift = 0 := Int32.toInt_inj.mp level
    rw [none, effective, if_neg (by decide), Int32.toInt_zero, settle_zero small]
    rfl
  · rw [effective, if_neg (by omega)]
    exact shiftMantissa_up small shift above

end Shift

section Scaled

variable {digits : Nat} {shift : Int}

theorem scaled_up (up : 0 ≤ shift) : scaled digits shift = (digits * 10 ^ shift.toNat : Nat) := by
  obtain ⟨k, rfl⟩ := Int.eq_ofNat_of_zero_le up
  simp [scaled]

theorem scaled_down (down : shift < 0) :
    scaled digits shift = digits / (10 ^ (-shift).toNat : Nat) := by
  obtain ⟨k, rfl⟩ : ∃ k : Nat, shift = -k := ⟨(-shift).toNat, by omega⟩
  simp [scaled, div_eq_mul_inv]

theorem scaled_integer_iff (down : shift < 0) :
    (∃ k : Int, scaled digits shift = k) ↔ 10 ^ (-shift).toNat ∣ digits := by
  have nonzero : ((10 ^ (-shift).toNat : Nat) : ℚ) ≠ 0 := by positivity
  rw [scaled_down down]
  constructor
  · rintro ⟨k, value⟩
    rw [div_eq_iff nonzero] at value
    have whole : (digits : Int) = k * (10 ^ (-shift).toNat : Nat) := by exact_mod_cast value
    exact Int.natCast_dvd_natCast.mp ⟨k, by rw [whole, mul_comm]⟩
  · rintro ⟨k, rfl⟩
    refine ⟨k, ?_⟩
    rw [Nat.cast_mul, mul_div_cancel_left₀ _ nonzero]
    rfl

theorem settle_ok (small : digits < 2 ^ 63) {mantissa : Nat}
    (settled : settle digits shift = .ok mantissa) :
    mantissa < 2 ^ 63 ∧ (mantissa : ℚ) = scaled digits shift := by
  unfold settle at settled
  split at settled
  next up =>
    split at settled
    next => simp at settled
    next fits =>
      obtain rfl := Except.ok.inj settled
      exact ⟨not_le.mp (not_or.mp fits).2, (scaled_up up).symm⟩
  next down =>
    split at settled
    next divides =>
      obtain rfl := Except.ok.inj settled
      refine ⟨(Nat.div_le_self _ _).trans_lt small, ?_⟩
      rw [scaled_down (not_le.mp down), Nat.cast_div divides (by positivity)]
    next => simp at settled

theorem settle_overflow (some_ : digits ≠ 0) (small : digits < 2 ^ 63) :
    settle digits shift = .error .overflow ↔ 2 ^ 63 ≤ scaled digits shift := by
  unfold settle
  split
  next up =>
    have far (large : 18 < shift) : 2 ^ 63 ≤ digits * 10 ^ shift.toNat :=
      (ten_pow_large (by omega)).le.trans (Nat.le_mul_of_pos_left _ (Nat.pos_of_ne_zero some_))
    rw [scaled_up up]
    have cast : (2 ^ 63 : ℚ) ≤ (digits * 10 ^ shift.toNat : Nat) ↔
        2 ^ 63 ≤ digits * 10 ^ shift.toNat := by exact_mod_cast Iff.rfl
    rw [cast]
    split
    next large => exact ⟨fun _ => large.elim far id, fun _ => rfl⟩
    next fits => exact ⟨nofun, fun large => absurd (.inr large) fits⟩
  next down =>
    have below : scaled digits shift < 2 ^ 63 := by
      rw [scaled_down (not_le.mp down)]
      have pow : (1 : ℚ) ≤ (10 ^ (-shift).toNat : Nat) := by
        exact_mod_cast Nat.one_le_pow _ _ (by decide)
      have bound : (digits : ℚ) < 2 ^ 63 := by exact_mod_cast small
      exact (div_le_self (by positivity) pow).trans_lt bound
    refine ⟨fun wrong => ?_, fun large => absurd large (not_le.mpr below)⟩
    split at wrong <;> simp at wrong

theorem settle_precisionLoss :
    settle digits shift = .error .precisionLoss ↔ ¬ ∃ k : Int, scaled digits shift = k := by
  unfold settle
  split
  next up =>
    refine ⟨fun wrong => ?_, fun fraction => absurd ⟨_, scaled_up up⟩ fraction⟩
    split at wrong <;> simp at wrong
  next down =>
    rw [scaled_integer_iff (not_le.mp down)]
    split <;> simp [*]

theorem settle_cases (digits : Nat) (shift : Int) : settle digits shift = .error .overflow ∨
    settle digits shift = .error .precisionLoss ∨
    ∃ mantissa, settle digits shift = .ok mantissa := by
  unfold settle
  split <;> split <;> simp

end Scaled

end Crossbook
