import Crossbook.Consolidated.Book

set_option autoImplicit false

namespace Crossbook

/-- The price with the taker fee over the integers: buys pay it on top, sells receive less. -/
def adjustedPrice (side : Side) (price taker : Int) : Int :=
  match side with
  | .ask => price + awayFromZero (price * taker) 1000000
  | .bid => price - awayFromZero (price * taker) 1000000

/-- Where `applyTakerFee` answers: the product and the adjusted price both stay in range. -/
structure FeeFits (side : Side) (price taker : Int64) : Prop where
  product : MulFits price taker
  adjusted : Fits (adjustedPrice side price.toInt taker.toInt)

instance (side : Side) (price taker : Int64) : Decidable (FeeFits side price taker) :=
  decidable_of_iff (MulFits price taker ∧ Fits (adjustedPrice side price.toInt taker.toInt))
    ⟨fun parts => ⟨parts.1, parts.2⟩, fun fits => ⟨fits.product, fits.adjusted⟩⟩

theorem natAbs_awayFromZero_le (num : Int) (d : Nat) (positive : 0 < d) :
    (awayFromZero num d).natAbs ≤ num.natAbs := by
  rcases Nat.eq_zero_or_pos num.natAbs with zero | above
  · simp [awayFromZero, Int.natAbs_eq_zero.mp zero]
  · have rounded : (num.natAbs + d - 1) / d ≤ num.natAbs := by
      apply Nat.div_le_of_le_mul
      obtain ⟨n, size⟩ := Nat.exists_eq_succ_of_ne_zero above.ne'
      obtain ⟨k, rfl⟩ := Nat.exists_eq_succ_of_ne_zero positive.ne'
      have expanded : (k + 1) * (n + 1) = k * n + k + n + 1 := by ring
      rw [size, Nat.succ_eq_add_one, Nat.succ_eq_add_one, expanded]
      omega
    have signs : (num.sign * (d : Int).sign).natAbs ≤ 1 := by
      rw [Int.natAbs_mul, Int.natAbs_sign, Int.natAbs_sign]
      split <;> split <;> simp
    calc (awayFromZero num d).natAbs
        = (num.sign * (d : Int).sign).natAbs * ((num.natAbs + d - 1) / d) := by
          rw [awayFromZero, Int.natAbs_mul, Int.natAbs_natCast, Int.natAbs_natCast]
      _ ≤ 1 * num.natAbs := Nat.mul_le_mul signs rounded
      _ = num.natAbs := Nat.one_mul _

theorem applyTakerFee_eq_some (price : Int64) (side : Side) (fees : FeeSchedule) (out : Int64) :
    applyTakerFee price side fees = some out ↔
      FeeFits side price fees.taker ∧
        out.toInt = adjustedPrice side price.toInt fees.taker.toInt := by
  have million : (1000000 : Int64).toInt = 1000000 := by decide
  have adjustment (product : Int64) :
      (divAwayFromZero product 1000000).toInt = awayFromZero product.toInt 1000000 := by
    rw [toInt_divAwayFromZero (.of_pos (by decide)), million]
  have mirrored (product : Int64) (fits : product.toInt.natAbs < 2 ^ 63) :
      (-divAwayFromZero product 1000000).toInt = -awayFromZero product.toInt 1000000 := by
    -- The rounded fee is no larger than its product, so its negation cannot wrap.
    have small := natAbs_awayFromZero_le product.toInt 1000000 (by decide)
    have value := adjustment product
    push_cast at small
    rw [MachineInt.toInt_neg_of_ne _ (by omega), value]
  unfold applyTakerFee
  rw [Option.bind_eq_some_iff]
  constructor
  · rintro ⟨product, computed, added⟩
    obtain ⟨fits, value⟩ := (checkedMulSigned_eq_some _ _ _).mp computed
    have bound := fits.product
    cases side with
    | ask =>
      obtain ⟨inside, result⟩ := (checkedAddSigned_eq_some _ _ _).mp added
      rw [adjustment, value] at inside result
      exact ⟨⟨fits, inside⟩, result⟩
    | bid =>
      obtain ⟨inside, result⟩ := (checkedAddSigned_eq_some _ _ _).mp added
      rw [mirrored product (by rwa [value]), value, ← sub_eq_add_neg] at inside result
      exact ⟨⟨fits, inside⟩, result⟩
  · rintro ⟨fits, result⟩
    have bound := fits.product.product
    have value : (Int64.ofInt (price.toInt * fees.taker.toInt)).toInt =
        price.toInt * fees.taker.toInt := toInt_ofInt_of_fits ⟨by omega, by omega⟩
    refine ⟨Int64.ofInt (price.toInt * fees.taker.toInt),
      (checkedMulSigned_eq_some _ _ _).mpr ⟨fits.product, value⟩, ?_⟩
    have inside := fits.adjusted
    cases side with
    | ask =>
      apply (checkedAddSigned_eq_some _ _ _).mpr
      rw [adjustment, value]
      exact ⟨inside, result⟩
    | bid =>
      apply (checkedAddSigned_eq_some _ _ _).mpr
      rw [mirrored _ (by rwa [value]), value, ← sub_eq_add_neg]
      exact ⟨inside, result⟩

end Crossbook
