import Crossbook.Histogram.Sizing

set_option autoImplicit false

namespace Crossbook

namespace Layout

theorem countLeadingZeros_add_log2 {value : UInt64} (nonzero : value ≠ 0) :
    64 - countLeadingZeros value = value.toNat.log2 + 1 := by
  have short : value.toNat.log2 < 64 :=
    (Nat.log2_lt (fun zero => nonzero (UInt64.toNat_inj.mp zero))).mpr value.toNat_lt
  simp only [countLeadingZeros, if_neg nonzero]
  omega

variable {layout : Layout}

-- Oring in the mask makes every small value as long as the mask.
theorem Sized.toNat_bucketIndex (sized : layout.Sized) (value : UInt64) :
    (layout.bucketIndex value).toNat = value.toNat.log2 + 1 - layout.subBucketMagnitude.toNat := by
  have positive := sized.magnitude_pos
  have small := sized.magnitude_le
  have masked : (value ||| layout.subBucketMask).toNat.log2 =
      max value.toNat.log2 (layout.subBucketMagnitude.toNat - 1) := by
    rw [UInt64.toNat_or, sized.mask, Word.log2_or, Word.log2_ones positive]
  have nonzero : value ||| layout.subBucketMask ≠ 0 := by
    intro zero
    have whole := congrArg UInt64.toNat zero
    rw [UInt64.toNat_or, sized.mask] at whole
    have ones : 2 ^ layout.subBucketMagnitude.toNat - 1 ≤ 0 := by
      rw [← show _ = 0 from whole]
      exact Nat.right_le_or
    have two : 2 ^ 1 ≤ 2 ^ layout.subBucketMagnitude.toNat :=
      Nat.pow_le_pow_right (by norm_num) positive
    omega
  have short : value.toNat.log2 < 64 := by
    by_cases zero : value.toNat = 0
    · simp [zero]
    · exact (Nat.log2_lt zero).mpr value.toNat_lt
  have ceiling : (UInt64.ofNat (64 - countLeadingZeros (value ||| layout.subBucketMask))).toNat =
      max value.toNat.log2 (layout.subBucketMagnitude.toNat - 1) + 1 := by
    rw [countLeadingZeros_add_log2 nonzero, masked]
    exact UInt64.toNat_ofNat_of_lt' (by norm_num; omega)
  simp only [bucketIndex]
  rw [UInt64.toNat_sub_of_le _ _ (by rw [UInt64.le_iff_toNat_le, ceiling]; omega), ceiling]
  omega

def bucketOf (layout : Layout) (value : UInt64) : Nat :=
  value.toNat.log2 + 1 - layout.subBucketMagnitude.toNat

theorem sub_lt (layout : Layout) (value : UInt64) :
    value.toNat / 2 ^ layout.bucketOf value < 2 ^ layout.subBucketMagnitude.toNat := by
  rw [Nat.div_lt_iff_lt_mul (Nat.two_pow_pos _), ← Nat.pow_add]
  apply Nat.lt_log2_self.trans_le
  apply Nat.pow_le_pow_right (by norm_num)
  unfold bucketOf
  omega

theorem Sized.bucketOf_lt (sized : layout.Sized) (value : UInt64) : layout.bucketOf value < 64 := by
  have positive := sized.magnitude_pos
  unfold bucketOf
  by_cases zero : value.toNat = 0
  · simp [zero]
    omega
  · have short := (Nat.log2_lt zero).mpr value.toNat_lt
    omega

theorem Sized.halfCount_le (sized : layout.Sized) :
    2 ^ (layout.subBucketMagnitude.toNat - 1) ≤ 2 ^ 17 := by
  have small := sized.magnitude_le
  exact Nat.pow_le_pow_right (by norm_num) (by omega)

theorem Sized.count_eq_double (sized : layout.Sized) :
    2 ^ layout.subBucketMagnitude.toNat = 2 * 2 ^ (layout.subBucketMagnitude.toNat - 1) := by
  rw [← Nat.pow_succ', Nat.succ_eq_add_one, Nat.sub_add_cancel sized.magnitude_pos]

theorem Sized.indexFor_eq (sized : layout.Sized) (value : UInt64) :
    layout.indexFor value =
      layout.bucketOf value * 2 ^ (layout.subBucketMagnitude.toNat - 1) +
        value.toNat / 2 ^ layout.bucketOf value := by
  have small := sized.magnitude_le
  have halfLe := sized.halfCount_le
  have double := sized.count_eq_double
  have bucketLt := sized.bucketOf_lt value
  have subLt := layout.sub_lt value
  have bucket : (layout.bucketIndex value).toNat = layout.bucketOf value :=
    sized.toNat_bucketIndex value
  have scaled : (layout.bucketOf value + 1) * 2 ^ (layout.subBucketMagnitude.toNat - 1) ≤
      64 * 2 ^ 17 := Nat.mul_le_mul (by omega) halfLe
  have shift : (layout.subBucketMagnitude.toNat - 1) % 64 =
      layout.subBucketMagnitude.toNat - 1 := Nat.mod_eq_of_lt (by omega)
  have base : ((layout.bucketIndex value + 1) <<< layout.subBucketHalfMagnitude).toNat =
      (layout.bucketOf value + 1) * 2 ^ (layout.subBucketMagnitude.toNat - 1) := by
    rw [UInt64.toNat_shiftLeft, Word.toNat_add_one (by omega), bucket, sized.halfMagnitude,
      shift, Nat.shiftLeft_eq]
    exact Nat.mod_eq_of_lt (by omega)
  have sub : (subBucketIndex value (layout.bucketIndex value)).toNat =
      value.toNat / 2 ^ layout.bucketOf value := by
    rw [subBucketIndex, UInt64.toNat_shiftRight, bucket, Nat.mod_eq_of_lt bucketLt,
      Nat.shiftRight_eq_div_pow]
  rw [indexFor, UInt64.toNat_add, UInt64.toNat_sub, base, sub, sized.halfCount]
  rw [Nat.succ_mul] at scaled ⊢
  omega

theorem Sized.countsSize_eq (sized : layout.Sized) :
    layout.countsSize =
      (layout.bucketCount.toNat + 1) * 2 ^ (layout.subBucketMagnitude.toNat - 1) := by
  have few := sized.bucketCount_le
  have positive := sized.magnitude_pos
  have halfLe := sized.halfCount_le
  have scaled : (layout.bucketCount.toNat + 1) * 2 ^ (layout.subBucketMagnitude.toNat - 1) ≤
      64 * 2 ^ 17 := Nat.mul_le_mul (by omega) halfLe
  rw [countsSize, UInt64.toNat_mul, Word.toNat_add_one (by omega), sized.halfCount]
  exact Nat.mod_eq_of_lt (by omega)

theorem Sized.indexFor_lt (sized : layout.Sized) {value : UInt64}
    (within : value ≤ layout.highestTrackable) : layout.indexFor value < layout.countsSize := by
  have sub := layout.sub_lt value
  have double := sized.count_eq_double
  have bucket : layout.bucketOf value + 1 ≤ layout.bucketCount.toNat := by
    have some := sized.bucketCount_pos
    unfold bucketOf
    by_cases zero : value.toNat = 0
    · have positive := sized.magnitude_pos
      simp [zero]
      omega
    · have covered := (UInt64.le_iff_toNat_le.mp within).trans_lt sized.covers
      have short := (Nat.log2_lt zero).mpr covered
      omega
  rw [sized.indexFor_eq, sized.countsSize_eq]
  calc
    layout.bucketOf value * 2 ^ (layout.subBucketMagnitude.toNat - 1) +
          value.toNat / 2 ^ layout.bucketOf value
        < layout.bucketOf value * 2 ^ (layout.subBucketMagnitude.toNat - 1) +
          2 * 2 ^ (layout.subBucketMagnitude.toNat - 1) := by omega
    _ = (layout.bucketOf value + 2) * 2 ^ (layout.subBucketMagnitude.toNat - 1) := by ring
    _ ≤ (layout.bucketCount.toNat + 1) * 2 ^ (layout.subBucketMagnitude.toNat - 1) :=
        Nat.mul_le_mul_right _ (by omega)

theorem Sized.eq_of_bucketLayout {other : Layout} (sized : layout.Sized) (otherSized : other.Sized)
    (same : layout.bucketLayout = other.bucketLayout) : layout = other := by
  obtain ⟨magnitude, buckets, highest⟩ : layout.subBucketMagnitude = other.subBucketMagnitude ∧
      layout.bucketCount = other.bucketCount ∧
      layout.highestTrackable = other.highestTrackable := by
    simpa [bucketLayout] using same
  rw [Layout.ext_iff]
  refine ⟨highest, magnitude, ?_, ?_, ?_, ?_, buckets⟩
  · rw [← UInt64.toNat_inj, sized.halfMagnitude, otherSized.halfMagnitude, magnitude]
  · rw [← UInt64.toNat_inj, sized.count, otherSized.count, magnitude]
  · rw [← UInt64.toNat_inj, sized.halfCount, otherSized.halfCount, magnitude]
  · rw [← UInt64.toNat_inj, sized.mask, otherSized.mask, magnitude]

end Layout

end Crossbook
