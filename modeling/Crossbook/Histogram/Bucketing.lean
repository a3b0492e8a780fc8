import Crossbook.Histogram.Merge
import Crossbook.Lib.MachineInt
import Crossbook.Lib.OrderStatistic

set_option autoImplicit false

namespace Crossbook

namespace Layout

variable {layout : Layout}

theorem Sized.toNat_bucketWidth (sized : layout.Sized) (value : UInt64) :
    (layout.bucketWidth value).toNat = 2 ^ layout.bucketOf value := by
  have bucket := sized.toNat_bucketIndex value
  have short := sized.bucketOf_lt value
  have index : (layout.bucketIndex value).toNat = layout.bucketOf value := bucket
  rw [bucketWidth, Word.toNat_one_shiftLeft (by omega), index]

theorem Sized.toNat_lowest (sized : layout.Sized) (value : UInt64) :
    (layout.lowestEquivalentValue value).toNat =
      value.toNat / 2 ^ layout.bucketOf value * 2 ^ layout.bucketOf value := by
  have short := sized.bucketOf_lt value
  have index : (layout.bucketIndex value).toNat = layout.bucketOf value :=
    sized.toNat_bucketIndex value
  have below := Nat.div_mul_le_self value.toNat (2 ^ layout.bucketOf value)
  have room := value.toNat_lt
  simp only [lowestEquivalentValue, subBucketIndex]
  rw [UInt64.toNat_shiftLeft, UInt64.toNat_shiftRight, index, Nat.mod_eq_of_lt short,
    Nat.shiftRight_eq_div_pow, Nat.shiftLeft_eq]
  exact Nat.mod_eq_of_lt (by omega)

theorem next_multiple_le {value bucket : Nat} (small : value < 2 ^ 64) (short : bucket < 64) :
    value / 2 ^ bucket * 2 ^ bucket + 2 ^ bucket ≤ 2 ^ 64 := by
  have whole : 2 ^ 64 = 2 ^ (64 - bucket) * 2 ^ bucket := by
    rw [← Nat.pow_add, Nat.sub_add_cancel short.le]
  have quotient : value / 2 ^ bucket < 2 ^ (64 - bucket) := by
    rw [Nat.div_lt_iff_lt_mul (Nat.two_pow_pos _), ← whole]
    exact small
  calc value / 2 ^ bucket * 2 ^ bucket + 2 ^ bucket
      = (value / 2 ^ bucket + 1) * 2 ^ bucket := by ring
    _ ≤ 2 ^ (64 - bucket) * 2 ^ bucket := Nat.mul_le_mul_right _ quotient
    _ = 2 ^ 64 := whole.symm

theorem Sized.toNat_highest (sized : layout.Sized) (value : UInt64) :
    (layout.highestEquivalentValue value).toNat =
      value.toNat / 2 ^ layout.bucketOf value * 2 ^ layout.bucketOf value +
        2 ^ layout.bucketOf value - 1 := by
  have room := next_multiple_le value.toNat_lt (sized.bucketOf_lt value)
  have positive := Nat.two_pow_pos (layout.bucketOf value)
  have one : (1 : UInt64).toNat = 1 := rfl
  rw [highestEquivalentValue, UInt64.toNat_sub, UInt64.toNat_add, sized.toNat_lowest,
    sized.toNat_bucketWidth, one]
  omega

theorem Sized.lowest_le (sized : layout.Sized) (value : UInt64) :
    layout.lowestEquivalentValue value ≤ value := by
  rw [UInt64.le_iff_toNat_le, sized.toNat_lowest]
  exact Nat.div_mul_le_self _ _

theorem Sized.le_highest (sized : layout.Sized) (value : UInt64) :
    value ≤ layout.highestEquivalentValue value := by
  have above := Nat.lt_div_mul_add (a := value.toNat) (Nat.two_pow_pos (layout.bucketOf value))
  rw [UInt64.le_iff_toNat_le, sized.toNat_highest]
  omega

theorem Sized.two_pow_le (sized : layout.Sized) {value : UInt64}
    (later : 0 < layout.bucketOf value) :
    2 ^ (layout.subBucketMagnitude.toNat - 1) * 2 ^ layout.bucketOf value ≤ value.toNat := by
  have positive := sized.magnitude_pos
  unfold bucketOf at later ⊢
  have nonzero : value.toNat ≠ 0 := by
    intro zero
    simp only [zero, Nat.log2_zero] at later
    omega
  rw [← Nat.pow_add]
  have exponent : layout.subBucketMagnitude.toNat - 1 +
      (value.toNat.log2 + 1 - layout.subBucketMagnitude.toNat) = value.toNat.log2 := by omega
  rw [exponent]
  exact Nat.log2_self_le nonzero

theorem Sized.halfCount_le_sub (sized : layout.Sized) {value : UInt64}
    (later : 0 < layout.bucketOf value) :
    2 ^ (layout.subBucketMagnitude.toNat - 1) ≤ value.toNat / 2 ^ layout.bucketOf value := by
  rw [Nat.le_div_iff_mul_le (Nat.two_pow_pos _)]
  exact sized.two_pow_le later

theorem bucketOf_mono (layout : Layout) {value other : UInt64} (le : value ≤ other) :
    layout.bucketOf value ≤ layout.bucketOf other := by
  have longer := Nat.log_mono_right (b := 2) (UInt64.le_iff_toNat_le.mp le)
  rw [← Nat.log2_eq_log_two, ← Nat.log2_eq_log_two] at longer
  unfold bucketOf
  omega

theorem Sized.indexFor_mono (sized : layout.Sized) {value other : UInt64} (le : value ≤ other) :
    layout.indexFor value ≤ layout.indexFor other := by
  have later := layout.bucketOf_mono le
  have smaller := UInt64.le_iff_toNat_le.mp le
  rw [sized.indexFor_eq, sized.indexFor_eq]
  rcases Nat.eq_or_lt_of_le later with same | before
  · rw [same]
    exact Nat.add_le_add_left (Nat.div_le_div_right smaller) _
  · -- A later bucket counts only its upper half, which starts past the earlier ones.
    have sub := layout.sub_lt value
    have double := sized.count_eq_double
    have upper := sized.halfCount_le_sub (Nat.zero_lt_of_lt before)
    have bucket := Nat.mul_le_mul_right (2 ^ (layout.subBucketMagnitude.toNat - 1)) before
    rw [Nat.succ_mul] at bucket
    omega

theorem Sized.toNat_shift_half (sized : layout.Sized) (value : UInt64) :
    (value >>> layout.subBucketHalfMagnitude).toNat =
      value.toNat / 2 ^ (layout.subBucketMagnitude.toNat - 1) := by
  have magnitude := sized.magnitude_le
  rw [UInt64.toNat_shiftRight, sized.halfMagnitude,
    Nat.mod_eq_of_lt (by omega : layout.subBucketMagnitude.toNat - 1 < 64),
    Nat.shiftRight_eq_div_pow]

theorem Sized.toNat_mask_half (sized : layout.Sized) (value : UInt64) :
    (value &&& (layout.subBucketHalfCount - 1)).toNat =
      value.toNat % 2 ^ (layout.subBucketMagnitude.toNat - 1) := by
  have half := sized.halfCount
  have some := Nat.two_pow_pos (layout.subBucketMagnitude.toNat - 1)
  have positive : (1 : UInt64) ≤ layout.subBucketHalfCount := by
    rw [UInt64.le_iff_toNat_le, half]
    exact some
  have ones : (layout.subBucketHalfCount - 1).toNat =
      2 ^ (layout.subBucketMagnitude.toNat - 1) - 1 := by
    rw [UInt64.toNat_sub_of_le _ _ positive, half]
    rfl
  rw [UInt64.toNat_and, ones, Nat.and_two_pow_sub_one_eq_mod]

theorem Sized.toNat_valueAtIndex (sized : layout.Sized) {index : Nat} (small : index < 2 ^ 62) :
    (layout.valueAtIndex index).toNat =
      if index < 2 ^ (layout.subBucketMagnitude.toNat - 1) then index
      else (index % 2 ^ (layout.subBucketMagnitude.toNat - 1) +
          2 ^ (layout.subBucketMagnitude.toNat - 1)) *
        2 ^ ((index / 2 ^ (layout.subBucketMagnitude.toNat - 1) - 1) % 64) % 2 ^ 64 := by
  have halfLe := sized.halfCount_le
  have half := sized.halfCount
  have some := Nat.two_pow_pos (layout.subBucketMagnitude.toNat - 1)
  have value : (UInt64.ofNat index).toNat = index := UInt64.toNat_ofNat_of_lt' (by norm_num; omega)
  have shifted := sized.toNat_shift_half (UInt64.ofNat index)
  have masked := sized.toNat_mask_half (UInt64.ofNat index)
  rw [value] at shifted masked
  generalize 2 ^ (layout.subBucketMagnitude.toNat - 1) = width at *
  have quotient := Nat.div_le_self index width
  have remainder := Nat.mod_lt index some
  have unit : (1 : Int64).toInt = 1 := rfl
  have halfInt : layout.subBucketHalfCount.toInt64.toInt = width := by
    rw [MachineInt.toInt_toInt64 _ (by omega), half]
  have bucket : ((UInt64.ofNat index >>> layout.subBucketHalfMagnitude).toInt64 - 1).toInt =
      index / width - 1 := by
    have raw := MachineInt.toInt_toInt64
      (UInt64.ofNat index >>> layout.subBucketHalfMagnitude) (by omega)
    rw [MachineInt.toInt_sub_of_fits _ _ (by omega) (by omega), raw, shifted, unit]
    simp
  have sub : ((UInt64.ofNat index &&& (layout.subBucketHalfCount - 1)).toInt64 +
      layout.subBucketHalfCount.toInt64).toInt = (index % width : Nat) + width := by
    have raw := MachineInt.toInt_toInt64
      (UInt64.ofNat index &&& (layout.subBucketHalfCount - 1)) (by omega)
    rw [MachineInt.toInt_add_of_fits _ _ (by omega) (by omega), raw, masked, halfInt]
  have first : index / width = 0 ↔ index < width := Nat.div_eq_zero_iff_lt some
  simp only [valueAtIndex]
  generalize (UInt64.ofNat index >>> layout.subBucketHalfMagnitude).toInt64 - 1 = bucketInt
    at bucket ⊢
  generalize (UInt64.ofNat index &&& (layout.subBucketHalfCount - 1)).toInt64 +
    layout.subBucketHalfCount.toInt64 = subInt at sub ⊢
  have negative : bucketInt < 0 ↔ index < width := by
    rw [Int64.lt_iff_toInt_lt, bucket, Int64.toInt_zero, ← first]
    omega
  by_cases inFirst : index < width
  · have left : (subInt - layout.subBucketHalfCount.toInt64).toInt = index := by
      rw [MachineInt.toInt_sub_of_fits _ _ (by omega) (by omega), sub, halfInt,
        Nat.mod_eq_of_lt inFirst]
      omega
    have bits := MachineInt.toNat_toUInt64 (subInt - layout.subBucketHalfCount.toInt64)
    rw [if_pos (negative.mpr inFirst), if_pos inFirst, UInt64.shiftLeft_zero]
    omega
  · have subBits := MachineInt.toNat_toUInt64 subInt
    have bucketBits := MachineInt.toNat_toUInt64 bucketInt
    have nonzero : index / width ≠ 0 := fun zero => inFirst (first.mp zero)
    have subNat : subInt.toUInt64.toNat = index % width + width := by omega
    have bucketNat : bucketInt.toUInt64.toNat = index / width - 1 := by omega
    rw [if_neg fun below => inFirst (negative.mp below), if_neg inFirst, UInt64.toNat_shiftLeft,
      subNat, bucketNat, Nat.shiftLeft_eq]

theorem Sized.indexFor_small (sized : layout.Sized) (value : UInt64) :
    layout.indexFor value < 2 ^ 62 := by
  have sub := layout.sub_lt value
  have double := sized.count_eq_double
  have halfLe := sized.halfCount_le
  have bucket := sized.bucketOf_lt value
  have scaled : layout.bucketOf value * 2 ^ (layout.subBucketMagnitude.toNat - 1) ≤ 64 * 2 ^ 17 :=
    Nat.mul_le_mul bucket.le halfLe
  rw [sized.indexFor_eq]
  omega

theorem Sized.valueAtIndex_indexFor (sized : layout.Sized) (value : UInt64) :
    layout.valueAtIndex (layout.indexFor value) = layout.lowestEquivalentValue value := by
  have sub := layout.sub_lt value
  have double := sized.count_eq_double
  have short := sized.bucketOf_lt value
  have room := value.toNat_lt
  have some := Nat.two_pow_pos (layout.subBucketMagnitude.toNat - 1)
  have below := Nat.div_mul_le_self value.toNat (2 ^ layout.bucketOf value)
  rw [← UInt64.toNat_inj, sized.toNat_valueAtIndex (sized.indexFor_small value),
    sized.toNat_lowest, sized.indexFor_eq]
  by_cases upper : 2 ^ (layout.subBucketMagnitude.toNat - 1) ≤
      value.toNat / 2 ^ layout.bucketOf value
  · generalize value.toNat / 2 ^ layout.bucketOf value = place at *
    generalize 2 ^ (layout.subBucketMagnitude.toNat - 1) = width at *
    have shape : layout.bucketOf value * width + place =
        (place - width) + width * (layout.bucketOf value + 1) := by
      rw [Nat.mul_comm width, Nat.succ_mul]
      omega
    have inside : place - width < width := by omega
    have outer : ¬ layout.bucketOf value * width + place < width := by omega
    rw [if_neg outer, shape, Nat.add_mul_mod_self_left, Nat.add_mul_div_left _ _ some,
      Nat.mod_eq_of_lt inside, Nat.div_eq_of_lt inside, Nat.sub_add_cancel upper, Nat.zero_add,
      Nat.add_sub_cancel, Nat.mod_eq_of_lt short]
    exact Nat.mod_eq_of_lt (by omega)
  · have first : layout.bucketOf value = 0 := by
      by_contra later
      exact upper (sized.halfCount_le_sub (Nat.pos_of_ne_zero later))
    rw [first] at upper ⊢
    rw [Nat.zero_mul, Nat.zero_add, if_pos (not_le.mp upper), Nat.pow_zero, Nat.mul_one]

theorem Sized.bucketOf_lowest (sized : layout.Sized) (value : UInt64) :
    layout.bucketOf (layout.lowestEquivalentValue value) = layout.bucketOf value := by
  apply Nat.le_antisymm (layout.bucketOf_mono (sized.lowest_le value))
  rcases Nat.eq_zero_or_pos (layout.bucketOf value) with first | later
  · rw [first]
    exact Nat.zero_le _
  · have positive := sized.magnitude_pos
    have upper := sized.halfCount_le_sub later
    have long : 2 ^ (layout.subBucketMagnitude.toNat - 1 + layout.bucketOf value) ≤
        (layout.lowestEquivalentValue value).toNat := by
      rw [sized.toNat_lowest, Nat.pow_add]
      exact Nat.mul_le_mul_right _ upper
    have nonzero := (Nat.two_pow_pos _).trans_le long
    have bits := (Nat.le_log2 nonzero.ne').mpr long
    conv_rhs => unfold bucketOf
    omega

theorem Sized.indexFor_lowest (sized : layout.Sized) (value : UInt64) :
    layout.indexFor (layout.lowestEquivalentValue value) = layout.indexFor value := by
  rw [sized.indexFor_eq, sized.indexFor_eq, sized.bucketOf_lowest, sized.toNat_lowest,
    Nat.mul_div_cancel _ (Nat.two_pow_pos _)]

theorem Sized.indexFor_eq_iff (sized : layout.Sized) (value other : UInt64) :
    layout.indexFor value = layout.indexFor other ↔
      layout.lowestEquivalentValue value = layout.lowestEquivalentValue other := by
  constructor
  · intro same
    rw [← sized.valueAtIndex_indexFor, same, sized.valueAtIndex_indexFor]
  · intro same
    rw [← sized.indexFor_lowest value, same, sized.indexFor_lowest]

theorem Sized.highest_lowest (sized : layout.Sized) (value : UInt64) :
    layout.highestEquivalentValue (layout.lowestEquivalentValue value) =
      layout.highestEquivalentValue value := by
  rw [← UInt64.toNat_inj, sized.toNat_highest, sized.toNat_highest, sized.bucketOf_lowest,
    sized.toNat_lowest, Nat.mul_div_cancel _ (Nat.two_pow_pos _)]

theorem Sized.highest_lt (sized : layout.Sized) {value other : UInt64}
    (before : layout.bucketOf value < layout.bucketOf other) :
    layout.highestEquivalentValue value < other := by
  have place := layout.sub_lt value
  have positive := sized.magnitude_pos
  have some := Nat.two_pow_pos (layout.bucketOf value)
  have long := sized.two_pow_le (Nat.zero_lt_of_lt before)
  have next : (value.toNat / 2 ^ layout.bucketOf value + 1) * 2 ^ layout.bucketOf value ≤
      2 ^ layout.subBucketMagnitude.toNat * 2 ^ layout.bucketOf value :=
    Nat.mul_le_mul_right _ place
  have reach : 2 ^ layout.subBucketMagnitude.toNat * 2 ^ layout.bucketOf value ≤
      2 ^ (layout.subBucketMagnitude.toNat - 1) * 2 ^ layout.bucketOf other := by
    rw [← Nat.pow_add, ← Nat.pow_add]
    exact Nat.pow_le_pow_right (by norm_num) (by omega)
  rw [Nat.succ_mul] at next
  rw [UInt64.lt_iff_toNat_lt, sized.toNat_highest]
  omega

theorem Sized.highest_mono (sized : layout.Sized) {value other : UInt64} (le : value ≤ other) :
    layout.highestEquivalentValue value ≤ layout.highestEquivalentValue other := by
  rcases Nat.eq_or_lt_of_le (layout.bucketOf_mono le) with same | before
  · have places := Nat.div_le_div_right (c := 2 ^ layout.bucketOf other)
      (UInt64.le_iff_toNat_le.mp le)
    rw [UInt64.le_iff_toNat_le, sized.toNat_highest, sized.toNat_highest, same]
    have scaled := Nat.mul_le_mul_right (2 ^ layout.bucketOf other) places
    omega
  · exact UInt64.le_trans (UInt64.le_of_lt (sized.highest_lt before)) (sized.le_highest other)

theorem Sized.le_highest_iff (sized : layout.Sized) (value other : UInt64) :
    value ≤ layout.highestEquivalentValue other ↔
      layout.indexFor value ≤ layout.indexFor other := by
  constructor
  · intro inside
    rcases UInt64.le_total value other with le | le
    · exact sized.indexFor_mono le
    · rcases Nat.eq_or_lt_of_le (layout.bucketOf_mono le) with same | before
      · have ends := UInt64.le_iff_toNat_le.mp inside
        have starts := UInt64.le_iff_toNat_le.mp le
        have some := Nat.two_pow_pos (layout.bucketOf value)
        have lower := Nat.div_mul_le_self other.toNat (2 ^ layout.bucketOf value)
        rw [sized.toNat_highest, same] at ends
        have place : value.toNat / 2 ^ layout.bucketOf value ≤
            other.toNat / 2 ^ layout.bucketOf value := by
          rw [← Nat.lt_succ_iff, Nat.div_lt_iff_lt_mul some, Nat.succ_mul]
          omega
        rw [sized.indexFor_eq, sized.indexFor_eq, same]
        exact Nat.add_le_add_left place _
      · exact absurd inside (UInt64.not_le.mpr (sized.highest_lt before))
  · intro earlier
    rcases UInt64.le_total value other with le | le
    · exact UInt64.le_trans le (sized.le_highest other)
    · have same := Nat.le_antisymm earlier (sized.indexFor_mono le)
      rw [sized.indexFor_eq_iff] at same
      rw [← sized.highest_lowest other, ← same, sized.highest_lowest]
      exact sized.le_highest value

theorem Sized.indexFor_zero (sized : layout.Sized) : layout.indexFor 0 = 0 := by
  have first : layout.bucketOf 0 = 0 := by
    have positive := sized.magnitude_pos
    simp only [bucketOf, UInt64.toNat_zero, Nat.log2_zero]
    omega
  rw [sized.indexFor_eq, first, UInt64.toNat_zero, Nat.zero_div, Nat.zero_mul]

theorem Sized.width_le (sized : layout.Sized) {figures : Nat} (precise : layout.Precise figures)
    (value : UInt64) : (layout.bucketWidth value).toNat - 1 ≤ value.toNat / 10 ^ figures := by
  rw [sized.toNat_bucketWidth, Nat.le_div_iff_mul_le (Nat.pow_pos (by norm_num))]
  rcases Nat.eq_zero_or_pos (layout.bucketOf value) with first | later
  · simp [first]
  · have double := sized.count_eq_double
    unfold Precise at precise
    calc (2 ^ layout.bucketOf value - 1) * 10 ^ figures
        ≤ 2 ^ layout.bucketOf value * 2 ^ (layout.subBucketMagnitude.toNat - 1) :=
          Nat.mul_le_mul (Nat.sub_le _ _) (by omega)
      _ = 2 ^ (layout.subBucketMagnitude.toNat - 1) * 2 ^ layout.bucketOf value :=
          Nat.mul_comm _ _
      _ ≤ value.toNat := sized.two_pow_le later

/-- The bucket of a clamped value, against the precision and the other clamped values. -/
structure BucketExact (layout : Layout) (figures : Nat) (value : UInt64) : Prop where
  inside : layout.indexFor value < layout.countsSize
  monotone (other : UInt64) : value ≤ layout.clamp other →
    layout.indexFor value ≤ layout.indexFor (layout.clamp other)
  represents : layout.valueAtIndex (layout.indexFor value) = layout.lowestEquivalentValue value
  lowest : layout.lowestEquivalentValue value ≤ value
  highest : value ≤ layout.highestEquivalentValue value
  width : (layout.bucketWidth value).toNat - 1 ≤ value.toNat / 10 ^ figures
  same (other : UInt64) : layout.indexFor value = layout.indexFor (layout.clamp other) ↔
    layout.lowestEquivalentValue value = layout.lowestEquivalentValue (layout.clamp other)

theorem Sized.bucketExact (sized : layout.Sized) {figures : Nat}
    (precise : layout.Precise figures) (value : UInt64) :
    layout.BucketExact figures (layout.clamp value) where
  inside := sized.indexFor_lt (layout.clamp_le value)
  monotone _ le := sized.indexFor_mono le
  represents := sized.valueAtIndex_indexFor _
  lowest := sized.lowest_le _
  highest := sized.le_highest _
  width := sized.width_le precise _
  same _ := sized.indexFor_eq_iff _ _

end Layout

namespace Layout

def tally (layout : Layout) (samples : List UInt64) (i : Nat) : UInt64 :=
  UInt64.ofNat (samples.countP fun value => layout.indexFor (layout.clamp value) = i)

theorem toList_counts (layout : Layout) (samples : List UInt64) :
    (layout.summary samples).counts.toList =
      (List.range layout.countsSize).map (layout.tally samples) := by
  apply List.ext_getElem
  · simp [summary]
  · intro i inside _
    simp [summary, tally]

-- Every sum is taken modulo 2 ^ 64, as the counters are.
theorem sum_tally (layout : Layout) (samples : List UInt64) (n : Nat) :
    ((List.range n).map (layout.tally samples)).foldl (· + ·) 0 =
      UInt64.ofNat (samples.countP fun value => layout.indexFor (layout.clamp value) < n) := by
  induction n with
  | zero => simp
  | succ n ih =>
    have split := OrderStatistic.countP_lt_succ
      (fun value => layout.indexFor (layout.clamp value)) samples n
    rw [List.range_succ, List.map_append, List.foldl_append, ih, split, UInt64.ofNat_add]
    rfl

end Layout

namespace Histogram

open HistogramCall

-- The counters wrap where the number of samples does, so no bound on the run is needed here.
theorem foldl_record_counters (layout : Layout) (samples : List UInt64) :
    let h := samples.foldl record (.empty layout)
    h.toLayout = layout ∧ h.counts = (layout.summary samples).counts ∧
      h.totalCount = UInt64.ofNat samples.length := by
  induction samples using List.reverseRecOn with
  | nil =>
    rw [Layout.summary_nil]
    exact ⟨rfl, rfl, rfl⟩
  | append_singleton samples value ih =>
    obtain ⟨same, counts, total⟩ := ih
    simp only [List.foldl_append, List.foldl_cons, List.foldl_nil, record, clamped_eq]
    rw [← counts_snoc, same, counts, total, List.length_append, UInt64.ofNat_add]
    exact ⟨rfl, rfl, rfl⟩

theorem bucketTotal_summary {layout : Layout} (sized : layout.Sized) (samples : List UInt64) :
    (layout.summary samples).bucketTotal = UInt64.ofNat samples.length := by
  have all : (samples.countP fun value =>
      layout.indexFor (layout.clamp value) < layout.countsSize) = samples.length := by
    rw [List.countP_eq_length]
    intro value _
    exact decide_eq_true (sized.indexFor_lt (layout.clamp_le value))
  rw [bucketTotal, ← Array.foldl_toList, Layout.toList_counts, Layout.sum_tally, all]

theorem bucketing_exact (highestTrackable : UInt64) (significantFigures : Int) :
    ∃ layout, Layout.create highestTrackable significantFigures = some layout ∧
      (∀ value, layout.BucketExact (clampFigures significantFigures).toNat (layout.clamp value)) ∧
        ∀ calls, (run (.empty layout) calls).counts.size = layout.countsSize ∧
          (run (.empty layout) calls).bucketTotal = (run (.empty layout) calls).count := by
  obtain ⟨layout, created, sized, precise⟩ :=
    Layout.create_sized highestTrackable significantFigures
  refine ⟨layout, created, sized.bucketExact precise, fun calls => ⟨?_, ?_⟩⟩
  · rw [size_run]
    simp [empty]
  · obtain ⟨-, counts, total⟩ := foldl_record_counters layout (kept calls)
    have held := bucketTotal_summary sized (kept calls)
    rw [run_empty, bucketTotal, counts, count, total]
    exact held

end Histogram

end Crossbook
