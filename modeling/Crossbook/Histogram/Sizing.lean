import Crossbook.Histogram.Histogram
import Crossbook.Lib.Word

set_option autoImplicit false

namespace Crossbook

theorem clampFigures_cases (significantFigures : Int) :
    clampFigures significantFigures = 1 ∨ clampFigures significantFigures = 2 ∨
      clampFigures significantFigures = 3 ∨ clampFigures significantFigures = 4 ∨
      clampFigures significantFigures = 5 := by
  unfold clampFigures
  dsimp only
  split <;> split <;> omega

theorem clampHighest_le (highestTrackable : UInt64) :
    (clampHighest highestTrackable).toNat ≤ 2 ^ 62 := by
  have limit : ((1 : UInt64) <<< 62).toNat = 2 ^ 62 := by decide
  simp only [clampHighest]
  generalize (if highestTrackable < 2 then 2 else highestTrackable) = highest
  split
  next above => rw [limit]
  next within =>
    have bound := UInt64.le_iff_toNat_le.mp (UInt64.not_lt.mp within)
    rwa [limit] at bound

theorem magnitude_returns (significantFigures : Int) :
    ∃ magnitude : UInt64, 1 ≤ magnitude.toNat ∧ magnitude.toNat ≤ 18 ∧
      2 * 10 ^ (clampFigures significantFigures).toNat ≤ 2 ^ magnitude.toNat ∧
        Loop.run (magnitudeStep (largestSingleUnit (clampFigures significantFigures))) 64 1 =
          some magnitude := by
  obtain figures | figures | figures | figures | figures := clampFigures_cases significantFigures
  · exact ⟨5, by decide, by decide, by rw [figures]; decide, by rw [figures]; decide⟩
  · exact ⟨8, by decide, by decide, by rw [figures]; decide, by rw [figures]; decide⟩
  · exact ⟨11, by decide, by decide, by rw [figures]; decide, by rw [figures]; decide⟩
  · exact ⟨15, by decide, by decide, by rw [figures]; decide, by rw [figures]; decide⟩
  · exact ⟨18, by decide, by decide, by rw [figures]; decide, by rw [figures]; decide⟩

-- The induction is on the doublings left before `covered` reaches the top bit,
-- which the clamp on the range keeps above every value to cover.
theorem cover_returns (highestTrackable : UInt64) (bounded : highestTrackable.toNat ≤ 2 ^ 62)
    (room : Nat) : ∀ exponent buckets : Nat, exponent + room = 63 → buckets ≤ exponent →
      ∃ more ≤ room, highestTrackable.toNat < 2 ^ (exponent + more) ∧
        Loop.run (coverStep highestTrackable) (room + 1)
            (UInt64.ofNat (2 ^ exponent), UInt64.ofNat buckets) =
          some (UInt64.ofNat (buckets + more)) := by
  induction room with
  | zero =>
    intro exponent buckets total inside
    -- At 2 ^ 63 the value is past any bound, so the loop ends before the shift wraps.
    have top : exponent = 63 := by omega
    subst top
    have above : ¬ UInt64.ofNat (2 ^ 63) ≤ highestTrackable := by
      rw [UInt64.le_iff_toNat_le]
      have value : (UInt64.ofNat (2 ^ 63)).toNat = 2 ^ 63 := by decide
      omega
    refine ⟨0, le_rfl, by omega, ?_⟩
    simp only [Loop.run, coverStep, if_neg above, Nat.add_zero]
  | succ room ih =>
    intro exponent buckets total inside
    have fits : 2 ^ exponent < 2 ^ 64 := Nat.pow_lt_pow_right (by norm_num) (by omega)
    have value : (UInt64.ofNat (2 ^ exponent)).toNat = 2 ^ exponent :=
      UInt64.toNat_ofNat_of_lt' fits
    by_cases covered : UInt64.ofNat (2 ^ exponent) ≤ highestTrackable
    · have doubled : UInt64.ofNat (2 ^ exponent) <<< 1 = UInt64.ofNat (2 ^ (exponent + 1)) := by
        have below : 2 ^ (exponent + 1) < 2 ^ 64 := Nat.pow_lt_pow_right (by norm_num) (by omega)
        rw [← UInt64.toNat_inj, UInt64.toNat_shiftLeft, value, UInt64.toNat_ofNat_of_lt' below]
        simp only [UInt64.reduceToNat, Nat.shiftLeft_eq]
        rw [← Nat.pow_succ]
        exact Nat.mod_eq_of_lt below
      have counted : UInt64.ofNat buckets + 1 = UInt64.ofNat (buckets + 1) := by
        rw [UInt64.ofNat_add]
        rfl
      obtain ⟨more, within, above, runs⟩ := ih (exponent + 1) (buckets + 1) (by omega) (by omega)
      refine ⟨more + 1, by omega, ?_, ?_⟩
      · rwa [Nat.add_right_comm, Nat.add_assoc] at above
      · rw [Loop.run]
        simp only [coverStep, if_pos covered, doubled, counted]
        rw [runs, Nat.add_right_comm, Nat.add_assoc]
    · refine ⟨0, by omega, ?_, ?_⟩
      · rw [UInt64.le_iff_toNat_le, value] at covered
        simpa using covered
      · rw [Loop.run]
        simp only [coverStep, if_neg covered, Nat.add_zero]

namespace Layout

structure Sized (layout : Layout) : Prop where
  magnitude_pos : 1 ≤ layout.subBucketMagnitude.toNat
  magnitude_le : layout.subBucketMagnitude.toNat ≤ 18
  halfMagnitude : layout.subBucketHalfMagnitude.toNat = layout.subBucketMagnitude.toNat - 1
  count : layout.subBucketCount.toNat = 2 ^ layout.subBucketMagnitude.toNat
  halfCount : layout.subBucketHalfCount.toNat = 2 ^ (layout.subBucketMagnitude.toNat - 1)
  mask : layout.subBucketMask.toNat = 2 ^ layout.subBucketMagnitude.toNat - 1
  bucketCount_pos : 1 ≤ layout.bucketCount.toNat
  bucketCount_le : layout.subBucketMagnitude.toNat + layout.bucketCount.toNat ≤ 64
  covers : layout.highestTrackable.toNat <
    2 ^ (layout.subBucketMagnitude.toNat + layout.bucketCount.toNat - 1)

theorem fill_sized {magnitude bucketCount : UInt64} (highestTrackable : UInt64)
    (positive : 1 ≤ magnitude.toNat) (small : magnitude.toNat ≤ 18)
    (some : 1 ≤ bucketCount.toNat) (few : magnitude.toNat + bucketCount.toNat ≤ 64)
    (covers : highestTrackable.toNat < 2 ^ (magnitude.toNat + bucketCount.toNat - 1)) :
    (fill highestTrackable magnitude bucketCount).Sized := by
  have count : ((1 : UInt64) <<< magnitude).toNat = 2 ^ magnitude.toNat :=
    Word.toNat_one_shiftLeft (by omega)
  have oneLe : (1 : UInt64) ≤ (1 : UInt64) <<< magnitude := by
    rw [UInt64.le_iff_toNat_le, count]
    exact Nat.one_le_two_pow
  have halved : 2 ^ magnitude.toNat / 2 = 2 ^ (magnitude.toNat - 1) := by
    rw [← Nat.pow_sub_mul_pow 2 positive]
    omega
  constructor
  · exact positive
  · exact small
  · exact UInt64.toNat_sub_of_le _ _ (UInt64.le_iff_toNat_le.mpr positive)
  · exact count
  · change ((1 <<< magnitude : UInt64) >>> 1).toNat = 2 ^ (magnitude.toNat - 1)
    rw [← halved, ← count]
    simp [Nat.shiftRight_eq_div_pow]
  · change ((1 <<< magnitude : UInt64) - 1).toNat = 2 ^ magnitude.toNat - 1
    rw [← count]
    exact UInt64.toNat_sub_of_le _ _ oneLe
  · exact some
  · exact few
  · exact covers

/-- The first bucket keeps apart the values of one more figure than the precision asks for. -/
def Precise (layout : Layout) (figures : Nat) : Prop :=
  2 * 10 ^ figures ≤ 2 ^ layout.subBucketMagnitude.toNat

theorem create_sized (highestTrackable : UInt64) (significantFigures : Int) :
    ∃ layout, create highestTrackable significantFigures = some layout ∧ layout.Sized ∧
      layout.Precise (clampFigures significantFigures).toNat := by
  obtain ⟨magnitude, positive, small, precise, magnitudeRuns⟩ :=
    magnitude_returns significantFigures
  have count : ((1 : UInt64) <<< magnitude).toNat = 2 ^ magnitude.toNat :=
    Word.toNat_one_shiftLeft (by omega)
  have shifted : (1 : UInt64) <<< magnitude = UInt64.ofNat (2 ^ magnitude.toNat) := by
    rw [← count, UInt64.ofNat_toNat]
  obtain ⟨more, within, above, coverRuns⟩ :=
    cover_returns (clampHighest highestTrackable) (clampHighest_le highestTrackable)
      (63 - magnitude.toNat) magnitude.toNat 1 (by omega) positive
  have buckets : (UInt64.ofNat (1 + more)).toNat = 1 + more :=
    UInt64.toNat_ofNat_of_lt' (by norm_num; omega)
  have enough := Loop.run_add coverRuns magnitude.toNat
  rw [show 63 - magnitude.toNat + 1 + magnitude.toNat = 64 by omega, ← shifted] at enough
  refine ⟨fill (clampHighest highestTrackable) magnitude (UInt64.ofNat (1 + more)), ?_, ?_,
    precise⟩
  · simp only [create, magnitudeRuns, Option.bind_eq_bind, Option.bind_some]
    rw [show (UInt64.ofNat 1) = 1 from rfl] at enough
    simp only [enough, Option.bind_some]
    rfl
  · refine fill_sized _ positive small (by omega) (by omega) ?_
    rw [buckets, ← Nat.add_assoc, Nat.add_right_comm, Nat.add_sub_cancel]
    exact above

theorem create_isSome (highestTrackable : UInt64) (significantFigures : Int) :
    (create highestTrackable significantFigures).isSome := by
  obtain ⟨layout, created, -⟩ := create_sized highestTrackable significantFigures
  rw [created]
  rfl

def built (highestTrackable : UInt64) (significantFigures : Int) : Layout :=
  (create highestTrackable significantFigures).get
    (create_isSome highestTrackable significantFigures)

theorem built_sized (highestTrackable : UInt64) (significantFigures : Int) :
    (built highestTrackable significantFigures).Sized := by
  obtain ⟨layout, created, sized, -⟩ := create_sized highestTrackable significantFigures
  simpa [built, created] using sized

theorem built_precise (highestTrackable : UInt64) (significantFigures : Int) :
    (built highestTrackable significantFigures).Precise
      (clampFigures significantFigures).toNat := by
  obtain ⟨layout, created, -, precise⟩ := create_sized highestTrackable significantFigures
  simpa [built, created] using precise

end Layout

end Crossbook
