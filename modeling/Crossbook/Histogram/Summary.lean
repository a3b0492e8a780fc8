import Crossbook.Histogram.Index

set_option autoImplicit false

namespace Crossbook

theorem min_kUInt64Max (a : UInt64) : min a kUInt64Max = a := by
  have bound := a.toNat_lt
  have top : kUInt64Max.toNat = 2 ^ 64 - 1 := rfl
  rw [← UInt64.toNat_inj, Word.toNat_min, top]
  omega

theorem kUInt64Max_min (a : UInt64) : min kUInt64Max a = a := by
  have bound := a.toNat_lt
  have top : kUInt64Max.toNat = 2 ^ 64 - 1 := rfl
  rw [← UInt64.toNat_inj, Word.toNat_min, top]
  omega

namespace Layout

def clamp (layout : Layout) (value : UInt64) : UInt64 := min value layout.highestTrackable

def summary (layout : Layout) (samples : List UInt64) : Histogram :=
  { layout with
    counts := Array.ofFn fun i : Fin layout.countsSize =>
      UInt64.ofNat (samples.countP fun value => layout.indexFor (layout.clamp value) = i)
    totalCount := UInt64.ofNat samples.length
    totalSum := (samples.map layout.clamp).foldl (· + ·) 0
    overflowCount := UInt64.ofNat (samples.countP (layout.highestTrackable < ·))
    min_ := (samples.map layout.clamp).foldl min kUInt64Max
    max_ := (samples.map layout.clamp).foldl max 0 }

variable {layout : Layout}

theorem clamp_le (layout : Layout) (value : UInt64) :
    layout.clamp value ≤ layout.highestTrackable := by
  rw [UInt64.le_iff_toNat_le, clamp, Word.toNat_min]
  exact min_le_right _ _

theorem summary_nil (layout : Layout) : layout.summary [] = .empty layout := by
  have counts : (Array.ofFn fun _ : Fin layout.countsSize => UInt64.ofNat 0) =
      Array.replicate layout.countsSize 0 := by
    ext i inside other
    · simp
    · simp
  simp only [summary, List.countP_nil, counts, List.map_nil, List.foldl_nil]
  rfl

end Layout

namespace Histogram

theorem clamped_eq (h : Histogram) (value : UInt64) :
    h.clamped value = (h.clamp value, decide (h.highestTrackable < value)) := by
  change _ = (if value ≤ h.highestTrackable then value else h.highestTrackable, _)
  unfold clamped
  by_cases above : h.highestTrackable < value
  · rw [if_pos above, if_neg (UInt64.not_le.mpr above), decide_eq_true above]
  · rw [if_neg above, if_pos (UInt64.not_lt.mp above), decide_eq_false above]

theorem counts_snoc (layout : Layout) (samples : List UInt64) (value : UInt64) :
    (layout.summary samples).counts.modify (layout.indexFor (layout.clamp value)) (· + 1) =
      (layout.summary (samples ++ [value])).counts := by
  apply Array.ext
  · simp [Layout.summary]
  · intro i inside _
    have small : i < layout.countsSize := by simpa [Layout.summary] using inside
    rw [Array.getElem_modify]
    simp only [Layout.summary, Array.getElem_ofFn, List.countP_append, List.countP_singleton,
      UInt64.ofNat_add]
    by_cases here : layout.indexFor (layout.clamp value) = i
    · simp [here]
    · simp [here]

theorem max_snoc (layout : Layout) (samples : List UInt64) (value : UInt64) :
    (layout.summary (samples ++ [value])).max_ =
      max (layout.summary samples).max_ (layout.clamp value) := by
  simp [Layout.summary]

theorem min_snoc (layout : Layout) (samples : List UInt64) (value : UInt64) :
    (layout.summary (samples ++ [value])).min_ =
      min (layout.summary samples).min_ (layout.clamp value) := by
  simp [Layout.summary]

theorem totalCount_eq_zero (layout : Layout) {samples : List UInt64}
    (fits : samples.length < 2 ^ 64) :
    (layout.summary samples).totalCount = 0 ↔ samples = [] := by
  rw [← UInt64.toNat_inj]
  change (UInt64.ofNat samples.length).toNat = 0 ↔ _
  rw [UInt64.toNat_ofNat_of_lt' fits, List.length_eq_zero_iff]

theorem isFirst_iff (layout : Layout) {samples : List UInt64} (fits : samples.length < 2 ^ 64) :
    (layout.summary samples).totalCount + 1 = 1 ↔ samples = [] := by
  rw [UInt64.add_eq_right, totalCount_eq_zero layout fits]

-- The first sample replaces the sentinels, which would have given way to it anyway.
theorem record_max (layout : Layout) {samples : List UInt64} (value : UInt64)
    (fits : samples.length < 2 ^ 64) :
    (if layout.clamp value > (layout.summary samples).max_ ∨
        (layout.summary samples).totalCount + 1 = 1 then layout.clamp value
      else (layout.summary samples).max_) = (layout.summary (samples ++ [value])).max_ := by
  rw [max_snoc]
  by_cases first : samples = []
  · subst first
    rw [if_pos (Or.inr ((isFirst_iff layout fits).mpr rfl)), Layout.summary_nil]
    exact (Word.zero_max (layout.clamp value)).symm
  · simp only [isFirst_iff layout fits, first, or_false]
    exact Word.if_gt_eq_max _ _

theorem record_min (layout : Layout) {samples : List UInt64} (value : UInt64)
    (fits : samples.length < 2 ^ 64) :
    (if layout.clamp value < (layout.summary samples).min_ ∨
        (layout.summary samples).totalCount + 1 = 1 then layout.clamp value
      else (layout.summary samples).min_) = (layout.summary (samples ++ [value])).min_ := by
  rw [min_snoc]
  by_cases first : samples = []
  · subst first
    rw [if_pos (Or.inr ((isFirst_iff layout fits).mpr rfl)), Layout.summary_nil]
    exact (kUInt64Max_min (layout.clamp value)).symm
  · simp only [isFirst_iff layout fits, first, or_false]
    exact Word.if_lt_eq_min _ _

theorem record_summary (layout : Layout) {samples : List UInt64} (value : UInt64)
    (fits : samples.length < 2 ^ 64) :
    (layout.summary samples).record value = layout.summary (samples ++ [value]) := by
  have counts := counts_snoc layout samples value
  have highest := record_max layout value fits
  have lowest := record_min layout value fits
  have total : (layout.summary samples).totalCount + 1 =
      (layout.summary (samples ++ [value])).totalCount := by
    simp [Layout.summary, UInt64.ofNat_add]
  have sum : (layout.summary samples).totalSum + layout.clamp value =
      (layout.summary (samples ++ [value])).totalSum := by
    simp [Layout.summary]
  have above : (if layout.highestTrackable < value then
        (layout.summary samples).overflowCount + 1 else (layout.summary samples).overflowCount) =
      (layout.summary (samples ++ [value])).overflowCount := by
    by_cases larger : layout.highestTrackable < value
    · simp [Layout.summary, larger, UInt64.ofNat_add]
    · simp [Layout.summary, larger]
  simp only [record, clamped_eq, decide_eq_true_eq]
  rw [Histogram.ext_iff]
  exact ⟨rfl, rfl, rfl, rfl, rfl, rfl, rfl, counts, total, sum, above, lowest, highest⟩

theorem foldl_record (layout : Layout) (samples : List UInt64) :
    ∀ earlier : List UInt64, earlier.length + samples.length < 2 ^ 64 →
      samples.foldl record (layout.summary earlier) = layout.summary (earlier ++ samples) := by
  induction samples with
  | nil => simp
  | cons value rest ih =>
    intro earlier fits
    rw [List.length_cons] at fits
    rw [List.foldl_cons, record_summary layout value (by omega), ih _ (by simp; omega),
      List.append_assoc, List.singleton_append]

end Histogram

end Crossbook
