import Crossbook.Histogram.Summary

set_option autoImplicit false

namespace Crossbook

namespace Histogram

theorem merge_counts (layout : Layout) (xs ys : List UInt64) :
    ((layout.summary xs).counts.mapIdx fun i count =>
        count + (layout.summary ys).counts.getD i 0) = (layout.summary (xs ++ ys)).counts := by
  apply Array.ext
  · simp [Layout.summary]
  · intro i inside _
    have small : i < layout.countsSize := by simpa [Layout.summary] using inside
    simp [Layout.summary, small, UInt64.ofNat_add]

theorem max_append (layout : Layout) (xs ys : List UInt64) :
    (layout.summary (xs ++ ys)).max_ = max (layout.summary xs).max_ (layout.summary ys).max_ := by
  simp only [Layout.summary, List.map_append, List.foldl_append]
  exact Word.foldl_from_unit max Word.max_zero _ _

theorem min_append (layout : Layout) (xs ys : List UInt64) :
    (layout.summary (xs ++ ys)).min_ = min (layout.summary xs).min_ (layout.summary ys).min_ := by
  simp only [Layout.summary, List.map_append, List.foldl_append]
  exact Word.foldl_from_unit min min_kUInt64Max _ _

theorem sum_append (layout : Layout) (xs ys : List UInt64) :
    (layout.summary (xs ++ ys)).totalSum =
      (layout.summary xs).totalSum + (layout.summary ys).totalSum := by
  have associative : Std.Associative (fun a b : UInt64 => a + b) := ⟨UInt64.add_assoc⟩
  simp only [Layout.summary, List.map_append, List.foldl_append]
  exact Word.foldl_from_unit (fun a b => a + b) (fun a => UInt64.add_zero a) _ _

-- An empty side holds the sentinels, which lose against every sample of the other.
theorem merge_extremes (layout : Layout) {xs ys : List UInt64}
    (fits : xs.length + ys.length < 2 ^ 64) :
    (if (layout.summary ys).totalCount > 0 then
        (if (layout.summary xs).totalCount = 0 then (layout.summary ys).min_
          else min (layout.summary xs).min_ (layout.summary ys).min_,
          max (layout.summary xs).max_ (layout.summary ys).max_)
      else ((layout.summary xs).min_, (layout.summary xs).max_)) =
      ((layout.summary (xs ++ ys)).min_, (layout.summary (xs ++ ys)).max_) := by
  have left : (layout.summary xs).totalCount = 0 ↔ xs = [] :=
    totalCount_eq_zero layout (by omega)
  have right : (layout.summary ys).totalCount = 0 ↔ ys = [] :=
    totalCount_eq_zero layout (by omega)
  by_cases noneRight : ys = []
  · rw [if_neg (by rw [right.mpr noneRight]; decide), noneRight, List.append_nil]
  · have some : (layout.summary ys).totalCount > 0 :=
      UInt64.pos_iff_ne_zero.mpr (mt right.mp noneRight)
    rw [if_pos some, max_append, min_append]
    by_cases noneLeft : xs = []
    · rw [if_pos (left.mpr noneLeft), noneLeft, Layout.summary_nil]
      congr 1
      exact (kUInt64Max_min _).symm
    · rw [if_neg (mt left.mp noneLeft)]

theorem merge_summary (layout : Layout) {xs ys : List UInt64}
    (fits : xs.length + ys.length < 2 ^ 64) :
    (layout.summary xs).merge (layout.summary ys) = (layout.summary (xs ++ ys), true) := by
  have same : ¬ (layout.summary ys).bucketLayout ≠ (layout.summary xs).bucketLayout :=
    not_not.mpr rfl
  have counts := merge_counts layout xs ys
  have extremes := merge_extremes layout fits
  have total : (layout.summary xs).totalCount + (layout.summary ys).totalCount =
      (layout.summary (xs ++ ys)).totalCount := by
    simp [Layout.summary, UInt64.ofNat_add]
  have sum := sum_append layout xs ys
  have above : (layout.summary xs).overflowCount + (layout.summary ys).overflowCount =
      (layout.summary (xs ++ ys)).overflowCount := by
    simp [Layout.summary, UInt64.ofNat_add]
  rw [merge, if_neg same]
  dsimp only
  rw [counts, extremes, total, ← sum, above]
  rfl

end Histogram

inductive HistogramCall
  | record (value : UInt64)
  | reset
deriving DecidableEq, Repr

namespace HistogramCall

def apply (h : Histogram) : HistogramCall → Histogram
  | record value => h.record value
  | reset => h.reset

def run (h : Histogram) (calls : List HistogramCall) : Histogram := calls.foldl apply h

/-- The samples recorded since the last reset. -/
def kept (calls : List HistogramCall) : List UInt64 :=
  calls.foldl (fun samples call =>
    match call with
    | record value => samples ++ [value]
    | reset => []) []

theorem kept_snoc_record (calls : List HistogramCall) (value : UInt64) :
    kept (calls ++ [record value]) = kept calls ++ [value] := by
  simp [kept]

theorem kept_snoc_reset (calls : List HistogramCall) : kept (calls ++ [reset]) = [] := by
  simp [kept]

theorem run_snoc (h : Histogram) (calls : List HistogramCall) (call : HistogramCall) :
    run h (calls ++ [call]) = apply (run h calls) call := by
  simp [run]

theorem toLayout_apply (h : Histogram) (call : HistogramCall) :
    (apply h call).toLayout = h.toLayout := by
  cases call with
  | record value => rfl
  | reset => rfl

theorem size_apply (h : Histogram) (call : HistogramCall) :
    (apply h call).counts.size = h.counts.size := by
  cases call with
  | record value => simp [apply, Histogram.record]
  | reset => simp [apply, Histogram.reset]

theorem toLayout_run (h : Histogram) (calls : List HistogramCall) :
    (run h calls).toLayout = h.toLayout := by
  induction calls using List.reverseRecOn with
  | nil => rfl
  | append_singleton calls call ih => rw [run_snoc, toLayout_apply, ih]

theorem size_run (h : Histogram) (calls : List HistogramCall) :
    (run h calls).counts.size = h.counts.size := by
  induction calls using List.reverseRecOn with
  | nil => rfl
  | append_singleton calls call ih => rw [run_snoc, size_apply, ih]

theorem reset_run (layout : Layout) (calls : List HistogramCall) :
    (run (.empty layout) calls).reset = .empty layout := by
  have same := toLayout_run (.empty layout) calls
  have size : (run (.empty layout) calls).counts.size = layout.countsSize := by
    rw [size_run]
    simp [Histogram.empty]
  have cleared : (run (.empty layout) calls).counts.map (fun _ => (0 : UInt64)) =
      Array.replicate layout.countsSize 0 := by
    rw [Array.map_const', size]
  rw [Histogram.reset, cleared, same]
  rfl

theorem run_empty (layout : Layout) (calls : List HistogramCall) :
    run (.empty layout) calls = (kept calls).foldl Histogram.record (.empty layout) := by
  -- What a run leaves is what recording the samples since the last reset leaves.
  induction calls using List.reverseRecOn with
  | nil => rfl
  | append_singleton calls call ih =>
    rw [run_snoc]
    cases call with
    | record value =>
      rw [kept_snoc_record, List.foldl_append, ← ih]
      rfl
    | reset =>
      rw [kept_snoc_reset]
      exact reset_run layout calls

end HistogramCall

namespace Histogram

def create (highestTrackable : UInt64) (significantFigures : Int) : Histogram :=
  .empty (.built highestTrackable significantFigures)

open HistogramCall

theorem run_create (highestTrackable : UInt64) (significantFigures : Int)
    {calls : List HistogramCall} (fits : (kept calls).length < 2 ^ 64) :
    run (create highestTrackable significantFigures) calls =
      (Layout.built highestTrackable significantFigures).summary (kept calls) := by
  rw [create, run_empty, ← Layout.summary_nil, foldl_record _ _ [] (by simpa using fits),
    List.nil_append]

theorem merge_exact :
    (∀ (highest otherHighest : UInt64) (figures otherFigures : Int)
        (calls otherCalls : List HistogramCall),
      (kept calls).length + (kept otherCalls).length < 2 ^ 64 →
      (create otherHighest otherFigures).bucketLayout = (create highest figures).bucketLayout →
      (run (create highest figures) calls).merge
          (run (create otherHighest otherFigures) otherCalls) =
        ((kept calls ++ kept otherCalls).foldl record (create highest figures), true)) ∧
      ∀ h other : Histogram, other.bucketLayout ≠ h.bucketLayout → h.merge other = (h, false) := by
  constructor
  · intro highest otherHighest figures otherFigures calls otherCalls fits same
    have layouts : Layout.built otherHighest otherFigures = Layout.built highest figures :=
      (Layout.built_sized otherHighest otherFigures).eq_of_bucketLayout
        (Layout.built_sized highest figures) same
    rw [run_create highest figures (by omega), run_create otherHighest otherFigures (by omega),
      layouts, merge_summary _ fits, create, ← Layout.summary_nil, foldl_record _ _ [],
      List.nil_append]
    simpa using fits
  · intro h other different
    rw [merge, if_pos different]

theorem merge_exact_spilled :
    (run (create 1024 2) [.record 9, .reset, .record 5000]).merge
        (run (create 1024 2) [.record 3, .record 70]) =
      ([5000, 3, 70].foldl record (create 1024 2), true) ∧
      (create 1024 2).merge (create 2048 2) = (create 1024 2, false) :=
  ⟨merge_exact.1 1024 1024 2 2 [.record 9, .reset, .record 5000] [.record 3, .record 70]
      (by decide) rfl,
    merge_exact.2 (create 1024 2) (create 2048 2) (by decide +kernel)⟩

end Histogram

end Crossbook
