import Crossbook.Histogram.Bucketing

set_option autoImplicit false

namespace Crossbook

namespace Layout

def clampedValues (layout : Layout) (samples : List UInt64) : List Nat :=
  samples.map fun value => (layout.clamp value).toNat

def rankValue (layout : Layout) (samples : List UInt64) (k : Nat) : Nat :=
  OrderStatistic.smallest (layout.clampedValues samples) k

variable {layout : Layout}

@[simp] theorem length_clampedValues (layout : Layout) (samples : List UInt64) :
    (layout.clampedValues samples).length = samples.length := by
  simp [clampedValues]

theorem mem_clampedValues {samples : List UInt64} {x : Nat} :
    x ∈ layout.clampedValues samples ↔ ∃ value ∈ samples, (layout.clamp value).toNat = x := by
  simp [clampedValues]

theorem rankValue_clamped {samples : List UInt64} {k : Nat} (positive : 1 ≤ k)
    (within : k ≤ samples.length) :
    ∃ value ∈ samples, (layout.clamp value).toNat = layout.rankValue samples k :=
  mem_clampedValues.mp (OrderStatistic.smallest_mem positive (by simpa using within))

def rankIndex (layout : Layout) (samples : List UInt64) (k : Nat) : Nat :=
  layout.indexFor (UInt64.ofNat (layout.rankValue samples k))

theorem Sized.key_ordered (sized : layout.Sized) (samples : List UInt64) :
    ∀ x ∈ layout.clampedValues samples, ∀ y ∈ layout.clampedValues samples, x ≤ y →
      layout.indexFor (UInt64.ofNat x) ≤ layout.indexFor (UInt64.ofNat y) := by
  intro x left y right le
  obtain ⟨value, -, rfl⟩ := mem_clampedValues.mp left
  obtain ⟨other, -, rfl⟩ := mem_clampedValues.mp right
  rw [UInt64.ofNat_toNat, UInt64.ofNat_toNat]
  exact sized.indexFor_mono (UInt64.le_iff_toNat_le.mpr le)

theorem countP_index (layout : Layout) (samples : List UInt64) (n : Nat) :
    (samples.countP fun value => layout.indexFor (layout.clamp value) < n) =
      (layout.clampedValues samples).countP fun x => layout.indexFor (UInt64.ofNat x) < n := by
  rw [clampedValues, List.countP_map]
  apply List.countP_congr
  intro value _
  rw [Function.comp_apply, UInt64.ofNat_toNat]

end Layout

namespace Histogram

theorem rankScan_eq (h : Histogram) (target : UInt64) (counts : List UInt64) :
    ∀ (i : Nat) (seen : UInt64) (t : Nat), t < counts.length →
      (∀ j < t, (counts.take (j + 1)).foldl (· + ·) seen < target) →
      target ≤ (counts.take (t + 1)).foldl (· + ·) seen →
      h.rankScan target i seen counts =
        min (h.highestEquivalentValue (h.valueAtIndex (i + t))) h.max_ := by
  -- On the counts not yet scanned: `t` is how far off the rank still is.
  induction counts with
  | nil =>
    intro i seen t inside
    simp at inside
  | cons count rest ih =>
    intro i seen t inside short enough
    rw [rankScan]
    cases t with
    | zero =>
      have reached : seen + count ≥ target := by simpa using enough
      rw [if_pos reached]
      rfl
    | succ t =>
      have missing : ¬ seen + count ≥ target := by
        have first := short 0 (Nat.succ_pos t)
        exact UInt64.not_le.mpr (by simpa using first)
      have later := ih (i + 1) (seen + count) t (Nat.lt_of_succ_lt_succ inside)
        (fun j before => by simpa using short (j + 1) (Nat.succ_lt_succ before))
        (by simpa using enough)
      rw [if_neg missing, later, Nat.add_right_comm, Nat.add_assoc]

theorem rankScan_counts {layout : Layout} {samples : List UInt64} (h : Histogram)
    (counts : h.counts = (layout.summary samples).counts) {target : UInt64} {t : Nat}
    (inside : t < layout.countsSize)
    (short : ∀ j < t, UInt64.ofNat (samples.countP fun value =>
      layout.indexFor (layout.clamp value) < j + 1) < target)
    (enough : target ≤ UInt64.ofNat (samples.countP fun value =>
      layout.indexFor (layout.clamp value) < t + 1)) :
    h.rankScan target 0 0 h.counts.toList =
      min (h.highestEquivalentValue (h.valueAtIndex t)) h.max_ := by
  have front (j : Nat) (le : j ≤ t) :
      (((List.range layout.countsSize).map (layout.tally samples)).take (j + 1)).foldl (· + ·) 0 =
        UInt64.ofNat (samples.countP fun value =>
          layout.indexFor (layout.clamp value) < j + 1) := by
    rw [← List.map_take, List.take_range, Nat.min_eq_left (by omega), Layout.sum_tally]
  rw [counts, Layout.toList_counts]
  have scanned := rankScan_eq h target ((List.range layout.countsSize).map (layout.tally samples))
    0 0 t (by simpa using inside) (fun j before => (front j before.le).symm ▸ short j before)
    ((front t le_rfl).symm ▸ enough)
  rwa [Nat.zero_add] at scanned

theorem percentile_rank (h : Histogram) {k : UInt64} (positive : 1 ≤ k) (within : k ≤ h.count) :
    h.percentile k = h.rankScan k 0 0 h.counts.toList := by
  have low := UInt64.le_iff_toNat_le.mp positive
  have high := UInt64.le_iff_toNat_le.mp within
  have one : (1 : UInt64).toNat = 1 := rfl
  have nonzero : k ≠ 0 := by
    rintro rfl
    exact absurd low (by decide)
  have some : h.totalCount ≠ 0 := by
    intro zero
    rw [count, zero] at high
    have none : (0 : UInt64).toNat = 0 := rfl
    omega
  have capped : ¬ k > h.totalCount := UInt64.not_lt.mpr within
  simp only [percentile]
  rw [if_neg some, if_neg nonzero, if_neg capped]

section Maximum

theorem le_foldl_max (values : List UInt64) (start : UInt64) :
    start ≤ values.foldl max start ∧ ∀ value ∈ values, value ≤ values.foldl max start := by
  induction values generalizing start with
  | nil => simp
  | cons value rest ih =>
    obtain ⟨first, others⟩ := ih (max start value)
    have left : start ≤ max start value := by
      rw [UInt64.le_iff_toNat_le, Word.toNat_max]
      exact le_max_left _ _
    have right : value ≤ max start value := by
      rw [UInt64.le_iff_toNat_le, Word.toNat_max]
      exact le_max_right _ _
    exact ⟨UInt64.le_trans left first,
      List.forall_mem_cons.mpr ⟨UInt64.le_trans right first, others⟩⟩

theorem foldl_max_mem (values : List UInt64) (start : UInt64) :
    values.foldl max start = start ∨ values.foldl max start ∈ values := by
  induction values generalizing start with
  | nil => simp
  | cons value rest ih =>
    have either : max start value = start ∨ max start value = value := by
      rcases le_total start.toNat value.toNat with le | le
      · exact .inr (UInt64.toNat_inj.mp (by rw [Word.toNat_max, max_eq_right le]))
      · exact .inl (UInt64.toNat_inj.mp (by rw [Word.toNat_max, max_eq_left le]))
    rcases ih (max start value) with same | inside
    · rw [List.foldl_cons, same]
      exact either.imp_right fun here => by simp [here]
    · exact .inr (List.mem_cons_of_mem _ inside)

theorem toNat_max_summary (layout : Layout) {samples : List UInt64} (some : samples ≠ []) :
    (layout.summary samples).max_.toNat = layout.rankValue samples samples.length := by
  have bounds := (le_foldl_max (samples.map layout.clamp) 0).2
  have length := layout.length_clampedValues samples
  have top {x : Nat} (member : x ∈ layout.clampedValues samples) :
      x ≤ layout.rankValue samples samples.length := by
    rw [← length]
    exact OrderStatistic.le_smallest_length member
  apply Nat.le_antisymm
  · rcases foldl_max_mem (samples.map layout.clamp) 0 with zero | inside
    · change ((samples.map layout.clamp).foldl max 0).toNat ≤ _
      rw [zero]
      exact Nat.zero_le _
    · obtain ⟨value, member, same⟩ := List.mem_map.mp inside
      change ((samples.map layout.clamp).foldl max 0).toNat ≤ _
      rw [← same]
      exact top (Layout.mem_clampedValues.mpr ⟨value, member, rfl⟩)
  · obtain ⟨value, member, same⟩ :=
      layout.rankValue_clamped (List.length_pos_iff.mpr some) (le_refl samples.length)
    rw [← same]
    exact UInt64.le_iff_toNat_le.mp (bounds _ (List.mem_map_of_mem member))

end Maximum

section Summary

variable {layout : Layout} {samples : List UInt64} (sized : layout.Sized)
  (fits : samples.length < 2 ^ 64)

theorem toNat_count (fits : samples.length < 2 ^ 64) :
    (layout.summary samples).count.toNat = samples.length :=
  UInt64.toNat_ofNat_of_lt' fits

include sized fits

theorem percentile_summary {k : UInt64} (positive : 1 ≤ k)
    (within : k ≤ (layout.summary samples).count) :
    (layout.summary samples).percentile k =
      min (layout.highestEquivalentValue (UInt64.ofNat (layout.rankValue samples k.toNat)))
        (layout.summary samples).max_ := by
  have low : 1 ≤ k.toNat := UInt64.le_iff_toNat_le.mp positive
  have high := UInt64.le_iff_toNat_le.mp within
  rw [toNat_count fits] at high
  obtain ⟨value, member, same⟩ := layout.rankValue_clamped low high
  have place : layout.rankIndex samples k.toNat = layout.indexFor (layout.clamp value) := by
    rw [Layout.rankIndex, ← same, UInt64.ofNat_toNat]
  have inside : layout.rankIndex samples k.toNat < layout.countsSize := by
    rw [place]
    exact sized.indexFor_lt (layout.clamp_le value)
  have ordered := sized.key_ordered samples
  have listed : k.toNat ≤ (layout.clampedValues samples).length := by simpa using high
  have counted (n : Nat) : (UInt64.ofNat (samples.countP fun value =>
      layout.indexFor (layout.clamp value) < n)).toNat =
        samples.countP fun value => layout.indexFor (layout.clamp value) < n := by
    apply UInt64.toNat_ofNat_of_lt'
    exact List.countP_le_length.trans_lt fits
  rw [percentile_rank _ positive within, rankScan_counts _ rfl inside]
  · have lowest : layout.valueAtIndex (layout.rankIndex samples k.toNat) =
        layout.lowestEquivalentValue (layout.clamp value) := by
      rw [place, sized.valueAtIndex_indexFor]
    change min (layout.highestEquivalentValue
      (layout.valueAtIndex (layout.rankIndex samples k.toNat))) _ = _
    rw [lowest, sized.highest_lowest, ← same, UInt64.ofNat_toNat]
  · intro j before
    have few := OrderStatistic.countP_key_lt ordered low listed
    rw [UInt64.lt_iff_toNat_lt, counted, Layout.countP_index]
    apply lt_of_le_of_lt _ few
    apply List.countP_mono_left
    intro x _ below
    rw [decide_eq_true_eq] at below ⊢
    exact below.trans_le before
  · have many := OrderStatistic.le_countP_key ordered low listed
    rw [UInt64.le_iff_toNat_le, counted, Layout.countP_index]
    exact many

theorem toNat_percentile {k : UInt64} (positive : 1 ≤ k)
    (within : k ≤ (layout.summary samples).count) :
    ((layout.summary samples).percentile k).toNat =
      min (layout.highestEquivalentValue
          (UInt64.ofNat (layout.rankValue samples k.toNat))).toNat
        (layout.rankValue samples samples.length) := by
  have some : samples ≠ [] := by
    rintro rfl
    have none : (1 : UInt64) ≤ 0 := UInt64.le_trans positive within
    exact absurd none (by decide)
  rw [percentile_summary sized fits positive within, Word.toNat_min, toNat_max_summary layout some]

end Summary

/-- What every rank of a run's percentiles has to do with the sorted clamped samples. -/
structure RankBounds (layout : Layout) (figures : Nat) (samples : List UInt64) (h : Histogram)
    (k : UInt64) : Prop where
  low : layout.rankValue samples k.toNat ≤ (h.percentile k).toNat
  below : h.percentile k ≤ h.max
  close : (h.percentile k).toNat * 10 ^ figures ≤
    layout.rankValue samples k.toNat * (10 ^ figures + 1)

structure Percentiles (layout : Layout) (figures : Nat) (samples : List UInt64) (h : Histogram) :
    Prop where
  bounds (k : UInt64) : 1 ≤ k → k ≤ h.count → RankBounds layout figures samples h k
  monotone (j k : UInt64) : 1 ≤ j → j ≤ k → k ≤ h.count → h.percentile j ≤ h.percentile k
  top : h.percentile h.count = h.max

section Ranks

variable {layout : Layout} {samples : List UInt64} (sized : layout.Sized)
  (fits : samples.length < 2 ^ 64)

theorem toNat_rankValue {k : Nat} (positive : 1 ≤ k) (within : k ≤ samples.length) :
    (UInt64.ofNat (layout.rankValue samples k)).toNat = layout.rankValue samples k := by
  obtain ⟨value, -, same⟩ := layout.rankValue_clamped positive within
  rw [← same, UInt64.ofNat_toNat]

theorem rankValue_mono {j k : Nat} (positive : 1 ≤ j) (later : j ≤ k)
    (within : k ≤ samples.length) : layout.rankValue samples j ≤ layout.rankValue samples k :=
  OrderStatistic.smallest_mono positive later (by simpa using within)

theorem highest_close (sized : layout.Sized) {figures : Nat} (precise : layout.Precise figures)
    (value : UInt64) :
    (layout.highestEquivalentValue value).toNat * 10 ^ figures ≤
      value.toNat * (10 ^ figures + 1) := by
  have narrow := sized.width_le precise value
  have lowest := Nat.div_mul_le_self value.toNat (2 ^ layout.bucketOf value)
  have positive := Nat.two_pow_pos (layout.bucketOf value)
  rw [sized.toNat_bucketWidth, Nat.le_div_iff_mul_le (Nat.pow_pos (by norm_num))] at narrow
  have reach : (layout.highestEquivalentValue value).toNat ≤
      value.toNat + (2 ^ layout.bucketOf value - 1) := by
    rw [sized.toNat_highest]
    omega
  calc (layout.highestEquivalentValue value).toNat * 10 ^ figures
      ≤ (value.toNat + (2 ^ layout.bucketOf value - 1)) * 10 ^ figures :=
        Nat.mul_le_mul_right _ reach
    _ = value.toNat * 10 ^ figures + (2 ^ layout.bucketOf value - 1) * 10 ^ figures :=
        Nat.add_mul _ _ _
    _ ≤ value.toNat * 10 ^ figures + value.toNat := Nat.add_le_add_left narrow _
    _ = value.toNat * (10 ^ figures + 1) := (Nat.mul_succ _ _).symm

include fits in
theorem max_summary (some : samples ≠ []) :
    (layout.summary samples).max.toNat = layout.rankValue samples samples.length := by
  have held : (layout.summary samples).max = (layout.summary samples).max_ :=
    if_neg (mt (totalCount_eq_zero layout fits).mp some)
  rw [held, toNat_max_summary layout some]

include sized fits

theorem rankBounds_summary {figures : Nat} (precise : layout.Precise figures) (some : samples ≠ [])
    {k : UInt64} (positive : 1 ≤ k) (within : k ≤ (layout.summary samples).count) :
    RankBounds layout figures samples (layout.summary samples) k := by
  have low : 1 ≤ k.toNat := UInt64.le_iff_toNat_le.mp positive
  have high := UInt64.le_iff_toNat_le.mp within
  rw [toNat_count fits] at high
  have value := toNat_percentile sized fits positive within
  have exact_ : (UInt64.ofNat (layout.rankValue samples k.toNat)).toNat =
      layout.rankValue samples k.toNat := toNat_rankValue low high
  have above := UInt64.le_iff_toNat_le.mp
    (sized.le_highest (UInt64.ofNat (layout.rankValue samples k.toNat)))
  have close := highest_close sized precise (UInt64.ofNat (layout.rankValue samples k.toNat))
  rw [exact_] at above close
  constructor
  · rw [value]
    exact le_min above (rankValue_mono low high le_rfl)
  · rw [UInt64.le_iff_toNat_le, value, max_summary fits some]
    exact min_le_right _ _
  · rw [value]
    exact (Nat.mul_le_mul_right _ (min_le_left _ _)).trans close

theorem percentile_mono {j k : UInt64} (positive : 1 ≤ j) (later : j ≤ k)
    (within : k ≤ (layout.summary samples).count) :
    (layout.summary samples).percentile j ≤ (layout.summary samples).percentile k := by
  have low : 1 ≤ j.toNat := UInt64.le_iff_toNat_le.mp positive
  have between := UInt64.le_iff_toNat_le.mp later
  have high := UInt64.le_iff_toNat_le.mp within
  rw [toNat_count fits] at high
  rw [UInt64.le_iff_toNat_le, toNat_percentile sized fits positive (UInt64.le_trans later within),
    toNat_percentile sized fits (UInt64.le_trans positive later) within]
  apply min_le_min_right
  apply UInt64.le_iff_toNat_le.mp
  apply sized.highest_mono
  rw [UInt64.le_iff_toNat_le, toNat_rankValue low (by omega), toNat_rankValue (by omega) high]
  exact rankValue_mono low between high

theorem percentile_count (some : samples ≠ []) :
    (layout.summary samples).percentile (layout.summary samples).count =
      (layout.summary samples).max := by
  have count : (layout.summary samples).count.toNat = samples.length := toNat_count fits
  have positive : 1 ≤ (layout.summary samples).count := by
    rw [UInt64.le_iff_toNat_le, count]
    exact List.length_pos_iff.mpr some
  have above := UInt64.le_iff_toNat_le.mp
    (sized.le_highest (UInt64.ofNat (layout.rankValue samples samples.length)))
  rw [toNat_rankValue (List.length_pos_iff.mpr some) le_rfl] at above
  rw [← UInt64.toNat_inj, toNat_percentile sized fits positive (UInt64.le_refl _), count,
    max_summary fits some]
  exact min_eq_right above

end Ranks

theorem percentiles_bracket (highestTrackable : UInt64) (significantFigures : Int)
    (calls : List HistogramCall) (some : HistogramCall.kept calls ≠ [])
    (fits : (HistogramCall.kept calls).length < 2 ^ 64) :
    Percentiles (.built highestTrackable significantFigures)
      (clampFigures significantFigures).toNat (HistogramCall.kept calls)
      (HistogramCall.run (create highestTrackable significantFigures) calls) := by
  have sized := Layout.built_sized highestTrackable significantFigures
  have precise := Layout.built_precise highestTrackable significantFigures
  rw [run_create highestTrackable significantFigures fits]
  exact ⟨fun _ => rankBounds_summary sized fits precise some,
    fun _ _ => percentile_mono sized fits, percentile_count sized fits some⟩

theorem percentiles_bracket_clamped :
    let calls : List HistogramCall := [.record 5000, .record 9, .record 700]
    HistogramCall.kept calls = [5000, 9, 700] ∧
      Percentiles (.built 1024 2) (clampFigures 2).toNat (HistogramCall.kept calls)
        (HistogramCall.run (create 1024 2) calls) := by
  intro calls
  have samples : HistogramCall.kept calls = [5000, 9, 700] := rfl
  exact ⟨samples, percentiles_bracket 1024 2 calls (by rw [samples]; simp)
    (by rw [samples]; simp)⟩

section Wrapped

open HistogramCall

theorem kept_records (values : List UInt64) : kept (values.map HistogramCall.record) = values := by
  induction values using List.reverseRecOn with
  | nil => rfl
  | append_singleton values value ih =>
    rw [List.map_append, List.map_singleton, kept_snoc_record, ih]

theorem run_records (h : Histogram) (values : List UInt64) :
    run h (values.map HistogramCall.record) = values.foldl Histogram.record h := by
  rw [run, List.foldl_map]
  rfl

/-- Ones until the counters are back at zero, and a thousand: the ones no longer count. -/
def wrapped (ones : Nat) : List UInt64 := List.replicate ones 1 ++ [1000]

theorem wrapped_ne_nil (ones : Nat) : wrapped ones ≠ [] := by simp [wrapped]

def millis : Layout := .built 3600000000000 3

theorem countP_wrapped (ones n : Nat) (within : n ≤ 1000) :
    (wrapped ones).countP (fun value => millis.indexFor (millis.clamp value) < n) =
      if 1 < n then ones else 0 := by
  have one : millis.indexFor (millis.clamp 1) = 1 := by decide +kernel
  have thousand : millis.indexFor (millis.clamp 1000) = 1000 := by decide +kernel
  rw [wrapped, List.countP_append, List.countP_replicate, List.countP_singleton, one, thousand]
  simp only [decide_eq_true_eq]
  split_ifs <;> omega

theorem percentile_wrapped {ones : Nat} (wraps : UInt64.ofNat ones = 0) :
    let h := (wrapped ones).foldl Histogram.record (.empty millis)
    h.count = 1 ∧ h.percentile 1 = 1000 := by
  intro h
  obtain ⟨same, counts, total⟩ := foldl_record_counters millis (wrapped ones)
  have length : (wrapped ones).length = ones + 1 := by simp [wrapped]
  have count : h.count = 1 := by
    rw [length, UInt64.ofNat_add, wraps] at total
    exact total
  have highest : h.max_ = 1000 := by
    obtain ⟨same, -, total⟩ := foldl_record_counters millis (List.replicate ones 1)
    have last : h = ((List.replicate ones 1).foldl Histogram.record (.empty millis)).record 1000 := by
      simp [h, wrapped]
    rw [List.length_replicate, wraps] at total
    rw [last]
    simp only [Histogram.record, clamped_eq, total, same]
    rw [if_pos (.inr (by decide))]
    decide +kernel
  refine ⟨count, ?_⟩
  have scanned : h.rankScan 1 0 0 h.counts.toList =
      min (h.highestEquivalentValue (h.valueAtIndex 1000)) h.max_ := by
    apply rankScan_counts h counts (by decide +kernel)
    · intro j before
      rw [countP_wrapped ones (j + 1) before]
      split
      next => rw [wraps]; decide
      next => decide
    · have all : (wrapped ones).countP (fun value =>
          millis.indexFor (millis.clamp value) < 1000 + 1) = ones + 1 := by
        rw [← length, List.countP_eq_length]
        intro value member
        rcases List.mem_append.mp member with one | thousand
        · rw [(List.mem_replicate.mp one).2]
          decide +kernel
        · rw [List.mem_singleton.mp thousand]
          decide +kernel
      rw [all, UInt64.ofNat_add, wraps]
      decide
  rw [percentile_rank h (UInt64.le_refl 1) (by rw [count]; decide), scanned, highest, same]
  decide +kernel

theorem rankValue_wrapped {ones : Nat} (some : 0 < ones) : millis.rankValue (wrapped ones) 1 ≤ 1 := by
  have listed : 1 ≤ (millis.clampedValues (wrapped ones)).length := by simp [wrapped]
  have few := OrderStatistic.countP_lt_smallest le_rfl listed
  rw [Nat.lt_one_iff, List.countP_eq_zero] at few
  have one : (millis.clamp 1).toNat = 1 := by decide +kernel
  have member : 1 ∈ millis.clampedValues (wrapped ones) :=
    Layout.mem_clampedValues.mpr ⟨1, by simp [wrapped, some.ne'], one⟩
  have bound : OrderStatistic.smallest (millis.clampedValues (wrapped ones)) 1 ≤ 1 := by
    simpa using few 1 member
  exact bound

theorem not_percentiles_wrapped {ones : Nat} (wraps : UInt64.ofNat ones = 0) (some : 0 < ones) :
    ¬ Percentiles millis 3 (wrapped ones)
      ((wrapped ones).foldl Histogram.record (.empty millis)) := by
  intro percentiles
  obtain ⟨count, value⟩ := percentile_wrapped wraps
  have within : (1 : UInt64) ≤
      ((wrapped ones).foldl Histogram.record (.empty millis)).count := by
    rw [count]
    exact UInt64.le_refl 1
  have close := (percentiles.bounds 1 (UInt64.le_refl 1) within).close
  have least := rankValue_wrapped some
  have one : (1 : UInt64).toNat = 1 := rfl
  have thousand : (1000 : UInt64).toNat = 1000 := rfl
  rw [value, one, thousand] at close
  omega

-- With 2 ^ 64 ones before it, the thousand is the only sample the counters know of.
theorem percentiles_bracket_fails :
    kept ((wrapped (2 ^ 64)).map HistogramCall.record) ≠ [] ∧
      ¬ Percentiles (.built 3600000000000 3) (clampFigures 3).toNat
        (kept ((wrapped (2 ^ 64)).map HistogramCall.record))
        (run (create 3600000000000 3) ((wrapped (2 ^ 64)).map HistogramCall.record)) := by
  have wraps : UInt64.ofNat (2 ^ 64) = 0 := by decide
  have figures : (clampFigures 3).toNat = 3 := by decide
  rw [kept_records, run_records, figures]
  exact ⟨wrapped_ne_nil _, not_percentiles_wrapped wraps (by decide)⟩

end Wrapped

end Histogram

end Crossbook
