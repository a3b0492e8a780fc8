import Crossbook.Histogram.Percentile

set_option autoImplicit false

namespace Crossbook

/-- `percentile` from the percentage on, with the rank computed exactly. -/
def Histogram.percentileAt (h : Histogram) (p : ℚ) : UInt64 :=
  let p := max 0 (min p 100)
  h.percentile (UInt64.ofNat ⌊p / 100 * h.totalCount.toNat + 1 / 2⌋₊)

def neededRank (p : ℚ) (n : Nat) : Nat := ⌈p / 100 * n⌉₊

def nearestRank (p : ℚ) (n : Nat) : Nat := max 1 ⌊p / 100 * n + 1 / 2⌋₊

/-- The samples since the total was last back at zero. -/
def recent (samples : List UInt64) : List UInt64 :=
  samples.drop (samples.length / 2 ^ 64 * 2 ^ 64)

namespace Layout

def Covers (layout : Layout) (samples : List UInt64) (p : ℚ) (value : UInt64) : Prop :=
  p / 100 * samples.length ≤ ((layout.clampedValues samples).countP (· ≤ value.toNat) : Nat)

def under (layout : Layout) (samples : List UInt64) (n : Nat) : Nat :=
  samples.countP fun value => layout.indexFor (layout.clamp value) < n

/-- No bucket before the value's own reaches the rank, and a recent sample reaches the value. -/
def Shown (layout : Layout) (samples : List UInt64) (rank : Nat) (value : UInt64) : Prop :=
  (∀ n ≤ layout.indexFor (layout.clamp value), layout.under samples n % 2 ^ 64 < rank) ∧
    layout.clamp value ≤ (layout.summary (recent samples)).max_

instance (layout : Layout) (samples : List UInt64) (rank : Nat) :
    DecidablePred (layout.Shown samples rank) := fun _ => inferInstanceAs (Decidable (_ ∧ _))

def RankCovers (layout : Layout) (samples : List UInt64) (p : ℚ) : Prop :=
  if samples.length < 2 ^ 64 then
    layout.rankIndex samples (neededRank p samples.length) ≤
      layout.rankIndex samples (nearestRank p samples.length)
  else
    -- The counters have wrapped, and only know the bucket counts and the length modulo 2 ^ 64.
    p / 100 * samples.length ≤
      (samples.countP (layout.Shown samples (nearestRank p (samples.length % 2 ^ 64))) : Nat)

end Layout

section Rank

variable {p : ℚ} {n : Nat}

theorem floor_rank_le (low : 0 ≤ p) (high : p ≤ 100) : ⌊p / 100 * n + 1 / 2⌋₊ ≤ n := by
  have share : p / 100 ≤ 1 := (div_le_one (by norm_num)).mpr high
  have part : p / 100 * n ≤ n := mul_le_of_le_one_left (Nat.cast_nonneg n) share
  have positive : 0 ≤ p / 100 * n + 1 / 2 := by positivity
  rw [← Nat.lt_succ_iff, Nat.floor_lt positive, Nat.cast_succ]
  linarith

theorem nearestRank_pos (p : ℚ) (n : Nat) : 1 ≤ nearestRank p n := le_max_left _ _

theorem nearestRank_le (low : 0 ≤ p) (high : p ≤ 100) (some : 1 ≤ n) : nearestRank p n ≤ n :=
  max_le some (floor_rank_le low high)

theorem neededRank_le (high : p ≤ 100) : neededRank p n ≤ n := by
  have share : p / 100 ≤ 1 := (div_le_one (by norm_num)).mpr high
  rw [neededRank, Nat.ceil_le]
  exact mul_le_of_le_one_left (Nat.cast_nonneg n) share

end Rank

namespace Histogram

theorem percentile_zero (h : Histogram) : h.percentile 0 = h.percentile 1 := by
  simp [percentile]

theorem percentileAt_eq (h : Histogram) {p : ℚ} (low : 0 ≤ p) (high : p ≤ 100) :
    h.percentileAt p = h.percentile (UInt64.ofNat (nearestRank p h.totalCount.toNat)) := by
  simp only [percentileAt]
  rw [min_eq_left high, max_eq_right low, nearestRank]
  rcases Nat.eq_zero_or_pos ⌊p / 100 * h.totalCount.toNat + 1 / 2⌋₊ with zero | positive
  · rw [zero]
    exact h.percentile_zero
  · rw [max_eq_right positive]

section Recent

variable {samples : List UInt64}

theorem length_recent (samples : List UInt64) :
    (recent samples).length = samples.length % 2 ^ 64 := by
  have split := Nat.div_add_mod samples.length (2 ^ 64)
  rw [recent, List.length_drop]
  omega

theorem recent_eq_self (fits : samples.length < 2 ^ 64) : recent samples = samples := by
  rw [recent, Nat.div_eq_of_lt fits, Nat.zero_mul, List.drop_zero]

theorem max_foldl_record (layout : Layout) {earlier : List UInt64}
    (wraps : UInt64.ofNat earlier.length = 0) (later : List UInt64) :
    later ≠ [] → later.length < 2 ^ 64 →
      ((earlier ++ later).foldl record (.empty layout)).max_ = (layout.summary later).max_ := by
  induction later using List.reverseRecOn with
  | nil => exact fun some => absurd rfl some
  | append_singleton later value ih =>
    intro _ fits
    rw [List.length_append, List.length_singleton] at fits
    obtain ⟨same, -, total⟩ := foldl_record_counters layout (earlier ++ later)
    have held : ((earlier ++ later).foldl record (.empty layout)).totalCount =
        (layout.summary later).totalCount := by
      rw [total, List.length_append, UInt64.ofNat_add, wraps, UInt64.zero_add]
      rfl
    have highest := record_max layout value (Nat.lt_of_succ_lt fits)
    rw [← List.append_assoc, List.foldl_append, List.foldl_cons, List.foldl_nil]
    simp only [record, clamped_eq, same, held]
    by_cases first : later = []
    · rw [if_pos (.inr ((isFirst_iff layout (Nat.lt_of_succ_lt fits)).mpr first)), first,
        List.nil_append]
      exact (Word.zero_max (layout.clamp value)).symm
    · rw [ih first (Nat.lt_of_succ_lt fits)]
      exact highest

theorem max_recent (layout : Layout) (some : recent samples ≠ []) :
    (samples.foldl record (.empty layout)).max_ = (layout.summary (recent samples)).max_ := by
  have whole : samples.take (samples.length / 2 ^ 64 * 2 ^ 64) ++ recent samples = samples :=
    List.take_append_drop _ _
  have wraps : UInt64.ofNat (samples.take (samples.length / 2 ^ 64 * 2 ^ 64)).length = 0 := by
    rw [List.length_take, Nat.min_eq_left (Nat.div_mul_le_self _ _), ← UInt64.toNat_inj,
      UInt64.toNat_ofNat']
    exact Nat.mul_mod_left _ _
  have fits : (recent samples).length < 2 ^ 64 := by
    rw [length_recent]
    exact Nat.mod_lt _ (by norm_num)
  have held := max_foldl_record layout wraps (recent samples) some fits
  rwa [whole] at held

end Recent

section Scan

variable {layout : Layout} {samples : List UInt64}

theorem toNat_totalCount (layout : Layout) (samples : List UInt64) :
    (samples.foldl record (.empty layout)).totalCount.toNat = samples.length % 2 ^ 64 := by
  rw [(foldl_record_counters layout samples).2.2]
  exact UInt64.toNat_ofNat'

theorem toNat_under (layout : Layout) (samples : List UInt64) (n : Nat) :
    (UInt64.ofNat (samples.countP fun value => layout.indexFor (layout.clamp value) < n)).toNat =
      layout.under samples n % 2 ^ 64 :=
  UInt64.toNat_ofNat'

theorem under_zero (layout : Layout) (samples : List UInt64) : layout.under samples 0 = 0 := by
  simp [Layout.under]

theorem under_countsSize (sized : layout.Sized) (samples : List UInt64) :
    layout.under samples layout.countsSize = samples.length := by
  rw [Layout.under, List.countP_eq_length]
  intro value _
  exact decide_eq_true (sized.indexFor_lt (layout.clamp_le value))

theorem exists_stop (sized : layout.Sized) {rank : Nat} (positive : 1 ≤ rank)
    (within : rank ≤ samples.length % 2 ^ 64) :
    ∃ other ∈ samples,
      (∀ n ≤ layout.indexFor (layout.clamp other), layout.under samples n % 2 ^ 64 < rank) ∧
        rank ≤ layout.under samples (layout.indexFor (layout.clamp other) + 1) % 2 ^ 64 := by
  -- The bucket at which the rank is first reached holds a sample.
  have reached : ∃ n, rank ≤ layout.under samples n % 2 ^ 64 :=
    ⟨layout.countsSize, by rwa [under_countsSize sized]⟩
  have enough := Nat.find_spec reached
  have nonzero : Nat.find reached ≠ 0 := by
    intro zero
    rw [zero, under_zero] at enough
    omega
  obtain ⟨stop, next⟩ := Nat.exists_eq_succ_of_ne_zero nonzero
  have short (n : Nat) (before : n ≤ stop) : layout.under samples n % 2 ^ 64 < rank :=
    not_le.mp (Nat.find_min reached (by omega))
  rw [next] at enough
  have here : 0 < samples.countP fun value => layout.indexFor (layout.clamp value) = stop := by
    have split := OrderStatistic.countP_lt_succ
      (fun value => layout.indexFor (layout.clamp value)) samples stop
    have last := short stop le_rfl
    unfold Layout.under at last enough
    by_contra none
    rw [split] at enough
    omega
  obtain ⟨other, member, index⟩ := List.countP_pos_iff.mp here
  rw [decide_eq_true_eq] at index
  rw [← index] at short enough
  exact ⟨other, member, short, enough⟩

theorem le_percentile_iff (sized : layout.Sized) {rank : Nat} (positive : 1 ≤ rank)
    (within : rank ≤ samples.length % 2 ^ 64) (value : UInt64) :
    (layout.clamp value).toNat ≤
        ((samples.foldl record (.empty layout)).percentile (UInt64.ofNat rank)).toNat ↔
      layout.Shown samples rank value := by
  obtain ⟨other, -, short, enough⟩ := exists_stop sized positive within
  obtain ⟨same, counts, -⟩ := foldl_record_counters layout samples
  have some : recent samples ≠ [] := by
    rw [← List.length_pos_iff, length_recent]
    omega
  have highest := max_recent layout some
  have target : (UInt64.ofNat rank).toNat = rank :=
    UInt64.toNat_ofNat_of_lt' (within.trans_lt (Nat.mod_lt _ (by norm_num)))
  have first : (1 : UInt64) ≤ UInt64.ofNat rank := by
    rw [UInt64.le_iff_toNat_le, target]
    exact positive
  have last : UInt64.ofNat rank ≤ (samples.foldl record (.empty layout)).count := by
    rw [UInt64.le_iff_toNat_le, target, count, toNat_totalCount]
    exact within
  have scanned : (samples.foldl record (.empty layout)).rankScan (UInt64.ofNat rank) 0 0
      (samples.foldl record (.empty layout)).counts.toList = _ :=
    rankScan_counts _ counts (sized.indexFor_lt (layout.clamp_le other))
      (fun j before => by
        rw [UInt64.lt_iff_toNat_lt, toNat_under, target]
        exact short (j + 1) before)
      (by
        rw [UInt64.le_iff_toNat_le, toNat_under, target]
        exact enough)
  rw [percentile_rank _ first last, scanned, same, highest, sized.valueAtIndex_indexFor,
    sized.highest_lowest, Word.toNat_min, le_min_iff, ← UInt64.le_iff_toNat_le,
    ← UInt64.le_iff_toNat_le, sized.le_highest_iff]
  apply and_congr_left
  intro _
  constructor
  · exact fun earlier n le => short n (le.trans earlier)
  · intro before
    by_contra past
    exact absurd (before _ (Nat.succ_le_of_lt (not_le.mp past))) (not_lt.mpr enough)

theorem le_percentile_wrapped (sized : layout.Sized) (wrapped : samples.length % 2 ^ 64 = 0)
    {rank : Nat} (positive : 1 ≤ rank) (rounded value : UInt64) :
    (layout.clamp value).toNat ≤
        ((samples.foldl record (.empty layout)).percentile rounded).toNat ↔
      layout.Shown samples rank value := by
  -- With the total back at zero the percentile is zero, whatever the rank.
  have zero : (samples.foldl record (.empty layout)).totalCount = 0 := by
    rw [← UInt64.toNat_inj, toNat_totalCount]
    exact wrapped
  have none : recent samples = [] := by
    rw [← List.length_eq_zero_iff, length_recent, wrapped]
  have lowest : (layout.summary (recent samples)).max_ = 0 := by
    rw [none]
    rfl
  rw [percentile, if_pos zero, Layout.Shown, lowest, UInt64.le_iff_toNat_le]
  constructor
  · intro least
    have same : layout.clamp value = 0 := UInt64.toNat_inj.mp (Nat.le_zero.mp least)
    refine ⟨fun n le => ?_, least⟩
    rw [same, sized.indexFor_zero, Nat.le_zero] at le
    rw [le, under_zero]
    exact positive
  · exact fun shown => shown.2

theorem countP_clamped (layout : Layout) (samples : List UInt64) (bound : Nat) :
    (layout.clampedValues samples).countP (· ≤ bound) =
      samples.countP fun value => (layout.clamp value).toNat ≤ bound := by
  rw [Layout.clampedValues, List.countP_map]
  rfl

theorem covers_iff_shown (sized : layout.Sized) (samples : List UInt64) {p : ℚ} (low : 0 ≤ p)
    (high : p ≤ 100) :
    layout.Covers samples p ((samples.foldl record (.empty layout)).percentileAt p) ↔
      p / 100 * samples.length ≤
        (samples.countP (layout.Shown samples (nearestRank p (samples.length % 2 ^ 64))) : Nat) := by
  have same (value : UInt64) : (layout.clamp value).toNat ≤
      ((samples.foldl record (.empty layout)).percentileAt p).toNat ↔
        layout.Shown samples (nearestRank p (samples.length % 2 ^ 64)) value := by
    rw [percentileAt_eq _ low high, toNat_totalCount]
    rcases Nat.eq_zero_or_pos (samples.length % 2 ^ 64) with wrapped | some
    · exact le_percentile_wrapped sized wrapped (nearestRank_pos _ _) _ value
    · exact le_percentile_iff sized (nearestRank_pos _ _) (nearestRank_le low high some) value
  rw [Layout.Covers, countP_clamped]
  simp only [same]

end Scan

section Exact

variable {layout : Layout} {samples : List UInt64} (sized : layout.Sized)

include sized

theorem under_lt_iff {rank : Nat} (positive : 1 ≤ rank) (within : rank ≤ samples.length) (n : Nat) :
    layout.under samples n < rank ↔ n ≤ layout.rankIndex samples rank := by
  rcases n with _ | bound
  · rw [under_zero]
    exact iff_of_true positive (Nat.zero_le _)
  · have reached : _ ↔ layout.rankIndex samples rank ≤ bound :=
      OrderStatistic.le_countP_key_iff (sized.key_ordered samples) positive (by simpa using within)
    rw [Layout.under, Layout.countP_index]
    simp only [Nat.lt_succ_iff]
    rw [← not_le, reached, not_le, Nat.lt_iff_add_one_le]

theorem shown_iff (fits : samples.length < 2 ^ 64) {rank : Nat} (positive : 1 ≤ rank)
    (within : rank ≤ samples.length) {value : UInt64} (member : value ∈ samples) :
    layout.Shown samples rank value ↔
      layout.indexFor (layout.clamp value) ≤ layout.rankIndex samples rank := by
  have few (n : Nat) : layout.under samples n % 2 ^ 64 = layout.under samples n :=
    Nat.mod_eq_of_lt (List.countP_le_length.trans_lt fits)
  have top : layout.clamp value ≤ (layout.summary (recent samples)).max_ := by
    rw [recent_eq_self fits]
    exact (le_foldl_max (samples.map layout.clamp) 0).2 _ (List.mem_map_of_mem member)
  rw [Layout.Shown, and_iff_left top]
  simp only [few, under_lt_iff sized positive within]
  exact ⟨fun before => before _ le_rfl, fun earlier n le => le.trans earlier⟩

theorem rankIndex_one_le {rank : Nat} (positive : 1 ≤ rank) (within : rank ≤ samples.length) :
    layout.rankIndex samples 1 ≤ layout.rankIndex samples rank := by
  have first := (under_lt_iff sized le_rfl (positive.trans within) _).mpr
    (le_refl (layout.rankIndex samples 1))
  exact (under_lt_iff sized positive within _).mp (first.trans_le positive)

theorem countP_shown (fits : samples.length < 2 ^ 64) {rank : Nat} (positive : 1 ≤ rank)
    (within : rank ≤ samples.length) :
    samples.countP (layout.Shown samples rank) =
      layout.under samples (layout.rankIndex samples rank + 1) := by
  apply List.countP_congr
  intro value member
  rw [decide_eq_true_eq, decide_eq_true_eq, shown_iff sized fits positive within member,
    Nat.lt_succ_iff]

theorem shown_covers_iff (fits : samples.length < 2 ^ 64) (some : samples ≠ []) {p : ℚ}
    (low : 0 ≤ p) (high : p ≤ 100) :
    p / 100 * samples.length ≤
        (samples.countP (layout.Shown samples (nearestRank p samples.length)) : Nat) ↔
      layout.rankIndex samples (neededRank p samples.length) ≤
        layout.rankIndex samples (nearestRank p samples.length) := by
  have positive := nearestRank_pos p samples.length
  have within := nearestRank_le low high (List.length_pos_iff.mpr some)
  rw [countP_shown sized fits positive within, ← Nat.ceil_le]
  change neededRank p samples.length ≤ _ ↔ _
  rcases Nat.eq_zero_or_pos (neededRank p samples.length) with none | needed
  · rw [none]
    exact iff_of_true (Nat.zero_le _) (rankIndex_one_le sized positive within)
  · rw [← not_lt, under_lt_iff sized needed (neededRank_le high), not_le, Nat.lt_succ_iff]

theorem covers_iff (some : samples ≠ []) {p : ℚ} (low : 0 ≤ p) (high : p ≤ 100) :
    layout.Covers samples p ((samples.foldl record (.empty layout)).percentileAt p) ↔
      layout.RankCovers samples p := by
  rw [covers_iff_shown sized samples low high, Layout.RankCovers]
  by_cases fits : samples.length < 2 ^ 64
  · rw [if_pos fits, Nat.mod_eq_of_lt fits]
    exact shown_covers_iff sized fits some low high
  · rw [if_neg fits]

end Exact

open HistogramCall

theorem percentile_covers_iff (highestTrackable : UInt64) (significantFigures : Int)
    (calls : List HistogramCall) (some : kept calls ≠ []) (p : ℚ) (low : 0 ≤ p) (high : p ≤ 100) :
    (Layout.built highestTrackable significantFigures).Covers (kept calls) p
        ((run (create highestTrackable significantFigures) calls).percentileAt p) ↔
      (Layout.built highestTrackable significantFigures).RankCovers (kept calls) p := by
  rw [create, run_empty]
  exact covers_iff (Layout.built_sized highestTrackable significantFigures) some low high

theorem percentile_covers_iff_median :
    let calls : List HistogramCall := [.record 9, .reset, .record 5000, .record 9, .record 700]
    kept calls = [5000, 9, 700] ∧
      ((Layout.built 1024 2).Covers (kept calls) 50 ((run (create 1024 2) calls).percentileAt 50) ↔
        (Layout.built 1024 2).RankCovers (kept calls) 50) := by
  intro calls
  have samples : kept calls = [5000, 9, 700] := rfl
  exact ⟨samples, percentile_covers_iff 1024 2 calls (by rw [samples]; simp) 50 (by norm_num)
    (by norm_num)⟩

-- Sixty percent of two samples is more than one of them, but rounds down to one.
theorem percentile_optimistic :
    let calls : List HistogramCall := [.record 1, .record 2]
    kept calls ≠ [] ∧ ¬ (Layout.built 3600000000000 3).Covers (kept calls) 60
      ((run (create 3600000000000 3) calls).percentileAt 60) := by
  intro calls
  have samples : kept calls = [1, 2] := rfl
  have value : (run (create 3600000000000 3) calls).percentileAt 60 = 1 := by decide +kernel
  have held : ((Layout.built 3600000000000 3).clampedValues [1, 2]).countP
      (· ≤ (1 : UInt64).toNat) = 1 := by decide +kernel
  rw [Layout.Covers, samples, value, held]
  exact ⟨List.cons_ne_nil _ _, by norm_num⟩

end Histogram

end Crossbook
