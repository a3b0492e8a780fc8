import Crossbook.Histogram.Histogram

set_option autoImplicit false

namespace Crossbook

namespace Histogram

section Loop

-- What records a sample is left open: a histogram, or a log of the calls.
variable {σ : Type} (record : σ → UInt64 → σ) (interval : UInt64)

def correctedStep (state : σ × UInt64) : (σ × UInt64) ⊕ σ :=
  let (s, missing) := state
  if interval ≤ missing then
    let s := record s missing
    -- Guard against unsigned wraparound.
    if missing < interval then .inr s else .inl (s, missing - interval)
  else .inr s

/-- `none` would be a backfill that is not over after so many rounds. -/
def recordCorrectedWith (rounds : Nat) (s : σ) (value : UInt64) : Option σ :=
  let s := record s value
  if interval = 0 ∨ value ≤ interval then some s
  else Loop.run (correctedStep record interval) rounds (s, value - interval)

end Loop

def recordCorrected (rounds : Nat) (h : Histogram) (value expectedInterval : UInt64) :
    Option Histogram :=
  recordCorrectedWith record expectedInterval rounds h value

def steppedDown (value interval : UInt64) : List UInt64 :=
  (List.range (value.toNat / interval.toNat)).map fun k =>
    UInt64.ofNat (value.toNat - k * interval.toNat)

section Steps

variable {value interval : UInt64}

theorem toNat_pos_of_ne (nonzero : interval ≠ 0) : 0 < interval.toNat :=
  Nat.pos_of_ne_zero fun zero => nonzero (UInt64.toNat_inj.mp zero)

theorem steppedDown_short (short : value < interval) : steppedDown value interval = [] := by
  rw [UInt64.lt_iff_toNat_lt] at short
  rw [steppedDown, Nat.div_eq_of_lt short]
  rfl

theorem toNat_step (more : interval ≤ value) :
    (value - interval).toNat = value.toNat - interval.toNat :=
  UInt64.toNat_sub_of_le value interval more

theorem quotient_step (positive : 0 < interval.toNat) (more : interval ≤ value) :
    value.toNat / interval.toNat = (value - interval).toNat / interval.toNat + 1 := by
  rw [toNat_step more]
  exact Nat.div_eq_sub_div positive (UInt64.le_iff_toNat_le.mp more)

theorem steppedDown_cons (positive : 0 < interval.toNat) (more : interval ≤ value) :
    steppedDown value interval = value :: steppedDown (value - interval) interval := by
  rw [steppedDown, steppedDown, quotient_step positive more, List.range_succ_eq_map, List.map_cons,
    List.map_map, Nat.zero_mul, Nat.sub_zero, UInt64.ofNat_toNat]
  congr 1
  refine List.map_congr_left fun k _ => congrArg UInt64.ofNat ?_
  rw [toNat_step more, Nat.succ_mul, Nat.sub_sub, Nat.add_comm]

theorem run_correctedStep {σ : Type} (record : σ → UInt64 → σ) (positive : 0 < interval.toNat)
    (rounds : Nat) (s : σ) (enough : value.toNat / interval.toNat < rounds) :
    Loop.run (correctedStep record interval) rounds (s, value) =
      some ((steppedDown value interval).foldl record s) := by
  induction rounds generalizing s value with
  | zero => contradiction
  | succ rounds ih =>
    rw [Loop.run, correctedStep]
    dsimp only
    by_cases more : interval ≤ value
    · have whole : ¬ value < interval := UInt64.not_lt.mpr more
      have fewer : (value - interval).toNat / interval.toNat < rounds := by
        rw [quotient_step positive more] at enough
        omega
      rw [if_pos more, if_neg whole, steppedDown_cons positive more, List.foldl_cons]
      exact ih (record s value) fewer
    · rw [if_neg more, steppedDown_short (UInt64.not_le.mp more)]
      rfl

theorem toNat_steppedDown : (steppedDown value interval).map UInt64.toNat =
    (List.range (value.toNat / interval.toNat)).map fun k => value.toNat - k * interval.toNat := by
  rw [steppedDown, List.map_map]
  refine List.map_congr_left fun k _ => ?_
  exact UInt64.toNat_ofNat_of_lt' ((Nat.sub_le _ _).trans_lt value.toNat_lt)

theorem mem_steppedDown (positive : 0 < interval.toNat) (sample : UInt64) :
    sample ∈ steppedDown value interval ↔
      interval ≤ sample ∧ ∃ k, sample.toNat + k * interval.toNat = value.toNat := by
  rw [← List.mem_map_of_injective (fun _ _ => UInt64.toNat_inj.mp), toNat_steppedDown,
    UInt64.le_iff_toNat_le]
  simp only [List.mem_map, List.mem_range, Nat.lt_iff_add_one_le, Nat.le_div_iff_mul_le positive,
    Nat.succ_mul]
  constructor
  · rintro ⟨k, room, same⟩
    exact ⟨by omega, k, by omega⟩
  · rintro ⟨least, k, whole⟩
    exact ⟨k, by omega, by omega⟩

end Steps

structure Backfilled (value interval : UInt64) (samples : List UInt64) : Prop where
  alone : interval = 0 ∨ value ≤ interval → samples = [value]
  listed : 0 < interval → interval < value → samples.map UInt64.toNat =
    (List.range (value.toNat / interval.toNat)).map fun k => value.toNat - k * interval.toNat
  whole (sample : UInt64) : 0 < interval → interval < value →
    (sample ∈ samples ↔ interval ≤ sample ∧ ∃ k, sample.toNat + k * interval.toNat = value.toNat)
  counted : 0 < interval → interval < value → samples.length = value.toNat / interval.toNat
  once : samples.Nodup

def correctedSamples (value interval : UInt64) : List UInt64 :=
  if interval = 0 ∨ value ≤ interval then [value] else steppedDown value interval

theorem correctedSamples_backfilled (value interval : UInt64) :
    Backfilled value interval (correctedSamples value interval) := by
  unfold correctedSamples
  by_cases alone : interval = 0 ∨ value ≤ interval
  · have never (positive : 0 < interval) (longer : interval < value) : False := by
      rcases alone with rfl | short
      · exact absurd positive (UInt64.lt_irrefl 0)
      · exact absurd longer (UInt64.not_lt.mpr short)
    rw [if_pos alone]
    constructor
    case alone => exact fun _ => rfl
    case listed => exact fun positive longer => (never positive longer).elim
    case whole => exact fun _ positive longer => (never positive longer).elim
    case counted => exact fun positive longer => (never positive longer).elim
    case once => exact List.nodup_singleton value
  · rw [if_neg alone]
    have positive := toNat_pos_of_ne fun zero => alone (.inl zero)
    constructor
    case alone => exact fun short => absurd short alone
    case listed => exact fun _ _ => toNat_steppedDown
    case whole => exact fun sample _ _ => mem_steppedDown positive sample
    case counted => exact fun _ _ => by simp [steppedDown]
    case once =>
      apply List.Nodup.of_map UInt64.toNat
      rw [toNat_steppedDown]
      refine List.Nodup.map_on ?_ List.nodup_range
      intro k inK l inL same
      have bound (n : Nat) (inside : n ∈ List.range (value.toNat / interval.toNat)) :
          n * interval.toNat ≤ value.toNat :=
        (Nat.le_div_iff_mul_le positive).mp (Nat.le_of_lt (List.mem_range.mp inside))
      have left := bound k inK
      have right := bound l inL
      exact Nat.eq_of_mul_eq_mul_right positive (by omega)

/-- The call ends, and makes exactly the calls to `record` it is to make, whatever they do. -/
theorem recordCorrected_backfills (value interval : UInt64) :
    Backfilled value interval (correctedSamples value interval) ∧
      (∀ {σ : Type} (record : σ → UInt64 → σ) (s : σ),
        recordCorrectedWith record interval value.toNat s value =
          some ((correctedSamples value interval).foldl record s)) ∧
      ∀ h : Histogram, recordCorrected value.toNat h value interval =
        some ((correctedSamples value interval).foldl record h) := by
  have calls {σ : Type} (record : σ → UInt64 → σ) (s : σ) :
      recordCorrectedWith record interval value.toNat s value =
        some ((correctedSamples value interval).foldl record s) := by
    rw [recordCorrectedWith, correctedSamples]
    split
    next => rfl
    next longer =>
      have positive := toNat_pos_of_ne fun zero => longer (.inl zero)
      have more : interval ≤ value :=
        UInt64.le_of_lt (UInt64.not_le.mp fun short => longer (.inr short))
      have fewer : (value - interval).toNat / interval.toNat < value.toNat := by
        have bound := Nat.div_le_self (value - interval).toNat interval.toNat
        have next := toNat_step more
        have least := UInt64.le_iff_toNat_le.mp more
        omega
      rw [run_correctedStep record positive _ _ fewer, steppedDown_cons positive more,
        List.foldl_cons]
  exact ⟨correctedSamples_backfilled value interval, calls, calls record⟩

end Histogram

end Crossbook
