import Crossbook.Lib.Tiling
import Crossbook.Replay.Replay
import Crossbook.SignedArithmetic

set_option autoImplicit false

namespace Crossbook

namespace Replay

def times (events : List ReplayEvent) : List Int := events.map fun e => e.tsRecv.toInt

/-- A capture that defines a rate. -/
structure Replayable (events : List ReplayEvent) : Prop where
  many : 2 ≤ events.length
  ordered : events.Pairwise fun earlier later => earlier.tsRecv ≤ later.tsRecv
  -- The sweep's own check: it computes no stride otherwise.
  advances : 0 < captureSpan events

def TimesFit (events : List ReplayEvent) (loops : Nat) : Prop :=
  ∀ time ∈ Tiling.tiled (times events) loops, Fits time

section Times

variable {events : List ReplayEvent}

theorem length_times (events : List ReplayEvent) : (times events).length = events.length :=
  List.length_map _

theorem times_ordered_iff : (times events).Pairwise (· ≤ ·) ↔
    events.Pairwise fun earlier later => earlier.tsRecv ≤ later.tsRecv := by
  simp only [times, List.pairwise_map, Int64.le_iff_toInt_le]

theorem span_times_eq (first last : ReplayEvent) (middle : List ReplayEvent) :
    Tiling.span (times (first :: middle ++ [last])) = last.tsRecv.toInt - first.tsRecv.toInt := by
  rw [times, List.map_append, List.map_singleton, Tiling.span, List.getLastD_concat]
  rfl

theorem ends_of_many (many : 2 ≤ events.length) :
    ∃ first middle last, events = first :: middle ++ [last] := by
  obtain ⟨first, rest, rfl⟩ := List.exists_cons_of_length_pos (by omega : 0 < events.length)
  have some_ : rest ≠ [] := by
    rintro rfl
    contradiction
  refine ⟨first, rest.dropLast, rest.getLast some_, ?_⟩
  rw [List.cons_append, List.dropLast_concat_getLast]

theorem span_times (capture : Replayable events) :
    (captureSpan events).toInt = Tiling.span (times events) := by
  obtain ⟨first, middle, last, rfl⟩ := ends_of_many capture.many
  have ends : captureSpan (first :: middle ++ [last]) = last.tsRecv - first.tsRecv := by
    rw [captureSpan, List.getLast?_concat]
    rfl
  have before : first.tsRecv ≤ last.tsRecv :=
    (List.pairwise_append.mp capture.ordered).2.2 first List.mem_cons_self last
      (List.mem_singleton_self last)
  have apart := capture.advances
  rw [ends] at apart
  rw [ends, span_times_eq, MachineInt.toInt_sub_of_pos before apart]

theorem span_lt (capture : Replayable events) : Tiling.span (times events) < 2 ^ 63 := by
  rw [← span_times capture]
  exact (captureSpan events).toInt_lt

theorem interArrivalNs_toNat (ordered : (times events).Pairwise (· ≤ ·))
    (close : ∀ gap ∈ Tiling.gaps (times events), gap < 2 ^ 63) :
    (interArrivalNs events).map UInt64.toNat = Tiling.gaps (times events) := by
  fun_induction interArrivalNs events with
  | case1 => rfl
  | case2 => rfl
  | case3 before event rest delta ih =>
    have gap : (event.tsRecv.toInt - before.tsRecv.toInt).toNat < 2 ^ 63 :=
      close _ List.mem_cons_self
    have inner := ih (List.pairwise_cons.mp ordered).2
      fun gap member => close gap (List.mem_cons_of_mem _ member)
    have next : before.tsRecv.toInt ≤ event.tsRecv.toInt :=
      (List.pairwise_cons.mp ordered).1 _ List.mem_cons_self
    have exact_ : delta.toInt = event.tsRecv.toInt - before.tsRecv.toInt :=
      MachineInt.toInt_sub_of_fits _ _ (by omega) (by omega)
    have head : (if 0 < delta then delta.toUInt64 else 0).toNat =
        (event.tsRecv.toInt - before.tsRecv.toInt).toNat := by
      have word := MachineInt.toNat_toUInt64 delta
      split
      next later =>
        rw [Int64.lt_iff_toInt_lt, Int64.toInt_zero] at later
        omega
      next still =>
        rw [Int64.not_lt, Int64.le_iff_toInt_le, Int64.toInt_zero] at still
        rw [UInt64.toNat_zero]
        omega
    rw [List.map_cons, head, inner]
    rfl

theorem nthElement_toNat (xs : List UInt64) (n : Nat) :
    (nthElement xs n).toNat = OrderStatistic.smallest (xs.map UInt64.toNat) (n + 1) := by
  have same := List.map_insertionSort (· ≤ ·) (· ≤ ·) UInt64.toNat xs
    fun a _ b _ => UInt64.le_iff_toNat_le
  rw [nthElement, OrderStatistic.smallest, OrderStatistic.sorted, ← same, Nat.add_sub_cancel]
  simp only [List.getD_eq_getElem?_getD, List.getElem?_map]
  cases (xs.insertionSort (· ≤ ·))[n]? <;> rfl

theorem length_interArrivalNs (events : List ReplayEvent) :
    (interArrivalNs events).length = (Tiling.gaps (times events)).length := by
  fun_induction interArrivalNs events with
  | case1 => rfl
  | case2 => rfl
  | case3 before event rest delta ih => simp [times, Tiling.gaps, ih]

section Capture

variable (capture : Replayable events)

include capture

theorem gap_lt {gap : Nat} (member : gap ∈ Tiling.gaps (times events)) : gap < 2 ^ 63 := by
  have within := Tiling.gap_le_span (times_ordered_iff.mpr capture.ordered) member
  have bound := span_lt capture
  omega

theorem medianIntervalNs_toNat :
    (medianIntervalNs events).toNat = Tiling.medianGap (times events) := by
  have gaps := interArrivalNs_toNat (times_ordered_iff.mpr capture.ordered)
    fun gap member => gap_lt capture member
  rw [medianIntervalNs, if_neg (Nat.not_lt.mpr capture.many), nthElement_toNat, gaps,
    length_interArrivalNs]
  rfl

theorem medianGap_lt : Tiling.medianGap (times events) < 2 ^ 63 := by
  have within := Tiling.medianGap_le_span (times_ordered_iff.mpr capture.ordered)
    (by rw [length_times]; exact capture.many)
  have bound := span_lt capture
  omega

theorem sweepStride_eq :
    sweepStride events = some (Int64.ofInt (Tiling.stride (times events))) := by
  -- The stride is the exact one, as far as a word can hold it.
  have median := medianIntervalNs_toNat capture
  have bound := medianGap_lt capture
  have advances := capture.advances
  rw [← Int64.not_le] at advances
  rw [sweepStride, if_neg (Nat.not_lt.mpr capture.many), if_neg advances, Option.some.injEq,
    Tiling.stride, Int64.ofInt_add, ← span_times capture, Int64.ofInt_toInt, Tiling.splice]
  congr 1
  split
  next zero =>
    rw [← median, zero]
    rfl
  next nonzero =>
    have positive : 0 < (medianIntervalNs events).toNat :=
      Nat.pos_of_ne_zero fun zero => nonzero (UInt64.toNat_inj.mp zero)
    rw [← median, max_eq_right positive, ← Int64.toInt_inj,
      MachineInt.toInt_toInt64 _ (by omega), Int64.toInt_ofInt_of_le (by omega) (by omega)]

end Capture

end Times

section Copies

variable {events : List ReplayEvent} {loops : UInt64}

theorem shifted_toInt {ts : Int64} {k : Nat} {stride : Int}
    (fits : Fits (ts.toInt + (k : Int) * stride)) :
    (ts + (UInt64.ofNat k).toInt64 * Int64.ofInt stride).toInt = ts.toInt + k * stride := by
  have word : ts + (UInt64.ofNat k).toInt64 * Int64.ofInt stride =
      Int64.ofInt (ts.toInt + (k : Int) * stride) := by
    rw [Int64.ofInt_add, Int64.ofInt_mul, Int64.ofInt_toInt, UInt64.toInt64_ofNat',
      Int64.ofInt_eq_ofNat]
  rw [word, toInt_ofInt_of_fits fits]

theorem times_tileCapture (some_ : events ≠ []) (fits : TimesFit events loops.toNat) :
    times (tileCapture events loops (Int64.ofInt (Tiling.stride (times events)))) =
      Tiling.tiled (times events) loops.toNat := by
  rcases Nat.eq_zero_or_pos loops.toNat with none | positive
  · rw [none, tileCapture, if_pos (Or.inr (UInt64.toNat_inj.mp none))]
    rfl
  · have runs : ¬ (events.isEmpty ∨ loops = 0) := by
      rintro (empty | zero)
      · exact some_ (List.isEmpty_iff.mp empty)
      · rw [zero] at positive
        contradiction
    rw [tileCapture, if_neg runs, times, List.map_flatMap, Tiling.tiled]
    apply List.flatMap_congr
    intro k within
    rw [times, List.map_map, List.map_map]
    apply List.map_congr_left
    intro e member
    apply shifted_toInt
    apply fits
    rw [Tiling.mem_tiled]
    exact ⟨k, List.mem_range.mp within, _, List.mem_map_of_mem member, rfl⟩

theorem frames_tileCapture (stride : Timestamp) :
    (tileCapture events loops stride).map ReplayEvent.frame =
      (List.replicate loops.toNat (events.map ReplayEvent.frame)).flatten := by
  unfold tileCapture
  split
  next stops =>
    rcases stops with empty | zero
    · simp [List.isEmpty_iff.mp empty]
    · rw [zero]
      rfl
  next =>
    rw [List.map_flatMap, List.flatMap_def]
    simp only [List.map_map, Function.comp_def]
    rw [List.map_const', List.length_range]

end Copies

structure Timeline (events : List ReplayEvent) (loops : Nat) (tiled : List ReplayEvent) : Prop where
  length : tiled.length = loops * events.length
  ordered : tiled.Pairwise fun earlier later => earlier.tsRecv ≤ later.tsRecv
  gaps : Tiling.gaps (times tiled) =
    List.intercalate [Tiling.splice (times events)]
      (List.replicate loops (Tiling.gaps (times events)))
  frames : tiled.map ReplayEvent.frame =
    (List.replicate loops (events.map ReplayEvent.frame)).flatten

def upTo (cutoff : Timestamp) (tiled : List ReplayEvent) : List ReplayEvent :=
  tiled.filter fun e => e.tsRecv ≤ cutoff

/-- What a cutoff leaves of a timeline: the events that are not after it, and at least two. -/
structure Kept (tiled : List ReplayEvent) (cutoff : Timestamp) (kept : List ReplayEvent) :
    Prop where
  several : 2 ≤ kept.length
  exactly : 2 ≤ (upTo cutoff tiled).length → kept = upTo cutoff tiled
  few : (upTo cutoff tiled).length < 2 → kept = tiled.take 2

section Timelines

variable {events : List ReplayEvent} {loops : UInt64}

theorem timeline_tileCapture (capture : Replayable events) (fits : TimesFit events loops.toNat) :
    Timeline events loops.toNat
      (tileCapture events loops (Int64.ofInt (Tiling.stride (times events)))) := by
  have some_ : events ≠ [] := by
    obtain ⟨first, middle, last, rfl⟩ := ends_of_many capture.many
    exact List.cons_ne_nil _ _
  have exact_ := times_tileCapture some_ fits
  have ordered := times_ordered_iff.mpr capture.ordered
  constructor
  case length => rw [← length_times, exact_, Tiling.length_tiled, length_times]
  case ordered =>
    rw [← times_ordered_iff, exact_]
    exact Tiling.pairwise_tiled ordered _
  case gaps =>
    rw [exact_]
    apply Tiling.gaps_tiled
    exact fun empty => some_ (List.map_eq_nil_iff.mp empty)
  case frames => exact frames_tileCapture _

theorem kept_cutBudget {tiled : List ReplayEvent} (many : 2 ≤ tiled.length)
    (ordered : tiled.Pairwise fun earlier later => earlier.tsRecv ≤ later.tsRecv)
    (cutoff : Timestamp) : Kept tiled cutoff (cutBudget tiled cutoff) := by
  have closed : tiled.Pairwise fun earlier later =>
      decide (later.tsRecv ≤ cutoff) = true → decide (earlier.tsRecv ≤ cutoff) = true := by
    apply ordered.imp
    intro earlier later before inside
    rw [decide_eq_true_eq] at inside ⊢
    exact Int64.le_trans before inside
  have point := PartitionPoint.partitionPoint_eq closed
  have front := PartitionPoint.take_partitionPoint closed
  rw [cutBudget]
  constructor
  case several =>
    split
    next => rw [List.length_take, min_eq_left many]
    next enough =>
      rw [front, ← point]
      exact Nat.le_of_not_lt enough
  case exactly =>
    intro enough
    rw [upTo, ← point] at enough
    rw [if_neg (Nat.not_lt.mpr enough), front, upTo]
  case few =>
    intro few
    rw [upTo, ← point] at few
    rw [if_pos few]

theorem many_tiled {tiled : List ReplayEvent} (capture : Replayable events)
    (timeline : Timeline events loops.toNat tiled) (runs : 0 < loops) : 2 ≤ tiled.length := by
  have positive : 1 ≤ loops.toNat := UInt64.lt_iff_toNat_lt.mp runs
  rw [timeline.length]
  calc 2 ≤ events.length := capture.many
    _ = 1 * events.length := (Nat.one_mul _).symm
    _ ≤ loops.toNat * events.length := Nat.mul_le_mul_right _ positive

theorem tileCapture_ordered (capture : Replayable events) (fits : TimesFit events loops.toNat) :
    ∃ stride, sweepStride events = some stride ∧
      Timeline events loops.toNat (tileCapture events loops stride) ∧
      (0 < loops → ∀ cutoff, Kept (tileCapture events loops stride) cutoff
        (cutBudget (tileCapture events loops stride) cutoff)) := by
  have timeline := timeline_tileCapture capture fits
  refine ⟨_, sweepStride_eq capture, timeline, ?_⟩
  intro runs cutoff
  exact kept_cutBudget (many_tiled capture timeline runs) timeline.ordered cutoff

def burst : List ReplayEvent := [⟨5, [1]⟩, ⟨5, [2]⟩, ⟨9, [3]⟩, ⟨20, [4]⟩]

theorem tileCapture_ordered_burst :
    ∃ stride, sweepStride burst = some stride ∧
      Timeline burst (2 : UInt64).toNat (tileCapture burst 2 stride) ∧
      ((0 : UInt64) < 2 → ∀ cutoff, Kept (tileCapture burst 2 stride) cutoff
        (cutBudget (tileCapture burst 2 stride) cutoff)) := by
  have fits : TimesFit burst (2 : UInt64).toNat := by
    unfold TimesFit
    decide
  have capture : Replayable burst := ⟨by decide, by decide, by decide⟩
  exact tileCapture_ordered capture fits

end Timelines

section Rungs

theorem min_pos {a b : UInt64} (left : 0 < a) (right : 0 < b) : 0 < min a b := by
  change 0 < if a ≤ b then a else b
  split
  next => exact left
  next => exact right

theorem sweepLoops_pos (perLoop wanted : UInt64) (budget : Option Budget) :
    0 < sweepLoops perLoop wanted budget := by
  have positive : 0 < (if (wanted + perLoop - 1) / perLoop = 0 then 1
      else (wanted + perLoop - 1) / perLoop) := by
    split
    next => decide
    next nonzero => exact UInt64.pos_iff_ne_zero.mpr nonzero
  cases budget with
  | none => exact positive
  | some budget =>
    have small := budget.strides_small
    have more : 0 < budget.strides + 1 := by
      rw [UInt64.lt_iff_toNat_lt, UInt64.toNat_add]
      change 0 < _ % 2 ^ 64
      rw [UInt64.toNat_one]
      omega
    exact min_pos positive more

theorem sweepTiled_ordered {events : List ReplayEvent} (capture : Replayable events)
    {stride : Timestamp} (stepped : sweepStride events = some stride) (wanted : UInt64)
    (budget : Option Budget)
    (fits : TimesFit events (sweepLoops (UInt64.ofNat events.length) wanted budget).toNat) :
    2 ≤ (sweepTiled events stride wanted budget).length ∧
      (sweepTiled events stride wanted budget).Pairwise
        fun earlier later => earlier.tsRecv ≤ later.tsRecv := by
  have runs := sweepLoops_pos (UInt64.ofNat events.length) wanted budget
  have timeline := timeline_tileCapture capture fits
  have many := many_tiled capture timeline runs
  rw [sweepStride_eq capture, Option.some.injEq] at stepped
  subst stepped
  obtain ⟨first, middle, last, rfl⟩ := ends_of_many capture.many
  cases budget with
  | none => exact ⟨many, timeline.ordered⟩
  | some budget =>
    have kept := kept_cutBudget many timeline.ordered (first.tsRecv + budget.span)
    refine ⟨kept.several, ?_⟩
    exact timeline.ordered.sublist (List.take_sublist _ _)

end Rungs

end Replay

end Crossbook
