import Crossbook.Execution.Resting
import Crossbook.Lib.Lots

set_option autoImplicit false

namespace Crossbook

open Lot (cost volume fill Positive Ascending reprice)

def Level.lot (level : Level) : Lot Int := ⟨level.ticks, level.units⟩

def lots (levels : List Level) : List (Lot Int) := levels.map Level.lot

def outward : Side → Int
  | .ask => 1
  | .bid => -1

def roundedMean (side : Side) (notional quantity : Int) : Int :=
  match side with
  | .ask => ⌈(notional : ℚ) / quantity⌉
  | .bid => ⌊(notional : ℚ) / quantity⌋

theorem toInt_conservativeVwap (notional qty : Int64) (side : Side) (positive : 0 < qty.toInt) :
    (conservativeVwap notional qty side).toInt = roundedMean side notional.toInt qty.toInt := by
  cases side with
  | ask => exact toInt_ceilDiv (.of_pos positive)
  | bid => exact toInt_floorDiv (.of_pos positive)

theorem outward_roundedMean (side : Side) (notional quantity : Int) :
    outward side * roundedMean side notional quantity =
      ⌈((outward side * notional : Int) : ℚ) / quantity⌉ := by
  cases side with
  | ask => simp [outward, roundedMean]
  | bid =>
    have mirrored := Rounding.ceil_div_neg notional quantity
    simpa [outward, roundedMean] using mirrored.symm

theorem roundedMean_nonneg (side : Side) {notional quantity : Int} (left : 0 ≤ notional)
    (right : 0 ≤ quantity) : 0 ≤ roundedMean side notional quantity := by
  have ratio : (0 : ℚ) ≤ (notional : ℚ) / quantity :=
    div_nonneg (by exact_mod_cast left) (by exact_mod_cast right)
  cases side with
  | ask => exact Int.ceil_nonneg ratio
  | bid => exact Int.floor_nonneg.mpr ratio

theorem precedes_outward {side : Side} {a b : Int64} (before : precedes side a b = true) :
    outward side * a.toInt < outward side * b.toInt := by
  cases side with
  | ask =>
    have less := Int64.lt_iff_toInt_lt.mp (of_decide_eq_true before)
    simpa [outward] using less
  | bid =>
    have less := Int64.lt_iff_toInt_lt.mp (of_decide_eq_true before)
    simpa [outward] using less

section Lots

variable {side : Side} {levels : List Level}

@[simp] theorem lots_cons (level : Level) (rest : List Level) :
    lots (level :: rest) = level.lot :: lots rest := rfl

@[simp] theorem cost_lots (levels : List Level) : cost (lots levels) = totalNotional levels := by
  simp only [cost, lots, totalNotional, List.map_map]
  rfl

@[simp] theorem volume_lots (levels : List Level) :
    volume (lots levels) = totalQuantity levels := by
  simp [volume, lots, totalQuantity, Level.lot, Function.comp_def]

theorem lots_positive (resting : ∀ level ∈ levels, level.Resting) : Positive (lots levels) := by
  intro lot member
  obtain ⟨level, inside, rfl⟩ := List.mem_map.mp member
  exact (resting level inside).quantity

theorem lots_priced (resting : ∀ level ∈ levels, level.Resting) :
    ∀ lot ∈ lots levels, 0 ≤ lot.price := by
  intro lot member
  obtain ⟨level, inside, rfl⟩ := List.mem_map.mp member
  exact (resting level inside).price

theorem volume_fill_pos (some : levels ≠ [])
    (resting : ∀ level ∈ levels, level.Resting) {wanted : Int} (positive : 0 < wanted) :
    0 < volume (fill wanted (lots levels)) := by
  apply Lot.volume_pos (Lot.fill_positive positive (lots_positive resting))
  simpa [Lot.fill_eq_nil, lots] using some

theorem fill_front {front : List Level} (first : front <+: levels) (some : front ≠ [])
    (resting : ∀ level ∈ front, level.Resting) :
    fill (totalQuantity front) (lots levels) = lots front := by
  obtain ⟨back, rfl⟩ := first
  have taken : lots front ≠ [] := by simpa [lots] using some
  have split : lots (front ++ back) = lots front ++ lots back := List.map_append
  rw [← volume_lots, split]
  exact Lot.fill_volume taken (lots_positive resting) _

/-- Prices as the taker sees them: they get worse along the side. -/
def outwardLots (side : Side) (levels : List Level) : List (Lot Int) :=
  (lots levels).map (reprice (outward side))

theorem outwardLots_positive (resting : ∀ level ∈ levels, level.Resting) :
    Positive (outwardLots side levels) := by
  intro lot member
  obtain ⟨source, inside, rfl⟩ := List.mem_map.mp member
  exact lots_positive resting source inside

theorem outwardLots_ascending (ordered : BookOrder side levels) :
    Ascending (outwardLots side levels) := by
  unfold Ascending outwardLots lots
  rw [List.map_map, List.pairwise_map]
  exact ordered.imp fun before => (precedes_outward before).le

theorem fill_outwardLots (wanted : Int) :
    fill wanted (outwardLots side levels) =
      (fill wanted (lots levels)).map (reprice (outward side)) :=
  Lot.fill_reprice _ _ _

theorem cost_fill_outwardLots (wanted : Int) :
    cost (fill wanted (outwardLots side levels)) =
      outward side * cost (fill wanted (lots levels)) := by
  rw [fill_outwardLots, Lot.cost_reprice]

theorem volume_fill_outwardLots (wanted : Int) :
    volume (fill wanted (outwardLots side levels)) = volume (fill wanted (lots levels)) := by
  rw [fill_outwardLots, Lot.volume_reprice]

end Lots

structure Execution.Fills (answer : Execution) (side : Side) (levels : List Level) (wanted : Int) :
    Prop where
  quantity : answer.qty.units.toInt = volume (fill wanted (lots levels))
  count : answer.levels = (fill wanted (lots levels)).length
  worst : (levels.take answer.levels).getLast?.map Level.price = some answer.limitPrice
  vwap : answer.vwap.ticks.toInt =
    roundedMean side (cost (fill wanted (lots levels))) (volume (fill wanted (lots levels)))
  slippage (touch : Level) : levels.head? = some touch →
    answer.slippage = bpsBetween touch.price.ticks answer.vwap.ticks

section Walked

variable {side : Side} {levels : List Level} {touch : Level} {worst : Price}

theorem touch_outward_le (ordered : BookOrder side levels) (first : levels.head? = some touch) :
    ∀ level ∈ levels, outward side * touch.ticks ≤ outward side * level.ticks := by
  intro level member
  obtain ⟨rest, rfl⟩ := List.head?_eq_some_iff.mp first
  rcases List.mem_cons.mp member with rfl | later
  · exact le_rfl
  · exact (precedes_outward ((List.pairwise_cons.mp ordered).1 level later)).le

theorem outward_le_last (ordered : BookOrder side levels)
    (last : levels.getLast?.map Level.price = some worst) :
    ∀ level ∈ levels, outward side * level.ticks ≤ outward side * worst.ticks.toInt := by
  intro level member
  obtain ⟨final, found, rfl⟩ := Option.map_eq_some_iff.mp last
  obtain ⟨front, rfl⟩ := List.getLast?_eq_some_iff.mp found
  rcases List.mem_append.mp member with earlier | here
  · have before := (List.pairwise_append.mp ordered).2.2 level earlier final (by simp)
    exact (precedes_outward before).le
  · rw [List.mem_singleton.mp here]
    exact le_rfl

theorem last_mem (last : levels.getLast?.map Level.price = some worst) :
    ∃ level ∈ levels, level.price = worst := by
  obtain ⟨final, found, same⟩ := Option.map_eq_some_iff.mp last
  exact ⟨final, List.mem_of_getLast? found, same⟩

end Walked

namespace Execution.Fills

variable {side : Side} {levels : List Level} {answer : Execution} {wanted : Int}

theorem unique {other : Execution} (some : levels ≠ []) (left : answer.Fills side levels wanted)
    (right : other.Fills side levels wanted) :
    answer.qty = other.qty ∧ answer.vwap = other.vwap ∧ answer.limitPrice = other.limitPrice ∧
      answer.levels = other.levels ∧ answer.slippage = other.slippage := by
  have first := List.head?_eq_some_head some
  have quantity : answer.qty = other.qty :=
    congrArg Qty.mk (Int64.toInt_inj.mp (left.quantity.trans right.quantity.symm))
  have vwap : answer.vwap = other.vwap :=
    congrArg Price.mk (Int64.toInt_inj.mp (left.vwap.trans right.vwap.symm))
  have count := left.count.trans right.count.symm
  have worst := left.worst
  rw [count, right.worst] at worst
  refine ⟨quantity, vwap, (Option.some.inj worst).symm, count, ?_⟩
  rw [left.slippage _ first, right.slippage _ first, vwap]

theorem outward_vwap (fills : answer.Fills side levels wanted) :
    outward side * answer.vwap.ticks.toInt =
      ⌈((cost (fill wanted (outwardLots side levels)) : Int) : ℚ) /
        volume (fill wanted (outwardLots side levels))⌉ := by
  rw [fills.vwap, outward_roundedMean, cost_fill_outwardLots, volume_fill_outwardLots]

theorem outward_le_worst (fills : answer.Fills side levels wanted)
    (ordered : BookOrder side levels) :
    ∀ lot ∈ fill wanted (outwardLots side levels),
      lot.price ≤ outward side * answer.limitPrice.ticks.toInt := by
  intro lot member
  have front : BookOrder side (levels.take answer.levels) :=
    ordered.sublist (List.take_sublist _ _)
  have listed : lot.price ∈ (fill wanted (outwardLots side levels)).map Lot.price :=
    List.mem_map_of_mem member
  rw [Lot.map_price_fill, fill_outwardLots, List.length_map, ← fills.count, outwardLots, lots,
    ← List.map_take, ← List.map_take, List.map_map, List.map_map] at listed
  obtain ⟨level, inside, same⟩ := List.mem_map.mp listed
  rw [← same]
  exact outward_le_last front fills.worst level inside

theorem vwap_nonneg (fills : answer.Fills side levels wanted)
    (resting : ∀ level ∈ levels, level.Resting) (positive : 0 < wanted) :
    0 ≤ answer.vwap.ticks.toInt := by
  have sizes := Lot.fill_positive positive (lots_positive resting)
  have priced := Lot.mul_volume_le_cost sizes (Lot.above_fill (lots_priced resting))
  rw [zero_mul] at priced
  rw [fills.vwap]
  exact roundedMean_nonneg side priced (Lot.volume_nonneg sizes)

theorem bracket (fills : answer.Fills side levels wanted) (ordered : BookOrder side levels)
    (resting : ∀ level ∈ levels, level.Resting) (positive : 0 < wanted) {touch : Level}
    (first : levels.head? = some touch) :
    outward side * touch.ticks ≤ outward side * answer.vwap.ticks.toInt ∧
      outward side * answer.vwap.ticks.toInt ≤ outward side * answer.limitPrice.ticks.toInt := by
  have some : levels ≠ [] := List.ne_nil_of_mem (List.mem_of_head? first)
  have sizes : Positive (fill wanted (outwardLots side levels)) :=
    Lot.fill_positive positive (outwardLots_positive resting)
  have held : 0 < volume (fill wanted (outwardLots side levels)) := by
    rw [volume_fill_outwardLots]
    exact volume_fill_pos some resting positive
  rw [fills.outward_vwap]
  constructor
  · apply Rounding.le_ceil_div held
    apply Lot.mul_volume_le_cost sizes
    apply Lot.above_fill
    intro lot member
    obtain ⟨source, listed, rfl⟩ := List.mem_map.mp member
    obtain ⟨level, inside, rfl⟩ := List.mem_map.mp listed
    exact touch_outward_le ordered first level inside
  · rw [Rounding.ceil_div_le held]
    exact Lot.cost_le_mul_volume sizes (fills.outward_le_worst ordered)

theorem mono {other : Execution} {more : Int} (left : answer.Fills side levels wanted)
    (right : other.Fills side levels more) (ordered : BookOrder side levels)
    (resting : ∀ level ∈ levels, level.Resting) (some : levels ≠ []) (positive : 0 < wanted)
    (larger : wanted ≤ more) :
    answer.qty.units.toInt ≤ other.qty.units.toInt ∧ answer.levels ≤ other.levels ∧
      outward side * answer.vwap.ticks.toInt ≤ outward side * other.vwap.ticks.toInt ∧
        outward side * answer.limitPrice.ticks.toInt ≤
          outward side * other.limitPrice.ticks.toInt := by
  have sizes := lots_positive resting
  have further := positive.trans_le larger
  have count : answer.levels ≤ other.levels := by
    rw [left.count, right.count]
    exact Lot.length_fill_mono larger _
  refine ⟨?_, count, ?_, ?_⟩
  · rw [left.quantity, right.quantity, Lot.volume_fill positive sizes,
      Lot.volume_fill further sizes]
    exact min_le_min_right _ larger
  · rw [left.outward_vwap, right.outward_vwap]
    apply Rounding.ceil_div_mono
    · rw [volume_fill_outwardLots]
      exact volume_fill_pos some resting positive
    · rw [volume_fill_outwardLots]
      exact volume_fill_pos some resting further
    · exact Lot.mean_fill_mono positive larger (outwardLots_positive resting)
        (outwardLots_ascending ordered)
  · obtain ⟨level, inside, same⟩ := last_mem left.worst
    have also : level ∈ levels.take other.levels := List.take_subset_take_left _ count inside
    have last := outward_le_last (ordered.sublist (List.take_sublist _ _)) right.worst level also
    rwa [Level.ticks, same] at last

end Execution.Fills

end Crossbook
