import Crossbook.Consolidated.ArrivalOrder
import Crossbook.Execution.Comparison

set_option autoImplicit false

namespace Crossbook

open Lot (cost volume fill)

theorem le_awayFromZero {num : Int} {d : Nat} (positive : 0 < d) (nonneg : 0 ≤ num) :
    num ≤ awayFromZero num d * d := by
  have whole := Int.mul_tdiv_add_tmod num d
  have small := Int.tmod_lt_of_pos num (b := d) (by omega)
  rw [awayFromZero_of_pos num d positive, if_neg (by omega : ¬ num < 0)]
  split <;> linarith

theorem adjustedPrice_conservative (side : Side) {price taker : Int} (nonneg : 0 ≤ price)
    (fee : 0 ≤ taker) :
    match side with
    | .ask => price * (1000000 + taker) ≤ adjustedPrice .ask price taker * 1000000
    | .bid => adjustedPrice .bid price taker * 1000000 ≤ price * (1000000 - taker) := by
  have rounded : price * taker ≤ awayFromZero (price * taker) 1000000 * 1000000 :=
    le_awayFromZero (by decide) (mul_nonneg nonneg fee)
  cases side with
  | ask =>
    dsimp only [adjustedPrice]
    linarith
  | bid =>
    dsimp only [adjustedPrice]
    linarith

def NeverFlatters (side : Side) (notional quantity taker effective : Int) : Prop :=
  match side with
  | .ask => notional * (1000000 + taker) ≤ effective * quantity * 1000000
  | .bid => taker ≤ 1000000 → effective * quantity * 1000000 ≤ notional * (1000000 - taker)

theorem neverFlatters_of_fills {side : Side} {levels : List Level} {wanted taker : Int}
    {answer : Execution} (fills : answer.Fills side levels wanted) (some : levels ≠ [])
    (resting : ∀ level ∈ levels, level.Resting) (wanting : 0 < wanted) (fee : 0 ≤ taker) :
    NeverFlatters side (cost (fill wanted (lots levels))) answer.qty.units.toInt taker
      (adjustedPrice side answer.vwap.ticks.toInt taker) := by
  have positive := volume_fill_pos some resting wanting
  have nonneg := fills.vwap_nonneg resting wanting
  -- The mean and the fee are each rounded against the taker, so the two errors add up.
  have rounding := fills.vwap
  have adjusted := adjustedPrice_conservative side nonneg fee
  rw [← fills.quantity] at positive rounding
  generalize cost (fill wanted (lots levels)) = notional at rounding ⊢
  generalize answer.qty.units.toInt = quantity at positive rounding ⊢
  cases side with
  | ask =>
    have above : notional ≤ answer.vwap.ticks.toInt * quantity :=
      (Rounding.ceil_div_le positive).mp rounding.ge
    calc notional * (1000000 + taker)
        ≤ answer.vwap.ticks.toInt * quantity * (1000000 + taker) :=
          mul_le_mul_of_nonneg_right above (by omega)
      _ = answer.vwap.ticks.toInt * (1000000 + taker) * quantity := by ring
      _ ≤ adjustedPrice .ask answer.vwap.ticks.toInt taker * 1000000 * quantity :=
          mul_le_mul_of_nonneg_right adjusted positive.le
      _ = adjustedPrice .ask answer.vwap.ticks.toInt taker * quantity * 1000000 := by ring
  | bid =>
    intro limited
    have below : answer.vwap.ticks.toInt * quantity ≤ notional :=
      (Rounding.le_floor_div positive).mp rounding.le
    calc adjustedPrice .bid answer.vwap.ticks.toInt taker * quantity * 1000000
        = adjustedPrice .bid answer.vwap.ticks.toInt taker * 1000000 * quantity := by ring
      _ ≤ answer.vwap.ticks.toInt * (1000000 - taker) * quantity :=
          mul_le_mul_of_nonneg_right adjusted positive.le
      _ = answer.vwap.ticks.toInt * quantity * (1000000 - taker) := by ring
      _ ≤ notional * (1000000 - taker) := mul_le_mul_of_nonneg_right below (by omega)

section Winner

variable {S : Type} [SideImpl S] [LawfulSideImpl S]

theorem bestExecution_never_flatters (spec : InstrumentSpec) (maxAgeNs : Timestamp)
    (staleness : StalenessPolicy) (history : List ConsolidatedBook.Call)
    (books : Bytes → Option (BasicL2Book S))
    (reached : ∀ venue book, books venue = some book → book.Reached) (side : Side) (wanted : Qty)
    (now : Timestamp) :
    let consolidated :=
      history.foldl ConsolidatedBook.call (ConsolidatedBook.new spec maxAgeNs staleness)
    let result := bestExecution consolidated side wanted now books
    result.found = true →
      ∃ quote ∈ consolidated.quotes, ∃ book, result.venue = quote.venue ∧
        books quote.venue = some book ∧ result.execution = costToTrade book side wanted ∧
          NeverFlatters side (cost (fill wanted.units.toInt (lots (book.levels side))))
            result.execution.qty.units.toInt quote.fees.taker.toInt
            result.effectiveVwap.ticks.toInt := by
  intro consolidated result found
  have mirrors := ConsolidatedBook.mirrors_latest spec maxAgeNs staleness history
  obtain ⟨winner, wins, ⟨quote, listed, book, answers⟩, -⟩ :=
    bestExecution_wins mirrors.distinct side wanted now books found
  have resting := (reached quote.venue book answers.supplied).resting side
  have traded := costToTrade_ok resting (by simpa [Execution.ok] using answers.ok)
  have fee := (mirrors.accepted quote listed).taker
  have execution : result.execution = costToTrade book side wanted :=
    wins.execution.trans answers.execution
  have effective : result.effectiveVwap.ticks.toInt =
      adjustedPrice side (costToTrade book side wanted).vwap.ticks.toInt
        quote.fees.taker.toInt := by
    rw [wins.effectiveVwap, answers.effective, answers.execution]
  refine ⟨quote, listed, book, wins.venue.trans answers.venue, answers.supplied, execution, ?_⟩
  rw [execution, effective]
  exact neverFlatters_of_fills traded.fills traded.some resting traded.wanting fee

-- Three of the four units are bought at the touch; the mean and the fee are rounded up.
theorem bestExecution_never_flatters_kraken :
    let consolidated := [ConsolidatedBook.Call.update
        (ConsolidatedBook.testQuote "kraken" 452800 452835 2600)].foldl ConsolidatedBook.call
      (ConsolidatedBook.new ConsolidatedBook.testSpec 0 .disabled)
    let book : MapBook := (BasicL2Book.new ConsolidatedBook.testSpec).run
      [.apply .ask ⟨452835⟩ ⟨3⟩, .apply .ask ⟨452838⟩ ⟨9⟩]
    let result := bestExecution consolidated .ask ⟨4⟩ 7 fun _ => some book
    result.found = true ∧
      ∃ quote ∈ consolidated.quotes, ∃ held, result.venue = quote.venue ∧
        some book = some held ∧ result.execution = costToTrade held .ask ⟨4⟩ ∧
          NeverFlatters .ask (cost (fill 4 (lots (held.levels .ask))))
            result.execution.qty.units.toInt quote.fees.taker.toInt
            result.effectiveVwap.ticks.toInt := by
  intro consolidated book result
  have found : result.found = true := by decide +kernel
  refine ⟨found, bestExecution_never_flatters ConsolidatedBook.testSpec 0 .disabled _
    (fun _ => some book) ?_ .ask ⟨4⟩ 7 found⟩
  intro venue held same
  exact Option.some.inj same ▸ .after _ (BasicL2Book.levels_new _) _

end Winner

end Crossbook
