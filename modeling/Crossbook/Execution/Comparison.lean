import Crossbook.Execution.CostToTrade

set_option autoImplicit false

namespace Crossbook

open Lot (cost volume fill)

section Comparison

variable {S : Type} [SideImpl S] [LawfulSideImpl S] {book : BasicL2Book S} {side : Side}

structure Traded (side : Side) (levels : List Level) (wanted : Int) (answer : Execution) : Prop where
  wanting : 0 < wanted
  some : levels ≠ []
  fills : answer.Fills side levels wanted
  exhausted : answer.depthExhausted = true ↔ totalQuantity levels < wanted

theorem costToTrade_ok {wanted : Qty} (resting : ∀ level ∈ book.levels side, level.Resting)
    (ok : (costToTrade book side wanted).status = .ok) :
    Traded side (book.levels side) wanted.units.toInt (costToTrade book side wanted) := by
  have accepted : ¬ wanted.units ≤ 0 := by
    intro refused
    unfold costToTrade at ok
    rw [if_pos refused] at ok
    exact absurd ok (by decide)
  have positive : 0 < wanted.units.toInt := by
    rw [Int64.le_iff_toInt_le, Int64.toInt_zero] at accepted
    omega
  cases costToTrade_answer book side wanted resting positive with
  | empty none answer => exact absurd (answer ▸ ok) (by decide)
  | overflow some large answer => exact absurd (answer ▸ ok) (by decide)
  | ok some fits _ fills exhausted => exact ⟨positive, some, fills, exhausted⟩

structure Sized (side : Side) (levels : List Level) (slippage : Int) (touch : Level)
    (answer : Execution) : Prop where
  budget : 0 ≤ slippage
  first : levels.head? = some touch
  fits : TotalsFit (reachable levels touch.ticks slippage)
  front : reachable levels touch.ticks slippage <+: levels
  fills : answer.Fills side levels (totalQuantity (reachable levels touch.ticks slippage))

theorem executableSize_ok {slippage : CentiBps}
    (resting : ∀ level ∈ book.levels side, level.Resting)
    (ok : (executableSize book side slippage).status = .ok) :
    ∃ touch, Sized side (book.levels side) slippage.toInt touch
      (executableSize book side slippage) := by
  have accepted : ¬ slippage < 0 := by
    intro refused
    unfold executableSize at ok
    rw [if_pos refused] at ok
    exact absurd ok (by decide)
  have budget : 0 ≤ slippage.toInt := by
    rw [Int64.lt_iff_toInt_lt, Int64.toInt_zero] at accepted
    omega
  cases executableSize_answer book side slippage budget resting with
  | empty none answer => exact absurd (answer ▸ ok) (by decide)
  | overflow touch _ _ answer => exact absurd (answer ▸ ok) (by decide)
  | ok touch first fits _ front fills _ =>
    simp only [SizeOverflows, not_or, not_not] at fits
    exact ⟨touch, budget, first, fits.2.2, front, fills⟩

theorem Sized.covered_pos {levels : List Level} {slippage : Int} {touch : Level}
    {answer : Execution} (sized : Sized side levels slippage touch answer)
    (resting : ∀ level ∈ levels, level.Resting) :
    0 < totalQuantity (reachable levels touch.ticks slippage) := by
  have here := resting touch (List.mem_of_head? sized.first)
  exact totalQuantity_pos (reachable_resting resting _ _)
    (touch_reachable sized.first (mul_nonneg here.price sized.budget))

theorem Sized.filled {levels : List Level} {slippage : Int} {touch : Level} {answer : Execution}
    (sized : Sized side levels slippage touch answer)
    (resting : ∀ level ∈ levels, level.Resting) :
    fill (totalQuantity (reachable levels touch.ticks slippage)) (lots levels) =
      lots (reachable levels touch.ticks slippage) := by
  have positive := sized.covered_pos resting
  refine fill_front sized.front ?_ (reachable_resting resting _ _)
  intro none
  simp [none, totalQuantity] at positive

theorem Sized.covers {levels : List Level} {slippage : Int} {touch : Level} {answer : Execution}
    (sized : Sized side levels slippage touch answer)
    (resting : ∀ level ∈ levels, level.Resting) :
    answer.qty.units.toInt = totalQuantity (reachable levels touch.ticks slippage) ∧
      levels.take answer.levels = reachable levels touch.ticks slippage := by
  have filled := sized.filled resting
  constructor
  · rw [sized.fills.quantity, filled, volume_lots]
  · rw [sized.fills.count, filled, lots, List.length_map]
    exact (List.prefix_iff_eq_take.mp sized.front).symm

/-- Both walks give the same answer on the size that one of them found. -/
theorem costToTrade_executableSize (book : BasicL2Book S) (built : book.Built) (side : Side)
    (slippage : CentiBps) (ok : (executableSize book side slippage).status = .ok) :
    let size := executableSize book side slippage
    let cost := costToTrade book side size.qty
    cost.status = .ok ∧ cost.qty = size.qty ∧ cost.vwap = size.vwap ∧
      cost.limitPrice = size.limitPrice ∧ cost.levels = size.levels ∧
        cost.slippage = size.slippage ∧ cost.depthExhausted = false := by
  intro size trade
  have resting := built.resting side
  obtain ⟨touch, sized⟩ := executableSize_ok resting ok
  have positive := sized.covered_pos resting
  have quantity : size.qty.units.toInt =
      totalQuantity (reachable (book.levels side) touch.ticks slippage.toInt) :=
    (sized.covers resting).1
  have fits : Fits (cost (fill size.qty.units.toInt (lots (book.levels side)))) := by
    rw [quantity, sized.filled resting, cost_lots]
    exact sized.fits.notional
  cases costToTrade_answer book side size.qty resting (quantity ▸ positive) with
  | empty none answer =>
    have first := sized.first
    rw [none] at first
    exact nomatch first
  | overflow _ large answer => exact absurd fits large
  | ok levels _ ok fills exhausted =>
    obtain ⟨qty, vwap, limitPrice, count, slip⟩ :=
      fills.unique levels (quantity ▸ sized.fills)
    refine ⟨ok, qty, vwap, limitPrice, count, slip, ?_⟩
    have enough := totalQuantity_front sized.front resting
    rw [← Bool.not_eq_true, exhausted]
    omega

theorem costToTrade_executableSize_limit :
    let book : MapBook := (((BasicL2Book.new ⟨bytes "BTC/USD", 1, 8⟩).apply .ask ⟨100⟩ ⟨3⟩).1.apply
      .ask ⟨105⟩ ⟨4⟩).1.apply .ask ⟨106⟩ ⟨9⟩ |>.1
    let size := executableSize book .ask 50000
    let cost := costToTrade book .ask size.qty
    size.status = .ok ∧ cost.status = .ok ∧ cost.qty = size.qty ∧ cost.vwap = size.vwap ∧
      cost.limitPrice = size.limitPrice ∧ cost.levels = size.levels ∧
        cost.slippage = size.slippage ∧ cost.depthExhausted = false :=
  ⟨by decide +kernel, costToTrade_executableSize _
    (.apply _ _ _ (.apply _ _ _ (.apply _ _ _ (BasicL2Book.built_new _)))) .ask 50000
    (by decide +kernel)⟩

def NoBetter (side : Side) (earlier later : Price) : Prop :=
  match side with
  | .ask => earlier.ticks ≤ later.ticks
  | .bid => later.ticks ≤ earlier.ticks

theorem noBetter_of_outward {earlier later : Price}
    (ordered : outward side * earlier.ticks.toInt ≤ outward side * later.ticks.toInt) :
    NoBetter side earlier later := by
  cases side with
  | ask =>
    rw [NoBetter, Int64.le_iff_toInt_le]
    simpa [outward] using ordered
  | bid =>
    rw [NoBetter, Int64.le_iff_toInt_le]
    simpa [outward] using ordered

structure CostsMore (side : Side) (less more : Execution) : Prop where
  qty : less.qty.units ≤ more.qty.units
  vwap : NoBetter side less.vwap more.vwap
  limitPrice : NoBetter side less.limitPrice more.limitPrice

structure ReachesFurther (side : Side) (levels : List Level) (less more : Execution) : Prop where
  covers : less.qty.units.toInt = totalQuantity (levels.take less.levels)
  coversMore : more.qty.units.toInt = totalQuantity (levels.take more.levels)
  qty : less.qty.units ≤ more.qty.units
  levels : less.levels ≤ more.levels
  limitPrice : NoBetter side less.limitPrice more.limitPrice

theorem reachable_mono (levels : List Level) {touch narrow wide : Int} (nonneg : 0 ≤ touch)
    (wider : narrow ≤ wide) :
    (reachable levels touch narrow).Sublist (reachable levels touch wide) := by
  apply List.monotone_filter_right
  intro level inside
  rw [decide_eq_true_eq] at inside ⊢
  exact inside.trans (mul_le_mul_of_nonneg_left wider nonneg)

theorem execution_monotone (book : BasicL2Book S) (built : book.Built) (side : Side) :
    (∀ less more : Qty, less.units < more.units →
      (costToTrade book side less).status = .ok → (costToTrade book side more).status = .ok →
      CostsMore side (costToTrade book side less) (costToTrade book side more)) ∧
    (∀ narrow wide : CentiBps, narrow < wide →
      (executableSize book side narrow).status = .ok →
      (executableSize book side wide).status = .ok →
      ReachesFurther side (book.levels side) (executableSize book side narrow)
        (executableSize book side wide)) := by
  have resting := built.resting side
  have ordered := book.levels_bookOrder side
  constructor
  · intro less more larger first second
    have small := costToTrade_ok resting first
    have large := costToTrade_ok resting second
    obtain ⟨quantity, -, vwap, worst⟩ := small.fills.mono large.fills ordered resting small.some
      small.wanting (Int64.lt_iff_toInt_lt.mp larger).le
    exact ⟨Int64.le_iff_toInt_le.mpr quantity, noBetter_of_outward vwap,
      noBetter_of_outward worst⟩
  · intro narrow wide wider first second
    obtain ⟨touch, small⟩ := executableSize_ok resting first
    obtain ⟨other, large⟩ := executableSize_ok resting second
    obtain rfl := Option.some.inj (small.first.symm.trans large.first)
    have here := resting touch (List.mem_of_head? small.first)
    have inside := reachable_mono (book.levels side) here.price
      (Int64.lt_iff_toInt_lt.mp wider).le
    have more : totalQuantity (reachable (book.levels side) touch.ticks narrow.toInt) ≤
        totalQuantity (reachable (book.levels side) touch.ticks wide.toInt) := by
      apply totalQuantity_front _ (reachable_resting resting _ _)
      exact List.prefix_of_prefix_length_le small.front large.front inside.length_le
    obtain ⟨quantity, count, -, worst⟩ := small.fills.mono large.fills ordered resting
      (List.ne_nil_of_mem (List.mem_of_head? small.first)) (small.covered_pos resting) more
    have covered := small.covers resting
    have coveredMore := large.covers resting
    exact ⟨covered.2 ▸ covered.1, coveredMore.2 ▸ coveredMore.1,
      Int64.le_iff_toInt_le.mpr quantity, count, noBetter_of_outward worst⟩

theorem execution_monotone_asks :
    let book : MapBook := ((BasicL2Book.new ⟨bytes "BTC/USD", 1, 8⟩).apply .ask ⟨100⟩ ⟨3⟩).1.apply
      .ask ⟨105⟩ ⟨4⟩ |>.1
    CostsMore .ask (costToTrade book .ask ⟨3⟩) (costToTrade book .ask ⟨5⟩) ∧
      ReachesFurther .ask (book.levels .ask) (executableSize book .ask 0)
        (executableSize book .ask 50000) := by
  intro book
  have holds := execution_monotone book
    (.apply _ _ _ (.apply _ _ _ (BasicL2Book.built_new _))) .ask
  exact ⟨holds.1 ⟨3⟩ ⟨5⟩ (by decide) (by decide +kernel) (by decide +kernel),
    holds.2 0 50000 (by decide) (by decide +kernel) (by decide +kernel)⟩

end Comparison

end Crossbook
