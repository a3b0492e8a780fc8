import Crossbook.Execution.ExecutableSize
import Crossbook.Execution.Filling

set_option autoImplicit false

namespace Crossbook

open Lot (cost volume fill)

structure TradeWalk.Supplied (start : TradeWalk) (levels : List Level) (final : TradeWalk) :
    Prop where
  notional : final.notional.toInt =
    start.notional.toInt + cost (fill start.remaining.toInt (lots levels))
  remaining : final.remaining.toInt =
    start.remaining.toInt - volume (fill start.remaining.toInt (lots levels))
  limitPrice : final.limitPrice =
    ((levels.take (fill start.remaining.toInt (lots levels)).length).getLast?.map
      Level.price).getD start.limitPrice
  levels : final.levels = start.levels + (fill start.remaining.toInt (lots levels)).length

structure TradeWalk.Took (walk : TradeWalk) (level : Level) (take : Int) (next : TradeWalk) :
    Prop where
  notional : next.notional.toInt = walk.notional.toInt + level.ticks * take
  remaining : next.remaining.toInt = walk.remaining.toInt - take
  overflowed : next.overflowed = walk.overflowed
  limitPrice : next.limitPrice = level.price
  levels : next.levels = walk.levels + 1

section Steps

variable {walk next final : TradeWalk} {level : Level} {rest : List Level}

theorem tradeStep_level (resting : level.Resting) (wanting : 0 < walk.remaining.toInt)
    (sum : 0 ≤ walk.notional.toInt) :
    let take := min level.units walk.remaining.toInt
    (Fits (walk.notional.toInt + level.ticks * take) ∧ ∃ next : TradeWalk,
      tradeStep walk level = (next, decide (level.units < walk.remaining.toInt)) ∧
        walk.Took level take next) ∨
    (¬ Fits (walk.notional.toInt + level.ticks * take) ∧ ∃ next : TradeWalk,
      tradeStep walk level = (next, false) ∧ next.overflowed = true) := by
  intro take
  have units := resting.quantity
  have small := walk.remaining.toInt_lt
  generalize amount : (if level.qty.units < walk.remaining then level.qty.units
    else walk.remaining) = taken
  have value : taken.toInt = take := by
    rw [← amount, apply_ite Int64.toInt]
    simp only [Int64.lt_iff_toInt_lt, take, Level.units]
    omega
  have positive : 0 < take := lt_min units wanting
  have left : (walk.remaining - taken).toInt = walk.remaining.toInt - take := by
    rw [MachineInt.toInt_sub_of_fits _ _ (by omega) (by omega), value]
  have more : decide (0 < walk.remaining - taken) =
      decide (level.units < walk.remaining.toInt) := by
    rw [decide_eq_decide, Int64.lt_iff_toInt_lt, left, Int64.toInt_zero]
    omega
  have added (out : Int64) :
      (checkedMulSigned level.price.ticks taken).bind (checkedAddSigned walk.notional) =
          some out ↔
        Fits (walk.notional.toInt + level.ticks * take) ∧
          out.toInt = walk.notional.toInt + level.ticks * take := by
    rw [addProduct_eq_some sum resting.price (value ▸ positive.le), value]
    rfl
  unfold tradeStep
  rw [amount]
  dsimp only
  cases stepped : (checkedMulSigned level.price.ticks taken).bind
      (checkedAddSigned walk.notional) with
  | none => exact .inr ⟨unmet_of_none id added stepped, _, rfl, rfl⟩
  | some notional =>
    obtain ⟨fits, total⟩ := (added notional).mp stepped
    refine .inl ⟨fits, { walk with
      notional := notional, remaining := walk.remaining - taken, limitPrice := level.price,
      levels := walk.levels + 1 }, ?_, total, left, rfl, rfl, rfl⟩
    rw [more]

theorem head_le_cost_fill (later : ∀ level ∈ rest, level.Resting)
    (wanted : Int) :
    level.ticks * min level.units wanted ≤ cost (fill wanted (level.lot :: lots rest)) := by
  by_cases short : level.units < wanted
  · have also : level.lot.size < wanted := short
    have tail : 0 * volume (fill (wanted - level.lot.size) (lots rest)) ≤
        cost (fill (wanted - level.lot.size) (lots rest)) := by
      apply Lot.mul_volume_le_cost (Lot.fill_positive (sub_pos.mpr also) (lots_positive later))
      exact Lot.above_fill (lots_priced later)
    rw [Lot.fill_cons_of_lt also, Lot.cost_cons, min_eq_left short.le]
    rw [zero_mul] at tail
    exact le_add_of_nonneg_right tail
  · have enough : wanted ≤ level.units := not_lt.mp short
    have also : wanted ≤ level.lot.size := enough
    rw [Lot.fill_cons_of_le also, min_eq_right enough]
    simp [Level.lot]

theorem TradeWalk.Took.fill_cons (took : walk.Took level level.units next)
    (short : level.units < walk.remaining.toInt) :
    fill walk.remaining.toInt (lots (level :: rest)) =
      level.lot :: fill next.remaining.toInt (lots rest) := by
  have also : level.lot.size < walk.remaining.toInt := short
  rw [lots_cons, Lot.fill_cons_of_lt also, took.remaining]
  rfl

theorem TradeWalk.Took.cost_cons (took : walk.Took level level.units next)
    (short : level.units < walk.remaining.toInt) :
    walk.notional.toInt + cost (fill walk.remaining.toInt (lots (level :: rest))) =
      next.notional.toInt + cost (fill next.remaining.toInt (lots rest)) := by
  rw [took.fill_cons short, took.notional, Lot.cost_cons, add_assoc]
  rfl

theorem getLast?_take_succ (level : Level) (rest : List Level) (n : Nat) (start : Price) :
    (((level :: rest).take (n + 1)).getLast?.map Level.price).getD start =
      ((rest.take n).getLast?.map Level.price).getD level.price := by
  rw [List.take_succ_cons]
  cases last : (rest.take n).getLast? with
  | none => simp [List.getLast?_eq_none_iff.mp last]
  | some final => simp [List.getLast?_cons, last]

theorem TradeWalk.Took.supplied (took : walk.Took level level.units next)
    (short : level.units < walk.remaining.toInt) (tail : next.Supplied rest final) :
    walk.Supplied (level :: rest) final where
  notional := by rw [tail.notional, took.cost_cons short]
  remaining := by
    rw [took.fill_cons short, tail.remaining, took.remaining, Lot.volume_cons, sub_sub]
    rfl
  limitPrice := by
    rw [took.fill_cons short, List.length_cons, getLast?_take_succ, tail.limitPrice,
      took.limitPrice]
  levels := by
    rw [took.fill_cons short, tail.levels, took.levels, List.length_cons]
    omega

theorem TradeWalk.Took.supplied_last (took : walk.Took level walk.remaining.toInt next)
    (enough : walk.remaining.toInt ≤ level.units) : walk.Supplied (level :: rest) next := by
  have also : walk.remaining.toInt ≤ level.lot.size := enough
  have filled := Lot.fill_cons_of_le also (lots rest)
  constructor
  case notional =>
    rw [lots_cons, filled, took.notional]
    simp [Level.lot]
  case remaining => simp [filled, took.remaining]
  case limitPrice => simp [filled, took.limitPrice]
  case levels => simp [filled, took.levels]

theorem visit_tradeStep (levels : List Level) (resting : ∀ level ∈ levels, level.Resting)
    (wanting : 0 < walk.remaining.toInt) (sum : 0 ≤ walk.notional.toInt)
    (calm : walk.overflowed = false) :
    let final := Visit.visit tradeStep walk levels
    (Fits (walk.notional.toInt + cost (fill walk.remaining.toInt (lots levels))) ↔
      final.overflowed = false) ∧ (final.overflowed = false → walk.Supplied levels final) := by
  -- A level moves the sum and what is missing, so the induction is over every walk.
  induction levels generalizing walk with
  | nil =>
    have held := fits_toInt walk.notional
    refine ⟨by simp [lots, calm, held], fun _ => ?_⟩
    constructor <;> simp [lots]
  | cons level rest ih =>
    obtain ⟨here, later⟩ := List.forall_mem_cons.mp resting
    rw [Visit.visit_cons]
    rcases tradeStep_level here wanting sum with
      ⟨fits, next, step, took⟩ | ⟨overflows, next, step, flagged⟩
    · rw [step]
      by_cases short : level.units < walk.remaining.toInt
      · rw [min_eq_left short.le] at took
        have further := mul_nonneg here.price here.quantity.le
        have missing := took.remaining
        have grown := took.notional
        have tail := ih later (by omega) (by omega) (took.overflowed.trans calm)
        simp only [decide_eq_true short, if_true]
        rw [took.cost_cons short]
        exact ⟨tail.1, fun settled => took.supplied short (tail.2 settled)⟩
      · have enough : walk.remaining.toInt ≤ level.units := not_lt.mp short
        rw [min_eq_right enough] at took
        have supplied : walk.Supplied (level :: rest) next := took.supplied_last enough
        simp only [decide_eq_false short, Bool.false_eq_true, if_false]
        rw [← supplied.notional]
        exact ⟨⟨fun _ => took.overflowed.trans calm, fun _ => fits_toInt _⟩, fun _ => supplied⟩
    · rw [step]
      simp only [Bool.false_eq_true, if_false, flagged, iff_false, Bool.true_eq_false,
        false_imp_iff, and_true]
      -- The rest of the fill only adds to the sum that was too large here.
      have part : level.ticks * min level.units walk.remaining.toInt ≤
          cost (fill walk.remaining.toInt (lots (level :: rest))) :=
        head_le_cost_fill later walk.remaining.toInt
      have taken := mul_nonneg here.price (lt_min here.quantity wanting).le
      unfold Fits at overflows ⊢
      omega

theorem TradeWalk.Supplied.fills {wanted : Int64} {levels : List Level} {touch : Level}
    (side : Side) (supplied : ({ remaining := wanted } : TradeWalk).Supplied levels final)
    (first : levels.head? = some touch) (resting : ∀ level ∈ levels, level.Resting)
    (positive : 0 < wanted.toInt) (exhausted : Bool) :
    0 < (wanted - final.remaining).toInt ∧
      Execution.Fills
        { qty := ⟨wanted - final.remaining⟩
          vwap := ⟨conservativeVwap final.notional (wanted - final.remaining) side⟩
          limitPrice := final.limitPrice
          levels := final.levels
          depthExhausted := exhausted
          slippage := bpsBetween touch.price.ticks
            (conservativeVwap final.notional (wanted - final.remaining) side)
          status := .ok } side levels wanted.toInt := by
  have some : levels ≠ [] := List.ne_nil_of_mem (List.mem_of_head? first)
  have held := volume_fill_pos some resting positive
  have volumes := Lot.volume_fill positive (lots_positive resting)
  have small := wanted.toInt_lt
  have remaining : final.remaining.toInt =
      wanted.toInt - volume (fill wanted.toInt (lots levels)) := supplied.remaining
  have count : final.levels = (fill wanted.toInt (lots levels)).length := by
    simpa using supplied.levels
  have total : final.notional.toInt = cost (fill wanted.toInt (lots levels)) := by
    simpa using supplied.notional
  have filled : (wanted - final.remaining).toInt =
      volume (fill wanted.toInt (lots levels)) := by
    rw [MachineInt.toInt_sub_of_fits _ _ (by omega) (by omega), remaining]
    omega
  have worst : final.limitPrice =
      ((levels.take final.levels).getLast?.map Level.price).getD ⟨0⟩ := by
    rw [count]
    exact supplied.limitPrice
  refine ⟨filled ▸ held, filled, count, ?_, ?_, fun other same => ?_⟩
  · have taken : levels.take final.levels ≠ [] := by
      simpa [count, Lot.fill_eq_nil, lots] using some
    have last := List.getLast?_eq_some_getLast taken
    rw [last] at worst
    rw [last, worst]
    rfl
  · rw [← filled, ← total]
    exact toInt_conservativeVwap _ _ side (filled ▸ held)
  · obtain rfl := Option.some.inj (first.symm.trans same)
    rfl

end Steps

section Answer

variable {S : Type} [SideImpl S] [LawfulSideImpl S]

inductive TradeAnswer (side : Side) (levels : List Level) (wanted : Int) (answer : Execution) : Prop
  | empty : levels = [] → answer = { depthExhausted := true, status := .emptyBook } →
      TradeAnswer side levels wanted answer
  | overflow : levels ≠ [] → ¬ Fits (cost (fill wanted (lots levels))) →
      answer = { status := .overflow } → TradeAnswer side levels wanted answer
  | ok : levels ≠ [] → Fits (cost (fill wanted (lots levels))) → answer.status = .ok →
      answer.Fills side levels wanted →
      (answer.depthExhausted = true ↔ totalQuantity levels < wanted) →
      TradeAnswer side levels wanted answer

theorem costToTrade_answer (book : BasicL2Book S) (side : Side) (wanted : Qty)
    (resting : ∀ level ∈ book.levels side, level.Resting) (positive : 0 < wanted.units.toInt) :
    TradeAnswer side (book.levels side) wanted.units.toInt (costToTrade book side wanted) := by
  have accepted : ¬ wanted.units ≤ 0 := by
    rw [Int64.le_iff_toInt_le, Int64.toInt_zero]
    omega
  unfold costToTrade
  rw [if_neg accepted, BasicL2Book.best_eq]
  cases first : (book.levels side).head? with
  | none => exact .empty (List.head?_eq_none_iff.mp first) rfl
  | some touch =>
    have some : book.levels side ≠ [] := List.ne_nil_of_mem (List.mem_of_head? first)
    have walked := @visit_tradeStep { remaining := wanted.units } (book.levels side) resting
      positive le_rfl rfl
    have volumes := Lot.volume_fill positive (lots_positive resting)
    rw [volume_lots] at volumes
    simp only [Int64.toInt_zero, zero_add] at walked
    dsimp only
    rw [BasicL2Book.forEach_eq]
    generalize Visit.visit tradeStep { remaining := wanted.units } (book.levels side) = final
      at walked
    cases flagged : final.overflowed with
    | true =>
      rw [if_pos rfl]
      exact .overflow some (fun fits => by simp [walked.1.mp fits] at flagged) rfl
    | false =>
      have supplied := walked.2 flagged
      obtain ⟨held, fills⟩ := supplied.fills side first resting positive
        (decide (0 < final.remaining))
      -- A resting level has a quantity, so the branch for nothing filled is not taken.
      have some_filled : wanted.units - final.remaining ≠ 0 := by
        intro zero
        rw [zero, Int64.toInt_zero] at held
        exact lt_irrefl 0 held
      have remaining : final.remaining.toInt = wanted.units.toInt -
        volume (fill wanted.units.toInt (lots (book.levels side))) := supplied.remaining
      rw [if_neg Bool.false_ne_true, if_neg some_filled]
      refine .ok some (walked.1.mpr flagged) rfl fills ?_
      rw [decide_eq_true_eq, Int64.lt_iff_toInt_lt, remaining, Int64.toInt_zero]
      omega

def Between (side : Side) (touch mean worst : Int) : Prop :=
  match side with
  | .ask => touch ≤ mean ∧ mean ≤ worst
  | .bid => worst ≤ mean ∧ mean ≤ touch

theorem between_of_outward {side : Side} {touch mean worst : Int}
    (ordered : outward side * touch ≤ outward side * mean ∧
      outward side * mean ≤ outward side * worst) : Between side touch mean worst := by
  cases side with
  | ask => simpa [outward, Between] using ordered
  | bid => simpa [outward, Between, and_comm] using ordered

structure TradeTotals (levels : List Level) (side : Side) (wanted : Int) (answer : Execution) :
    Prop where
  quantity : answer.qty.units.toInt = min wanted (totalQuantity levels)
  exhausted : answer.depthExhausted = true ↔ totalQuantity levels < wanted
  enough : answer.qty.units.toInt ≤ totalQuantity (levels.take answer.levels)
  shortest (n : Nat) : n < answer.levels → totalQuantity (levels.take n) < answer.qty.units.toInt
  worst : levels ≠ [] →
    (levels.take answer.levels).getLast?.map Level.price = some answer.limitPrice
  vwap : answer.vwap.ticks.toInt =
    roundedMean side (cost (fill wanted (lots levels))) answer.qty.units.toInt
  between (touch : Level) : levels.head? = some touch →
    Between side touch.ticks answer.vwap.ticks.toInt answer.limitPrice.ticks.toInt

structure TradeExact (levels : List Level) (side : Side) (wanted : Int) (answer : Execution) :
    Prop where
  empty : answer.status = .emptyBook ↔ levels = []
  overflow : answer.status = .overflow ↔ ¬ Fits (cost (fill wanted (lots levels)))
  ok : answer.status = .ok ↔ levels ≠ [] ∧ Fits (cost (fill wanted (lots levels)))
  totals : Fits (cost (fill wanted (lots levels))) → TradeTotals levels side wanted answer

theorem tradeTotals_empty (side : Side) {wanted : Int} (positive : 0 < wanted) :
    TradeTotals [] side wanted { depthExhausted := true, status := .emptyBook } where
  quantity := (min_eq_right positive.le).symm
  exhausted := ⟨fun _ => positive, fun _ => rfl⟩
  enough := le_rfl
  shortest n := nofun
  worst none := absurd rfl none
  vwap := by cases side <;> simp [roundedMean, lots]
  between _ := nofun

theorem tradeTotals_of_fills {side : Side} {levels : List Level} {wanted : Int}
    {answer : Execution} (ordered : BookOrder side levels)
    (resting : ∀ level ∈ levels, level.Resting) (positive : 0 < wanted)
    (fills : answer.Fills side levels wanted)
    (exhausted : answer.depthExhausted = true ↔ totalQuantity levels < wanted) :
    TradeTotals levels side wanted answer := by
  have sizes := lots_positive resting
  have supply (n : Nat) : totalQuantity (levels.take n) = volume ((lots levels).take n) := by
    rw [← volume_lots, lots, lots, List.map_take]
  have quantity : answer.qty.units.toInt = min wanted (totalQuantity levels) := by
    rw [fills.quantity, Lot.volume_fill positive sizes, volume_lots]
  refine ⟨quantity, exhausted, ?_, ?_, fun _ => fills.worst, ?_, fun touch first => ?_⟩
  · rw [supply, fills.quantity, fills.count]
    exact Lot.volume_fill_le_take _
  · intro n shorter
    rw [fills.count] at shorter
    rw [supply, fills.quantity]
    exact Lot.volume_take_lt positive sizes shorter
  · rw [fills.quantity]
    exact fills.vwap
  · exact between_of_outward (fills.bracket ordered resting positive first)

theorem costToTrade_exact (book : BasicL2Book S) (built : book.Built) (side : Side) (wanted : Qty)
    (positive : 0 < wanted.units) :
    TradeExact (book.levels side) side wanted.units.toInt (costToTrade book side wanted) := by
  have units : 0 < wanted.units.toInt := by simpa using Int64.lt_iff_toInt_lt.mp positive
  have resting := built.resting side
  cases costToTrade_answer book side wanted resting units with
  | empty none answer =>
    have fits : Fits (cost (fill wanted.units.toInt (lots ([] : List Level)))) := by
      simp [lots, Fits]
    rw [answer, none]
    exact ⟨by simp, by simp [fits], by simp, fun _ => tradeTotals_empty side units⟩
  | overflow some large answer =>
    rw [answer]
    exact ⟨by simp [some], by simp [large], by simp [large], fun fits => absurd fits large⟩
  | ok some fits answer fills exhausted =>
    have totals := tradeTotals_of_fills (book.levels_bookOrder side) resting units fills exhausted
    exact ⟨by simp [answer, some], by simp [answer, fits], by simp [answer, some, fits],
      fun _ => totals⟩

-- Two bids, the second of them in part; the mean 99.4 is rounded down.
theorem costToTrade_exact_partial :
    let book : MapBook := ((BasicL2Book.new ⟨bytes "BTC/USD", 1, 8⟩).apply .bid ⟨100⟩ ⟨3⟩).1.apply
      .bid ⟨98⟩ ⟨9⟩ |>.1
    (0 : Int64) < 5 ∧
      TradeExact (book.levels .bid) .bid (5 : Int64).toInt (costToTrade book .bid ⟨5⟩) :=
  ⟨by decide, costToTrade_exact _
    (.apply _ _ _ (.apply _ _ _ (BasicL2Book.built_new _))) .bid ⟨5⟩ (by decide)⟩

end Answer

end Crossbook
