import Crossbook.Book.Book
import Crossbook.SignedArithmetic

set_option autoImplicit false

namespace Crossbook

abbrev CentiBps := Int64

inductive ExecutionStatus where
  | unset
  | ok
  | emptyBook
  | overflow
  | limitExcludedAll
  | invalidRequest
  deriving DecidableEq, Repr

structure Execution where
  qty : Qty := ⟨0⟩
  vwap : Price := ⟨0⟩
  limitPrice : Price := ⟨0⟩
  levels : Nat := 0
  depthExhausted : Bool := false
  slippage : CentiBps := 0
  status : ExecutionStatus := .unset
  deriving DecidableEq, Repr

namespace Execution

def ok (execution : Execution) : Bool := execution.status == .ok

end Execution

def conservativeVwap (notional qty : Int64) : Side → Int64
  | .ask => ceilDiv notional qty
  | .bid => floorDiv notional qty

def priceLimit (touch : Int64) (side : Side) (slippage : CentiBps) : Option Int64 :=
  (checkedMulSigned touch slippage).bind fun product =>
    -- Truncated, so the limit is never further out than the slippage.
    let offset := product / 1000000
    match side with
    | .ask => checkedAddSigned touch offset
    | .bid => checkedAddSigned touch (-offset)

def bpsBetween (reference moved : Int64) : CentiBps :=
  if reference = 0 then 0
  else
    let delta := if reference < moved then moved - reference else reference - moved
    match checkedMulSigned delta 1000000 with
    -- A distance too large to scale counts as none.
    | none => 0
    | some scaled => scaled / reference

section Walks

variable {S : Type} [SideImpl S]

structure SizeWalk where
  notional : Int64 := 0
  totalQty : Int64 := 0
  overflowed : Bool := false
  stoppedAtLimit : Bool := false
  limitPrice : Price := ⟨0⟩
  levels : Nat := 0
  deriving DecidableEq, Repr

def beyondLimit (limit price : Int64) : Side → Bool
  | .ask => decide (limit < price)
  | .bid => decide (price < limit)

def sizeStep (side : Side) (limit : Int64) (walk : SizeWalk) (level : Level) : SizeWalk × Bool :=
  if beyondLimit limit level.price.ticks side then ({ walk with stoppedAtLimit := true }, false)
  else
    match (checkedMulSigned level.price.ticks level.qty.units).bind
        (checkedAddSigned walk.notional) with
    | none => ({ walk with overflowed := true }, false)
    | some notional =>
      match checkedAddSigned walk.totalQty level.qty.units with
      -- The notional is written before the quantity is found not to fit.
      | none => ({ walk with notional := notional, overflowed := true }, false)
      | some totalQty =>
        ({ walk with
            notional := notional
            totalQty := totalQty
            limitPrice := level.price
            levels := walk.levels + 1 }, true)

def executableSize (book : BasicL2Book S) (side : Side) (maxSlippage : CentiBps) : Execution :=
  if maxSlippage < 0 then { status := .invalidRequest }
  else
    match book.best side with
    | none => { depthExhausted := true, status := .emptyBook }
    | some touch =>
      match priceLimit touch.price.ticks side maxSlippage with
      | none => { status := .overflow }
      | some limit =>
        let walk := SideImpl.forEach (book.side side) (sizeStep side limit) {}
        if walk.overflowed then { status := .overflow }
        -- Levels of no size count as none.
        else if walk.totalQty = 0 then { status := .limitExcludedAll }
        else
          let vwap := conservativeVwap walk.notional walk.totalQty side
          { qty := ⟨walk.totalQty⟩
            vwap := ⟨vwap⟩
            limitPrice := walk.limitPrice
            levels := walk.levels
            -- The side ended before the limit did.
            depthExhausted := !walk.stoppedAtLimit
            slippage := bpsBetween touch.price.ticks vwap
            status := .ok }

structure TradeWalk where
  notional : Int64 := 0
  remaining : Int64
  overflowed : Bool := false
  limitPrice : Price := ⟨0⟩
  levels : Nat := 0
  deriving DecidableEq, Repr

def tradeStep (walk : TradeWalk) (level : Level) : TradeWalk × Bool :=
  let take := if level.qty.units < walk.remaining then level.qty.units else walk.remaining
  match (checkedMulSigned level.price.ticks take).bind (checkedAddSigned walk.notional) with
  | none => ({ walk with overflowed := true }, false)
  | some notional =>
    ({ walk with
        notional := notional
        remaining := walk.remaining - take
        limitPrice := level.price
        levels := walk.levels + 1 }, decide (0 < walk.remaining - take))

def costToTrade (book : BasicL2Book S) (side : Side) (wanted : Qty) : Execution :=
  if wanted.units ≤ 0 then { status := .invalidRequest }
  else
    match book.best side with
    | none => { depthExhausted := true, status := .emptyBook }
    | some touch =>
      let walk := SideImpl.forEach (book.side side) tradeStep { remaining := wanted.units }
      if walk.overflowed then { status := .overflow }
      else
        let filled := wanted.units - walk.remaining
        if filled = 0 then { depthExhausted := true, status := .emptyBook }
        else
          let vwap := conservativeVwap walk.notional filled side
          { qty := ⟨filled⟩
            vwap := ⟨vwap⟩
            limitPrice := walk.limitPrice
            levels := walk.levels
            depthExhausted := decide (0 < walk.remaining)
            slippage := bpsBetween touch.price.ticks vwap
            status := .ok }

end Walks

end Crossbook
