import Crossbook.Execution
import Crossbook.Lib.KeyedList
import Crossbook.Lib.Ranking

set_option autoImplicit false

namespace Crossbook

structure FeeSchedule where
  taker : CentiBps
  deriving DecidableEq, Repr

structure VenueQuote where
  venue : Bytes
  spec : InstrumentSpec
  bid : Level
  ask : Level
  hasBid : Bool
  hasAsk : Bool
  receivedAt : Timestamp
  fees : FeeSchedule
  synced : Bool
  deriving DecidableEq, Repr

namespace VenueQuote

def level (quote : VenueQuote) : Side → Level
  | .bid => quote.bid
  | .ask => quote.ask

def hasSide (quote : VenueQuote) : Side → Bool
  | .bid => quote.hasBid
  | .ask => quote.hasAsk

end VenueQuote

inductive StalenessPolicy where
  | enforce
  | disabled
  deriving DecidableEq, Repr

structure EffectivePrice where
  venue : Bytes
  quoted : Price
  effective : Price
  size : Qty
  deriving DecidableEq, Repr

structure BestExecution where
  venue : Bytes := []
  execution : Execution := {}
  effectiveVwap : Price := ⟨0⟩
  venuesConsidered : Nat := 0
  venuesRejected : Nat := 0
  found : Bool := false
  deriving DecidableEq, Repr

def sameInstrument (a b : InstrumentSpec) : Bool :=
  a.priceScale == b.priceScale && a.qtyScale == b.qtyScale && a.symbol == b.symbol

def applyTakerFee (price : Int64) (side : Side) (fees : FeeSchedule) : Option Int64 :=
  (checkedMulSigned price fees.taker).bind fun product =>
    let adjustment := divAwayFromZero product 1000000
    match side with
    | .ask => checkedAddSigned price adjustment
    | .bid => checkedAddSigned price (-adjustment)

def ranksAfter (side : Side) (a b : EffectivePrice) : Bool :=
  if a.effective.ticks ≠ b.effective.ticks then
    match side with
    | .ask => decide (b.effective.ticks < a.effective.ticks)
    | .bid => decide (a.effective.ticks < b.effective.ticks)
  -- Equal prices are told apart by the names, never by the order of arrival.
  else decide (b.venue < a.venue)

structure ConsolidatedBook where
  spec : InstrumentSpec
  maxAgeNs : Timestamp
  staleness : StalenessPolicy
  quotes : List VenueQuote
  rejectedUpdates : Nat
  deriving DecidableEq, Repr

namespace ConsolidatedBook

def kDefaultMaxAgeNs : Timestamp := 5000000000

def new (spec : InstrumentSpec) (maxAgeNs : Timestamp) (staleness : StalenessPolicy) :
    ConsolidatedBook :=
  { spec, maxAgeNs, staleness, quotes := [], rejectedUpdates := 0 }

def update (book : ConsolidatedBook) (quote : VenueQuote) : ConsolidatedBook × Bool :=
  if sameInstrument quote.spec book.spec = false then
    ({ book with rejectedUpdates := book.rejectedUpdates + 1 }, false)
  -- A rebate would make the quote look better than any price that trades.
  else if quote.fees.taker < 0 then
    ({ book with rejectedUpdates := book.rejectedUpdates + 1 }, false)
  else ({ book with quotes := KeyedList.put VenueQuote.venue quote book.quotes }, true)

def remove (book : ConsolidatedBook) (venue : Bytes) : ConsolidatedBook :=
  { book with quotes := KeyedList.drop VenueQuote.venue venue book.quotes }

def timestampFresh (book : ConsolidatedBook) (stampedAt now : Timestamp) : Bool :=
  if book.staleness = .disabled then true
  -- Neither a stamp that was never set nor one from the future is fresh.
  else if stampedAt ≤ 0 then false
  else if now < stampedAt then false
  else if book.maxAgeNs ≤ 0 then false
  else decide (now - stampedAt ≤ book.maxAgeNs)

def usable (book : ConsolidatedBook) (quote : VenueQuote) (side : Side) (now : Timestamp) : Bool :=
  if quote.synced = false then false
  else if sameInstrument quote.spec book.spec = false then false
  else if quote.hasSide side = false then false
  else book.timestampFresh quote.receivedAt now

/-- A quote's entry in the ranking, unless it is unusable or its fee cannot be applied. -/
def effectivePrice (book : ConsolidatedBook) (side : Side) (now : Timestamp)
    (quote : VenueQuote) : Option EffectivePrice :=
  if book.usable quote side now = false then none
  else
    (applyTakerFee (quote.level side).price.ticks side quote.fees).map fun effective =>
      { venue := quote.venue
        quoted := (quote.level side).price
        effective := ⟨effective⟩
        size := (quote.level side).qty }

def ranked (book : ConsolidatedBook) (side : Side) (now : Timestamp) : List EffectivePrice :=
  Ranking.insertionSort (ranksAfter side) (book.quotes.filterMap (book.effectivePrice side now))

def bestStep (book : ConsolidatedBook) (side : Side) (now : Timestamp)
    (leader : Option EffectivePrice) (quote : VenueQuote) : Option EffectivePrice :=
  match book.effectivePrice side now quote with
  | none => leader
  | some candidate => Ranking.keepFirst (ranksAfter side) leader candidate

def best (book : ConsolidatedBook) (side : Side) (now : Timestamp) : Option EffectivePrice :=
  book.quotes.foldl (book.bestStep side now) none

def spreadTicks (book : ConsolidatedBook) (now : Timestamp) : Option Int64 :=
  match book.best .bid now, book.best .ask now with
  | some bestBid, some bestAsk => checkedSubSigned bestAsk.effective.ticks bestBid.effective.ticks
  | _, _ => none

def spread (book : ConsolidatedBook) (now : Timestamp) : Option CentiBps :=
  match book.best .bid now, book.best .ask now with
  | some bestBid, some bestAsk =>
    (checkedSubSigned bestAsk.effective.ticks bestBid.effective.ticks).bind fun delta =>
      -- Anchored on the bid: the sum of two prices is never formed.
      let mid := bestBid.effective.ticks + delta / 2
      if mid ≤ 0 then none
      else (checkedMulSigned delta 1000000).map fun scaled => scaled / mid
  | _, _ => none

def crossed (book : ConsolidatedBook) (now : Timestamp) : Bool :=
  match book.best .bid now, book.best .ask now with
  | some bestBid, some bestAsk => decide (bestAsk.effective.ticks ≤ bestBid.effective.ticks)
  | _, _ => false

end ConsolidatedBook

/-- The locals of `bestExecution`'s loop. -/
structure Selection where
  best : BestExecution := {}
  bestEffective : Int64 := 0
  bestComplete : Bool := false
  deriving DecidableEq, Repr

namespace Selection

def reject (selection : Selection) : Selection :=
  { selection with
    best := { selection.best with venuesRejected := selection.best.venuesRejected + 1 } }

def consider (selection : Selection) : Selection :=
  { selection with
    best := { selection.best with venuesConsidered := selection.best.venuesConsidered + 1 } }

def better (selection : Selection) (side : Side) (venue : Bytes) (complete : Bool)
    (effective : Int64) : Bool :=
  if selection.best.found = false then true
  -- A whole fill beats a part of one at any price.
  else if complete ≠ selection.bestComplete then complete
  else if effective ≠ selection.bestEffective then
    match side with
    | .ask => decide (effective < selection.bestEffective)
    | .bid => decide (selection.bestEffective < effective)
  else decide (venue < selection.best.venue)

def offer (selection : Selection) (side : Side) (venue : Bytes) (execution : Execution)
    (effective : Int64) : Selection :=
  if selection.better side venue (!execution.depthExhausted) effective then
    { best :=
        { selection.best with
          found := true
          venue := venue
          execution := execution
          effectiveVwap := ⟨effective⟩ }
      bestEffective := effective
      bestComplete := !execution.depthExhausted }
  else selection

end Selection

section BestExecution

variable {S : Type} [SideImpl S]

def selectStep (consolidated : ConsolidatedBook) (side : Side) (wanted : Qty) (now : Timestamp)
    (books : Bytes → Option (BasicL2Book S)) (selection : Selection) (quote : VenueQuote) :
    Selection :=
  if consolidated.usable quote side now = false then selection
  else
    match books quote.venue with
    -- A venue without a book is passed over and not counted.
    | none => selection
    | some book =>
      if sameInstrument book.spec consolidated.spec = false then selection.reject
      -- The quote is fresh; the book behind it keeps a time of its own.
      else if consolidated.timestampFresh book.lastUpdate now = false then selection.reject
      else
        let execution := costToTrade book side wanted
        if execution.ok = false then selection.consider.reject
        else
          match applyTakerFee execution.vwap.ticks side quote.fees with
          | none => selection.consider.reject
          | some effective => selection.consider.offer side quote.venue execution effective

def bestExecution (consolidated : ConsolidatedBook) (side : Side) (wanted : Qty)
    (now : Timestamp) (books : Bytes → Option (BasicL2Book S)) : BestExecution :=
  (consolidated.quotes.foldl (selectStep consolidated side wanted now books) {}).best

end BestExecution

end Crossbook
