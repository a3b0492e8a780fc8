import Crossbook.Lib.ProbeTable
import Crossbook.Lib.LinkedQueue
import Crossbook.Types

set_option autoImplicit false

namespace Crossbook

abbrev OrderId := UInt64

/-- An index into the order arena. -/
abbrev OrderRef := UInt32

def kNoOrder : OrderRef := 4294967295

structure Order where
  id : OrderId
  price : Price
  qty : Qty
  side : Side
  prev : OrderRef
  next : OrderRef
  live : Bool
  deriving DecidableEq, Repr

def Order.blank : Order := ⟨0, ⟨0⟩, ⟨0⟩, .bid, kNoOrder, kNoOrder, false⟩

structure L3Level where
  qty : Qty
  orders : UInt32
  head : OrderRef
  tail : OrderRef
  deriving DecidableEq, Repr

def L3Level.blank : L3Level := ⟨⟨0⟩, 0, kNoOrder, kNoOrder⟩

abbrev Slot := ProbeTable.Slot OrderId OrderRef

def Slot.blank : Slot := ⟨0, kNoOrder, false, false⟩

structure L3Book where
  spec : InstrumentSpec
  orders : Array Order
  /-- The back of the vector first. -/
  freeList : List OrderRef
  table : Array Slot
  bids : Std.ExtTreeMap Int64 L3Level
  asks : Std.ExtTreeMap Int64 L3Level
  liveOrders : Nat
  tableUsed : Nat

namespace L3Book

def order (book : L3Book) (ref : OrderRef) : Order := book.orders.getD ref.toNat .blank

def updateOrder (book : L3Book) (ref : OrderRef) (change : Order → Order) : L3Book :=
  { book with orders := book.orders.modify ref.toNat change }

def levels (book : L3Book) : Side → Std.ExtTreeMap Int64 L3Level
  | .bid => book.bids
  | .ask => book.asks

def setLevels (book : L3Book) (side : Side) (levels : Std.ExtTreeMap Int64 L3Level) : L3Book :=
  match side with
  | .bid => { book with bids := levels }
  | .ask => { book with asks := levels }

def orderCount (book : L3Book) : Nat := book.liveOrders

/-! ### The id table -/

-- The doubling never wraps: `reserve` refuses an expected order count near the end of `size_t`.
def nextPow2Loop (n p : Nat) : Nat :=
  if 0 < p ∧ p < n then nextPow2Loop n (p * 2) else p
termination_by n - p

def nextPow2 (n : Nat) : Nat := nextPow2Loop n 16

def mix (id : OrderId) : UInt64 :=
  let z := id + 0x9E3779B97F4A7C15
  let z := (z ^^^ (z >>> 30)) * 0xBF58476D1CE4E5B9
  let z := (z ^^^ (z >>> 27)) * 0x94D049BB133111EB
  z ^^^ (z >>> 31)

def slotAt (table : Array Slot) (i : Nat) : Slot := table.getD i .blank

def home (table : Array Slot) (id : OrderId) : Nat := (mix id).toNat &&& (table.size - 1)

def seekId (table : Array Slot) (id : OrderId) : Option Nat :=
  ProbeTable.seek (slotAt table) (table.size - 1) id table.size (home table id)

-- Where the search for an unoccupied slot stops: after a full turn it never would.
def spotFor (table : Array Slot) (id : OrderId) : Option Nat :=
  ProbeTable.vacant (slotAt table) (table.size - 1) table.size (home table id)

def findRef (book : L3Book) (id : OrderId) : OrderRef :=
  if book.table.isEmpty then kNoOrder
  else
    match seekId book.table id with
    | some i => (slotAt book.table i).value
    | none => kNoOrder

def rehashSlot (table : Array Slot × Nat) (slot : Slot) : Option (Array Slot × Nat) :=
  if slot.occupied then
    (spotFor table.1 slot.key).map fun i =>
      (table.1.setIfInBounds i ⟨slot.key, slot.value, true, false⟩, table.2 + 1)
  else some table

def rehash (book : L3Book) (capacity : Nat) : Option L3Book :=
  (book.table.toList.foldlM rehashSlot (Array.replicate capacity .blank, 0)).map fun table =>
    { book with table := table.1, tableUsed := table.2 }

def placeRef (book : L3Book) (id : OrderId) (ref : OrderRef) : Option L3Book :=
  (spotFor book.table id).map fun i =>
    { book with
      table := book.table.setIfInBounds i ⟨id, ref, true, false⟩
      -- A buried slot was counted when it was first taken.
      tableUsed :=
        if (slotAt book.table i).tombstone then book.tableUsed else book.tableUsed + 1 }

def insertRef (book : L3Book) (id : OrderId) (ref : OrderRef) : Option L3Book :=
  -- Buried slots count towards the load, and growing the table drops them.
  if book.table.size * 7 ≤ (book.tableUsed + 1) * 10 then
    (book.rehash (book.table.size * 2)).bind fun grown => grown.placeRef id ref
  else book.placeRef id ref

def eraseRef (book : L3Book) (id : OrderId) : L3Book :=
  match seekId book.table id with
  | some i =>
    let slot := slotAt book.table i
    { book with
      table := book.table.setIfInBounds i { slot with occupied := false, tombstone := true } }
  | none => book

def new (spec : InstrumentSpec) (expectedOrders : Nat) : Option L3Book :=
  rehash ⟨spec, #[], [], #[], ∅, ∅, 0, 0⟩ (nextPow2 (expectedOrders * 2))

/-! ### The arena and the level queues -/

def allocate (book : L3Book) : OrderRef × L3Book :=
  match book.freeList with
  | ref :: rest => (ref, { book with freeList := rest })
  | [] => (UInt32.ofNat book.orders.size, { book with orders := book.orders.push .blank })

-- A level that is asked for exists from then on.
def levelFor (book : L3Book) (side : Side) (price : Price) : L3Level :=
  (book.levels side).getD price.ticks .blank

def setLevel (book : L3Book) (side : Side) (price : Price) (level : L3Level) : L3Book :=
  book.setLevels side ((book.levels side).insert price.ticks level)

def linkBack (book : L3Book) (ref : OrderRef) : L3Book :=
  let order := book.order ref
  let level := book.levelFor order.side order.price
  let linked := book.updateOrder ref fun order => { order with prev := level.tail, next := kNoOrder }
  let after : L3Level :=
    { qty := ⟨level.qty.units + order.qty.units⟩
      orders := level.orders + 1
      head := if level.tail ≠ kNoOrder then level.head else ref
      tail := ref }
  if level.tail ≠ kNoOrder then
    (linked.updateOrder level.tail fun last => { last with next := ref }).setLevel
      order.side order.price after
  else linked.setLevel order.side order.price after

def joinNeighbours (book : L3Book) (ref : OrderRef) : L3Book :=
  let order := book.order ref
  let front :=
    if order.prev ≠ kNoOrder then
      book.updateOrder order.prev fun before => { before with next := order.next }
    else book
  let back :=
    if order.next ≠ kNoOrder then
      front.updateOrder order.next fun after => { after with prev := order.prev }
    else front
  back.updateOrder ref fun order => { order with prev := kNoOrder, next := kNoOrder }

def unlink (book : L3Book) (ref : OrderRef) : L3Book :=
  let order := book.order ref
  match (book.levels order.side)[order.price.ticks]? with
  | none => book
  | some level =>
    let after : L3Level :=
      { qty := ⟨level.qty.units - order.qty.units⟩
        orders := level.orders - 1
        head := if order.prev ≠ kNoOrder then level.head else order.next
        tail := if order.next ≠ kNoOrder then level.tail else order.prev }
    let joined := book.joinNeighbours ref
    if after.orders = 0 then
      joined.setLevels order.side ((joined.levels order.side).erase order.price.ticks)
    else joined.setLevel order.side order.price after

/-! ### Operations -/

/-- No result means that the search for a slot in the id table never ends. -/
def add (book : L3Book) (id : OrderId) (side : Side) (price : Price) (qty : Qty) :
    Option (L3Book × Bool) :=
  if qty.units ≤ 0 || book.findRef id ≠ kNoOrder then some (book, false)
  else
    let (ref, book) := book.allocate
    let book := book.updateOrder ref fun _ => ⟨id, price, qty, side, kNoOrder, kNoOrder, true⟩
    let book := book.linkBack ref
    (book.insertRef id ref).map fun book =>
      ({ book with liveOrders := book.liveOrders + 1 }, true)

def remove (book : L3Book) (id : OrderId) : L3Book × Bool :=
  let ref := book.findRef id
  if ref = kNoOrder then (book, false)
  else
    let book := book.unlink ref
    let book := book.eraseRef id
    let book := book.updateOrder ref fun order => { order with live := false }
    ({ book with freeList := ref :: book.freeList, liveOrders := book.liveOrders - 1 }, true)

def resize (book : L3Book) (ref : OrderRef) (qty : Qty) (difference : Int64) : L3Book :=
  let order := book.order ref
  let level := book.levelFor order.side order.price
  (book.setLevel order.side order.price { level with qty := ⟨level.qty.units + difference⟩ }).updateOrder
    ref fun order => { order with qty := qty }

def modify (book : L3Book) (id : OrderId) (newQty : Qty) : L3Book × Bool :=
  let ref := book.findRef id
  if ref = kNoOrder then (book, false)
  else if newQty.units ≤ 0 then book.remove id
  else
    let oldQty := (book.order ref).qty
    let book := book.resize ref newQty (newQty.units - oldQty.units)
    -- An order that grows goes to the back of its queue.
    if oldQty.units < newQty.units then ((book.unlink ref).linkBack ref, true) else (book, true)

def execute (book : L3Book) (id : OrderId) (traded : Qty) : L3Book × Bool :=
  let ref := book.findRef id
  if ref = kNoOrder || traded.units ≤ 0 then (book, false)
  else
    let order := book.order ref
    if order.qty.units ≤ traded.units then book.remove id
    else (book.resize ref ⟨order.qty.units - traded.units⟩ (-traded.units), true)

def clear (book : L3Book) : L3Book :=
  { book with
    orders := #[]
    freeList := []
    bids := ∅
    asks := ∅
    -- The table keeps its size.
    table := book.table.map fun _ => .blank
    liveOrders := 0
    tableUsed := 0 }

/-! ### Queries -/

def find (book : L3Book) (id : OrderId) : Option Order :=
  let ref := book.findRef id
  if ref = kNoOrder then none else some (book.order ref)

def findLevel (book : L3Book) (side : Side) (price : Price) : Option L3Level :=
  (book.levels side)[price.ticks]?

def levelOf (entry : Int64 × L3Level) : Level := ⟨⟨entry.1⟩, entry.2.qty⟩

def best (book : L3Book) : Side → Option Level
  | .bid => book.bids.toList.getLast?.map levelOf
  | .ask => book.asks.toList.head?.map levelOf

def forEachLevel {σ : Type} (book : L3Book) (side : Side) (fn : σ → Level → σ × Bool) (state : σ) : σ :=
  match side with
  | .bid => Visit.visit fn state (book.bids.toList.reverse.map levelOf)
  | .ask => Visit.visit fn state (book.asks.toList.map levelOf)

-- A walk along a queue has no result when the links never end.
def forEachOrder {σ : Type} (book : L3Book) (side : Side) (price : Price)
    (fn : σ → Order → σ × Bool) (state : σ) : Option σ :=
  match book.findLevel side price with
  | none => some state
  | some level =>
    LinkedQueue.walk (fun ref => (book.order ref).next) kNoOrder book.order fn book.orders.size
      level.head state

def countAhead (book : L3Book) (target : OrderRef) (ahead : Int64) (cursor : OrderRef) :
    Int64 × Bool :=
  if cursor = target then (ahead, false) else (ahead + (book.order cursor).qty.units, true)

def queueAhead (book : L3Book) (id : OrderId) : Option (Option Qty) :=
  let ref := book.findRef id
  if ref = kNoOrder then some none
  else
    let target := book.order ref
    match book.findLevel target.side target.price with
    | none => some none
    | some level =>
      (LinkedQueue.walk (fun ref => (book.order ref).next) kNoOrder (fun ref => ref)
        (book.countAhead ref) book.orders.size level.head 0).map fun ahead => some ⟨ahead⟩

end L3Book

end Crossbook
