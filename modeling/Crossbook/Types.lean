import Crossbook.Lib.MachineInt
import Crossbook.Lib.SortedList

set_option autoImplicit false

namespace Crossbook

abbrev Bytes := List UInt8

def bytes (text : String) : Bytes := text.toList.map (fun c => UInt8.ofNat c.toNat)

theorem bytes_append (front back : String) : bytes (front ++ back) = bytes front ++ bytes back := by
  simp [bytes]

abbrev Scale := UInt8

inductive Side where
  | bid
  | ask
  deriving DecidableEq, Repr

structure Price where
  ticks : Int64
  deriving DecidableEq, Repr

structure Qty where
  units : Int64
  deriving DecidableEq, Repr

def Qty.isZero (qty : Qty) : Bool := qty.units == 0

structure Level where
  price : Price
  qty : Qty
  deriving DecidableEq, Repr

structure InstrumentSpec where
  symbol : Bytes
  priceScale : Scale
  qtyScale : Scale
  deriving DecidableEq, Repr

abbrev Timestamp := Int64

abbrev SequenceId := UInt64

/-- Book order: bids run high to low, asks low to high. -/
def precedes (side : Side) (a b : Int64) : Bool :=
  match side with
  | .bid => decide (b < a)
  | .ask => decide (a < b)

theorem precedes_irrefl (side : Side) (a : Int64) : precedes side a a = false := by
  cases side <;> simp [precedes]

theorem precedes_trans (side : Side) (a b c : Int64) (left : precedes side a b = true)
    (right : precedes side b c = true) : precedes side a c = true := by
  cases side <;> simp only [precedes, decide_eq_true_eq] at left right ⊢
  · exact right.trans left
  · exact left.trans right

theorem precedes_total (side : Side) (a b : Int64) (differ : a ≠ b) :
    precedes side a b = true ∨ precedes side b a = true := by
  cases side <;> simp only [precedes, decide_eq_true_eq]
  · exact (lt_or_gt_of_ne differ).symm
  · exact lt_or_gt_of_ne differ

def BookOrder (side : Side) (levels : List Level) : Prop :=
  levels.Pairwise (fun a b => precedes side a.price.ticks b.price.ticks = true)

theorem BookOrder.eq_of_mem_iff {side : Side} {xs ys : List Level} (left : BookOrder side xs)
    (right : BookOrder side ys) (same : ∀ level, level ∈ xs ↔ level ∈ ys) : xs = ys := by
  refine SortedList.eq_of_pairwise ?_ ?_ left right same
  · intro level
    simp [precedes_irrefl]
  · intro a b c
    exact precedes_trans side a.price.ticks b.price.ticks c.price.ticks

theorem BookOrder.nodup_prices {side : Side} {levels : List Level}
    (ordered : BookOrder side levels) : (levels.map Level.price).Nodup := by
  apply List.pairwise_map.mpr
  apply ordered.imp
  intro x y first tie
  rw [tie, precedes_irrefl] at first
  exact absurd first (by simp)

theorem BookOrder.eq_of_price {side : Side} {levels : List Level} (ordered : BookOrder side levels)
    {a b : Level} (left : a ∈ levels) (right : b ∈ levels) (same : a.price = b.price) : a = b :=
  List.inj_on_of_nodup_map ordered.nodup_prices left right same

end Crossbook
