import Crossbook.Lib.Visit
import Crossbook.Types

set_option autoImplicit false

namespace Crossbook

structure ArraySide where
  side : Side
  slots : Nat
  window : Array Int64
  -- Levels outside the window, ascending by price.
  overflow : List Level
  base : Int64
  windowCount : Nat
  bestIndex : Nat
  dirtyLo : Nat
  dirtyHi : Nat
  overflowFloor : Nat
  rebuildCount : Nat
  degraded : Bool
  anchored : Bool

namespace ArraySide

def kDefaultSlots : Nat := 65536

def kOverflowRebuildThreshold : Nat := 64

def kNoDirty : Nat := 2 ^ 64 - 1

def new (side : Side) (slots : Nat) : ArraySide where
  side := side
  slots := slots
  window := Array.replicate slots 0
  overflow := []
  base := 0
  windowCount := 0
  bestIndex := 0
  dirtyLo := kNoDirty
  dirtyHi := 0
  overflowFloor := 0
  rebuildCount := 0
  degraded := false
  anchored := false

def slot (a : ArraySide) (index : Nat) : Int64 := a.window.getD index 0

def store (a : ArraySide) (index : Nat) (units : Int64) : ArraySide :=
  { a with window := a.window.setIfInBounds index units }

def anchorFor (a : ArraySide) (touch : Int64) : Int64 :=
  let half := Int64.ofNat (a.slots / 2)
  let span := if a.slots = 0 then 0 else Int64.ofNat (a.slots - 1)
  let highest := Int64.maxValue - span
  if touch < Int64.minValue + half then Int64.minValue
  else
    let centred := touch - half
    if highest < centred then highest else centred

-- Subtraction in unsigned space: a price below the base wraps to something enormous.
def windowIndex (a : ArraySide) (ticks : Int64) : Option Nat :=
  let offset := (ticks.toUInt64 - a.base.toUInt64).toNat
  if offset < a.slots then some offset else none

def priceAt (a : ArraySide) (index : Nat) : Int64 :=
  (a.base.toUInt64 + UInt64.ofNat index).toInt64

def betterIndex (a : ArraySide) (candidate incumbent : Nat) : Bool :=
  match a.side with
  | .ask => decide (candidate < incumbent)
  | .bid => decide (incumbent < candidate)

def markDirty (a : ArraySide) (index : Nat) : ArraySide :=
  if a.dirtyHi < a.dirtyLo then { a with dirtyLo := index, dirtyHi := index }
  else { a with dirtyLo := min index a.dirtyLo, dirtyHi := max index a.dirtyHi }

def clearWindowSlots (a : ArraySide) : ArraySide :=
  { a with
    window := if a.dirtyLo ≤ a.dirtyHi then
        a.window.mapIdx fun i units => if a.dirtyLo ≤ i ∧ i ≤ a.dirtyHi then 0 else units
      else a.window
    dirtyLo := kNoDirty
    dirtyHi := 0 }

def overflowSet (a : ArraySide) (ticks units : Int64) : ArraySide :=
  { a with overflow :=
      SortedList.upsert (fun level : Level => level.price.ticks) ticks ⟨⟨ticks⟩, ⟨units⟩⟩ a.overflow }

def overflowErase (a : ArraySide) (ticks : Int64) : ArraySide :=
  { a with overflow :=
      SortedList.eraseKey (fun level : Level => level.price.ticks) ticks a.overflow }

def overflowTouch (a : ArraySide) : Option Level :=
  match a.side with
  | .ask => a.overflow.head?
  | .bid => a.overflow.getLast?

-- Slots a cursor walking inward from the touch may still visit; a cursor off the window is `none`.
def ahead (a : ArraySide) : Option Nat → Nat
  | none => 0
  | some i =>
    match a.side with
    | .ask => a.slots - i
    | .bid => i + 1

def step (a : ArraySide) (i : Nat) : Option Nat :=
  match a.side with
  | .ask => some (i + 1)
  | .bid => if i = 0 then none else some (i - 1)

theorem ahead_step (a : ArraySide) (i : Nat) (inside : i < a.slots) :
    a.ahead (a.step i) < a.ahead (some i) := by
  unfold step ahead
  cases a.side with
  | ask => dsimp only; omega
  | bid =>
    by_cases zero : i = 0
    · simp [zero]
    · simp only [zero, if_false]
      omega

-- The scan `while (0 <= i && i < slots && window[i] == 0) i += step`.
def skipEmpty (a : ArraySide) (cursor : Option Nat) : Option Nat :=
  match cursor with
  | none => none
  | some i =>
    if _ : i < a.slots then
      if a.slot i = 0 then a.skipEmpty (a.step i) else some i
    else none
termination_by a.ahead cursor
decreasing_by exact a.ahead_step i ‹_›

theorem ahead_skipEmpty (a : ArraySide) (cursor : Option Nat) :
    a.ahead (a.skipEmpty cursor) ≤ a.ahead cursor := by
  induction cursor using skipEmpty.induct a with
  | case1 => simp [skipEmpty]
  | case2 i inside empty ih =>
    rw [skipEmpty, dif_pos inside, if_pos empty]
    exact ih.trans (a.ahead_step i inside).le
  | case3 i inside occupied => rw [skipEmpty, dif_pos inside, if_neg occupied]
  | case4 i outside => simp [skipEmpty, outside, ahead]

def advanceBestAfterRemoval (a : ArraySide) : ArraySide :=
  if a.windowCount = 0 then { a with bestIndex := 0 }
  else { a with bestIndex := (a.skipEmpty (a.step a.bestIndex)).getD 0 }

def size (a : ArraySide) : Nat := a.windowCount + a.overflow.length

def windowLevel (a : ArraySide) (index : Nat) : Level := ⟨⟨a.priceAt index⟩, ⟨a.slot index⟩⟩

def best (a : ArraySide) : Option Level :=
  if a.anchored ∧ 0 < a.windowCount then
    match a.overflowTouch with
    | none => some (a.windowLevel a.bestIndex)
    | some spill =>
      if precedes a.side (a.priceAt a.bestIndex) spill.price.ticks then
        some (a.windowLevel a.bestIndex)
      else some spill
  else a.overflowTouch

def seekOccupied (a : ArraySide) (emitted : Nat) (cursor : Option Nat) : Option Nat :=
  if a.windowCount ≤ emitted then none else a.skipEmpty cursor

theorem ahead_seekOccupied (a : ArraySide) (emitted : Nat) (cursor : Option Nat) :
    a.ahead (a.seekOccupied emitted cursor) ≤ a.ahead cursor := by
  unfold seekOccupied
  split
  · simp [ahead]
  · exact a.ahead_skipEmpty cursor

def takeWindow (a : ArraySide) (i : Nat) : List Level → Bool
  | [] => true
  | spill :: _ => precedes a.side (a.priceAt i) spill.price.ticks

-- The two-way merge; `spilled` is what the spill cursor has not taken yet, in book order. The
-- window cursor always stands on a slot of the window, so the last branch is never taken.
def forEachLoop {σ : Type} (a : ArraySide) (fn : σ → Level → σ × Bool) (state : σ)
    (emitted : Nat) (cursor : Option Nat) (spilled : List Level) : σ :=
  match cursor, spilled with
  | none, [] => state
  | none, spill :: rest =>
    if (fn state spill).2 then a.forEachLoop fn (fn state spill).1 emitted none rest
    else (fn state spill).1
  | some i, spilled =>
    if _ : i < a.slots then
      if a.takeWindow i spilled then
        let level := a.windowLevel i
        if (fn state level).2 then
          a.forEachLoop fn (fn state level).1 (emitted + 1)
            (a.seekOccupied (emitted + 1) (a.step i)) spilled
        else (fn state level).1
      else
        match spilled with
        | [] => state
        | spill :: rest =>
          if (fn state spill).2 then a.forEachLoop fn (fn state spill).1 emitted (some i) rest
          else (fn state spill).1
    else state
termination_by a.ahead cursor + spilled.length
decreasing_by
  · simp
  · have seek := a.ahead_seekOccupied (emitted + 1) (a.step i)
    have step := a.ahead_step i ‹_›
    omega
  · simp

def spilled (a : ArraySide) : List Level :=
  match a.side with
  | .ask => a.overflow
  | .bid => a.overflow.reverse

def forEach {σ : Type} (a : ArraySide) (fn : σ → Level → σ × Bool) (state : σ) : σ :=
  let start := if a.anchored ∧ 0 < a.windowCount then a.seekOccupied 0 (some a.bestIndex) else none
  a.forEachLoop fn state 0 start a.spilled

def rebuildPlace (a : ArraySide) (level : Level) : ArraySide :=
  match a.windowIndex level.price.ticks with
  | some index =>
    -- The levels come in book order, so the first one placed is the best of the window.
    let a := if a.windowCount = 0 then { a with bestIndex := index } else a
    let a := (a.store index level.qty.units).markDirty index
    { a with windowCount := a.windowCount + 1 }
  | none => { a with overflow := a.overflow ++ [level] }

def refill (a : ArraySide) (touch : Int64) (levels : List Level) : ArraySide :=
  let a := { a.clearWindowSlots with overflow := [], windowCount := 0, bestIndex := 0 }
  let a := { a with base := a.anchorFor touch, anchored := true }
  let a := levels.foldl rebuildPlace a
  -- Appended in book order, while the list is kept ascending: a bid run is reversed.
  { a with overflow := a.spilled }

def rebuildAroundTouch (a : ArraySide) : ArraySide :=
  let a := { a with rebuildCount := a.rebuildCount + 1 }
  let before := a.overflow.length
  match a.forEach Visit.collect [] with
  | [] => a
  | first :: rest =>
    let a := a.refill first.price.ticks (first :: rest)
    let after := a.overflow.length
    -- Degraded is what a rebuild leaves that did not shrink the spill, whatever its prices.
    { a with overflowFloor := after, degraded := decide (0 < after ∧ before ≤ after) }

def applyWindow (a : ArraySide) (index : Nat) (qty : Qty) : ArraySide :=
  if qty.isZero then
    if a.slot index ≠ 0 then
      let a := { a.store index 0 with windowCount := a.windowCount - 1 }
      if index = a.bestIndex then a.advanceBestAfterRemoval else a
    else a
  else
    let a := if a.slot index = 0 then
        { a with
          bestIndex := if a.windowCount = 0 || a.betterIndex index a.bestIndex then index
            else a.bestIndex
          windowCount := a.windowCount + 1 }
      else a
    (a.store index qty.units).markDirty index

def applyOverflow (a : ArraySide) (ticks : Int64) (qty : Qty) : ArraySide :=
  if qty.isZero then
    let a := a.overflowErase ticks
    -- The floor follows a shrinking spill down, so that the next growth counts from there.
    let a := if a.overflow.length < a.overflowFloor then
        { a with overflowFloor := a.overflow.length } else a
    if a.overflow.isEmpty then { a with degraded := false } else a
  else
    let a := a.overflowSet ticks qty.units
    if a.overflowFloor + kOverflowRebuildThreshold < a.overflow.length then a.rebuildAroundTouch
    else a

def apply (a : ArraySide) (price : Price) (qty : Qty) : ArraySide :=
  let ticks := price.ticks
  if !a.anchored && qty.isZero then a
  else
    -- The first level of a side places its window.
    let a := if a.anchored then a else { a with base := a.anchorFor ticks, anchored := true }
    match a.windowIndex ticks with
    | some index => a.applyWindow index qty
    | none => a.applyOverflow ticks qty

def clear (a : ArraySide) : ArraySide :=
  { a.clearWindowSlots with
    overflow := []
    windowCount := 0
    bestIndex := 0
    anchored := false
    base := 0
    overflowFloor := 0
    degraded := false }

end ArraySide

end Crossbook
