import Crossbook.Lib.PartitionPoint
import Crossbook.Types

set_option autoImplicit false

namespace Crossbook

namespace Replay

structure ReplayEvent where
  tsRecv : Timestamp
  frame : Bytes
deriving DecidableEq, Repr

def nthElement (xs : List UInt64) (n : Nat) : UInt64 := (xs.insertionSort (· ≤ ·)).getD n 0

def interArrivalNs : List ReplayEvent → List UInt64
  | [] => []
  | [_] => []
  | before :: event :: rest =>
    let delta := event.tsRecv - before.tsRecv
    (if 0 < delta then delta.toUInt64 else 0) :: interArrivalNs (event :: rest)

def medianIntervalNs (events : List ReplayEvent) : UInt64 :=
  if events.length < 2 then 0
  else
    let gaps := interArrivalNs events
    nthElement gaps (gaps.length / 2)

def tileCapture (events : List ReplayEvent) (loops : UInt64) (stride : Timestamp) :
    List ReplayEvent :=
  if events.isEmpty ∨ loops = 0 then []
  else
    (List.range loops.toNat).flatMap fun k =>
      let shift := (UInt64.ofNat k).toInt64 * stride
      events.map fun e => { tsRecv := e.tsRecv + shift, frame := e.frame }

/-- From the first event to the last; without events nothing reads it. -/
def captureSpan (events : List ReplayEvent) : Timestamp :=
  match events.head?, events.getLast? with
  | some front, some back => back.tsRecv - front.tsRecv
  | _, _ => 0

/-- The copy-to-copy shift of a sweep, and none for a capture that defines no rate. -/
def sweepStride (events : List ReplayEvent) : Option Timestamp :=
  if events.length < 2 then none
  else if captureSpan events ≤ 0 then none
  else
    let gap := medianIntervalNs events
    -- The stride always advances.
    let gap := if gap = 0 then 1 else gap
    some (captureSpan events + gap.toInt64)

/-- A budget that caps a rung, as the conversions from floating point leave it. -/
structure Budget where
  /-- Recorded nanoseconds covered. -/
  span : Timestamp
  /-- Whole strides covered. -/
  strides : UInt64
  /-- The source drops a budget from `9e18` on. -/
  strides_small : strides.toNat < 9 * 10 ^ 18

def sweepLoops (perLoop wanted : UInt64) (budget : Option Budget) : UInt64 :=
  let loops := (wanted + perLoop - 1) / perLoop
  let loops := if loops = 0 then 1 else loops
  match budget with
  | none => loops
  | some budget => min loops (budget.strides + 1)

/-- The prefix up to the cutoff, and at least two events. -/
def cutBudget (tiled : List ReplayEvent) (cutoff : Timestamp) : List ReplayEvent :=
  let keepEnd := PartitionPoint.partitionPoint (fun e => decide (e.tsRecv ≤ cutoff)) tiled
  tiled.take (if keepEnd < 2 then 2 else keepEnd)

def sweepTiled (events : List ReplayEvent) (stride : Timestamp) (wanted : UInt64)
    (budget : Option Budget) : List ReplayEvent :=
  let loops := sweepLoops (UInt64.ofNat events.length) wanted budget
  let tiled := tileCapture events loops stride
  match budget with
  | none => tiled
  | some budget =>
    match events.head? with
    | none => tiled
    | some first => cutBudget tiled (first.tsRecv + budget.span)

end Replay

end Crossbook
