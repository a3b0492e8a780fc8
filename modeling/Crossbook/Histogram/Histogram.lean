import Crossbook.Lib.Loop

set_option autoImplicit false

namespace Crossbook

/-- The constants a histogram fixes when it is built: its value→index mapping. -/
@[ext]
structure Layout where
  highestTrackable : UInt64
  subBucketMagnitude : UInt64
  subBucketHalfMagnitude : UInt64
  subBucketCount : UInt64
  subBucketHalfCount : UInt64
  subBucketMask : UInt64
  bucketCount : UInt64
deriving DecidableEq, Repr

@[ext]
structure Histogram extends Layout where
  counts : Array UInt64
  totalCount : UInt64
  totalSum : UInt64
  overflowCount : UInt64
  min_ : UInt64
  max_ : UInt64
deriving DecidableEq, Repr

def kUInt64Max : UInt64 := 0xFFFFFFFFFFFFFFFF

def clampFigures (significantFigures : Int) : Int :=
  let figures := if significantFigures < 1 then 1 else significantFigures
  if figures > 5 then 5 else figures

def clampHighest (highestTrackable : UInt64) : UInt64 :=
  let highest := if highestTrackable < 2 then 2 else highestTrackable
  if highest > (1 : UInt64) <<< 62 then (1 : UInt64) <<< 62 else highest

def largestSingleUnit (significantFigures : Int) : UInt64 :=
  (List.range significantFigures.toNat).foldl (fun unit _ => unit * 10) 2

def magnitudeStep (largest magnitude : UInt64) : UInt64 ⊕ UInt64 :=
  if 1 <<< magnitude < largest then .inl (magnitude + 1) else .inr magnitude

def coverStep (highestTrackable : UInt64) (state : UInt64 × UInt64) : (UInt64 × UInt64) ⊕ UInt64 :=
  let (covered, bucketCount) := state
  if covered ≤ highestTrackable then .inl (covered <<< 1, bucketCount + 1) else .inr bucketCount

def Layout.fill (highestTrackable magnitude bucketCount : UInt64) : Layout where
  highestTrackable
  subBucketMagnitude := magnitude
  subBucketHalfMagnitude := magnitude - 1
  subBucketCount := 1 <<< magnitude
  subBucketHalfCount := (1 <<< magnitude) >>> 1
  subBucketMask := 1 <<< magnitude - 1
  bucketCount

/-- The constructor's arithmetic; `none` would be a sizing loop that does not end. -/
def Layout.create (highestTrackable : UInt64) (significantFigures : Int) : Option Layout := do
  let highest := clampHighest highestTrackable
  let largest := largestSingleUnit (clampFigures significantFigures)
  let magnitude ← Loop.run (magnitudeStep largest) 64 1
  let bucketCount ← Loop.run (coverStep highest) 64 (1 <<< magnitude, 1)
  return fill highest magnitude bucketCount

namespace Layout

def countLeadingZeros (value : UInt64) : Nat :=
  if value = 0 then 64 else 63 - value.toNat.log2

def bucketIndex (layout : Layout) (value : UInt64) : UInt64 :=
  let masked := value ||| layout.subBucketMask
  let leading := countLeadingZeros masked
  let pow2ceiling := 64 - leading
  UInt64.ofNat pow2ceiling - layout.subBucketMagnitude

def subBucketIndex (value bucket : UInt64) : UInt64 := value >>> bucket

-- `offset` wraps below zero in the first bucket, and `base` brings it back.
def indexFor (layout : Layout) (value : UInt64) : Nat :=
  let bucket := layout.bucketIndex value
  let sub := subBucketIndex value bucket
  let base := (bucket + 1) <<< layout.subBucketHalfMagnitude
  let offset := sub - layout.subBucketHalfCount
  (base + offset).toNat

def bucketWidth (layout : Layout) (value : UInt64) : UInt64 := 1 <<< layout.bucketIndex value

def lowestEquivalentValue (layout : Layout) (value : UInt64) : UInt64 :=
  let bucket := layout.bucketIndex value
  let sub := subBucketIndex value bucket
  sub <<< bucket

def highestEquivalentValue (layout : Layout) (value : UInt64) : UInt64 :=
  layout.lowestEquivalentValue value + layout.bucketWidth value - 1

def valueAtIndex (layout : Layout) (index : Nat) : UInt64 :=
  let index := UInt64.ofNat index
  let bucket := (index >>> layout.subBucketHalfMagnitude).toInt64 - 1
  let sub := (index &&& (layout.subBucketHalfCount - 1)).toInt64 +
    layout.subBucketHalfCount.toInt64
  if bucket < 0 then (sub - layout.subBucketHalfCount.toInt64).toUInt64 <<< (0 : UInt64)
  else sub.toUInt64 <<< bucket.toUInt64

def countsSize (layout : Layout) : Nat :=
  ((layout.bucketCount + 1) * layout.subBucketHalfCount).toNat

/-- The triple two histograms are compared by before they are merged. -/
def bucketLayout (layout : Layout) : UInt64 × UInt64 × UInt64 :=
  (layout.subBucketMagnitude, layout.bucketCount, layout.highestTrackable)

end Layout

namespace Histogram

def empty (layout : Layout) : Histogram :=
  { layout with
    counts := Array.replicate layout.countsSize 0
    totalCount := 0
    totalSum := 0
    overflowCount := 0
    min_ := kUInt64Max
    max_ := 0 }

/-- The value a sample is counted as, and whether it was above the range. -/
def clamped (h : Histogram) (value : UInt64) : UInt64 × Bool :=
  if value > h.highestTrackable then (h.highestTrackable, true) else (value, false)

-- `modify` drops a count outside the array, which the source would write past its end.
def record (h : Histogram) (value : UInt64) : Histogram :=
  let (value, above) := h.clamped value
  let totalCount := h.totalCount + 1
  { h with
    overflowCount := if above then h.overflowCount + 1 else h.overflowCount
    counts := h.counts.modify (h.indexFor value) (· + 1)
    totalCount
    totalSum := h.totalSum + value
    -- A total of one is the first sample, or the first after the counter has wrapped.
    max_ := if value > h.max_ ∨ totalCount = 1 then value else h.max_
    min_ := if value < h.min_ ∨ totalCount = 1 then value else h.min_ }

protected def min (h : Histogram) : UInt64 := if h.totalCount = 0 then 0 else h.min_

protected def max (h : Histogram) : UInt64 := if h.totalCount = 0 then 0 else h.max_

def count (h : Histogram) : UInt64 := h.totalCount

def bucketTotal (h : Histogram) : UInt64 := h.counts.foldl (· + ·) 0

/-- The scan of `percentile`, at bucket `i` with `seen` samples behind it. -/
def rankScan (h : Histogram) (target : UInt64) : Nat → UInt64 → List UInt64 → UInt64
  | _, _, [] => h.max_
  | i, seen, count :: rest =>
    let seen := seen + count
    if seen ≥ target then min (h.highestEquivalentValue (h.valueAtIndex i)) h.max_
    else rankScan h target (i + 1) seen rest

/-- `rounded` is the share of the count that the source computes in floating point. -/
def percentile (h : Histogram) (rounded : UInt64) : UInt64 :=
  if h.totalCount = 0 then 0
  else
    -- The rank is kept between the first sample and the last.
    let target := if rounded = 0 then 1 else rounded
    let target := if target > h.totalCount then h.totalCount else target
    h.rankScan target 0 0 h.counts.toList

def reset (h : Histogram) : Histogram :=
  { h with
    counts := h.counts.map fun _ => 0
    totalCount := 0
    totalSum := 0
    overflowCount := 0
    min_ := kUInt64Max
    max_ := 0 }

def merge (h other : Histogram) : Histogram × Bool :=
  if other.bucketLayout ≠ h.bucketLayout then (h, false)
  else
    let counts := h.counts.mapIdx fun i count => count + other.counts.getD i 0
    let extremes :=
      if other.totalCount > 0 then
        (if h.totalCount = 0 then other.min_ else min h.min_ other.min_,
          max h.max_ other.max_)
      else (h.min_, h.max_)
    ({ h with
        counts
        min_ := extremes.1
        max_ := extremes.2
        totalCount := h.totalCount + other.totalCount
        totalSum := h.totalSum + other.totalSum
        overflowCount := h.overflowCount + other.overflowCount }, true)

end Histogram

end Crossbook
