import Crossbook.Book.RebuildHysteresis

set_option autoImplicit false

namespace Crossbook

def priceRange (levels : List Level) : Int :=
  let prices := levels.map fun level => level.price.ticks.toInt
  prices.max?.getD 0 - prices.min?.getD 0

def FitsWindow (slots : Nat) (levels : List Level) : Prop :=
  ∃ base : Int, ∀ level ∈ levels,
    base ≤ level.price.ticks.toInt ∧ level.price.ticks.toInt < base + slots

theorem fitsWindow_iff (slots : Nat) {levels : List Level} (some : levels ≠ []) :
    FitsWindow slots levels ↔ priceRange levels < slots := by
  have nonempty : levels.map (fun level => level.price.ticks.toInt) ≠ [] := by simpa using some
  obtain ⟨highest, top⟩ := Option.isSome_iff_exists.mp (List.isSome_max?_of_ne_nil nonempty)
  obtain ⟨lowest, bottom⟩ := Option.isSome_iff_exists.mp (List.isSome_min?_of_ne_nil nonempty)
  have range : priceRange levels = highest - lowest := by
    simp only [priceRange, top, bottom, Option.getD_some]
  obtain ⟨topMember, above⟩ := List.max?_eq_some_iff.mp top
  obtain ⟨bottomMember, below⟩ := List.min?_eq_some_iff.mp bottom
  rw [range]
  constructor
  · intro ⟨base, inside⟩
    obtain ⟨high, highMember, rfl⟩ := List.mem_map.mp topMember
    obtain ⟨low, lowMember, rfl⟩ := List.mem_map.mp bottomMember
    have first := (inside low lowMember).1
    have last := (inside high highMember).2
    omega
  · intro narrow
    refine ⟨lowest, ?_⟩
    intro level member
    have low := below _ (List.mem_map_of_mem member)
    have high := above _ (List.mem_map_of_mem member)
    exact ⟨low, by omega⟩

namespace ArraySide

def outsideCount (a : ArraySide) (base : Int64) (levels : List Level) : Nat :=
  levels.countP fun level => (windowIndex { a with base := base } level.price.ticks).isNone

theorem outsideCount_congr {a b : ArraySide} (slots : b.slots = a.slots) (base : Int64)
    (levels : List Level) : b.outsideCount base levels = a.outsideCount base levels := by
  simp only [outsideCount, windowIndex, slots]

theorem length_rebuildPlace (a : ArraySide) (level : Level) :
    (a.rebuildPlace level).overflow.length =
      a.overflow.length + a.outsideCount a.base [level] := by
  unfold rebuildPlace
  cases found : a.windowIndex level.price.ticks with
  | none => simp [outsideCount, found]
  | some index =>
    dsimp only
    rw [overflow_markDirty, overflow_store]
    simp only [outsideCount, List.countP_singleton, found]
    split <;> simp

theorem length_foldl_rebuildPlace (levels : List Level) (a : ArraySide) :
    (levels.foldl rebuildPlace a).overflow.length =
      a.overflow.length + a.outsideCount a.base levels := by
  induction levels generalizing a with
  | nil => simp [outsideCount]
  | cons level rest ih =>
    have split : a.outsideCount a.base (level :: rest) =
        a.outsideCount a.base [level] + a.outsideCount a.base rest := by
      rw [← List.singleton_append, outsideCount, List.countP_append]
      rfl
    have kept := placeKept_rebuildPlace a level
    rw [List.foldl_cons, ih, length_rebuildPlace, kept.base,
      outsideCount_congr kept.slots, split, Nat.add_assoc]

theorem length_spilled (a : ArraySide) : a.spilled.length = a.overflow.length := by
  unfold spilled
  cases a.side <;> simp

theorem length_refill (a : ArraySide) (touch : Int64) (levels : List Level) :
    (a.refill touch levels).overflow.length = a.outsideCount (a.anchorFor touch) levels := by
  -- A refill spills the levels that the new window has no place for.
  unfold refill
  dsimp only
  rw [length_spilled, length_foldl_rebuildPlace, List.length_nil, Nat.zero_add]
  exact outsideCount_congr rfl _ levels

theorem rebuilt_degraded {a : ArraySide} (wf : a.Wf) (spilled : a.overflow ≠ []) {first : Level}
    {rest : List Level} (levels : a.bookLevels = first :: rest) :
    a.rebuildAroundTouch.degraded = true ↔
      a.overflow.length ≤ a.outsideCount (a.anchorFor first.price.ticks) a.bookLevels := by
  -- A rebuild that spills no less than there was before it leaves the side degraded.
  have before := List.length_pos_of_ne_nil spilled
  have after : (ArraySide.refill { a with rebuildCount := a.rebuildCount + 1 }
      first.price.ticks (first :: rest)).overflow.length =
      a.outsideCount (a.anchorFor first.price.ticks) (first :: rest) :=
    length_refill _ _ _
  rw [rebuildAroundTouch_eq wf, levels]
  simp only [decide_eq_true_eq, after]
  omega

theorem rebuilt_levels {a : ArraySide} (wf : a.Wf) :
    a.rebuildAroundTouch.bookLevels = a.bookLevels := by
  obtain ⟨rebuilt, side, same⟩ := rebuildAroundTouch_spec wf
  have ordered := bookLevels_bookOrder rebuilt
  rw [side] at ordered
  exact ordered.eq_of_mem_iff (bookLevels_bookOrder wf) same

section Touch

def behindTouch (side : Side) (touch price : Int) : Int :=
  match side with
  | .ask => price - touch
  | .bid => touch - price

def IsTouch (side : Side) (touch : Int) (prices : List Int) : Prop :=
  touch ∈ prices ∧ ∀ price ∈ prices, 0 ≤ behindTouch side touch price

theorem IsTouch.unique {side : Side} {first second : Int} {prices : List Int}
    (left : IsTouch side first prices) (right : IsTouch side second prices) : first = second := by
  have near := left.2 second right.1
  have far := right.2 first left.1
  unfold behindTouch at near far
  cases side <;> dsimp only at near far <;> omega

theorem IsTouch.perm {side : Side} {touch : Int} {prices others : List Int}
    (isTouch : IsTouch side touch prices) (perm : others.Perm prices) :
    IsTouch side touch others :=
  ⟨perm.mem_iff.mpr isTouch.1, fun price member => isTouch.2 price (perm.mem_iff.mp member)⟩

theorem precedes_behind {side : Side} {first second : Int64}
    (order : precedes side first second = true) :
    0 < behindTouch side first.toInt second.toInt := by
  unfold precedes at order
  unfold behindTouch
  cases side <;>
    simp only [decide_eq_true_eq, Int64.lt_iff_toInt_lt] at order ⊢ <;> omega

theorem head_isTouch {side : Side} {first : Level} {rest : List Level}
    (ordered : BookOrder side (first :: rest)) :
    IsTouch side first.price.ticks.toInt
      ((first :: rest).map fun level => level.price.ticks.toInt) := by
  refine ⟨List.mem_cons_self, ?_⟩
  refine List.forall_mem_map.mpr (List.forall_mem_cons.mpr ⟨?_, ?_⟩)
  · cases side <;> simp [behindTouch]
  · intro level member
    exact (precedes_behind ((List.pairwise_cons.mp ordered).1 level member)).le

theorem nodup_prices {side : Side} {levels : List Level} (ordered : BookOrder side levels) :
    (levels.map fun level => level.price.ticks.toInt).Nodup := by
  refine List.pairwise_map.mpr (ordered.imp ?_)
  intro first second order same
  have apart := precedes_behind order
  unfold behindTouch at apart
  cases side <;> dsimp only at apart <;> omega

theorem fitsWindow_iff_behind {side : Side} {touch : Int} {levels : List Level}
    (isTouch : IsTouch side touch (levels.map fun level => level.price.ticks.toInt)) (slots : Nat) :
    FitsWindow slots levels ↔
      ∀ price ∈ levels.map (fun level => level.price.ticks.toInt),
        behindTouch side touch price < slots := by
  obtain ⟨member, behind⟩ := isTouch
  obtain ⟨best, held, rfl⟩ := List.mem_map.mp member
  rw [List.forall_mem_map] at behind ⊢
  constructor
  · rintro ⟨base, inside⟩ level here
    have front := inside best held
    have back := inside level here
    unfold behindTouch
    cases side <;> dsimp only <;> omega
  · intro narrow
    cases side with
    | ask =>
      refine ⟨best.price.ticks.toInt, fun level here => ?_⟩
      have far := narrow level here
      have near := behind level here
      unfold behindTouch at far near
      dsimp only at far near
      omega
    | bid =>
      refine ⟨best.price.ticks.toInt - slots + 1, fun level here => ?_⟩
      have far := narrow level here
      have near := behind level here
      unfold behindTouch at far near
      dsimp only at far near
      omega

def aheadOfTouch (side : Side) (slots : Nat) (touch : Int) : Int :=
  match side with
  | .ask => min (slots / 2 : Nat) (touch + 2 ^ 63)
  | .bid => min (slots - slots / 2 - 1 : Nat) (2 ^ 63 - 1 - touch)

/-- Where a window of `slots` prices lies once it is centred on the touch and kept within the range
of a price. -/
def centredBase (slots : Nat) (touch : Int) : Int :=
  max (-2 ^ 63) (min (touch - (slots / 2 : Nat)) (2 ^ 63 - 1 - (slots - 1 : Nat)))

theorem anchorFor_toInt (a : ArraySide) (touch : Int64) (bound : a.slots < 2 ^ 63) :
    (a.anchorFor touch).toInt = centredBase a.slots touch.toInt := by
  have half : (Int64.ofNat (a.slots / 2)).toInt = (a.slots / 2 : Nat) :=
    Int64.toInt_ofNat_of_lt (by omega)
  have low : Int64.minValue.toInt = -2 ^ 63 := Int64.toInt_minValue
  have high : Int64.maxValue.toInt = 2 ^ 63 - 1 := Int64.toInt_maxValue
  have touchLow := touch.le_toInt
  have touchHigh := touch.toInt_lt
  have span : (if a.slots = 0 then 0 else Int64.ofNat (a.slots - 1)).toInt = (a.slots - 1 : Nat) := by
    split
    next none => simp [none]
    next => exact Int64.toInt_ofNat_of_lt (by omega)
  unfold anchorFor centredBase
  dsimp only
  generalize (if a.slots = 0 then (0 : Int64) else Int64.ofNat (a.slots - 1)) = back at span ⊢
  have floor := MachineInt.toInt_add_of_fits Int64.minValue (Int64.ofNat (a.slots / 2))
    (by omega) (by omega)
  have highest := MachineInt.toInt_sub_of_fits Int64.maxValue back (by omega) (by omega)
  split
  next below =>
    rw [Int64.lt_iff_toInt_lt] at below
    omega
  next above =>
    rw [Int64.lt_iff_toInt_lt] at above
    have centred := MachineInt.toInt_sub_of_fits touch (Int64.ofNat (a.slots / 2))
      (by omega) (by omega)
    split
    next beyond =>
      rw [Int64.lt_iff_toInt_lt] at beyond
      omega
    next inside =>
      rw [Int64.lt_iff_toInt_lt] at inside
      omega

theorem windowIndex_isNone (a : ArraySide) (fits : a.base.toInt + a.slots ≤ 2 ^ 63)
    (ticks : Int64) : (a.windowIndex ticks).isNone = true ↔
      ¬ (a.base.toInt ≤ ticks.toInt ∧ ticks.toInt < a.base.toInt + a.slots) := by
  rw [Option.isNone_iff_eq_none, windowIndex]
  constructor
  · rintro missed ⟨low, high⟩
    obtain ⟨i, same⟩ := Int.eq_ofNat_of_zero_le (Int.sub_nonneg_of_le low)
    have inside : i < a.slots := by omega
    have offset := (MachineInt.offset_eq_iff a.base ticks _ i inside fits).mpr (by omega)
    rw [offset, if_pos inside] at missed
    contradiction
  · intro outside
    refine if_neg fun inside => outside ?_
    have same := (MachineInt.offset_eq_iff a.base ticks _ _ inside fits).mp rfl
    omega

theorem centred_outside {side : Side} {slots : Nat} {touch ticks : Int} (bound : slots < 2 ^ 63)
    (behind : 0 ≤ behindTouch side touch ticks) (touchLow : -2 ^ 63 ≤ touch)
    (touchHigh : touch < 2 ^ 63) (ticksLow : -2 ^ 63 ≤ ticks) (ticksHigh : ticks < 2 ^ 63) :
    ¬ (centredBase slots touch ≤ ticks ∧ ticks < centredBase slots touch + slots) ↔
      slots - aheadOfTouch side slots touch ≤ behindTouch side touch ticks := by
  unfold centredBase aheadOfTouch
  unfold behindTouch at behind ⊢
  cases side <;> dsimp only at behind ⊢ <;> omega

theorem centred_isNone (a : ArraySide) (bound : a.slots < 2 ^ 63) (touch ticks : Int64)
    (behind : 0 ≤ behindTouch a.side touch.toInt ticks.toInt) :
    (windowIndex { a with base := a.anchorFor touch } ticks).isNone = true ↔
      a.slots - aheadOfTouch a.side a.slots touch.toInt ≤
        behindTouch a.side touch.toInt ticks.toInt := by
  -- What a window centred on the touch leaves out: what is farther behind the touch than the
  -- window reaches.
  have base := a.anchorFor_toInt touch bound
  have touchLow := touch.le_toInt
  have touchHigh := touch.toInt_lt
  have ticksLow := ticks.le_toInt
  have ticksHigh := ticks.toInt_lt
  rw [windowIndex_isNone { a with base := a.anchorFor touch } (a.anchorFor_fits touch bound)]
  dsimp only
  rw [base]
  exact centred_outside bound behind touchLow touchHigh ticksLow ticksHigh

end Touch

section Lopsided

def pricesWith (a : ArraySide) (price : Price) : List Int :=
  price.ticks.toInt :: a.bookLevels.map fun level => level.price.ticks.toInt

def touchWith (a : ArraySide) (price : Price) : Int :=
  match a.side with
  | .ask => (a.pricesWith price).min?.getD 0
  | .bid => (a.pricesWith price).max?.getD 0

/-- A side that takes no more spilled levels, and to which one is added at `price`: all of its prices
would fit a window from the touch back, and those that a window centred on the touch does not reach
are no fewer than the levels outside the window as it stands. -/
structure Lopsided (a : ArraySide) (price : Price) : Prop where
  full : a.overflow.length = a.overflowFloor + kOverflowRebuildThreshold
  narrow : ∀ p ∈ a.pricesWith price, behindTouch a.side (a.touchWith price) p < a.slots
  outer : a.overflow.length + 1 ≤ (a.pricesWith price).countP fun p =>
    decide (a.slots - aheadOfTouch a.side a.slots (a.touchWith price) ≤
      behindTouch a.side (a.touchWith price) p)

/-- The call adds no level outside the window of a lopsided side. -/
def KeepsBalance (a : ArraySide) : SideCall → Prop
  | .apply price qty => a.SpillsNew (.apply price qty) → ¬ a.Lopsided price
  | .clear => True

theorem touchWith_isTouch (a : ArraySide) (price : Price) :
    IsTouch a.side (a.touchWith price) (a.pricesWith price) := by
  have some_ : a.pricesWith price ≠ [] := List.cons_ne_nil _ _
  unfold touchWith
  cases side : a.side with
  | ask =>
    obtain ⟨lowest, found⟩ := Option.isSome_iff_exists.mp (List.isSome_min?_of_ne_nil some_)
    obtain ⟨member, below⟩ := List.min?_eq_some_iff.mp found
    simp only [found, Option.getD_some]
    exact ⟨member, fun p here => Int.sub_nonneg_of_le (below p here)⟩
  | bid =>
    obtain ⟨highest, found⟩ := Option.isSome_iff_exists.mp (List.isSome_max?_of_ne_nil some_)
    obtain ⟨member, above⟩ := List.max?_eq_some_iff.mp found
    simp only [found, Option.getD_some]
    exact ⟨member, fun p here => Int.sub_nonneg_of_le (above p here)⟩

theorem inserted_prices {a : ArraySide} (wf : a.Wf) {price : Price} {qty : Qty}
    (new : a.SpillsNew (.apply price qty)) :
    ((a.inserted price qty).bookLevels.map fun level => level.price.ticks.toInt).Perm
      (a.pricesWith price) := by
  obtain ⟨spills, absent⟩ := new
  obtain ⟨based, side, anchored, levels⟩ := anchorAt_spec wf price.ticks
  obtain ⟨final, members⟩ := overflowSet_correct based anchored price spills.1 spills.2
  have apart : price.ticks.toInt ∉ a.bookLevels.map fun level => level.price.ticks.toInt := by
    intro member
    obtain ⟨level, held, same⟩ := List.mem_map.mp member
    exact absent level held (congrArg Price.mk (Int64.toInt_inj.mp same))
  refine (List.perm_ext_iff_of_nodup (nodup_prices (bookLevels_bookOrder final))
    (List.nodup_cons.mpr ⟨apart, nodup_prices (bookLevels_bookOrder wf)⟩)).mpr fun p => ?_
  rw [List.mem_cons, List.mem_map, List.mem_map]
  constructor
  · rintro ⟨level, held, rfl⟩
    have old := (members level).mp held
    split at old
    next same => exact .inl (congrArg (fun price : Price => price.ticks.toInt) same)
    next => exact .inr ⟨level, (levels level).mp old, rfl⟩
  · rintro (rfl | ⟨level, held, rfl⟩)
    · exact ⟨⟨price, qty⟩, (members _).mpr (by simp [spills.1]), rfl⟩
    · refine ⟨level, (members level).mpr ?_, rfl⟩
      rw [if_neg (absent level held)]
      exact (levels level).mpr held

end Lopsided

/-- A rebuild that leaves the side degraded found a range no window of its slots can hold. -/
def DegradedTruthful (a : ArraySide) (call : SideCall) : Prop :=
  (a.call call).rebuildCount ≠ a.rebuildCount → (a.call call).degraded = true →
    a.slots ≤ priceRange (a.call call).bookLevels ∧ ¬ FitsWindow a.slots (a.call call).bookLevels

theorem rebuilt_truthful_iff {a : ArraySide} (wf : a.Wf) {price : Price} {qty : Qty}
    (new : a.SpillsNew (.apply price qty))
    (full : a.overflow.length = a.overflowFloor + kOverflowRebuildThreshold) :
    ((a.inserted price qty).rebuildAroundTouch.degraded = true →
      ¬ FitsWindow a.slots (a.inserted price qty).bookLevels) ↔ ¬ a.Lopsided price := by
  obtain ⟨based, side, anchored, -⟩ := anchorAt_spec wf price.ticks
  have slots : (a.inserted price qty).slots = a.slots := by
    unfold inserted anchorAt
    split <;> rfl
  have wfInserted := inserted_wf wf new.1
  have length := length_inserted wf new.1
  rw [if_pos new] at length
  have some_ : (a.inserted price qty).overflow ≠ [] := by
    intro none
    rw [none] at length
    simp at length
  have prices := inserted_prices wf new
  have ordered := bookLevels_bookOrder wfInserted
  cases levels : (a.inserted price qty).bookLevels with
  | nil => exact absurd levels (bookLevels_ne_nil wfInserted some_)
  | cons first rest =>
    have sides : (a.inserted price qty).side = a.side := side
    rw [levels] at prices
    rw [levels, sides] at ordered
    have head := head_isTouch ordered
    have touch : first.price.ticks.toInt = a.touchWith price :=
      (head.perm prices.symm).unique (a.touchWith_isTouch price)
    have fits := fitsWindow_iff_behind head a.slots
    have narrow : FitsWindow a.slots (first :: rest) ↔
        ∀ p ∈ a.pricesWith price, behindTouch a.side (a.touchWith price) p < a.slots := by
      rw [fits, touch]
      exact forall_congr' fun p => by rw [prices.mem_iff]
    have outer : (a.inserted price qty).outsideCount
        ((a.inserted price qty).anchorFor first.price.ticks) (first :: rest) =
        (a.pricesWith price).countP fun p =>
          decide (a.slots - aheadOfTouch a.side a.slots (a.touchWith price) ≤
            behindTouch a.side (a.touchWith price) p) := by
      rw [← prices.countP_eq, List.countP_map, outsideCount]
      refine List.countP_congr fun level member => ?_
      have behind := head.2 _ (List.mem_map_of_mem member)
      rw [← sides] at behind
      rw [centred_isNone _ (slots ▸ wf.slots_lt) _ _ behind, sides, slots, touch]
      simp
    have degraded := rebuilt_degraded wfInserted some_ levels
    rw [levels, outer, length] at degraded
    rw [degraded, narrow]
    constructor
    · rintro truthful ⟨-, inside, behind⟩
      exact truthful behind inside
    · intro balanced behind inside
      exact balanced ⟨full, inside, behind⟩

theorem balanced_of_inside {a : ArraySide} {call : SideCall} (inside : ¬ a.Spills call) :
    a.KeepsBalance call := by
  cases call with
  | apply price qty => exact fun new => absurd new.1 inside
  | clear => exact trivial

theorem call_truthful_iff {a : ArraySide} (wf : a.Wf) (near : a.NearFloor) (call : SideCall) :
    a.DegradedTruthful call ↔ a.KeepsBalance call := by
  have idle (kept : (a.call call).rebuildCount = a.rebuildCount)
      (balanced : a.KeepsBalance call) : a.DegradedTruthful call ↔ a.KeepsBalance call :=
    iff_of_true (fun rebuilt => absurd kept rebuilt) balanced
  obtain ⟨noSpill, kept⟩ | ⟨price, qty, rfl, spills, result⟩ | ⟨noSpill, -, -, count⟩ :=
    call_cases wf call
  · exact idle kept.rebuildCount (balanced_of_inside noSpill)
  · have count : (a.inserted price qty).rebuildCount = a.rebuildCount :=
      (spillKept_anchorAt a price.ticks).rebuildCount
    have length := length_inserted wf spills
    have high := near.length_le
    by_cases new : a.SpillsNew (.apply price qty)
    · rw [if_pos new] at length
      by_cases full : a.overflow.length = a.overflowFloor + kOverflowRebuildThreshold
      · have wfInserted := inserted_wf wf spills
        have some_ : (a.inserted price qty).overflow ≠ [] := by
          intro none
          rw [none] at length
          simp at length
        have counted := (rebuilt_counters wfInserted some_).1
        have fits := fitsWindow_iff a.slots (bookLevels_ne_nil wfInserted some_)
        rw [if_pos (by omega)] at result
        have truthful := rebuilt_truthful_iff wf new full
        simp only [DegradedTruthful, KeepsBalance, result, rebuilt_levels wfInserted, counted, count,
          ne_eq, Nat.succ_ne_self, not_false_eq_true, forall_const, new, ← truthful, fits, not_lt,
          and_self]
      · rw [if_neg (by omega)] at result
        exact idle (by rw [result, count]) fun _ lopsided => full lopsided.full
    · rw [if_neg new] at length
      rw [if_neg (by omega)] at result
      exact idle (by rw [result, count]) fun spilled => absurd spilled new
  · exact idle count (balanced_of_inside noSpill)

theorem degraded_truthful_iff (side : Side) (slots : Nat) (bound : slots < 2 ^ 63)
    (calls : List SideCall) :
    Run.EachCall ArraySide.call DegradedTruthful (new side slots) calls ↔
      Run.EachCall ArraySide.call KeepsBalance (new side slots) calls := by
  have kept (before : List SideCall) : (before.foldl ArraySide.call (new side slots)).Wf ∧
      (before.foldl ArraySide.call (new side slots)).NearFloor :=
    run_nearFloor side slots bound before
  constructor
  · intro truthful before call isPrefix
    exact (call_truthful_iff (kept before).1 (kept before).2 call).mp (truthful before call isPrefix)
  · intro balanced before call isPrefix
    exact (call_truthful_iff (kept before).1 (kept before).2 call).mpr (balanced before call isPrefix)

theorem degraded_truthful_iff_one_slot :
    let calls := (List.range 80).map fun i => SideCall.apply ⟨Int64.ofNat i⟩ ⟨1⟩
    Run.EachCall ArraySide.call DegradedTruthful (new .bid 1) calls ↔
      Run.EachCall ArraySide.call KeepsBalance (new .bid 1) calls :=
  degraded_truthful_iff .bid 1 (by decide) _

-- A touch at 0, then asks in the upper half of the 130 prices from 0 to 129, the last left out.
def oneSidedCalls : List SideCall :=
  .apply ⟨0⟩ ⟨1⟩ :: (List.range 64).map fun i => .apply ⟨Int64.ofNat (65 + i)⟩ ⟨1⟩

theorem degraded_within_range :
    ¬ Run.EachCall ArraySide.call DegradedTruthful (new .ask 130)
      (oneSidedCalls ++ [.apply ⟨129⟩ ⟨1⟩]) := by
  intro truthful
  have last := truthful oneSidedCalls (.apply ⟨129⟩ ⟨1⟩) List.prefix_rfl
  have wf := (run_correct (new_wf .ask 130 (by decide)) oneSidedCalls).1
  have levels := forEach_correct (call_correct wf (.apply ⟨129⟩ ⟨1⟩)).1 Visit.collect []
  rw [Visit.visit_collect, List.nil_append] at levels
  rw [DegradedTruthful, ← run, ← levels] at last
  have range := (last (by decide +kernel) (by decide +kernel)).1
  revert range
  clear last levels
  decide +kernel

end ArraySide

end Crossbook
