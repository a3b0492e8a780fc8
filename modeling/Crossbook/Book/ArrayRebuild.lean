import Crossbook.Book.ArrayLevels

set_option autoImplicit false

namespace Crossbook.ArraySide

-- The clamp: wherever the touch is, the whole window stays inside the signed range.
theorem anchorFor_fits (a : ArraySide) (touch : Int64) (bound : a.slots < 2 ^ 63) :
    (a.anchorFor touch).toInt + a.slots ≤ 2 ^ 63 := by
  have half : (Int64.ofNat (a.slots / 2)).toInt = (a.slots / 2 : Nat) :=
    Int64.toInt_ofNat_of_lt (by omega)
  have low : Int64.minValue.toInt = -2 ^ 63 := Int64.toInt_minValue
  have high : Int64.maxValue.toInt = 2 ^ 63 - 1 := Int64.toInt_maxValue
  have touchLow := touch.le_toInt
  have touchHigh := touch.toInt_lt
  have floor := MachineInt.toInt_add_of_fits Int64.minValue (Int64.ofNat (a.slots / 2))
    (by omega) (by omega)
  unfold anchorFor
  by_cases none : a.slots = 0
  · have small := (Int64.toInt_lt (a.anchorFor touch))
    unfold anchorFor at small
    omega
  · have span : (Int64.ofNat (a.slots - 1)).toInt = (a.slots - 1 : Nat) :=
      Int64.toInt_ofNat_of_lt (by omega)
    have highest := MachineInt.toInt_sub_of_fits Int64.maxValue (Int64.ofNat (a.slots - 1))
      (by omega) (by omega)
    simp only [none, if_false]
    split
    · omega
    · rename_i above
      rw [Int64.lt_iff_toInt_lt] at above
      have centred := MachineInt.toInt_sub_of_fits touch (Int64.ofNat (a.slots / 2))
        (by omega) (by omega)
      split
      · omega
      · rename_i inside
        rw [Int64.lt_iff_toInt_lt] at inside
        omega

theorem slot_clearWindowSlots {a : ArraySide} (wf : a.WindowWf) (i : Nat) :
    a.clearWindowSlots.slot i = 0 := by
  have covered : a.slot i ≠ 0 → a.dirtyLo ≤ i ∧ i ≤ a.dirtyHi := by
    intro full
    apply wf.dirty i
    rw [mem_live, ← wf.window_size]
    refine ⟨?_, full⟩
    by_contra outside
    exact full (by simp [slot, Array.getD, outside])
  unfold clearWindowSlots slot at *
  dsimp only
  split
  · simp only [Array.getD_eq_getD_getElem?, Array.getElem?_mapIdx] at *
    cases value : a.window[i]? with
    | none => simp
    | some units =>
      simp only [value, Option.map_some, Option.getD_some] at covered ⊢
      split
      · rfl
      · by_contra full
        exact absurd (covered full) ‹_›
  · by_contra full
    have := covered full
    omega

-- A side with every slot empty is well formed whatever its hint and watermarks say.
theorem WindowWf.of_empty {a : ArraySide} (bound : a.slots < 2 ^ 63)
    (size : a.window.size = a.slots) (fits : a.base.toInt + a.slots ≤ 2 ^ 63)
    (count : a.windowCount = 0) (empty : ∀ i, a.slot i = 0) : a.WindowWf := by
  have none : a.live = ∅ := by
    ext i
    simp [empty i]
  refine ⟨bound, size, fits, by rw [count, none]; rfl, ?_, ?_⟩ <;> simp [none]

theorem new_wf (side : Side) (slots : Nat) (bound : slots < 2 ^ 63) : (new side slots).Wf where
  toWindowWf := by
    refine WindowWf.of_empty bound (by simp [new]) ?_ rfl ?_
    · change (0 : Int64).toInt + slots ≤ 2 ^ 63
      rw [Int64.toInt_zero]
      omega
    · intro i
      simp [slot, new, Array.getD_eq_getD_getElem?, Array.getElem?_replicate]
      split <;> rfl
  sorted := List.Pairwise.nil
  nonzero := by simp [new]
  outside := by simp [new]
  unanchored := by simp [new]

theorem clear_wf {a : ArraySide} (wf : a.Wf) : a.clear.Wf where
  toWindowWf := by
    refine WindowWf.of_empty wf.slots_lt ?_ ?_ rfl (fun i => slot_clearWindowSlots wf.toWindowWf i)
    · have size := wf.window_size
      unfold clear clearWindowSlots
      dsimp only
      split <;> simpa using size
    · have bound := wf.slots_lt
      change (0 : Int64).toInt + a.slots ≤ 2 ^ 63
      rw [Int64.toInt_zero]
      omega
  sorted := List.Pairwise.nil
  nonzero := by simp [clear]
  outside := by simp [clear]
  unanchored := by simp [clear]

-- What the refill loop has built from the levels it has placed so far.
structure Placed (a : ArraySide) (done : List Level) : Prop where
  wf : a.WindowWf
  window : ∀ i ∈ a.live, a.windowLevel i ∈ done
  placed : ∀ level ∈ done, ∀ i, a.windowIndex level.price.ticks = some i →
    i ∈ a.live ∧ a.windowLevel i = level
  overflow : a.overflow = done.filter (fun level => a.windowIndex level.price.ticks = none)

theorem betterIndex_of_precedes {a : ArraySide} (wf : a.WindowWf) (i k : Nat) (left : i < a.slots)
    (right : k < a.slots) (first : precedes a.side (a.priceAt i) (a.priceAt k) = true) :
    a.betterIndex i k = true := by
  have low := toInt_priceAt wf i left
  have high := toInt_priceAt wf k right
  cases direction : a.side <;>
    simp only [betterIndex, direction, decide_eq_true_eq, precedes, Int64.lt_iff_toInt_lt] at * <;>
    omega

-- A window whose levels are all in front of slot `i` keeps its best slot, or takes `i` as its first.
theorem hint_behind {a : ArraySide} (wf : a.WindowWf) (i : Nat)
    (behind : ∀ k ∈ a.live, a.betterIndex k i = true) :
    let best := if a.windowCount = 0 then i else a.bestIndex
    (best = i ∨ best ∈ a.live) ∧ ∀ k, k = i ∨ k ∈ a.live → a.betterIndex k best = false := by
  by_cases empty : a.windowCount = 0
  · simp only [if_pos empty, live_eq_empty wf empty]
    refine ⟨.inl trivial, ?_⟩
    rintro k (rfl | absent)
    · exact a.betterIndex_irrefl k
    · exact absurd absent (Finset.notMem_empty k)
  · obtain ⟨k, member⟩ : a.live.Nonempty := by
      rw [← Finset.card_ne_zero, ← wf.count]
      exact empty
    have stands := (wf.hint k member).1
    simp only [if_neg empty]
    refine ⟨.inr stands, ?_⟩
    rintro m (rfl | other)
    · exact a.betterIndex_asymm _ _ (behind _ stands)
    · exact (wf.hint m other).2

-- What placing a level inside the window writes.
theorem rebuildPlace_window {a : ArraySide} (level : Level) (i : Nat) (inside : i < a.window.size)
    (found : a.windowIndex level.price.ticks = some i) :
    Writes a (a.rebuildPlace level) i level.qty.units ∧
      (a.rebuildPlace level).windowCount = a.windowCount + 1 ∧
      (a.rebuildPlace level).bestIndex = (if a.windowCount = 0 then i else a.bestIndex) ∧
      (a.rebuildPlace level).overflow = a.overflow := by
  let hinted : ArraySide := { a with bestIndex := if a.windowCount = 0 then i else a.bestIndex }
  let marked := (hinted.store i level.qty.units).markDirty i
  have result : a.rebuildPlace level = { marked with windowCount := a.windowCount + 1 } := by
    unfold rebuildPlace
    rw [found]
    by_cases empty : a.windowCount = 0
    · simp [empty, marked, hinted]
    · simp [empty, marked, hinted]
  have writes := writes_mark a hinted i level.qty.units inside rfl rfl rfl rfl rfl rfl
  rw [result]
  refine ⟨⟨writes.side, writes.slots, writes.base, writes.size, writes.slot, writes.dirty⟩, rfl,
    ?_, ?_⟩
  · simp [marked, hinted]
  · simp [marked, hinted]

-- A level written into a free slot is one more the refill has placed.
theorem Placed.fill {a b : ArraySide} {done : List Level} (placed : Placed a done) {level : Level}
    (nonzero : level.qty.units ≠ 0) {i : Nat}
    (found : a.windowIndex level.price.ticks = some i) (free : a.slot i = 0)
    (writes : Writes a b i level.qty.units) (wf : b.WindowWf) (overflow : b.overflow = a.overflow) :
    Placed b (done ++ [level]) := by
  have inside := ((windowIndex_eq_some placed.wf _ i).mp found).1
  have price := priceAt_windowIndex placed.wf _ i found
  have index : b.windowIndex = a.windowIndex := by
    funext ticks
    simp [windowIndex, writes.base, writes.slots]
  have levels : ∀ k, b.windowLevel k = ⟨⟨a.priceAt k⟩, ⟨b.slot k⟩⟩ := by
    intro k
    simp [windowLevel, priceAt, writes.base]
  have live : b.live = insert i a.live := by rw [writes.live inside, if_neg nonzero]
  have here : b.windowLevel i = level := by
    rw [levels, writes.slot, if_pos rfl, price]
  have there : ∀ k ∈ a.live, b.windowLevel k = a.windowLevel k := by
    intro k member
    have differ : i ≠ k := by
      rintro rfl
      exact ((a.mem_live i).mp member).2 free
    rw [levels, writes.slot, if_neg differ]
    rfl
  refine ⟨wf, ?_, ?_, ?_⟩
  · intro k member
    rw [live, Finset.mem_insert] at member
    rcases member with rfl | old
    · simp [here]
    · simp [there k old, placed.window k old]
  · intro other member k same
    rw [index] at same
    rcases List.mem_append.mp member with old | new
    · have present := placed.placed other old k same
      rw [live]
      exact ⟨Finset.mem_insert_of_mem present.1, by rw [there k present.1, present.2]⟩
    · obtain rfl := List.mem_singleton.mp new
      obtain rfl := Option.some.inj (found.symm.trans same)
      rw [live]
      exact ⟨Finset.mem_insert_self _ _, here⟩
  · rw [overflow, placed.overflow, index]
    simp [found]

theorem rebuildPlace_inside {a : ArraySide} {done : List Level} (placed : Placed a done)
    (level : Level) (nonzero : level.qty.units ≠ 0)
    (after : ∀ earlier ∈ done, precedes a.side earlier.price.ticks level.price.ticks = true)
    (i : Nat) (found : a.windowIndex level.price.ticks = some i) :
    Placed (a.rebuildPlace level) (done ++ [level]) := by
  have wf := placed.wf
  have inside := ((windowIndex_eq_some wf _ i).mp found).1
  have price := priceAt_windowIndex wf _ i found
  have behind : ∀ k ∈ a.live, a.betterIndex k i = true := by
    intro k member
    have before := after _ (placed.window k member)
    rw [windowLevel, ← price] at before
    exact betterIndex_of_precedes wf k i ((a.mem_live k).mp member).1 inside before
  have free : a.slot i = 0 := by
    by_contra full
    have loop := behind i ((a.mem_live i).mpr ⟨inside, full⟩)
    simp [betterIndex_irrefl] at loop
  obtain ⟨writes, count, best, overflow⟩ :=
    rebuildPlace_window level i (wf.window_size ▸ inside) found
  have hint := hint_behind wf i behind
  rw [← best] at hint
  have filled := writes.fill wf inside free nonzero count hint.1 hint.2
  exact placed.fill nonzero found free writes filled overflow

theorem rebuildPlace_outside {a : ArraySide} {done : List Level} (placed : Placed a done)
    (level : Level) (outside : a.windowIndex level.price.ticks = none) :
    Placed (a.rebuildPlace level) (done ++ [level]) := by
  have result : a.rebuildPlace level = { a with overflow := a.overflow ++ [level] } := by
    unfold rebuildPlace
    rw [outside]
  rw [result]
  refine ⟨⟨placed.wf.slots_lt, placed.wf.window_size, placed.wf.base_fits, placed.wf.count,
    placed.wf.hint, placed.wf.dirty⟩, ?_, ?_, ?_⟩
  · intro i member
    exact List.mem_append_left _ (placed.window i member)
  · intro other member i found
    rcases List.mem_append.mp member with old | new
    · exact placed.placed other old i found
    · obtain rfl := List.mem_singleton.mp new
      exact absurd (outside.symm.trans found) (by simp)
  · change a.overflow ++ [level] = (done ++ [level]).filter
      (fun level => decide (a.windowIndex level.price.ticks = none))
    rw [List.filter_append, ← placed.overflow]
    simp [outside]

-- Placing a level moves neither the window nor the counters.
structure PlaceKept (a b : ArraySide) : Prop where
  side : b.side = a.side
  slots : b.slots = a.slots
  base : b.base = a.base
  anchored : b.anchored = a.anchored
  rebuildCount : b.rebuildCount = a.rebuildCount

theorem placeKept_rebuildPlace (a : ArraySide) (level : Level) :
    PlaceKept a (a.rebuildPlace level) := by
  unfold rebuildPlace
  split
  · dsimp only
    split
    · constructor <;> simp
    · constructor <;> simp
  · exact ⟨rfl, rfl, rfl, rfl, rfl⟩

theorem foldl_rebuildPlace {a : ArraySide} {done : List Level} (placed : Placed a done)
    (rest : List Level) (ordered : BookOrder a.side (done ++ rest))
    (nonzero : ∀ level ∈ rest, level.qty.units ≠ 0) :
    Placed (rest.foldl rebuildPlace a) (done ++ rest) ∧
      (rest.foldl rebuildPlace a).side = a.side ∧
      (rest.foldl rebuildPlace a).anchored = a.anchored := by
  induction rest generalizing a done with
  | nil => simpa using placed
  | cons level rest ih =>
    have after : ∀ earlier ∈ done,
        precedes a.side earlier.price.ticks level.price.ticks = true :=
      fun earlier member => (List.pairwise_append.mp ordered).2.2 earlier member level (by simp)
    have next : Placed (a.rebuildPlace level) (done ++ [level]) := by
      cases found : a.windowIndex level.price.ticks with
      | none => exact rebuildPlace_outside placed level found
      | some i => exact rebuildPlace_inside placed level (nonzero level (by simp)) after i found
    have kept := placeKept_rebuildPlace a level
    have tail := ih next (by rw [kept.side]; simpa using ordered)
      (fun other member => nonzero other (List.mem_cons_of_mem _ member))
    rw [kept.side, kept.anchored] at tail
    simpa using tail

-- The final reversal puts the appended spill run back into ascending order.
theorem refill_sorted (a : ArraySide) (ordered : BookOrder a.side a.overflow) :
    SortedList.Ascending (fun level : Level => level.price.ticks) a.spilled := by
  unfold BookOrder at ordered
  unfold spilled
  cases direction : a.side <;> rw [direction] at ordered
  · exact List.pairwise_reverse.mpr (ordered.imp fun first => of_decide_eq_true first)
  · exact ordered.imp fun first => of_decide_eq_true first

theorem refill_spec {a : ArraySide} (wf : a.WindowWf) (touch : Int64) (levels : List Level)
    (ordered : BookOrder a.side levels) (nonzero : ∀ level ∈ levels, level.qty.units ≠ 0) :
    (a.refill touch levels).Wf ∧ (a.refill touch levels).side = a.side ∧
      ∀ level, level ∈ (a.refill touch levels).bookLevels ↔ level ∈ levels := by
  let cleared : ArraySide :=
    { a.clearWindowSlots with overflow := [], windowCount := 0, bestIndex := 0 }
  let start : ArraySide := { cleared with base := cleared.anchorFor touch, anchored := true }
  have empty : ∀ i, start.slot i = 0 := slot_clearWindowSlots wf
  have startWf : start.WindowWf := by
    refine WindowWf.of_empty wf.slots_lt ?_ (cleared.anchorFor_fits touch wf.slots_lt) rfl empty
    have size := wf.window_size
    change a.clearWindowSlots.window.size = a.slots
    unfold clearWindowSlots
    dsimp only
    split <;> simpa using size
  have none : Placed start [] := by
    refine ⟨startWf, ?_, by simp, rfl⟩
    intro i member
    exact absurd (empty i) ((start.mem_live i).mp member).2
  -- One pass over the levels: those with a slot are in the window, the rest are spilled.
  obtain ⟨placed, side, anchored⟩ := foldl_rebuildPlace none levels ordered nonzero
  generalize filled : levels.foldl rebuildPlace start = b at placed side anchored
  have sideA : b.side = a.side := side
  have result : a.refill touch levels = { b with overflow := b.spilled } := by
    rw [← filled]
    rfl
  have spilled : ∀ level, level ∈ b.spilled ↔
      level ∈ levels ∧ b.windowIndex level.price.ticks = .none := by
    intro level
    rw [mem_spilled, placed.overflow]
    simp
  have wfB : b.WindowWf := placed.wf
  have final : (a.refill touch levels).Wf := by
    rw [result]
    refine ⟨⟨wfB.slots_lt, wfB.window_size, wfB.base_fits, wfB.count, wfB.hint, wfB.dirty⟩,
      ?_, ?_, ?_, ?_⟩
    · apply refill_sorted
      rw [placed.overflow, sideA]
      exact ordered.filter _
    · intro level member
      exact nonzero level ((spilled level).mp member).1
    · intro level member
      exact ((spilled level).mp member).2
    · intro unanchored
      exact absurd (anchored.symm.trans unanchored) (by simp [start])
  refine ⟨final, by rw [result]; exact sideA, ?_⟩
  intro level
  rw [mem_bookLevels final.toWindowWf, result]
  change (∃ i ∈ b.live, b.windowLevel i = level) ∨ level ∈ _ ↔ _
  rw [spilled]
  constructor
  · rintro (⟨i, member, rfl⟩ | spill)
    · exact placed.window i member
    · exact spill.1
  · intro member
    -- A level is in the window exactly when its price has a slot there.
    cases found : b.windowIndex level.price.ticks with
    | none => exact .inr ⟨member, rfl⟩
    | some i => exact .inl ⟨i, placed.placed level member i found⟩

theorem frame_levels {a : ArraySide} (wf : a.Wf) (floor : Nat) (degraded : Bool) :
    ArraySide.Wf { a with overflowFloor := floor, degraded := degraded } ∧
      ∀ level, level ∈ ArraySide.bookLevels { a with overflowFloor := floor, degraded := degraded } ↔
        level ∈ a.bookLevels := by
  have final : ArraySide.Wf { a with overflowFloor := floor, degraded := degraded } :=
    ⟨⟨wf.slots_lt, wf.window_size, wf.base_fits, wf.count, wf.hint, wf.dirty⟩, wf.sorted,
      wf.nonzero, wf.outside, wf.unanchored⟩
  refine ⟨final, ?_⟩
  intro level
  rw [mem_bookLevels final.toWindowWf, mem_bookLevels wf.toWindowWf]
  rfl

-- Counting the rebuild changes nothing a reader of the levels can see.
theorem counted_levels {a : ArraySide} (wf : a.Wf) :
    ArraySide.Wf { a with rebuildCount := a.rebuildCount + 1 } ∧
      ArraySide.bookLevels { a with rebuildCount := a.rebuildCount + 1 } = a.bookLevels := by
  have counted : ArraySide.Wf { a with rebuildCount := a.rebuildCount + 1 } :=
    ⟨⟨wf.slots_lt, wf.window_size, wf.base_fits, wf.count, wf.hint, wf.dirty⟩, wf.sorted,
      wf.nonzero, wf.outside, wf.unanchored⟩
  refine ⟨counted, (bookLevels_bookOrder counted).eq_of_mem_iff (bookLevels_bookOrder wf) ?_⟩
  intro level
  rw [mem_bookLevels counted.toWindowWf, mem_bookLevels wf.toWindowWf]
  rfl

theorem rebuildAroundTouch_eq {a : ArraySide} (wf : a.Wf) :
    a.rebuildAroundTouch =
      match a.bookLevels with
      | [] => { a with rebuildCount := a.rebuildCount + 1 }
      | first :: rest =>
        let filled := ArraySide.refill { a with rebuildCount := a.rebuildCount + 1 }
          first.price.ticks (first :: rest)
        { filled with
          overflowFloor := filled.overflow.length
          degraded := decide (0 < filled.overflow.length ∧
            a.overflow.length ≤ filled.overflow.length) } := by
  obtain ⟨counted, same⟩ := counted_levels wf
  have collected : ArraySide.forEach { a with rebuildCount := a.rebuildCount + 1 } Visit.collect [] =
      a.bookLevels := by
    rw [forEach_correct counted, Visit.visit_collect, List.nil_append, same]
  cases levels : a.bookLevels with
  | nil =>
    rw [levels] at collected
    simp only [rebuildAroundTouch, collected]
  | cons first rest =>
    rw [levels] at collected
    simp only [rebuildAroundTouch, collected]

theorem rebuildAroundTouch_spec {a : ArraySide} (wf : a.Wf) :
    a.rebuildAroundTouch.Wf ∧ a.rebuildAroundTouch.side = a.side ∧
      ∀ level, level ∈ a.rebuildAroundTouch.bookLevels ↔ level ∈ a.bookLevels := by
  obtain ⟨countedWf, same⟩ := counted_levels wf
  rw [rebuildAroundTouch_eq wf]
  cases levels : a.bookLevels with
  | nil => exact ⟨countedWf, rfl, by simp [same, levels]⟩
  | cons first rest =>
    have ordered := bookLevels_bookOrder wf
    have nonzero : ∀ level ∈ a.bookLevels, level.qty.units ≠ 0 :=
      fun level member => units_ne_zero wf level member
    rw [levels] at ordered nonzero
    obtain ⟨wfB, side, mem⟩ :=
      refill_spec countedWf.toWindowWf first.price.ticks (first :: rest) ordered nonzero
    obtain ⟨final, kept⟩ := frame_levels wfB _ _
    exact ⟨final, side, fun level => (kept level).trans (mem level)⟩

end Crossbook.ArraySide
