import Crossbook.Book.ArrayRebuild
import Crossbook.Book.MapSide

set_option autoImplicit false

namespace Crossbook.ArraySide

def anchorAt (a : ArraySide) (ticks : Int64) : ArraySide :=
  if a.anchored then a else { a with base := a.anchorFor ticks, anchored := true }

theorem anchorAt_spec {a : ArraySide} (wf : a.Wf) (ticks : Int64) :
    (a.anchorAt ticks).Wf ∧ (a.anchorAt ticks).side = a.side ∧
      (a.anchorAt ticks).anchored = true ∧
      ∀ level, level ∈ (a.anchorAt ticks).bookLevels ↔ level ∈ a.bookLevels := by
  unfold anchorAt
  cases anchored : a.anchored with
  | true => simpa using ⟨wf, anchored⟩
  | false =>
    obtain ⟨count, none⟩ := wf.unanchored anchored
    have empty := live_eq_empty wf.toWindowWf count
    have based : ArraySide.Wf { a with base := a.anchorFor ticks, anchored := true } :=
      ⟨⟨wf.slots_lt, wf.window_size, a.anchorFor_fits ticks wf.slots_lt, wf.count, wf.hint,
        wf.dirty⟩, wf.sorted, wf.nonzero, by simp [none], by simp⟩
    refine ⟨based, rfl, rfl, ?_⟩
    intro level
    have same : ArraySide.live { a with base := a.anchorFor ticks, anchored := true } = ∅ := empty
    rw [if_neg (by simp), mem_bookLevels based.toWindowWf, mem_bookLevels wf.toWindowWf, empty, same]
    simp

theorem applyWindow_correct {a : ArraySide} (wf : a.Wf) (anchored : a.anchored = true)
    (price : Price) (qty : Qty) (i : Nat) (found : a.windowIndex price.ticks = some i) :
    (a.applyWindow i qty).Wf ∧ (a.applyWindow i qty).side = a.side ∧
      ∀ level, level ∈ (a.applyWindow i qty).bookLevels ↔
        if level.price = price then qty.units ≠ 0 ∧ level.qty = qty else level ∈ a.bookLevels := by
  have inside := ((windowIndex_eq_some wf.toWindowWf _ i).mp found).1
  obtain ⟨window, writes⟩ := a.applyWindow_spec wf.toWindowWf i inside qty
  obtain ⟨overflow, same⟩ := a.applyWindow_frame i qty
  generalize a.applyWindow i qty = b at *
  have index : b.windowIndex = a.windowIndex := by
    funext ticks
    simp [windowIndex, writes.base, writes.slots]
  have final : b.Wf := by
    refine ⟨window, ?_, ?_, ?_, ?_⟩
    · rw [overflow]; exact wf.sorted
    · rw [overflow]; exact wf.nonzero
    · rw [overflow, index]; exact wf.outside
    · simp [same, anchored]
  refine ⟨final, writes.side, ?_⟩
  rintro ⟨⟨ticks⟩, ⟨units⟩⟩
  by_cases here : ticks = price.ticks
  · subst here
    have hit : b.windowIndex price.ticks = some i := by rw [index, found]
    rw [mem_bookLevels_inside final ⟨price, ⟨units⟩⟩ i hit, writes.slot]
    rcases qty with ⟨written⟩
    simp only [if_true, Qty.mk.injEq]
    constructor
    · rintro ⟨nonzero, same⟩
      exact ⟨same ▸ nonzero, same.symm⟩
    · rintro ⟨nonzero, same⟩
      exact ⟨same ▸ nonzero, same.symm⟩
  · have other : (⟨ticks⟩ : Price) ≠ price := by
      rintro rfl
      exact here rfl
    rw [if_neg other]
    cases there : a.windowIndex ticks with
    | none =>
      rw [mem_bookLevels_outside final ⟨⟨ticks⟩, ⟨units⟩⟩ (by rw [index]; exact there),
        mem_bookLevels_outside wf ⟨⟨ticks⟩, ⟨units⟩⟩ there, overflow]
    | some k =>
      -- Two prices have two slots, so the write missed this one.
      have differ : i ≠ k := by
        rintro rfl
        apply here
        rw [← priceAt_windowIndex wf.toWindowWf ticks i there,
          ← priceAt_windowIndex wf.toWindowWf price.ticks i found]
      rw [mem_bookLevels_inside final ⟨⟨ticks⟩, ⟨units⟩⟩ k (by rw [index]; exact there),
        mem_bookLevels_inside wf ⟨⟨ticks⟩, ⟨units⟩⟩ k there, writes.slot, if_neg differ]

-- Replacing the spill list by one that differs at a single price outside the window.
theorem spill_correct {a : ArraySide} (wf : a.Wf) (anchored : a.anchored = true) (price : Price)
    (qty : Qty) (outside : a.windowIndex price.ticks = none) (overflow : List Level)
    (sorted : SortedList.Ascending (fun level : Level => level.price.ticks) overflow)
    (spill : ∀ level, level ∈ overflow ↔ level = ⟨price, qty⟩ ∧ qty.units ≠ 0 ∨
      level ∈ a.overflow ∧ level.price.ticks ≠ price.ticks) :
    ArraySide.Wf { a with overflow := overflow } ∧
      ∀ level, level ∈ ArraySide.bookLevels { a with overflow := overflow } ↔
        if level.price = price then qty.units ≠ 0 ∧ level.qty = qty else level ∈ a.bookLevels := by
  have final : ArraySide.Wf { a with overflow := overflow } := by
    refine ⟨⟨wf.slots_lt, wf.window_size, wf.base_fits, wf.count, wf.hint, wf.dirty⟩, sorted,
      ?_, ?_, fun unanchored => absurd (anchored.symm.trans unanchored) (by simp)⟩
    · intro level member
      rcases (spill level).mp member with ⟨rfl, nonzero⟩ | ⟨old, _⟩
      · exact nonzero
      · exact wf.nonzero level old
    · intro level member
      rcases (spill level).mp member with ⟨rfl, _⟩ | ⟨old, _⟩
      · exact outside
      · exact wf.outside level old
  refine ⟨final, ?_⟩
  rintro ⟨⟨ticks⟩, units⟩
  cases there : a.windowIndex ticks with
  | none =>
    rw [mem_bookLevels_outside final ⟨⟨ticks⟩, units⟩ there,
      mem_bookLevels_outside wf ⟨⟨ticks⟩, units⟩ there, spill]
    rcases price with ⟨target⟩
    by_cases here : ticks = target
    · subst here
      simp [and_comm]
    · simp [here]
  | some k =>
    have other : (⟨ticks⟩ : Price) ≠ price := by
      rintro rfl
      exact absurd (outside.symm.trans there) (by simp)
    rw [if_neg other, mem_bookLevels_inside final ⟨⟨ticks⟩, units⟩ k there,
      mem_bookLevels_inside wf ⟨⟨ticks⟩, units⟩ k there]
    rfl

theorem applyOverflow_correct {a : ArraySide} (wf : a.Wf) (anchored : a.anchored = true)
    (price : Price) (qty : Qty) (outside : a.windowIndex price.ticks = none) :
    (a.applyOverflow price.ticks qty).Wf ∧ (a.applyOverflow price.ticks qty).side = a.side ∧
      ∀ level, level ∈ (a.applyOverflow price.ticks qty).bookLevels ↔
        if level.price = price then qty.units ≠ 0 ∧ level.qty = qty else level ∈ a.bookLevels := by
  by_cases zero : qty.units = 0
  · obtain ⟨erased, levels⟩ := spill_correct wf anchored price qty outside
      (a.overflowErase price.ticks).overflow (wf.sorted.eraseKey _) (by
        intro level
        rw [overflowErase, wf.sorted.mem_eraseKey]
        simp [zero])
    have result : ∃ floor degraded, a.applyOverflow price.ticks qty =
        { a.overflowErase price.ticks with overflowFloor := floor, degraded := degraded } := by
      unfold applyOverflow
      simp only [Qty.isZero, zero, beq_self_eq_true, if_true]
      split_ifs <;> exact ⟨_, _, rfl⟩
    obtain ⟨floor, degraded, result⟩ := result
    obtain ⟨final, same⟩ := frame_levels (a := a.overflowErase price.ticks) erased floor degraded
    rw [result]
    exact ⟨final, rfl, fun level => (same level).trans (levels level)⟩
  · obtain ⟨inserted, levels⟩ := spill_correct wf anchored price qty outside
      (a.overflowSet price.ticks qty.units).overflow (wf.sorted.upsert rfl) (by
        intro level
        rw [overflowSet, wf.sorted.mem_upsert]
        simp [zero])
    have result : a.applyOverflow price.ticks qty =
        if a.overflowFloor + kOverflowRebuildThreshold <
            (a.overflowSet price.ticks qty.units).overflow.length
        then (a.overflowSet price.ticks qty.units).rebuildAroundTouch
        else a.overflowSet price.ticks qty.units := by
      unfold applyOverflow
      rw [if_neg (by simpa [Qty.isZero] using zero)]
      rfl
    rw [result]
    split
    · obtain ⟨rebuilt, side, same⟩ := rebuildAroundTouch_spec (a := a.overflowSet price.ticks qty.units)
        inserted
      exact ⟨rebuilt, side, fun level => (same level).trans (levels level)⟩
    · exact ⟨inserted, rfl, levels⟩

theorem apply_active (a : ArraySide) (price : Price) (qty : Qty)
    (active : ¬ (!a.anchored && qty.isZero) = true) :
    a.apply price qty =
      match (a.anchorAt price.ticks).windowIndex price.ticks with
      | some index => (a.anchorAt price.ticks).applyWindow index qty
      | none => (a.anchorAt price.ticks).applyOverflow price.ticks qty := by
  unfold apply
  exact if_neg active

theorem apply_correct {a : ArraySide} (wf : a.Wf) (price : Price) (qty : Qty) :
    (a.apply price qty).Wf ∧ (a.apply price qty).side = a.side ∧
      ∀ level, level ∈ (a.apply price qty).bookLevels ↔
        if level.price = price then qty.units ≠ 0 ∧ level.qty = qty else level ∈ a.bookLevels := by
  by_cases idle : (!a.anchored && qty.isZero) = true
  · have result : a.apply price qty = a := by
      unfold apply
      exact if_pos idle
    simp only [Qty.isZero, Bool.and_eq_true, Bool.not_eq_true', beq_iff_eq] at idle
    obtain ⟨count, none⟩ := wf.unanchored idle.1
    rw [result]
    refine ⟨wf, rfl, ?_⟩
    intro level
    rw [mem_bookLevels wf.toWindowWf, live_eq_empty wf.toWindowWf count, none]
    simp [idle.2]
  · obtain ⟨based, side, anchored, levels⟩ := anchorAt_spec wf price.ticks
    rw [apply_active a price qty idle]
    cases found : (a.anchorAt price.ticks).windowIndex price.ticks with
    | none =>
      obtain ⟨final, same, written⟩ := applyOverflow_correct based anchored price qty found
      exact ⟨final, same.trans side, fun level => by rw [written level, levels level]⟩
    | some i =>
      obtain ⟨final, same, written⟩ := applyWindow_correct based anchored price qty i found
      exact ⟨final, same.trans side, fun level => by rw [written level, levels level]⟩

end Crossbook.ArraySide
