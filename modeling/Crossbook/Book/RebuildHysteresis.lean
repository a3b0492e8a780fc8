import Crossbook.Book.BookEquivalence
import Crossbook.Lib.Amortised
import Crossbook.Lib.Run

set_option autoImplicit false

namespace SortedList

variable {α K : Type} [LinearOrder K] (key : α → K)

theorem Ascending.length_upsert {xs : List α} (sorted : Ascending key xs) (k : K) (y : α) :
    (SortedList.upsert key k y xs).length =
      if ∃ x ∈ xs, key x = k then xs.length else xs.length + 1 := by
  obtain ⟨lower, upper, below, above, bound, whole⟩ := split_at key k xs sorted
  rw [upsert_split key y above bound whole]
  obtain rfl | ⟨x, same, rfl⟩ := whole
  · rw [if_neg]
    · simp
      omega
    · rintro ⟨x, member, same⟩
      obtain left | right := List.mem_append.mp member
      · exact (below x left).ne same
      · exact (above x right).ne' same
  · rw [if_pos ⟨x, by simp, same⟩]
    simp

theorem Ascending.length_eraseKey_le {xs : List α} (sorted : Ascending key xs) (k : K) :
    (SortedList.eraseKey key k xs).length ≤ xs.length := by
  obtain ⟨lower, upper, below, above, bound, whole⟩ := split_at key k xs sorted
  rw [eraseKey_split key above bound whole]
  obtain rfl | ⟨x, same, rfl⟩ := whole
  · exact le_rfl
  · simp

end SortedList

namespace Crossbook.ArraySide

structure SpillKept (a b : ArraySide) : Prop where
  overflow : b.overflow = a.overflow
  overflowFloor : b.overflowFloor = a.overflowFloor
  rebuildCount : b.rebuildCount = a.rebuildCount
  degraded : b.degraded = a.degraded

theorem SpillKept.refl (a : ArraySide) : SpillKept a a := ⟨rfl, rfl, rfl, rfl⟩

theorem SpillKept.trans {a b c : ArraySide} (first : SpillKept a b) (second : SpillKept b c) :
    SpillKept a c :=
  ⟨second.overflow.trans first.overflow, second.overflowFloor.trans first.overflowFloor,
    second.rebuildCount.trans first.rebuildCount, second.degraded.trans first.degraded⟩

theorem spillKept_anchorAt (a : ArraySide) (ticks : Int64) : SpillKept a (a.anchorAt ticks) := by
  unfold anchorAt
  split
  · exact .refl a
  · exact ⟨rfl, rfl, rfl, rfl⟩

theorem spillKept_markDirty (a : ArraySide) (i : Nat) : SpillKept a (a.markDirty i) := by
  obtain ⟨lo, hi, marked, -⟩ := a.markDirty_eq i
  rw [marked]
  exact ⟨rfl, rfl, rfl, rfl⟩

theorem spillKept_advance (a : ArraySide) : SpillKept a a.advanceBestAfterRemoval := by
  unfold advanceBestAfterRemoval
  split
  · exact ⟨rfl, rfl, rfl, rfl⟩
  · exact ⟨rfl, rfl, rfl, rfl⟩

theorem spillKept_applyWindow (a : ArraySide) (i : Nat) (qty : Qty) :
    SpillKept a (a.applyWindow i qty) := by
  unfold applyWindow
  dsimp only
  split
  · split
    · split
      · refine .trans ?_ (spillKept_advance _)
        exact ⟨rfl, rfl, rfl, rfl⟩
      · exact ⟨rfl, rfl, rfl, rfl⟩
    · exact .refl a
  · split
    · refine .trans ?_ (spillKept_markDirty _ i)
      exact ⟨rfl, rfl, rfl, rfl⟩
    · refine .trans ?_ (spillKept_markDirty _ i)
      exact ⟨rfl, rfl, rfl, rfl⟩

def inserted (a : ArraySide) (price : Price) (qty : Qty) : ArraySide :=
  (a.anchorAt price.ticks).overflowSet price.ticks qty.units

def Spills (a : ArraySide) : SideCall → Prop
  | .apply price qty =>
    qty.units ≠ 0 ∧ (a.anchorAt price.ticks).windowIndex price.ticks = none
  | .clear => False

/-- The call adds a level outside the window, at a price the side does not hold yet. -/
def SpillsNew (a : ArraySide) : SideCall → Prop
  | .apply price qty =>
    a.Spills (.apply price qty) ∧ ∀ level ∈ a.bookLevels, level.price ≠ price
  | .clear => False

instance (a : ArraySide) : DecidablePred a.Spills
  | .apply _ _ => inferInstanceAs (Decidable (_ ∧ _))
  | .clear => inferInstanceAs (Decidable False)

instance (a : ArraySide) : DecidablePred a.SpillsNew
  | .apply _ _ => inferInstanceAs (Decidable (_ ∧ _))
  | .clear => inferInstanceAs (Decidable False)

theorem applyOverflow_insert (a : ArraySide) (ticks : Int64) {qty : Qty} (nonzero : qty.units ≠ 0) :
    a.applyOverflow ticks qty =
      if a.overflowFloor + kOverflowRebuildThreshold < (a.overflowSet ticks qty.units).overflow.length
      then (a.overflowSet ticks qty.units).rebuildAroundTouch else a.overflowSet ticks qty.units := by
  unfold applyOverflow
  rw [if_neg (by simpa [Qty.isZero] using nonzero)]
  rfl

theorem applyOverflow_remove (a : ArraySide) (ticks : Int64) {qty : Qty} (zero : qty.units = 0) :
    (a.applyOverflow ticks qty).overflow = (a.overflowErase ticks).overflow ∧
      (a.applyOverflow ticks qty).overflowFloor =
        min a.overflowFloor (a.overflowErase ticks).overflow.length ∧
      (a.applyOverflow ticks qty).rebuildCount = a.rebuildCount := by
  have floor : (a.overflowErase ticks).overflowFloor = a.overflowFloor := rfl
  unfold applyOverflow
  rw [if_pos (by simpa [Qty.isZero] using zero)]
  dsimp only
  split
  next lower =>
    rw [floor] at lower
    rw [min_eq_right lower.le]
    split
    · exact ⟨rfl, rfl, rfl⟩
    · exact ⟨rfl, rfl, rfl⟩
  next kept =>
    rw [floor, Nat.not_lt] at kept
    rw [min_eq_left kept]
    split
    · exact ⟨rfl, rfl, rfl⟩
    · exact ⟨rfl, rfl, rfl⟩

-- What a call does to the spill list and its counters.
theorem call_cases {a : ArraySide} (wf : a.Wf) (call : SideCall) :
    (¬ a.Spills call ∧ SpillKept a (a.call call)) ∨
    (∃ price qty, call = .apply price qty ∧ a.Spills call ∧
      a.call call =
        if a.overflowFloor + kOverflowRebuildThreshold < (a.inserted price qty).overflow.length
        then (a.inserted price qty).rebuildAroundTouch else a.inserted price qty) ∨
    (¬ a.Spills call ∧ (a.call call).overflow.length ≤ a.overflow.length ∧
      (a.call call).overflowFloor = min a.overflowFloor (a.call call).overflow.length ∧
      (a.call call).rebuildCount = a.rebuildCount) := by
  cases call with
  | clear =>
    refine .inr (.inr ⟨not_false, ?_, ?_, rfl⟩)
    · simp [ArraySide.call, clear]
    · simp [ArraySide.call, clear]
  | apply price qty =>
    have based := spillKept_anchorAt a price.ticks
    have anchoredWf := (anchorAt_spec wf price.ticks).1
    -- A removal does not anchor an empty side.
    by_cases idle : (!a.anchored && qty.isZero) = true
    · have result : a.call (.apply price qty) = a := by
        unfold call apply
        exact if_pos idle
      have zero : qty.units = 0 := by
        simp only [Qty.isZero, Bool.and_eq_true, beq_iff_eq] at idle
        exact idle.2
      rw [result]
      exact .inl ⟨fun spills => spills.1 zero, .refl a⟩
    · have result : a.call (.apply price qty) = _ := apply_active a price qty idle
      rw [result]
      cases found : (a.anchorAt price.ticks).windowIndex price.ticks with
      | some index =>
        refine .inl ⟨?_, based.trans (spillKept_applyWindow _ index qty)⟩
        intro spills
        exact absurd (spills.2.symm.trans found) (by simp)
      | none =>
        by_cases zero : qty.units = 0
        · obtain ⟨overflow, floor, count⟩ :=
            applyOverflow_remove (a.anchorAt price.ticks) price.ticks zero
          refine .inr (.inr ⟨fun spills => spills.1 zero, ?_, ?_, ?_⟩)
          · rw [overflow, ← based.overflow]
            exact anchoredWf.sorted.length_eraseKey_le _ _
          · rw [floor, overflow, based.overflowFloor]
          · rw [count, based.rebuildCount]
        · refine .inr (.inl ⟨price, qty, rfl, ⟨zero, found⟩, ?_⟩)
          dsimp only
          rw [applyOverflow_insert _ _ zero, based.overflowFloor]
          rfl

theorem overflowSet_correct {a : ArraySide} (wf : a.Wf) (anchored : a.anchored = true)
    (price : Price) {qty : Qty} (nonzero : qty.units ≠ 0)
    (outside : a.windowIndex price.ticks = none) :
    (a.overflowSet price.ticks qty.units).Wf ∧
      ∀ level, level ∈ (a.overflowSet price.ticks qty.units).bookLevels ↔
        if level.price = price then qty.units ≠ 0 ∧ level.qty = qty else level ∈ a.bookLevels :=
  spill_correct wf anchored price qty outside (a.overflowSet price.ticks qty.units).overflow
    (wf.sorted.upsert rfl) (by
      intro level
      rw [overflowSet, wf.sorted.mem_upsert]
      simp [nonzero])

theorem inserted_wf {a : ArraySide} (wf : a.Wf) {price : Price} {qty : Qty}
    (spills : a.Spills (.apply price qty)) : (a.inserted price qty).Wf := by
  obtain ⟨based, -, anchored, -⟩ := anchorAt_spec wf price.ticks
  exact (overflowSet_correct based anchored price spills.1 spills.2).1

theorem length_inserted {a : ArraySide} (wf : a.Wf) {price : Price} {qty : Qty}
    (spills : a.Spills (.apply price qty)) :
    (a.inserted price qty).overflow.length =
      a.overflow.length + if a.SpillsNew (.apply price qty) then 1 else 0 := by
  obtain ⟨based, -, -, levels⟩ := anchorAt_spec wf price.ticks
  have same := (spillKept_anchorAt a price.ticks).overflow
  have held : (∃ level ∈ (a.anchorAt price.ticks).overflow, level.price.ticks = price.ticks) ↔
      ¬ a.SpillsNew (.apply price qty) := by
    constructor
    · rintro ⟨level, member, priced⟩ ⟨-, new⟩
      have old := (levels level).mp ((mem_bookLevels based.toWindowWf level).mpr (.inr member))
      exact new level old (congrArg Price.mk priced)
    · intro old
      by_contra absent
      refine old ⟨spills, ?_⟩
      rintro level member rfl
      have live := (levels level).mpr member
      rw [mem_bookLevels_outside based level spills.2] at live
      exact absent ⟨level, live, rfl⟩
  rw [inserted, overflowSet, based.sorted.length_upsert, if_congr held rfl rfl, same]
  by_cases new : a.SpillsNew (.apply price qty)
  · rw [if_neg (not_not.mpr new), if_pos new]
  · rw [if_pos new, if_neg new, Nat.add_zero]

theorem rebuildCount_refill (a : ArraySide) (touch : Int64) (levels : List Level) :
    (a.refill touch levels).rebuildCount = a.rebuildCount := by
  have folded (b : ArraySide) : (levels.foldl rebuildPlace b).rebuildCount = b.rebuildCount := by
    induction levels generalizing b with
    | nil => rfl
    | cons level rest ih => rw [List.foldl_cons, ih, (placeKept_rebuildPlace b level).rebuildCount]
  exact folded _

theorem bookLevels_ne_nil {a : ArraySide} (wf : a.Wf) (spilled : a.overflow ≠ []) :
    a.bookLevels ≠ [] := by
  obtain ⟨level, member⟩ := List.exists_mem_of_ne_nil a.overflow spilled
  exact List.ne_nil_of_mem ((mem_bookLevels wf.toWindowWf level).mpr (.inr member))

theorem rebuilt_counters {a : ArraySide} (wf : a.Wf) (spilled : a.overflow ≠ []) :
    a.rebuildAroundTouch.rebuildCount = a.rebuildCount + 1 ∧
      a.rebuildAroundTouch.overflowFloor = a.rebuildAroundTouch.overflow.length := by
  rw [rebuildAroundTouch_eq wf]
  cases levels : a.bookLevels with
  | nil => exact absurd levels (bookLevels_ne_nil wf spilled)
  | cons first rest => exact ⟨rebuildCount_refill _ _ _, rfl⟩

/-- The spill list stays within a threshold of its floor. -/
structure NearFloor (a : ArraySide) : Prop where
  floor_le : a.overflowFloor ≤ a.overflow.length
  length_le : a.overflow.length ≤ a.overflowFloor + kOverflowRebuildThreshold

-- What the rebuilds have cost so far, and what has been saved up for the next one.
def rebuildBalance (a : ArraySide) : Nat :=
  (kOverflowRebuildThreshold + 1) * a.rebuildCount + (a.overflow.length - a.overflowFloor)

def newSpills (a : ArraySide) (calls : List SideCall) : Nat :=
  Amortised.charged ArraySide.call (fun b call => if b.SpillsNew call then 1 else 0) a calls

theorem call_hysteresis {a : ArraySide} (wf : a.Wf) (near : a.NearFloor) (call : SideCall) :
    (a.call call).NearFloor ∧ (a.call call).rebuildBalance ≤
      a.rebuildBalance + if a.SpillsNew call then 1 else 0 := by
  obtain ⟨low, high⟩ := near
  obtain ⟨-, kept⟩ | ⟨price, qty, rfl, spills, result⟩ | ⟨-, shrunk, floor, count⟩ :=
    call_cases wf call
  · refine ⟨⟨?_, ?_⟩, ?_⟩
    · rw [kept.overflow, kept.overflowFloor]
      exact low
    · rw [kept.overflow, kept.overflowFloor]
      exact high
    · rw [rebuildBalance, kept.rebuildCount, kept.overflow, kept.overflowFloor]
      exact Nat.le_add_right _ _
  · have length := length_inserted wf spills
    have floor : (a.inserted price qty).overflowFloor = a.overflowFloor :=
      (spillKept_anchorAt a price.ticks).overflowFloor
    have count : (a.inserted price qty).rebuildCount = a.rebuildCount :=
      (spillKept_anchorAt a price.ticks).rebuildCount
    rw [result]
    split
    next spilled =>
      have some : (a.inserted price qty).overflow ≠ [] := by
        intro none
        rw [none] at spilled
        simp at spilled
      obtain ⟨counted, floored⟩ := rebuilt_counters (inserted_wf wf spills) some
      refine ⟨⟨floored.le, by omega⟩, ?_⟩
      rw [rebuildBalance, counted, floored, count, rebuildBalance, Nat.mul_succ]
      omega
    next within =>
      refine ⟨⟨by omega, by omega⟩, ?_⟩
      rw [rebuildBalance, rebuildBalance, floor, count]
      omega
  · refine ⟨⟨by omega, by omega⟩, ?_⟩
    rw [rebuildBalance, rebuildBalance, count, floor]
    omega

theorem call_nearFloor (a : ArraySide) (call : SideCall) (holds : a.Wf ∧ a.NearFloor) :
    (a.call call).Wf ∧ (a.call call).NearFloor :=
  ⟨(call_correct holds.1 call).1, (call_hysteresis holds.1 holds.2 call).1⟩

theorem new_nearFloor (side : Side) (slots : Nat) (bound : slots < 2 ^ 63) :
    (new side slots).Wf ∧ (new side slots).NearFloor :=
  ⟨new_wf side slots bound, by simp [new], by simp [new]⟩

theorem run_nearFloor (side : Side) (slots : Nat) (bound : slots < 2 ^ 63)
    (calls : List SideCall) : (calls.foldl ArraySide.call (new side slots)).Wf ∧
      (calls.foldl ArraySide.call (new side slots)).NearFloor :=
  Run.foldl_invariant call_nearFloor calls (new_nearFloor side slots bound)

theorem rebuild_hysteresis (side : Side) (slots : Nat) (bound : slots < 2 ^ 63)
    (calls : List SideCall) :
    let a := (new side slots).run calls
    a.overflowFloor ≤ a.overflow.length ∧
      a.overflow.length ≤ a.overflowFloor + kOverflowRebuildThreshold ∧
      65 * a.rebuildCount ≤ (new side slots).newSpills calls := by
  have ends := run_nearFloor side slots bound calls
  have paid := Amortised.balance_le rebuildBalance call_nearFloor
    (fun a call holds => (call_hysteresis holds.1 holds.2 call).2) calls
    (new_nearFloor side slots bound)
  refine ⟨ends.2.floor_le, ends.2.length_le, ?_⟩
  have threshold : kOverflowRebuildThreshold + 1 = 65 := rfl
  have initial : (new side slots).rebuildBalance = 0 := rfl
  rw [initial, Nat.zero_add, rebuildBalance, threshold] at paid
  exact (Nat.le_add_right _ _).trans paid

-- One slot, so that every ask but the first spills.
theorem rebuild_hysteresis_one_slot :
    let calls := (List.range 80).map fun i => SideCall.apply ⟨Int64.ofNat i⟩ ⟨1⟩
    let a := (new .ask 1).run calls
    a.overflowFloor ≤ a.overflow.length ∧
      a.overflow.length ≤ a.overflowFloor + kOverflowRebuildThreshold ∧
      65 * a.rebuildCount ≤ (new .ask 1).newSpills calls :=
  rebuild_hysteresis .ask 1 (by decide) _

end Crossbook.ArraySide
