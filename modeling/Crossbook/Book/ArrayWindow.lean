import Crossbook.Book.ArraySide

set_option autoImplicit false

namespace Crossbook.ArraySide

-- The slots a cursor visits on its way inward.
def reach (a : ArraySide) (cursor : Option Nat) : List Nat :=
  match cursor with
  | none => []
  | some i => if _ : i < a.slots then i :: a.reach (a.step i) else []
termination_by a.ahead cursor
decreasing_by exact a.ahead_step i ‹_›

@[simp] theorem reach_none (a : ArraySide) : a.reach none = [] := by rw [reach]

theorem reach_some (a : ArraySide) (i : Nat) (inside : i < a.slots) :
    a.reach (some i) = i :: a.reach (a.step i) := by rw [reach, dif_pos inside]

theorem reach_outside (a : ArraySide) (i : Nat) (outside : ¬ i < a.slots) :
    a.reach (some i) = [] := by rw [reach, dif_neg outside]

def occupied (a : ArraySide) (i : Nat) : Bool := a.slot i ≠ 0

theorem filter_reach_skipEmpty (a : ArraySide) (cursor : Option Nat) :
    (a.reach (a.skipEmpty cursor)).filter a.occupied = (a.reach cursor).filter a.occupied := by
  induction cursor using skipEmpty.induct a with
  | case1 => simp [skipEmpty]
  | case2 i inside empty ih =>
    rw [skipEmpty, dif_pos inside, if_pos empty, ih, a.reach_some i inside]
    simp [occupied, empty]
  | case3 i inside full => rw [skipEmpty, dif_pos inside, if_neg full]
  | case4 i outside =>
    rw [skipEmpty, dif_neg outside, a.reach_outside i outside]
    simp

theorem skipEmpty_stands (a : ArraySide) (cursor : Option Nat) (i : Nat)
    (stands : a.skipEmpty cursor = some i) : i < a.slots ∧ a.slot i ≠ 0 := by
  induction cursor using skipEmpty.induct a with
  | case1 => simp [skipEmpty] at stands
  | case2 j inside empty ih =>
    rw [skipEmpty, dif_pos inside, if_pos empty] at stands
    exact ih stands
  | case3 j inside full =>
    rw [skipEmpty, dif_pos inside, if_neg full] at stands
    obtain rfl := Option.some.inj stands
    exact ⟨inside, full⟩
  | case4 j outside => simp [skipEmpty, outside] at stands

theorem mem_reach (a : ArraySide) (i k : Nat) :
    k ∈ a.reach (some i) ↔ i < a.slots ∧ k < a.slots ∧ a.betterIndex k i = false := by
  have general (cursor : Option Nat) : ∀ i, cursor = some i →
      (k ∈ a.reach cursor ↔ i < a.slots ∧ k < a.slots ∧ a.betterIndex k i = false) := by
    induction cursor using reach.induct a with
    | case1 => simp
    | case2 i inside ih =>
      rintro _ ⟨⟩
      rw [a.reach_some i inside, List.mem_cons]
      cases direction : a.side with
      | ask =>
        have next : a.step i = some (i + 1) := by simp [step, direction]
        rw [ih (i + 1) next]
        simp only [betterIndex, direction, decide_eq_false_iff_not]
        omega
      | bid =>
        by_cases zero : i = 0
        · have next : a.step i = none := by simp [step, direction, zero]
          simp only [next, reach_none, betterIndex, direction, decide_eq_false_iff_not,
            List.not_mem_nil, or_false]
          omega
        · have next : a.step i = some (i - 1) := by simp [step, direction, zero]
          rw [ih (i - 1) next]
          simp only [betterIndex, direction, decide_eq_false_iff_not]
          omega
    | case3 i outside =>
      rintro _ ⟨⟩
      simp [a.reach_outside i outside, outside]
  exact general (some i) i rfl

theorem reach_inward (a : ArraySide) (cursor : Option Nat) :
    (a.reach cursor).Pairwise (fun i k => a.betterIndex i k = true) := by
  induction cursor using reach.induct a with
  | case1 => simp
  | case2 i inside ih =>
    rw [a.reach_some i inside, List.pairwise_cons]
    refine ⟨?_, ih⟩
    intro k member
    unfold step at member
    cases direction : a.side with
    | ask =>
      simp only [direction, mem_reach, betterIndex, decide_eq_false_iff_not] at member
      simp only [betterIndex, direction, decide_eq_true_eq]
      omega
    | bid =>
      by_cases zero : i = 0
      · simp [direction, zero] at member
      · simp only [direction, zero, if_false, mem_reach, betterIndex,
          decide_eq_false_iff_not] at member
        simp only [betterIndex, direction, decide_eq_true_eq]
        omega
  | case3 i outside => simp [a.reach_outside i outside]

theorem betterIndex_irrefl (a : ArraySide) (i : Nat) : a.betterIndex i i = false := by
  unfold betterIndex
  cases a.side <;> simp

theorem betterIndex_front (a : ArraySide) {i best k : Nat} (better : a.betterIndex i best = true)
    (behind : a.betterIndex k best = false) : a.betterIndex k i = false := by
  cases direction : a.side <;>
    simp only [betterIndex, direction, decide_eq_true_eq, decide_eq_false_iff_not] at * <;> omega

theorem betterIndex_asymm (a : ArraySide) (i k : Nat) (better : a.betterIndex i k = true) :
    a.betterIndex k i = false := by
  cases direction : a.side <;>
    simp only [betterIndex, direction, decide_eq_true_eq, decide_eq_false_iff_not] at * <;> omega

theorem reach_nodup (a : ArraySide) (cursor : Option Nat) : (a.reach cursor).Nodup :=
  (a.reach_inward cursor).imp fun {i k} better same => by
    subst same
    simp [betterIndex_irrefl] at better

def live (a : ArraySide) : Finset Nat := (Finset.range a.slots).filter (fun i => a.occupied i)

@[simp] theorem mem_live (a : ArraySide) (i : Nat) :
    i ∈ a.live ↔ i < a.slots ∧ a.slot i ≠ 0 := by
  simp [live, occupied]

structure WindowWf (a : ArraySide) : Prop where
  slots_lt : a.slots < 2 ^ 63
  window_size : a.window.size = a.slots
  base_fits : a.base.toInt + a.slots ≤ 2 ^ 63
  count : a.windowCount = a.live.card
  hint : ∀ i ∈ a.live, a.bestIndex ∈ a.live ∧ a.betterIndex i a.bestIndex = false
  dirty : ∀ i ∈ a.live, a.dirtyLo ≤ i ∧ i ≤ a.dirtyHi

-- The occupied slots in book order, as the read loops start on them.
def windowSlots (a : ArraySide) : List Nat :=
  if 0 < a.windowCount then (a.reach (some a.bestIndex)).filter a.occupied else []

theorem WindowWf.mem_windowSlots {a : ArraySide} (wf : a.WindowWf) (i : Nat) :
    i ∈ a.windowSlots ↔ i ∈ a.live := by
  unfold windowSlots
  split
  · rw [List.mem_filter, mem_reach]
    constructor
    · rintro ⟨⟨_, inside, _⟩, full⟩
      exact (a.mem_live i).mpr ⟨inside, by simpa [occupied] using full⟩
    · intro member
      have best := wf.hint i member
      simp only [mem_live] at member best
      exact ⟨⟨best.1.1, member.1, best.2⟩, by simpa [occupied] using member.2⟩
  · rename_i empty
    have none : a.live = ∅ := by
      rw [← Finset.card_eq_zero, ← wf.count]
      omega
    simp [none]

theorem windowSlots_nodup (a : ArraySide) : a.windowSlots.Nodup := by
  unfold windowSlots
  split
  · exact (a.reach_nodup _).filter _
  · exact List.nodup_nil

theorem WindowWf.length_windowSlots {a : ArraySide} (wf : a.WindowWf) :
    a.windowSlots.length = a.windowCount := by
  have same : a.windowSlots.toFinset = a.live := by
    ext i
    rw [List.mem_toFinset, wf.mem_windowSlots]
  rw [wf.count, ← same, List.toFinset_card_of_nodup a.windowSlots_nodup]

section Frames

variable (a : ArraySide) (i : Nat) (units : Int64)

@[simp] theorem side_store : (a.store i units).side = a.side := rfl
@[simp] theorem slots_store : (a.store i units).slots = a.slots := rfl
@[simp] theorem base_store : (a.store i units).base = a.base := rfl
@[simp] theorem overflow_store : (a.store i units).overflow = a.overflow := rfl
@[simp] theorem rebuildCount_store : (a.store i units).rebuildCount = a.rebuildCount := rfl
@[simp] theorem anchored_store : (a.store i units).anchored = a.anchored := rfl
@[simp] theorem windowCount_store : (a.store i units).windowCount = a.windowCount := rfl
@[simp] theorem bestIndex_store : (a.store i units).bestIndex = a.bestIndex := rfl
@[simp] theorem dirtyLo_store : (a.store i units).dirtyLo = a.dirtyLo := rfl
@[simp] theorem dirtyHi_store : (a.store i units).dirtyHi = a.dirtyHi := rfl
@[simp] theorem size_window_store : (a.store i units).window.size = a.window.size := by
  simp [store]

-- Marking a slot widens the watermarks and does nothing else.
theorem markDirty_eq : ∃ lo hi, a.markDirty i = { a with dirtyLo := lo, dirtyHi := hi } ∧
    lo ≤ i ∧ i ≤ hi ∧ ∀ k, a.dirtyLo ≤ k → k ≤ a.dirtyHi → lo ≤ k ∧ k ≤ hi := by
  unfold markDirty
  split
  · refine ⟨i, i, rfl, le_rfl, le_rfl, ?_⟩
    intro k low high
    omega
  · refine ⟨_, _, rfl, min_le_left _ _, le_max_left _ _, ?_⟩
    intro k low high
    omega

@[simp] theorem side_markDirty : (a.markDirty i).side = a.side := by
  unfold markDirty; split <;> rfl
@[simp] theorem slots_markDirty : (a.markDirty i).slots = a.slots := by
  unfold markDirty; split <;> rfl
@[simp] theorem base_markDirty : (a.markDirty i).base = a.base := by
  unfold markDirty; split <;> rfl
@[simp] theorem overflow_markDirty : (a.markDirty i).overflow = a.overflow := by
  unfold markDirty; split <;> rfl
@[simp] theorem anchored_markDirty : (a.markDirty i).anchored = a.anchored := by
  unfold markDirty; split <;> rfl
@[simp] theorem windowCount_markDirty : (a.markDirty i).windowCount = a.windowCount := by
  unfold markDirty; split <;> rfl
@[simp] theorem bestIndex_markDirty : (a.markDirty i).bestIndex = a.bestIndex := by
  unfold markDirty; split <;> rfl
@[simp] theorem rebuildCount_markDirty : (a.markDirty i).rebuildCount = a.rebuildCount := by
  unfold markDirty; split <;> rfl
@[simp] theorem window_markDirty : (a.markDirty i).window = a.window := by
  unfold markDirty; split <;> rfl

@[simp] theorem overflow_advance : a.advanceBestAfterRemoval.overflow = a.overflow := by
  unfold advanceBestAfterRemoval; split <;> rfl
@[simp] theorem anchored_advance : a.advanceBestAfterRemoval.anchored = a.anchored := by
  unfold advanceBestAfterRemoval; split <;> rfl

end Frames

theorem slot_store (a : ArraySide) (i k : Nat) (units : Int64) (inside : i < a.window.size) :
    (a.store i units).slot k = if i = k then units else a.slot k := by
  unfold store slot
  simp only [Array.getD_eq_getD_getElem?, Array.getElem?_setIfInBounds]
  split
  · simp
  · rfl

@[simp] theorem slot_markDirty (a : ArraySide) (i k : Nat) : (a.markDirty i).slot k = a.slot k := by
  simp [slot]

theorem betterIndex_congr {a b : ArraySide} (side : b.side = a.side) :
    b.betterIndex = a.betterIndex := by
  funext i k
  simp [betterIndex, side]

theorem live_eq_empty {a : ArraySide} (wf : a.WindowWf) (empty : a.windowCount = 0) :
    a.live = ∅ := by rw [← Finset.card_eq_zero, ← wf.count, empty]

-- `b` is `a` with slot `i` overwritten, the watermarks still covering what they covered.
structure Writes (a b : ArraySide) (i : Nat) (units : Int64) : Prop where
  side : b.side = a.side
  slots : b.slots = a.slots
  base : b.base = a.base
  size : b.window.size = a.window.size
  slot : ∀ k, b.slot k = if i = k then units else a.slot k
  dirty : ∀ k, a.dirtyLo ≤ k ∧ k ≤ a.dirtyHi ∨ k = i ∧ units ≠ 0 → b.dirtyLo ≤ k ∧ k ≤ b.dirtyHi

theorem Writes.live {a b : ArraySide} {i : Nat} {units : Int64} (writes : Writes a b i units)
    (inside : i < a.slots) :
    b.live = if units = 0 then a.live.erase i else insert i a.live := by
  ext k
  by_cases same : i = k
  · subst same
    split <;> simp_all [writes.slot, writes.slots]
  · split <;> simp [writes.slot, writes.slots, same, Ne.symm same]

theorem Writes.windowWf {a b : ArraySide} {i : Nat} {units : Int64} (writes : Writes a b i units)
    (wf : a.WindowWf) (inside : i < a.slots) (count : b.windowCount = b.live.card)
    (hint : ∀ k ∈ b.live, b.bestIndex ∈ b.live ∧ a.betterIndex k b.bestIndex = false) :
    b.WindowWf where
  slots_lt := writes.slots ▸ wf.slots_lt
  window_size := by rw [writes.size, writes.slots, wf.window_size]
  base_fits := by rw [writes.base, writes.slots]; exact wf.base_fits
  count := count
  hint := by rwa [betterIndex_congr writes.side]
  dirty := by
    intro k member
    apply writes.dirty
    rw [writes.live inside] at member
    split at member
    · exact .inl (wf.dirty k (Finset.mem_of_mem_erase member))
    · rename_i nonzero
      rcases Finset.mem_insert.mp member with same | old
      · exact .inr ⟨same, nonzero⟩
      · exact .inl (wf.dirty k old)

-- A free slot takes a level: the new hint is the slot itself or the old hint.
theorem Writes.fill {a b : ArraySide} {i : Nat} {units : Int64} (writes : Writes a b i units)
    (wf : a.WindowWf) (inside : i < a.slots) (free : a.slot i = 0) (nonzero : units ≠ 0)
    (count : b.windowCount = a.windowCount + 1)
    (candidate : b.bestIndex = i ∨ b.bestIndex ∈ a.live)
    (front : ∀ k, k = i ∨ k ∈ a.live → a.betterIndex k b.bestIndex = false) : b.WindowWf := by
  have fresh : i ∉ a.live := by simp [free]
  have live : b.live = insert i a.live := by rw [writes.live inside, if_neg nonzero]
  apply writes.windowWf wf inside
  · rw [live, Finset.card_insert_of_notMem fresh, count, wf.count]
  · intro k member
    rw [live, Finset.mem_insert] at member ⊢
    exact ⟨candidate, front k member⟩

theorem Writes.refill {a b : ArraySide} {i : Nat} {units : Int64} (writes : Writes a b i units)
    (wf : a.WindowWf) (inside : i < a.slots) (full : a.slot i ≠ 0) (nonzero : units ≠ 0)
    (count : b.windowCount = a.windowCount) (best : b.bestIndex = a.bestIndex) : b.WindowWf := by
  have present : i ∈ a.live := by simp [full, inside]
  have live : b.live = a.live := by
    rw [writes.live inside, if_neg nonzero, Finset.insert_eq_self.mpr present]
  apply writes.windowWf wf inside
  · rw [live, count, wf.count]
  · rw [live, best]
    exact wf.hint

theorem Writes.remove {a b : ArraySide} {i : Nat} (writes : Writes a b i 0) (wf : a.WindowWf)
    (inside : i < a.slots) (full : a.slot i ≠ 0) (count : b.windowCount = a.windowCount - 1)
    (best : ∀ k ∈ b.live, b.bestIndex ∈ b.live ∧ a.betterIndex k b.bestIndex = false) :
    b.WindowWf := by
  have present : i ∈ a.live := by simp [full, inside]
  apply writes.windowWf wf inside _ best
  rw [writes.live inside, if_pos rfl, Finset.card_erase_of_mem present, count, wf.count]

theorem skipEmpty_front (a : ArraySide) (cursor : Option Nat) (k : Nat)
    (member : k ∈ a.reach cursor) (full : a.slot k ≠ 0) :
    ∃ i, a.skipEmpty cursor = some i ∧ i ∈ a.live ∧ a.betterIndex k i = false := by
  have kept : k ∈ (a.reach (a.skipEmpty cursor)).filter a.occupied := by
    rw [filter_reach_skipEmpty, List.mem_filter]
    exact ⟨member, by simpa [occupied] using full⟩
  cases found : a.skipEmpty cursor with
  | none => simp [found] at kept
  | some i =>
    rw [found, List.mem_filter, mem_reach] at kept
    exact ⟨i, rfl, (a.mem_live i).mpr (a.skipEmpty_stands cursor i found), kept.1.2.2⟩

-- Removing the touch: the scan inward finds the next extreme slot, unless the window is now empty.
theorem advance_hint (a b : ArraySide) (wf : a.WindowWf) (writes : Writes a b a.bestIndex 0)
    (best : b.bestIndex = a.bestIndex)
    (inside : a.bestIndex < a.slots) (count : b.windowCount = b.live.card) (k : Nat)
    (member : k ∈ b.live) :
    b.advanceBestAfterRemoval.bestIndex ∈ b.live ∧
      a.betterIndex k b.advanceBestAfterRemoval.bestIndex = false := by
  have some : b.windowCount ≠ 0 := by
    rw [count]
    exact Finset.card_ne_zero_of_mem member
  have remaining := member
  rw [writes.live inside, if_pos rfl, Finset.mem_erase] at remaining
  have behind := (wf.hint k remaining.2).2
  have onWay : k ∈ b.reach (b.step b.bestIndex) := by
    have whole : k ∈ b.reach (.some b.bestIndex) := by
      rw [mem_reach, writes.slots, best, betterIndex_congr writes.side]
      exact ⟨inside, ((a.mem_live k).mp remaining.2).1, behind⟩
    rw [reach_some b _ (by rw [writes.slots, best]; exact inside), List.mem_cons] at whole
    exact whole.resolve_left (by rw [best]; exact remaining.1)
  obtain ⟨i, found, stands, front⟩ := b.skipEmpty_front _ k onWay ((b.mem_live k).mp member).2
  have advanced : b.advanceBestAfterRemoval.bestIndex = i := by
    simp [advanceBestAfterRemoval, some, found]
  rw [advanced]
  exact ⟨stands, by rwa [betterIndex_congr writes.side] at front⟩

theorem writes_store (a b : ArraySide) (i : Nat) (units : Int64) (inside : i < a.window.size)
    (side : b.side = a.side) (slots : b.slots = a.slots) (base : b.base = a.base)
    (window : b.window = a.window) (lo : b.dirtyLo = a.dirtyLo) (hi : b.dirtyHi = a.dirtyHi)
    (clean : units = 0) : Writes a (b.store i units) i units where
  side := side
  slots := slots
  base := base
  size := by simp [window]
  slot k := by
    rw [slot_store b i k units (by rwa [window])]
    simp [slot, window]
  dirty k covered := by
    subst clean
    simpa [lo, hi] using covered

theorem writes_mark (a b : ArraySide) (i : Nat) (units : Int64) (inside : i < a.window.size)
    (side : b.side = a.side) (slots : b.slots = a.slots) (base : b.base = a.base)
    (window : b.window = a.window) (lo : b.dirtyLo = a.dirtyLo) (hi : b.dirtyHi = a.dirtyHi) :
    Writes a ((b.store i units).markDirty i) i units where
  side := by simpa using side
  slots := by simpa using slots
  base := by simpa using base
  size := by simp [window]
  slot k := by
    rw [slot_markDirty, slot_store b i k units (by rwa [window])]
    simp [slot, window]
  dirty k covered := by
    obtain ⟨low, high, marked, below, above, wider⟩ := markDirty_eq (b.store i units) i
    rw [marked]
    rcases covered with old | ⟨rfl, _⟩
    · exact wider k (by simpa [lo] using old.1) (by simpa [hi] using old.2)
    · exact ⟨below, above⟩

theorem applyWindow_remove (a : ArraySide) (wf : a.WindowWf) (i : Nat) (inside : i < a.slots)
    (full : a.slot i ≠ 0) (qty : Qty) (zero : qty.units = 0) :
    (a.applyWindow i qty).WindowWf ∧ Writes a (a.applyWindow i qty) i 0 := by
  have present : i ∈ a.live := (a.mem_live i).mpr ⟨inside, full⟩
  have bound : i < a.window.size := wf.window_size ▸ inside
  let b : ArraySide := { a.store i 0 with windowCount := a.windowCount - 1 }
  have writes : Writes a b i 0 :=
    writes_store a { a with windowCount := a.windowCount - 1 } i 0 bound rfl rfl rfl rfl rfl rfl rfl
  have live : b.live = a.live.erase i := by rw [writes.live inside, if_pos rfl]
  have result : a.applyWindow i qty = if i = a.bestIndex then b.advanceBestAfterRemoval else b := by
    unfold applyWindow
    rw [if_pos (by simp [Qty.isZero, zero]), if_pos full]
    rfl
  rw [result]
  by_cases touch : i = a.bestIndex
  · have count : b.windowCount = b.live.card := by
      rw [live, Finset.card_erase_of_mem present, ← wf.count]
    have advanced : Writes a b.advanceBestAfterRemoval i 0 := by
      unfold advanceBestAfterRemoval
      split <;> exact ⟨writes.side, writes.slots, writes.base, writes.size, writes.slot, writes.dirty⟩
    have same : b.advanceBestAfterRemoval.live = b.live := by
      rw [advanced.live inside, writes.live inside]
    have moved : b.advanceBestAfterRemoval.windowCount = b.windowCount := by
      unfold advanceBestAfterRemoval
      split <;> rfl
    rw [if_pos touch]
    refine ⟨advanced.remove wf inside full (by rw [moved]) ?_, advanced⟩
    rw [same]
    exact advance_hint a b wf (touch ▸ writes) rfl (touch ▸ inside) count
  · rw [if_neg touch]
    refine ⟨writes.remove wf inside full rfl ?_, writes⟩
    intro k member
    rw [live, Finset.mem_erase] at member ⊢
    have best := wf.hint k member.2
    exact ⟨⟨Ne.symm touch, best.1⟩, best.2⟩

theorem applyWindow_insert (a : ArraySide) (wf : a.WindowWf) (i : Nat) (inside : i < a.slots)
    (free : a.slot i = 0) (qty : Qty) (nonzero : qty.units ≠ 0) :
    (a.applyWindow i qty).WindowWf ∧ Writes a (a.applyWindow i qty) i qty.units := by
  have bound : i < a.window.size := wf.window_size ▸ inside
  let best := if a.windowCount = 0 || a.betterIndex i a.bestIndex then i else a.bestIndex
  let b : ArraySide := { a with bestIndex := best, windowCount := a.windowCount + 1 }
  have writes := writes_mark a b i qty.units bound rfl rfl rfl rfl rfl rfl
  have result : a.applyWindow i qty = (b.store i qty.units).markDirty i := by
    simp [applyWindow, Qty.isZero, nonzero, free, b, best]
  have hint : (best = i ∨ best ∈ a.live) ∧
      ∀ k, k = i ∨ k ∈ a.live → a.betterIndex k best = false := by
    -- A first level is the best one; a later one only when it beats the old best.
    by_cases empty : a.windowCount = 0
    · have none := live_eq_empty wf empty
      have chosen : best = i := by simp [best, empty]
      rw [chosen, none]
      refine ⟨.inl rfl, ?_⟩
      rintro k (rfl | absent)
      · exact a.betterIndex_irrefl k
      · exact absurd absent (Finset.notMem_empty k)
    · obtain ⟨k, member⟩ : a.live.Nonempty := by
        rw [← Finset.card_ne_zero, ← wf.count]
        exact empty
      have old := (wf.hint k member).1
      cases better : a.betterIndex i a.bestIndex with
      | true =>
        have chosen : best = i := by simp [best, better]
        rw [chosen]
        refine ⟨.inl rfl, ?_⟩
        rintro m (rfl | other)
        · exact a.betterIndex_irrefl m
        · exact a.betterIndex_front better (wf.hint m other).2
      | false =>
        have chosen : best = a.bestIndex := by simp [best, better, empty]
        rw [chosen]
        refine ⟨.inr old, ?_⟩
        rintro m (rfl | other)
        · exact better
        · exact (wf.hint m other).2
  rw [result]
  refine ⟨writes.fill wf inside free nonzero (by simp [b]) ?_ ?_, writes⟩
  · simpa [b] using hint.1
  · simpa [b] using hint.2

theorem applyWindow_replace (a : ArraySide) (wf : a.WindowWf) (i : Nat) (inside : i < a.slots)
    (full : a.slot i ≠ 0) (qty : Qty) (nonzero : qty.units ≠ 0) :
    (a.applyWindow i qty).WindowWf ∧ Writes a (a.applyWindow i qty) i qty.units := by
  have bound : i < a.window.size := wf.window_size ▸ inside
  have writes := writes_mark a a i qty.units bound rfl rfl rfl rfl rfl rfl
  have result : a.applyWindow i qty = (a.store i qty.units).markDirty i := by
    simp [applyWindow, Qty.isZero, nonzero, full]
  rw [result]
  exact ⟨writes.refill wf inside full nonzero (by simp) (by simp), writes⟩

theorem applyWindow_spec (a : ArraySide) (wf : a.WindowWf) (i : Nat) (inside : i < a.slots)
    (qty : Qty) :
    (a.applyWindow i qty).WindowWf ∧ Writes a (a.applyWindow i qty) i qty.units := by
  by_cases zero : qty.units = 0 <;> by_cases free : a.slot i = 0
  · have result : a.applyWindow i qty = a := by simp [applyWindow, Qty.isZero, zero, free]
    rw [result, zero]
    refine ⟨wf, rfl, rfl, rfl, rfl, ?_, ?_⟩
    · intro k
      split
      · simp_all
      · rfl
    · rintro k (old | ⟨_, nonzero⟩)
      · exact old
      · exact absurd rfl nonzero
  · rw [zero]
    exact a.applyWindow_remove wf i inside free qty zero
  · exact a.applyWindow_insert wf i inside free qty zero
  · exact a.applyWindow_replace wf i inside free qty zero

theorem applyWindow_frame (a : ArraySide) (i : Nat) (qty : Qty) :
    (a.applyWindow i qty).overflow = a.overflow ∧ (a.applyWindow i qty).anchored = a.anchored := by
  unfold applyWindow
  dsimp only
  split_ifs <;> simp

end Crossbook.ArraySide
