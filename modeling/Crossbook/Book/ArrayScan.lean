import Crossbook.Book.ArrayWindow

set_option autoImplicit false

namespace Crossbook.ArraySide

structure Wf (a : ArraySide) : Prop extends WindowWf a where
  sorted : SortedList.Ascending (fun level : Level => level.price.ticks) a.overflow
  nonzero : ∀ level ∈ a.overflow, level.qty.units ≠ 0
  outside : ∀ level ∈ a.overflow, a.windowIndex level.price.ticks = none
  unanchored : a.anchored = false → a.windowCount = 0 ∧ a.overflow = []

theorem windowIndex_eq_some {a : ArraySide} (wf : a.WindowWf) (ticks : Int64) (i : Nat) :
    a.windowIndex ticks = some i ↔ i < a.slots ∧ ticks.toInt = a.base.toInt + i := by
  unfold windowIndex
  constructor
  · intro found
    simp only [Option.ite_none_right_eq_some, Option.some.injEq] at found
    obtain ⟨inside, same⟩ := found
    rw [same] at inside
    exact ⟨inside, (MachineInt.offset_eq_iff _ _ _ i inside wf.base_fits).mp same⟩
  · rintro ⟨inside, same⟩
    have offset := (MachineInt.offset_eq_iff a.base ticks _ i inside wf.base_fits).mpr same
    simp [offset, inside]

theorem toInt_priceAt {a : ArraySide} (wf : a.WindowWf) (i : Nat) (inside : i < a.slots) :
    (a.priceAt i).toInt = a.base.toInt + i := by
  have fits := wf.base_fits
  exact MachineInt.toInt_offset a.base i (by omega)

theorem windowIndex_priceAt {a : ArraySide} (wf : a.WindowWf) (i : Nat) (inside : i < a.slots) :
    a.windowIndex (a.priceAt i) = some i :=
  (windowIndex_eq_some wf _ i).mpr ⟨inside, toInt_priceAt wf i inside⟩

theorem priceAt_windowIndex {a : ArraySide} (wf : a.WindowWf) (ticks : Int64) (i : Nat)
    (found : a.windowIndex ticks = some i) : a.priceAt i = ticks := by
  obtain ⟨inside, same⟩ := (windowIndex_eq_some wf ticks i).mp found
  apply Int64.toInt.inj
  rw [toInt_priceAt wf i inside, same]

-- Occupied slots a cursor has still to visit, in book order.
def remaining (a : ArraySide) (cursor : Option Nat) : List Nat :=
  (a.reach cursor).filter a.occupied

theorem remaining_stands (a : ArraySide) (i : Nat) (inside : i < a.slots) (full : a.slot i ≠ 0) :
    a.remaining (some i) = i :: a.remaining (a.step i) := by
  simp [remaining, a.reach_some i inside, occupied, full]

theorem remaining_seekOccupied (a : ArraySide) (emitted : Nat) (cursor : Option Nat)
    (count : emitted + (a.remaining cursor).length = a.windowCount) :
    a.remaining (a.seekOccupied emitted cursor) = a.remaining cursor := by
  unfold seekOccupied
  by_cases done : a.windowCount ≤ emitted
  · have empty : a.remaining cursor = [] := List.eq_nil_of_length_eq_zero (by omega)
    rw [if_pos done, empty]
    simp [remaining]
  · rw [if_neg done]
    exact a.filter_reach_skipEmpty cursor

theorem seekOccupied_stands (a : ArraySide) (emitted : Nat) (cursor : Option Nat) (i : Nat)
    (stands : a.seekOccupied emitted cursor = some i) : i < a.slots ∧ a.slot i ≠ 0 := by
  unfold seekOccupied at stands
  split at stands
  · exact absurd stands (by simp)
  · exact a.skipEmpty_stands cursor i stands

def mergeLevels (a : ArraySide) (slots : List Nat) (spilled : List Level) : List Level :=
  (slots.map a.windowLevel).merge spilled (fun x y => precedes a.side x.price.ticks y.price.ticks)

theorem mergeLevels_nil (a : ArraySide) (spilled : List Level) :
    a.mergeLevels [] spilled = spilled := by simp [mergeLevels]

theorem mergeLevels_window (a : ArraySide) (i : Nat) (rest : List Nat) (spilled : List Level)
    (first : a.takeWindow i spilled = true) :
    a.mergeLevels (i :: rest) spilled = a.windowLevel i :: a.mergeLevels rest spilled := by
  unfold mergeLevels
  cases spilled with
  | nil => simp
  | cons spill later =>
    rw [List.map_cons, List.cons_merge_cons]
    exact if_pos first

theorem mergeLevels_spill (a : ArraySide) (i : Nat) (rest : List Nat) (spill : Level)
    (later : List Level) (second : ¬ a.takeWindow i (spill :: later) = true) :
    a.mergeLevels (i :: rest) (spill :: later) = spill :: a.mergeLevels (i :: rest) later := by
  unfold mergeLevels
  rw [List.map_cons, List.cons_merge_cons]
  exact if_neg second

-- The cursor stands on the next occupied slot exactly while the count says one is left.
theorem forEachLoop_correct {σ : Type} (a : ArraySide) (fn : σ → Level → σ × Bool) (state : σ)
    (emitted : Nat) (cursor : Option Nat) (spilled : List Level)
    (stands : ∀ i, cursor = some i → i < a.slots ∧ a.slot i ≠ 0)
    (count : emitted + (a.remaining cursor).length = a.windowCount) :
    a.forEachLoop fn state emitted cursor spilled =
      Visit.visit fn state (a.mergeLevels (a.remaining cursor) spilled) := by
  induction state, emitted, cursor, spilled using forEachLoop.induct a fn with
  | case1 state emitted =>
    -- Window and overflow are exhausted.
    rw [forEachLoop]
    simp [remaining, mergeLevels_nil]
  | case2 state emitted spill rest more ih =>
    -- Only overflow is left.
    have tail := ih stands count
    rw [forEachLoop, if_pos more, tail]
    simp [remaining, mergeLevels_nil, Visit.visit_cons, more]
  | case3 state emitted spill rest stop =>
    rw [forEachLoop, if_neg stop]
    simp [remaining, mergeLevels_nil, Visit.visit_cons, stop]
  | case4 state emitted i spilled inside first level more ih =>
    -- The level in the window is nearer than the one in the overflow.
    have here := a.remaining_stands i inside (stands i rfl).2
    rw [here, List.length_cons] at count
    have left : emitted + 1 + (a.remaining (a.step i)).length = a.windowCount := by omega
    have same := a.remaining_seekOccupied (emitted + 1) (a.step i) left
    have tail := ih (a.seekOccupied_stands _ _) (by rw [same]; exact left)
    rw [forEachLoop.eq_def]
    dsimp only
    rw [dif_pos inside, if_pos first, if_pos more, tail, same, here,
      a.mergeLevels_window i _ spilled first, Visit.visit_cons, if_pos more]
  | case5 state emitted i spilled inside first level stop =>
    have here := a.remaining_stands i inside (stands i rfl).2
    rw [forEachLoop.eq_def]
    dsimp only
    rw [dif_pos inside, if_pos first, if_neg stop, here,
      a.mergeLevels_window i _ spilled first, Visit.visit_cons, if_neg stop]
  | case6 state emitted i inside impossible => simp [takeWindow] at impossible
  | case7 state emitted i inside spill later more second ih =>
    -- The level in the overflow is nearer.
    have here := a.remaining_stands i inside (stands i rfl).2
    have tail := ih stands count
    rw [forEachLoop, dif_pos inside, if_neg second, if_pos more, tail, here,
      a.mergeLevels_spill i _ spill later second, Visit.visit_cons, if_pos more]
  | case8 state emitted i inside spill later stop second =>
    have here := a.remaining_stands i inside (stands i rfl).2
    rw [forEachLoop, dif_pos inside, if_neg second, if_neg stop, here,
      a.mergeLevels_spill i _ spill later second, Visit.visit_cons, if_neg stop]
  | case9 state emitted i spilled outside => exact absurd (stands i rfl).1 outside

def bookLevels (a : ArraySide) : List Level := a.mergeLevels a.windowSlots a.spilled

theorem forEach_correct {σ : Type} {a : ArraySide} (wf : a.Wf) (fn : σ → Level → σ × Bool)
    (state : σ) : a.forEach fn state = Visit.visit fn state a.bookLevels := by
  have length := wf.length_windowSlots
  unfold forEach bookLevels windowSlots at *
  by_cases some : 0 < a.windowCount
  · have anchored : a.anchored = true := by
      by_contra not
      have := (wf.unanchored (by simpa using not)).1
      omega
    simp only [anchored, some, and_self, if_true] at length ⊢
    have count : 0 + (a.remaining (.some a.bestIndex)).length = a.windowCount := by
      rw [Nat.zero_add]
      exact length
    have same := a.remaining_seekOccupied 0 (.some a.bestIndex) count
    rw [forEachLoop_correct a fn state 0 _ _ (a.seekOccupied_stands _ _) (by rw [same]; exact count),
      same]
    rfl
  · have empty : a.windowCount = 0 := by omega
    simp only [empty, lt_irrefl, and_false, if_false]
    rw [forEachLoop_correct a fn state 0 none a.spilled (by simp) (by simp [remaining, empty])]
    simp [remaining]

end Crossbook.ArraySide
