import Crossbook.Book.ArrayScan

set_option autoImplicit false

namespace Crossbook.ArraySide

theorem priceAt_precedes {a : ArraySide} (wf : a.WindowWf) (i k : Nat) (left : i < a.slots)
    (right : k < a.slots) (better : a.betterIndex i k = true) :
    precedes a.side (a.priceAt i) (a.priceAt k) = true := by
  have first := toInt_priceAt wf i left
  have second := toInt_priceAt wf k right
  cases direction : a.side <;>
    simp only [betterIndex, direction, decide_eq_true_eq, precedes, Int64.lt_iff_toInt_lt] at * <;>
    omega

theorem mem_spilled (a : ArraySide) (level : Level) : level ∈ a.spilled ↔ level ∈ a.overflow := by
  unfold spilled
  cases a.side <;> simp

theorem mem_bookLevels {a : ArraySide} (wf : a.WindowWf) (level : Level) :
    level ∈ a.bookLevels ↔ (∃ i ∈ a.live, a.windowLevel i = level) ∨ level ∈ a.overflow := by
  simp only [bookLevels, mergeLevels, List.mem_merge, List.mem_map, wf.mem_windowSlots, mem_spilled]

theorem mem_bookLevels_inside {a : ArraySide} (wf : a.Wf) (level : Level) (i : Nat)
    (found : a.windowIndex level.price.ticks = some i) :
    level ∈ a.bookLevels ↔ level.qty.units ≠ 0 ∧ a.slot i = level.qty.units := by
  rw [mem_bookLevels wf.toWindowWf]
  constructor
  · rintro (⟨k, member, rfl⟩ | spill)
    · have inside := (a.mem_live k).mp member
      have same : k = i := by
        rw [windowLevel, windowIndex_priceAt wf.toWindowWf k inside.1] at found
        exact Option.some.inj found
      subst same
      exact ⟨inside.2, rfl⟩
    · rw [wf.outside level spill] at found
      exact absurd found (by simp)
  · rintro ⟨nonzero, full⟩
    have inside := ((windowIndex_eq_some wf.toWindowWf _ i).mp found).1
    have price := priceAt_windowIndex wf.toWindowWf _ i found
    refine .inl ⟨i, (a.mem_live i).mpr ⟨inside, by rwa [full]⟩, ?_⟩
    rw [windowLevel, price, full]

theorem mem_bookLevels_outside {a : ArraySide} (wf : a.Wf) (level : Level)
    (outside : a.windowIndex level.price.ticks = none) :
    level ∈ a.bookLevels ↔ level ∈ a.overflow := by
  rw [mem_bookLevels wf.toWindowWf, or_iff_right]
  rintro ⟨i, member, rfl⟩
  rw [windowLevel, windowIndex_priceAt wf.toWindowWf i ((a.mem_live i).mp member).1] at outside
  exact absurd outside (by simp)

theorem units_ne_zero {a : ArraySide} (wf : a.Wf) (level : Level) (member : level ∈ a.bookLevels) :
    level.qty.units ≠ 0 := by
  rcases (mem_bookLevels wf.toWindowWf level).mp member with ⟨i, present, rfl⟩ | spill
  · exact ((a.mem_live i).mp present).2
  · exact wf.nonzero level spill

theorem windowSlots_inward (a : ArraySide) :
    a.windowSlots.Pairwise (fun i k => a.betterIndex i k = true) := by
  unfold windowSlots
  split
  · exact (a.reach_inward _).filter _
  · exact List.Pairwise.nil

theorem spilled_bookOrder {a : ArraySide} (wf : a.Wf) : BookOrder a.side a.spilled := by
  have sorted := wf.sorted
  unfold BookOrder spilled
  cases a.side with
  | ask => exact sorted.imp fun less => decide_eq_true less
  | bid => exact List.pairwise_reverse.mpr (sorted.imp fun less => decide_eq_true less)

theorem bookLevels_bookOrder {a : ArraySide} (wf : a.Wf) : BookOrder a.side a.bookLevels := by
  have window : BookOrder a.side (a.windowSlots.map a.windowLevel) := by
    unfold BookOrder
    rw [List.pairwise_map]
    refine a.windowSlots_inward.imp_of_mem ?_
    intro i k left right better
    rw [wf.mem_windowSlots, mem_live] at left right
    exact priceAt_precedes wf.toWindowWf i k left.1 right.1 better
  apply SortedList.pairwise_merge _ _ _ window (spilled_bookOrder wf)
  · intro level left spill right after
    obtain ⟨i, member, rfl⟩ := List.mem_map.mp left
    rw [wf.mem_windowSlots, mem_live] at member
    have outside := wf.outside spill ((a.mem_spilled spill).mp right)
    refine (precedes_total a.side _ _ ?_).resolve_left (by simpa using after)
    intro same
    rw [← same] at outside
    exact absurd outside (by simp [windowLevel, windowIndex_priceAt wf.toWindowWf i member.1])
  · intro x y before
    exact before
  · intro x y z
    exact precedes_trans a.side _ _ _

theorem size_eq_length {a : ArraySide} (wf : a.Wf) : a.size = a.bookLevels.length := by
  have window := wf.length_windowSlots
  have spill : a.spilled.length = a.overflow.length := by
    unfold spilled
    cases a.side <;> simp
  simp [size, bookLevels, mergeLevels, List.length_merge, window, spill]

theorem best_eq_head {a : ArraySide} (wf : a.Wf) : a.best = a.bookLevels.head? := by
  have touch : a.overflowTouch = a.spilled.head? := by
    unfold overflowTouch spilled
    cases a.side <;> simp
  unfold best bookLevels windowSlots
  by_cases some : 0 < a.windowCount
  · have anchored : a.anchored = true := by
      by_contra not
      have := (wf.unanchored (by simpa using not)).1
      omega
    obtain ⟨k, member⟩ : a.live.Nonempty := by
      rw [← Finset.card_pos, ← wf.count]
      exact some
    have stands := (a.mem_live _).mp (wf.hint k member).1
    have first : (a.reach (.some a.bestIndex)).filter a.occupied =
        a.bestIndex :: a.remaining (a.step a.bestIndex) :=
      a.remaining_stands _ stands.1 stands.2
    rw [if_pos ⟨anchored, some⟩, if_pos some, touch, first]
    cases a.spilled with
    | nil => rw [a.mergeLevels_window _ _ _ rfl]; rfl
    | cons spill later =>
      by_cases front : a.takeWindow a.bestIndex (spill :: later) = true
      · rw [a.mergeLevels_window _ _ _ front]
        exact if_pos front
      · rw [a.mergeLevels_spill _ _ _ _ front]
        exact if_neg front
  · rw [if_neg (fun both => some both.2), if_neg some, touch, mergeLevels_nil]

end Crossbook.ArraySide
