import Crossbook.Book.ArrayRefinement

set_option autoImplicit false

namespace Crossbook

namespace ArraySide

-- The reference container holding the same levels.
def toMap (a : ArraySide) : MapSide where
  side := a.side
  levels := Std.ExtTreeMap.ofList (a.bookLevels.map fun level => (level.price.ticks, level.qty.units))

theorem getElem?_toMap {a : ArraySide} (wf : a.Wf) (ticks units : Int64) :
    a.toMap.levels[ticks]? = some units ↔ (⟨⟨ticks⟩, ⟨units⟩⟩ : Level) ∈ a.bookLevels := by
  have ordered := bookLevels_bookOrder wf
  have distinct : (a.bookLevels.map fun level => (level.price.ticks, level.qty.units)).Pairwise
      (fun x y => ¬ compare x.1 y.1 = .eq) := by
    rw [List.pairwise_map]
    refine ordered.imp ?_
    intro x y first same
    have tie : x.price.ticks = y.price.ticks := compare_eq_iff_eq.mp same
    rw [tie, precedes_irrefl] at first
    exact absurd first (by simp)
  have listed : (⟨⟨ticks⟩, ⟨units⟩⟩ : Level) ∈ a.bookLevels ↔
      (ticks, units) ∈ a.bookLevels.map fun level => (level.price.ticks, level.qty.units) := by
    rw [List.mem_map]
    constructor
    · exact fun member => ⟨_, member, rfl⟩
    · rintro ⟨level, member, same⟩
      obtain ⟨rfl, rfl⟩ := Prod.mk.inj same
      exact member
  have present : ∀ units, (ticks, units) ∈ a.bookLevels.map (fun level =>
      (level.price.ticks, level.qty.units)) → a.toMap.levels[ticks]? = some units :=
    fun units member =>
      Std.ExtTreeMap.getElem?_ofList_of_mem (compare_eq_iff_eq.mpr rfl) distinct member
  rw [listed]
  refine ⟨?_, present units⟩
  intro found
  by_cases held : ticks ∈ (a.bookLevels.map fun level =>
      (level.price.ticks, level.qty.units)).map Prod.fst
  · obtain ⟨⟨_, other⟩, member, rfl⟩ := List.mem_map.mp held
    obtain rfl := Option.some.inj (found.symm.trans (present other member))
    exact member
  · have absent : a.toMap.levels[ticks]? = none :=
      Std.ExtTreeMap.getElem?_ofList_of_contains_eq_false (by simpa using held)
    exact absurd (absent.symm.trans found) (by simp)

theorem bookLevels_toMap {a : ArraySide} (wf : a.Wf) : a.toMap.bookLevels = a.bookLevels := by
  apply a.toMap.bookOrder.eq_of_mem_iff (bookLevels_bookOrder wf)
  intro level
  rw [MapSide.mem_bookLevels, getElem?_toMap wf]

theorem toMap_ext {a : ArraySide} (wf : a.Wf) (m : MapSide) (side : a.side = m.side)
    (same : ∀ level, level ∈ a.bookLevels ↔ m.levels[level.price.ticks]? = some level.qty.units) :
    a.toMap = m := by
  apply MapSide.ext side
  intro ticks
  apply Option.ext
  intro units
  exact (getElem?_toMap wf ticks units).trans (same ⟨⟨ticks⟩, ⟨units⟩⟩)

theorem toMap_new (side : Side) (slots : Nat) (bound : slots < 2 ^ 63) :
    (new side slots).toMap = MapSide.new side := by
  have wf := new_wf side slots bound
  apply toMap_ext wf _ rfl
  intro level
  rw [mem_bookLevels wf.toWindowWf, live_eq_empty wf.toWindowWf rfl]
  simp [new, MapSide.new]

theorem toMap_apply {a : ArraySide} (wf : a.Wf) (price : Price) (qty : Qty) :
    (a.apply price qty).toMap = a.toMap.apply price qty := by
  obtain ⟨final, side, written⟩ := apply_correct wf price qty
  apply toMap_ext final
  · rw [side, MapSide.side_apply]
    rfl
  · rintro ⟨⟨ticks⟩, ⟨units⟩⟩
    rcases price with ⟨target⟩
    rcases qty with ⟨amount⟩
    rw [written, MapSide.getElem?_apply]
    by_cases here : ticks = target
    · subst here
      by_cases zero : amount = 0
      · simp [Qty.isZero, zero]
      · simp only [Qty.isZero, beq_iff_eq, zero, if_true, if_false, Qty.mk.injEq,
          Option.some.injEq, ne_eq, not_false_eq_true, true_and]
        exact eq_comm
    · have other : (⟨ticks⟩ : Price) ≠ ⟨target⟩ := fun same => here (Price.mk.inj same)
      rw [if_neg other, if_neg (Ne.symm here)]
      exact (getElem?_toMap wf ticks units).symm

theorem toMap_clear {a : ArraySide} (wf : a.Wf) : a.clear.toMap = a.toMap.clear := by
  have final := clear_wf wf
  apply toMap_ext final _ rfl
  intro level
  rw [mem_bookLevels final.toWindowWf, live_eq_empty final.toWindowWf rfl]
  simp [clear, MapSide.clear]

theorem size_toMap {a : ArraySide} (wf : a.Wf) : a.size = a.toMap.size := by
  rw [size_eq_length wf, MapSide.size_eq_length, bookLevels_toMap wf]

theorem best_toMap {a : ArraySide} (wf : a.Wf) : a.best = a.toMap.best := by
  rw [best_eq_head wf, MapSide.best_eq_head, bookLevels_toMap wf]

theorem forEach_toMap {σ : Type} {a : ArraySide} (wf : a.Wf) (fn : σ → Level → σ × Bool)
    (state : σ) : a.forEach fn state = a.toMap.forEach fn state := by
  rw [forEach_correct wf, MapSide.forEach, bookLevels_toMap wf]

end ArraySide

class SideImpl (S : Type) where
  new : Side → S
  side : S → Side
  apply : S → Price → Qty → S
  clear : S → S
  size : S → Nat
  best : S → Option Level
  forEach {σ : Type} : S → (σ → Level → σ × Bool) → σ → σ

/-- A side container that every read and write shows to be a `MapSide`. -/
class LawfulSideImpl (S : Type) [SideImpl S] where
  toMap : S → MapSide
  toMap_new (side : Side) : toMap (SideImpl.new side) = MapSide.new side
  side_toMap (s : S) : (toMap s).side = SideImpl.side s
  toMap_apply (s : S) (price : Price) (qty : Qty) :
    toMap (SideImpl.apply s price qty) = (toMap s).apply price qty
  toMap_clear (s : S) : toMap (SideImpl.clear s) = (toMap s).clear
  size_toMap (s : S) : (toMap s).size = SideImpl.size s
  best_toMap (s : S) : (toMap s).best = SideImpl.best s
  forEach_toMap {σ : Type} (s : S) (fn : σ → Level → σ × Bool) (state : σ) :
    (toMap s).forEach fn state = SideImpl.forEach s fn state

instance : SideImpl MapSide where
  new := MapSide.new
  side := MapSide.side
  apply := MapSide.apply
  clear := MapSide.clear
  size := MapSide.size
  best := MapSide.best
  forEach := MapSide.forEach

instance : LawfulSideImpl MapSide where
  toMap := id
  toMap_new _ := rfl
  side_toMap _ := rfl
  toMap_apply _ _ _ := rfl
  toMap_clear _ := rfl
  size_toMap _ := rfl
  best_toMap _ := rfl
  forEach_toMap _ _ _ := rfl

/-- An array side together with the invariant every constructor and operation keeps. -/
structure ValidArraySide where
  raw : ArraySide
  wf : raw.Wf

namespace ValidArraySide

theorem kDefaultSlots_fits : ArraySide.kDefaultSlots < 2 ^ 63 := by decide

def withSlots (side : Side) (slots : Nat) (bound : slots < 2 ^ 63) : ValidArraySide :=
  ⟨ArraySide.new side slots, ArraySide.new_wf side slots bound⟩

end ValidArraySide

instance : SideImpl ValidArraySide where
  new side := .withSlots side ArraySide.kDefaultSlots ValidArraySide.kDefaultSlots_fits
  side s := s.raw.side
  apply s price qty := ⟨s.raw.apply price qty, (ArraySide.apply_correct s.wf price qty).1⟩
  clear s := ⟨s.raw.clear, ArraySide.clear_wf s.wf⟩
  size s := s.raw.size
  best s := s.raw.best
  forEach s := s.raw.forEach

instance : LawfulSideImpl ValidArraySide where
  toMap s := s.raw.toMap
  toMap_new side := ArraySide.toMap_new side _ ValidArraySide.kDefaultSlots_fits
  side_toMap _ := rfl
  toMap_apply s := ArraySide.toMap_apply s.wf
  toMap_clear s := ArraySide.toMap_clear s.wf
  size_toMap s := (ArraySide.size_toMap s.wf).symm
  best_toMap s := (ArraySide.best_toMap s.wf).symm
  forEach_toMap s fn state := (ArraySide.forEach_toMap s.wf fn state).symm

attribute [simp] LawfulSideImpl.toMap_new LawfulSideImpl.side_toMap LawfulSideImpl.toMap_apply
  LawfulSideImpl.toMap_clear LawfulSideImpl.size_toMap LawfulSideImpl.best_toMap
  LawfulSideImpl.forEach_toMap

end Crossbook
