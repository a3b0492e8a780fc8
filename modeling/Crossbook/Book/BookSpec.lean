import Crossbook.Book.Book

set_option autoImplicit false

namespace Crossbook

namespace BasicL2Book

variable {S : Type} [SideImpl S] [LawfulSideImpl S]

def toMap (book : BasicL2Book S) : MapBook where
  spec := book.spec
  bids := LawfulSideImpl.toMap book.bids
  asks := LawfulSideImpl.toMap book.asks
  lastUpdate := book.lastUpdate
  bidsSide := (LawfulSideImpl.side_toMap book.bids).trans book.bidsSide
  asksSide := (LawfulSideImpl.side_toMap book.asks).trans book.asksSide

def levels (book : BasicL2Book S) (s : Side) : List Level :=
  (LawfulSideImpl.toMap (book.side s)).bookLevels

def qtyAt (book : BasicL2Book S) (s : Side) (ticks : Int64) : Option Int64 :=
  (LawfulSideImpl.toMap (book.side s)).levels[ticks]?

theorem ext {a b : MapBook} (spec : a.spec = b.spec) (lastUpdate : a.lastUpdate = b.lastUpdate)
    (sides : ∀ s, a.side s = b.side s) : a = b := by
  have bids : a.bids = b.bids := sides .bid
  have asks : a.asks = b.asks := sides .ask
  cases a
  cases b
  simp only at spec lastUpdate bids asks
  subst spec lastUpdate bids asks
  rfl

theorem side_toMap (book : BasicL2Book S) (s : Side) :
    book.toMap.side s = LawfulSideImpl.toMap (book.side s) := by
  cases s <;> rfl

omit [LawfulSideImpl S] in
theorem side_setSide (book : BasicL2Book S) (s t : Side) (content : S)
    (placed : SideImpl.side content = s) :
    (book.setSide s content placed).side t = if t = s then content else book.side t := by
  cases s <;> cases t <;> rfl

omit [LawfulSideImpl S] in
@[simp] theorem spec_setSide (book : BasicL2Book S) (s : Side) (content : S)
    (placed : SideImpl.side content = s) : (book.setSide s content placed).spec = book.spec := by
  cases s <;> rfl

omit [LawfulSideImpl S] in
@[simp] theorem lastUpdate_setSide (book : BasicL2Book S) (s : Side) (content : S)
    (placed : SideImpl.side content = s) :
    (book.setSide s content placed).lastUpdate = book.lastUpdate := by
  cases s <;> rfl

theorem toMap_setSide (book : BasicL2Book S) (s : Side) (content : S)
    (placed : SideImpl.side content = s) :
    (book.setSide s content placed).toMap =
      book.toMap.setSide s (LawfulSideImpl.toMap content)
        ((LawfulSideImpl.side_toMap content).trans placed) := by
  cases s <;> rfl

theorem levels_bookOrder (book : BasicL2Book S) (s : Side) : BookOrder s (book.levels s) := by
  have ordered := (LawfulSideImpl.toMap (book.side s)).bookOrder
  rwa [LawfulSideImpl.side_toMap, side_side] at ordered

theorem mem_levels (book : BasicL2Book S) (s : Side) (level : Level) :
    level ∈ book.levels s ↔ book.qtyAt s level.price.ticks = some level.qty.units :=
  MapSide.mem_bookLevels _ level

theorem levels_congr {a b : BasicL2Book S} {s : Side}
    (same : ∀ ticks, a.qtyAt s ticks = b.qtyAt s ticks) : a.levels s = b.levels s := by
  apply (a.levels_bookOrder s).eq_of_mem_iff (b.levels_bookOrder s)
  intro level
  rw [mem_levels, mem_levels, same]

theorem forEach_eq {σ : Type} (book : BasicL2Book S) (s : Side) (fn : σ → Level → σ × Bool)
    (state : σ) : SideImpl.forEach (book.side s) fn state = Visit.visit fn state (book.levels s) :=
  (LawfulSideImpl.forEach_toMap _ fn state).symm

theorem size_eq (book : BasicL2Book S) (s : Side) :
    SideImpl.size (book.side s) = (book.levels s).length := by
  rw [← LawfulSideImpl.size_toMap, MapSide.size_eq_length]
  rfl

theorem best_eq (book : BasicL2Book S) (s : Side) : book.best s = (book.levels s).head? := by
  rw [best, ← LawfulSideImpl.best_toMap, MapSide.best_eq_head]
  rfl

theorem top_eq (book : BasicL2Book S) (s : Side) (n : Nat) :
    book.top s n = (book.levels s).take (max 1 n) := by
  rw [top, forEach_eq]
  have limit := Visit.visit_limit (fun (out : List Level) (level : Level) => out ++ [level])
    List.length n (by simp) [] (book.levels s)
  exact limit.trans (Visit.foldl_push _ _)

@[simp] theorem levels_toMap (book : BasicL2Book S) (s : Side) :
    book.toMap.levels s = book.levels s := by
  unfold levels
  rw [side_toMap]
  rfl

@[simp] theorem best_toMap (book : BasicL2Book S) (s : Side) : book.toMap.best s = book.best s := by
  rw [best_eq, best_eq, levels_toMap]

@[simp] theorem top_toMap (book : BasicL2Book S) (s : Side) (n : Nat) :
    book.toMap.top s n = book.top s n := by
  rw [top_eq, top_eq, levels_toMap]

theorem hashSide_toMap (book : BasicL2Book S) (h : UInt64) (s : Side) :
    book.toMap.hashSide h s = book.hashSide h s := by
  unfold hashSide
  simp only [forEach_eq, size_eq, levels_toMap]

@[simp] theorem stateHash_toMap (book : BasicL2Book S) : book.toMap.stateHash = book.stateHash := by
  simp only [stateHash, List.foldl_cons, List.foldl_nil, hashSide_toMap]

theorem toMap_new (spec : InstrumentSpec) : (new spec : BasicL2Book S).toMap = new spec := by
  refine ext rfl rfl ?_
  intro s
  rw [side_toMap]
  cases s <;> exact LawfulSideImpl.toMap_new _

theorem apply_toMap (book : BasicL2Book S) (s : Side) (price : Price) (qty : Qty) :
    book.toMap.apply s price qty = ((book.apply s price qty).1.toMap, (book.apply s price qty).2) := by
  unfold apply
  split
  · rfl
  · simp only [toMap_setSide, side_toMap, LawfulSideImpl.toMap_apply]
    rfl

theorem clear_toMap (book : BasicL2Book S) : book.toMap.clear = book.clear.toMap := by
  refine ext rfl rfl ?_
  intro s
  cases s <;> exact (LawfulSideImpl.toMap_clear _).symm

theorem trimSide_toMap (book : BasicL2Book S) (s : Side) (maxLevels : Nat) :
    book.toMap.trimSide s maxLevels =
      ((book.trimSide s maxLevels).1.toMap, (book.trimSide s maxLevels).2) := by
  unfold trimSide
  split
  · rfl
  · simp only [toMap_setSide, side_toMap, toMap_trimLoop]

theorem trim_toMap (book : BasicL2Book S) (maxLevels : Nat) :
    book.toMap.trim maxLevels = ((book.trim maxLevels).1.toMap, (book.trim maxLevels).2) := by
  simp only [trim, trimSide_toMap]

theorem qtyAt_new (spec : InstrumentSpec) (s : Side) (ticks : Int64) :
    (new spec : BasicL2Book S).qtyAt s ticks = none := by
  unfold qtyAt
  cases s <;> simp [side, new, MapSide.new]

theorem qtyAt_clear (book : BasicL2Book S) (s : Side) (ticks : Int64) :
    book.clear.qtyAt s ticks = none := by
  unfold qtyAt
  cases s <;> simp [side, clear, MapSide.clear]

/-- Whether the book accepts an update rather than refusing it. -/
def Representable (price : Price) (qty : Qty) : Prop := 0 ≤ price.ticks ∧ 0 ≤ qty.units

theorem apply_refused (book : BasicL2Book S) (s : Side) (price : Price) (qty : Qty)
    (refused : ¬ Representable price qty) : book.apply s price qty = (book, false) := by
  unfold apply
  apply if_pos
  unfold Representable at refused
  grind

theorem qtyAt_apply (book : BasicL2Book S) (s t : Side) (price : Price) (qty : Qty) (ticks : Int64)
    (representable : Representable price qty) :
    (book.apply s price qty).1.qtyAt t ticks =
      if t = s ∧ price.ticks = ticks then (if qty.isZero then none else some qty.units)
      else book.qtyAt t ticks := by
  have accepted : ¬ (price.ticks < 0 ∨ qty.units < 0) := by
    unfold Representable at representable
    grind
  unfold qtyAt apply
  rw [if_neg accepted]
  simp only [side_setSide]
  by_cases same : t = s
  · subst same
    simp [MapSide.getElem?_apply]
  · simp [same]

theorem levels_trimSide (book : BasicL2Book S) (s t : Side) (maxLevels : Nat)
    (limited : maxLevels ≠ 0) :
    (book.trimSide s maxLevels).1.levels t =
      if t = s then (book.levels t).take maxLevels else book.levels t := by
  unfold levels trimSide
  rw [if_neg limited]
  simp only [side_setSide]
  by_cases same : t = s
  · subst same
    simp [trimLoop_levels]
  · simp [same]

theorem levels_trim (book : BasicL2Book S) (t : Side) (maxLevels : Nat) (limited : maxLevels ≠ 0) :
    (book.trim maxLevels).1.levels t = (book.levels t).take maxLevels := by
  simp only [trim, levels_trimSide _ _ _ _ limited]
  cases t <;> simp

@[simp] theorem levels_setLastUpdate (book : BasicL2Book S) (ts : Timestamp) (s : Side) :
    (book.setLastUpdate ts).levels s = book.levels s := by
  cases s <;> rfl

@[simp] theorem trim_zero (book : BasicL2Book S) : book.trim 0 = (book, 0) := by
  simp [trim, trimSide]

end BasicL2Book

end Crossbook
