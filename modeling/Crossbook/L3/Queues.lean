import Crossbook.L3.Spec

set_option autoImplicit false

namespace Crossbook

open LinkedQueue (Linked)

def Order.unlinked (order : Order) : Order := { order with prev := kNoOrder, next := kNoOrder }

namespace L3Book

section Updates

variable {book : L3Book} {ref r : OrderRef} {change : Order → Order}

theorem getElem?_updateOrder (change : Order → Order) (r : OrderRef) :
    (book.updateOrder ref change).orders[r.toNat]? =
      if r = ref then (book.orders[r.toNat]?).map change else book.orders[r.toNat]? := by
  rw [updateOrder, Array.getElem?_modify]
  by_cases same : r = ref
  · simp [same]
  · have apart : ref.toNat ≠ r.toNat := fun equal => same (UInt32.toNat_inj.mp equal.symm)
    simp [same, apart]

theorem order_updateOrder (inside : ref.toNat < book.orders.size) (change : Order → Order)
    (r : OrderRef) :
    (book.updateOrder ref change).order r =
      if r = ref then change (book.order r) else book.order r := by
  simp only [order, Array.getD_eq_getD_getElem?, getElem?_updateOrder]
  by_cases same : r = ref
  · subst same
    simp [inside]
  · simp [same]

theorem field_updateOrder {β : Type} (field : Order → β)
    (keeps : ∀ order, field (change order) = field order) (r : OrderRef) :
    field ((book.updateOrder ref change).order r) = field (book.order r) := by
  simp only [order, Array.getD_eq_getD_getElem?, getElem?_updateOrder]
  split
  · cases book.orders[r.toNat]? with
    | none => rfl
    | some order => exact keeps order
  · rfl

@[simp] theorem size_updateOrder : (book.updateOrder ref change).orders.size = book.orders.size := by
  simp [updateOrder]

@[simp] theorem levels_updateOrder (side : Side) :
    (book.updateOrder ref change).levels side = book.levels side := by
  cases side <;> rfl

@[simp] theorem order_setLevels (side : Side) (levels : Std.ExtTreeMap Int64 L3Level) :
    (book.setLevels side levels).order r = book.order r := by
  cases side <;> rfl

@[simp] theorem orders_setLevels (side : Side) (levels : Std.ExtTreeMap Int64 L3Level) :
    (book.setLevels side levels).orders = book.orders := by
  cases side <;> rfl

theorem levels_setLevels (side t : Side) (levels : Std.ExtTreeMap Int64 L3Level) :
    (book.setLevels side levels).levels t = if t = side then levels else book.levels t := by
  cases side <;> cases t <;> rfl

theorem getElem?_setLevel (side t : Side) (price : Price) (level : L3Level) (p : Int64) :
    ((book.setLevel side price level).levels t)[p]? =
      if t = side ∧ p = price.ticks then some level else (book.levels t)[p]? := by
  rw [setLevel, levels_setLevels]
  by_cases same : t = side
  · simp [same, Std.ExtTreeMap.getElem?_insert, eq_comm (a := p)]
  · simp [same]

theorem getElem?_eraseLevel (side t : Side) (ticks p : Int64) :
    ((book.setLevels side ((book.levels side).erase ticks)).levels t)[p]? =
      if t = side ∧ p = ticks then none else (book.levels t)[p]? := by
  rw [levels_setLevels]
  by_cases same : t = side
  · simp [same, Std.ExtTreeMap.getElem?_erase, eq_comm (a := p)]
  · simp [same]

@[simp] theorem order_setLevel (side : Side) (price : Price) (level : L3Level) :
    (book.setLevel side price level).order r = book.order r :=
  order_setLevels side _

@[simp] theorem orders_setLevel (side : Side) (price : Price) (level : L3Level) :
    (book.setLevel side price level).orders = book.orders :=
  orders_setLevels side _

end Updates

structure Frame (before after : L3Book) : Prop where
  table : after.table = before.table
  tableUsed : after.tableUsed = before.tableUsed
  freeList : after.freeList = before.freeList
  liveOrders : after.liveOrders = before.liveOrders
  size : after.orders.size = before.orders.size
  live : ∀ ref, (after.order ref).live = (before.order ref).live

theorem Frame.refl (book : L3Book) : Frame book book :=
  ⟨rfl, rfl, rfl, rfl, rfl, fun _ => rfl⟩

theorem Frame.trans {a b c : L3Book} (first : Frame a b) (second : Frame b c) : Frame a c where
  table := second.table.trans first.table
  tableUsed := second.tableUsed.trans first.tableUsed
  freeList := second.freeList.trans first.freeList
  liveOrders := second.liveOrders.trans first.liveOrders
  size := second.size.trans first.size
  live ref := (second.live ref).trans (first.live ref)

theorem Frame.setLevels (book : L3Book) (side : Side) (levels : Std.ExtTreeMap Int64 L3Level) :
    Frame book (book.setLevels side levels) := by
  cases side <;> exact ⟨rfl, rfl, rfl, rfl, rfl, fun _ => rfl⟩

theorem Frame.updateOrder (book : L3Book) (ref : OrderRef) (change : Order → Order)
    (keeps : ∀ order, (change order).live = order.live) : Frame book (book.updateOrder ref change) :=
  ⟨rfl, rfl, rfl, rfl, size_updateOrder, field_updateOrder Order.live keeps⟩

theorem Frame.linkBack (book : L3Book) (ref : OrderRef) : Frame book (book.linkBack ref) := by
  unfold L3Book.linkBack
  simp only
  split
  · refine (Frame.updateOrder book ref _ ?_).trans
      ((Frame.updateOrder _ _ _ ?_).trans (Frame.setLevels ..)) <;> exact fun _ => rfl
  · refine (Frame.updateOrder book ref _ ?_).trans (Frame.setLevels ..)
    exact fun _ => rfl

theorem Frame.joinNeighbours (book : L3Book) (ref : OrderRef) :
    Frame book (book.joinNeighbours ref) := by
  have conditional : ∀ (other : L3Book) (neighbour : OrderRef) (change : Order → Order),
      (∀ order, (change order).live = order.live) →
        Frame other (if neighbour ≠ kNoOrder then other.updateOrder neighbour change else other) := by
    intro other neighbour change keeps
    split
    · exact Frame.updateOrder other neighbour change keeps
    · exact Frame.refl other
  unfold L3Book.joinNeighbours
  refine Frame.trans ((conditional book _ _ ?_).trans (conditional _ _ _ ?_))
    (Frame.updateOrder _ ref _ ?_) <;> exact fun _ => rfl

theorem Frame.unlink (book : L3Book) (ref : OrderRef) : Frame book (book.unlink ref) := by
  unfold L3Book.unlink
  simp only
  split
  · exact Frame.refl book
  · split <;> exact (Frame.joinNeighbours book ref).trans (Frame.setLevels ..)

theorem Frame.resize (book : L3Book) (ref : OrderRef) (qty : Qty) (difference : Int64) :
    Frame book (book.resize ref qty difference) :=
  (Frame.setLevels book _ _).trans (Frame.updateOrder _ ref _ fun _ => rfl)

end L3Book

end Crossbook
