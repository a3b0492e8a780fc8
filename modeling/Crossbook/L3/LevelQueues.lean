import Crossbook.L3.Queues

set_option autoImplicit false

namespace Crossbook

open LinkedQueue (Linked)

namespace L3Book

def prevOf (book : L3Book) (ref : OrderRef) : OrderRef := (book.order ref).prev

def nextOf (book : L3Book) (ref : OrderRef) : OrderRef := (book.order ref).next

def levelData (slotOf : OrderId → OrderRef) (s : L3Spec) (ids : List OrderId) : L3Level where
  qty := ⟨Int64.ofInt (s.totalOf ids)⟩
  orders := UInt32.ofNat ids.length
  head := (ids.map slotOf).headD kNoOrder
  tail := (ids.map slotOf).getLastD kNoOrder

def levelEntry (slotOf : OrderId → OrderRef) (s : L3Spec) (ids : List OrderId) : Option L3Level :=
  if ids = [] then none else some (levelData slotOf s ids)

def arenaEntry (id : OrderId) (order : SpecOrder) : Order :=
  ⟨id, order.price, order.qty, order.side, kNoOrder, kNoOrder, true⟩

/-- Arena and levels hold the orders and queues of `s`, each order at its slot. -/
structure Represents (slotOf : OrderId → OrderRef) (book : L3Book) (s : L3Spec) : Prop where
  inside : ∀ (id : OrderId) (order : SpecOrder), s.orders[id]? = some order →
    (slotOf id).toNat < book.orders.size
  recorded : ∀ (id : OrderId) (order : SpecOrder), s.orders[id]? = some order →
    (book.order (slotOf id)).unlinked = arenaEntry id order
  linked : ∀ side ticks,
    Linked book.prevOf book.nextOf kNoOrder ((s.queue side ticks).map slotOf) kNoOrder
  level : ∀ side ticks, (book.levels side)[ticks]? = levelEntry slotOf s (s.queue side ticks)
  room : book.orders.size < kNoOrder.toNat

theorem totalOf_congr {s s' : L3Spec} {ids : List OrderId}
    (same : ∀ id ∈ ids, s'.unitsOf id = s.unitsOf id) : s'.totalOf ids = s.totalOf ids := by
  unfold L3Spec.totalOf
  rw [List.map_congr_left same]

theorem totalOf_append (s : L3Spec) (xs ys : List OrderId) :
    s.totalOf (xs ++ ys) = s.totalOf xs + s.totalOf ys := by
  simp [L3Spec.totalOf]

theorem totalOf_cons (s : L3Spec) (id : OrderId) (ids : List OrderId) :
    s.totalOf (id :: ids) = s.unitsOf id + s.totalOf ids := by
  simp [L3Spec.totalOf]

theorem unitsOf_eq {s : L3Spec} {id : OrderId} {order : SpecOrder}
    (found : s.orders[id]? = some order) : s.unitsOf id = order.qty.units.toInt := by
  simp [L3Spec.unitsOf, found]

theorem unitsOf_record_of_ne (s : L3Spec) {id other : OrderId} (order : SpecOrder)
    (different : other ≠ id) : (s.record id order).unitsOf other = s.unitsOf other := by
  simp [L3Spec.unitsOf, L3Spec.getElem?_record, different]

theorem unitsOf_forget_of_ne (s : L3Spec) {id other : OrderId} (different : other ≠ id) :
    (s.forget id).unitsOf other = s.unitsOf other := by
  simp [L3Spec.unitsOf, L3Spec.getElem?_forget, different]

theorem levelEntry_congr {slotOf slotOf' : OrderId → OrderRef} {s s' : L3Spec} {ids : List OrderId}
    (slots : ∀ id ∈ ids, slotOf' id = slotOf id) (units : ∀ id ∈ ids, s'.unitsOf id = s.unitsOf id) :
    levelEntry slotOf' s' ids = levelEntry slotOf s ids := by
  simp only [levelEntry, levelData, totalOf_congr units, List.map_congr_left slots]

theorem getD_levelEntry (slotOf : OrderId → OrderRef) (s : L3Spec) (ids : List OrderId) :
    (levelEntry slotOf s ids).getD .blank = levelData slotOf s ids := by
  cases ids with
  | nil => rfl
  | cons id rest => rfl

section Neighbours

variable {refs xs ys : List OrderRef}

theorem getLastD_ne (proper : kNoOrder ∉ refs) : refs.getLastD kNoOrder ≠ kNoOrder ↔ refs ≠ [] := by
  cases refs with
  | nil => simp
  | cons first rest =>
    simp only [ne_eq, reduceCtorEq, not_false_eq_true, iff_true]
    intro last
    have member : (first :: rest).getLastD kNoOrder ∈ first :: rest := by
      simp [List.getLastD_eq_getLast?, List.getLast?_eq_some_getLast]
    exact proper (last ▸ member)

theorem headD_ne (proper : kNoOrder ∉ refs) : refs.headD kNoOrder ≠ kNoOrder ↔ refs ≠ [] := by
  cases refs with
  | nil => simp
  | cons first rest =>
    simp only [List.mem_cons, not_or] at proper
    simpa using Ne.symm proper.1

theorem headD_push (ref : OrderRef) (proper : kNoOrder ∉ refs) :
    (refs ++ [ref]).headD kNoOrder =
      if refs.getLastD kNoOrder ≠ kNoOrder then refs.headD kNoOrder else ref := by
  rw [if_congr (getLastD_ne proper) rfl rfl]
  cases refs <;> simp

theorem headD_unlink (ref : OrderRef) (proper : kNoOrder ∉ xs) :
    (xs ++ ys).headD kNoOrder =
      if xs.getLastD kNoOrder ≠ kNoOrder then (xs ++ ref :: ys).headD kNoOrder
      else ys.headD kNoOrder := by
  rw [if_congr (getLastD_ne proper) rfl rfl]
  cases xs <;> simp

theorem getLastD_unlink (ref : OrderRef) (proper : kNoOrder ∉ ys) :
    (xs ++ ys).getLastD kNoOrder =
      if ys.headD kNoOrder ≠ kNoOrder then (xs ++ ref :: ys).getLastD kNoOrder
      else xs.getLastD kNoOrder := by
  rw [if_congr (headD_ne proper) rfl rfl]
  cases ys with
  | nil => simp
  | cons y rest => simp [List.getLastD_eq_getLast?, List.getLast?_append]

end Neighbours

namespace Represents

variable {slotOf : OrderId → OrderRef} {book : L3Book} {s : L3Spec} {id : OrderId}
  {order : SpecOrder}

theorem slot_ne (rep : Represents slotOf book s) (found : s.orders[id]? = some order) :
    slotOf id ≠ kNoOrder := by
  intro sentinel
  have inside := rep.inside id order found
  rw [sentinel] at inside
  exact absurd (inside.trans rep.room) (lt_irrefl _)

theorem id_eq (rep : Represents slotOf book s) (found : s.orders[id]? = some order) :
    (book.order (slotOf id)).id = id :=
  congrArg Order.id (rep.recorded id order found)

theorem price_eq (rep : Represents slotOf book s) (found : s.orders[id]? = some order) :
    (book.order (slotOf id)).price = order.price :=
  congrArg Order.price (rep.recorded id order found)

theorem side_eq (rep : Represents slotOf book s) (found : s.orders[id]? = some order) :
    (book.order (slotOf id)).side = order.side :=
  congrArg Order.side (rep.recorded id order found)

theorem qty_eq (rep : Represents slotOf book s) (found : s.orders[id]? = some order) :
    (book.order (slotOf id)).qty = order.qty :=
  congrArg Order.qty (rep.recorded id order found)

theorem live_eq (rep : Represents slotOf book s) (found : s.orders[id]? = some order) :
    (book.order (slotOf id)).live = true :=
  congrArg Order.live (rep.recorded id order found)

theorem slot_injective (rep : Represents slotOf book s) {other : OrderId} {order' : SpecOrder}
    (left : s.orders[id]? = some order) (right : s.orders[other]? = some order')
    (same : slotOf id = slotOf other) : id = other := by
  rw [← rep.id_eq left, same, rep.id_eq right]

theorem slot_injective_queue (rep : Represents slotOf book s) (placed : s.Placed) {a b : OrderId}
    {side t : Side} {ticks p : Int64} (left : a ∈ s.queue side ticks) (right : b ∈ s.queue t p)
    (same : slotOf a = slotOf b) : a = b := by
  obtain ⟨_, foundA, -⟩ := placed.sound side ticks a left
  obtain ⟨_, foundB, -⟩ := placed.sound t p b right
  exact rep.slot_injective foundA foundB same

theorem nodup (rep : Represents slotOf book s) (placed : s.Placed) (side : Side) (ticks : Int64) :
    ((s.queue side ticks).map slotOf).Nodup :=
  (placed.nodup side ticks).map_on fun _ left _ right =>
    rep.slot_injective_queue placed left right

theorem proper (rep : Represents slotOf book s) (placed : s.Placed) (side : Side) (ticks : Int64) :
    kNoOrder ∉ (s.queue side ticks).map slotOf := by
  intro member
  obtain ⟨id, queued, sentinel⟩ := List.mem_map.mp member
  obtain ⟨_, found, -⟩ := placed.sound side ticks id queued
  exact rep.slot_ne found sentinel

theorem length_le (rep : Represents slotOf book s) (placed : s.Placed) (side : Side) (ticks : Int64) :
    (s.queue side ticks).length ≤ book.orders.size := by
  have distinct : (((s.queue side ticks).map slotOf).map UInt32.toNat).Nodup :=
    (rep.nodup placed side ticks).map fun _ _ => UInt32.toNat_inj.mp
  have inside : ((s.queue side ticks).map slotOf).map UInt32.toNat ⊆ List.range book.orders.size := by
    intro n member
    simp only [List.map_map, List.mem_map, Function.comp_apply] at member
    obtain ⟨id, queued, rfl⟩ := member
    obtain ⟨_, found, -⟩ := placed.sound side ticks id queued
    exact List.mem_range.mpr (rep.inside id _ found)
  simpa using (distinct.subperm inside).length_le

theorem levelFor_eq (rep : Represents slotOf book s) (side : Side) (price : Price) :
    book.levelFor side price = levelData slotOf s (s.queue side price.ticks) := by
  rw [levelFor, Std.ExtTreeMap.getD_eq_getD_getElem?, rep.level, getD_levelEntry]

theorem not_mem_other (rep : Represents slotOf book s) (placed : s.Placed) {side t : Side}
    {ticks p : Int64} (elsewhere : ¬ (t = side ∧ p = ticks)) {ref : OrderRef}
    (queued : ref ∈ (s.queue side ticks).map slotOf) : ref ∉ (s.queue t p).map slotOf := by
  -- A reference queued at one price names no neighbour at another.
  intro other
  obtain ⟨a, left, rfl⟩ := List.mem_map.mp queued
  obtain ⟨b, right, same⟩ := List.mem_map.mp other
  obtain rfl := rep.slot_injective_queue placed right left same
  obtain ⟨_, foundA, sideA, priceA⟩ := placed.sound side ticks b left
  obtain ⟨_, foundB, sideB, priceB⟩ := placed.sound t p b right
  obtain rfl := Option.some.inj (foundA.symm.trans foundB)
  exact elsewhere ⟨sideB.symm.trans sideA, priceB.symm.trans priceA⟩

theorem not_mem_map (rep : Represents slotOf book s) (placed : s.Placed)
    (found : s.orders[id]? = some order) {t : Side} {p : Int64} (absent : id ∉ s.queue t p) :
    slotOf id ∉ (s.queue t p).map slotOf := by
  intro member
  obtain ⟨other, queued, same⟩ := List.mem_map.mp member
  obtain ⟨_, foundOther, -⟩ := placed.sound t p other queued
  exact absent (rep.slot_injective foundOther found same ▸ queued)

theorem inside_of_mem (rep : Represents slotOf book s) (placed : s.Placed) {side : Side}
    {ticks : Int64} {ref : OrderRef} (queued : ref ∈ (s.queue side ticks).map slotOf) :
    ref.toNat < book.orders.size := by
  obtain ⟨id, member, rfl⟩ := List.mem_map.mp queued
  obtain ⟨_, found, -⟩ := placed.sound side ticks id member
  exact rep.inside id _ found

end Represents

end L3Book

end Crossbook
