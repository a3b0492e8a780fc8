import Crossbook.L3.Book

set_option autoImplicit false

namespace Crossbook

inductive L3Call where
  | add (id : OrderId) (side : Side) (price : Price) (qty : Qty)
  | modify (id : OrderId) (newQty : Qty)
  | remove (id : OrderId)
  | execute (id : OrderId) (traded : Qty)
  | clear
  deriving DecidableEq, Repr

structure SpecOrder where
  side : Side
  price : Price
  qty : Qty
  deriving DecidableEq, Repr

/-- What an order-by-order book is for: the resting orders by id, and for every side and price
the ids in time priority. -/
structure L3Spec where
  orders : Std.ExtTreeMap OrderId SpecOrder
  queue : Side → Int64 → List OrderId

namespace L3Spec

def empty : L3Spec := ⟨∅, fun _ _ => []⟩

def record (s : L3Spec) (id : OrderId) (order : SpecOrder) : L3Spec :=
  { s with orders := s.orders.insert id order }

def forget (s : L3Spec) (id : OrderId) : L3Spec := { s with orders := s.orders.erase id }

def enqueue (s : L3Spec) (id : OrderId) (side : Side) (price : Price) : L3Spec :=
  { s with
    queue := fun t p =>
      if t = side ∧ p = price.ticks then s.queue t p ++ [id] else s.queue t p }

def dequeue (s : L3Spec) (id : OrderId) : L3Spec :=
  { s with queue := fun t p => (s.queue t p).erase id }

def add (s : L3Spec) (id : OrderId) (side : Side) (price : Price) (qty : Qty) : L3Spec × Bool :=
  if qty.units ≤ 0 || (s.orders[id]?).isSome then (s, false)
  else ((s.record id ⟨side, price, qty⟩).enqueue id side price, true)

def remove (s : L3Spec) (id : OrderId) : L3Spec × Bool :=
  match s.orders[id]? with
  | none => (s, false)
  | some _ => ((s.dequeue id).forget id, true)

def modify (s : L3Spec) (id : OrderId) (newQty : Qty) : L3Spec × Bool :=
  match s.orders[id]? with
  | none => (s, false)
  | some order =>
    if newQty.units ≤ 0 then s.remove id
    else if order.qty.units < newQty.units then
      (((s.record id { order with qty := newQty }).dequeue id).enqueue id order.side order.price, true)
    else (s.record id { order with qty := newQty }, true)

def execute (s : L3Spec) (id : OrderId) (traded : Qty) : L3Spec × Bool :=
  match s.orders[id]? with
  | none => (s, false)
  | some order =>
    if traded.units ≤ 0 then (s, false)
    else if order.qty.units ≤ traded.units then s.remove id
    else (s.record id { order with qty := ⟨order.qty.units - traded.units⟩ }, true)

def call (s : L3Spec) : L3Call → L3Spec × Option Bool
  | .add id side price qty => (s.add id side price qty).map (fun s => s) some
  | .modify id newQty => (s.modify id newQty).map (fun s => s) some
  | .remove id => (s.remove id).map (fun s => s) some
  | .execute id traded => (s.execute id traded).map (fun s => s) some
  | .clear => (empty, none)

def step (s : L3Spec) (c : L3Call) : L3Spec := (s.call c).1

def replies : L3Spec → List L3Call → List (Option Bool)
  | _, [] => []
  | s, c :: rest => (s.call c).2 :: replies (s.step c) rest

def unitsOf (s : L3Spec) (id : OrderId) : Int :=
  match s.orders[id]? with
  | none => 0
  | some order => order.qty.units.toInt

def totalOf (s : L3Spec) (ids : List OrderId) : Int := (ids.map s.unitsOf).sum

def total (s : L3Spec) (side : Side) (ticks : Int64) : Int := s.totalOf (s.queue side ticks)

def ahead (s : L3Spec) (order : SpecOrder) (id : OrderId) : Int :=
  s.totalOf ((s.queue order.side order.price.ticks).takeWhile (· ≠ id))

/-- The sums fit their type, and the orders fit the arena next to its sentinel. -/
structure Fits (s : L3Spec) : Prop where
  sums : ∀ side ticks, s.total side ticks < 2 ^ 63
  slots : s.orders.size < 2 ^ 32 - 1

structure Placed (s : L3Spec) : Prop where
  nodup : ∀ side ticks, (s.queue side ticks).Nodup
  sound : ∀ side ticks, ∀ id ∈ s.queue side ticks,
    ∃ order, s.orders[id]? = some order ∧ order.side = side ∧ order.price.ticks = ticks

structure Wf (s : L3Spec) : Prop extends Placed s where
  complete : ∀ (id : OrderId) (order : SpecOrder), s.orders[id]? = some order →
    id ∈ s.queue order.side order.price.ticks
  positive : ∀ (id : OrderId) (order : SpecOrder), s.orders[id]? = some order → 0 < order.qty.units

@[simp] theorem queue_record (s : L3Spec) (id : OrderId) (order : SpecOrder) :
    (s.record id order).queue = s.queue := rfl

@[simp] theorem queue_forget (s : L3Spec) (id : OrderId) : (s.forget id).queue = s.queue := rfl

@[simp] theorem orders_enqueue (s : L3Spec) (id : OrderId) (side : Side) (price : Price) :
    (s.enqueue id side price).orders = s.orders := rfl

@[simp] theorem orders_dequeue (s : L3Spec) (id : OrderId) : (s.dequeue id).orders = s.orders := rfl

theorem getElem?_record (s : L3Spec) (id other : OrderId) (order : SpecOrder) :
    (s.record id order).orders[other]? = if other = id then some order else s.orders[other]? := by
  simp [record, Std.ExtTreeMap.getElem?_insert, eq_comm (a := other)]

theorem getElem?_forget (s : L3Spec) (id other : OrderId) :
    (s.forget id).orders[other]? = if other = id then none else s.orders[other]? := by
  simp [forget, Std.ExtTreeMap.getElem?_erase, eq_comm (a := other)]

theorem mem_enqueue (s : L3Spec) (id other : OrderId) (side t : Side) (price : Price) (p : Int64) :
    other ∈ (s.enqueue id side price).queue t p ↔
      other ∈ s.queue t p ∨ (other = id ∧ t = side ∧ p = price.ticks) := by
  unfold enqueue
  by_cases here : t = side ∧ p = price.ticks <;> simp [here]

variable {s : L3Spec} {id : OrderId}

theorem Placed.mem_dequeue (placed : s.Placed) (other : OrderId) (t : Side) (p : Int64) :
    other ∈ (s.dequeue id).queue t p ↔ other ≠ id ∧ other ∈ s.queue t p :=
  (placed.nodup t p).mem_erase_iff

theorem Placed.enqueue (placed : s.Placed) {order : SpecOrder} (recorded : s.orders[id]? = some order)
    (absent : id ∉ s.queue order.side order.price.ticks) :
    (s.enqueue id order.side order.price).Placed := by
  constructor
  · intro t p
    unfold L3Spec.enqueue
    by_cases here : t = order.side ∧ p = order.price.ticks
    · simp only [here, and_self, if_true]
      exact List.nodup_append.mpr
        ⟨placed.nodup _ _, List.nodup_singleton id, by
          intro a member b last
          rw [List.mem_singleton.mp last]
          exact fun same => absent (same ▸ member)⟩
    · simp only [here, if_false]
      exact placed.nodup t p
  · intro t p other member
    rcases (mem_enqueue _ _ _ _ _ _ _).mp member with old | ⟨rfl, rfl, rfl⟩
    · exact placed.sound t p other old
    · exact ⟨order, recorded, rfl, rfl⟩

theorem Placed.dequeue (placed : s.Placed) : (s.dequeue id).Placed := by
  constructor
  · exact fun t p => (placed.nodup t p).erase id
  · intro t p other member
    exact placed.sound t p other (List.mem_of_mem_erase member)

theorem Placed.record (placed : s.Placed) {order : SpecOrder}
    (inPlace : ∀ old, s.orders[id]? = some old → old.side = order.side ∧ old.price = order.price) :
    (s.record id order).Placed := by
  refine ⟨placed.nodup, ?_⟩
  intro t p other member
  obtain ⟨old, recorded, side, price⟩ := placed.sound t p other member
  rw [getElem?_record]
  by_cases same : other = id
  · subst same
    obtain ⟨sameSide, samePrice⟩ := inPlace old recorded
    exact ⟨order, if_pos rfl, sameSide ▸ side, samePrice ▸ price⟩
  · exact ⟨old, by rw [if_neg same, recorded], side, price⟩

theorem Placed.forget (placed : s.Placed) (unqueued : ∀ t p, id ∉ s.queue t p) :
    (s.forget id).Placed := by
  refine ⟨placed.nodup, ?_⟩
  intro t p other member
  obtain ⟨order, recorded, side, price⟩ := placed.sound t p other member
  have different : other ≠ id := fun same => unqueued t p (same ▸ member)
  exact ⟨order, by rw [getElem?_forget, if_neg different, recorded], side, price⟩

theorem Placed.not_mem (placed : s.Placed) (absent : s.orders[id]? = none) (t : Side) (p : Int64) :
    id ∉ s.queue t p := by
  intro member
  obtain ⟨order, recorded, -⟩ := placed.sound t p id member
  simp [absent] at recorded

theorem Placed.not_mem_dequeue (placed : s.Placed) (t : Side) (p : Int64) :
    id ∉ (s.dequeue id).queue t p := by
  rw [placed.mem_dequeue]
  exact fun kept => kept.1 rfl

theorem Wf.add (wf : s.Wf) (absent : s.orders[id]? = none) {order : SpecOrder}
    (positive : 0 < order.qty.units) :
    ((s.record id order).enqueue id order.side order.price).Wf := by
  have recorded : (s.record id order).orders[id]? = some order := by simp [getElem?_record]
  have placed : (s.record id order).Placed := wf.toPlaced.record (by simp [absent])
  refine ⟨placed.enqueue recorded (wf.not_mem absent _ _), ?_, ?_⟩ <;> intro other held found <;>
    rw [orders_enqueue, getElem?_record] at found <;> split at found
  · rename_i same
    obtain rfl := Option.some.inj found
    exact (mem_enqueue _ _ _ _ _ _ _).mpr (.inr ⟨same, rfl, rfl⟩)
  · exact (mem_enqueue _ _ _ _ _ _ _).mpr (.inl (wf.complete other held found))
  · obtain rfl := Option.some.inj found
    exact positive
  · exact wf.positive other held found

theorem Wf.drop (wf : s.Wf) : ((s.dequeue id).forget id).Wf := by
  refine ⟨wf.toPlaced.dequeue.forget wf.not_mem_dequeue, ?_, ?_⟩ <;> intro other held found <;>
    rw [getElem?_forget] at found <;> split at found <;> try contradiction
  · rename_i different
    exact (wf.mem_dequeue _ _ _).mpr ⟨different, wf.complete other held found⟩
  · exact wf.positive other held found

theorem Wf.resize (wf : s.Wf) {order : SpecOrder} (recorded : s.orders[id]? = some order) {qty : Qty}
    (positive : 0 < qty.units) : (s.record id { order with qty := qty }).Wf := by
  refine ⟨wf.toPlaced.record (by simp [recorded]), ?_, ?_⟩ <;> intro other held found <;>
    rw [getElem?_record] at found <;> split at found
  · rename_i same
    obtain rfl := Option.some.inj found
    exact same ▸ wf.complete id order recorded
  · exact wf.complete other held found
  · obtain rfl := Option.some.inj found
    exact positive
  · exact wf.positive other held found

theorem Wf.requeue (wf : s.Wf) {order : SpecOrder} (recorded : s.orders[id]? = some order) :
    ((s.dequeue id).enqueue id order.side order.price).Wf := by
  refine ⟨wf.toPlaced.dequeue.enqueue recorded (wf.not_mem_dequeue _ _), ?_, ?_⟩
  · intro other held found
    rw [mem_enqueue, wf.mem_dequeue]
    by_cases same : other = id
    · subst same
      obtain rfl := Option.some.inj (recorded.symm.trans found)
      exact .inr ⟨rfl, rfl, rfl⟩
    · exact .inl ⟨same, wf.complete other held found⟩
  · exact wf.positive

theorem empty_wf : empty.Wf := by
  constructor
  · constructor <;> simp [empty]
  · simp [empty]
  · simp [empty]

end L3Spec

end Crossbook
