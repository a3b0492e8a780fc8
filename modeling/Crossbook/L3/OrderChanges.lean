import Crossbook.L3.Relink

set_option autoImplicit false

namespace Crossbook

namespace L3Book

theorem unitsOf_record (s : L3Spec) (id : OrderId) (order : SpecOrder) :
    (s.record id order).unitsOf id = order.qty.units.toInt :=
  unitsOf_eq (by simp [L3Spec.getElem?_record])

theorem levelData_resize {slotOf : OrderId → OrderRef} {s : L3Spec} {ids : List OrderId}
    (nodup : ids.Nodup) {id : OrderId} (queued : id ∈ ids) {order : SpecOrder}
    (found : s.orders[id]? = some order) (qty : Qty) :
    levelData slotOf (s.record id { order with qty := qty }) ids =
      { levelData slotOf s ids with
        qty := ⟨(levelData slotOf s ids).qty.units + (qty.units - order.qty.units)⟩ } := by
  obtain ⟨xs, ys, rfl⟩ := List.append_of_mem queued
  have unqueued : id ∉ xs ++ ys := (List.nodup_cons.mp (List.perm_middle.nodup_iff.mp nodup)).1
  have others : ∀ zs : List OrderId, (∀ z ∈ zs, z ∈ xs ++ ys) →
      (s.record id { order with qty := qty }).totalOf zs = s.totalOf zs := by
    intro zs inside
    apply totalOf_congr
    intro z member
    exact unitsOf_record_of_ne s _ fun same => unqueued (same ▸ inside z member)
  have sum : (s.record id { order with qty := qty }).totalOf (xs ++ id :: ys) =
      s.totalOf (xs ++ id :: ys) + (qty.units.toInt - order.qty.units.toInt) := by
    simp only [totalOf_append, totalOf_cons, unitsOf_record, unitsOf_eq found]
    rw [others xs fun z => List.mem_append_left ys, others ys fun z => List.mem_append_right xs]
    omega
  simp only [levelData, sum, Int64.ofInt_add, Int64.ofInt_sub, Int64.ofInt_toInt]

theorem Represents.resize {slotOf : OrderId → OrderRef} {book : L3Book} {s : L3Spec}
    (rep : Represents slotOf book s) (placed : s.Placed) {id : OrderId} {order : SpecOrder}
    (found : s.orders[id]? = some order) (queued : id ∈ s.queue order.side order.price.ticks)
    (qty : Qty) {difference : Int64} (change : difference = qty.units - order.qty.units) :
    Represents slotOf (book.resize (slotOf id) qty difference)
      (s.record id { order with qty := qty }) := by
  have inside := rep.inside id order found
  have content : ∀ r, (book.resize (slotOf id) qty difference).order r =
      if r = slotOf id then { book.order r with qty := qty } else book.order r := by
    intro r
    unfold L3Book.resize
    simp only
    rw [order_updateOrder (by simpa using inside), order_setLevel]
  have size := (Frame.resize book (slotOf id) qty difference).size
  refine ⟨?_, ?_, ?_, ?_, by rw [size]; exact rep.room⟩
  · intro other held foundOther
    rw [L3Spec.getElem?_record] at foundOther
    rw [size]
    split at foundOther
    · exact ‹other = id› ▸ inside
    · exact rep.inside other held foundOther
  · intro other held foundOther
    rw [L3Spec.getElem?_record] at foundOther
    rw [content]
    split at foundOther
    · rename_i same
      subst same
      obtain rfl := Option.some.inj foundOther
      rw [if_pos rfl]
      exact congrArg (fun entry : Order => { entry with qty := qty }) (rep.recorded other order found)
    · rename_i different
      rw [if_neg fun same => different (rep.slot_injective foundOther found same)]
      exact rep.recorded other held foundOther
  · intro t p
    -- No pointer depends on a quantity.
    apply LinkedQueue.linked_congr (rep.linked t p)
    intro r _
    constructor <;> simp only [prevOf, nextOf, content] <;> split <;> rfl
  · intro t p
    unfold L3Book.resize
    simp only [levels_updateOrder, getElem?_setLevel, rep.side_eq found, rep.price_eq found,
      rep.levelFor_eq, change]
    -- Only the level of the order sums its quantity.
    by_cases here : t = order.side ∧ p = order.price.ticks
    · obtain ⟨rfl, rfl⟩ := here
      rw [if_pos ⟨rfl, rfl⟩, L3Spec.queue_record, levelEntry, if_neg (List.ne_nil_of_mem queued),
        levelData_resize (placed.nodup _ _) queued found]
    · rw [if_neg here, rep.level]
      refine (levelEntry_congr (fun _ _ => rfl) ?_).symm
      intro other member
      apply unitsOf_record_of_ne
      rintro rfl
      obtain ⟨held, foundOther, side, price⟩ := placed.sound t p other member
      obtain rfl := Option.some.inj (found.symm.trans foundOther)
      exact here ⟨side.symm, price.symm⟩

theorem Represents.admit {slotOf : OrderId → OrderRef} {book after : L3Book} {s : L3Spec}
    (rep : Represents slotOf book s) (placed : s.Placed) {id : OrderId}
    (absent : s.orders[id]? = none) {order : SpecOrder} {ref : OrderRef}
    (levels : ∀ side, after.levels side = book.levels side)
    (grown : book.orders.size ≤ after.orders.size) (room : after.orders.size < kNoOrder.toNat)
    (inside : ref.toNat < after.orders.size)
    (kept : ∀ r, r.toNat < book.orders.size → r ≠ ref → after.order r = book.order r)
    (unused : ∀ (other : OrderId) (held : SpecOrder), s.orders[other]? = some held →
      slotOf other ≠ ref)
    (written : (after.order ref).unlinked = arenaEntry id order) :
    Represents (Function.update slotOf id ref) after (s.record id order) := by
  have unqueued : ∀ {t p} {other : OrderId}, other ∈ s.queue t p → other ≠ id := by
    intro t p other member same
    exact placed.not_mem absent t p (same ▸ member)
  have slots : ∀ t p, (s.queue t p).map (Function.update slotOf id ref) = (s.queue t p).map slotOf :=
    fun t p => List.map_congr_left fun other member => Function.update_of_ne (unqueued member) _ _
  refine ⟨?_, ?_, ?_, ?_, room⟩
  · intro other held found
    rw [L3Spec.getElem?_record] at found
    split at found
    · rename_i same
      rwa [same, Function.update_self]
    · rename_i different
      rw [Function.update_of_ne different]
      exact (rep.inside other held found).trans_le grown
  · intro other held found
    rw [L3Spec.getElem?_record] at found
    split at found
    · rename_i same
      obtain rfl := Option.some.inj found
      rw [same, Function.update_self]
      exact written
    · rename_i different
      rw [Function.update_of_ne different,
        kept _ (rep.inside other held found) (unused other held found)]
      exact rep.recorded other held found
  · intro t p
    rw [L3Spec.queue_record, slots]
    -- The queues hold resting orders, whose slots nobody wrote.
    apply LinkedQueue.linked_congr (rep.linked t p)
    intro r member
    obtain ⟨other, queued, rfl⟩ := List.mem_map.mp member
    obtain ⟨held, found, -⟩ := placed.sound t p other queued
    simp only [prevOf, nextOf, kept _ (rep.inside other held found) (unused other held found), and_self]
  · intro t p
    rw [levels, rep.level, L3Spec.queue_record]
    refine (levelEntry_congr ?_ ?_).symm
    · exact fun other member => Function.update_of_ne (unqueued member) _ _
    · exact fun other member => unitsOf_record_of_ne s _ (unqueued member)

theorem Represents.retire {slotOf : OrderId → OrderRef} {book : L3Book} {s : L3Spec}
    (rep : Represents slotOf book s) {id : OrderId} {order : SpecOrder}
    (found : s.orders[id]? = some order) (unqueued : ∀ t p, id ∉ s.queue t p) :
    Represents slotOf (book.updateOrder (slotOf id) fun order => { order with live := false })
      (s.forget id) := by
  refine ⟨?_, ?_, ?_, ?_, by simpa using rep.room⟩
  · intro other held foundOther
    rw [L3Spec.getElem?_forget] at foundOther
    rw [size_updateOrder]
    split at foundOther
    · contradiction
    · exact rep.inside other held foundOther
  · intro other held foundOther
    rw [L3Spec.getElem?_forget] at foundOther
    split at foundOther
    · contradiction
    · rename_i different
      rw [order_updateOrder (rep.inside id order found),
        if_neg fun same => different (rep.slot_injective foundOther found same)]
      exact rep.recorded other held foundOther
  · intro t p
    apply LinkedQueue.linked_congr (rep.linked t p)
    intro r _
    constructor <;> simp only [prevOf, nextOf, order_updateOrder (rep.inside id order found)] <;>
      split <;> rfl
  · intro t p
    rw [levels_updateOrder, rep.level, L3Spec.queue_forget]
    refine (levelEntry_congr (fun _ _ => rfl) ?_).symm
    intro other member
    exact unitsOf_forget_of_ne s fun same => unqueued t p (same ▸ member)

end L3Book

end Crossbook
