import Crossbook.L3.LevelQueues

set_option autoImplicit false

namespace Crossbook

open LinkedQueue (Linked)

namespace L3Book

/-! ### Linking at the back -/

section LinkBack

variable {book : L3Book} {ref : OrderRef}

theorem unlinked_linkBack (book : L3Book) (ref r : OrderRef) :
    ((book.linkBack ref).order r).unlinked = (book.order r).unlinked := by
  unfold linkBack
  simp only
  split
  · rw [order_setLevel, field_updateOrder Order.unlinked, field_updateOrder Order.unlinked] <;>
      exact fun _ => rfl
  · rw [order_setLevel, field_updateOrder Order.unlinked]
    exact fun _ => rfl

theorem prevOf_linkBack (inside : ref.toNat < book.orders.size) {last : OrderRef}
    (tail : (book.levelFor (book.order ref).side (book.order ref).price).tail = last) (r : OrderRef) :
    (book.linkBack ref).prevOf r = if r = ref then last else book.prevOf r := by
  unfold linkBack prevOf
  simp only [tail]
  split
  · rw [order_setLevel, field_updateOrder Order.prev, order_updateOrder inside]
    · split <;> rfl
    · exact fun _ => rfl
  · rw [order_setLevel, order_updateOrder inside]
    split <;> rfl

theorem nextOf_linkBack (inside : ref.toNat < book.orders.size) {last : OrderRef}
    (tail : (book.levelFor (book.order ref).side (book.order ref).price).tail = last)
    (lastInside : last ≠ kNoOrder → last.toNat < book.orders.size) (apart : last ≠ ref) (r : OrderRef) :
    (book.linkBack ref).nextOf r =
      if r = ref then kNoOrder
      else if last ≠ kNoOrder ∧ r = last then ref
      else book.nextOf r := by
  unfold linkBack nextOf
  simp only [tail]
  by_cases first : last = kNoOrder
  · simp only [first, ne_eq, not_true, if_false, false_and, order_setLevel, order_updateOrder inside]
    split <;> rfl
  · simp only [ne_eq, first, not_false_eq_true, if_true, true_and, order_setLevel]
    rw [order_updateOrder (by simpa using lastInside first), order_updateOrder inside]
    by_cases here : r = last
    · subst here
      simp [apart]
    · simp only [here, if_false]
      split <;> rfl

theorem levels_linkBack (book : L3Book) (ref : OrderRef) (t : Side) (p : Int64) :
    ((book.linkBack ref).levels t)[p]? =
      let order := book.order ref
      let level := book.levelFor order.side order.price
      if t = order.side ∧ p = order.price.ticks then
        some ⟨⟨level.qty.units + order.qty.units⟩, level.orders + 1,
          if level.tail ≠ kNoOrder then level.head else ref, ref⟩
      else (book.levels t)[p]? := by
  unfold linkBack
  simp only
  split <;> simp [getElem?_setLevel]

end LinkBack

theorem levelData_push {slotOf : OrderId → OrderRef} {s : L3Spec} {ids : List OrderId}
    (proper : kNoOrder ∉ ids.map slotOf) {id : OrderId} {order : SpecOrder}
    (found : s.orders[id]? = some order) :
    levelData slotOf s (ids ++ [id]) =
      ⟨⟨(levelData slotOf s ids).qty.units + order.qty.units⟩, (levelData slotOf s ids).orders + 1,
        if (levelData slotOf s ids).tail ≠ kNoOrder then (levelData slotOf s ids).head
        else slotOf id, slotOf id⟩ := by
  have sum : s.totalOf (ids ++ [id]) = s.totalOf ids + order.qty.units.toInt := by
    simp [L3Spec.totalOf, unitsOf_eq found]
  simp only [levelData, L3Level.mk.injEq, sum, Int64.ofInt_add, Int64.ofInt_toInt,
    List.map_append, List.map_cons, List.map_nil, headD_push _ proper, List.length_append,
    List.length_cons, List.length_nil, UInt32.ofNat_add, true_and]
  simp

theorem queue_enqueue (s : L3Spec) (id : OrderId) (side : Side) (price : Price) (t : Side)
    (p : Int64) : (s.enqueue id side price).queue t p =
      if t = side ∧ p = price.ticks then s.queue side price.ticks ++ [id] else s.queue t p := by
  unfold L3Spec.enqueue
  dsimp only
  split
  next here =>
    obtain ⟨rfl, rfl⟩ := here
    rfl
  · rfl

theorem Represents.pushed {slotOf : OrderId → OrderRef} {book : L3Book} {s : L3Spec}
    (rep : Represents slotOf book s) (placed : s.Placed) {id : OrderId} {order : SpecOrder}
    (found : s.orders[id]? = some order)
    (absent : slotOf id ∉ (s.queue order.side order.price.ticks).map slotOf) :
    LinkedQueue.Pushed book.prevOf book.nextOf (book.linkBack (slotOf id)).prevOf
      (book.linkBack (slotOf id)).nextOf kNoOrder (slotOf id)
      (((s.queue order.side order.price.ticks).map slotOf).getLastD kNoOrder) := by
  have inside := rep.inside id order found
  have proper := rep.proper placed order.side order.price.ticks
  have level := rep.levelFor_eq order.side order.price
  set refs := (s.queue order.side order.price.ticks).map slotOf with refs_eq
  have tail : (book.levelFor (book.order (slotOf id)).side (book.order (slotOf id)).price).tail =
      refs.getLastD kNoOrder := by
    rw [rep.side_eq found, rep.price_eq found, level]
    rfl
  have queued : refs.getLastD kNoOrder ≠ kNoOrder → refs.getLastD kNoOrder ∈ refs := by
    intro some_
    have nonempty := (getLastD_ne proper).mp some_
    simp [List.getLastD_eq_getLast?, List.getLast?_eq_some_getLast nonempty]
  have lastInside (some_ : refs.getLastD kNoOrder ≠ kNoOrder) :
      (refs.getLastD kNoOrder).toNat < book.orders.size :=
    rep.inside_of_mem placed (queued some_)
  have apart : refs.getLastD kNoOrder ≠ slotOf id := by
    by_cases first : refs.getLastD kNoOrder = kNoOrder
    · rw [first]
      exact (rep.slot_ne found).symm
    · exact fun same => absent (same ▸ queued first)
  exact ⟨prevOf_linkBack inside tail, nextOf_linkBack inside tail lastInside apart⟩

theorem Represents.linkBack {slotOf : OrderId → OrderRef} {book : L3Book} {s : L3Spec}
    (rep : Represents slotOf book s) (placed : s.Placed) {id : OrderId} {order : SpecOrder}
    (found : s.orders[id]? = some order) (absent : ∀ t p, id ∉ s.queue t p) :
    Represents slotOf (book.linkBack (slotOf id)) (s.enqueue id order.side order.price) := by
  have proper := rep.proper placed order.side order.price.ticks
  have fresh (t : Side) (p : Int64) : slotOf id ∉ (s.queue t p).map slotOf :=
    rep.not_mem_map placed found (absent t p)
  have pushed := rep.pushed placed found (fresh _ _)
  refine ⟨?_, ?_, ?_, ?_, ?_⟩
  · intro other held foundOther
    rw [(Frame.linkBack book (slotOf id)).size]
    exact rep.inside other held foundOther
  · intro other held foundOther
    rw [unlinked_linkBack]
    exact rep.recorded other held foundOther
  · intro t p
    rw [queue_enqueue]
    by_cases here : t = order.side ∧ p = order.price.ticks
    · rw [if_pos here, List.map_append]
      exact pushed.linked (rep.linked order.side order.price.ticks)
        (rep.nodup placed order.side order.price.ticks) proper (fresh _ _)
    · rw [if_neg here]
      apply pushed.elsewhere (rep.linked t p)
      intro r member
      exact ⟨fun same => fresh t p (same ▸ member),
        fun queued => rep.not_mem_other placed here queued member⟩
  · intro t p
    rw [levels_linkBack, queue_enqueue]
    simp only [rep.side_eq found, rep.price_eq found, rep.qty_eq found,
      rep.levelFor_eq order.side order.price]
    by_cases here : t = order.side ∧ p = order.price.ticks
    · have entry : levelEntry slotOf (s.enqueue id order.side order.price)
          (s.queue order.side order.price.ticks ++ [id]) =
          some (levelData slotOf s (s.queue order.side order.price.ticks ++ [id])) := by
        simp [levelEntry]
        rfl
      rw [if_pos here, if_pos here, entry, levelData_push proper found]
    · rw [if_neg here, if_neg here, rep.level]
      rfl
  · rw [(Frame.linkBack book (slotOf id)).size]
    exact rep.room

/-! ### Unlinking -/

section Unlink

variable {book : L3Book} {ref : OrderRef}

-- A neighbour is written only where there is one.
theorem field_neighbour {β : Type} (field : Order → β) {change : Order → Order}
    (keeps : ∀ order, field (change order) = field order) (book : L3Book) (neighbour r : OrderRef) :
    field ((if neighbour ≠ kNoOrder then book.updateOrder neighbour change else book).order r) =
      field (book.order r) := by
  split
  · exact field_updateOrder field keeps r
  · rfl

theorem order_neighbour {neighbour : OrderRef} (change : Order → Order)
    (inside : neighbour ≠ kNoOrder → neighbour.toNat < book.orders.size) (r : OrderRef) :
    (if neighbour ≠ kNoOrder then book.updateOrder neighbour change else book).order r =
      if neighbour ≠ kNoOrder ∧ r = neighbour then change (book.order r) else book.order r := by
  by_cases some_ : neighbour ≠ kNoOrder
  · simp [some_, order_updateOrder (inside some_)]
  · simp [some_]

theorem size_neighbour (book : L3Book) (neighbour : OrderRef) (change : Order → Order) :
    (if neighbour ≠ kNoOrder then book.updateOrder neighbour change else book).orders.size =
      book.orders.size := by
  split <;> simp

theorem levels_neighbour (book : L3Book) (neighbour : OrderRef) (change : Order → Order)
    (side : Side) :
    (if neighbour ≠ kNoOrder then book.updateOrder neighbour change else book).levels side =
      book.levels side := by
  split <;> simp

theorem unlinked_joinNeighbours (book : L3Book) (ref r : OrderRef) :
    ((book.joinNeighbours ref).order r).unlinked = (book.order r).unlinked := by
  unfold joinNeighbours
  simp only
  rw [field_updateOrder Order.unlinked, field_neighbour Order.unlinked,
    field_neighbour Order.unlinked] <;> exact fun _ => rfl

theorem levels_joinNeighbours (book : L3Book) (ref : OrderRef) (side : Side) :
    (book.joinNeighbours ref).levels side = book.levels side := by
  unfold joinNeighbours
  simp only
  rw [levels_updateOrder, levels_neighbour, levels_neighbour]

theorem prevOf_joinNeighbours (inside : ref.toNat < book.orders.size) {before after : OrderRef}
    (prev : book.prevOf ref = before) (next : book.nextOf ref = after)
    (afterInside : after ≠ kNoOrder → after.toNat < book.orders.size) (r : OrderRef) :
    (book.joinNeighbours ref).prevOf r =
      if r = ref then kNoOrder
      else if after ≠ kNoOrder ∧ r = after then before
      else book.prevOf r := by
  subst prev next
  unfold joinNeighbours prevOf nextOf at *
  simp only
  rw [order_updateOrder (by rwa [size_neighbour, size_neighbour])]
  by_cases same : r = ref
  · rw [if_pos same, if_pos same]
  · rw [if_neg same, if_neg same, order_neighbour _ (by rwa [size_neighbour])]
    by_cases here : (book.order ref).next ≠ kNoOrder ∧ r = (book.order ref).next
    · rw [if_pos here, if_pos here]
    · rw [if_neg here, if_neg here, field_neighbour Order.prev]
      exact fun _ => rfl

theorem nextOf_joinNeighbours (inside : ref.toNat < book.orders.size) {before after : OrderRef}
    (prev : book.prevOf ref = before) (next : book.nextOf ref = after)
    (beforeInside : before ≠ kNoOrder → before.toNat < book.orders.size) (r : OrderRef) :
    (book.joinNeighbours ref).nextOf r =
      if r = ref then kNoOrder
      else if before ≠ kNoOrder ∧ r = before then after
      else book.nextOf r := by
  subst prev next
  unfold joinNeighbours prevOf nextOf at *
  simp only
  rw [order_updateOrder (by rwa [size_neighbour, size_neighbour])]
  by_cases same : r = ref
  · rw [if_pos same, if_pos same]
  · rw [if_neg same, if_neg same, field_neighbour Order.next, order_neighbour _ beforeInside]
    · by_cases here : (book.order ref).prev ≠ kNoOrder ∧ r = (book.order ref).prev
      · rw [if_pos here, if_pos here]
      · rw [if_neg here, if_neg here]
    · exact fun _ => rfl

theorem order_unlink {level : L3Level}
    (present : (book.levels (book.order ref).side)[(book.order ref).price.ticks]? = some level)
    (r : OrderRef) : (book.unlink ref).order r = (book.joinNeighbours ref).order r := by
  unfold unlink
  simp only [present]
  split <;> simp

theorem levels_unlink {level : L3Level}
    (present : (book.levels (book.order ref).side)[(book.order ref).price.ticks]? = some level)
    (t : Side) (p : Int64) :
    ((book.unlink ref).levels t)[p]? =
      let order := book.order ref
      if t = order.side ∧ p = order.price.ticks then
        if level.orders - 1 = 0 then none
        else some ⟨⟨level.qty.units - order.qty.units⟩, level.orders - 1,
          if order.prev ≠ kNoOrder then level.head else order.next,
          if order.next ≠ kNoOrder then level.tail else order.prev⟩
      else (book.levels t)[p]? := by
  unfold unlink
  simp only [present]
  by_cases last : level.orders - 1 = 0
  · rw [if_pos last, if_pos last, getElem?_eraseLevel, levels_joinNeighbours]
  · rw [if_neg last, if_neg last, getElem?_setLevel, levels_joinNeighbours]

end Unlink

theorem levelData_unlink {slotOf : OrderId → OrderRef} {s : L3Spec} {xs ys : List OrderId}
    {id : OrderId} (properFront : kNoOrder ∉ xs.map slotOf) (properBack : kNoOrder ∉ ys.map slotOf)
    {order : SpecOrder} (found : s.orders[id]? = some order) :
    levelData slotOf s (xs ++ ys) =
      let level := levelData slotOf s (xs ++ id :: ys)
      let before := (xs.map slotOf).getLastD kNoOrder
      let after := (ys.map slotOf).headD kNoOrder
      ⟨⟨level.qty.units - order.qty.units⟩, level.orders - 1,
        if before ≠ kNoOrder then level.head else after,
        if after ≠ kNoOrder then level.tail else before⟩ := by
  have sum : s.totalOf (xs ++ id :: ys) = s.totalOf (xs ++ ys) + order.qty.units.toInt := by
    simp only [totalOf_append, totalOf_cons, unitsOf_eq found]
    omega
  have count : (xs ++ id :: ys).length = (xs ++ ys).length + 1 := by
    simp only [List.length_append, List.length_cons]
    omega
  simp only [levelData, sum, count, Int64.ofInt_add, Int64.ofInt_toInt, Int64.add_sub_cancel,
    UInt32.ofNat_add, List.map_append, List.map_cons]
  rw [headD_unlink (slotOf id) properFront, getLastD_unlink (slotOf id) properBack]
  simp

theorem orders_levelData_unlink {slotOf : OrderId → OrderRef} {s : L3Spec} {xs ys : List OrderId}
    {id : OrderId} (small : (xs ++ ys).length < 2 ^ 32) :
    (levelData slotOf s (xs ++ id :: ys)).orders - 1 = 0 ↔ xs ++ ys = [] := by
  have count : (xs ++ id :: ys).length = (xs ++ ys).length + 1 := by
    simp only [List.length_append, List.length_cons]
    omega
  have value : (levelData slotOf s (xs ++ id :: ys)).orders - 1 = UInt32.ofNat (xs ++ ys).length := by
    simp only [levelData, count, UInt32.ofNat_add]
    exact UInt32.add_sub_cancel _ _
  rw [value, ← UInt32.toNat_inj, UInt32.toNat_ofNat_of_lt' small]
  exact List.length_eq_zero_iff

theorem Represents.neighbours {slotOf : OrderId → OrderRef} {book : L3Book} {s : L3Spec}
    (rep : Represents slotOf book s) {side : Side} {ticks : Int64} {xs ys : List OrderId} {id : OrderId}
    (split : s.queue side ticks = xs ++ id :: ys) :
    book.prevOf (slotOf id) = (xs.map slotOf).getLastD kNoOrder ∧
      book.nextOf (slotOf id) = (ys.map slotOf).headD kNoOrder := by
  have linked := rep.linked side ticks
  rw [split, List.map_append, List.map_cons, LinkedQueue.linked_append] at linked
  obtain ⟨-, prev, next, -⟩ := linked
  exact ⟨prev, next⟩

theorem Represents.joined {slotOf : OrderId → OrderRef} {book : L3Book} {s : L3Spec}
    (rep : Represents slotOf book s) (placed : s.Placed) {id : OrderId} {order : SpecOrder}
    (found : s.orders[id]? = some order) {xs ys : List OrderId}
    (split : s.queue order.side order.price.ticks = xs ++ id :: ys) {level : L3Level}
    (present : (book.levels (book.order (slotOf id)).side)[(book.order (slotOf id)).price.ticks]? =
      some level) :
    LinkedQueue.Joined book.prevOf book.nextOf (book.unlink (slotOf id)).prevOf
      (book.unlink (slotOf id)).nextOf kNoOrder (slotOf id) ((xs.map slotOf).getLastD kNoOrder)
      ((ys.map slotOf).headD kNoOrder) := by
  obtain ⟨prev, next⟩ := rep.neighbours split
  have inside := rep.inside id order found
  have range : ∀ r ∈ (xs.map slotOf ++ slotOf id :: ys.map slotOf), r.toNat < book.orders.size := by
    intro r member
    rw [← List.map_cons, ← List.map_append, ← split] at member
    exact rep.inside_of_mem placed member
  have beforeInside (some_ : (xs.map slotOf).getLastD kNoOrder ≠ kNoOrder) :
      ((xs.map slotOf).getLastD kNoOrder).toNat < book.orders.size :=
    range _ (List.mem_append_left _
      (List.mem_of_getLast? (LinkedQueue.getLast?_of_getLastD rfl some_)))
  have afterInside (some_ : (ys.map slotOf).headD kNoOrder ≠ kNoOrder) :
      ((ys.map slotOf).headD kNoOrder).toNat < book.orders.size :=
    range _ (List.mem_append_right _ (List.mem_cons_of_mem _
      (List.mem_of_head? (LinkedQueue.head?_of_headD rfl some_))))
  constructor
  · intro r
    exact (congrArg Order.prev (order_unlink present r)).trans
      (prevOf_joinNeighbours inside prev next afterInside r)
  · intro r
    exact (congrArg Order.next (order_unlink present r)).trans
      (nextOf_joinNeighbours inside prev next beforeInside r)

theorem queue_dequeue_here {s : L3Spec} (placed : s.Placed) {side : Side} {ticks : Int64}
    {id : OrderId} {xs ys : List OrderId} (split : s.queue side ticks = xs ++ id :: ys) :
    (s.dequeue id).queue side ticks = xs ++ ys := by
  have unique := placed.nodup side ticks
  rw [split] at unique
  have notFront : id ∉ xs := fun member =>
    (List.nodup_middle.mp unique).notMem (List.mem_append_left ys member)
  rw [L3Spec.dequeue]
  simp [split, List.erase_append_right _ notFront]

theorem Represents.levelEntry_unlink {slotOf : OrderId → OrderRef} {book : L3Book} {s : L3Spec}
    (rep : Represents slotOf book s) (placed : s.Placed) {id : OrderId} {order : SpecOrder}
    (found : s.orders[id]? = some order) {xs ys : List OrderId}
    (split : s.queue order.side order.price.ticks = xs ++ id :: ys) :
    levelEntry slotOf (s.dequeue id) (xs ++ ys) =
      let level := levelData slotOf s (xs ++ id :: ys)
      if level.orders - 1 = 0 then none
      else some ⟨⟨level.qty.units - order.qty.units⟩, level.orders - 1,
        if book.prevOf (slotOf id) ≠ kNoOrder then level.head else book.nextOf (slotOf id),
        if book.nextOf (slotOf id) ≠ kNoOrder then level.tail else book.prevOf (slotOf id)⟩ := by
  have proper := rep.proper placed order.side order.price.ticks
  have short := rep.length_le placed order.side order.price.ticks
  have room := rep.room
  have count : (xs ++ id :: ys).length = (xs ++ ys).length + 1 := by
    simp only [List.length_append, List.length_cons]
    omega
  have last : kNoOrder.toNat = 2 ^ 32 - 1 := rfl
  rw [split, List.map_append, List.map_cons] at proper
  rw [split, count] at short
  have small : (xs ++ ys).length < 2 ^ 32 := by omega
  have properFront : kNoOrder ∉ xs.map slotOf := fun member =>
    proper (List.mem_append_left _ member)
  have properBack : kNoOrder ∉ ys.map slotOf := fun member =>
    proper (List.mem_append_right _ (List.mem_cons_of_mem _ member))
  have unmoved : levelData slotOf (s.dequeue id) (xs ++ ys) = levelData slotOf s (xs ++ ys) := rfl
  obtain ⟨prev, next⟩ := rep.neighbours split
  dsimp only
  rw [if_congr (orders_levelData_unlink small) rfl rfl, levelEntry, unmoved,
    levelData_unlink properFront properBack found, prev, next]

theorem Represents.unlink {slotOf : OrderId → OrderRef} {book : L3Book} {s : L3Spec}
    (rep : Represents slotOf book s) (placed : s.Placed) {id : OrderId} {order : SpecOrder}
    (found : s.orders[id]? = some order) (queued : id ∈ s.queue order.side order.price.ticks) :
    Represents slotOf (book.unlink (slotOf id)) (s.dequeue id) := by
  obtain ⟨xs, ys, split⟩ := List.append_of_mem queued
  have linked := rep.linked order.side order.price.ticks
  have nodup := rep.nodup placed order.side order.price.ticks
  have proper := rep.proper placed order.side order.price.ticks
  have present : (book.levels (book.order (slotOf id)).side)[(book.order (slotOf id)).price.ticks]? =
      some (levelData slotOf s (xs ++ id :: ys)) := by
    rw [rep.side_eq found, rep.price_eq found, rep.level, split]
    simp [levelEntry]
  have joined := rep.joined placed found split present
  have contentHere := queue_dequeue_here placed split
  have contentElse : ∀ t p, ¬ (t = order.side ∧ p = order.price.ticks) →
      (s.dequeue id).queue t p = s.queue t p := fun t p other =>
    List.erase_of_not_mem fun member =>
      rep.not_mem_other placed other (List.mem_map_of_mem queued) (List.mem_map_of_mem member)
  have shape : (s.queue order.side order.price.ticks).map slotOf =
      xs.map slotOf ++ slotOf id :: ys.map slotOf := by
    rw [split, List.map_append, List.map_cons]
  rw [shape] at linked nodup proper
  refine ⟨?_, ?_, ?_, ?_, ?_⟩
  · intro other held foundOther
    rw [(Frame.unlink book (slotOf id)).size]
    exact rep.inside other held foundOther
  · intro other held foundOther
    rw [order_unlink present, unlinked_joinNeighbours]
    exact rep.recorded other held foundOther
  · intro t p
    by_cases here : t = order.side ∧ p = order.price.ticks
    · obtain ⟨rfl, rfl⟩ := here
      rw [contentHere, List.map_append]
      exact joined.linked linked nodup proper
    · rw [contentElse t p here]
      apply joined.elsewhere (rep.linked t p)
      intro r member queuedHere
      rw [← shape] at queuedHere
      exact rep.not_mem_other placed here queuedHere member
  · intro t p
    rw [levels_unlink present]
    simp only [rep.side_eq found, rep.price_eq found, rep.qty_eq found]
    by_cases here : t = order.side ∧ p = order.price.ticks
    · obtain ⟨rfl, rfl⟩ := here
      rw [if_pos ⟨rfl, rfl⟩, contentHere, rep.levelEntry_unlink placed found split]
      rfl
    · rw [if_neg here, contentElse t p here, rep.level]
      rfl
  · rw [(Frame.unlink book (slotOf id)).size]
    exact rep.room

end L3Book

end Crossbook
