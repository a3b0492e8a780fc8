import Crossbook.L3.IdTable
import Crossbook.L3.OrderChanges

set_option autoImplicit false

namespace Crossbook

namespace L3Spec

variable {s : L3Spec} {id : OrderId}

theorem size_record (absent : s.orders[id]? = none) (order : SpecOrder) :
    (s.record id order).orders.size = s.orders.size + 1 := by
  have missing : s.orders.contains id = false := by
    rw [Std.ExtTreeMap.contains_eq_isSome_getElem?, absent]
    rfl
  rw [record, Std.ExtTreeMap.size_insert, missing]
  rfl

theorem size_resize {old order : SpecOrder} (found : s.orders[id]? = some old) :
    (s.record id order).orders.size = s.orders.size := by
  have present : s.orders.contains id = true := by
    rw [Std.ExtTreeMap.contains_eq_isSome_getElem?, found]
    rfl
  rw [record, Std.ExtTreeMap.size_insert, present]
  rfl

theorem size_forget {order : SpecOrder} (found : s.orders[id]? = some order) :
    (s.forget id).orders.size + 1 = s.orders.size := by
  have present : s.orders.contains id = true := by
    rw [Std.ExtTreeMap.contains_eq_isSome_getElem?, found]
    rfl
  have nonzero : s.orders.size ≠ 0 :=
    mt Std.ExtTreeMap.eq_empty_iff_size_eq_zero.mpr (Std.ExtTreeMap.ne_empty_of_mem present)
  rw [forget, Std.ExtTreeMap.size_erase, present, if_pos rfl]
  omega

end L3Spec

namespace L3Book

def Located (slotOf : OrderId → OrderRef) (s : L3Spec) (id : OrderId) (ref : OrderRef) : Prop :=
  (s.orders[id]?).isSome = true ∧ ref = slotOf id

/-- The five structures of a book agree with one specification state. -/
structure Refines (slotOf : OrderId → OrderRef) (book : L3Book) (s : L3Spec) : Prop where
  wf : s.Wf
  represents : Represents slotOf book s
  table : IdTable book.table book.tableUsed (Located slotOf s)
  load : book.tableUsed * 10 < book.table.size * 7
  freeNodup : book.freeList.Nodup
  freeDead : ∀ ref ∈ book.freeList,
    ref.toNat < book.orders.size ∧ (book.order ref).live = false
  count : book.liveOrders = s.orders.size
  balance : book.liveOrders + book.freeList.length = book.orders.size

variable {slotOf : OrderId → OrderRef} {book : L3Book} {s : L3Spec} {id : OrderId}
  {order : SpecOrder}

theorem Represents.bookkeeping (rep : Represents slotOf book s) (after : L3Book)
    (orders : after.orders = book.orders) (bids : after.bids = book.bids)
    (asks : after.asks = book.asks) : Represents slotOf after s := by
  cases after
  cases book
  simp only at orders bids asks
  subst orders bids asks
  exact ⟨rep.inside, rep.recorded, rep.linked, rep.level, rep.room⟩

namespace Refines

theorem findRef_of_some (ok : Refines slotOf book s) (found : s.orders[id]? = some order) :
    book.findRef id = slotOf id :=
  findRef_of_holds ok.table ⟨by simp [found], rfl⟩

theorem findRef_of_none (ok : Refines slotOf book s) (absent : s.orders[id]? = none) :
    book.findRef id = kNoOrder :=
  findRef_of_absent ok.table fun _ located => by simp [Located, absent] at located

theorem queued (ok : Refines slotOf book s) (found : s.orders[id]? = some order) :
    id ∈ s.queue order.side order.price.ticks :=
  ok.wf.complete id order found

theorem ne_slot_of_free (ok : Refines slotOf book s) (found : s.orders[id]? = some order)
    {ref : OrderRef} (free : ref ∈ book.freeList) : ref ≠ slotOf id := by
  intro same
  have live := ok.represents.live_eq found
  rw [← same, (ok.freeDead ref free).2] at live
  contradiction

theorem located_forget (s : L3Spec) (id other : OrderId) (ref : OrderRef) :
    other ≠ id ∧ Located slotOf s other ref ↔ Located slotOf (s.forget id) other ref := by
  by_cases same : other = id <;> simp [Located, L3Spec.getElem?_forget, same]

theorem remove (ok : Refines slotOf book s) (id : OrderId) :
    Refines slotOf (book.remove id).1 (s.remove id).1 ∧ (book.remove id).2 = (s.remove id).2 := by
  unfold L3Book.remove L3Spec.remove
  cases found : s.orders[id]? with
  | none => simpa [ok.findRef_of_none found] using ok
  | some order =>
    simp only [ok.findRef_of_some found, ok.represents.slot_ne found, if_false, and_true]
    have frame := Frame.unlink book (slotOf id)
    have unlinked := ok.represents.unlink ok.wf.toPlaced found (ok.queued found)
    have table : IdTable (book.unlink (slotOf id)).table book.tableUsed (Located slotOf s) := by
      rw [frame.table]
      exact ok.table
    have located : Located slotOf s id (slotOf id) := ⟨by rw [found]; rfl, rfl⟩
    obtain ⟨after, erased, size, whole⟩ := eraseRef_spec table located
    have kept := unlinked.bookkeeping { book.unlink (slotOf id) with table := after } rfl rfl rfl
    have retired := kept.retire found ok.wf.not_mem_dequeue
    have inside := kept.inside id order found
    rw [erased]
    set last := { book.unlink (slotOf id) with table := after }.updateOrder (slotOf id)
      fun order => { order with live := false } with last_eq
    have liveness : ∀ r, (last.order r).live = if r = slotOf id then false else (book.order r).live := by
      intro r
      rw [last_eq, order_updateOrder inside]
      split
      · rfl
      · exact frame.live r
    have arena : last.orders.size = book.orders.size := size_updateOrder.trans frame.size
    have free : last.freeList = book.freeList := frame.freeList
    have live : last.liveOrders = book.liveOrders := frame.liveOrders
    have remaining := L3Spec.size_forget (s := s.dequeue id) found
    have count := ok.count
    have balance := ok.balance
    rw [L3Spec.orders_dequeue] at remaining
    constructor
    · exact ok.wf.drop
    · exact retired.bookkeeping _ rfl rfl rfl
    · rw [show last.tableUsed = book.tableUsed from frame.tableUsed]
      exact whole.congr (located_forget (s.dequeue id) id)
    · have load := ok.load
      rw [← frame.tableUsed, ← frame.table, ← size] at load
      exact load
    · rw [free]
      exact List.nodup_cons.mpr
        ⟨fun member => ok.ne_slot_of_free found member rfl, ok.freeNodup⟩
    · intro ref member
      rw [free, List.mem_cons] at member
      change ref.toNat < last.orders.size ∧ (last.order ref).live = false
      rw [liveness, arena]
      rcases member with rfl | member
      · exact ⟨ok.represents.inside id order found, if_pos rfl⟩
      · rw [if_neg (ok.ne_slot_of_free found member)]
        exact ok.freeDead ref member
    · simp only [live]
      omega
    · simp only [live, free, arena, List.length_cons]
      omega

theorem requeue {after : L3Book} {s' : L3Spec} (ok : Refines slotOf book s)
    (frame : Frame book after) (represents : Represents slotOf after s') (wf : s'.Wf)
    (domain : ∀ id : OrderId, (s'.orders[id]?).isSome = (s.orders[id]?).isSome)
    (size : s'.orders.size = s.orders.size) : Refines slotOf after s' where
  wf := wf
  represents := represents
  table := by
    rw [frame.table, frame.tableUsed]
    exact ok.table.congr fun id ref => by simp only [Located, domain]
  load := by
    rw [frame.table, frame.tableUsed]
    exact ok.load
  freeNodup := by
    rw [frame.freeList]
    exact ok.freeNodup
  freeDead ref member := by
    rw [frame.size, frame.live]
    exact ok.freeDead ref (frame.freeList ▸ member)
  count := by rw [frame.liveOrders, size, ok.count]
  balance := by rw [frame.liveOrders, frame.freeList, frame.size, ok.balance]

theorem domain_record {old : SpecOrder} (found : s.orders[id]? = some old) (order : SpecOrder)
    (other : OrderId) : ((s.record id order).orders[other]?).isSome = (s.orders[other]?).isSome := by
  rw [L3Spec.getElem?_record]
  split
  · rename_i same
    rw [same, found]
    rfl
  · rfl

theorem resize (ok : Refines slotOf book s) (found : s.orders[id]? = some order) {qty : Qty}
    (positive : 0 < qty.units) {difference : Int64}
    (change : difference = qty.units - order.qty.units) :
    Refines slotOf (book.resize (slotOf id) qty difference)
      (s.record id { order with qty := qty }) :=
  ok.requeue (Frame.resize ..)
    (ok.represents.resize ok.wf.toPlaced found (ok.queued found) qty change)
    (ok.wf.resize found positive) (domain_record found _) (L3Spec.size_resize found)

theorem toBack (ok : Refines slotOf book s) (found : s.orders[id]? = some order) :
    Refines slotOf ((book.unlink (slotOf id)).linkBack (slotOf id))
      ((s.dequeue id).enqueue id order.side order.price) := by
  have unlinked := ok.represents.unlink ok.wf.toPlaced found (ok.queued found)
  have linked := unlinked.linkBack ok.wf.toPlaced.dequeue found ok.wf.not_mem_dequeue
  exact ok.requeue ((Frame.unlink ..).trans (Frame.linkBack ..)) linked (ok.wf.requeue found)
    (fun _ => rfl) rfl

theorem modify (ok : Refines slotOf book s) (id : OrderId) (newQty : Qty) :
    Refines slotOf (book.modify id newQty).1 (s.modify id newQty).1 ∧
      (book.modify id newQty).2 = (s.modify id newQty).2 := by
  unfold L3Book.modify L3Spec.modify
  cases found : s.orders[id]? with
  | none => simpa [ok.findRef_of_none found] using ok
  | some order =>
    simp only [ok.findRef_of_some found, ok.represents.slot_ne found, if_false,
      ok.represents.qty_eq found]
    split
    · exact ok.remove id
    · have positive : 0 < newQty.units := Int64.not_le.mp ‹_›
      have resized := ok.resize found positive rfl
      split
      · have resting : (s.record id { order with qty := newQty }).orders[id]? =
            some { order with qty := newQty } := by
          rw [L3Spec.getElem?_record, if_pos rfl]
        have moved := resized.toBack resting
        simp only [and_true]
        exact moved
      · exact ⟨resized, rfl⟩

theorem left_positive {quantity traded : Int64} (some_ : 0 < traded) (partial_ : traded < quantity) :
    0 < quantity - traded := by
  have high := quantity.toInt_lt
  rw [Int64.lt_iff_toInt_lt] at some_ partial_ ⊢
  rw [MachineInt.toInt_sub_of_fits] <;> simp only [Int64.toInt_zero] at * <;> omega

theorem execute (ok : Refines slotOf book s) (id : OrderId) (traded : Qty) :
    Refines slotOf (book.execute id traded).1 (s.execute id traded).1 ∧
      (book.execute id traded).2 = (s.execute id traded).2 := by
  unfold L3Book.execute L3Spec.execute
  cases found : s.orders[id]? with
  | none => simpa [ok.findRef_of_none found] using ok
  | some order =>
    simp only [ok.findRef_of_some found, ok.represents.slot_ne found, decide_false,
      Bool.false_or, decide_eq_true_eq, ok.represents.qty_eq found]
    split
    · exact ⟨ok, rfl⟩
    · split
      · exact ok.remove id
      · refine ⟨ok.resize found ?_ ?_, rfl⟩
        · exact left_positive (Int64.not_le.mp ‹_›) (Int64.not_le.mp ‹_›)
        · grind

theorem of_empty (orders : book.orders = #[]) (free : book.freeList = []) (bids : book.bids = ∅)
    (asks : book.asks = ∅) (live : book.liveOrders = 0) (used : book.tableUsed = 0)
    (power : ∃ k, book.table.size = 2 ^ k) (blank : ∀ i, slotAt book.table i = .blank) :
    Refines slotOf book L3Spec.empty := by
  have table := empty_table book.table.size power book.table rfl blank
  have positive := table.size_pos
  constructor
  · exact L3Spec.empty_wf
  · refine ⟨by simp [L3Spec.empty], by simp [L3Spec.empty], fun _ _ => trivial, ?_, ?_⟩
    · intro side ticks
      cases side <;> simp [levels, bids, asks, L3Spec.empty, levelEntry]
    · rw [orders]
      exact (by decide : 0 < kNoOrder.toNat)
  · rw [used]
    exact table.congr fun id ref => by simp [Located, L3Spec.empty]
  · omega
  · rw [free]
    exact List.nodup_nil
  · simp [free]
  · exact live
  · rw [live, free, orders]
    rfl

theorem clear (ok : Refines slotOf book s) : Refines slotOf book.clear L3Spec.empty :=
  of_empty rfl rfl rfl rfl rfl rfl (by simpa [L3Book.clear] using ok.table.wf.power) slotAt_map_blank

theorem new (spec : InstrumentSpec) (expectedOrders : Nat) (slotOf : OrderId → OrderRef) :
    ∃ book, L3Book.new spec expectedOrders = some book ∧ Refines slotOf book L3Spec.empty := by
  refine ⟨_, rfl, of_empty rfl rfl rfl rfl rfl rfl ?_ ?_⟩
  · simpa using nextPow2_power (expectedOrders * 2)
  · exact slotAt_replicate _

structure Allocated (slotOf : OrderId → OrderRef) (book : L3Book) (s : L3Spec) (ref : OrderRef)
    (after : L3Book) : Prop where
  table : after.table = book.table
  tableUsed : after.tableUsed = book.tableUsed
  liveOrders : after.liveOrders = book.liveOrders
  levels : ∀ side, after.levels side = book.levels side
  grown : book.orders.size ≤ after.orders.size
  room : after.orders.size < kNoOrder.toNat
  inside : ref.toNat < after.orders.size
  kept : ∀ r, r.toNat < book.orders.size → r ≠ ref → after.order r = book.order r
  unused : ∀ (other : OrderId) (held : SpecOrder), s.orders[other]? = some held → slotOf other ≠ ref
  freeNodup : after.freeList.Nodup
  freeDead : ∀ r ∈ after.freeList, r ≠ ref ∧ r.toNat < after.orders.size ∧ (after.order r).live = false
  balance : after.liveOrders + 1 + after.freeList.length = after.orders.size

theorem allocate (ok : Refines slotOf book s) (few : s.orders.size + 1 < 2 ^ 32 - 1) :
    Allocated slotOf book s book.allocate.1 book.allocate.2 := by
  have balance := ok.balance
  unfold L3Book.allocate
  cases free : book.freeList with
  | cons ref rest =>
    have dead := ok.freeDead
    have nodup := ok.freeNodup
    rw [free] at dead nodup balance
    obtain ⟨fresh, nodup⟩ := List.nodup_cons.mp nodup
    refine ⟨rfl, rfl, rfl, fun side => by cases side <;> rfl, le_refl _, ok.represents.room,
      (dead ref (by simp)).1, fun _ _ _ => rfl, ?_, nodup, ?_, ?_⟩
    · intro other held found same
      have live := ok.represents.live_eq found
      rw [same, (dead ref (by simp)).2] at live
      contradiction
    · intro r member
      refine ⟨?_, dead r (List.mem_cons_of_mem ref member)⟩
      rintro rfl
      exact fresh member
    · simp only [List.length_cons] at balance ⊢
      omega
  | nil =>
    have full : book.orders.size = s.orders.size := by
      rw [free, ok.count] at balance
      exact balance.symm
    have value : (UInt32.ofNat book.orders.size).toNat = book.orders.size :=
      UInt32.toNat_ofNat_of_lt' (by rw [UInt32.size]; omega)
    have sentinel : kNoOrder.toNat = 2 ^ 32 - 1 := rfl
    refine ⟨rfl, rfl, rfl, fun side => by cases side <;> rfl, by simp, by simp; omega,
      by rw [value]; simp, ?_, ?_, by simp, by simp, ?_⟩
    · intro r inside _
      simp [order, Array.getElem?_push_lt inside, inside]
    · intro other held found same
      have inside := ok.represents.inside other held found
      rw [same, value] at inside
      exact absurd inside (lt_irrefl _)
    · simp [free] at balance ⊢
      omega

theorem located_record (absent : s.orders[id]? = none) (order : SpecOrder) (ref : OrderRef)
    (other : OrderId) (found : OrderRef) :
    Located slotOf s other found ∨ (other = id ∧ found = ref) ↔
      Located (Function.update slotOf id ref) (s.record id order) other found := by
  simp only [Located, L3Spec.getElem?_record]
  by_cases same : other = id
  · subst same
    simp [absent]
  · simp [same]

theorem link (ok : Refines slotOf book s) (absent : s.orders[id]? = none) (order : SpecOrder)
    {ref : OrderRef} {arena : L3Book} (got : Allocated slotOf book s ref arena) :
    Represents (Function.update slotOf id ref)
      ((arena.updateOrder ref fun _ => arenaEntry id order).linkBack ref)
      ((s.record id order).enqueue id order.side order.price) := by
  have content := order_updateOrder got.inside fun _ => arenaEntry id order
  have size : (arena.updateOrder ref fun _ => arenaEntry id order).orders.size = arena.orders.size :=
    size_updateOrder
  have admitted : Represents (Function.update slotOf id ref)
      (arena.updateOrder ref fun _ => arenaEntry id order) (s.record id order) := by
    apply ok.represents.admit ok.wf.toPlaced absent
    · exact fun side => (levels_updateOrder side).trans (got.levels side)
    · exact size ▸ got.grown
    · exact size ▸ got.room
    · exact size ▸ got.inside
    · intro r inside different
      rw [content, if_neg different]
      exact got.kept r inside different
    · exact got.unused
    · rw [content, if_pos rfl]
      rfl
  have resting : (s.record id order).orders[id]? = some order := by
    rw [L3Spec.getElem?_record, if_pos rfl]
  have placed : (s.record id order).Placed := ok.wf.toPlaced.record (by simp [absent])
  have linked := admitted.linkBack placed resting fun t p => ok.wf.not_mem absent t p
  rwa [Function.update_self] at linked

theorem insert (ok : Refines slotOf book s) (absent : s.orders[id]? = none) (order : SpecOrder)
    (positive : 0 < order.qty.units) {ref : OrderRef} {arena : L3Book}
    (got : Allocated slotOf book s ref arena) :
    ∃ after,
      (((arena.updateOrder ref fun _ => arenaEntry id order).linkBack ref).insertRef id ref).map
          (fun book => { book with liveOrders := book.liveOrders + 1 }) = some after ∧
        Refines (Function.update slotOf id ref) after
          ((s.record id order).enqueue id order.side order.price) := by
  have linked := ok.link absent order got
  have frame := Frame.linkBack (arena.updateOrder ref fun _ => arenaEntry id order) ref
  have live (r : OrderRef) (different : r ≠ ref) :
      (((arena.updateOrder ref fun _ => arenaEntry id order).linkBack ref).order r).live =
        (arena.order r).live := by
    rw [frame.live, order_updateOrder got.inside, if_neg different]
  have sizeEq : ((arena.updateOrder ref fun _ => arenaEntry id order).linkBack ref).orders.size =
      arena.orders.size := frame.size.trans size_updateOrder
  set queued := (arena.updateOrder ref fun _ => arenaEntry id order).linkBack ref
  have tableEq : queued.table = book.table := frame.table.trans got.table
  have usedEq : queued.tableUsed = book.tableUsed := frame.tableUsed.trans got.tableUsed
  have freeEq : queued.freeList = arena.freeList := frame.freeList
  have liveEq : queued.liveOrders = arena.liveOrders := frame.liveOrders
  have table : IdTable queued.table queued.tableUsed (Located slotOf s) := by
    rw [tableEq, usedEq]
    exact ok.table
  have load : queued.tableUsed * 10 < queued.table.size * 7 := by
    rw [tableEq, usedEq]
    exact ok.load
  have missing : ∀ ref, ¬ Located slotOf s id ref := fun ref located => by
    simp [Located, absent] at located
  -- Until here the table is the old one; only now does the id lead to its slot.
  obtain ⟨after, count, inserted, loaded, whole⟩ := insertRef_spec table load missing ref
  refine ⟨{ queued with table := after, tableUsed := count, liveOrders := queued.liveOrders + 1 },
    by rw [inserted, Option.map_some], ?_⟩
  constructor
  case wf => exact ok.wf.add absent positive
  case represents => exact linked.bookkeeping _ rfl rfl rfl
  case table => exact whole.congr (located_record absent _ ref)
  case load => exact loaded
  case freeNodup =>
    change queued.freeList.Nodup
    rw [freeEq]
    exact got.freeNodup
  case freeDead =>
    intro r member
    obtain ⟨different, inside, dead⟩ := got.freeDead r (freeEq ▸ member)
    exact ⟨sizeEq ▸ inside, (live r different).trans dead⟩
  case count =>
    change queued.liveOrders + 1 = _
    rw [L3Spec.orders_enqueue, L3Spec.size_record absent, liveEq, ← ok.count, ← got.liveOrders]
  case balance =>
    change queued.liveOrders + 1 + queued.freeList.length = queued.orders.size
    rw [liveEq, freeEq, sizeEq]
    exact got.balance

theorem add (ok : Refines slotOf book s) (id : OrderId) (side : Side) (price : Price) (qty : Qty)
    (few : (s.add id side price qty).1.orders.size < 2 ^ 32 - 1) :
    ∃ after slots, book.add id side price qty = some (after, (s.add id side price qty).2) ∧
      Refines slots after (s.add id side price qty).1 := by
  unfold L3Book.add
  unfold L3Spec.add at few ⊢
  cases found : s.orders[id]? with
  | some order =>
    simp only [ok.findRef_of_some found, ok.represents.slot_ne found, found, ne_eq, not_false_eq_true,
      decide_true, Bool.or_true, if_true, Option.isSome_some] at few ⊢
    exact ⟨book, slotOf, rfl, ok⟩
  | none =>
    simp only [ok.findRef_of_none found, found, ne_eq, not_true, decide_false, Bool.or_false,
      Option.isSome_none, decide_eq_true_eq] at few ⊢
    by_cases refused : qty.units ≤ 0
    · simp only [refused, if_true]
      exact ⟨book, slotOf, rfl, ok⟩
    · simp only [refused, if_false] at few ⊢
      rw [L3Spec.orders_enqueue, L3Spec.size_record found] at few
      obtain ⟨after, inserted, refines⟩ :=
        ok.insert found ⟨side, price, qty⟩ (Int64.not_le.mp refused) (ok.allocate few)
      obtain ⟨entered, placed, rfl⟩ := Option.map_eq_some_iff.mp inserted
      exact ⟨_, _, Option.map_eq_some_iff.mpr ⟨entered, placed, rfl⟩, refines⟩

end Refines

end L3Book

end Crossbook
