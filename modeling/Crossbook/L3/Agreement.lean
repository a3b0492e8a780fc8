import Crossbook.L3.Refinement
import Crossbook.Lib.Run

set_option autoImplicit false

namespace Crossbook

namespace L3Book

def call (book : L3Book) : L3Call → Option (L3Book × Option Bool)
  | .add id side price qty =>
    (book.add id side price qty).map fun result => (result.1, some result.2)
  | .modify id newQty => some ((book.modify id newQty).map (fun book => book) some)
  | .remove id => some ((book.remove id).map (fun book => book) some)
  | .execute id traded => some ((book.execute id traded).map (fun book => book) some)
  | .clear => some (book.clear, none)

def run : L3Book → List L3Call → Option (L3Book × List (Option Bool))
  | book, [] => some (book, [])
  | book, c :: rest =>
    (book.call c).bind fun first =>
      (run first.1 rest).map fun last => (last.1, first.2 :: last.2)

structure Agrees (book : L3Book) (s : L3Spec) : Prop where
  find : ∀ id : OrderId,
    (book.find id).map (fun order => (order.id, order.side, order.price, order.qty, order.live)) =
      (s.orders[id]?).map fun order => (id, order.side, order.price, order.qty, true)
  orderCount : book.orderCount = s.orders.size
  findLevel : ∀ (side : Side) (price : Price),
    (book.findLevel side price).map (fun level => (level.qty.units.toInt, level.orders.toNat)) =
      if s.queue side price.ticks = [] then none
      else some (s.total side price.ticks, (s.queue side price.ticks).length)
  levels : ∀ side : Side, ∃ levels : List Level, BookOrder side levels ∧
    (∀ level, level ∈ levels ↔ s.queue side level.price.ticks ≠ [] ∧
      level.qty.units.toInt = s.total side level.price.ticks) ∧
    book.best side = levels.head? ∧
    ∀ {σ : Type} (fn : σ → Level → σ × Bool) (state : σ),
      book.forEachLevel side fn state = Visit.visit fn state levels
  orders : ∀ (side : Side) (price : Price), ∃ orders : List Order,
    orders.map Order.id = s.queue side price.ticks ∧
    (∀ order ∈ orders, book.find order.id = some order) ∧
    ∀ {σ : Type} (fn : σ → Order → σ × Bool) (state : σ),
      book.forEachOrder side price fn state = some (Visit.visit fn state orders)
  queueAhead : ∀ id : OrderId,
    (book.queueAhead id).map (fun ahead => ahead.map fun qty => qty.units.toInt) =
      some ((s.orders[id]?).map fun order => s.ahead order id)

section Sums

variable {s : L3Spec} {id : OrderId}

theorem unitsOf_nonneg (wf : s.Wf) (id : OrderId) : 0 ≤ s.unitsOf id := by
  unfold L3Spec.unitsOf
  split
  · exact le_refl 0
  · have positive := wf.positive id _ ‹_›
    rw [Int64.lt_iff_toInt_lt] at positive
    exact positive.le

theorem totalOf_nonneg (wf : s.Wf) (ids : List OrderId) : 0 ≤ s.totalOf ids := by
  induction ids with
  | nil => exact le_refl 0
  | cons id rest ih =>
    have units := unitsOf_nonneg wf id
    rw [totalOf_cons]
    omega

theorem ahead_le_total (wf : s.Wf) (order : SpecOrder) (id : OrderId) :
    s.ahead order id ≤ s.total order.side order.price.ticks := by
  have behind := totalOf_nonneg wf ((s.queue order.side order.price.ticks).dropWhile (· ≠ id))
  have whole := totalOf_append s ((s.queue order.side order.price.ticks).takeWhile (· ≠ id))
    ((s.queue order.side order.price.ticks).dropWhile (· ≠ id))
  rw [List.takeWhile_append_dropWhile] at whole
  unfold L3Spec.ahead L3Spec.total
  omega

theorem toInt_ofInt_of_fits {total : Int} (low : 0 ≤ total) (high : total < 2 ^ 63) :
    (Int64.ofInt total).toInt = total :=
  Int64.toInt_ofInt_of_le (by omega) high

end Sums

section Queries

variable {slotOf : OrderId → OrderRef} {book : L3Book} {s : L3Spec}

theorem find_of_some (ok : Refines slotOf book s) {id : OrderId} {order : SpecOrder}
    (found : s.orders[id]? = some order) : book.find id = some (book.order (slotOf id)) := by
  unfold L3Book.find
  rw [ok.findRef_of_some found, if_neg (ok.represents.slot_ne found)]

theorem find_agrees (ok : Refines slotOf book s) (id : OrderId) :
    (book.find id).map (fun order => (order.id, order.side, order.price, order.qty, order.live)) =
      (s.orders[id]?).map fun order => (id, order.side, order.price, order.qty, true) := by
  cases found : s.orders[id]? with
  | none => simp [L3Book.find, ok.findRef_of_none found]
  | some order =>
    have rep := ok.represents
    rw [find_of_some ok found, Option.map_some, Option.map_some, rep.id_eq found, rep.side_eq found,
      rep.price_eq found, rep.qty_eq found, rep.live_eq found]

theorem findLevel_eq (ok : Refines slotOf book s) (side : Side) (price : Price) :
    book.findLevel side price = levelEntry slotOf s (s.queue side price.ticks) :=
  ok.represents.level side price.ticks

theorem length_lt (ok : Refines slotOf book s) (side : Side) (ticks : Int64) :
    (s.queue side ticks).length < 2 ^ 32 := by
  have short := ok.represents.length_le ok.wf.toPlaced side ticks
  have room := ok.represents.room
  rw [show kNoOrder.toNat = 2 ^ 32 - 1 from rfl] at room
  omega

theorem findLevel_agrees (ok : Refines slotOf book s) (fits : s.Fits) (side : Side) (price : Price) :
    (book.findLevel side price).map (fun level => (level.qty.units.toInt, level.orders.toNat)) =
      if s.queue side price.ticks = [] then none
      else some (s.total side price.ticks, (s.queue side price.ticks).length) := by
  rw [findLevel_eq ok, levelEntry]
  split
  · rfl
  · simp only [levelData, Option.map_some]
    rw [toInt_ofInt_of_fits (totalOf_nonneg ok.wf _) (fits.sums side price.ticks),
      UInt32.toNat_ofNat_of_lt' (length_lt ok side price.ticks)]
    rfl

def bookLevels (book : L3Book) (side : Side) : List Level :=
  match side with
  | .bid => book.bids.toList.reverse.map levelOf
  | .ask => book.asks.toList.map levelOf

theorem mem_bookLevels (book : L3Book) (side : Side) (level : Level) :
    level ∈ book.bookLevels side ↔
      ∃ entry, book.findLevel side level.price = some entry ∧ entry.qty = level.qty := by
  have entries : ∀ levels : Std.ExtTreeMap Int64 L3Level, level ∈ levels.toList.map levelOf ↔
      ∃ entry : L3Level, levels[level.price.ticks]? = some entry ∧ entry.qty = level.qty := by
    intro levels
    rw [List.mem_map]
    constructor
    · rintro ⟨⟨ticks, entry⟩, member, rfl⟩
      exact ⟨entry, Std.ExtTreeMap.mem_toList_iff_getElem?_eq_some.mp member, rfl⟩
    · intro ⟨entry, present, qty⟩
      refine ⟨(level.price.ticks, entry), Std.ExtTreeMap.mem_toList_iff_getElem?_eq_some.mpr present, ?_⟩
      simp [levelOf, qty]
  unfold bookLevels findLevel levels
  cases side <;> simpa using entries _

theorem bookLevels_bookOrder (book : L3Book) (side : Side) : BookOrder side (book.bookLevels side) := by
  have ascending := fun levels : Std.ExtTreeMap Int64 L3Level => levels.ordered_keys_toList
  unfold bookLevels BookOrder
  cases side
  · simp only [List.pairwise_map, List.pairwise_reverse]
    exact (ascending _).imp fun {a b} less => decide_eq_true (compare_lt_iff_lt.mp less)
  · simp only [List.pairwise_map]
    exact (ascending _).imp fun {a b} less => decide_eq_true (compare_lt_iff_lt.mp less)

theorem mem_bookLevels_agrees (ok : Refines slotOf book s) (fits : s.Fits) (side : Side)
    (level : Level) :
    level ∈ book.bookLevels side ↔ s.queue side level.price.ticks ≠ [] ∧
      level.qty.units.toInt = s.total side level.price.ticks := by
  have units := toInt_ofInt_of_fits (totalOf_nonneg ok.wf (s.queue side level.price.ticks))
    (fits.sums side level.price.ticks)
  rw [mem_bookLevels, findLevel_eq ok, levelEntry]
  by_cases empty : s.queue side level.price.ticks = []
  · simp [empty]
  · rw [if_neg empty]
    constructor
    · rintro ⟨entry, present, qty⟩
      obtain rfl := Option.some.inj present
      refine ⟨empty, ?_⟩
      rw [← qty]
      exact units
    · rintro ⟨_, total⟩
      refine ⟨_, rfl, ?_⟩
      have same : Int64.ofInt (s.totalOf (s.queue side level.price.ticks)) = level.qty.units :=
        Int64.toInt_inj.mp (units.trans total.symm)
      simp only [levelData, same]

theorem best_eq_head (book : L3Book) (side : Side) : book.best side = (book.bookLevels side).head? := by
  cases side <;> simp [best, bookLevels, List.head?_reverse]

theorem forEachLevel_eq {σ : Type} (book : L3Book) (side : Side) (fn : σ → Level → σ × Bool)
    (state : σ) : book.forEachLevel side fn state = Visit.visit fn state (book.bookLevels side) := by
  cases side <;> rfl

theorem walk_queue (ok : Refines slotOf book s) {σ α : Type} (side : Side) (ticks : Int64)
    (node : OrderRef → α) (fn : σ → α → σ × Bool) (state : σ) :
    LinkedQueue.walk (fun ref => (book.order ref).next) kNoOrder node fn book.orders.size
        (levelData slotOf s (s.queue side ticks)).head state =
      some (Visit.visit fn state (((s.queue side ticks).map slotOf).map node)) := by
  apply LinkedQueue.walk_linked kNoOrder node fn _ _ (ok.represents.linked side ticks)
    (ok.represents.proper ok.wf.toPlaced side ticks)
  simpa using ok.represents.length_le ok.wf.toPlaced side ticks

theorem forEachOrder_eq (ok : Refines slotOf book s) {σ : Type} (side : Side) (price : Price)
    (fn : σ → Order → σ × Bool) (state : σ) :
    book.forEachOrder side price fn state =
      some (Visit.visit fn state (((s.queue side price.ticks).map slotOf).map book.order)) := by
  have visited := walk_queue ok side price.ticks book.order fn state
  unfold L3Book.forEachOrder
  rw [findLevel_eq ok, levelEntry]
  by_cases empty : s.queue side price.ticks = []
  · simp [empty]
  · rw [if_neg empty]
    exact visited

theorem orders_agree (ok : Refines slotOf book s) (side : Side) (price : Price) :
    (((s.queue side price.ticks).map slotOf).map book.order).map Order.id = s.queue side price.ticks ∧
      ∀ order ∈ ((s.queue side price.ticks).map slotOf).map book.order,
        book.find order.id = some order := by
  have resting := ok.wf.sound side price.ticks
  constructor
  · rw [List.map_map, List.map_map]
    refine (List.map_congr_left ?_).trans (List.map_id _)
    intro id queued
    obtain ⟨held, found, -⟩ := resting id queued
    exact ok.represents.id_eq found
  · intro order member
    obtain ⟨ref, slots, rfl⟩ := List.mem_map.mp member
    obtain ⟨id, queued, rfl⟩ := List.mem_map.mp slots
    obtain ⟨held, found, -⟩ := resting id queued
    rw [ok.represents.id_eq found, find_of_some ok found]

-- The sum stops at the order itself.
theorem countAhead_visit (ok : Refines slotOf book s) {id : OrderId} {order : SpecOrder}
    (found : s.orders[id]? = some order) (ids : List OrderId)
    (resting : ∀ other ∈ ids, ∃ held, s.orders[other]? = some held) (start : Int64) :
    Visit.visit (book.countAhead (slotOf id)) start (ids.map slotOf) =
      start + Int64.ofInt (s.totalOf (ids.takeWhile (· ≠ id))) := by
  induction ids generalizing start with
  | nil => simp [L3Spec.totalOf]
  | cons other rest ih =>
    obtain ⟨held, foundOther⟩ := resting other (by simp)
    have later := ih fun x member => resting x (List.mem_cons_of_mem other member)
    rw [List.map_cons, Visit.visit_cons]
    by_cases same : other = id
    · simp [same, countAhead, L3Spec.totalOf]
    · have apart : slotOf other ≠ slotOf id :=
        fun equal => same (ok.represents.slot_injective foundOther found equal)
      simp only [countAhead, if_neg apart, if_true, ok.represents.qty_eq foundOther]
      rw [later, List.takeWhile_cons_of_pos (by simpa using same), totalOf_cons,
        unitsOf_eq foundOther, Int64.ofInt_add, Int64.ofInt_toInt, Int64.add_assoc]

theorem queueAhead_agrees (ok : Refines slotOf book s) (fits : s.Fits) (id : OrderId) :
    (book.queueAhead id).map (fun ahead => ahead.map fun qty => qty.units.toInt) =
      some ((s.orders[id]?).map fun order => s.ahead order id) := by
  unfold L3Book.queueAhead
  cases found : s.orders[id]? with
  | none => simp [ok.findRef_of_none found]
  | some order =>
    have rep := ok.represents
    have queued := ok.queued found
    have resting : ∀ other ∈ s.queue order.side order.price.ticks,
        ∃ held, s.orders[other]? = some held := fun other member =>
      (ok.wf.sound _ _ other member).imp fun _ facts => facts.1
    have total := countAhead_visit ok found _ resting 0
    have low := totalOf_nonneg ok.wf ((s.queue order.side order.price.ticks).takeWhile (· ≠ id))
    have high := (ahead_le_total ok.wf order id).trans_lt (fits.sums order.side order.price.ticks)
    simp only [ok.findRef_of_some found, rep.slot_ne found, if_false, rep.side_eq found,
      rep.price_eq found, findLevel_eq ok, levelEntry, List.ne_nil_of_mem queued]
    rw [walk_queue ok, List.map_id', total, Int64.zero_add]
    simp only [Option.map_some]
    rw [toInt_ofInt_of_fits low high]
    rfl

theorem Refines.agrees (ok : Refines slotOf book s) (fits : s.Fits) : Agrees book s where
  find := find_agrees ok
  orderCount := ok.count
  findLevel := findLevel_agrees ok fits
  levels side := ⟨book.bookLevels side, bookLevels_bookOrder book side,
    mem_bookLevels_agrees ok fits side, best_eq_head book side, forEachLevel_eq book side⟩
  orders side price := ⟨_, (orders_agree ok side price).1, (orders_agree ok side price).2,
    forEachOrder_eq ok side price⟩
  queueAhead := queueAhead_agrees ok fits

theorem call_refines (ok : Refines slotOf book s) (c : L3Call)
    (few : (s.step c).orders.size < 2 ^ 32 - 1) :
    ∃ after slots, book.call c = some (after, (s.call c).2) ∧ Refines slots after (s.step c) := by
  cases c with
  | add id side price qty =>
    obtain ⟨after, slots, result, whole⟩ := ok.add id side price qty few
    exact ⟨after, slots, by rw [call, result]; rfl, whole⟩
  | modify id newQty =>
    obtain ⟨whole, reply⟩ := ok.modify id newQty
    exact ⟨_, slotOf, congrArg (fun reply => some (_, some reply)) reply, whole⟩
  | remove id =>
    obtain ⟨whole, reply⟩ := ok.remove id
    exact ⟨_, slotOf, congrArg (fun reply => some (_, some reply)) reply, whole⟩
  | execute id traded =>
    obtain ⟨whole, reply⟩ := ok.execute id traded
    exact ⟨_, slotOf, congrArg (fun reply => some (_, some reply)) reply, whole⟩
  | clear => exact ⟨_, slotOf, rfl, ok.clear⟩

theorem run_refines (ok : Refines slotOf book s) (calls : List L3Call)
    (fits : Run.Always L3Spec.step L3Spec.Fits s calls) :
    ∃ after slots, book.run calls = some (after, s.replies calls) ∧
      Refines slots after (calls.foldl L3Spec.step s) := by
  induction calls generalizing slotOf book s with
  | nil => exact ⟨book, slotOf, rfl, ok⟩
  | cons c rest ih =>
    obtain ⟨_, later⟩ := (Run.always_cons s c rest).mp fits
    have first : (s.step c).Fits := later [] List.nil_prefix
    obtain ⟨middle, slots, called, kept⟩ := call_refines ok c first.slots
    obtain ⟨after, slots, finished, whole⟩ := ih kept later
    refine ⟨after, slots, ?_, whole⟩
    simp only [run, called, Option.bind_some, finished, Option.map_some, L3Spec.replies]

end Queries

/-- An order-by-order book answers every call and every query as the map of orders with its
queues does. -/
theorem refines_specification (spec : InstrumentSpec) (expectedOrders : Nat) (calls : List L3Call)
    (fits : Run.Always L3Spec.step L3Spec.Fits L3Spec.empty calls) :
    ∃ start, L3Book.new spec expectedOrders = some start ∧
      ∀ before, before <+: calls →
        ∃ after, start.run before = some (after, L3Spec.empty.replies before) ∧
          Agrees after (before.foldl L3Spec.step L3Spec.empty) := by
  obtain ⟨start, made, ok⟩ := Refines.new spec expectedOrders (fun _ => 0)
  refine ⟨start, made, ?_⟩
  intro before isPrefix
  have fitsBefore : Run.Always L3Spec.step L3Spec.Fits L3Spec.empty before :=
    fun part earlier => fits part (earlier.trans isPrefix)
  obtain ⟨after, slots, finished, whole⟩ := run_refines ok before fitsBefore
  exact ⟨after, finished, whole.agrees (fits before isPrefix)⟩

theorem refines_specification_requeue :
    ∃ start, L3Book.new ⟨[], 0, 0⟩ 1 = some start ∧
      ∀ before, before <+: [L3Call.add 7 .bid ⟨100⟩ ⟨5⟩, .add 8 .bid ⟨100⟩ ⟨6⟩, .modify 7 ⟨9⟩] →
        ∃ after, start.run before = some (after, L3Spec.empty.replies before) ∧
          Agrees after (before.foldl L3Spec.step L3Spec.empty) := by
  refine refines_specification ⟨[], 0, 0⟩ 1 _ ?_
  simp only [Run.always_cons, Run.always_nil]
  have elsewhere : ∀ (s : L3Spec), s.orders.size < 2 ^ 32 - 1 → s.total .bid 100 < 2 ^ 63 →
      (∀ side ticks, ¬ (side = .bid ∧ ticks = 100) → s.queue side ticks = []) → s.Fits := by
    intro s few sum others
    refine ⟨?_, few⟩
    intro side ticks
    by_cases here : side = .bid ∧ ticks = 100
    · obtain ⟨rfl, rfl⟩ := here
      exact sum
    · simp [L3Spec.total, others side ticks here, L3Spec.totalOf]
  refine ⟨elsewhere _ ?_ ?_ ?_, elsewhere _ ?_ ?_ ?_, elsewhere _ ?_ ?_ ?_, elsewhere _ ?_ ?_ ?_⟩ <;>
    first
    | decide
    | intro side ticks other
      simp [L3Spec.step, L3Spec.call, L3Spec.add, L3Spec.modify, L3Spec.enqueue, L3Spec.dequeue,
        L3Spec.empty, L3Spec.getElem?_record, other]

end L3Book

end Crossbook
