import Crossbook.L3.Agreement

set_option autoImplicit false

namespace Crossbook

namespace L3Book

variable {table : Array Slot} {used : Nat}

theorem Counted.blank (capacity : Nat) (power : ∃ k, capacity = 2 ^ k) (table : Array Slot)
    (size : table.size = capacity) (blank : ∀ i, slotAt table i = .blank) : Counted table 0 := by
  have ok := empty_table capacity power table size blank
  exact ⟨ok.wf.power, ok.used_eq⟩

-- The induction is on the old slots still to be moved.
theorem rehashSlots_counted (slots : List Slot) (counted : Counted table used)
    (clean : ∀ i, (slotAt table i).tombstone = false)
    (room : used + slots.countP (·.occupied) ≤ table.size) :
    ∃ after, slots.foldlM rehashSlot (table, used) =
        some (after, used + slots.countP (·.occupied)) ∧ after.size = table.size ∧
      Counted after (used + slots.countP (·.occupied)) := by
  induction slots generalizing table used with
  | nil => exact ⟨table, rfl, rfl, counted⟩
  | cons slot rest ih =>
    cases occupied : slot.occupied with
    | false =>
      have count : (slot :: rest).countP (·.occupied) = rest.countP (·.occupied) := by
        simp [occupied]
      rw [count] at room ⊢
      obtain ⟨after, folded, whole⟩ := ih counted clean room
      refine ⟨after, ?_, whole⟩
      simpa [List.foldlM_cons, rehashSlot, occupied] using folded
    | true =>
      have count : (slot :: rest).countP (·.occupied) = rest.countP (·.occupied) + 1 := by
        simp [occupied]
      rw [count] at room ⊢
      obtain ⟨d, -, spot, inside, -, -, placed⟩ := counted.place (by omega) slot.key slot.value
      rw [clean, if_neg Bool.false_ne_true] at placed
      obtain ⟨after, folded, size, whole⟩ := ih placed (clean_set inside slot.key slot.value clean)
        (by rw [Array.size_setIfInBounds]; omega)
      have amount : used + (rest.countP (·.occupied) + 1) = used + 1 + rest.countP (·.occupied) := by
        omega
      rw [Array.size_setIfInBounds] at size
      rw [amount]
      refine ⟨after, ?_, size, whole⟩
      simpa [List.foldlM_cons, rehashSlot, occupied, spot] using folded

theorem rehash_counted {book : L3Book} (counted : Counted book.table used) (capacity : Nat)
    (power : ∃ k, capacity = 2 ^ k) (enough : used ≤ capacity) :
    ∃ after moved, book.rehash capacity = some { book with table := after, tableUsed := moved } ∧
      after.size = capacity ∧ moved ≤ used ∧ Counted after moved := by
  have few := countP_le_used book.table
  rw [← counted.used_eq] at few
  have start := Counted.blank capacity power (Array.replicate capacity .blank) (by simp)
    (slotAt_replicate capacity)
  have clean : ∀ i, (slotAt (Array.replicate capacity .blank) i).tombstone = false := by
    intro i
    rw [slotAt_replicate]
    rfl
  obtain ⟨after, folded, size, whole⟩ := rehashSlots_counted book.table.toList start clean
    (by rw [Array.size_replicate]; omega)
  rw [Nat.zero_add] at folded whole
  rw [Array.size_replicate] at size
  exact ⟨after, _, by simp only [rehash, folded, Option.map_some], size, few, whole⟩

structure Loaded (book : L3Book) : Prop where
  counted : Counted book.table book.tableUsed
  load : book.tableUsed * 10 < book.table.size * 7

theorem Loaded.congr {before after : L3Book} (loaded : Loaded before)
    (table : after.table = before.table) (used : after.tableUsed = before.tableUsed) :
    Loaded after := by
  refine ⟨?_, ?_⟩
  · rw [table, used]
    exact loaded.counted
  · rw [table, used]
    exact loaded.load

/-- The table that counts seven tenths taken with one more id. -/
def Crowded (book : L3Book) : Prop := book.table.size * 7 ≤ (book.tableUsed + 1) * 10

instance (book : L3Book) : Decidable (Crowded book) := inferInstanceAs (Decidable (_ ≤ _))

theorem placeRef_loaded {book : L3Book} (counted : Counted book.table book.tableUsed)
    (load : (book.tableUsed + 1) * 10 < book.table.size * 7) (id : OrderId) (ref : OrderRef) :
    ∃ table used, book.placeRef id ref = some { book with table := table, tableUsed := used } ∧
      table.size = book.table.size ∧
      Loaded { book with table := table, tableUsed := used } := by
  obtain ⟨d, -, spot, -, -, -, placed⟩ := counted.place (by omega) id ref
  generalize (hash id + d) % book.table.size = i at spot placed
  have few : (if (slotAt book.table i).tombstone then book.tableUsed else book.tableUsed + 1) * 10 <
      book.table.size * 7 := by
    split <;> omega
  refine ⟨_, if (slotAt book.table i).tombstone then book.tableUsed else book.tableUsed + 1,
    by simp only [placeRef, spot, Option.map_some], Array.size_setIfInBounds, placed, ?_⟩
  rwa [Array.size_setIfInBounds]

theorem insertRef_loaded {book : L3Book} (loaded : Loaded book) (id : OrderId) (ref : OrderRef) :
    ∃ table used, book.insertRef id ref = some { book with table := table, tableUsed := used } ∧
      table.size = (if Crowded book then book.table.size * 2 else book.table.size) ∧
      Loaded { book with table := table, tableUsed := used } := by
  have load := loaded.load
  by_cases crowded : Crowded book
  · have grows : book.insertRef id ref =
        (book.rehash (book.table.size * 2)).bind fun grown => grown.placeRef id ref :=
      if_pos crowded
    rw [if_pos crowded, grows]
    obtain ⟨k, power⟩ := loaded.counted.power
    obtain ⟨grown, moved, result, size, few, counted⟩ := rehash_counted loaded.counted
      (book.table.size * 2) ⟨k + 1, by rw [power, Nat.pow_succ]⟩ (by omega)
    have room : (moved + 1) * 10 < grown.size * 7 := by
      have two : 2 ≤ book.table.size ∨ book.tableUsed = 0 := by omega
      omega
    have rehashed : Counted ({ book with table := grown, tableUsed := moved } : L3Book).table moved :=
      counted
    obtain ⟨table, used, placed, same, whole⟩ := placeRef_loaded rehashed room id ref
    refine ⟨table, used, ?_, same.trans size, whole⟩
    rw [result, Option.bind_some, placed]
  · have stays : book.insertRef id ref = book.placeRef id ref := if_neg crowded
    rw [if_neg crowded, stays]
    exact placeRef_loaded loaded.counted (not_le.mp crowded) id ref

theorem size_eraseRef (book : L3Book) (id : OrderId) :
    (book.eraseRef id).table.size = book.table.size := by
  rw [eraseRef]
  split
  · exact Array.size_setIfInBounds
  · rfl

theorem eraseRef_loaded {book : L3Book} (loaded : Loaded book) (id : OrderId) :
    Loaded (book.eraseRef id) := by
  -- A buried slot still counts as used.
  rw [eraseRef]
  cases found : seekId book.table id with
  | none => exact loaded
  | some i =>
    have masked : ∀ i, i &&& (book.table.size - 1) < book.table.size := by
      intro i
      rw [ProbeTable.and_mask loaded.counted.power]
      exact Nat.mod_lt _ loaded.counted.size_pos
    obtain ⟨inside, held, -⟩ := ProbeTable.seek_sound _ _ _ _ _ masked (masked _) found
    have written := slotAt_set inside
      ({ slotAt book.table i with occupied := false, tombstone := true } : Slot)
    refine ⟨⟨?_, ?_⟩, ?_⟩
    · rw [Array.size_setIfInBounds]
      exact loaded.counted.power
    · rw [written, Array.size_setIfInBounds]
      refine loaded.counted.used_eq.trans ?_
      exact (congrArg Finset.card (ProbeTable.card_used_bury held)).symm
    · rw [Array.size_setIfInBounds]
      exact loaded.load

theorem remove_loaded {book : L3Book} (loaded : Loaded book) (id : OrderId) :
    Loaded (book.remove id).1 ∧ (book.remove id).1.table.size = book.table.size := by
  rw [remove]
  split
  · exact ⟨loaded, rfl⟩
  · have frame := Frame.unlink book (book.findRef id)
    have unlinked : Loaded (book.unlink (book.findRef id)) := loaded.congr frame.table frame.tableUsed
    have erased := eraseRef_loaded unlinked id
    refine ⟨erased.congr rfl rfl, ?_⟩
    change ((book.unlink (book.findRef id)).eraseRef id).table.size = _
    rw [size_eraseRef, frame.table]

theorem Loaded.frame {before after : L3Book} (loaded : Loaded before) (frame : Frame before after) :
    Loaded after ∧ after.table.size = before.table.size :=
  ⟨loaded.congr frame.table frame.tableUsed, by rw [frame.table]⟩

theorem modify_loaded {book : L3Book} (loaded : Loaded book) (id : OrderId) (newQty : Qty) :
    Loaded (book.modify id newQty).1 ∧ (book.modify id newQty).1.table.size = book.table.size := by
  rw [modify]
  split
  · exact ⟨loaded, rfl⟩
  · split
    · exact remove_loaded loaded id
    · dsimp only
      have frame := Frame.resize book (book.findRef id) newQty
        (newQty.units - (book.order (book.findRef id)).qty.units)
      generalize book.resize (book.findRef id) newQty
        (newQty.units - (book.order (book.findRef id)).qty.units) = resized at frame ⊢
      split
      · have unlinked := frame.trans (Frame.unlink resized (book.findRef id))
        exact loaded.frame (unlinked.trans (Frame.linkBack _ (book.findRef id)))
      · exact loaded.frame frame

theorem execute_loaded {book : L3Book} (loaded : Loaded book) (id : OrderId) (traded : Qty) :
    Loaded (book.execute id traded).1 ∧ (book.execute id traded).1.table.size = book.table.size := by
  rw [execute]
  split
  · exact ⟨loaded, rfl⟩
  · dsimp only
    split
    · exact remove_loaded loaded id
    · exact loaded.frame (Frame.resize ..)

theorem clear_loaded {book : L3Book} (loaded : Loaded book) :
    Loaded book.clear ∧ book.clear.table.size = book.table.size := by
  have size : book.clear.table.size = book.table.size := Array.size_map
  refine ⟨⟨?_, ?_⟩, size⟩
  · exact Counted.blank book.table.size loaded.counted.power _ size fun i => slotAt_map_blank i
  · rw [size]
    change 0 * 10 < _
    have positive := loaded.counted.size_pos
    omega

theorem allocate_kept (book : L3Book) :
    book.allocate.2.table = book.table ∧ book.allocate.2.tableUsed = book.tableUsed ∧
      book.allocate.2.liveOrders = book.liveOrders := by
  rw [allocate]
  split <;> exact ⟨rfl, rfl, rfl⟩

theorem add_loaded {book : L3Book} (loaded : Loaded book) (id : OrderId) (side : Side)
    (price : Price) (qty : Qty) (some_ : 0 < qty.units) (absent : book.findRef id = kNoOrder) :
    ∃ after, book.add id side price qty = some (after, true) ∧ Loaded after ∧
      after.table.size = (if Crowded book then book.table.size * 2 else book.table.size) ∧
      after.liveOrders = book.liveOrders + 1 := by
  have taken : (decide (qty.units ≤ 0) || decide (book.findRef id ≠ kNoOrder)) = false := by
    simpa [absent] using some_
  rw [add, taken, if_neg Bool.false_ne_true]
  have ⟨table, used, live⟩ := allocate_kept book
  let filled := book.allocate.2.updateOrder book.allocate.1
    fun _ => ⟨id, price, qty, side, kNoOrder, kNoOrder, true⟩
  have frame : Frame filled (filled.linkBack book.allocate.1) := Frame.linkBack ..
  have linked : Loaded (filled.linkBack book.allocate.1) :=
    loaded.congr (frame.table.trans table) (frame.tableUsed.trans used)
  obtain ⟨after, count, inserted, size, whole⟩ := insertRef_loaded linked id book.allocate.1
  have sameLoad : Crowded (filled.linkBack book.allocate.1) ↔ Crowded book := by
    rw [Crowded, frame.table.trans table, frame.tableUsed.trans used, Crowded]
  simp only [sameLoad, frame.table.trans table] at size
  let grown : L3Book := { filled.linkBack book.allocate.1 with table := after, tableUsed := count }
  refine ⟨{ grown with liveOrders := grown.liveOrders + 1 }, ?_, ?_, size, ?_⟩
  · change ((filled.linkBack book.allocate.1).insertRef id book.allocate.1).map _ = _
    rw [inserted, Option.map_some]
  · exact ⟨whole.counted, whole.load⟩
  · have sameLive : grown.liveOrders = book.liveOrders := frame.liveOrders.trans live
    rw [sameLive]

theorem add_refused (book : L3Book) (id : OrderId) (side : Side) (price : Price) (qty : Qty)
    (refused : ¬ (0 < qty.units ∧ book.findRef id = kNoOrder)) :
    book.add id side price qty = some (book, false) := by
  rw [add, if_pos]
  by_cases absent : book.findRef id = kNoOrder
  · have none_ : ¬ 0 < qty.units := fun some_ => refused ⟨some_, absent⟩
    simpa [absent] using none_
  · simp [absent]

end L3Book

end Crossbook
