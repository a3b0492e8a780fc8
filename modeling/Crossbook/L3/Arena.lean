import Crossbook.L3.Agreement

set_option autoImplicit false

namespace Crossbook

namespace L3Spec

def peakAfter (s : L3Spec) (peak : Nat) (c : L3Call) : Nat :=
  if c = .clear then 0 else max peak (s.step c).orders.size

def peak : L3Spec → Nat → List L3Call → Nat
  | _, peak, [] => peak
  | s, highest, c :: rest => peak (s.step c) (s.peakAfter highest c) rest

def Few (s : L3Spec) : Prop := s.orders.size < 2 ^ 32 - 1

end L3Spec

namespace L3Book

def arenaSize (book : L3Book) : Nat := book.orders.size

def freeSlots (book : L3Book) : Nat := book.freeList.length

/-- Every slot of the arena is either to spare, once, or that of one resting order. -/
structure Partitioned (book : L3Book) : Prop where
  spare : book.freeList.Nodup
  vacant : ∀ ref ∈ book.freeList, ref.toNat < book.arenaSize ∧
    ∀ id, (book.find id).isSome → book.findRef id ≠ ref
  inside : ∀ id, (book.find id).isSome → (book.findRef id).toNat < book.arenaSize
  owned : ∀ ref : OrderRef, ref.toNat < book.arenaSize → ref ∉ book.freeList →
    ∃! id, (book.find id).isSome ∧ book.findRef id = ref
  balance : book.orderCount + book.freeSlots = book.arenaSize

section Partition

variable {slotOf : OrderId → OrderRef} {book : L3Book} {s : L3Spec}

theorem mem_of_full {xs : List Nat} {n : Nat} (nodup : xs.Nodup) (below : ∀ x ∈ xs, x < n)
    (full : n ≤ xs.length) {x : Nat} (inside : x < n) : x ∈ xs := by
  -- As many distinct numbers below a bound as there are leave none out.
  have subset : xs.toFinset ⊆ Finset.range n := fun y member =>
    Finset.mem_range.mpr (below y (List.mem_toFinset.mp member))
  have all : xs.toFinset = Finset.range n := by
    refine Finset.eq_of_subset_of_card_le subset ?_
    rwa [Finset.card_range, List.toFinset_card_of_nodup nodup]
  exact List.mem_toFinset.mp (all ▸ Finset.mem_range.mpr inside)

namespace Refines

theorem resting (ok : Refines slotOf book s) (id : OrderId) :
    (book.find id).isSome ↔ ∃ order, s.orders[id]? = some order := by
  cases found : s.orders[id]? with
  | none => simp [find, ok.findRef_of_none found]
  | some order => simp [find, ok.findRef_of_some found, ok.represents.slot_ne found]

def slots (slotOf : OrderId → OrderRef) (book : L3Book) (s : L3Spec) : List OrderRef :=
  book.freeList ++ s.orders.keys.map slotOf

theorem key_found {id : OrderId} (member : id ∈ s.orders.keys) :
    ∃ order, s.orders[id]? = some order := by
  have present : id ∈ s.orders := Std.ExtTreeMap.mem_keys.mp member
  exact ⟨_, Std.ExtTreeMap.getElem?_eq_some_getElem present⟩

theorem slots_nodup (ok : Refines slotOf book s) : (slots slotOf book s).Nodup := by
  refine List.nodup_append.mpr ⟨ok.freeNodup, ?_, ?_⟩
  · refine List.Nodup.map_on ?_ s.orders.nodup_keys
    intro a memberA b memberB same
    obtain ⟨orderA, foundA⟩ := key_found memberA
    obtain ⟨orderB, foundB⟩ := key_found memberB
    exact ok.represents.slot_injective foundA foundB same
  · intro ref free slot taken same
    obtain ⟨id, member, rfl⟩ := List.mem_map.mp taken
    obtain ⟨order, found⟩ := key_found member
    exact ok.ne_slot_of_free found free same

theorem slots_inside (ok : Refines slotOf book s) :
    ∀ ref ∈ slots slotOf book s, ref.toNat < book.orders.size := by
  intro ref member
  rcases List.mem_append.mp member with free | taken
  · exact (ok.freeDead ref free).1
  · obtain ⟨id, key, rfl⟩ := List.mem_map.mp taken
    obtain ⟨order, found⟩ := key_found key
    exact ok.represents.inside id order found

theorem length_slots (ok : Refines slotOf book s) :
    (slots slotOf book s).length = book.orders.size := by
  have balance := ok.balance
  have count := ok.count
  rw [slots, List.length_append, List.length_map, Std.ExtTreeMap.length_keys]
  omega

theorem mem_slots (ok : Refines slotOf book s) {ref : OrderRef}
    (inside : ref.toNat < book.orders.size) : ref ∈ slots slotOf book s := by
  have nodup := ok.slots_nodup.map fun _ _ => UInt32.toNat_inj.mp
  have full := mem_of_full nodup (List.forall_mem_map.mpr ok.slots_inside)
    (by rw [List.length_map, ok.length_slots]) inside
  obtain ⟨other, member, same⟩ := List.mem_map.mp full
  exact UInt32.toNat_inj.mp same ▸ member

theorem partitioned (ok : Refines slotOf book s) : book.Partitioned where
  spare := ok.freeNodup
  vacant := by
    intro ref free
    refine ⟨(ok.freeDead ref free).1, ?_⟩
    intro id rests same
    obtain ⟨order, found⟩ := (ok.resting id).mp rests
    exact ok.ne_slot_of_free found free (same.symm.trans (ok.findRef_of_some found))
  inside := by
    intro id rests
    obtain ⟨order, found⟩ := (ok.resting id).mp rests
    rw [ok.findRef_of_some found]
    exact ok.represents.inside id order found
  owned := by
    intro ref inside taken
    have member := (List.mem_append.mp (ok.mem_slots inside)).resolve_left taken
    obtain ⟨id, key, rfl⟩ := List.mem_map.mp member
    obtain ⟨order, found⟩ := key_found key
    refine ⟨id, ⟨(ok.resting id).mpr ⟨order, found⟩, ok.findRef_of_some found⟩, ?_⟩
    rintro other ⟨rests, same⟩
    obtain ⟨held, foundOther⟩ := (ok.resting other).mp rests
    rw [ok.findRef_of_some foundOther] at same
    exact ok.represents.slot_injective foundOther found same
  balance := ok.balance

end Refines

end Partition

section Growth

variable {book after : L3Book}

theorem insertRef_arena {id : OrderId} {ref : OrderRef}
    (inserted : book.insertRef id ref = some after) :
    after.orders = book.orders ∧ after.freeList = book.freeList := by
  have placed {start : L3Book} (placing : start.placeRef id ref = some after) :
      after.orders = start.orders ∧ after.freeList = start.freeList := by
    obtain ⟨i, -, rfl⟩ := Option.map_eq_some_iff.mp placing
    exact ⟨rfl, rfl⟩
  unfold insertRef at inserted
  split at inserted
  · obtain ⟨grown, rehashed, placing⟩ := Option.bind_eq_some_iff.mp inserted
    obtain ⟨table, -, rfl⟩ := Option.map_eq_some_iff.mp rehashed
    have kept := placed placing
    exact kept
  · exact placed inserted

theorem add_arena {id : OrderId} {side : Side} {price : Price} {qty : Qty} {reply : Bool}
    (added : book.add id side price qty = some (after, reply)) :
    after = book ∨ (after.orders.size = book.allocate.2.orders.size ∧
      after.freeList = book.allocate.2.freeList) := by
  unfold add at added
  split at added
  · exact .inl (Prod.mk.inj (Option.some.inj added)).1.symm
  · obtain ⟨entered, inserted, same⟩ := Option.map_eq_some_iff.mp added
    obtain ⟨rfl, -⟩ := Prod.mk.inj same
    obtain ⟨orders, freeList⟩ := insertRef_arena inserted
    have frame := Frame.linkBack (book.allocate.2.updateOrder book.allocate.1
      fun _ => ⟨id, price, qty, side, kNoOrder, kNoOrder, true⟩) book.allocate.1
    exact .inr ⟨(congrArg Array.size orders).trans (frame.size.trans size_updateOrder),
      freeList.trans frame.freeList⟩

theorem size_remove (book : L3Book) (id : OrderId) :
    (book.remove id).1.orders.size = book.orders.size := by
  unfold remove
  dsimp only
  split
  · rfl
  · refine size_updateOrder.trans ?_
    rw [eraseRef]
    split <;> exact (Frame.unlink book _).size

theorem size_modify (book : L3Book) (id : OrderId) (newQty : Qty) :
    (book.modify id newQty).1.orders.size = book.orders.size := by
  unfold modify
  dsimp only
  split
  · rfl
  · split
    · exact book.size_remove id
    · split
      · exact ((Frame.resize ..).trans ((Frame.unlink ..).trans (Frame.linkBack ..))).size
      · exact (Frame.resize ..).size

theorem size_execute (book : L3Book) (id : OrderId) (traded : Qty) :
    (book.execute id traded).1.orders.size = book.orders.size := by
  unfold execute
  dsimp only
  split
  · rfl
  · split
    · exact book.size_remove id
    · exact (Frame.resize ..).size

theorem call_arena {c : L3Call} {reply : Option Bool} (called : book.call c = some (after, reply))
    (other : c ≠ .clear) (whole : after.Partitioned) :
    after.arenaSize = max book.arenaSize after.orderCount := by
  have balance := whole.balance
  have kept (size : after.arenaSize = book.arenaSize) :
      after.arenaSize = max book.arenaSize after.orderCount := by omega
  cases c with
  | add id side price qty =>
    obtain ⟨result, added, same⟩ := Option.map_eq_some_iff.mp called
    obtain ⟨rfl, -⟩ := Prod.mk.inj same
    rcases add_arena added with unchanged | ⟨size, freeList⟩
    · exact kept (congrArg arenaSize unchanged)
    · unfold allocate at size freeList
      cases spare : book.freeList with
      | cons ref rest =>
        rw [spare] at size
        exact kept size
      | nil =>
        rw [spare] at size freeList
        have grown : result.1.arenaSize = book.arenaSize + 1 := by
          rw [arenaSize, size]
          exact Array.size_push _
        have full : result.1.freeSlots = 0 := congrArg List.length freeList
        omega
  | modify id newQty =>
    obtain ⟨rfl, -⟩ := Prod.mk.inj (Option.some.inj called)
    exact kept (book.size_modify id newQty)
  | remove id =>
    obtain ⟨rfl, -⟩ := Prod.mk.inj (Option.some.inj called)
    exact kept (book.size_remove id)
  | execute id traded =>
    obtain ⟨rfl, -⟩ := Prod.mk.inj (Option.some.inj called)
    exact kept (book.size_execute id traded)
  | clear => exact absurd rfl other

variable {slotOf : OrderId → OrderRef} {s : L3Spec}

theorem run_arena (ok : Refines slotOf book s) (calls : List L3Call)
    (few : Run.Always L3Spec.step L3Spec.Few s calls) :
    ∃ after slots, book.run calls = some (after, s.replies calls) ∧
      Refines slots after (calls.foldl L3Spec.step s) ∧
      after.arenaSize = s.peak book.arenaSize calls := by
  induction calls generalizing slotOf book s with
  | nil => exact ⟨book, slotOf, rfl, ok, rfl⟩
  | cons c rest ih =>
    obtain ⟨-, later⟩ := (Run.always_cons s c rest).mp few
    have first : (s.step c).Few := later [] List.nil_prefix
    obtain ⟨middle, slots, called, kept⟩ := call_refines ok c first
    obtain ⟨after, slots, finished, whole, arena⟩ := ih kept later
    refine ⟨after, slots, ?_, whole, ?_⟩
    · simp only [run, called, Option.bind_some, finished, Option.map_some, L3Spec.replies]
    · rw [arena, L3Spec.peak, L3Spec.peakAfter]
      split
      next cleared =>
        subst cleared
        obtain ⟨rfl, -⟩ := Prod.mk.inj (Option.some.inj called)
        rfl
      next other =>
        have grown := call_arena called other kept.partitioned
        rw [grown, orderCount, kept.count]

end Growth

end L3Book

/-- The order arena is no leak: at every point of a run it has as many slots as orders ever rested
at once since the book was last cleared, and each is either to spare or that of one resting order. -/
theorem arena_is_peak (spec : InstrumentSpec) (expectedOrders : Nat) (calls : List L3Call)
    (few : Run.Always L3Spec.step L3Spec.Few L3Spec.empty calls) :
    ∃ start, L3Book.new spec expectedOrders = some start ∧
      ∀ before, before <+: calls →
        ∃ after, start.run before = some (after, L3Spec.empty.replies before) ∧
          after.Partitioned ∧ after.arenaSize = L3Spec.empty.peak 0 before := by
  obtain ⟨start, made, ok⟩ := L3Book.Refines.new spec expectedOrders (fun _ => 0)
  refine ⟨start, made, ?_⟩
  intro before isPrefix
  have fewBefore : Run.Always L3Spec.step L3Spec.Few L3Spec.empty before :=
    fun part earlier => few part (earlier.trans isPrefix)
  obtain ⟨after, slots, finished, whole, arena⟩ := L3Book.run_arena ok before fewBefore
  refine ⟨after, finished, whole.partitioned, arena.trans ?_⟩
  unfold L3Book.new L3Book.rehash at made
  obtain ⟨_, -, rfl⟩ := Option.map_eq_some_iff.mp made
  rfl

theorem arena_is_peak_recycled :
    ∃ start, L3Book.new ⟨[], 0, 0⟩ 1 = some start ∧
      ∀ before, before <+: [L3Call.add 7 .bid ⟨100⟩ ⟨5⟩, .remove 7, .add 8 .ask ⟨101⟩ ⟨6⟩] →
        ∃ after, start.run before = some (after, L3Spec.empty.replies before) ∧
          after.Partitioned ∧ after.arenaSize = L3Spec.empty.peak 0 before := by
  refine arena_is_peak ⟨[], 0, 0⟩ 1 _ ?_
  simp only [Run.always_cons, Run.always_nil]
  unfold L3Spec.Few
  decide +kernel

end Crossbook
