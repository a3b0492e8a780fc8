import Crossbook.L3.Book

set_option autoImplicit false

namespace Crossbook

namespace L3Book

def hash (id : OrderId) : Nat := (mix id).toNat

structure Counted (table : Array Slot) (used : Nat) : Prop where
  power : ∃ k, table.size = 2 ^ k
  used_eq : used = (ProbeTable.usedSlots (slotAt table) table.size).card

structure IdTable (table : Array Slot) (used : Nat) (holds : OrderId → OrderRef → Prop) : Prop where
  wf : ProbeTable.Wf hash (slotAt table) table.size
  used_eq : used = (ProbeTable.usedSlots (slotAt table) table.size).card
  holds_iff : ∀ id ref, ProbeTable.Holds (slotAt table) table.size id ref ↔ holds id ref

variable {table : Array Slot} {used : Nat} {holds : OrderId → OrderRef → Prop}

theorem slotAt_set {i : Nat} (inside : i < table.size) (slot : Slot) :
    slotAt (table.setIfInBounds i slot) = Function.update (slotAt table) i slot := by
  funext j
  by_cases same : j = i
  · subst same
    simp [slotAt, inside]
  · simp [slotAt, Function.update_of_ne same, Array.getElem?_setIfInBounds_ne (Ne.symm same)]

theorem home_eq (power : ∃ k, table.size = 2 ^ k) (id : OrderId) :
    home table id = hash id % table.size :=
  ProbeTable.and_mask power _

theorem IdTable.congr {holds' : OrderId → OrderRef → Prop} (ok : IdTable table used holds)
    (same : ∀ id ref, holds id ref ↔ holds' id ref) : IdTable table used holds' :=
  ⟨ok.wf, ok.used_eq, fun id ref => (ok.holds_iff id ref).trans (same id ref)⟩

theorem IdTable.size_pos (ok : IdTable table used holds) : 0 < table.size := ok.wf.size_pos

theorem IdTable.unique (ok : IdTable table used holds) {id : OrderId} {a b : OrderRef}
    (left : holds id a) (right : holds id b) : a = b := by
  obtain ⟨i, insideI, heldI, keyI, rfl⟩ := (ok.holds_iff id a).mpr left
  obtain ⟨j, insideJ, heldJ, keyJ, rfl⟩ := (ok.holds_iff id b).mpr right
  rw [ok.wf.distinct i insideI j insideJ heldI heldJ (keyI.trans keyJ.symm)]

theorem IdTable.seekId_cases (ok : IdTable table used holds) (id : OrderId) :
    (∃ i, seekId table id = some i ∧ i < table.size ∧ (slotAt table i).occupied = true ∧
      (slotAt table i).key = id ∧ holds id (slotAt table i).value) ∨
    (seekId table id = none ∧ ∀ ref, ¬ holds id ref) := by
  rw [seekId, home_eq ok.wf.power]
  rcases ProbeTable.seek_spec ok.wf id with ⟨i, found, inside, held, key⟩ | ⟨missing, absent⟩
  · exact .inl ⟨i, found, inside, held, key, (ok.holds_iff id _).mp ⟨i, inside, held, key, rfl⟩⟩
  · refine .inr ⟨missing, ?_⟩
    intro ref held
    obtain ⟨i, inside, occupied, key, -⟩ := (ok.holds_iff id ref).mpr held
    exact absent i inside occupied key

theorem findRef_of_holds {book : L3Book} (ok : IdTable book.table used holds) {id : OrderId}
    {ref : OrderRef} (held : holds id ref) : book.findRef id = ref := by
  have nonempty : book.table.isEmpty = false := by
    simpa [Array.isEmpty_iff_size_eq_zero] using ok.size_pos.ne'
  rcases ok.seekId_cases id with ⟨i, found, -, -, -, value⟩ | ⟨-, absent⟩
  · simp [findRef, nonempty, found, ok.unique value held]
  · exact absurd held (absent ref)

theorem findRef_of_absent {book : L3Book} (ok : IdTable book.table used holds) {id : OrderId}
    (absent : ∀ ref, ¬ holds id ref) : book.findRef id = kNoOrder := by
  rcases ok.seekId_cases id with ⟨i, -, -, -, -, value⟩ | ⟨missing, -⟩
  · exact absurd value (absent _)
  · simp [findRef, missing]

theorem IdTable.counted (ok : IdTable table used holds) : Counted table used := ⟨ok.wf.power, ok.used_eq⟩

theorem Counted.size_pos (counted : Counted table used) : 0 < table.size := by
  obtain ⟨k, size⟩ := counted.power
  rw [size]
  exact Nat.two_pow_pos k

theorem Counted.place (counted : Counted table used) (room : used < table.size) (id : OrderId)
    (ref : OrderRef) :
    ∃ d < table.size, spotFor table id = some ((hash id + d) % table.size) ∧
      (hash id + d) % table.size < table.size ∧
      (slotAt table ((hash id + d) % table.size)).occupied = false ∧
      (∀ j < d, (slotAt table ((hash id + j) % table.size)).occupied = true) ∧
      Counted (table.setIfInBounds ((hash id + d) % table.size) ⟨id, ref, true, false⟩)
        (if (slotAt table ((hash id + d) % table.size)).tombstone then used else used + 1) := by
  obtain ⟨free, insideFree, fresh⟩ := ProbeTable.room_of_used (counted.used_eq ▸ room)
  have unoccupied : (slotAt table free).occupied = false := by
    simp only [ProbeTable.Slot.fresh, Bool.and_eq_true, Bool.not_eq_true'] at fresh
    exact fresh.1
  obtain ⟨d, below, found, open_, path⟩ :=
    ProbeTable.vacant_spec counted.power (hash id) ⟨free, insideFree, unoccupied⟩
  have inside : (hash id + d) % table.size < table.size := Nat.mod_lt _ counted.size_pos
  have written := slotAt_set inside (⟨id, ref, true, false⟩ : Slot)
  have spot := (congrArg _ (home_eq counted.power id)).trans found
  refine ⟨d, below, spot, inside, open_, path, ?_, ?_⟩
  · rw [Array.size_setIfInBounds]
    exact counted.power
  · rw [written, Array.size_setIfInBounds, counted.used_eq]
    exact (ProbeTable.card_used_put inside open_ id ref).symm

theorem IdTable.place (ok : IdTable table used holds) (room : used < table.size) {id : OrderId}
    (absent : ∀ ref, ¬ holds id ref) (ref : OrderRef) :
    ∃ i, spotFor table id = some i ∧ i < table.size ∧
      IdTable (table.setIfInBounds i ⟨id, ref, true, false⟩)
        (if (slotAt table i).tombstone then used else used + 1)
        (fun other found => holds other found ∨ (other = id ∧ found = ref)) := by
  obtain ⟨d, below, spot, inside, free, path, counted⟩ := ok.counted.place room id ref
  have missing : ∀ i < table.size, (slotAt table i).occupied = true → (slotAt table i).key ≠ id := by
    intro i inside held key
    exact absent _ ((ok.holds_iff id _).mp ⟨i, inside, held, key, rfl⟩)
  have written := slotAt_set inside (⟨id, ref, true, false⟩ : Slot)
  refine ⟨_, spot, inside, ?_, counted.used_eq, ?_⟩
  · rw [written, Array.size_setIfInBounds]
    exact ProbeTable.put_wf ok.wf id ref below path missing
  · intro other value
    rw [written, Array.size_setIfInBounds, ← ok.holds_iff, or_comm]
    exact ProbeTable.holds_put inside free id ref other value

theorem IdTable.erase (ok : IdTable table used holds) {i : Nat} (inside : i < table.size)
    (held : (slotAt table i).occupied = true) :
    IdTable
      (table.setIfInBounds i { slotAt table i with occupied := false, tombstone := true }) used
      (fun other found => other ≠ (slotAt table i).key ∧ holds other found) := by
  have written := slotAt_set inside
    ({ slotAt table i with occupied := false, tombstone := true } : Slot)
  refine ⟨?_, ?_, ?_⟩
  · rw [written, Array.size_setIfInBounds]
    exact ProbeTable.bury_wf ok.wf held
  · rw [written, Array.size_setIfInBounds, ok.used_eq]
    exact (congrArg _ (ProbeTable.card_used_bury held)).symm
  · intro other value
    rw [written, Array.size_setIfInBounds, ← ok.holds_iff]
    exact ProbeTable.holds_bury ok.wf inside held other value

theorem eraseRef_spec {book : L3Book} (ok : IdTable book.table used holds) {id : OrderId}
    {ref : OrderRef} (held : holds id ref) :
    ∃ after, book.eraseRef id = { book with table := after } ∧ after.size = book.table.size ∧
      IdTable after used (fun other found => other ≠ id ∧ holds other found) := by
  rcases ok.seekId_cases id with ⟨i, found, inside, occupied, key, -⟩ | ⟨-, absent⟩
  · refine ⟨book.table.setIfInBounds i
      { slotAt book.table i with occupied := false, tombstone := true }, ?_,
      Array.size_setIfInBounds, ?_⟩
    · simp [eraseRef, found]
    · have erased := ok.erase inside occupied
      rwa [key] at erased
  · exact absurd held (absent ref)

theorem empty_table (capacity : Nat) (power : ∃ k, capacity = 2 ^ k) (table : Array Slot)
    (size : table.size = capacity) (blank : ∀ i, slotAt table i = .blank) :
    IdTable table 0 (fun _ _ => False) := by
  have content : slotAt table = fun _ => .blank := funext blank
  refine ⟨?_, ?_, ?_⟩
  · rw [content, size]
    exact ProbeTable.empty_wf power _ rfl
  · rw [content]
    simp [ProbeTable.usedSlots, Slot.blank, ProbeTable.Slot.fresh]
  · rw [content]
    simp [ProbeTable.Holds, Slot.blank]

theorem slotAt_replicate (capacity i : Nat) : slotAt (Array.replicate capacity .blank) i = .blank := by
  unfold slotAt
  by_cases inside : i < capacity <;> simp [inside]

theorem slotAt_map_blank (i : Nat) : slotAt (table.map fun _ => .blank) i = .blank := by
  unfold slotAt
  by_cases inside : i < table.size <;> simp [inside]

/-! ### Rehashing -/

theorem clean_set {i : Nat} (inside : i < table.size) (id : OrderId) (ref : OrderRef)
    (clean : ∀ j, (slotAt table j).tombstone = false) (j : Nat) :
    (slotAt (table.setIfInBounds i ⟨id, ref, true, false⟩) j).tombstone = false := by
  rw [slotAt_set inside]
  by_cases same : j = i
  · simp [same]
  · simpa [Function.update_of_ne same] using clean j

-- The induction is on the old slots still to be moved: none of their ids is in the new table yet.
theorem rehashSlots_spec (slots : List Slot) (ok : IdTable table used holds)
    (clean : ∀ i, (slotAt table i).tombstone = false)
    (absent : ∀ slot ∈ slots, slot.occupied = true → ∀ ref, ¬ holds slot.key ref)
    (distinct : slots.Pairwise fun a b => a.occupied = true → b.occupied = true → a.key ≠ b.key)
    (room : used + slots.countP (·.occupied) ≤ table.size) :
    ∃ after, slots.foldlM rehashSlot (table, used) =
        some (after, used + slots.countP (·.occupied)) ∧ after.size = table.size ∧
      IdTable after (used + slots.countP (·.occupied)) fun id ref =>
        holds id ref ∨ ∃ slot ∈ slots, slot.occupied = true ∧ slot.key = id ∧ slot.value = ref := by
  induction slots generalizing table used holds with
  | nil => exact ⟨table, rfl, rfl, by simpa using ok⟩
  | cons slot rest ih =>
    obtain ⟨apart, distinct⟩ := List.pairwise_cons.mp distinct
    cases occupied : slot.occupied with
    | false =>
      have count : (slot :: rest).countP (·.occupied) = rest.countP (·.occupied) := by
        simp [occupied]
      rw [count] at room ⊢
      obtain ⟨after, moved, size, final⟩ := ih ok clean
        (fun other member => absent other (List.mem_cons_of_mem slot member)) distinct room
      refine ⟨after, ?_, size, final.congr ?_⟩
      · simpa [List.foldlM_cons, rehashSlot, occupied] using moved
      · simp [occupied]
    | true =>
      have count : (slot :: rest).countP (·.occupied) = rest.countP (·.occupied) + 1 := by
        simp [occupied]
      rw [count] at room ⊢
      obtain ⟨i, spot, inside, placed⟩ :=
        ok.place (by omega) (absent slot (by simp) occupied) slot.value
      -- The new table has no tombstone to revive, so each entry takes a fresh slot.
      have unburied := clean i
      rw [unburied] at placed
      have cleanAfter := clean_set inside slot.key slot.value clean
      have absentAfter : ∀ other ∈ rest, other.occupied = true → ∀ ref,
          ¬ (holds other.key ref ∨ (other.key = slot.key ∧ ref = slot.value)) := by
        intro other member held ref present
        rcases present with old | ⟨same, -⟩
        · exact absent other (List.mem_cons_of_mem slot member) held ref old
        · exact apart other member occupied held same.symm
      have amount : used + (rest.countP (·.occupied) + 1) = used + 1 + rest.countP (·.occupied) := by
        omega
      obtain ⟨after, moved, size, final⟩ := ih placed cleanAfter absentAfter distinct
        (by rw [Array.size_setIfInBounds]; simp only [Bool.false_eq_true, if_false]; omega)
      simp only [Bool.false_eq_true, if_false, Array.size_setIfInBounds] at moved size final
      rw [amount]
      refine ⟨after, ?_, size, final.congr ?_⟩
      · simpa [List.foldlM_cons, rehashSlot, occupied, spot] using moved
      · intro id ref
        simp only [List.mem_cons, exists_eq_or_imp, occupied, true_and, or_assoc]
        simp only [eq_comm (a := id), eq_comm (a := ref)]

theorem toList_eq_slots (table : Array Slot) :
    table.toList = (List.range table.size).map (slotAt table) := by
  apply List.ext_getElem
  · simp
  · intro i left right
    have inside : i < table.size := by simpa using left
    simp [slotAt, inside]

theorem mem_slots (table : Array Slot) (slot : Slot) :
    slot ∈ table.toList ↔ ∃ i < table.size, slotAt table i = slot := by
  simp [toList_eq_slots]

theorem countP_le_used (table : Array Slot) :
    table.toList.countP (·.occupied) ≤ (ProbeTable.usedSlots (slotAt table) table.size).card := by
  have nodup : ((List.range table.size).filter fun i => (slotAt table i).occupied).Nodup :=
    List.nodup_range.filter _
  have count : table.toList.countP (·.occupied) =
      ((List.range table.size).filter fun i => (slotAt table i).occupied).toFinset.card := by
    rw [List.toFinset_card_of_nodup nodup, ← List.countP_eq_length_filter, toList_eq_slots,
      List.countP_map]
    rfl
  rw [count]
  apply Finset.card_le_card
  intro i member
  simp only [List.mem_toFinset, List.mem_filter, List.mem_range] at member
  rw [ProbeTable.mem_usedSlots]
  exact ⟨member.1, by simp [ProbeTable.Slot.fresh, member.2]⟩

theorem rehash_spec {book : L3Book} (ok : IdTable book.table used holds) (capacity : Nat)
    (power : ∃ k, capacity = 2 ^ k) (enough : used ≤ capacity) :
    ∃ after moved, book.rehash capacity = some { book with table := after, tableUsed := moved } ∧
      after.size = capacity ∧ moved ≤ used ∧ IdTable after moved holds := by
  have start := empty_table capacity power (Array.replicate capacity .blank) (by simp)
    (slotAt_replicate capacity)
  have few := countP_le_used book.table
  rw [← ok.used_eq] at few
  have distinct : book.table.toList.Pairwise
      fun a b => a.occupied = true → b.occupied = true → a.key ≠ b.key := by
    rw [toList_eq_slots, List.pairwise_map]
    apply List.nodup_range.imp_of_mem
    intro i j left right different heldI heldJ same
    exact different (ok.wf.distinct i (List.mem_range.mp left) j (List.mem_range.mp right)
      heldI heldJ same)
  have clean : ∀ i, (slotAt (Array.replicate capacity .blank) i).tombstone = false := by
    intro i
    rw [slotAt_replicate]
    rfl
  obtain ⟨after, moved, size, final⟩ := rehashSlots_spec book.table.toList start clean (by simp)
    distinct (by rw [Array.size_replicate]; omega)
  rw [Nat.zero_add] at moved final
  rw [Array.size_replicate] at size
  refine ⟨after, _, by simp only [rehash, moved, Option.map_some], size, few, final.congr ?_⟩
  intro id ref
  rw [← ok.holds_iff, ProbeTable.Holds]
  constructor
  · intro present
    rcases present with never | ⟨slot, member, held, key, value⟩
    · exact never.elim
    · obtain ⟨i, inside, rfl⟩ := (mem_slots book.table slot).mp member
      exact ⟨i, inside, held, key, value⟩
  · intro ⟨i, inside, held, key, value⟩
    exact .inr ⟨_, (mem_slots book.table _).mpr ⟨i, inside, rfl⟩, held, key, value⟩

theorem insertRef_spec {book : L3Book} (ok : IdTable book.table book.tableUsed holds)
    (load : book.tableUsed * 10 < book.table.size * 7) {id : OrderId}
    (absent : ∀ ref, ¬ holds id ref) (ref : OrderRef) :
    ∃ after count, book.insertRef id ref = some { book with table := after, tableUsed := count } ∧
      count * 10 < after.size * 7 ∧
      IdTable after count fun other found => holds other found ∨ (other = id ∧ found = ref) := by
  have positive := ok.size_pos
  unfold insertRef
  split
  · obtain ⟨k, power⟩ := ok.wf.power
    obtain ⟨grown, moved, result, size, few, whole⟩ := rehash_spec ok (book.table.size * 2)
      ⟨k + 1, by rw [power, Nat.pow_succ]⟩ (by omega)
    obtain ⟨i, spot, inside, placed⟩ := whole.place (by omega) absent ref
    refine ⟨_, _, by simp only [result, Option.bind_some, placeRef, spot, Option.map_some], ?_, placed⟩
    have wide : (book.tableUsed + 1) * 10 < book.table.size * 2 * 7 := by
      rcases (show book.table.size = 1 ∨ 2 ≤ book.table.size by omega) with one | more <;> omega
    rw [Array.size_setIfInBounds]
    split <;> omega
  · obtain ⟨i, spot, inside, placed⟩ := ok.place (by omega) absent ref
    refine ⟨_, _, by simp only [placeRef, spot, Option.map_some], ?_, placed⟩
    rw [Array.size_setIfInBounds]
    split <;> omega

theorem nextPow2Loop_power (n p : Nat) (power : ∃ k, p = 2 ^ k) :
    ∃ k, nextPow2Loop n p = 2 ^ k := by
  fun_induction nextPow2Loop n p with
  | case1 p more ih =>
    obtain ⟨k, rfl⟩ := power
    exact ih ⟨k + 1, (Nat.pow_succ ..).symm⟩
  | case2 p done => exact power

theorem nextPow2_power (n : Nat) : ∃ k, nextPow2 n = 2 ^ k := nextPow2Loop_power n 16 ⟨4, rfl⟩

end L3Book

end Crossbook
