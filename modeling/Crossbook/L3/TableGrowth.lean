import Crossbook.L3.TableLoad

set_option autoImplicit false

namespace Crossbook

namespace L3Book

structure Tracked where
  book : L3Book
  peak : Nat

def track (state : Option Tracked) (c : L3Call) : Option Tracked :=
  state.bind fun state =>
    (state.book.call c).map fun (after, _) => ⟨after, max state.peak after.orderCount⟩

def Proportional (initial : Nat) (state : Option Tracked) : Prop :=
  ∃ tracked, state = some tracked ∧
    tracked.book.table.size ≤ max initial (4 * nextPow2 (tracked.peak + 1))

/-- An order is taken into a table that counts seven tenths used, while it has more than 32 slots
and more than four for each order that ever rested at once. -/
def GrowsEarly (state : Tracked) : L3Call → Prop
  | .add id _ _ qty =>
    0 < qty.units ∧ state.book.findRef id = kNoOrder ∧ Crowded state.book ∧
      32 < state.book.table.size ∧
      4 * max state.peak (state.book.orderCount + 1) < state.book.table.size
  | _ => False

def Justified (state : Option Tracked) (c : L3Call) : Prop :=
  ∀ tracked, state = some tracked → ¬ GrowsEarly tracked c

theorem proportional_some (initial : Nat) (tracked : Tracked) :
    Proportional initial (some tracked) ↔
      tracked.book.table.size ≤ max initial (4 * nextPow2 (tracked.peak + 1)) := by
  simp [Proportional]

theorem justified_some (tracked : Tracked) (c : L3Call) :
    Justified (some tracked) c ↔ ¬ GrowsEarly tracked c := by
  simp [Justified]

theorem le_nextPow2Loop (n p : Nat) (positive : 0 < p) : n ≤ nextPow2Loop n p := by
  fun_induction nextPow2Loop n p with
  | case1 p more ih => exact ih (by omega)
  | case2 p done => omega

theorem start_le_nextPow2Loop (n p : Nat) : p ≤ nextPow2Loop n p := by
  fun_induction nextPow2Loop n p with
  | case1 p more ih => omega
  | case2 p done => exact le_rfl

theorem le_nextPow2 (n : Nat) : n ≤ nextPow2 n := le_nextPow2Loop n 16 (by decide)

theorem nextPow2Loop_le (n k i : Nat) (small : n ≤ 2 ^ k) (start : i ≤ k) :
    nextPow2Loop n (2 ^ i) ≤ 2 ^ k := by
  induction start using Nat.decreasingInduction with
  | of_succ i below ih =>
    rw [nextPow2Loop]
    split
    · rwa [← Nat.pow_succ]
    · exact Nat.pow_le_pow_right (by decide) (Nat.le_of_lt below)
  | self =>
    rw [nextPow2Loop, if_neg (by omega)]

theorem nextPow2_le (n k : Nat) (small : n ≤ 2 ^ k) (enough : 4 ≤ k) : nextPow2 n ≤ 2 ^ k :=
  nextPow2Loop_le n k 4 small enough

theorem doubled_le_iff {size : Nat} (power : ∃ k, size = 2 ^ k) (peak : Nat) :
    2 * size ≤ 4 * nextPow2 (peak + 1) ↔ ¬ (32 < size ∧ 4 * peak < size) := by
  -- Doubling a table of `size` slots stays within the bound exactly while it is small or well
  -- filled.
  obtain ⟨k, rfl⟩ := power
  by_cases few : k ≤ 5
  · have small : 2 ^ k ≤ 2 ^ 5 := Nat.pow_le_pow_right (by decide) few
    have floor : 16 ≤ nextPow2 (peak + 1) := start_le_nextPow2Loop (peak + 1) 16
    refine iff_of_true (by omega) (by omega)
  · obtain ⟨j, rfl⟩ : ∃ j, k = j + 2 := ⟨k - 2, by omega⟩
    have quarter : 2 ^ (j + 2) = 4 * 2 ^ j := by ring
    have large : 2 ^ 6 ≤ 2 ^ (j + 2) := Nat.pow_le_pow_right (by decide) (by omega)
    by_cases filled : peak + 1 ≤ 2 ^ j
    · have low := nextPow2_le (peak + 1) j filled (by omega)
      refine iff_of_false (by omega) (by omega)
    · obtain ⟨i, next⟩ := nextPow2_power (peak + 1)
      have above := le_nextPow2 (peak + 1)
      have more : j < i := by
        refine (Nat.pow_lt_pow_iff_right (by decide : 1 < 2)).mp ?_
        omega
      have doubled : 2 ^ (j + 1) ≤ 2 ^ i := Nat.pow_le_pow_right (by decide) more
      have half : 2 ^ (j + 1) = 2 * 2 ^ j := by ring
      refine iff_of_true (by omega) (by omega)

theorem call_loaded {book : L3Book} (loaded : Loaded book) (c : L3Call) :
    ∃ after reply, book.call c = some (after, reply) ∧ Loaded after ∧
      ((∃ id side price qty, c = .add id side price qty ∧ 0 < qty.units ∧
          book.findRef id = kNoOrder ∧ Crowded book ∧
          after.table.size = book.table.size * 2 ∧ after.orderCount = book.orderCount + 1) ∨
        ((∀ id side price qty, c = .add id side price qty →
            ¬ (0 < qty.units ∧ book.findRef id = kNoOrder ∧ Crowded book)) ∧
          after.table.size = book.table.size)) := by
  cases c with
  | add id side price qty =>
    by_cases taken : 0 < qty.units ∧ book.findRef id = kNoOrder
    · obtain ⟨after, added, whole, size, live⟩ :=
        add_loaded loaded id side price qty taken.1 taken.2
      refine ⟨after, some true, by rw [call, added, Option.map_some], whole, ?_⟩
      by_cases crowded : Crowded book
      · rw [if_pos crowded] at size
        exact .inl ⟨id, side, price, qty, rfl, taken.1, taken.2, crowded, size, live⟩
      · rw [if_neg crowded] at size
        refine .inr ⟨?_, size⟩
        intro _ _ _ _ _ grows
        exact crowded grows.2.2
    · refine ⟨book, some false, by rw [call, add_refused book id side price qty taken]; rfl,
        loaded, .inr ⟨?_, rfl⟩⟩
      intro _ _ _ _ same grows
      cases same
      exact taken ⟨grows.1, grows.2.1⟩
  | modify id newQty =>
    have kept := modify_loaded loaded id newQty
    exact ⟨_, _, rfl, kept.1, .inr ⟨by simp, kept.2⟩⟩
  | remove id =>
    have kept := remove_loaded loaded id
    exact ⟨_, _, rfl, kept.1, .inr ⟨by simp, kept.2⟩⟩
  | execute id traded =>
    have kept := execute_loaded loaded id traded
    exact ⟨_, _, rfl, kept.1, .inr ⟨by simp, kept.2⟩⟩
  | clear =>
    have kept := clear_loaded loaded
    exact ⟨_, _, rfl, kept.1, .inr ⟨by simp, kept.2⟩⟩

def Sound (initial : Nat) (state : Option Tracked) : Prop :=
  ∃ tracked, state = some tracked ∧ Loaded tracked.book ∧ initial ≤ tracked.book.table.size

theorem track_sound {initial : Nat} {state : Option Tracked} (c : L3Call)
    (sound : Sound initial state) : Sound initial (track state c) := by
  obtain ⟨tracked, rfl, loaded, larger⟩ := sound
  obtain ⟨after, reply, called, whole, grown | kept⟩ := call_loaded loaded c
  · obtain ⟨id, side, price, qty, -, -, -, -, size, -⟩ := grown
    refine ⟨⟨after, max tracked.peak after.orderCount⟩, by simp [track, called], whole, ?_⟩
    change initial ≤ after.table.size
    omega
  · refine ⟨⟨after, max tracked.peak after.orderCount⟩, by simp [track, called], whole, ?_⟩
    exact kept.2 ▸ larger

theorem nextPow2_mono {n m : Nat} (le : n ≤ m) : nextPow2 n ≤ nextPow2 m := by
  obtain ⟨k, power⟩ := nextPow2_power m
  have floor : 2 ^ 4 ≤ 2 ^ k := power ▸ start_le_nextPow2Loop m 16
  rw [power]
  refine nextPow2_le n k ?_ ((Nat.pow_le_pow_iff_right (by decide)).mp floor)
  exact le.trans (power ▸ le_nextPow2 m)

theorem track_proportional {initial : Nat} {state : Option Tracked} (c : L3Call)
    (sound : Sound initial state) (within : Proportional initial state) :
    Proportional initial (track state c) ↔ Justified state c := by
  obtain ⟨tracked, rfl, loaded, larger⟩ := sound
  have bound := (proportional_some initial tracked).mp within
  obtain ⟨after, reply, called, whole, effect⟩ := call_loaded loaded c
  have next : track (some tracked) c = some ⟨after, max tracked.peak after.orderCount⟩ := by
    simp [track, called]
  rw [next, proportional_some, justified_some]
  rcases effect with ⟨id, side, price, qty, rfl, some_, absent, crowded, size, live⟩ | ⟨calm, size⟩
  · have positive := loaded.counted.size_pos
    have exactly := doubled_le_iff loaded.counted.power (max tracked.peak (tracked.book.orderCount + 1))
    change after.table.size ≤ _ ↔ _
    rw [size, live]
    have overInitial : tracked.book.table.size * 2 ≤
        max initial (4 * nextPow2 (max tracked.peak (tracked.book.orderCount + 1) + 1)) ↔
        2 * tracked.book.table.size ≤
          4 * nextPow2 (max tracked.peak (tracked.book.orderCount + 1) + 1) := by
      omega
    rw [overInitial, exactly]
    simp only [GrowsEarly, some_, absent, crowded, true_and]
  · have calmed : ¬ GrowsEarly tracked c := by
      cases c with
      | add id side price qty =>
        intro grows
        exact calm id side price qty rfl ⟨grows.1, grows.2.1, grows.2.2.1⟩
      | modify | remove | execute | clear => exact not_false
    refine iff_of_true ?_ calmed
    have monotone := nextPow2_mono (Nat.succ_le_succ (le_max_left tracked.peak after.orderCount))
    change after.table.size ≤ _
    rw [size]
    exact bound.trans (max_le_max le_rfl (Nat.mul_le_mul_left 4 monotone))

theorem new_loaded (spec : InstrumentSpec) (expectedOrders : Nat) :
    ∃ start, L3Book.new spec expectedOrders = some start ∧ Loaded start := by
  refine ⟨_, rfl, ?_, ?_⟩
  · exact Counted.blank (nextPow2 (expectedOrders * 2)) (nextPow2_power _) _ (by simp)
      (slotAt_replicate _)
  · have floor := start_le_nextPow2Loop (expectedOrders * 2) 16
    change 0 * 10 < (Array.replicate (nextPow2 (expectedOrders * 2)) Slot.blank).size * 7
    rw [Array.size_replicate, nextPow2]
    omega

/-- The id table stays proportional to the book throughout a run exactly when no call of the run
makes it grow early. -/
theorem table_proportional_iff (spec : InstrumentSpec) (expectedOrders : Nat)
    (calls : List L3Call) :
    ∃ start, L3Book.new spec expectedOrders = some start ∧
      (Run.Always track (Proportional start.table.size) (some ⟨start, 0⟩) calls ↔
        Run.EachCall track Justified (some ⟨start, 0⟩) calls) := by
  obtain ⟨start, made, loaded⟩ := new_loaded spec expectedOrders
  have sound : Sound start.table.size (some ⟨start, 0⟩) := ⟨_, rfl, loaded, le_rfl⟩
  have within : Proportional start.table.size (some ⟨start, 0⟩) :=
    (proportional_some _ _).mpr (le_max_left _ _)
  exact ⟨start, made, Run.always_iff_eachCall (fun _ c => track_sound c)
    (fun _ c => track_proportional c) calls sound within⟩

def churn (count : Nat) : List L3Call :=
  (List.range count).flatMap fun id =>
    [.add (UInt64.ofNat id) .bid ⟨100⟩ ⟨1⟩, .remove (UInt64.ofNat id)]

set_option maxRecDepth 10000 in
theorem churn_grows_table :
    ¬ ∃ start, L3Book.new ⟨[], 0, 0⟩ 0 = some start ∧
      Run.Always track (Proportional start.table.size) (some ⟨start, 0⟩) (churn 128) := by
  have grown : (L3Book.new ⟨[], 0, 0⟩ 0).map (fun start =>
      (start.table.size, ((churn 128).foldl track (some ⟨start, 0⟩)).map fun state =>
        (state.book.table.size, state.peak))) = some (16, some (128, 1)) := by
    decide +kernel
  rintro ⟨start, made, always⟩
  obtain ⟨state, reached, bound⟩ := always.last
  rw [made, Option.map_some, reached, Option.map_some] at grown
  simp only [Option.some.injEq, Prod.mk.injEq] at grown
  obtain ⟨initial, size, peak⟩ := grown
  rw [initial, size, peak] at bound
  have limit : nextPow2 2 = 16 := by decide +kernel
  rw [limit] at bound
  exact absurd bound (by decide)

end L3Book

end Crossbook
