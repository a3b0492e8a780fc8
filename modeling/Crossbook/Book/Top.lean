import Crossbook.Execution.Resting

set_option autoImplicit false

namespace Crossbook

namespace BasicL2Book

variable {S : Type} [SideImpl S] [LawfulSideImpl S]

def topInto (book : BasicL2Book S) (s : Side) (n : Nat) (_out : List Level) : Nat × List Level :=
  let filled := book.top s n
  (filled.length, filled)

structure TopExact (book : BasicL2Book S) (s : Side) (n : Nat) (answer : Nat × List Level) :
    Prop where
  count : answer.1 = min n (SideImpl.size (book.side s))
  levels : answer.2 = (book.levels s).take (min n (SideImpl.size (book.side s)))
  ordered : BookOrder s answer.2
  prices : (answer.2.map Level.price).Nodup
  quantities : ∀ level ∈ answer.2, level.qty ≠ ⟨0⟩

theorem Reached.qty_nonzero {book : BasicL2Book S} (reached : book.Reached) {s : Side}
    {level : Level} (member : level ∈ book.levels s) : level.qty ≠ ⟨0⟩ := by
  intro zero
  have quantity := (reached.resting s level member).quantity
  simp [Level.units, zero] at quantity

theorem length_top (book : BasicL2Book S) (s : Side) (n : Nat) :
    (book.top s n).length = min (max 1 n) (SideImpl.size (book.side s)) := by
  -- The callback asks for more only after taking a level, so one level is always taken.
  rw [top_eq, List.length_take, size_eq]

theorem top_take (book : BasicL2Book S) (s : Side) (n : Nat)
    (asked : n ≠ 0 ∨ SideImpl.size (book.side s) = 0) :
    book.top s n = (book.levels s).take (min n (SideImpl.size (book.side s))) := by
  rw [top_eq, size_eq, ← List.take_eq_take_min]
  rcases asked with some | empty
  · rw [max_eq_right (Nat.pos_of_ne_zero some)]
  · rw [size_eq, List.length_eq_zero_iff] at empty
    simp [empty]

theorem top_exact_iff (book : BasicL2Book S) (reached : book.Reached) (s : Side) (n : Nat)
    (out : List Level) :
    book.TopExact s n (book.topInto s n out) ↔ n ≠ 0 ∨ SideImpl.size (book.side s) = 0 := by
  constructor
  · intro exact
    have count := exact.count
    simp only [topInto, length_top] at count
    omega
  · intro asked
    have taken := book.top_take s n asked
    have ordered : BookOrder s (book.top s n) := by
      rw [taken]
      exact (book.levels_bookOrder s).sublist (List.take_sublist _ _)
    refine ⟨?_, taken, ordered, ordered.nodup_prices, ?_⟩
    · simp only [topInto, length_top]
      omega
    · intro level member
      have stored : level ∈ book.levels s := by
        simp only [topInto, taken] at member
        exact List.mem_of_mem_take member
      exact reached.qty_nonzero stored

theorem top_exact_iff_spilled :
    let book : ArrayBook := (ArrayBook.withSlots ⟨bytes "BTC/USD", 1, 8⟩ 2 (by decide)).run
      [.apply .ask ⟨10⟩ ⟨1⟩, .apply .ask ⟨50⟩ ⟨2⟩, .apply .ask ⟨30⟩ ⟨3⟩]
    book.TopExact .ask 2 (book.topInto .ask 2 []) ↔
      2 ≠ 0 ∨ SideImpl.size (book.side .ask) = 0 := by
  intro book
  apply top_exact_iff
  refine .after (ArrayBook.withSlots ⟨bytes "BTC/USD", 1, 8⟩ 2 (by decide)) ?_ _
  intro s
  rw [← levels_toMap, ArrayBook.toMap_withSlots, levels_new]

-- Asked for no levels, `top` still hands over the first one.
theorem top_zero_takes_one :
    let book : MapBook := (BasicL2Book.new ⟨bytes "BTC/USD", 1, 8⟩).run [.apply .ask ⟨10⟩ ⟨1⟩]
    book.Reached ∧ ¬ book.TopExact .ask 0 (book.topInto .ask 0 []) := by
  intro book
  refine ⟨.after _ (levels_new _) _, ?_⟩
  intro exact
  have count : (book.topInto .ask 0 []).1 = 1 := by decide
  have answered := exact.count
  rw [count] at answered
  omega

end BasicL2Book

end Crossbook
