import Crossbook.Book.BookEquivalence
import Crossbook.Lib.Loop

set_option autoImplicit false

namespace Crossbook

section Passes

variable {S : Type} [SideImpl S]

def trimPass (maxLevels : Nat) (state : S × Nat) : (S × Nat) ⊕ (S × Nat) :=
  let named := doomed state.1 maxLevels
  if named = [] then .inr state else .inl (removeAll state.1 named, state.2 + named.length)

variable [LawfulSideImpl S]

theorem trimLoop_returns (s : S) (maxLevels removed : Nat) :
    Loop.Returns (trimPass maxLevels) (s, removed) (trimLoop s maxLevels removed) := by
  fun_induction trimLoop s maxLevels removed with
  | case1 s removed none =>
    apply Loop.returns_here
    simp [trimPass, none]
  | case2 s removed some _ ih =>
    refine Loop.returns_next ?_ ih
    simp [trimPass, some]

theorem size_eq_bookLevels (s : S) :
    SideImpl.size s = (LawfulSideImpl.toMap s).bookLevels.length := by
  rw [← LawfulSideImpl.size_toMap, MapSide.size_eq_length]

theorem length_doomed (s : S) (maxLevels : Nat) :
    (doomed s maxLevels).length = min kDoomedBatch (SideImpl.size s - maxLevels) := by
  rw [doomed_eq, size_eq_bookLevels]
  simp

theorem size_removeAll_eq (s : S) (maxLevels : Nat) :
    SideImpl.size (removeAll s (doomed s maxLevels)) =
      SideImpl.size s - (doomed s maxLevels).length := by
  rw [length_doomed, size_eq_bookLevels, size_eq_bookLevels, bookLevels_removeAll_doomed,
    List.length_append, List.length_take, List.length_drop]
  omega

-- Every pass removes all it names, so the batches add up to the surplus.
theorem trimLoop_removed (s : S) (maxLevels removed : Nat) :
    (trimLoop s maxLevels removed).2 = removed + (SideImpl.size s - maxLevels) := by
  fun_induction trimLoop s maxLevels removed with
  | case1 s removed none =>
    have batch := length_doomed s maxLevels
    have width : kDoomedBatch = 64 := rfl
    rw [none, List.length_nil] at batch
    omega
  | case2 s removed some _ ih =>
    have batch := length_doomed s maxLevels
    rw [ih, size_removeAll_eq]
    omega

end Passes

namespace BasicL2Book

variable {S : Type} [SideImpl S] [LawfulSideImpl S]

structure Trimmed (before after : BasicL2Book S) (s : Side) (maxLevels removed : Nat) : Prop where
  removed : removed =
    SideImpl.size (before.side s) - min maxLevels (SideImpl.size (before.side s))
  kept : after.levels s = (before.levels s).take (min maxLevels (SideImpl.size (before.side s)))
  other (t : Side) : t ≠ s → after.side t = before.side t

theorem trimSide_exact (book : BasicL2Book S) (s : Side) (maxLevels : Nat)
    (limited : 0 < maxLevels) :
    Loop.Returns (trimPass maxLevels) (book.side s, 0)
        ((book.trimSide s maxLevels).1.side s, (book.trimSide s maxLevels).2) ∧
      Trimmed book (book.trimSide s maxLevels).1 s maxLevels (book.trimSide s maxLevels).2 := by
  have nonzero : maxLevels ≠ 0 := Nat.pos_iff_ne_zero.mp limited
  have trimmed (t : Side) : (book.trimSide s maxLevels).1.side t =
      if t = s then (trimLoop (book.side s) maxLevels 0).1 else book.side t := by
    rw [trimSide, if_neg nonzero, side_setSide]
  have count : (book.trimSide s maxLevels).2 = (trimLoop (book.side s) maxLevels 0).2 := by
    rw [trimSide, if_neg nonzero]
  refine ⟨?_, ⟨?_, ?_, ?_⟩⟩
  · rw [trimmed, if_pos rfl, count]
    exact trimLoop_returns (book.side s) maxLevels 0
  · rw [count, trimLoop_removed]
    omega
  · rw [levels_trimSide book s s maxLevels nonzero, if_pos rfl, size_eq]
    exact List.take_eq_take_min
  · intro t other
    rw [trimmed, if_neg other]

-- Two slots, so that two of the three levels sit in the spill list.
def spilledBook : ArrayBook :=
  (ArrayBook.withSlots ⟨bytes "BTC/USD", 1, 8⟩ 2 (by decide)).run
    [.apply .ask ⟨10⟩ ⟨1⟩, .apply .ask ⟨50⟩ ⟨2⟩, .apply .ask ⟨30⟩ ⟨3⟩]

theorem trimSide_exact_spilled :
    0 < 2 ∧ Trimmed spilledBook (spilledBook.trimSide .ask 2).1 .ask 2
      (spilledBook.trimSide .ask 2).2 :=
  ⟨by decide, (trimSide_exact spilledBook .ask 2 (by decide)).2⟩

end BasicL2Book

end Crossbook
