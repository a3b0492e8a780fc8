import Crossbook.Feed.Steps

set_option autoImplicit false

namespace Crossbook

namespace BasicL2Book

variable {S : Type} [SideImpl S] [LawfulSideImpl S]

@[simp] theorem load_nil (book : BasicL2Book S) : book.load [] = book := rfl

theorem load_cons (book : BasicL2Book S) (lvl : LevelUpdate) (rest : List LevelUpdate) :
    book.load (lvl :: rest) = (book.apply lvl.side lvl.price lvl.qty).1.load rest := rfl

theorem qtyAt_apply_congr {a b : BasicL2Book S} (same : ∀ s ticks, a.qtyAt s ticks = b.qtyAt s ticks)
    (lvl : LevelUpdate) (s : Side) (ticks : Int64) :
    (a.apply lvl.side lvl.price lvl.qty).1.qtyAt s ticks =
      (b.apply lvl.side lvl.price lvl.qty).1.qtyAt s ticks := by
  by_cases representable : Representable lvl.price lvl.qty
  · simp only [qtyAt_apply _ _ _ _ _ _ representable, same]
  · simp only [apply_refused _ _ _ _ representable, same]

theorem qtyAt_load_congr {a b : BasicL2Book S} (same : ∀ s ticks, a.qtyAt s ticks = b.qtyAt s ticks)
    (levels : List LevelUpdate) (s : Side) (ticks : Int64) :
    (a.load levels).qtyAt s ticks = (b.load levels).qtyAt s ticks := by
  induction levels generalizing a b with
  | nil => exact same s ticks
  | cons lvl rest ih => exact ih (qtyAt_apply_congr same lvl)

def stored (qty : Qty) : Option Int64 := if qty.isZero then none else some qty.units

def Lists (levels : List LevelUpdate) (s : Side) (ticks : Int64) : Prop :=
  ∃ lvl ∈ levels, lvl.side = s ∧ lvl.price.ticks = ticks

theorem qtyAt_load_unlisted (book : BasicL2Book S) (levels : List LevelUpdate) (s : Side)
    (ticks : Int64) (unlisted : ¬ Lists levels s ticks) :
    (book.load levels).qtyAt s ticks = book.qtyAt s ticks := by
  induction levels generalizing book with
  | nil => rfl
  | cons lvl rest ih =>
    have later : ¬ Lists rest s ticks := by
      intro ⟨other, member, here⟩
      exact unlisted ⟨other, List.mem_cons_of_mem lvl member, here⟩
    rw [load_cons, ih _ later]
    by_cases representable : Representable lvl.price lvl.qty
    · rw [qtyAt_apply _ _ _ _ _ _ representable, if_neg]
      intro ⟨side, price⟩
      exact unlisted ⟨lvl, by simp, side.symm, price⟩
    · rw [apply_refused _ _ _ _ representable]

theorem qtyAt_load_listed (book : BasicL2Book S) (levels : List LevelUpdate) (s : Side)
    (ticks : Int64) (qty : Qty) (listed : Lists levels s ticks)
    (agreed : ∀ lvl ∈ levels, lvl.side = s → lvl.price.ticks = ticks →
      lvl.qty = qty ∧ Representable lvl.price lvl.qty) :
    (book.load levels).qtyAt s ticks = stored qty := by
  induction levels generalizing book with
  | nil =>
    obtain ⟨lvl, member, -⟩ := listed
    simp at member
  | cons lvl rest ih =>
    rw [load_cons]
    have agreedLater : ∀ other ∈ rest, other.side = s → other.price.ticks = ticks →
        other.qty = qty ∧ Representable other.price other.qty :=
      fun other member => agreed other (List.mem_cons_of_mem lvl member)
    by_cases later : Lists rest s ticks
    · exact ih _ later agreedLater
    · rw [qtyAt_load_unlisted _ _ _ _ later]
      obtain ⟨first, member, side, price⟩ := listed
      have here : first = lvl := by
        rcases List.mem_cons.mp member with same | other
        · exact same
        · exact absurd ⟨first, other, side, price⟩ later
      subst here
      obtain ⟨same, representable⟩ := agreed first (by simp) side price
      rw [qtyAt_apply _ _ _ _ _ _ representable, if_pos ⟨side.symm, price⟩, same]
      rfl

theorem levels_accept (book : BasicL2Book S) (depth : Nat) (msg : DecodedMessage) (s : Side) :
    (book.accept depth msg).levels s =
      if depth = 0 then (book.load msg.levels).levels s
      else ((book.load msg.levels).levels s).take depth := by
  unfold accept
  rw [levels_setLastUpdate]
  split
  · rename_i full
    rw [full, trim_zero]
  · rename_i limited
    exact levels_trim _ _ _ limited

theorem levels_rebuilt (a b : BasicL2Book S) (depth : Nat) (msg : DecodedMessage) (s : Side) :
    (a.clear.accept depth msg).levels s = (b.clear.accept depth msg).levels s := by
  -- What a message rebuilds does not depend on the book it replaces.
  have same : ((a.clear).load msg.levels).levels s = ((b.clear).load msg.levels).levels s := by
    apply levels_congr
    intro ticks
    exact qtyAt_load_congr (fun s ticks => by rw [qtyAt_clear, qtyAt_clear]) msg.levels s ticks
  rw [levels_accept, levels_accept, same]

theorem krakenChecksum_rebuilt (a b : BasicL2Book S) (depth : Nat) (msg : DecodedMessage) :
    krakenChecksum (a.clear.accept depth msg) = krakenChecksum (b.clear.accept depth msg) := by
  unfold krakenChecksum
  rw [krakenChecksumPayload_eq, krakenChecksumPayload_eq, levels_rebuilt a b, levels_rebuilt a b]

end BasicL2Book

end Crossbook
