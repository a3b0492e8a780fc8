import Crossbook.Execution
import Crossbook.Book.BookEquivalence

set_option autoImplicit false

namespace Crossbook

namespace Level

def ticks (level : Level) : Int := level.price.ticks.toInt

def units (level : Level) : Int := level.qty.units.toInt

def notional (level : Level) : Int := level.ticks * level.units

/-- What the guards of `BasicL2Book.apply` let into a book. -/
structure Resting (level : Level) : Prop where
  price : 0 ≤ level.ticks
  quantity : 0 < level.units

theorem Resting.notional_nonneg {level : Level} (resting : level.Resting) : 0 ≤ level.notional :=
  mul_nonneg resting.price resting.quantity.le

end Level

def totalNotional (levels : List Level) : Int := (levels.map Level.notional).sum

def totalQuantity (levels : List Level) : Int := (levels.map Level.units).sum

section Totals

@[simp] theorem totalNotional_append (front back : List Level) :
    totalNotional (front ++ back) = totalNotional front + totalNotional back := by
  simp [totalNotional]

@[simp] theorem totalQuantity_append (front back : List Level) :
    totalQuantity (front ++ back) = totalQuantity front + totalQuantity back := by
  simp [totalQuantity]

variable {levels : List Level}

theorem totalNotional_nonneg (resting : ∀ level ∈ levels, level.Resting) :
    0 ≤ totalNotional levels := by
  apply List.sum_nonneg
  intro x member
  obtain ⟨level, here, rfl⟩ := List.mem_map.mp member
  exact (resting level here).notional_nonneg

theorem totalQuantity_nonneg (resting : ∀ level ∈ levels, level.Resting) :
    0 ≤ totalQuantity levels := by
  apply List.sum_nonneg
  intro x member
  obtain ⟨level, here, rfl⟩ := List.mem_map.mp member
  exact (resting level here).quantity.le

theorem totalQuantity_front {front : List Level} (first : front <+: levels)
    (resting : ∀ level ∈ levels, level.Resting) : totalQuantity front ≤ totalQuantity levels := by
  obtain ⟨back, rfl⟩ := first
  have later : 0 ≤ totalQuantity back :=
    totalQuantity_nonneg fun level inside => resting level (List.mem_append_right _ inside)
  rw [totalQuantity_append]
  omega

end Totals

namespace BasicL2Book

variable {S : Type} [SideImpl S] [LawfulSideImpl S]

inductive Built : BasicL2Book S → Prop
  | empty (book : BasicL2Book S) : (∀ s, book.levels s = []) → Built book
  | apply {book : BasicL2Book S} (s : Side) (price : Price) (qty : Qty) :
      Built book → Built (book.apply s price qty).1

theorem resting_apply (book : BasicL2Book S) (s t : Side) (price : Price) (qty : Qty)
    (resting : ∀ level ∈ book.levels t, level.Resting) :
    ∀ level ∈ (book.apply s price qty).1.levels t, level.Resting := by
  by_cases representable : Representable price qty
  · intro level member
    rw [mem_levels, qtyAt_apply book s t price qty _ representable] at member
    split at member
    next here =>
      have positive : qty.units ≠ 0 := by
        intro zero
        simp [Qty.isZero, zero] at member
      simp only [Qty.isZero, beq_iff_eq, positive, if_false, Option.some.injEq] at member
      have low := Int64.le_iff_toInt_le.mp representable.1
      have quantity := Int64.le_iff_toInt_le.mp representable.2
      have moved : qty.units.toInt ≠ 0 := fun zero => positive (Int64.toInt_inj.mp zero)
      rw [Int64.toInt_zero] at low quantity
      constructor
      · rwa [Level.ticks, ← here.2]
      · rw [Level.units, ← member]
        omega
    next => exact resting level ((mem_levels book t level).mpr member)
  · rwa [apply_refused book s price qty representable]

theorem Built.resting {book : BasicL2Book S} (built : book.Built) (s : Side) :
    ∀ level ∈ book.levels s, level.Resting := by
  induction built with
  | empty book none => simp [none s]
  | apply t price qty _ ih => exact resting_apply _ t s price qty ih

theorem levels_new (spec : InstrumentSpec) (s : Side) :
    (new spec : BasicL2Book S).levels s = [] := by
  refine List.eq_nil_iff_forall_not_mem.mpr fun level member => ?_
  rw [mem_levels, qtyAt_new] at member
  exact absurd member (by simp)

theorem built_new (spec : InstrumentSpec) : (new spec : BasicL2Book S).Built :=
  .empty _ (levels_new spec)

theorem mem_trimSide {book : BasicL2Book S} {s t : Side} {maxLevels : Nat} {level : Level}
    (member : level ∈ (book.trimSide s maxLevels).1.levels t) : level ∈ book.levels t := by
  by_cases unlimited : maxLevels = 0
  · simpa [trimSide, unlimited] using member
  · rw [levels_trimSide book s t maxLevels unlimited] at member
    split at member
    · exact List.mem_of_mem_take member
    · exact member

theorem resting_call {book : BasicL2Book S} (t : Side)
    (resting : ∀ level ∈ book.levels t, level.Resting) (call : BookCall) :
    ∀ level ∈ (book.call call).levels t, level.Resting := by
  cases call with
  | apply s price qty => exact resting_apply book s t price qty resting
  | clear =>
    intro level member
    rw [call, mem_levels, qtyAt_clear] at member
    exact absurd member (by simp)
  | setLastUpdate ts => exact resting
  | trimSide s maxLevels => exact fun level member => resting level (mem_trimSide member)
  | trim maxLevels =>
    intro level member
    exact resting level (mem_trimSide (mem_trimSide member))

inductive Reached : BasicL2Book S → Prop
  | after (start : BasicL2Book S) : (∀ s, start.levels s = []) → ∀ calls : List BookCall,
      Reached (start.run calls)

theorem Reached.resting {book : BasicL2Book S} (reached : book.Reached) (t : Side) :
    ∀ level ∈ book.levels t, level.Resting := by
  obtain ⟨start, empty, calls⟩ := reached
  induction calls using List.reverseRecOn with
  | nil => simp [run, empty]
  | append_singleton calls call ih =>
    rw [run, List.foldl_append]
    exact resting_call t ih call

end BasicL2Book

end Crossbook
