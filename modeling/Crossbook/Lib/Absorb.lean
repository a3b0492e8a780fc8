import Mathlib

set_option autoImplicit false

namespace Absorb

variable {σ α : Type}

/-- A step that loses neither the state it starts from nor the symbol it takes in. -/
structure Lossless (step : σ → α → σ) : Prop where
  state (x : α) : Function.Injective fun s => step s x
  symbol (s : σ) : Function.Injective (step s)

def DifferOnce (xs ys : List α) : Prop :=
  xs.length = ys.length ∧ ∃ i : Nat, xs[i]? ≠ ys[i]? ∧ ∀ j : Nat, j ≠ i → xs[j]? = ys[j]?

theorem DifferOnce.split {xs ys : List α} (once : DifferOnce xs ys) :
    ∃ front x y back, x ≠ y ∧ xs = front ++ x :: back ∧ ys = front ++ y :: back := by
  obtain ⟨length, i, differ, same⟩ := once
  have inside : i < xs.length := by
    by_contra outside
    apply differ
    rw [List.getElem?_eq_none (by omega), List.getElem?_eq_none (by omega)]
  have insideOther : i < ys.length := length ▸ inside
  have front : xs.take i = ys.take i := by
    apply List.ext_getElem?
    intro j
    rw [List.getElem?_take, List.getElem?_take]
    by_cases early : j < i
    · simp only [early, if_true, same j (by omega)]
    · simp only [early, if_false]
  have back : xs.drop (i + 1) = ys.drop (i + 1) := by
    apply List.ext_getElem?
    intro j
    rw [List.getElem?_drop, List.getElem?_drop, same _ (by omega)]
  refine ⟨xs.take i, xs[i], ys[i], xs.drop (i + 1), ?_, ?_, ?_⟩
  · rwa [List.getElem?_eq_getElem inside, List.getElem?_eq_getElem insideOther, ne_eq,
      Option.some.injEq] at differ
  · simp
  · rw [front, back]
    simp

variable {step : σ → α → σ}

theorem Lossless.foldl_injective (lossless : Lossless step) (xs : List α) :
    Function.Injective fun s => xs.foldl step s := by
  induction xs with
  | nil => exact Function.injective_id
  | cons x rest ih => exact ih.comp (lossless.state x)

theorem Lossless.foldl_ne (lossless : Lossless step) {xs ys : List α} (once : DifferOnce xs ys)
    (s : σ) : xs.foldl step s ≠ ys.foldl step s := by
  obtain ⟨front, x, y, back, differ, rfl, rfl⟩ := once.split
  rw [List.foldl_append, List.foldl_append, List.foldl_cons, List.foldl_cons]
  intro same
  exact differ (lossless.symbol _ (lossless.foldl_injective back same))

end Absorb
