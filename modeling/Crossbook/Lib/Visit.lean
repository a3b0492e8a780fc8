import Mathlib

set_option autoImplicit false

namespace Visit

variable {σ τ α : Type}

def visit (fn : σ → α → σ × Bool) : σ → List α → σ
  | state, [] => state
  | state, x :: rest => if (fn state x).2 then visit fn (fn state x).1 rest else (fn state x).1

@[simp] theorem visit_nil (fn : σ → α → σ × Bool) (state : σ) : visit fn state [] = state := rfl

theorem visit_cons (fn : σ → α → σ × Bool) (state : σ) (x : α) (rest : List α) :
    visit fn state (x :: rest) =
      if (fn state x).2 then visit fn (fn state x).1 rest else (fn state x).1 := rfl

theorem foldl_push (found xs : List α) :
    xs.foldl (fun found x => found ++ [x]) found = found ++ xs := by
  induction xs generalizing found with
  | nil => simp
  | cons x rest ih => simp [ih]

def collect (found : List α) (x : α) : List α × Bool := (found ++ [x], true)

theorem visit_collect (found xs : List α) : visit collect found xs = found ++ xs := by
  induction xs generalizing found with
  | nil => simp
  | cons x rest ih => simp [visit_cons, collect, ih]

theorem visit_limit (step : σ → α → σ) (count : σ → Nat) (limit : Nat)
    (counts : ∀ state x, count (step state x) = count state + 1) (state : σ) (xs : List α) :
    visit (fun state x => (step state x, decide (count (step state x) < limit))) state xs =
      (xs.take (max 1 (limit - count state))).foldl step state := by
  induction xs generalizing state with
  | nil => simp
  | cons x rest ih =>
    rw [visit_cons]
    by_cases more : count state + 1 < limit
    · have width : max 1 (limit - count state) = max 1 (limit - (count state + 1)) + 1 := by omega
      have tail := ih (step state x)
      rw [counts] at tail
      rw [width, List.take_succ_cons, List.foldl_cons, ← tail]
      simp [counts, more]
    · have width : max 1 (limit - count state) = 1 := by omega
      simp [counts, more, width]

end Visit
