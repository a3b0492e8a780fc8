import Mathlib

set_option autoImplicit false

namespace Run

variable {σ τ α β : Type}

def respond (step : σ → α → σ × β) : σ → List α → σ × List β
  | s, [] => (s, [])
  | s, input :: rest =>
    let answered := step s input
    let later := respond step answered.1 rest
    (later.1, answered.2 :: later.2)

variable {step : σ → α → σ × β}

theorem respond_state (s : σ) (inputs : List α) :
    (respond step s inputs).1 = inputs.foldl (fun s input => (step s input).1) s := by
  induction inputs generalizing s with
  | nil => rfl
  | cons input rest ih => exact ih (step s input).1

theorem respond_append (s : σ) (front later : List α) :
    respond step s (front ++ later) =
      ((respond step (respond step s front).1 later).1,
        (respond step s front).2 ++ (respond step (respond step s front).1 later).2) := by
  induction front generalizing s with
  | nil => rfl
  | cons input rest ih =>
    simp only [List.cons_append, respond, ih]

theorem length_respond (s : σ) (inputs : List α) :
    (respond step s inputs).2.length = inputs.length := by
  induction inputs generalizing s with
  | nil => rfl
  | cons input rest ih => simp [respond, ih]

/-- A step seen through a view is a step of the viewed machine, with the same answer. -/
def Views (view : σ → τ) (step : σ → α → σ × β) (viewed : τ → α → τ × β) : Prop :=
  ∀ s input, viewed (view s) input = (view (step s input).1, (step s input).2)

theorem Views.respond {view : σ → τ} {viewed : τ → α → τ × β} (views : Views view step viewed)
    (s : σ) (inputs : List α) :
    respond viewed (view s) inputs = (view (respond step s inputs).1, (respond step s inputs).2) := by
  induction inputs generalizing s with
  | nil => rfl
  | cons input rest ih =>
    simp only [Run.respond, views s input, ih]

end Run
