import Mathlib

set_option autoImplicit false

namespace Amortised

variable {σ α : Type}

def charged (step : σ → α → σ) (charge : σ → α → Nat) : σ → List α → Nat
  | _, [] => 0
  | s, call :: rest => charge s call + charged step charge (step s call) rest

theorem balance_le {step : σ → α → σ} {charge : σ → α → Nat} {I : σ → Prop} (balance : σ → Nat)
    (invariant : ∀ s call, I s → I (step s call))
    (account : ∀ s call, I s → balance (step s call) ≤ balance s + charge s call) {s : σ}
    (calls : List α) (holds : I s) :
    balance (calls.foldl step s) ≤ balance s + charged step charge s calls := by
  induction calls generalizing s with
  | nil => simp [charged]
  | cons call rest ih =>
    have first := account s call holds
    have later := ih (invariant s call holds)
    simp only [List.foldl_cons, charged]
    omega

end Amortised
