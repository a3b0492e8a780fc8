import Mathlib

set_option autoImplicit false

namespace Loop

variable {σ ρ : Type}

/-- A loop whose body either goes on in a new state or returns, given fuel. -/
def run (body : σ → σ ⊕ ρ) : Nat → σ → Option ρ
  | 0, _ => none
  | fuel + 1, s =>
    match body s with
    | .inl next => run body fuel next
    | .inr result => some result

def Returns (body : σ → σ ⊕ ρ) (s : σ) (result : ρ) : Prop := ∃ fuel, run body fuel s = some result

inductive Reached (body : σ → σ ⊕ ρ) (start : σ) : σ → Prop
  | start : Reached body start start
  | next {s next : σ} : Reached body start s → body s = .inl next → Reached body start next

variable {body : σ → σ ⊕ ρ}

theorem returns_here {s : σ} {result : ρ} (returned : body s = .inr result) :
    Returns body s result := by
  refine ⟨1, ?_⟩
  simp [run, returned]

theorem returns_next {s next : σ} {result : ρ} (again : body s = .inl next)
    (later : Returns body next result) : Returns body s result := by
  obtain ⟨fuel, runs⟩ := later
  refine ⟨fuel + 1, ?_⟩
  simpa [run, again] using runs

theorem run_add {fuel : Nat} {s : σ} {result : ρ} (runs : run body fuel s = some result)
    (extra : Nat) : run body (fuel + extra) s = some result := by
  induction fuel generalizing s with
  | zero => simp [run] at runs
  | succ fuel ih =>
    rw [Nat.add_right_comm]
    cases taken : body s with
    | inl next =>
      simp only [run, taken] at runs ⊢
      exact ih runs
    | inr returned =>
      simp only [run, taken] at runs ⊢
      exact runs

theorem Returns.unique {s : σ} {first second : ρ} (left : Returns body s first)
    (right : Returns body s second) : first = second := by
  obtain ⟨fuel, runsFirst⟩ := left
  obtain ⟨more, runsSecond⟩ := right
  have same := (run_add runsFirst more).symm.trans (Nat.add_comm more fuel ▸ run_add runsSecond fuel)
  exact Option.some.inj same

theorem returns_of_measure (measure : σ → Nat) {start : σ}
    (lowers : ∀ s next, Reached body start s → body s = .inl next → measure next < measure s) :
    ∃ result, Returns body start result := by
  have from_reached (bound : Nat) : ∀ s, Reached body start s → measure s ≤ bound →
      ∃ result, Returns body s result := by
    induction bound with
    | zero =>
      intro s reached low
      cases taken : body s with
      | inl next =>
        have lower := lowers s next reached taken
        omega
      | inr result => exact ⟨result, returns_here taken⟩
    | succ bound ih =>
      intro s reached low
      cases taken : body s with
      | inl next =>
        have lower := lowers s next reached taken
        obtain ⟨result, later⟩ := ih next (.next reached taken) (by omega)
        exact ⟨result, returns_next taken later⟩
      | inr result => exact ⟨result, returns_here taken⟩
  exact from_reached (measure start) start .start le_rfl

theorem run_of_trapped {I : σ → Prop} (trapped : ∀ s, I s → ∃ next, body s = .inl next ∧ I next)
    (fuel : Nat) {s : σ} (inside : I s) : run body fuel s = none := by
  induction fuel generalizing s with
  | zero => rfl
  | succ fuel ih =>
    obtain ⟨next, taken, stays⟩ := trapped s inside
    simpa [run, taken] using ih stays

end Loop
