import Mathlib

set_option autoImplicit false

namespace Run

variable {σ α : Type}

def Always (step : σ → α → σ) (P : σ → Prop) (s : σ) (calls : List α) : Prop :=
  ∀ before, before <+: calls → P (before.foldl step s)

def EachCall (step : σ → α → σ) (G : σ → α → Prop) (s : σ) (calls : List α) : Prop :=
  ∀ before call, before ++ [call] <+: calls → G (before.foldl step s) call

variable {step : σ → α → σ} {P : σ → Prop} {G : σ → α → Prop}

theorem always_nil (s : σ) : Always step P s [] ↔ P s := by
  simp [Always]

theorem always_cons (s : σ) (call : α) (rest : List α) :
    Always step P s (call :: rest) ↔ P s ∧ Always step P (step s call) rest := by
  constructor
  · intro always
    refine ⟨always [] List.nil_prefix, ?_⟩
    intro before isPrefix
    exact always (call :: before) (List.cons_prefix_cons.mpr ⟨rfl, isPrefix⟩)
  · intro ⟨first, always⟩ before isPrefix
    cases before with
    | nil => exact first
    | cons head before =>
      obtain ⟨rfl, tail⟩ := List.cons_prefix_cons.mp isPrefix
      exact always before tail

theorem eachCall_nil (s : σ) : EachCall step G s [] := by
  simp [EachCall]

theorem eachCall_cons (s : σ) (call : α) (rest : List α) :
    EachCall step G s (call :: rest) ↔ G s call ∧ EachCall step G (step s call) rest := by
  constructor
  · intro each
    refine ⟨each [] call ?_, ?_⟩
    · exact List.cons_prefix_cons.mpr ⟨rfl, List.nil_prefix⟩
    · intro before next isPrefix
      exact each (call :: before) next (List.cons_prefix_cons.mpr ⟨rfl, isPrefix⟩)
  · intro ⟨first, each⟩ before next isPrefix
    cases before with
    | nil =>
      obtain ⟨rfl, -⟩ := List.cons_prefix_cons.mp isPrefix
      exact first
    | cons head before =>
      obtain ⟨rfl, tail⟩ := List.cons_prefix_cons.mp isPrefix
      exact each before next tail

theorem Always.last {s : σ} {calls : List α} (always : Always step P s calls) :
    P (calls.foldl step s) :=
  always calls List.prefix_rfl

theorem always_of_invariant (preserved : ∀ s call, P s → G s call → P (step s call)) {s : σ}
    (calls : List α) (start : P s) (allowed : EachCall step G s calls) :
    Always step P s calls := by
  induction calls generalizing s with
  | nil => exact (always_nil s).mpr start
  | cons call rest ih =>
    obtain ⟨first, later⟩ := (eachCall_cons s call rest).mp allowed
    exact (always_cons s call rest).mpr ⟨start, ih (preserved s call start first) later⟩

theorem eachCall_of_forall {s : σ} {calls : List α} (every : ∀ s, ∀ call ∈ calls, G s call) :
    EachCall step G s calls := by
  intro before call isPrefix
  exact every _ call (isPrefix.subset (by simp))

theorem eachCall_of_always {s : σ} {calls : List α} (always : Always step P s calls)
    (implied : ∀ s call, P s → G s call) : EachCall step G s calls := by
  intro before call isPrefix
  have earlier : before <+: calls := (List.prefix_append before [call]).trans isPrefix
  exact implied _ call (always before earlier)

theorem foldl_invariant (preserved : ∀ s call, P s → P (step s call)) {s : σ} (calls : List α)
    (start : P s) : P (calls.foldl step s) := by
  induction calls generalizing s with
  | nil => exact start
  | cons call rest ih => exact ih (preserved s call start)

theorem always_iff_eachCall {I : σ → Prop} (invariant : ∀ s call, I s → I (step s call))
    (exact_step : ∀ s call, I s → P s → (P (step s call) ↔ G s call)) {s : σ} (calls : List α)
    (holds : I s) (start : P s) : Always step P s calls ↔ EachCall step G s calls := by
  induction calls generalizing s with
  | nil =>
    rw [always_nil]
    exact ⟨fun _ => eachCall_nil s, fun _ => start⟩
  | cons call rest ih =>
    have next := ih (invariant s call holds)
    rw [always_cons, eachCall_cons]
    constructor
    · intro ⟨_, later⟩
      have kept : P (step s call) := later [] List.nil_prefix
      exact ⟨(exact_step s call holds start).mp kept, (next kept).mp later⟩
    · intro ⟨allowed, later⟩
      have kept := (exact_step s call holds start).mpr allowed
      exact ⟨start, (next kept).mpr later⟩

end Run
