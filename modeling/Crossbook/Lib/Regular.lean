import Mathlib

set_option autoImplicit false

namespace Regular

open RegularExpression

variable {α : Type}

def oneOf (symbols : List α) : RegularExpression α := (symbols.map char).sum

def optional (r : RegularExpression α) : RegularExpression α := 1 + r

def atLeastOne (r : RegularExpression α) : RegularExpression α := r * r.star

section Membership

variable {r s : RegularExpression α} {word : List α} {symbols : List α}

theorem mem_char (symbol : α) : word ∈ (char symbol).matches' ↔ word = [symbol] := Iff.rfl

theorem mem_add : word ∈ (r + s).matches' ↔ word ∈ r.matches' ∨ word ∈ s.matches' := Iff.rfl

theorem mem_mul : word ∈ (r * s).matches' ↔
    ∃ front ∈ r.matches', ∃ back ∈ s.matches', front ++ back = word :=
  Language.mem_mul

theorem mem_optional : word ∈ (optional r).matches' ↔ word = [] ∨ word ∈ r.matches' := Iff.rfl

theorem mem_oneOf : word ∈ (oneOf symbols).matches' ↔ ∃ symbol ∈ symbols, word = [symbol] := by
  induction symbols with
  | nil => simp [oneOf]
  | cons symbol later ih =>
    have split : oneOf (symbol :: later) = char symbol + oneOf later := rfl
    rw [split, mem_add, mem_char, ih, List.exists_mem_cons_iff]

theorem mem_star_oneOf : word ∈ (oneOf symbols).star.matches' ↔ ∀ c ∈ word, c ∈ symbols := by
  rw [matches'_star, Language.mem_kstar]
  constructor
  · rintro ⟨pieces, rfl, matched⟩ c member
    obtain ⟨piece, isPiece, inside⟩ := List.mem_flatten.mp member
    obtain ⟨symbol, known, rfl⟩ := mem_oneOf.mp (matched piece isPiece)
    rwa [List.mem_singleton.mp inside]
  · intro known
    refine ⟨word.map fun c => [c], ?_, ?_⟩
    · induction word with
      | nil => rfl
      | cons c rest ih =>
        rw [List.map_cons, List.flatten_cons,
          ← ih fun c member => known c (List.mem_cons_of_mem _ member)]
        rfl
    · intro piece member
      obtain ⟨c, inside, rfl⟩ := List.mem_map.mp member
      exact mem_oneOf.mpr ⟨c, known c inside, rfl⟩

theorem mem_atLeastOne_oneOf : word ∈ (atLeastOne (oneOf symbols)).matches' ↔
    word ≠ [] ∧ ∀ c ∈ word, c ∈ symbols := by
  simp only [atLeastOne, mem_mul, mem_oneOf, mem_star_oneOf]
  constructor
  · rintro ⟨front, ⟨symbol, known, rfl⟩, back, later, rfl⟩
    exact ⟨nofun, List.forall_mem_cons.mpr ⟨known, later⟩⟩
  · rintro ⟨nonempty, known⟩
    cases word with
    | nil => contradiction
    | cons c rest =>
      obtain ⟨first, later⟩ := List.forall_mem_cons.mp known
      exact ⟨[c], ⟨c, first, rfl⟩, rest, later, rfl⟩

end Membership

end Regular
