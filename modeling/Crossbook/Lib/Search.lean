import Mathlib

set_option autoImplicit false

namespace Search

variable {α : Type} [DecidableEq α]

theorem dropInfix?_eq_none (xs needle : List α) :
    xs.dropInfix? needle = none ↔ ¬ needle <:+: xs := by
  constructor
  · intro absent ⟨front, back, split⟩
    classical
    have occurs : ∃ n, ∃ front back : List α, front.length = n ∧ xs = front ++ needle ++ back :=
      ⟨front.length, front, back, rfl, split.symm⟩
    obtain ⟨first, rest, atFirst, here⟩ := Nat.find_spec occurs
    have found : xs.dropInfix? needle = some (first, rest) := by
      refine List.dropInfix?_eq_some_iff.mpr ⟨⟨needle, here, by simp⟩, ?_⟩
      intro front other back split same
      rw [eq_of_beq same] at split
      rw [ge_iff_le, atFirst]
      exact Nat.find_min' occurs ⟨front, back, rfl, split⟩
    rw [found] at absent
    contradiction
  · intro absent
    cases found : xs.dropInfix? needle with
    | none => rfl
    | some parts =>
      obtain ⟨⟨other, split, same⟩, -⟩ := List.dropInfix?_eq_some_iff.mp found
      rw [eq_of_beq same] at split
      exact absurd ⟨parts.1, parts.2, split.symm⟩ absent

theorem eq_of_dropInfix? {xs needle front back : List α}
    (found : xs.dropInfix? needle = some (front, back)) : xs = front ++ needle ++ back := by
  obtain ⟨⟨other, split, same⟩, -⟩ := List.dropInfix?_eq_some_iff.mp found
  rwa [eq_of_beq same] at split

theorem dropInfix?_append {needle front : List α} (clear : ¬ needle <:+: front ++ needle.dropLast)
    (back : List α) : (front ++ needle ++ back).dropInfix? needle = some (front, back) := by
  refine List.dropInfix?_eq_some_iff.mpr ⟨⟨needle, rfl, by simp⟩, ?_⟩
  intro earlier other rest split same
  rw [eq_of_beq same] at split
  by_contra shorter
  -- An earlier occurrence ends before the last element of the one at `front`.
  have inside : earlier.length + needle.length ≤ (front ++ needle.dropLast).length := by
    rw [List.length_append, List.length_dropLast]
    omega
  have whole : (front ++ needle.dropLast) <+: front ++ needle ++ back := by
    rw [List.append_assoc]
    exact (List.prefix_append_right_inj front).mpr
      ((List.dropLast_prefix needle).trans (List.prefix_append needle back))
  have start : earlier ++ needle <+: front ++ needle ++ back := ⟨rest, split.symm⟩
  have within : earlier ++ needle <+: front ++ needle.dropLast :=
    List.prefix_of_prefix_length_le start whole (by simpa using inside)
  exact clear ((List.suffix_append earlier needle).isInfix.trans within.isInfix)

theorem clear_of_dropInfix? {xs needle front back : List α} (some_ : needle ≠ [])
    (found : xs.dropInfix? needle = some (front, back)) : ¬ needle <:+: front ++ needle.dropLast := by
  rintro ⟨earlier, rest, here⟩
  obtain ⟨-, first⟩ := List.dropInfix?_eq_some_iff.mp found
  have whole : xs = earlier ++ needle ++ (rest ++ ([needle.getLast some_] ++ back)) := by
    rw [eq_of_dropInfix? found, ← List.append_assoc (earlier ++ needle), here]
    conv_lhs => rw [← List.dropLast_append_getLast some_]
    simp
  have atFront := first earlier needle _ whole (by simp)
  have lengths := congrArg List.length here
  have positive := List.length_pos_iff.mpr some_
  simp only [List.length_append, List.length_dropLast] at lengths
  omega

theorem length_of_dropInfix? {xs needle front back : List α}
    (found : xs.dropInfix? needle = some (front, back)) :
    front.length + needle.length ≤ xs.length := by
  rw [eq_of_dropInfix? found]
  simp

theorem cut_cases {needle front back cut : List α} (some_ : needle ≠ [])
    (clear : ¬ needle <:+: front ++ needle.dropLast) (isCut : cut <+: front ++ needle ++ back) :
    cut.dropInfix? needle = none ∨ ∃ kept, kept <+: back ∧ cut = front ++ needle ++ kept := by
  rcases List.prefix_or_prefix_of_prefix isCut (List.prefix_append (front ++ needle) back) with
    short | ⟨kept, rfl⟩
  · rw [← List.dropLast_append_getLast some_, ← List.append_assoc, List.prefix_concat_iff] at short
    rcases short with whole | short
    · rw [List.append_assoc, List.dropLast_append_getLast some_] at whole
      exact .inr ⟨[], List.nil_prefix, by rw [whole, List.append_nil]⟩
    · exact .inl ((dropInfix?_eq_none cut needle).mpr fun occurs => clear (occurs.trans short.isInfix))
  · exact .inr ⟨kept, (List.prefix_append_right_inj _).mp isCut, rfl⟩

omit [DecidableEq α] in
theorem infix_of_absent {x : α} {needle xs ys : List α} (absent : x ∉ xs)
    (occurs : x :: needle <:+: xs ++ ys) : x :: needle <:+: ys := by
  induction xs with
  | nil => exact occurs
  | cons y xs ih =>
    rw [List.cons_append, List.infix_cons_iff] at occurs
    rcases occurs with here | later
    · have same := (List.cons_prefix_cons.mp here).1
      exact absurd (by simp [same]) absent
    · exact ih (fun member => absent (List.mem_cons_of_mem y member)) later

omit [DecidableEq α] in
theorem infix_of_absent_last {x : α} {needle xs ys : List α} (absent : x ∉ ys)
    (occurs : needle ++ [x] <:+: xs ++ ys) : needle ++ [x] <:+: xs := by
  rw [← List.reverse_infix, List.reverse_append, List.reverse_append] at occurs
  have inside := infix_of_absent (by simpa using absent) occurs
  rw [← List.reverse_infix, List.reverse_append]
  exact inside

end Search
