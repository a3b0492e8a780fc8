import Mathlib

set_option autoImplicit false

namespace Spans

variable {α : Type} {p : α → Bool}

def Stops (p : α → Bool) (xs : List α) : Prop := ∀ x ∈ xs.head?, p x = false

@[simp] theorem stops_nil : Stops p [] := by simp [Stops]

@[simp] theorem stops_cons (x : α) (xs : List α) : Stops p (x :: xs) ↔ p x = false := by
  simp [Stops]

theorem Stops.append {xs ys : List α} (left : Stops p xs) (right : Stops p ys) :
    Stops p (xs ++ ys) := by
  cases xs with
  | nil => exact right
  | cons x xs => simpa using left

theorem stops_dropWhile (xs : List α) : Stops p (xs.dropWhile p) := by
  intro x head
  have stop := List.head?_dropWhile_not p xs
  rw [Option.mem_def.mp head] at stop
  simpa using stop

theorem dropWhile_of_stops {xs : List α} (stops : Stops p xs) : xs.dropWhile p = xs := by
  cases xs with
  | nil => rfl
  | cons x xs => rw [List.dropWhile_cons_of_neg (by simpa using stops)]

theorem takeWhile_of_stops {xs : List α} (stops : Stops p xs) : xs.takeWhile p = [] := by
  cases xs with
  | nil => rfl
  | cons x xs => rw [List.takeWhile_cons_of_neg (by simpa using stops)]

theorem dropWhile_run {run xs : List α} (all : ∀ x ∈ run, p x = true) (stops : Stops p xs) :
    (run ++ xs).dropWhile p = xs := by
  rw [List.dropWhile_append_of_pos all, dropWhile_of_stops stops]

theorem takeWhile_run {run xs : List α} (all : ∀ x ∈ run, p x = true) (stops : Stops p xs) :
    (run ++ xs).takeWhile p = run := by
  rw [List.takeWhile_append_of_pos all, takeWhile_of_stops stops, List.append_nil]

theorem exists_run (p : α → Bool) (xs : List α) :
    ∃ run, (∀ x ∈ run, p x = true) ∧ xs = run ++ xs.dropWhile p := by
  refine ⟨xs.takeWhile p, ?_, List.takeWhile_append_dropWhile.symm⟩
  intro x member
  exact List.mem_takeWhile_imp member

theorem cut_append {cut front back : List α} (isCut : cut <+: front ++ back) :
    cut.length < front.length ∨ ∃ kept, cut = front ++ kept ∧ kept <+: back := by
  by_cases short : cut.length < front.length
  · exact .inl short
  · obtain ⟨kept, rfl⟩ := List.prefix_of_prefix_length_le (List.prefix_append front back) isCut
      (not_lt.mp short)
    exact .inr ⟨kept, rfl, (List.prefix_append_right_inj front).mp isCut⟩

section Split

variable [DecidableEq α]

def splitFirst (x : α) : List α → Option (List α × List α)
  | [] => none
  | y :: rest =>
    if y = x then some ([], rest)
    else (splitFirst x rest).map fun parts => (y :: parts.1, parts.2)

theorem splitFirst_eq_none (x : α) (xs : List α) : splitFirst x xs = none ↔ x ∉ xs := by
  induction xs with
  | nil => simp [splitFirst]
  | cons y rest ih =>
    rw [splitFirst]
    split
    · rename_i here
      simp [here]
    · rename_i other
      simp [ih, Ne.symm other]

theorem splitFirst_eq_some (x : α) (xs before after : List α) :
    splitFirst x xs = some (before, after) ↔ xs = before ++ x :: after ∧ x ∉ before := by
  induction xs generalizing before with
  | nil => simp [splitFirst]
  | cons y rest ih =>
    rw [splitFirst]
    by_cases here : y = x
    · rw [if_pos here, here]
      cases before with
      | nil => simp
      | cons z before =>
        simp only [Option.some.injEq, Prod.mk.injEq, List.nil_eq, reduceCtorEq, false_and,
          List.cons_append, List.cons.injEq, List.mem_cons, not_or, false_iff, not_and, not_not]
        rintro ⟨rfl, _⟩ other
        exact absurd rfl other
    · rw [if_neg here]
      cases before with
      | nil => simp [here]
      | cons z before =>
        simp only [Option.map_eq_some_iff, Prod.mk.injEq, List.cons.injEq, Prod.exists,
          List.cons_append, List.mem_cons, not_or]
        constructor
        · rintro ⟨front, back, found, ⟨rfl, rfl⟩, rfl⟩
          obtain ⟨whole, absent⟩ := (ih front).mp found
          exact ⟨⟨rfl, whole⟩, Ne.symm here, absent⟩
        · rintro ⟨⟨rfl, whole⟩, _, absent⟩
          exact ⟨before, after, (ih before).mpr ⟨whole, absent⟩, ⟨rfl, rfl⟩, rfl⟩

theorem splitFirst_append {x : α} {before : List α} (absent : x ∉ before) (after : List α) :
    splitFirst x (before ++ x :: after) = some (before, after) :=
  (splitFirst_eq_some _ _ _ _).mpr ⟨rfl, absent⟩

theorem length_splitFirst {x : α} {xs before after : List α}
    (found : splitFirst x xs = some (before, after)) :
    xs.length = before.length + (after.length + 1) := by
  rw [((splitFirst_eq_some _ _ _ _).mp found).1, List.length_append, List.length_cons]

theorem cut_cases {x : α} {before after cut : List α} (absent : x ∉ before)
    (isCut : cut <+: before ++ x :: after) :
    cut <+: before ∧ splitFirst x cut = none ∨
      ∃ kept, kept <+: after ∧ cut = before ++ x :: kept ∧
        splitFirst x cut = some (before, kept) := by
  rcases List.prefix_or_prefix_of_prefix isCut (List.prefix_append before (x :: after)) with
    short | ⟨more, rfl⟩
  · exact .inl ⟨short, (splitFirst_eq_none _ _).mpr fun member => absent (short.subset member)⟩
  · rw [List.prefix_append_right_inj, List.prefix_cons_iff] at isCut
    rcases isCut with rfl | ⟨kept, rfl, isKept⟩
    · refine .inl ⟨by rw [List.append_nil], ?_⟩
      rw [List.append_nil, splitFirst_eq_none]
      exact absent
    · exact .inr ⟨kept, isKept, rfl, splitFirst_append absent kept⟩

def splitLast (x : α) (xs : List α) : Option (List α × List α) :=
  (splitFirst x xs.reverse).map fun parts => (parts.2.reverse, parts.1.reverse)

theorem splitLast_eq_none (x : α) (xs : List α) : splitLast x xs = none ↔ x ∉ xs := by
  rw [splitLast, Option.map_eq_none_iff, splitFirst_eq_none, List.mem_reverse]

theorem splitLast_eq_some (x : α) (xs before after : List α) :
    splitLast x xs = some (before, after) ↔ xs = before ++ x :: after ∧ x ∉ after := by
  have turned : xs.reverse = after.reverse ++ x :: before.reverse ↔ xs = before ++ x :: after := by
    rw [← List.reverse_inj, List.reverse_reverse]
    simp
  rw [splitLast, Option.map_eq_some_iff, ← turned]
  constructor
  · rintro ⟨parts, found, same⟩
    obtain ⟨rfl, rfl⟩ := Prod.mk.inj same
    obtain ⟨split, absent⟩ := (splitFirst_eq_some _ _ _ _).mp found
    rw [List.reverse_reverse, List.reverse_reverse, List.mem_reverse]
    exact ⟨split, absent⟩
  · rintro ⟨split, absent⟩
    refine ⟨(after.reverse, before.reverse), (splitFirst_eq_some _ _ _ _).mpr ⟨split, ?_⟩, by simp⟩
    rwa [List.mem_reverse]

end Split

end Spans
