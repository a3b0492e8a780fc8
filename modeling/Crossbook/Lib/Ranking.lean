import Crossbook.Lib.SortedList

set_option autoImplicit false

namespace Ranking

variable {α : Type} (after : α → α → Bool)

def slideIn (sorted : List α) (key : α) : List α :=
  sorted.rdropWhile (fun x => after x key) ++ key :: sorted.rtakeWhile (fun x => after x key)

def insertionSort (xs : List α) : List α := xs.foldl (slideIn after) []

def keepFirst (leader : Option α) (candidate : α) : Option α :=
  match leader with
  | none => some candidate
  | some held => if after held candidate then some candidate else some held

def first (xs : List α) : Option α := xs.foldl (keepFirst after) none

structure StrictOrder : Prop where
  irrefl : ∀ a, after a a = false
  trans : ∀ a b c, after a b = true → after b c = true → after a c = true

def Sorted (xs : List α) : Prop := xs.Pairwise (fun a b => after b a = true)

def Untied (xs : List α) : Prop := xs.Pairwise (fun a b => after a b = true ∨ after b a = true)

variable {after}

theorem Untied.perm {xs ys : List α} (untied : Untied after xs) (perm : xs.Perm ys) :
    Untied after ys :=
  perm.pairwise untied fun related => related.symm

theorem rdropWhile_append_rtakeWhile (p : α → Bool) (xs : List α) :
    xs.rdropWhile p ++ xs.rtakeWhile p = xs := by
  rw [List.rdropWhile, List.rtakeWhile, ← List.reverse_append, List.takeWhile_append_dropWhile,
    List.reverse_reverse]

theorem slideIn_perm (after : α → α → Bool) (sorted : List α) (key : α) :
    (slideIn after sorted key).Perm (key :: sorted) := by
  have whole := rdropWhile_append_rtakeWhile (fun x => after x key) sorted
  calc (slideIn after sorted key).Perm
        (key :: (sorted.rdropWhile (fun x => after x key) ++
          sorted.rtakeWhile (fun x => after x key))) := List.perm_middle
    _ = key :: sorted := by rw [whole]

theorem foldl_slideIn_perm (sorted xs : List α) :
    (xs.foldl (slideIn after) sorted).Perm (sorted ++ xs) := by
  induction xs generalizing sorted with
  | nil => simp
  | cons key rest ih =>
    have moved := (slideIn_perm after sorted key).append_right rest
    exact (ih (slideIn after sorted key)).trans (moved.trans List.perm_middle.symm)

theorem insertionSort_perm (after : α → α → Bool) (xs : List α) : (insertionSort after xs).Perm xs :=
  foldl_slideIn_perm [] xs

-- The last element kept by the shift is the only one compared with `key`; what lies before it
-- ranks before it.
theorem not_after_of_mem_rdropWhile (order : StrictOrder after) {sorted : List α} {key : α}
    (ordered : Sorted after sorted) (x : α)
    (member : x ∈ sorted.rdropWhile (fun x => after x key)) : after x key = false := by
  induction sorted using List.reverseRecOn with
  | nil => simp at member
  | append_singleton front last ih =>
    have parts := List.pairwise_append.mp ordered
    by_cases beyond : after last key = true
    · rw [List.rdropWhile_concat, if_pos beyond] at member
      exact ih parts.1 member
    · rw [List.rdropWhile_concat, if_neg beyond] at member
      rcases List.mem_append.mp member with inFront | isLast
      · by_contra shifted
        have later := parts.2.2 x inFront last (by simp)
        exact beyond (order.trans last x key later (by simpa using shifted))
      · rw [List.mem_singleton.mp isLast]
        simpa using beyond

theorem slideIn_sorted (order : StrictOrder after) {sorted : List α} {key : α}
    (ordered : Sorted after sorted)
    (untied : ∀ x ∈ sorted, after x key = true ∨ after key x = true) :
    Sorted after (slideIn after sorted key) := by
  have whole := rdropWhile_append_rtakeWhile (fun x => after x key) sorted
  have parts := ordered
  rw [Sorted, ← whole, List.pairwise_append] at parts
  have kept : ∀ x ∈ sorted.rdropWhile (fun x => after x key), after key x = true := by
    intro x member
    have stays := not_after_of_mem_rdropWhile order ordered x member
    have listed := (List.rdropWhile_prefix (fun x => after x key) (l := sorted)).subset member
    exact (untied x listed).resolve_left (by simp [stays])
  refine List.pairwise_append.mpr ⟨parts.1, List.pairwise_cons.mpr ⟨?_, parts.2.1⟩, ?_⟩
  · intro x member
    exact List.mem_rtakeWhile_imp (p := fun x => after x key) member
  · intro x inFront y inBack
    rcases List.mem_cons.mp inBack with rfl | shifted
    · exact kept x inFront
    · exact parts.2.2 x inFront y shifted

theorem foldl_slideIn_sorted (order : StrictOrder after) (sorted xs : List α)
    (ordered : Sorted after sorted) (untied : Untied after (sorted ++ xs)) :
    Sorted after (xs.foldl (slideIn after) sorted) := by
  induction xs generalizing sorted with
  | nil => exact ordered
  | cons key rest ih =>
    have parts := List.pairwise_append.mp untied
    apply ih (slideIn after sorted key)
    · exact slideIn_sorted order ordered fun x member => parts.2.2 x member key (by simp)
    · exact untied.perm (List.perm_middle.trans
        ((slideIn_perm after sorted key).append_right rest).symm)

theorem insertionSort_sorted (order : StrictOrder after) (xs : List α)
    (untied : Untied after xs) : Sorted after (insertionSort after xs) :=
  foldl_slideIn_sorted order [] xs List.Pairwise.nil untied

theorem insertionSort_congr (order : StrictOrder after) {xs ys : List α}
    (untied : Untied after xs) (perm : xs.Perm ys) :
    insertionSort after xs = insertionSort after ys := by
  refine SortedList.eq_of_pairwise (R := fun a b => after b a = true) ?_ ?_
    (insertionSort_sorted order xs untied) (insertionSort_sorted order ys (untied.perm perm)) ?_
  · intro a
    simp [order.irrefl]
  · intro a b c left right
    exact order.trans c b a right left
  · intro a
    exact ((insertionSort_perm after xs).trans (perm.trans (insertionSort_perm after ys).symm)).mem_iff

theorem head?_slideIn (order : StrictOrder after) {sorted : List α} (key : α)
    (ordered : Sorted after sorted) :
    (slideIn after sorted key).head? = keepFirst after sorted.head? key := by
  cases sorted with
  | nil => rfl
  | cons leader rest =>
    by_cases beyond : after leader key = true
    · have all : ∀ x ∈ leader :: rest, after x key = true := by
        intro x member
        rcases List.mem_cons.mp member with rfl | later
        · exact beyond
        · exact order.trans x leader key (List.rel_of_pairwise_cons ordered later) beyond
      have none : (leader :: rest).rdropWhile (fun x => after x key) = [] :=
        List.rdropWhile_eq_nil_iff.mpr all
      simp [slideIn, none, keepFirst, beyond]
    · have some : (leader :: rest).rdropWhile (fun x => after x key) ≠ [] := by
        intro none
        exact beyond (List.rdropWhile_eq_nil_iff.mp none leader (by simp))
      obtain ⟨x, kept, shape⟩ := List.exists_cons_of_ne_nil some
      have start := List.rdropWhile_prefix (fun x => after x key) (l := leader :: rest)
      rw [shape, List.cons_prefix_cons] at start
      simp [slideIn, shape, start.1, keepFirst, beyond]

theorem foldl_keepFirst (order : StrictOrder after) (sorted xs : List α)
    (ordered : Sorted after sorted) (untied : Untied after (sorted ++ xs)) :
    xs.foldl (keepFirst after) sorted.head? = (xs.foldl (slideIn after) sorted).head? := by
  induction xs generalizing sorted with
  | nil => rfl
  | cons key rest ih =>
    have parts := List.pairwise_append.mp untied
    rw [List.foldl_cons, List.foldl_cons, ← head?_slideIn order key ordered]
    apply ih (slideIn after sorted key)
    · exact slideIn_sorted order ordered fun x member => parts.2.2 x member key (by simp)
    · exact untied.perm (List.perm_middle.trans
        ((slideIn_perm after sorted key).append_right rest).symm)

theorem first_eq_head? (order : StrictOrder after) (xs : List α) (untied : Untied after xs) :
    first after xs = (insertionSort after xs).head? :=
  foldl_keepFirst order [] xs List.Pairwise.nil untied

theorem first_congr (order : StrictOrder after) {xs ys : List α} (untied : Untied after xs)
    (perm : xs.Perm ys) : first after xs = first after ys := by
  rw [first_eq_head? order xs untied, first_eq_head? order ys (untied.perm perm),
    insertionSort_congr order untied perm]

theorem foldl_keepFirst_some (held : α) (xs : List α) :
    ∃ kept, xs.foldl (keepFirst after) (some held) = some kept := by
  induction xs generalizing held with
  | nil => exact ⟨held, rfl⟩
  | cons x rest ih =>
    rw [List.foldl_cons, keepFirst]
    split
    next => exact ih x
    next => exact ih held

theorem first_eq_none (xs : List α) : first after xs = none ↔ xs = [] := by
  cases xs with
  | nil => simp [first]
  | cons x rest =>
    obtain ⟨kept, chosen⟩ := @foldl_keepFirst_some α after x rest
    have found : first after (x :: rest) = some kept := chosen
    simp [found]

theorem first_eq_some (order : StrictOrder after) (xs : List α) (untied : Untied after xs)
    (winner : α) (chosen : first after xs = some winner) :
    winner ∈ xs ∧ ∀ x ∈ xs, x = winner ∨ after x winner = true := by
  rw [first_eq_head? order xs untied] at chosen
  obtain ⟨rest, shape⟩ := List.head?_eq_some_iff.mp chosen
  have perm := insertionSort_perm after xs
  have ordered := insertionSort_sorted order xs untied
  rw [shape] at perm ordered
  refine ⟨perm.mem_iff.mp (by simp), ?_⟩
  intro x member
  rcases List.mem_cons.mp (perm.mem_iff.mpr member) with same | later
  · exact .inl same
  · exact .inr (List.rel_of_pairwise_cons ordered later)

end Ranking
