import Mathlib

set_option autoImplicit false

namespace OrderStatistic

variable {α : Type}

theorem countP_lt_succ (key : α → Nat) (xs : List α) (n : Nat) :
    (xs.countP fun x => key x < n + 1) =
      (xs.countP fun x => key x < n) + xs.countP fun x => key x = n := by
  induction xs with
  | nil => rfl
  | cons x rest ih =>
    simp only [List.countP_cons, ih, decide_eq_true_eq]
    split_ifs <;> omega

variable [LinearOrder α] [Inhabited α]

def sorted (xs : List α) : List α := xs.insertionSort (· ≤ ·)

def smallest (xs : List α) (k : Nat) : α := (sorted xs).getD (k - 1) default

section Sorted

variable {xs : List α} {k : Nat}

omit [Inhabited α] in
theorem sorted_perm (xs : List α) : (sorted xs).Perm xs := List.perm_insertionSort _ xs

omit [Inhabited α] in
theorem sorted_length (xs : List α) : (sorted xs).length = xs.length := (sorted_perm xs).length_eq

omit [Inhabited α] in
theorem sorted_pairwise (xs : List α) : (sorted xs).Pairwise (· ≤ ·) :=
  List.pairwise_insertionSort _ xs

theorem smallest_eq (inside : k - 1 < (sorted xs).length) : smallest xs k = (sorted xs)[k - 1] := by
  rw [smallest, List.getD_eq_getElem _ _ inside]

theorem smallest_mem (positive : 1 ≤ k) (within : k ≤ xs.length) : smallest xs k ∈ xs := by
  have inside : k - 1 < (sorted xs).length := by
    rw [sorted_length]
    omega
  rw [smallest_eq inside]
  exact (sorted_perm xs).subset (List.getElem_mem inside)

theorem smallest_mono {j : Nat} (positive : 1 ≤ j) (later : j ≤ k) (within : k ≤ xs.length) :
    smallest xs j ≤ smallest xs k := by
  have inside : k - 1 < (sorted xs).length := by
    rw [sorted_length]
    omega
  rw [smallest_eq (by omega), smallest_eq inside]
  rcases Nat.eq_or_lt_of_le later with rfl | before
  · exact le_rfl
  · exact List.pairwise_iff_getElem.mp (sorted_pairwise xs) _ _ _ _ (by omega)

theorem le_smallest_length {x : α} (member : x ∈ xs) : x ≤ smallest xs xs.length := by
  obtain ⟨i, inside, rfl⟩ := List.mem_iff_getElem.mp ((sorted_perm xs).mem_iff.mpr member)
  have length := sorted_length xs
  rw [smallest_eq (by omega)]
  rcases Nat.eq_or_lt_of_le (show i ≤ xs.length - 1 by omega) with same | before
  · exact le_of_eq (by congr)
  · exact List.pairwise_iff_getElem.mp (sorted_pairwise xs) _ _ _ _ before

theorem countP_lt_smallest (positive : 1 ≤ k) (within : k ≤ xs.length) :
    (xs.countP fun x => x < smallest xs k) < k := by
  have inside : k - 1 < (sorted xs).length := by
    rw [sorted_length]
    omega
  rw [← (sorted_perm xs).countP_eq, smallest_eq inside]
  have none : ((sorted xs).drop (k - 1)).countP (fun x => x < (sorted xs)[k - 1]) = 0 := by
    rw [List.countP_eq_zero]
    intro x member
    obtain ⟨i, short, rfl⟩ := List.mem_iff_getElem.mp member
    rw [decide_eq_true_eq, not_lt, List.getElem_drop]
    rcases Nat.eq_zero_or_pos i with rfl | later
    · exact le_rfl
    · exact List.pairwise_iff_getElem.mp (sorted_pairwise xs) _ _ _ _ (by omega)
  have split : ((sorted xs).take (k - 1) ++ (sorted xs).drop (k - 1)).countP
      (fun x => decide (x < (sorted xs)[k - 1])) = _ := List.countP_append
  rw [List.take_append_drop, none] at split
  have few := List.countP_le_length (p := fun x => decide (x < (sorted xs)[k - 1]))
    (l := (sorted xs).take (k - 1))
  rw [List.length_take] at few
  omega

theorem le_countP_smallest (positive : 1 ≤ k) (within : k ≤ xs.length) :
    k ≤ xs.countP fun x => x ≤ smallest xs k := by
  have inside : k - 1 < (sorted xs).length := by
    rw [sorted_length]
    omega
  rw [← (sorted_perm xs).countP_eq, smallest_eq inside]
  have all : ((sorted xs).take k).countP (fun x => x ≤ (sorted xs)[k - 1]) =
      ((sorted xs).take k).length := by
    rw [List.countP_eq_length]
    intro x member
    obtain ⟨i, short, rfl⟩ := List.mem_iff_getElem.mp member
    rw [List.length_take] at short
    rw [decide_eq_true_eq, List.getElem_take]
    rcases Nat.eq_or_lt_of_le (show i ≤ k - 1 by omega) with same | before
    · exact le_of_eq (by congr)
    · exact List.pairwise_iff_getElem.mp (sorted_pairwise xs) _ _ _ _ before
  have part := (List.take_sublist k (sorted xs)).countP_le
    (p := fun x => decide (x ≤ (sorted xs)[k - 1]))
  rw [all, List.length_take] at part
  omega

variable {key : α → Nat} (ordered : ∀ x ∈ xs, ∀ y ∈ xs, x ≤ y → key x ≤ key y)

include ordered

theorem countP_key_lt (positive : 1 ≤ k) (within : k ≤ xs.length) :
    (xs.countP fun x => key x < key (smallest xs k)) < k := by
  have member := smallest_mem positive within
  apply lt_of_le_of_lt _ (countP_lt_smallest positive within)
  apply List.countP_mono_left
  intro x inside below
  rw [decide_eq_true_eq] at below ⊢
  by_contra above
  exact absurd (ordered _ member x inside (not_lt.mp above)) (not_le.mpr below)

theorem le_countP_key (positive : 1 ≤ k) (within : k ≤ xs.length) :
    k ≤ xs.countP fun x => key x < key (smallest xs k) + 1 := by
  have member := smallest_mem positive within
  apply (le_countP_smallest positive within).trans
  apply List.countP_mono_left
  intro x inside below
  rw [decide_eq_true_eq] at below ⊢
  exact Nat.lt_succ_of_le (ordered x inside _ member below)

theorem le_countP_key_iff (positive : 1 ≤ k) (within : k ≤ xs.length) {bound : Nat} :
    (k ≤ xs.countP fun x => key x ≤ bound) ↔ key (smallest xs k) ≤ bound := by
  constructor
  · intro many
    by_contra above
    have few := countP_key_lt ordered positive within
    have fewer : (xs.countP fun x => key x ≤ bound) ≤
        xs.countP fun x => key x < key (smallest xs k) := by
      apply List.countP_mono_left
      intro x _ inside
      rw [decide_eq_true_eq] at inside ⊢
      omega
    omega
  · intro reached
    apply (le_countP_key ordered positive within).trans
    apply List.countP_mono_left
    intro x _ inside
    rw [decide_eq_true_eq] at inside ⊢
    omega

end Sorted

end OrderStatistic
