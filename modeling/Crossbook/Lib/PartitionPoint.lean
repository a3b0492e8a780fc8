import Mathlib

set_option autoImplicit false

namespace PartitionPoint

section Search

variable {α : Type} (p : α → Bool) (xs : List α)

/-- Halves the `len` elements from `first` on until it is known where `p` stops holding. -/
def search (first len : Nat) : Nat :=
  if len = 0 then first
  else
    let half := len / 2
    match xs[first + half]? with
    | none => first
    | some x => if p x then search (first + half + 1) (len - half - 1) else search first half
termination_by len

def partitionPoint : Nat := search p xs 0 xs.length

end Search

variable {α : Type} {p : α → Bool} {xs front back : List α}

theorem search_split (holds : ∀ x ∈ front, p x = true) (fails : ∀ x ∈ back, p x = false)
    {first len : Nat} (low : first ≤ front.length) (high : front.length ≤ first + len)
    (inside : first + len ≤ (front ++ back).length) :
    search p (front ++ back) first len = front.length := by
  fun_induction search p (front ++ back) first len with
  | case1 first => omega
  | case2 first len some_ half missing =>
    rw [List.getElem?_eq_none_iff] at missing
    omega
  | case3 first len some_ half x found holdsHere ih =>
    have before : first + half < front.length := by
      by_contra behind
      rw [List.getElem?_append_right (not_lt.mp behind)] at found
      rw [fails x (List.mem_of_getElem? found)] at holdsHere
      contradiction
    exact ih (by omega) (by omega) (by omega)
  | case4 first len some_ half x found failsHere ih =>
    have behind : front.length ≤ first + half := by
      by_contra before
      rw [List.getElem?_append_left (not_le.mp before)] at found
      exact failsHere (holds x (List.mem_of_getElem? found))
    exact ih low behind (by omega)

theorem partitionPoint_append (holds : ∀ x ∈ front, p x = true) (fails : ∀ x ∈ back, p x = false) :
    partitionPoint p (front ++ back) = front.length :=
  search_split holds fails (Nat.zero_le _) (by simp) (by simp)

section Closed

-- Once `p` has stopped holding it never comes back.
variable (closed : xs.Pairwise fun x y => p y = true → p x = true)

include closed

theorem dropWhile_fails : ∀ x ∈ xs.dropWhile p, p x = false := by
  have later := closed.sublist (List.dropWhile_suffix p (l := xs)).sublist
  have stop := List.head?_dropWhile_not p xs
  cases rest : xs.dropWhile p with
  | nil => simp
  | cons y rest' =>
    rw [rest] at later stop
    have here : p y = false := by simpa using stop
    intro x member
    rcases List.mem_cons.mp member with rfl | member
    · exact here
    · by_contra met
      have back := (List.pairwise_cons.mp later).1 x member (by simpa using met)
      rw [here] at back
      contradiction

theorem takeWhile_eq_filter : xs.takeWhile p = xs.filter p := by
  have holds : ∀ x ∈ xs.takeWhile p, p x = true := fun x member => List.mem_takeWhile_imp member
  have none : (xs.dropWhile p).filter p = [] :=
    List.filter_eq_nil_iff.mpr fun x member => by simp [dropWhile_fails closed x member]
  calc xs.takeWhile p
      = (xs.takeWhile p ++ xs.dropWhile p).filter p := by
        rw [List.filter_append, List.filter_eq_self.mpr holds, none, List.append_nil]
    _ = xs.filter p := by rw [List.takeWhile_append_dropWhile]

theorem partitionPoint_eq : partitionPoint p xs = (xs.filter p).length := by
  have holds : ∀ x ∈ xs.takeWhile p, p x = true := fun x member => List.mem_takeWhile_imp member
  have point := partitionPoint_append holds (dropWhile_fails closed)
  rwa [List.takeWhile_append_dropWhile, takeWhile_eq_filter closed] at point

theorem take_partitionPoint : xs.take (partitionPoint p xs) = xs.filter p := by
  rw [partitionPoint_eq closed, ← takeWhile_eq_filter closed]
  exact (List.prefix_iff_eq_take.mp (List.takeWhile_prefix p)).symm

end Closed

end PartitionPoint
