import Mathlib

set_option autoImplicit false

namespace KeyedList

variable {α K : Type} [DecidableEq K] (key : α → K)

def put (y : α) : List α → List α
  | [] => [y]
  | x :: rest => if key x = key y then y :: rest else x :: put y rest

def drop (k : K) : List α → List α
  | [] => []
  | x :: rest => if key x = k then rest else x :: drop k rest

def Distinct (xs : List α) : Prop := (xs.map key).Nodup

variable {key}

omit [DecidableEq K] in
theorem Distinct.cons {x : α} {rest : List α} :
    Distinct key (x :: rest) ↔ (∀ y ∈ rest, key y ≠ key x) ∧ Distinct key rest := by
  simp [Distinct, List.nodup_cons]

omit [DecidableEq K] in
theorem Distinct.eq_of_key {xs : List α} (distinct : Distinct key xs) {x y : α} (left : x ∈ xs)
    (right : y ∈ xs) (same : key x = key y) : x = y :=
  List.inj_on_of_nodup_map distinct left right same

theorem Distinct.mem_put {xs : List α} (distinct : Distinct key xs) (y z : α) :
    z ∈ put key y xs ↔ z = y ∨ z ∈ xs ∧ key z ≠ key y := by
  induction xs with
  | nil => simp [put]
  | cons x rest ih =>
    obtain ⟨fresh, tail⟩ := Distinct.cons.mp distinct
    rw [put]
    split
    next same =>
      have others : z ∈ rest → key z ≠ key y := fun member => same ▸ fresh z member
      have replaced : z = x → key z = key y := fun first => first ▸ same
      simp only [List.mem_cons]
      tauto
    next differ =>
      have kept : z = x → key z ≠ key y := fun first => first ▸ differ
      simp only [List.mem_cons, ih tail]
      tauto

theorem Distinct.put {xs : List α} (distinct : Distinct key xs) (y : α) :
    Distinct key (put key y xs) := by
  induction xs with
  | nil => simp [KeyedList.put, Distinct]
  | cons x rest ih =>
    obtain ⟨fresh, tail⟩ := Distinct.cons.mp distinct
    rw [KeyedList.put]
    split
    next same => exact Distinct.cons.mpr ⟨fun z member => same ▸ fresh z member, tail⟩
    next differ =>
      refine Distinct.cons.mpr ⟨?_, ih tail⟩
      intro z member
      rcases (tail.mem_put y z).mp member with rfl | ⟨held, -⟩
      · exact Ne.symm differ
      · exact fresh z held

theorem Distinct.mem_drop {xs : List α} (distinct : Distinct key xs) (k : K) (z : α) :
    z ∈ drop key k xs ↔ z ∈ xs ∧ key z ≠ k := by
  induction xs with
  | nil => simp [drop]
  | cons x rest ih =>
    obtain ⟨fresh, tail⟩ := Distinct.cons.mp distinct
    rw [drop]
    split
    next same =>
      have others : z ∈ rest → key z ≠ k := fun member => same ▸ fresh z member
      have dropped : z = x → key z = k := fun first => first ▸ same
      simp only [List.mem_cons]
      tauto
    next differ =>
      have kept : z = x → key z ≠ k := fun first => first ▸ differ
      simp only [List.mem_cons, ih tail]
      tauto

theorem Distinct.drop {xs : List α} (distinct : Distinct key xs) (k : K) :
    Distinct key (drop key k xs) := by
  induction xs with
  | nil => exact distinct
  | cons x rest ih =>
    obtain ⟨fresh, tail⟩ := Distinct.cons.mp distinct
    rw [KeyedList.drop]
    split
    next same => exact tail
    next differ =>
      exact Distinct.cons.mpr ⟨fun z member => fresh z ((tail.mem_drop k z).mp member).1, ih tail⟩

omit [DecidableEq K] in
theorem Distinct.perm {xs ys : List α} (left : Distinct key xs) (right : Distinct key ys)
    (same : ∀ x, x ∈ xs ↔ x ∈ ys) : xs.Perm ys :=
  (List.perm_ext_iff_of_nodup left.of_map right.of_map).mpr same

omit [DecidableEq K] in
theorem Distinct.filterMap {β : Type} {key' : β → K} {f : α → Option β} {xs : List α}
    (distinct : Distinct key xs) (kept : ∀ x y, f x = some y → key' y = key x) :
    Distinct key' (xs.filterMap f) := by
  rw [Distinct, List.Nodup, List.pairwise_map] at distinct ⊢
  refine List.pairwise_filterMap.mpr (distinct.imp ?_)
  intro a b differ y left z right
  rw [kept a y left, kept b z right]
  exact differ

end KeyedList
