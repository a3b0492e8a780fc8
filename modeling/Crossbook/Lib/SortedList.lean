import Mathlib

set_option autoImplicit false

namespace SortedList

variable {α K : Type} [LinearOrder K] (key : α → K)

def Ascending (xs : List α) : Prop := xs.Pairwise (fun a b => key a < key b)

def lowerBound (k : K) (xs : List α) : Nat := (xs.takeWhile (fun x => key x < k)).length

theorem take_lowerBound (k : K) (xs : List α) :
    xs.take (lowerBound key k xs) = xs.takeWhile (fun x => key x < k) :=
  (List.prefix_iff_eq_take.mp (List.takeWhile_prefix _)).symm

theorem below_lowerBound (k : K) (xs : List α) (x : α) (member : x ∈ xs.take (lowerBound key k xs)) :
    key x < k := by
  rw [take_lowerBound] at member
  simpa using List.mem_takeWhile_imp member

theorem drop_lowerBound (k : K) (xs : List α) :
    xs.drop (lowerBound key k xs) = xs.dropWhile (fun x => key x < k) := by
  have whole := List.take_append_drop (lowerBound key k xs) xs
  rw [take_lowerBound] at whole
  exact List.append_cancel_left
    (whole.trans (List.takeWhile_append_dropWhile (p := fun x => decide (key x < k))).symm)

theorem above_lowerBound (k : K) (xs : List α) (sorted : Ascending key xs) (x : α)
    (member : x ∈ xs.drop (lowerBound key k xs)) : k ≤ key x := by
  rw [drop_lowerBound] at member
  have tail : Ascending key (xs.dropWhile (fun x => key x < k)) :=
    sorted.sublist (List.dropWhile_sublist _)
  cases rest : xs.dropWhile (fun x => decide (key x < k)) with
  | nil => simp [rest] at member
  | cons y ys =>
    have first : k ≤ key y := by
      have := List.head?_dropWhile_not (fun x => decide (key x < k)) xs
      simpa [rest] using this
    rw [rest] at member tail
    rcases List.mem_cons.mp member with rfl | later
    · exact first
    · exact first.trans (List.rel_of_pairwise_cons tail later).le

def upsert (k : K) (y : α) (xs : List α) : List α :=
  match xs[lowerBound key k xs]? with
  | some x => if key x = k then xs.set (lowerBound key k xs) y
      else xs.insertIdx (lowerBound key k xs) y
  | none => xs.insertIdx (lowerBound key k xs) y

def eraseKey (k : K) (xs : List α) : List α :=
  match xs[lowerBound key k xs]? with
  | some x => if key x = k then xs.eraseIdx (lowerBound key k xs) else xs
  | none => xs

theorem split_at (k : K) (xs : List α) (sorted : Ascending key xs) :
    ∃ lower upper, (∀ x ∈ lower, key x < k) ∧ (∀ x ∈ upper, k < key x) ∧
      lowerBound key k xs = lower.length ∧
      (xs = lower ++ upper ∨ ∃ x, key x = k ∧ xs = lower ++ x :: upper) := by
  have whole := List.take_append_drop (lowerBound key k xs) xs
  have lower := below_lowerBound key k xs
  have upper := above_lowerBound key k xs sorted
  have length : (xs.take (lowerBound key k xs)).length = lowerBound key k xs := by
    rw [take_lowerBound]; rfl
  have tail : Ascending key (xs.drop (lowerBound key k xs)) :=
    sorted.sublist (List.drop_sublist _ _)
  cases rest : xs.drop (lowerBound key k xs) with
  | nil =>
    refine ⟨_, [], lower, by simp, length.symm, .inl ?_⟩
    rw [rest] at whole
    exact whole.symm
  | cons y ys =>
    rw [rest] at whole upper tail
    have later : ∀ z ∈ ys, key y < key z := fun z => List.rel_of_pairwise_cons tail
    rcases (upper y (by simp)).eq_or_lt with same | above
    · exact ⟨_, ys, lower, fun z member => same ▸ later z member, length.symm,
        .inr ⟨y, same.symm, whole.symm⟩⟩
    · refine ⟨_, y :: ys, lower, ?_, length.symm, .inl whole.symm⟩
      intro z member
      rcases List.mem_cons.mp member with rfl | member
      · exact above
      · exact above.trans (later z member)

theorem ascending_append {lower upper : List α} {k : K} (below : ∀ x ∈ lower, key x < k)
    (above : ∀ x ∈ upper, k < key x) (sorted : Ascending key (lower ++ upper)) (y : α)
    (same : key y = k) : Ascending key (lower ++ y :: upper) := by
  simp only [Ascending, List.pairwise_append, List.pairwise_cons] at sorted ⊢
  refine ⟨sorted.1, ⟨fun z member => same ▸ above z member, sorted.2.1⟩, ?_⟩
  intro x left z right
  rcases List.mem_cons.mp right with rfl | right
  · exact same ▸ below x left
  · exact sorted.2.2 x left z right

omit [LinearOrder K] in
theorem insertIdx_length_append (lower upper : List α) (y : α) :
    (lower ++ upper).insertIdx lower.length y = lower ++ y :: upper := by
  induction lower with
  | nil => simp
  | cons x rest ih => simp [ih]

theorem upsert_split {lower upper : List α} {k : K} (y : α) {xs : List α}
    (above : ∀ x ∈ upper, k < key x) (bound : lowerBound key k xs = lower.length)
    (whole : xs = lower ++ upper ∨ ∃ x, key x = k ∧ xs = lower ++ x :: upper) :
    upsert key k y xs = lower ++ y :: upper := by
  unfold upsert
  rw [bound]
  rcases whole with rfl | ⟨x, same, rfl⟩
  · cases upper with
    | nil => simp
    | cons z zs =>
      have other : key z ≠ k := (above z (by simp)).ne'
      simp [other, insertIdx_length_append]
  · simp [same]

theorem eraseKey_split {lower upper : List α} {k : K} {xs : List α}
    (above : ∀ x ∈ upper, k < key x) (bound : lowerBound key k xs = lower.length)
    (whole : xs = lower ++ upper ∨ ∃ x, key x = k ∧ xs = lower ++ x :: upper) :
    eraseKey key k xs = lower ++ upper := by
  unfold eraseKey
  rw [bound]
  rcases whole with rfl | ⟨x, same, rfl⟩
  · cases upper with
    | nil => simp
    | cons z zs =>
      have other : key z ≠ k := (above z (by simp)).ne'
      simp [other]
  · simp [same, List.eraseIdx_append_of_length_le]

variable {key}

theorem Ascending.upsert {xs : List α} (sorted : Ascending key xs) {k : K} {y : α}
    (same : key y = k) : Ascending key (SortedList.upsert key k y xs) := by
  obtain ⟨lower, upper, below, above, bound, whole⟩ := split_at key k xs sorted
  rw [upsert_split key y above bound whole]
  refine ascending_append key below above ?_ y same
  rcases whole with rfl | ⟨x, _, rfl⟩
  · exact sorted
  · exact sorted.sublist (by simp)

theorem Ascending.eraseKey {xs : List α} (sorted : Ascending key xs) (k : K) :
    Ascending key (SortedList.eraseKey key k xs) := by
  obtain ⟨lower, upper, below, above, bound, whole⟩ := split_at key k xs sorted
  rw [eraseKey_split key above bound whole]
  rcases whole with rfl | ⟨x, _, rfl⟩
  · exact sorted
  · exact sorted.sublist (by simp)

theorem Ascending.mem_upsert {xs : List α} (sorted : Ascending key xs) {k : K} {y : α}
    (z : α) : z ∈ SortedList.upsert key k y xs ↔ z = y ∨ z ∈ xs ∧ key z ≠ k := by
  obtain ⟨lower, upper, below, above, bound, whole⟩ := split_at key k xs sorted
  have left : z ∈ lower → key z ≠ k := fun member => (below z member).ne
  have right : z ∈ upper → key z ≠ k := fun member => (above z member).ne'
  rw [upsert_split key y above bound whole]
  rcases whole with rfl | ⟨x, same, rfl⟩
  · simp only [List.mem_append, List.mem_cons]
    tauto
  · have middle : z = x → key z = k := fun same' => same' ▸ same
    simp only [List.mem_append, List.mem_cons]
    tauto

theorem Ascending.mem_eraseKey {xs : List α} (sorted : Ascending key xs) (k : K) (z : α) :
    z ∈ SortedList.eraseKey key k xs ↔ z ∈ xs ∧ key z ≠ k := by
  obtain ⟨lower, upper, below, above, bound, whole⟩ := split_at key k xs sorted
  have left : z ∈ lower → key z ≠ k := fun member => (below z member).ne
  have right : z ∈ upper → key z ≠ k := fun member => (above z member).ne'
  rw [eraseKey_split key above bound whole]
  rcases whole with rfl | ⟨x, same, rfl⟩
  · simp only [List.mem_append]
    tauto
  · have middle : z = x → key z = k := fun same' => same' ▸ same
    simp only [List.mem_append, List.mem_cons]
    tauto

omit [LinearOrder K] in
theorem pairwise_merge {R : α → α → Prop} (before : α → α → Bool)
    (sound : ∀ a b, before a b = true → R a b) (transitive : ∀ a b c, R a b → R b c → R a c)
    {xs ys : List α} (left : xs.Pairwise R) (right : ys.Pairwise R)
    (total : ∀ a ∈ xs, ∀ b ∈ ys, before a b = false → R b a) :
    (xs.merge ys before).Pairwise R := by
  induction xs generalizing ys with
  | nil => simpa using right
  | cons x xs ihx =>
    induction ys with
    | nil => simpa using left
    | cons y ys ihy =>
      rw [List.cons_merge_cons]
      split
      · rename_i first
        have tail := ihx left.of_cons right (fun a member => total a (by simp [member]))
        refine List.pairwise_cons.mpr ⟨?_, tail⟩
        intro z member
        rcases List.mem_merge.mp member with inLeft | inRight
        · exact List.rel_of_pairwise_cons left inLeft
        · rcases List.mem_cons.mp inRight with rfl | later
          · exact sound x z first
          · exact transitive x y z (sound x y first) (List.rel_of_pairwise_cons right later)
      · rename_i second
        have ordered := total x (by simp) y (by simp) (by simpa using second)
        have tail := ihy right.of_cons
          (fun a member b other => total a member b (List.mem_cons_of_mem _ other))
        refine List.pairwise_cons.mpr ⟨?_, tail⟩
        intro z member
        rcases List.mem_merge.mp member with inLeft | inRight
        · rcases List.mem_cons.mp inLeft with rfl | later
          · exact ordered
          · exact transitive y x z ordered (List.rel_of_pairwise_cons left later)
        · exact List.rel_of_pairwise_cons right inRight

theorem eq_of_pairwise {R : α → α → Prop} (irreflexive : ∀ a, ¬ R a a)
    (transitive : ∀ a b c, R a b → R b c → R a c) {xs ys : List α} (left : xs.Pairwise R)
    (right : ys.Pairwise R) (same : ∀ a, a ∈ xs ↔ a ∈ ys) : xs = ys := by
  have distinct {zs : List α} (sorted : zs.Pairwise R) : zs.Nodup :=
    sorted.imp (S := fun a b => a ≠ b) fun {a b} related equal =>
      irreflexive a (by rwa [← equal] at related)
  have perm := (List.perm_ext_iff_of_nodup (distinct left) (distinct right)).mpr same
  refine perm.eq_of_pairwise ?_ left right
  intro a b _ _ forward backward
  exact absurd (transitive a b a forward backward) (irreflexive a)

theorem starts_with {R : α → α → Prop} (irreflexive : ∀ a, ¬ R a a)
    (transitive : ∀ a b c, R a b → R b c → R a c) {xs front : List α} (sorted : xs.Pairwise R)
    (frontSorted : front.Pairwise R) (held : ∀ a ∈ front, a ∈ xs)
    (later : ∀ x ∈ xs, x ∉ front → ∀ a ∈ front, R a x) :
    ∃ rest, xs = front ++ rest ∧ ∀ x ∈ rest, x ∈ xs ∧ x ∉ front := by
  classical
  refine ⟨xs.filter (fun x => x ∉ front), ?_, by simp⟩
  apply eq_of_pairwise irreflexive transitive sorted
  · rw [List.pairwise_append]
    refine ⟨frontSorted, sorted.filter _, ?_⟩
    intro a member x other
    simp only [List.mem_filter, decide_eq_true_eq] at other
    exact later x other.1 other.2 a member
  · intro x
    simp only [List.mem_append, List.mem_filter, decide_eq_true_eq]
    constructor
    · intro member
      by_cases front : x ∈ front
      · exact .inl front
      · exact .inr ⟨member, front⟩
    · rintro (front | ⟨member, -⟩)
      · exact held x front
      · exact member

end SortedList
