import Mathlib

set_option autoImplicit false

structure Lot (K : Type) where
  price : K
  size : K
  deriving DecidableEq

namespace Lot

variable {K : Type} [CommRing K]

def cost (lots : List (Lot K)) : K := (lots.map fun lot => lot.price * lot.size).sum

def volume (lots : List (Lot K)) : K := (lots.map Lot.size).sum

@[simp] theorem cost_nil : cost ([] : List (Lot K)) = 0 := rfl

@[simp] theorem cost_cons (lot : Lot K) (rest : List (Lot K)) :
    cost (lot :: rest) = lot.price * lot.size + cost rest := by
  simp [cost]

@[simp] theorem volume_nil : volume ([] : List (Lot K)) = 0 := rfl

@[simp] theorem volume_cons (lot : Lot K) (rest : List (Lot K)) :
    volume (lot :: rest) = lot.size + volume rest := by
  simp [volume]

def reprice (factor : K) (lot : Lot K) : Lot K := { lot with price := factor * lot.price }

@[simp] theorem cost_reprice (factor : K) (lots : List (Lot K)) :
    cost (lots.map (reprice factor)) = factor * cost lots := by
  induction lots with
  | nil => simp
  | cons lot rest ih => simp [ih, reprice, mul_add, mul_assoc]

@[simp] theorem volume_reprice (factor : K) (lots : List (Lot K)) :
    volume (lots.map (reprice factor)) = volume lots := by
  simp [volume, reprice, Function.comp_def]

variable [LinearOrder K]

/-- The lots that supply `wanted`, the last of them cut to what is still missing. -/
def fill : K → List (Lot K) → List (Lot K)
  | _, [] => []
  | wanted, lot :: rest =>
    if lot.size < wanted then lot :: fill (wanted - lot.size) rest
    else [{ lot with size := wanted }]

@[simp] theorem fill_nil (wanted : K) : fill wanted ([] : List (Lot K)) = [] := rfl

theorem fill_cons_of_lt {wanted : K} {lot : Lot K} (short : lot.size < wanted)
    (rest : List (Lot K)) : fill wanted (lot :: rest) = lot :: fill (wanted - lot.size) rest :=
  if_pos short

theorem fill_cons_of_le {wanted : K} {lot : Lot K} (enough : wanted ≤ lot.size)
    (rest : List (Lot K)) : fill wanted (lot :: rest) = [{ lot with size := wanted }] :=
  if_neg (not_lt.mpr enough)

theorem fill_reprice (factor wanted : K) (lots : List (Lot K)) :
    fill wanted (lots.map (reprice factor)) = (fill wanted lots).map (reprice factor) := by
  induction lots generalizing wanted with
  | nil => rfl
  | cons lot rest ih =>
    by_cases short : lot.size < wanted
    · have also : (lot.reprice factor).size < wanted := short
      rw [List.map_cons, fill_cons_of_lt also, fill_cons_of_lt short, List.map_cons, ← ih]
      rfl
    · have enough : wanted ≤ lot.size := not_lt.mp short
      have also : wanted ≤ (lot.reprice factor).size := enough
      rw [List.map_cons, fill_cons_of_le also, fill_cons_of_le enough]
      rfl

theorem fill_eq_nil {wanted : K} {lots : List (Lot K)} : fill wanted lots = [] ↔ lots = [] := by
  cases lots with
  | nil => simp
  | cons lot rest =>
    by_cases short : lot.size < wanted
    · simp [fill_cons_of_lt short]
    · simp [fill_cons_of_le (not_lt.mp short)]

theorem map_price_fill (wanted : K) (lots : List (Lot K)) :
    (fill wanted lots).map price = (lots.take (fill wanted lots).length).map price := by
  induction lots generalizing wanted with
  | nil => rfl
  | cons lot rest ih =>
    by_cases short : lot.size < wanted
    · simp [fill_cons_of_lt short, ih]
    · simp [fill_cons_of_le (not_lt.mp short)]

def Positive (lots : List (Lot K)) : Prop := ∀ lot ∈ lots, 0 < lot.size

theorem positive_cons {lot : Lot K} {rest : List (Lot K)} :
    Positive (lot :: rest) ↔ 0 < lot.size ∧ Positive rest := by
  simp [Positive]

variable [IsStrictOrderedRing K]

theorem volume_nonneg {lots : List (Lot K)} (positive : Positive lots) : 0 ≤ volume lots := by
  apply List.sum_nonneg
  intro size member
  obtain ⟨lot, inside, rfl⟩ := List.mem_map.mp member
  exact (positive lot inside).le

theorem volume_pos {lots : List (Lot K)} (positive : Positive lots) (some : lots ≠ []) :
    0 < volume lots := by
  cases lots with
  | nil => exact absurd rfl some
  | cons lot rest =>
    obtain ⟨here, later⟩ := positive_cons.mp positive
    rw [volume_cons]
    exact add_pos_of_pos_of_nonneg here (volume_nonneg later)

theorem fill_positive {wanted : K} {lots : List (Lot K)} (some : 0 < wanted)
    (positive : Positive lots) : Positive (fill wanted lots) := by
  induction lots generalizing wanted with
  | nil => exact positive
  | cons lot rest ih =>
    obtain ⟨here, later⟩ := positive_cons.mp positive
    by_cases short : lot.size < wanted
    · rw [fill_cons_of_lt short, positive_cons]
      exact ⟨here, ih (sub_pos.mpr short) later⟩
    · rw [fill_cons_of_le (not_lt.mp short), positive_cons]
      exact ⟨some, nofun⟩

theorem volume_fill {wanted : K} {lots : List (Lot K)} (some : 0 < wanted)
    (positive : Positive lots) : volume (fill wanted lots) = min wanted (volume lots) := by
  induction lots generalizing wanted with
  | nil => simp [some.le]
  | cons lot rest ih =>
    obtain ⟨here, later⟩ := positive_cons.mp positive
    by_cases short : lot.size < wanted
    · rw [fill_cons_of_lt short, volume_cons, volume_cons, ih (sub_pos.mpr short) later,
        ← min_add_add_left, add_sub_cancel]
    · have enough := not_lt.mp short
      have rest_nonneg := volume_nonneg later
      rw [fill_cons_of_le enough, volume_cons, volume_cons, volume_nil, add_zero, min_eq_left]
      exact enough.trans (le_add_of_nonneg_right rest_nonneg)

theorem volume_take_lt {wanted : K} {lots : List (Lot K)} (some : 0 < wanted)
    (positive : Positive lots) {n : Nat} (shorter : n < (fill wanted lots).length) :
    volume (lots.take n) < volume (fill wanted lots) := by
  -- No shorter prefix supplies the fill.
  induction lots generalizing wanted n with
  | nil => simp at shorter
  | cons lot rest ih =>
    cases n with
    | zero =>
      apply volume_pos (fill_positive some positive)
      simp [fill_eq_nil]
    | succ n =>
      by_cases short : lot.size < wanted
      · rw [fill_cons_of_lt short] at shorter ⊢
        have tail := ih (sub_pos.mpr short) (positive_cons.mp positive).2
          (Nat.lt_of_succ_lt_succ shorter)
        rw [List.take_succ_cons, volume_cons, volume_cons]
        exact add_lt_add_right tail _
      · rw [fill_cons_of_le (not_lt.mp short)] at shorter
        simp at shorter

theorem volume_fill_le_take {wanted : K} (lots : List (Lot K)) :
    volume (fill wanted lots) ≤ volume (lots.take (fill wanted lots).length) := by
  induction lots generalizing wanted with
  | nil => simp
  | cons lot rest ih =>
    by_cases short : lot.size < wanted
    · rw [fill_cons_of_lt short, List.length_cons, List.take_succ_cons, volume_cons, volume_cons]
      exact add_le_add_right ih _
    · have enough := not_lt.mp short
      rw [fill_cons_of_le enough]
      simpa using enough

theorem fill_volume {front : List (Lot K)} (some : front ≠ []) (positive : Positive front)
    (back : List (Lot K)) : fill (volume front) (front ++ back) = front := by
  induction front with
  | nil => exact absurd rfl some
  | cons lot rest ih =>
    obtain ⟨here, later⟩ := positive_cons.mp positive
    cases rest with
    | nil =>
      have enough : volume [lot] ≤ lot.size := by simp
      rw [List.cons_append, fill_cons_of_le enough]
      simp
    | cons next others =>
      have more := volume_pos later (List.cons_ne_nil _ _)
      have short : lot.size < volume (lot :: next :: others) := by
        rw [volume_cons]
        exact lt_add_of_pos_right _ more
      rw [List.cons_append, fill_cons_of_lt short, volume_cons, add_sub_cancel_left,
        ih (List.cons_ne_nil _ _) later]

theorem length_fill_mono {less more : K} (larger : less ≤ more) (lots : List (Lot K)) :
    (fill less lots).length ≤ (fill more lots).length := by
  induction lots generalizing less more with
  | nil => simp
  | cons lot rest ih =>
    by_cases short : lot.size < less
    · rw [fill_cons_of_lt short, fill_cons_of_lt (short.trans_le larger)]
      simpa using ih (sub_le_sub_right larger _)
    · have some : fill more (lot :: rest) ≠ [] := by simp [fill_eq_nil]
      rw [fill_cons_of_le (not_lt.mp short)]
      exact List.length_pos_iff.mpr some

section Means

theorem mul_volume_le_cost {lots : List (Lot K)} {low : K} (positive : Positive lots)
    (above : ∀ lot ∈ lots, low ≤ lot.price) : low * volume lots ≤ cost lots := by
  induction lots with
  | nil => simp
  | cons lot rest ih =>
    obtain ⟨here, later⟩ := positive_cons.mp positive
    obtain ⟨first, others⟩ := List.forall_mem_cons.mp above
    rw [volume_cons, cost_cons, mul_add]
    exact add_le_add (mul_le_mul_of_nonneg_right first here.le) (ih later others)

theorem cost_le_mul_volume {lots : List (Lot K)} {high : K} (positive : Positive lots)
    (below : ∀ lot ∈ lots, lot.price ≤ high) : cost lots ≤ high * volume lots := by
  induction lots with
  | nil => simp
  | cons lot rest ih =>
    obtain ⟨here, later⟩ := positive_cons.mp positive
    obtain ⟨first, others⟩ := List.forall_mem_cons.mp below
    rw [volume_cons, cost_cons, mul_add]
    exact add_le_add (mul_le_mul_of_nonneg_right first here.le) (ih later others)

def Ascending (lots : List (Lot K)) : Prop := lots.Pairwise fun a b => a.price ≤ b.price

omit [IsStrictOrderedRing K] in
theorem above_fill {wanted : K} {lots : List (Lot K)} {low : K}
    (above : ∀ lot ∈ lots, low ≤ lot.price) : ∀ lot ∈ fill wanted lots, low ≤ lot.price := by
  intro lot member
  have listed : lot.price ∈ (fill wanted lots).map price := List.mem_map_of_mem member
  rw [map_price_fill] at listed
  obtain ⟨source, inside, same⟩ := List.mem_map.mp listed
  rw [← same]
  exact above source (List.mem_of_mem_take inside)

theorem fill_extends {less more : K} (some : 0 < less) (larger : less ≤ more)
    {lots : List (Lot K)} (positive : Positive lots) (ascending : Ascending lots) :
    ∃ dearest, (∀ lot ∈ fill less lots, lot.price ≤ dearest) ∧
      dearest * (volume (fill more lots) - volume (fill less lots)) ≤
        cost (fill more lots) - cost (fill less lots) := by
  induction lots generalizing less more with
  | nil => exact ⟨0, by simp, by simp⟩
  | cons lot rest ih =>
    obtain ⟨here, later⟩ := positive_cons.mp positive
    obtain ⟨before, ordered⟩ := List.pairwise_cons.mp ascending
    -- While the smaller fill goes on both take the lot; where it ends its price is the dearest.
    by_cases short : lot.size < less
    · obtain ⟨dearest, bound, further⟩ :=
        ih (sub_pos.mpr short) (sub_le_sub_right larger lot.size) later ordered
      rw [fill_cons_of_lt short, fill_cons_of_lt (short.trans_le larger)]
      simp only [volume_cons, cost_cons, add_sub_add_left_eq_sub]
      cases rest with
      | nil => exact ⟨lot.price, by simp, by simp⟩
      | cons next others =>
        have taken : fill (less - lot.size) (next :: others) ≠ [] := by simp [fill_eq_nil]
        obtain ⟨other, member⟩ := List.exists_mem_of_ne_nil _ taken
        have cheaper := (above_fill before other member).trans (bound other member)
        exact ⟨dearest, List.forall_mem_cons.mpr ⟨cheaper, bound⟩, further⟩
    · have enough := not_lt.mp short
      rw [fill_cons_of_le enough]
      refine ⟨lot.price, by simp, ?_⟩
      by_cases also : lot.size < more
      · have tail := mul_volume_le_cost (fill_positive (sub_pos.mpr also) later)
          (above_fill before)
        rw [fill_cons_of_lt also]
        simp only [volume_cons, cost_cons, volume_nil, cost_nil, add_zero]
        linarith
      · rw [fill_cons_of_le (not_lt.mp also)]
        simp [mul_sub]

theorem mean_fill_mono {less more : K} (some : 0 < less) (larger : less ≤ more)
    {lots : List (Lot K)} (positive : Positive lots) (ascending : Ascending lots) :
    cost (fill less lots) * volume (fill more lots) ≤
      cost (fill more lots) * volume (fill less lots) := by
  obtain ⟨dearest, bound, further⟩ := fill_extends some larger positive ascending
  have taken := fill_positive some positive
  have average := cost_le_mul_volume taken bound
  have held := volume_nonneg taken
  have grown : 0 ≤ volume (fill more lots) - volume (fill less lots) := by
    rw [volume_fill some positive, volume_fill (some.trans_le larger) positive]
    exact sub_nonneg.mpr (min_le_min_right _ larger)
  calc cost (fill less lots) * volume (fill more lots)
      = cost (fill less lots) * volume (fill less lots) +
          cost (fill less lots) * (volume (fill more lots) - volume (fill less lots)) := by ring
    _ ≤ cost (fill less lots) * volume (fill less lots) +
          dearest * volume (fill less lots) *
            (volume (fill more lots) - volume (fill less lots)) :=
        add_le_add_right (mul_le_mul_of_nonneg_right average grown) _
    _ = cost (fill less lots) * volume (fill less lots) +
          dearest * (volume (fill more lots) - volume (fill less lots)) *
            volume (fill less lots) := by ring
    _ ≤ cost (fill less lots) * volume (fill less lots) +
          (cost (fill more lots) - cost (fill less lots)) * volume (fill less lots) :=
        add_le_add_right (mul_le_mul_of_nonneg_right further held) _
    _ = cost (fill more lots) * volume (fill less lots) := by ring

end Means

end Lot
