import Crossbook.Lib.OrderStatistic

set_option autoImplicit false

namespace Tiling

def gaps : List Int → List Nat
  | [] => []
  | [_] => []
  | a :: b :: rest => (b - a).toNat :: gaps (b :: rest)

def medianGap (times : List Int) : Nat :=
  OrderStatistic.smallest (gaps times) ((gaps times).length / 2 + 1)

def span (times : List Int) : Int := times.getLastD 0 - times.headD 0

/-- The gap that stands where one copy of a timeline meets the next. -/
def splice (times : List Int) : Nat := max 1 (medianGap times)

def stride (times : List Int) : Int := span times + splice times

def tiled (times : List Int) (loops : Nat) : List Int :=
  (List.range loops).flatMap fun k : Nat => times.map (· + (k : Int) * stride times)

section Gaps

theorem gaps_shift (times : List Int) (shift : Int) :
    gaps (times.map (· + shift)) = gaps times := by
  fun_induction gaps times with
  | case1 => rfl
  | case2 => rfl
  | case3 a b rest ih =>
    rw [List.map_cons] at ih
    rw [List.map_cons, List.map_cons, gaps, ih, add_sub_add_right_eq_sub]

theorem gaps_append (front : List Int) (a b : Int) (back : List Int) :
    gaps (front ++ a :: b :: back) =
      gaps (front ++ [a]) ++ (b - a).toNat :: gaps (b :: back) := by
  induction front with
  | nil => rfl
  | cons x front ih =>
    cases front with
    | nil => rfl
    | cons y rest =>
      simp only [List.cons_append] at ih ⊢
      rw [gaps, gaps, ih, List.cons_append]

theorem length_gaps (times : List Int) : (gaps times).length = times.length - 1 := by
  fun_induction gaps times with
  | case1 => rfl
  | case2 => rfl
  | case3 a b rest ih => simp [ih]

end Gaps

section Copies

variable {times : List Int}

theorem tiled_succ (times : List Int) (loops : Nat) :
    tiled times (loops + 1) = times ++ (tiled times loops).map (· + stride times) := by
  have next (k : Nat) : ((fun time => time + stride times) ∘ fun time => time + k * stride times) =
      fun time : Int => time + (k + 1 : Nat) * stride times := by
    funext time
    simp only [Function.comp_apply]
    push_cast
    ring
  rw [tiled, List.range_succ_eq_map, List.flatMap_cons, List.flatMap_map, tiled, List.map_flatMap]
  congr 1
  · simp
  · exact List.flatMap_congr fun k _ => by rw [List.map_map, next]

theorem length_tiled (times : List Int) (loops : Nat) :
    (tiled times loops).length = loops * times.length := by
  induction loops with
  | zero => simp [tiled]
  | succ loops ih =>
    rw [tiled_succ, List.length_append, List.length_map, ih]
    ring

theorem head_le (ordered : times.Pairwise (· ≤ ·)) {time : Int} (member : time ∈ times) :
    times.headD 0 ≤ time := by
  cases times with
  | nil => contradiction
  | cons first rest =>
    rcases List.mem_cons.mp member with rfl | later
    · exact le_rfl
    · exact (List.pairwise_cons.mp ordered).1 time later

theorem le_last (ordered : times.Pairwise (· ≤ ·)) {time : Int} (member : time ∈ times) :
    time ≤ times.getLastD 0 := by
  rcases List.eq_nil_or_concat times with rfl | ⟨front, last, rfl⟩
  · contradiction
  · rw [List.concat_eq_append] at member ordered ⊢
    rw [List.getLastD_concat]
    rcases List.mem_append.mp member with earlier | same
    · exact (List.pairwise_append.mp ordered).2.2 time earlier last (List.mem_singleton_self last)
    · exact (List.mem_singleton.mp same).le

theorem gap_le_span (ordered : times.Pairwise (· ≤ ·)) {gap : Nat} (member : gap ∈ gaps times) :
    (gap : Int) ≤ span times := by
  fun_induction gaps times with
  | case1 => contradiction
  | case2 => contradiction
  | case3 a b rest ih =>
    have later := (List.pairwise_cons.mp ordered).2
    have next := (List.pairwise_cons.mp ordered).1 b List.mem_cons_self
    rw [span, List.headD_cons, List.getLastD_cons]
    rcases List.mem_cons.mp member with rfl | member
    · have last := le_last later List.mem_cons_self
      rw [List.getLastD_cons] at last ⊢
      omega
    · have inner := ih later member
      rw [span, List.headD_cons, List.getLastD_cons] at inner
      rw [List.getLastD_cons]
      omega

theorem medianGap_le_span (ordered : times.Pairwise (· ≤ ·)) (many : 2 ≤ times.length) :
    (medianGap times : Int) ≤ span times := by
  have count := length_gaps times
  exact gap_le_span ordered (OrderStatistic.smallest_mem (by omega) (by omega))

theorem mem_tiled {loops : Nat} {time : Int} :
    time ∈ tiled times loops ↔
      ∃ k < loops, ∃ original ∈ times, time = original + (k : Int) * stride times := by
  simp only [tiled, List.mem_flatMap, List.mem_range, List.mem_map]
  constructor
  · rintro ⟨k, within, original, member, rfl⟩
    exact ⟨k, within, original, member, rfl⟩
  · rintro ⟨k, within, original, member, rfl⟩
    exact ⟨k, within, original, member, rfl⟩

theorem splice_pos (times : List Int) : 0 < splice times := by
  unfold splice
  omega

theorem span_nonneg (ordered : times.Pairwise (· ≤ ·)) : 0 ≤ span times := by
  cases times with
  | nil => simp [span]
  | cons first rest =>
    have last := le_last ordered List.mem_cons_self
    rw [span, List.headD_cons]
    omega

theorem stride_pos (ordered : times.Pairwise (· ≤ ·)) : 0 < stride times := by
  have forward := span_nonneg ordered
  have apart := splice_pos times
  rw [stride]
  omega

theorem head_le_tiled (ordered : times.Pairwise (· ≤ ·)) (loops : Nat) :
    ∀ time ∈ tiled times loops, times.headD 0 ≤ time := by
  intro time member
  obtain ⟨k, -, original, inside, rfl⟩ := mem_tiled.mp member
  have early := head_le ordered inside
  have later : 0 ≤ (k : Int) * stride times :=
    mul_nonneg (Int.natCast_nonneg k) (stride_pos ordered).le
  omega

theorem pairwise_tiled (ordered : times.Pairwise (· ≤ ·)) (loops : Nat) :
    (tiled times loops).Pairwise (· ≤ ·) := by
  -- A stride is longer than the span, so each copy ends before the next begins.
  induction loops with
  | zero => exact List.Pairwise.nil
  | succ loops ih =>
    rw [tiled_succ, List.pairwise_append]
    refine ⟨ordered, ?_, ?_⟩
    · exact ih.map _ fun earlier later before => by omega
    · intro earlier member shifted copied
      obtain ⟨later, inside, rfl⟩ := List.mem_map.mp copied
      have last := le_last ordered member
      have first := head_le_tiled ordered loops later inside
      have apart := splice_pos times
      rw [stride, span]
      omega

theorem tiled_cons (first : Int) (rest : List Int) (loops : Nat) :
    ∃ later, tiled (first :: rest) (loops + 1) = first :: later := by
  rw [tiled_succ]
  exact ⟨_, List.cons_append⟩

theorem seam_gap (times : List Int) :
    times.headD 0 + stride times - times.getLastD 0 = splice times := by
  rw [stride, span]
  omega

theorem gaps_copies (some_ : times ≠ []) (loops : Nat) :
    gaps (tiled times (loops + 2)) =
      gaps times ++ splice times :: gaps (tiled times (loops + 1)) := by
  obtain ⟨first, rest, rfl⟩ := List.exists_cons_of_ne_nil some_
  obtain ⟨later, next⟩ := tiled_cons first rest loops
  have closes := List.dropLast_concat_getLast some_
  have seam := seam_gap (first :: rest)
  rw [List.headD_cons, List.getLastD_eq_getLast?, List.getLast?_eq_some_getLast some_,
    Option.getD_some] at seam
  have shifted := congrArg (List.map (· + stride (first :: rest))) next
  rw [List.map_cons] at shifted
  have copies := gaps_append (first :: rest).dropLast ((first :: rest).getLast some_)
    (first + stride (first :: rest)) (later.map (· + stride (first :: rest)))
  rw [List.append_cons, closes, ← shifted, gaps_shift, seam, Int.toNat_natCast] at copies
  rw [tiled_succ, copies]

theorem gaps_tiled (some_ : times ≠ []) (loops : Nat) :
    gaps (tiled times loops) =
      List.intercalate [splice times] (List.replicate loops (gaps times)) := by
  induction loops with
  | zero => rfl
  | succ loops ih =>
    cases loops with
    | zero => simp [tiled]
    | succ loops =>
      rw [gaps_copies some_, ih, List.replicate_succ (n := loops + 1), List.replicate_succ,
        List.intercalate_cons_cons, List.append_assoc, List.singleton_append]

end Copies

end Tiling
