import Mathlib

set_option autoImplicit false

namespace Crc

variable {w : Nat} (poly : BitVec w)

def shift (c : BitVec w) : BitVec w := if c.getLsbD 0 then poly ^^^ (c >>> 1) else c >>> 1

def shifts (count : Nat) (c : BitVec w) : BitVec w := (shift poly)^[count] c

theorem shift_xor (a b : BitVec w) : shift poly (a ^^^ b) = shift poly a ^^^ shift poly b := by
  unfold shift
  rw [BitVec.getLsbD_xor, BitVec.ushiftRight_xor_distrib]
  cases a.getLsbD 0 <;> cases b.getLsbD 0
  · rfl
  · change poly ^^^ (a >>> 1 ^^^ b >>> 1) = a >>> 1 ^^^ (poly ^^^ b >>> 1)
    ac_rfl
  · change poly ^^^ (a >>> 1 ^^^ b >>> 1) = poly ^^^ a >>> 1 ^^^ b >>> 1
    ac_rfl
  · have paired : poly ^^^ a >>> 1 ^^^ (poly ^^^ b >>> 1) =
        poly ^^^ poly ^^^ (a >>> 1 ^^^ b >>> 1) := by ac_rfl
    rw [BitVec.xor_self, BitVec.zero_xor] at paired
    exact paired.symm

@[simp] theorem shifts_zero (c : BitVec w) : shifts poly 0 c = c := rfl

theorem shifts_succ (count : Nat) (c : BitVec w) :
    shifts poly (count + 1) c = shift poly (shifts poly count c) :=
  Function.iterate_succ_apply' _ _ _

theorem shifts_add (first second : Nat) (c : BitVec w) :
    shifts poly (first + second) c = shifts poly first (shifts poly second c) :=
  Function.iterate_add_apply _ _ _ _

theorem shifts_xor (count : Nat) (a b : BitVec w) :
    shifts poly count (a ^^^ b) = shifts poly count a ^^^ shifts poly count b := by
  induction count with
  | zero => rfl
  | succ count ih => rw [shifts_succ, ih, shift_xor, ← shifts_succ, ← shifts_succ]

theorem shifts_of_clear {count : Nat} {c : BitVec w} (clear : ∀ i < count, c.getLsbD i = false) :
    shifts poly count c = c >>> count := by
  induction count with
  | zero => rfl
  | succ count ih =>
    have low : (c >>> count).getLsbD 0 = false := by
      rw [BitVec.getLsbD_ushiftRight]
      exact clear count (Nat.lt_succ_self count)
    rw [shifts_succ, ih fun i below => clear i (Nat.lt_succ_of_lt below), shift, low,
      if_neg Bool.false_ne_true, BitVec.shiftRight_add]

theorem shifts_split (count width : Nat) {c low : BitVec w}
    (agree : ∀ i < width, low.getLsbD i = c.getLsbD i) (narrow : low >>> width = 0#w) :
    shifts poly (count + width) c =
      shifts poly (count + width) low ^^^ shifts poly count (c >>> width) := by
  -- The low bits take all the shifts, the others only those that are left.
  have clear : ∀ i < width, (low ^^^ c).getLsbD i = false := by
    intro i below
    rw [BitVec.getLsbD_xor, agree i below, Bool.xor_self]
  have moved := shifts_of_clear poly clear
  have whole : c = low ^^^ (low ^^^ c) := by
    rw [← BitVec.xor_assoc, BitVec.xor_self, BitVec.zero_xor]
  rw [BitVec.ushiftRight_xor_distrib, narrow, BitVec.zero_xor] at moved
  rw [shifts_add, shifts_add]
  nth_rewrite 1 [whole]
  rw [shifts_xor, moved, shifts_xor]

theorem shifts_feed (count width : Nat) {c x : BitVec w} (fits : (x <<< width) >>> width = x) :
    shifts poly count (shifts poly width c ^^^ x) =
      shifts poly (count + width) (c ^^^ x <<< width) := by
  have clear : ∀ i < width, (x <<< width).getLsbD i = false := by
    intro i below
    rw [BitVec.getLsbD_shiftLeft, decide_eq_true below, Bool.not_true, Bool.and_false,
      Bool.false_and]
  rw [shifts_add, shifts_xor poly width, shifts_of_clear poly clear, fits]

end Crc
