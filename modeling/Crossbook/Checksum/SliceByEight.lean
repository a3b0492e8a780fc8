import Crossbook.Checksum
import Crossbook.Lib.Crc

set_option autoImplicit false

namespace Crossbook

namespace Crc32

open Crc

/-- The definition: a byte goes in through eight rounds. -/
def bitwise (c : UInt32) (byte : UInt8) : UInt32 :=
  (List.range 8).foldl (fun c _ => bitRound c) (c ^^^ byte.toUInt32)

def polynomial : BitVec 32 := 0xEDB88320#32

section Tables

theorem low_bit (c : UInt32) : c &&& 1 = 0 ↔ c.toBitVec.getLsbD 0 = false := by
  have bits : (c &&& 1).toBitVec = BitVec.setWidth 32 (BitVec.ofBool (c.toBitVec.getLsbD 0)) := by
    rw [UInt32.toBitVec_and]
    exact BitVec.and_one_eq_setWidth_ofBool_getLsbD
  rw [← UInt32.toBitVec_inj, bits]
  cases c.toBitVec.getLsbD 0 <;> decide

theorem toBitVec_bitRound (c : UInt32) :
    (bitRound c).toBitVec = shift polynomial c.toBitVec := by
  unfold bitRound shift
  cases low : c.toBitVec.getLsbD 0 with
  | false =>
    rw [if_pos ((low_bit c).mpr low), if_neg Bool.false_ne_true]
    rfl
  | true =>
    rw [if_neg (by simp [low_bit, low]), if_pos rfl]
    rfl

theorem toBitVec_rounds (c : UInt32) :
    ((List.range 8).foldl (fun c _ => bitRound c) c).toBitVec =
      shifts polynomial 8 c.toBitVec := by
  have moved (count : Nat) : (bitRound^[count] c).toBitVec =
      shifts polynomial count c.toBitVec := by
    induction count with
    | zero => rfl
    | succ count ih => rw [Function.iterate_succ_apply', toBitVec_bitRound, ih, ← shifts_succ]
  rw [List.foldl_const, List.length_range, moved]

theorem toBitVec_byteEntry (i : UInt32) :
    (byteEntry i).toBitVec = shifts polynomial 8 i.toBitVec := toBitVec_rounds i

theorem getLsbD_low (i : Nat) : (255#32).getLsbD i = decide (i < 8) := by
  have mask : 255#32 = BitVec.ofNat 32 (2 ^ 8 - 1) := rfl
  rw [mask, BitVec.getLsbD_ofNat, Nat.testBit_two_pow_sub_one]
  by_cases below : i < 8
  · have inside : i < 32 := by omega
    simp [below, inside]
  · simp [below]

theorem shifts_lane (count : Nat) (c : BitVec 32) :
    shifts polynomial (count + 8) c =
      shifts polynomial (count + 8) (c &&& 255#32) ^^^ shifts polynomial count (c >>> 8) := by
  apply shifts_split
  · intro i below
    rw [BitVec.getLsbD_and, getLsbD_low, decide_eq_true below, Bool.and_true]
  · apply BitVec.eq_of_getLsbD_eq
    intro i _
    have high : ¬ 8 + i < 8 := by omega
    rw [BitVec.getLsbD_ushiftRight, BitVec.getLsbD_and, getLsbD_low, decide_eq_false high,
      Bool.and_false, BitVec.getLsbD_zero]

theorem toBitVec_entries (t : Nat) (i : UInt32) :
    (entries t i).toBitVec = shifts polynomial (8 * t + 8) i.toBitVec := by
  induction t with
  | zero => exact toBitVec_byteEntry i
  | succ t ih =>
    have lane := shifts_lane 0 (entries t i).toBitVec
    have split : (entries (t + 1) i).toBitVec =
        (entries t i).toBitVec >>> 8 ^^^ (byteEntry (entries t i &&& 0xFF)).toBitVec := rfl
    have next : shifts polynomial (8 * (t + 1) + 8) i.toBitVec =
        shifts polynomial (0 + 8) (entries t i).toBitVec := by
      rw [ih, ← shifts_add]
      congr 1
      omega
    rw [split, toBitVec_byteEntry, next, lane, BitVec.xor_comm]
    rfl

theorem shifts_word (t : Nat) (c : UInt32) :
    shifts polynomial (8 * t + 32) c.toBitVec =
      (entries (t + 3) (c &&& 0xFF) ^^^ entries (t + 2) ((c >>> 8) &&& 0xFF) ^^^
        entries (t + 1) ((c >>> 16) &&& 0xFF) ^^^ entries t (c >>> 24)).toBitVec := by
  have first := shifts_lane (8 * t + 24) c.toBitVec
  have second := shifts_lane (8 * t + 16) (c.toBitVec >>> 8)
  have third := shifts_lane (8 * t + 8) (c.toBitVec >>> 8 >>> 8)
  rw [second, third] at first
  simp only [← BitVec.shiftRight_add] at first
  simp only [UInt32.toBitVec_xor, toBitVec_entries]
  rw [BitVec.xor_assoc, BitVec.xor_assoc]
  exact first

end Tables

section Words

def word (byte : UInt8) : BitVec 32 := byte.toUInt32.toBitVec

theorem getLsbD_word (byte : UInt8) {i : Nat} (high : 8 ≤ i) : (word byte).getLsbD i = false := by
  have bits : word byte = byte.toBitVec.setWidth 32 := rfl
  rw [bits, BitVec.getLsbD_setWidth, BitVec.getLsbD_of_ge _ _ high, Bool.and_false]

theorem word_fits (byte : UInt8) {width : Nat} (narrow : width ≤ 24) :
    (word byte <<< width) >>> width = word byte := by
  apply BitVec.eq_of_getLsbD_eq
  intro i _
  rw [BitVec.getLsbD_ushiftRight, BitVec.getLsbD_shiftLeft, Nat.add_sub_cancel_left]
  by_cases low : i < 8
  · have inside : width + i < 32 := by omega
    simp [inside]
  · rw [getLsbD_word byte (by omega), Bool.and_false]

theorem toBitVec_bitwise (c : UInt32) (byte : UInt8) :
    (bitwise c byte).toBitVec = shifts polynomial 8 (c.toBitVec ^^^ word byte) :=
  toBitVec_rounds _

theorem getLsbD_lane (byte : UInt8) (width : Nat) {i : Nat} (outside : i < width ∨ width + 8 ≤ i) :
    (word byte <<< width).getLsbD i = false := by
  rw [BitVec.getLsbD_shiftLeft]
  rcases outside with below | above
  · simp [below]
  · rw [getLsbD_word byte (by omega), Bool.and_false]

-- The lanes do not overlap, so joining them by or is joining them by exclusive or.
theorem toBitVec_load32 (b0 b1 b2 b3 : UInt8) :
    (load32 b0 b1 b2 b3).toBitVec =
      word b0 ^^^ word b1 <<< 8 ^^^ word b2 <<< 16 ^^^ word b3 <<< 24 := by
  have joined : (load32 b0 b1 b2 b3).toBitVec =
      word b0 ||| word b1 <<< 8 ||| word b2 <<< 16 ||| word b3 <<< 24 := rfl
  have lane0 (i : Nat) := getLsbD_word b0 (i := i)
  have lane1 (i : Nat) := getLsbD_lane b1 8 (i := i)
  have lane2 (i : Nat) := getLsbD_lane b2 16 (i := i)
  have lane3 (i : Nat) := getLsbD_lane b3 24 (i := i)
  rw [joined]
  apply BitVec.eq_of_getLsbD_eq
  intro i inside
  simp only [BitVec.getLsbD_or, BitVec.getLsbD_xor]
  by_cases first : i < 8
  · rw [lane1 i (by omega), lane2 i (by omega), lane3 i (by omega)]
    simp
  · rw [lane0 i (by omega)]
    by_cases second : i < 16
    · rw [lane2 i (by omega), lane3 i (by omega)]
      simp
    · rw [lane1 i (by omega)]
      by_cases third : i < 24
      · rw [lane3 i (by omega)]
        simp
      · rw [lane2 i (by omega)]
        simp

theorem feed_four (c : UInt32) (b0 b1 b2 b3 : UInt8) :
    ([b0, b1, b2, b3].foldl bitwise c).toBitVec =
      shifts polynomial 32 (c ^^^ load32 b0 b1 b2 b3).toBitVec := by
  have second (x : BitVec 32) := shifts_feed polynomial 8 8 (c := x) (word_fits b1 (by decide))
  have third (x : BitVec 32) := shifts_feed polynomial 8 16 (c := x) (word_fits b2 (by decide))
  have fourth (x : BitVec 32) := shifts_feed polynomial 8 24 (c := x) (word_fits b3 (by decide))
  simp only [List.foldl_cons, List.foldl_nil, toBitVec_bitwise, UInt32.toBitVec_xor,
    toBitVec_load32]
  rw [second, third, fourth]
  simp only [BitVec.xor_assoc]

end Words

section Update

theorem slice8_eq (c : UInt32) (b0 b1 b2 b3 b4 b5 b6 b7 : UInt8) :
    slice8 c (load32 b0 b1 b2 b3) (load32 b4 b5 b6 b7) =
      [b0, b1, b2, b3, b4, b5, b6, b7].foldl bitwise c := by
  have front := feed_four c b0 b1 b2 b3
  have back := feed_four ([b0, b1, b2, b3].foldl bitwise c) b4 b5 b6 b7
  have one := shifts_word 4 (c ^^^ load32 b0 b1 b2 b3)
  have two := shifts_word 0 (load32 b4 b5 b6 b7)
  have joined : [b0, b1, b2, b3, b4, b5, b6, b7].foldl bitwise c =
      [b4, b5, b6, b7].foldl bitwise ([b0, b1, b2, b3].foldl bitwise c) := rfl
  rw [UInt32.toBitVec_xor, front, shifts_xor, ← shifts_add, one, two, ← joined,
    ← UInt32.toBitVec_xor, UInt32.toBitVec_inj] at back
  rw [back, slice8]
  simp only [UInt32.xor_assoc]

theorem bytewise_eq (c : UInt32) (byte : UInt8) : bytewise c byte = bitwise c byte := by
  have lane := shifts_lane 0 (c ^^^ byte.toUInt32).toBitVec
  have high : word byte >>> 8 = 0#32 := by
    apply BitVec.eq_of_getLsbD_eq
    intro i _
    rw [BitVec.getLsbD_ushiftRight, getLsbD_word byte (by omega), BitVec.getLsbD_zero]
  have moved : (c ^^^ byte.toUInt32).toBitVec >>> 8 = c.toBitVec >>> 8 := by
    rw [UInt32.toBitVec_xor, BitVec.ushiftRight_xor_distrib]
    exact (congrArg (c.toBitVec >>> 8 ^^^ ·) high).trans BitVec.xor_zero
  rw [moved] at lane
  apply UInt32.toBitVec_inj.mp
  rw [toBitVec_bitwise]
  refine Eq.trans ?_ lane.symm
  rw [bytewise, UInt32.toBitVec_xor, toBitVec_entries]
  rfl

theorem update_bitwise (c : UInt32) (data : Bytes) : update c data = data.foldl bitwise c := by
  induction c, data using update.induct with
  | case1 c b0 b1 b2 b3 b4 b5 b6 b7 rest ih =>
    rw [update, ih, slice8_eq]
    rfl
  | case2 c tail short =>
    have bytes : bytewise = bitwise := funext fun c => funext fun byte => bytewise_eq c byte
    rw [update, bytes]
    exact short

/-- The sliced update is the bit-by-bit one, so a text may be fed in wherever it is split. -/
theorem update_exact (c : UInt32) :
    (∀ data : Bytes, update c data = data.foldl bitwise c) ∧
      ∀ front back : Bytes, update c (front ++ back) = update (update c front) back := by
  refine ⟨update_bitwise c, fun front back => ?_⟩
  rw [update_bitwise, update_bitwise, update_bitwise, List.foldl_append]

-- The check value of this polynomial.
example : crc32 (bytes "123456789") = 0xCBF43926 := by decide +kernel

end Update

end Crc32

end Crossbook
