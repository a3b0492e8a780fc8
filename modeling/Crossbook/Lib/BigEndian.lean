import Mathlib

set_option autoImplicit false

namespace BigEndian

def encode : Nat → Nat → List UInt8
  | 0, _ => []
  | width + 1, value => encode width (value / 256) ++ [UInt8.ofNat (value % 256)]

def decode (data : List UInt8) : Nat := data.foldl (fun value byte => value * 256 + byte.toNat) 0

@[simp] theorem length_encode (width value : Nat) : (encode width value).length = width := by
  induction width generalizing value with
  | zero => rfl
  | succ width ih => simp [encode, ih]

theorem getElem?_encode {width index : Nat} (inside : index < width) (value : Nat) :
    (encode width value)[index]? =
      some (UInt8.ofNat (value / 256 ^ (width - 1 - index) % 256)) := by
  induction width generalizing value with
  | zero => contradiction
  | succ width ih =>
    rw [encode]
    rcases Nat.lt_succ_iff_lt_or_eq.mp inside with before | rfl
    · have power : 256 ^ (width + 1 - 1 - index) = 256 * 256 ^ (width - 1 - index) := by
        rw [← Nat.pow_succ']
        congr 1
        omega
      rw [List.getElem?_append_left (by simpa using before), ih before, Nat.div_div_eq_div_mul, power]
    · rw [List.getElem?_append_right (by simp), length_encode, Nat.sub_self, List.getElem?_cons_zero,
        Nat.add_sub_cancel, Nat.sub_self, Nat.pow_zero, Nat.div_one]

theorem decode_concat (data : List UInt8) (byte : UInt8) :
    decode (data ++ [byte]) = decode data * 256 + byte.toNat := by
  simp [decode, List.foldl_append]

theorem toNat_low (value : Nat) : (UInt8.ofNat (value % 256)).toNat = value % 256 := by
  rw [UInt8.toNat_ofNat']
  exact Nat.mod_eq_of_lt (Nat.mod_lt _ (by decide))

theorem decode_encode (width value : Nat) : decode (encode width value) = value % 256 ^ width := by
  induction width generalizing value with
  | zero => simp [encode, decode, Nat.mod_one]
  | succ width ih =>
    rw [encode, decode_concat, ih, toNat_low, Nat.pow_succ, Nat.mul_comm (256 ^ width) 256,
      Nat.mod_mul]
    omega

theorem decode_lt (data : List UInt8) : decode data < 256 ^ data.length := by
  induction data using List.reverseRecOn with
  | nil => simp [decode]
  | append_singleton data byte ih =>
    have small := byte.toNat_lt
    rw [decode_concat, List.length_append, List.length_singleton, Nat.pow_succ]
    omega

theorem encode_decode (data : List UInt8) : encode data.length (decode data) = data := by
  induction data using List.reverseRecOn with
  | nil => rfl
  | append_singleton data byte ih =>
    have small := byte.toNat_lt
    have high : (decode data * 256 + byte.toNat) / 256 = decode data := by omega
    have low : (decode data * 256 + byte.toNat) % 256 = byte.toNat := by omega
    rw [decode_concat, List.length_append, List.length_singleton, encode, high, low, ih,
      UInt8.ofNat_toNat]

section Take

variable {data : List UInt8} {width : Nat} (room : width ≤ data.length)

include room

theorem decode_take_lt : decode (data.take width) < 256 ^ width := by
  have small := decode_lt (data.take width)
  rwa [List.length_take, min_eq_left room] at small

theorem encode_decode_take : encode width (decode (data.take width)) = data.take width := by
  have restored := encode_decode (data.take width)
  rwa [List.length_take, min_eq_left room] at restored

end Take

end BigEndian
