import Mathlib

set_option autoImplicit false

namespace LittleEndian

def encode : Nat → Nat → List UInt8
  | 0, _ => []
  | width + 1, value => UInt8.ofNat (value % 256) :: encode width (value / 256)

def decode : List UInt8 → Nat
  | [] => 0
  | byte :: rest => byte.toNat + 256 * decode rest

def load (width : Nat) (data : List UInt8) (start : Nat) : Nat := decode ((data.drop start).take width)

@[simp] theorem length_encode (width value : Nat) : (encode width value).length = width := by
  induction width generalizing value with
  | zero => rfl
  | succ width ih => simp [encode, ih]

theorem decode_encode (width value : Nat) : decode (encode width value) = value % 256 ^ width := by
  induction width generalizing value with
  | zero => simp [encode, decode, Nat.mod_one]
  | succ width ih =>
    have byte : (UInt8.ofNat (value % 256)).toNat = value % 256 := by
      rw [UInt8.toNat_ofNat']
      exact Nat.mod_eq_of_lt (Nat.mod_lt _ (by decide))
    rw [encode, decode, ih, byte, Nat.pow_succ, Nat.mul_comm _ 256, Nat.mod_mul]

theorem decode_lt (data : List UInt8) : decode data < 256 ^ data.length := by
  induction data with
  | nil => simp [decode]
  | cons byte rest ih =>
    have small := byte.toNat_lt
    rw [decode, List.length_cons, Nat.pow_succ]
    omega

theorem encode_decode (data : List UInt8) : encode data.length (decode data) = data := by
  induction data with
  | nil => rfl
  | cons byte rest ih =>
    have small := byte.toNat_lt
    have low : (byte.toNat + 256 * decode rest) % 256 = byte.toNat := by omega
    have high : (byte.toNat + 256 * decode rest) / 256 = decode rest := by omega
    rw [decode, List.length_cons, encode, low, high, ih, UInt8.ofNat_toNat]

theorem load_encode {width value start : Nat} {data rest : List UInt8}
    (placed : data.drop start = encode width value ++ rest) (fits : value < 256 ^ width) :
    load width data start = value := by
  have taken : (encode width value ++ rest).take width = encode width value :=
    List.take_left' (length_encode width value)
  rw [load, placed, taken, decode_encode, Nat.mod_eq_of_lt fits]

theorem load_prefix {width start : Nat} {part whole : List UInt8} (isPrefix : part <+: whole)
    (inside : start + width ≤ part.length) : load width whole start = load width part start := by
  obtain ⟨rest, rfl⟩ := isPrefix
  rw [load, load, List.drop_append_of_le_length (by omega), List.take_append_of_le_length]
  rw [List.length_drop]
  omega

end LittleEndian
