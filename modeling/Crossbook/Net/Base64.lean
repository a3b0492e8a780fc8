import Crossbook.Fixed
import Crossbook.Lib.Base64
import Crossbook.Lib.Packed

set_option autoImplicit false

namespace Crossbook

namespace Net

def kAlphabet : Bytes := bytes "ABCDEFGHIJKLMNOPQRSTUVWXYZabcdefghijklmnopqrstuvwxyz0123456789+/"

def symbolAt (block shift : UInt32) : UInt8 := kAlphabet[(block >>> shift &&& 0x3F).toNat]!

def encodeBlocks (data : Bytes) (i : Nat) (out : Bytes) : Nat × Bytes :=
  if inside : i + 3 ≤ data.length then
    let block := data[i].toUInt32 <<< 16 ||| data[i + 1].toUInt32 <<< 8 ||| data[i + 2].toUInt32
    encodeBlocks data (i + 3)
      (out ++ [symbolAt block 18, symbolAt block 12, symbolAt block 6, symbolAt block 0])
  else (i, out)
termination_by data.length - i

def encodeTail (data : Bytes) (i : Nat) (out : Bytes) : Bytes :=
  if inside : i < data.length then
    let remaining := data.length - i
    let block := data[i].toUInt32 <<< 16
    let block := if two : remaining = 2 then block ||| data[i + 1].toUInt32 <<< 8 else block
    out ++ [symbolAt block 18, symbolAt block 12,
      if remaining = 2 then symbolAt block 6 else ascii '=', ascii '=']
  else out

def base64Encode (data : Bytes) : Bytes :=
  let (i, out) := encodeBlocks data 0 []
  encodeTail data i out

section Groups

theorem kAlphabet_eq : kAlphabet = Base64.alphabet := rfl

theorem toNat_block (x y z : UInt8) :
    (x.toUInt32 <<< 16 ||| y.toUInt32 <<< 8 ||| z.toUInt32).toNat = Base64.group x y z := by
  have packed := Packed.toNat_pack 0 x y z
  simpa [Base64.group] using packed

theorem symbolAt_eq {block shift : UInt32} {group : Nat} (same : block.toNat = group)
    (inside : shift.toNat < 32) :
    symbolAt block shift = Base64.symbol (group / 2 ^ shift.toNat % 64) := by
  have field := Packed.toNat_field block shift 0x3F 6 inside rfl
  rw [symbolAt, field, same, kAlphabet_eq]
  rfl

theorem symbols_eq {block : UInt32} {group : Nat} (same : block.toNat = group) :
    [symbolAt block 18, symbolAt block 12, symbolAt block 6, symbolAt block 0] =
      (Base64.sextets group).map Base64.symbol := by
  rw [symbolAt_eq same (by decide), symbolAt_eq same (by decide), symbolAt_eq same (by decide),
    symbolAt_eq same (by decide)]
  simp [Base64.sextets]

end Groups

section Loop

variable {data : Bytes} {i : Nat}

theorem drop_three (inside : i + 3 ≤ data.length) :
    data.drop i = data[i] :: data[i + 1] :: data[i + 2] :: data.drop (i + 3) := by
  rw [List.drop_eq_getElem_cons (by omega), List.drop_eq_getElem_cons (by omega : i + 1 < _),
    List.drop_eq_getElem_cons (by omega : i + 1 + 1 < _)]

theorem encodeTail_one (inside : i + 1 = data.length) (out : Bytes) :
    encodeTail data i out = out ++ Base64.encode (data.drop i) := by
  have rest : data.drop i = [data[i]] := by
    rw [List.drop_eq_getElem_cons (by omega), List.drop_of_length_le (by omega)]
  have same : (data[i].toUInt32 <<< 16).toNat = Base64.group data[i] 0 0 := by
    simpa using toNat_block data[i] 0 0
  have one : ¬ data.length - i = 2 := by omega
  rw [encodeTail, dif_pos (by omega), rest, Base64.encode]
  dsimp only
  rw [dif_neg one, if_neg one, symbolAt_eq same (by decide), symbolAt_eq same (by decide)]
  rfl

theorem encodeTail_two (inside : i + 2 = data.length) (out : Bytes) :
    encodeTail data i out = out ++ Base64.encode (data.drop i) := by
  have rest : data.drop i = [data[i], data[i + 1]] := by
    rw [List.drop_eq_getElem_cons (by omega), List.drop_eq_getElem_cons (by omega : i + 1 < _),
      List.drop_of_length_le (by omega)]
  have same : (data[i].toUInt32 <<< 16 ||| data[i + 1].toUInt32 <<< 8).toNat =
      Base64.group data[i] data[i + 1] 0 := by
    simpa using toNat_block data[i] data[i + 1] 0
  have two : data.length - i = 2 := by omega
  rw [encodeTail, dif_pos (by omega), rest, Base64.encode]
  dsimp only
  rw [dif_pos two, if_pos two, symbolAt_eq same (by decide), symbolAt_eq same (by decide),
    symbolAt_eq same (by decide)]
  rfl

theorem encodeTail_eq (short : data.length < i + 3) (out : Bytes) :
    encodeTail data i out = out ++ Base64.encode (data.drop i) := by
  rcases (by omega : data.length ≤ i ∨ i + 1 = data.length ∨ i + 2 = data.length) with
    none | one | two
  · rw [encodeTail, dif_neg (not_lt.mpr none), List.drop_of_length_le none, Base64.encode,
      List.append_nil]
  · exact encodeTail_one one out
  · exact encodeTail_two two out

theorem encodeBlocks_eq (data : Bytes) (i : Nat) (out : Bytes) :
    encodeTail data (encodeBlocks data i out).1 (encodeBlocks data i out).2 =
      out ++ Base64.encode (data.drop i) := by
  fun_induction encodeBlocks data i out with
  | case1 i out inside block ih =>
    rw [ih, drop_three inside, Base64.encode, symbols_eq (toNat_block _ _ _), List.append_assoc]
  | case2 i out short => exact encodeTail_eq (not_le.mp short) out

theorem base64Encode_eq (data : Bytes) : base64Encode data = Base64.encode data :=
  encodeBlocks_eq data 0 []

end Loop

structure StandardBase64 (data : Bytes) : Prop where
  length : (base64Encode data).length = 4 * ⌈(data.length : ℚ) / 3⌉₊
  symbols : ∃ body, (∀ c ∈ body, c ∈ Base64.alphabet) ∧
    base64Encode data = body ++ List.replicate ((3 - data.length % 3) % 3) (ascii '=')
  decodes : Base64.decode (base64Encode data) = some data

theorem ceil_thirds (n : Nat) : ⌈(n : ℚ) / 3⌉₊ = (n + 2) / 3 := by
  apply eq_of_forall_ge_iff
  intro c
  rw [Nat.ceil_le, div_le_iff₀ (by norm_num)]
  have cast : (n : ℚ) ≤ c * 3 ↔ n ≤ c * 3 := by exact_mod_cast Iff.rfl
  rw [cast]
  omega

theorem base64Encode_standard :
    (∀ data, StandardBase64 data) ∧ Function.Injective base64Encode := by
  have standard (data : Bytes) : StandardBase64 data := by
    constructor
    case length => rw [base64Encode_eq, Base64.length_encode, ceil_thirds]
    case symbols =>
      rw [base64Encode_eq]
      exact Base64.encode_shape data
    case decodes => rw [base64Encode_eq, Base64.decode_encode]
  refine ⟨standard, fun left right same => ?_⟩
  have decoded := (standard left).decodes
  rw [same, (standard right).decodes] at decoded
  exact (Option.some.inj decoded).symm

end Net

end Crossbook
