import Crossbook.Fixed
import Crossbook.Lib.Decimal

set_option autoImplicit false

namespace Crossbook

open Decimal

section Digits

theorem toNat_digitByte (magnitude : UInt64) :
    (digitByte magnitude).toNat = 48 + magnitude.toNat % 10 := by
  have small : magnitude.toNat % 10 < 10 := Nat.mod_lt _ (by decide)
  have digit : (magnitude % 10).toUInt8.toNat = magnitude.toNat % 10 := by
    rw [UInt64.toNat_toUInt8, UInt64.toNat_mod]
    exact Nat.mod_eq_of_lt (lt_of_lt_of_le small (by decide))
  rw [digitByte, UInt8.toNat_add, digit]
  exact Nat.mod_eq_of_lt (by change 48 + _ < 256; omega)

theorem digitsLoop_eq (magnitude : UInt64) :
    digitsLoop magnitude =
      digitByte magnitude :: if magnitude / 10 = 0 then [] else digitsLoop (magnitude / 10) := by
  rw [digitsLoop]
  rfl

theorem digitsLoop_length (magnitude : UInt64) (k : Nat) (small : magnitude.toNat < 10 ^ (k + 1)) :
    (digitsLoop magnitude).length ≤ k + 1 := by
  induction k generalizing magnitude with
  | zero =>
    have zero : magnitude / 10 = 0 := by
      rw [← UInt64.toNat_inj, UInt64.toNat_div]
      exact Nat.div_eq_of_lt small
    rw [digitsLoop_eq, if_pos zero]
    exact le_refl 1
  | succ k ih =>
    rw [digitsLoop_eq]
    split
    · exact Nat.le_add_left 1 _
    · refine Nat.succ_le_succ (ih _ ?_)
      rw [UInt64.toNat_div]
      exact Nat.div_lt_of_lt_mul (by rw [pow_succ] at small; exact small.trans_eq (mul_comm _ _))

theorem digitByte_eq (magnitude : UInt64) :
    digitByte magnitude = digit (magnitude.toNat % 10) := by
  have small : magnitude.toNat % 10 < 10 := Nat.mod_lt _ (by decide)
  rw [← UInt8.toNat_inj, toNat_digitByte, digit, UInt8.toNat_ofNat']
  omega

theorem digitsLoop_print (magnitude : UInt64) :
    (digitsLoop magnitude).reverse = print magnitude.toNat := by
  fun_induction digitsLoop magnitude with
  | case1 magnitude ih =>
    have quotient : (magnitude / 10).toNat = magnitude.toNat / 10 := UInt64.toNat_div _ _
    have last : magnitude / 10 = 0 ↔ magnitude.toNat < 10 := by
      rw [← UInt64.toNat_inj, quotient]
      change magnitude.toNat / 10 = 0 ↔ _
      omega
    have here := digitByte_eq magnitude
    unfold digitByte at here
    rw [print]
    by_cases small : magnitude.toNat < 10
    · rw [if_pos (last.mpr small), if_pos small]
      rw [Nat.mod_eq_of_lt small] at here
      exact congrArg (fun c => [c]) here
    · have more := last.not.mpr small
      rw [if_neg more, if_neg small, List.reverse_cons, ih more, quotient]
      exact congrArg (fun c => print (magnitude.toNat / 10) ++ [c]) here

theorem formatFraction_append (places : Nat) (magnitude : UInt64) (text : Bytes) :
    formatFraction places magnitude text =
      ((formatFraction places magnitude []).1, (formatFraction places magnitude []).2 ++ text) := by
  induction places generalizing magnitude text with
  | zero => rfl
  | succ places ih =>
    rw [formatFraction, formatFraction, ih, ih _ [digitByte magnitude]]
    simp

theorem length_formatFraction (places : Nat) (magnitude : UInt64) :
    (formatFraction places magnitude []).2.length = places := by
  induction places generalizing magnitude with
  | zero => rfl
  | succ places ih =>
    rw [formatFraction, formatFraction_append]
    simp [ih]

theorem digits_formatFraction (places : Nat) (magnitude : UInt64) :
    ∀ c ∈ (formatFraction places magnitude []).2, Decimal.isDigit c = true := by
  induction places generalizing magnitude with
  | zero => simp [formatFraction]
  | succ places ih =>
    rw [formatFraction, formatFraction_append, List.forall_mem_append]
    refine ⟨ih (magnitude / 10), ?_⟩
    rw [List.forall_mem_singleton, digitByte_eq]
    exact digit_isDigit _ (Nat.mod_lt _ (by decide))

theorem value_formatFraction (places : Nat) (magnitude : UInt64) :
    valueFrom (formatFraction places magnitude []).1.toNat (formatFraction places magnitude []).2 =
      magnitude.toNat := by
  induction places generalizing magnitude with
  | zero => rfl
  | succ places ih =>
    have last := digitValue_digit (magnitude.toNat % 10) (Nat.mod_lt _ (by decide))
    have quotient : (magnitude / 10).toNat = magnitude.toNat / 10 := UInt64.toNat_div _ _
    rw [formatFraction, formatFraction_append, valueFrom_append, ih, quotient, valueFrom_cons,
      digitByte_eq, last]
    exact Nat.div_add_mod' _ _

theorem toNat_formatFraction (places : Nat) (magnitude : UInt64) (text : Bytes) :
    (formatFraction places magnitude text).1.toNat = magnitude.toNat / 10 ^ places := by
  induction places generalizing magnitude text with
  | zero => simp [formatFraction]
  | succ places ih =>
    have quotient : (magnitude / 10).toNat = magnitude.toNat / 10 := UInt64.toNat_div _ _
    rw [formatFraction, ih, quotient, Nat.div_div_eq_div_mul, pow_succ, mul_comm]

end Digits

end Crossbook
