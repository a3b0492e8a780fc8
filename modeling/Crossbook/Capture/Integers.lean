import Crossbook.Capture.Records
import Crossbook.Fixed.Reading
import Crossbook.Json.Spelled
import Crossbook.Lib.Signed

set_option autoImplicit false

namespace Crossbook

namespace Capture

section Words

open Signed

-- The digits in the signed words of the source: `none` where one of its steps is undefined.
def parseI64DigitWords (value : Int64) : Bytes → Option Int64
  | [] => some value
  | c :: rest =>
    if isDigit c = false then some (-1)
    else do
      let digit := (c - ascii '0').toUInt64.toInt64
      let room ← sub 9223372036854775807 digit
      let limit ← div room 10
      if limit < value then some (-1)
      else do
        let scaled ← mul value 10
        let next ← add scaled digit
        parseI64DigitWords next rest

def parseI64Words (text : Bytes) : Option Int64 :=
  if text.isEmpty then some (-1) else parseI64DigitWords 0 text

section Step

variable {value digit : Nat} {word : Int64}

theorem guard_iff (unit : word.toInt = digit) (single : digit < 10) (small : value < 2 ^ 63) :
    (9223372036854775807 - word) / 10 < Int64.ofNat value ↔
      (9223372036854775807 - digit) / 10 < value := by
  have ten : (10 : Int64).toInt = 10 := rfl
  have top : (9223372036854775807 : Int64).toInt = 9223372036854775807 := rfl
  have room := MachineInt.toInt_sub_of_fits 9223372036854775807 word (by omega) (by omega)
  have tenth : Divides (9223372036854775807 - word) 10 := .of_pos (by decide)
  have limit : ((9223372036854775807 - word) / 10).toInt = (9223372036854775807 - digit) / 10 := by
    rw [toInt_div tenth, room, top, unit, ten, Int.tdiv_eq_ediv_of_nonneg (by omega)]
  rw [Int64.lt_iff_toInt_lt, limit, Int64.toInt_ofNat_of_lt small]
  omega

theorem scale_defined (room : value * 10 < 2 ^ 63) :
    mul (Int64.ofNat value) 10 = some (Int64.ofNat (value * 10)) := by
  have ten : (10 : Int64).toInt = 10 := rfl
  have held := Int64.toInt_ofNat_of_lt (by omega : value < 2 ^ 63)
  rw [mul, exactly_eq_some, held, ten, Int64.toInt_ofNat_of_lt room]
  push_cast
  rfl

theorem push_defined (unit : word.toInt = digit) (room : value + digit < 2 ^ 63) :
    add (Int64.ofNat value) word = some (Int64.ofNat (value + digit)) := by
  have held := Int64.toInt_ofNat_of_lt (by omega : value < 2 ^ 63)
  rw [add, exactly_eq_some, held, unit, Int64.toInt_ofNat_of_lt room]
  push_cast
  rfl

end Step

theorem parseI64DigitWords_eq (value : Nat) (small : value < 2 ^ 63) (text : Bytes) :
    parseI64DigitWords (Int64.ofNat value) text = some (match parseI64Digits value text with
      | none => -1
      | some value => Int64.ofNat value) := by
  induction text generalizing value with
  | nil => rfl
  | cons c rest ih =>
    rw [parseI64DigitWords, parseI64Digits]
    cases isDig : isDigit c with
    | false => rw [if_pos rfl, if_pos rfl]
    | true =>
      have unit := toInt_digit isDig
      have single := Decimal.digitValue_lt isDig
      have spelled : (c - ascii '0').toNat = Decimal.digitValue c := rfl
      have top : (9223372036854775807 : Int64).toInt = 9223372036854775807 := rfl
      have tenth (room : Int64) : Divides room 10 := .of_pos (by decide)
      generalize (c - ascii '0').toUInt64.toInt64 = word at unit
      have guard := guard_iff unit single small
      rw [if_neg (by decide), if_neg (by decide)]
      dsimp only
      rw [spelled, sub_of_fits (by omega) (by omega), Option.bind_eq_bind, Option.bind_some,
        div_of_divides (tenth _), Option.bind_some]
      by_cases overflow : (9223372036854775807 - Decimal.digitValue c) / 10 < value
      · rw [if_pos (guard.mpr overflow), if_pos overflow]
      · have scaled := scale_defined (by omega : value * 10 < 2 ^ 63)
        have pushed := push_defined unit (by omega : value * 10 + Decimal.digitValue c < 2 ^ 63)
        rw [if_neg (mt guard.mp overflow), if_neg overflow, scaled, Option.bind_some, pushed,
          Option.bind_some]
        exact ih (value * 10 + Decimal.digitValue c) (by omega)

theorem parseI64Words_eq (text : Bytes) : parseI64Words text = some (parseI64 text) := by
  rw [parseI64Words, parseI64]
  split
  next => rfl
  next => exact parseI64DigitWords_eq 0 (by decide) text

end Words

/-- Both readers of a token: what they accept, and the number that they then read. -/
structure IntegersExact (token : Bytes) : Prop where
  u64 : (∃ id, Json.parseU64 token = some id) ↔
    Decimal.Number token ∧ Decimal.value token ≤ 2 ^ 64 - 1
  u64Value (id : UInt64) : Json.parseU64 token = some id → id.toNat = Decimal.value token
  i64 : (∃ ts, parseI64Words token = some ts ∧ 0 ≤ ts) ↔
    Decimal.Number token ∧ Decimal.value token ≤ 2 ^ 63 - 1
  i64Value (ts : Int64) : parseI64Words token = some ts → 0 ≤ ts → ts.toInt = Decimal.value token
  i64Refused : ¬ (Decimal.Number token ∧ Decimal.value token ≤ 2 ^ 63 - 1) →
    parseI64Words token = some (-1)

theorem parseU64_accepts (token : Bytes) : (∃ id, Json.parseU64 token = some id) ↔
    Decimal.Number token ∧ Decimal.value token ≤ 2 ^ 64 - 1 := by
  simp only [Json.parseU64_iff]
  constructor
  · rintro ⟨id, number, same⟩
    have bound := id.toNat_lt
    exact ⟨number, by omega⟩
  · rintro ⟨number, fits⟩
    refine ⟨UInt64.ofNat (Decimal.value token), number, ?_⟩
    exact UInt64.toNat_ofNat_of_lt' (Nat.lt_of_le_pred (by decide) fits)

theorem isI64_iff (token : Bytes) :
    IsI64 token ↔ Decimal.Number token ∧ Decimal.value token ≤ 2 ^ 63 - 1 := by
  constructor
  · intro isI64
    have fits := isI64.fits
    exact ⟨isI64.number, by omega⟩
  · rintro ⟨number, fits⟩
    exact ⟨number, by omega⟩

theorem integers_read_exactly (token : Bytes) : IntegersExact token := by
  have nonneg : 0 ≤ parseI64 token ↔ IsI64 token := by
    rw [← Int64.not_lt, parseI64_neg_iff, not_not]
  constructor
  case u64 => exact parseU64_accepts token
  case u64Value => exact fun id read => ((Json.parseU64_iff token id).mp read).2
  case i64 => simp only [parseI64Words_eq, Option.some.injEq, exists_eq_left', nonneg, isI64_iff]
  case i64Value =>
    intro ts read accepted
    rw [parseI64Words_eq, Option.some.injEq] at read
    subst read
    have isI64 := nonneg.mp accepted
    rw [parseI64_isI64 isI64, Int64.toInt_ofNat_of_lt isI64.fits]
  case i64Refused =>
    intro other
    rw [parseI64Words_eq, parseI64_eq, if_neg (mt (isI64_iff token).mp other)]

end Capture

end Crossbook
