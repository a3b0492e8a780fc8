import Crossbook.Lib.Scientific
import Crossbook.SignedArithmetic

set_option autoImplicit false

namespace Crossbook

open Decimal Scientific Spans

structure DigitRun.Holds (run : DigitRun) (value : Nat) : Prop where
  exact : run.overflowed = false → run.digits.toInt = value
  large : run.overflowed = true → 2 ^ 63 ≤ value

section Digits

theorem toInt_digit {c : UInt8} (digit : Decimal.isDigit c = true) :
    (c - ascii '0').toUInt64.toInt64.toInt = digitValue c := by
  have small := digitValue_lt digit
  have zero : ascii '0' = 48 := by decide
  rw [MachineInt.toInt_toInt64 _ (by rw [UInt8.toNat_toUInt64]; have := (c - ascii '0').toNat_lt; omega),
    UInt8.toNat_toUInt64, zero]
  rfl

theorem DigitRun.push_holds {run : DigitRun} {value : Nat} {c : UInt8} (holds : run.Holds value)
    (digit : Decimal.isDigit c = true) : (run.push c).Holds (value * 10 + digitValue c) := by
  have unit := toInt_digit digit
  have ten : (10 : Int64).toInt = 10 := rfl
  unfold DigitRun.push
  dsimp only
  cases flagged : run.overflowed with
  | true =>
    have large := holds.large flagged
    rw [if_pos rfl]
    exact ⟨nofun, fun _ => by omega⟩
  | false =>
    have exact := holds.exact flagged
    have scaled (out : Int64) := checkedMul_eq_some run.digits 10 out (by omega) (by decide)
    have added (sum out : Int64) := checkedAdd_eq_some sum (c - ascii '0').toUInt64.toInt64 out
      (by omega)
    simp only [ten] at scaled
    rw [if_neg Bool.false_ne_true]
    cases computed : (checkedMul run.digits 10).bind fun scaled =>
        checkedAdd scaled (c - ascii '0').toUInt64.toInt64 with
    | some digits =>
      obtain ⟨product, multiplied, summed⟩ := Option.bind_eq_some_iff.mp computed
      have first := (scaled product).mp multiplied
      have second := (added product digits).mp summed
      refine ⟨fun _ => ?_, nofun⟩
      dsimp only
      omega
    | none =>
      refine ⟨nofun, fun _ => ?_⟩
      by_contra small
      have fits : Fits (run.digits.toInt * 10) := by unfold Fits; omega
      have product := toInt_ofInt_of_fits fits
      have multiplied := (scaled (Int64.ofInt (run.digits.toInt * 10))).mpr ⟨by omega, product⟩
      have sumFits : Fits ((Int64.ofInt (run.digits.toInt * 10)).toInt +
          (c - ascii '0').toUInt64.toInt64.toInt) := by
        unfold Fits
        omega
      have summed := (added _ _).mpr ⟨sumFits, toInt_ofInt_of_fits sumFits⟩
      rw [multiplied, Option.bind_some, summed] at computed
      exact absurd computed (by simp)

@[simp] theorem DigitRun.fractionalCount_push (run : DigitRun) (c : UInt8) :
    (run.push c).fractionalCount = run.fractionalCount := by
  unfold DigitRun.push
  dsimp only
  split
  · rfl
  · split <;> rfl

@[simp] theorem DigitRun.anyDigit_push (run : DigitRun) (c : UInt8) :
    (run.push c).anyDigit = true := by
  unfold DigitRun.push
  dsimp only
  split
  · rfl
  · split <;> rfl

def DigitRun.pushes (run : DigitRun) (text : Bytes) : DigitRun := text.foldl DigitRun.push run

theorem DigitRun.pushes_holds {run : DigitRun} {value : Nat} (holds : run.Holds value) {text : Bytes}
    (digits : ∀ c ∈ text, Decimal.isDigit c = true) :
    (run.pushes text).Holds (valueFrom value text) := by
  induction text generalizing run value with
  | nil => exact holds
  | cons c rest ih =>
    obtain ⟨first, others⟩ := List.forall_mem_cons.mp digits
    exact ih (push_holds holds first) others

@[simp] theorem DigitRun.fractionalCount_pushes (run : DigitRun) (text : Bytes) :
    (run.pushes text).fractionalCount = run.fractionalCount := by
  induction text generalizing run with
  | nil => rfl
  | cons c rest ih => exact (ih (run.push c)).trans (by simp)

theorem DigitRun.anyDigit_pushes (run : DigitRun) (text : Bytes) :
    (run.pushes text).anyDigit = (run.anyDigit || !text.isEmpty) := by
  induction text generalizing run with
  | nil => simp [pushes]
  | cons c rest ih => exact (ih (run.push c)).trans (by simp)

theorem integerDigits_eq (run : DigitRun) (text : Bytes) :
    integerDigits run text =
      (run.pushes (text.takeWhile isDigit), text.dropWhile isDigit) := by
  induction text generalizing run with
  | nil => rfl
  | cons c rest ih =>
    rw [integerDigits]
    cases digit : isDigit c with
    | true =>
      rw [if_pos rfl, ih, List.takeWhile_cons_of_pos digit, List.dropWhile_cons_of_pos digit]
      rfl
    | false =>
      rw [if_neg Bool.false_ne_true, List.takeWhile_cons_of_neg (by simp [digit]),
        List.dropWhile_cons_of_neg (by simp [digit])]
      rfl

end Digits

section Parts

def DigitRun.withCount (run : DigitRun) (count : Int32) : DigitRun :=
  { run with fractionalCount := count }

theorem DigitRun.push_withCount (run : DigitRun) (count : Int32) (c : UInt8) :
    (run.withCount count).push c = (run.push c).withCount count := by
  unfold push withCount
  dsimp only
  split
  · rfl
  · split <;> rfl

theorem DigitRun.pushes_withCount (run : DigitRun) (count : Int32) (text : Bytes) :
    (run.withCount count).pushes text = (run.pushes text).withCount count := by
  induction text generalizing run with
  | nil => rfl
  | cons c rest ih =>
    rw [pushes, List.foldl_cons, push_withCount]
    exact ih (run.push c)

theorem fractionDigits_eq (run : DigitRun) (text : Bytes) :
    fractionDigits run text =
      ((run.pushes (text.takeWhile isDigit)).withCount
        (run.fractionalCount + Int32.ofNat (text.takeWhile isDigit).length),
        text.dropWhile isDigit) := by
  induction text generalizing run with
  | nil => simp [fractionDigits, DigitRun.pushes, DigitRun.withCount]
  | cons c rest ih =>
    rw [fractionDigits]
    cases digit : isDigit c with
    | true =>
      have counted := ih ((run.push c).withCount (run.fractionalCount + 1))
      rw [DigitRun.pushes_withCount] at counted
      rw [if_pos rfl, List.takeWhile_cons_of_pos digit, List.dropWhile_cons_of_pos digit,
        List.length_cons, Nat.add_comm, Int32.ofNat_add, ← Int32.add_assoc]
      exact counted
    | false =>
      rw [if_neg Bool.false_ne_true, List.takeWhile_cons_of_neg (by simp [digit]),
        List.dropWhile_cons_of_neg (by simp [digit])]
      simp [DigitRun.pushes, DigitRun.withCount]

theorem exponentDigits_eq (value : Nat) (text : Bytes) :
    exponentDigits (Int32.ofNat (min 1000 value)) text =
      (Int32.ofNat (min 1000 (valueFrom value (text.takeWhile isDigit))),
        text.dropWhile isDigit) := by
  induction text generalizing value with
  | nil => rfl
  | cons c rest ih =>
    rw [exponentDigits]
    cases digit : isDigit c with
    | true =>
      have small := digitValue_lt digit
      have unit : (c - ascii '0').toUInt32.toInt32 = Int32.ofNat (digitValue c) := by
        rw [← UInt32.ofNat_uInt8ToNat]
        rfl
      have next : Int32.ofNat (min 1000 value) * 10 + (c - ascii '0').toUInt32.toInt32 =
          Int32.ofNat (min 1000 value * 10 + digitValue c) := by
        rw [unit, Int32.ofNat_add, Int32.ofNat_mul]
        rfl
      have large : 1000 < Int32.ofNat (min 1000 value * 10 + digitValue c) ↔
          1000 < min 1000 value * 10 + digitValue c :=
        Int32.ofNat_lt_iff_lt (a := 1000) (by omega) (by omega)
      have clamped : (if 1000 < Int32.ofNat (min 1000 value * 10 + digitValue c) then 1000
          else Int32.ofNat (min 1000 value * 10 + digitValue c)) =
          Int32.ofNat (min 1000 (value * 10 + digitValue c)) := by
        by_cases beyond : 1000 < min 1000 value * 10 + digitValue c
        · have past : min 1000 (value * 10 + digitValue c) = 1000 := by omega
          rw [if_pos (large.mpr beyond), past]
          rfl
        · have within : min 1000 (value * 10 + digitValue c) =
              min 1000 value * 10 + digitValue c := by omega
          rw [if_neg (large.not.mpr beyond), within]
      rw [if_pos rfl, List.takeWhile_cons_of_pos digit, List.dropWhile_cons_of_pos digit, next,
        valueFrom_cons]
      dsimp only
      rw [clamped]
      exact ih _
    | false =>
      rw [if_neg Bool.false_ne_true, List.takeWhile_cons_of_neg (by simp [digit]),
        List.dropWhile_cons_of_neg (by simp [digit])]
      rfl

def isSign (c : UInt8) : Bool := c == Sign.plus.byte || c == Sign.minus.byte

theorem takeSign_text (sign : Option Sign) {rest : Bytes} (stops : Stops isSign rest) :
    takeSign (signText sign ++ rest) = (sign == some .minus, rest) := by
  cases sign with
  | none =>
    cases rest with
    | nil => rfl
    | cons c rest =>
      have plain : ¬ (c = ascii '+' ∨ c = ascii '-') := by
        simpa [isSign, Sign.byte, ascii] using stops
      rw [signText, List.nil_append, takeSign, if_neg plain]
      rfl
  | some sign => cases sign <;> rfl

theorem digits_stop_sign {digits : Bytes} (all : ∀ c ∈ digits, Decimal.isDigit c = true) :
    Stops isSign digits := by
  cases digits with
  | nil => exact stops_nil
  | cons c rest =>
    have digit := all c (by simp)
    rw [stops_cons]
    by_contra sign
    simp only [isSign, Bool.not_eq_false, Bool.or_eq_true, beq_iff_eq] at sign
    rcases sign with rfl | rfl <;> exact absurd digit (by decide)

end Parts

section Numerals

def cutExponent : Option Exponent → Int
  | none => 0
  | some e => if e.sign = some .minus then -(min 1000 e.magnitude : Nat) else min 1000 e.magnitude

/-- The shift `parseFixed` asks for, before the `int` wraps it. -/
def cutShift (n : Numeral) (scale : Scale) : Int :=
  scale.toNat + cutExponent n.exponent - n.places

def settled (n : Numeral) (scale : Scale) : ParseResult :=
  if 2 ^ 63 ≤ n.significand then ⟨0, .overflow⟩
  else
    let shifted := shiftMantissa (Int64.ofNat n.significand) (Int32.ofInt (cutShift n scale))
    if shifted.ok then ⟨if n.negative then -shifted.mantissa else shifted.mantissa, .ok⟩
    else shifted

theorem exponentPart_text (exponent : Option Exponent) :
    exponentPart (exponentText exponent) = some (Int32.ofInt (cutExponent exponent), []) := by
  cases exponent with
  | none => rfl
  | some e =>
    obtain ⟨upper, sign, digits, number⟩ := e
    obtain ⟨d, rest, rfl⟩ := List.exists_cons_of_ne_nil number.some_
    have first : isDigit d = true := number.digits d (by simp)
    have marked : (Exponent.mark ⟨upper, sign, d :: rest, number⟩ = ascii 'e' ∨
        Exponent.mark ⟨upper, sign, d :: rest, number⟩ = ascii 'E') := by
      cases upper <;> simp [Exponent.mark, ascii]
    have signed := takeSign_text sign (digits_stop_sign number.digits)
    have run := takeWhile_run number.digits (stops_nil (p := Decimal.isDigit))
    have tail := dropWhile_run number.digits (stops_nil (p := Decimal.isDigit))
    rw [List.append_nil] at run tail
    have read := exponentDigits_eq 0 (d :: rest)
    have same : isDigit = Decimal.isDigit := rfl
    rw [same, run, tail] at read
    rw [exponentText, Exponent.text, exponentPart, if_pos marked]
    dsimp only
    rw [signed]
    dsimp only
    rw [if_pos first]
    have start : Int32.ofNat (min 1000 0) = 0 := rfl
    rw [start] at read
    rw [read, cutExponent, Exponent.magnitude, Decimal.value]
    cases negative : sign == some .minus with
    | true =>
      have minus : sign = some .minus := by simpa using negative
      simp [minus, Int32.neg_ofNat]
    | false =>
      have plain : sign ≠ some .minus := by simpa using negative
      simp [plain, ← Int32.ofInt_eq_ofNat]

theorem fractionPart_text (run : DigitRun) {fraction : Option Bytes}
    (digits : ∀ c ∈ fraction.getD [], Decimal.isDigit c = true) (exponent : Option Exponent) :
    fractionPart run (fractionText fraction ++ exponentText exponent) =
      ((run.pushes (fraction.getD [])).withCount
        (run.fractionalCount + Int32.ofNat (fraction.getD []).length), exponentText exponent) := by
  have whole : run.withCount (run.fractionalCount + Int32.ofNat 0) = run := by
    simp [DigitRun.withCount]
  cases fraction with
  | none =>
    cases exponent with
    | none => exact congrArg (·, _) whole.symm
    | some e =>
      have noPoint : e.mark ≠ ascii '.' := by
        unfold Exponent.mark
        cases e.upper <;> decide
      rw [fractionText, List.nil_append, exponentText, Exponent.text, fractionPart, if_neg noPoint]
      exact congrArg (·, _) whole.symm
  | some digits' =>
    have stops := exponentText_stops exponent
    have same : isDigit = Decimal.isDigit := rfl
    rw [Option.getD_some] at digits
    have here : point = ascii '.' := by decide
    rw [fractionText, List.cons_append, fractionPart, if_pos here, fractionDigits_eq, same,
      takeWhile_run digits stops, dropWhile_run digits stops]
    rfl

theorem body_stops (n : Numeral) :
    Stops isSign (n.integer ++ (fractionText n.fraction ++ exponentText n.exponent)) := by
  have some_ := n.someDigit
  cases integer : n.integer with
  | cons c rest =>
    have digits := digits_stop_sign n.integerDigits
    rw [integer] at digits
    rw [List.cons_append, stops_cons]
    exact (stops_cons c rest).mp digits
  | nil =>
    cases fraction : n.fraction with
    | none => exact absurd (by rw [integer, fraction]; rfl) some_
    | some digits =>
      rw [List.nil_append, fractionText, List.cons_append, stops_cons]
      decide

theorem text_ne_nil (n : Numeral) : n.text ≠ [] := by
  intro empty
  obtain ⟨-, rest⟩ := List.append_eq_nil_iff.mp empty
  obtain ⟨integer, later⟩ := List.append_eq_nil_iff.mp rest
  obtain ⟨fraction, -⟩ := List.append_eq_nil_iff.mp later
  apply n.someDigit
  rw [integer]
  cases kept : n.fraction with
  | none => rfl
  | some digits =>
    rw [kept] at fraction
    exact absurd fraction (by simp [fractionText])

def numeralRun (n : Numeral) : DigitRun :=
  (DigitRun.mk 0 0 false false).pushes n.digits

theorem numeralRun_holds (n : Numeral) : (numeralRun n).Holds n.significand := by
  have start : (DigitRun.mk 0 0 false false).Holds 0 := ⟨fun _ => rfl, nofun⟩
  exact DigitRun.pushes_holds start (List.forall_mem_append.mpr ⟨n.integerDigits, n.fractionDigits⟩)

theorem DigitRun.Holds.digits_eq {run : DigitRun} {value : Nat} (holds : run.Holds value)
    (small : ¬ 2 ^ 63 ≤ value) : run.overflowed = false ∧ run.digits = Int64.ofNat value := by
  have calm : run.overflowed = false := by
    by_contra flagged
    exact small (holds.large (by simpa using flagged))
  refine ⟨calm, Int64.toInt_inj.mp ?_⟩
  rw [holds.exact calm, Int64.toInt_ofNat_of_lt (by omega)]

def finish (negative : Bool) (scale : Scale) (read : DigitRun × Bytes) : ParseResult :=
  if read.1.anyDigit = false then ⟨0, .malformed⟩
  else
    match exponentPart read.2 with
    | none => ⟨0, .malformed⟩
    | some (exponent, rest) =>
      if rest.isEmpty = false then ⟨0, .malformed⟩
      else if read.1.overflowed then ⟨0, .overflow⟩
      else
        let shifted := shiftMantissa read.1.digits
          (scale.toUInt32.toInt32 + exponent - read.1.fractionalCount)
        if shifted.ok then ⟨if negative then -shifted.mantissa else shifted.mantissa, .ok⟩
        else shifted

def readDigits (text : Bytes) : DigitRun × Bytes :=
  let integer := integerDigits ⟨0, 0, false, false⟩ text
  fractionPart integer.1 integer.2

theorem parseFixed_eq {text : Bytes} {scale : Scale} (valid : scale ≤ kMaxScale)
    (some_ : text ≠ []) :
    parseFixed text scale = finish (takeSign text).1 scale (readDigits (takeSign text).2) := by
  have nonempty : text.isEmpty = false := List.isEmpty_eq_false_iff.mpr some_
  rw [parseFixed, if_neg (UInt8.not_lt.mpr valid), nonempty, if_neg Bool.false_ne_true]
  rfl

theorem readDigits_text (n : Numeral) :
    readDigits (n.integer ++ (fractionText n.fraction ++ exponentText n.exponent)) =
      ((numeralRun n).withCount (Int32.ofNat n.places), exponentText n.exponent) := by
  have stops := fractionText_stops n.fraction n.exponent
  have same : isDigit = Decimal.isDigit := rfl
  have merged : ((DigitRun.mk 0 0 false false).pushes n.integer).pushes (n.fraction.getD []) =
      numeralRun n := List.foldl_append.symm
  rw [readDigits, integerDigits_eq, same, takeWhile_run n.integerDigits stops,
    dropWhile_run n.integerDigits stops]
  dsimp only
  rw [fractionPart_text _ n.fractionDigits, merged, DigitRun.fractionalCount_pushes, Int32.zero_add]
  rfl

theorem shift_eq (n : Numeral) (scale : Scale) :
    scale.toUInt32.toInt32 + Int32.ofInt (cutExponent n.exponent) - Int32.ofNat n.places =
      Int32.ofInt (cutShift n scale) := by
  have scaled : scale.toUInt32.toInt32 = Int32.ofInt scale.toNat := by
    rw [← UInt32.ofNat_uInt8ToNat, Int32.ofInt_eq_ofNat]
    rfl
  rw [scaled, ← Int32.ofInt_eq_ofNat, cutShift, Int32.ofInt_sub, Int32.ofInt_add]

theorem parseFixed_text (n : Numeral) {scale : Scale} (valid : scale ≤ kMaxScale) :
    parseFixed n.text scale = settled n scale := by
  have any : (numeralRun n).anyDigit = true := by
    have some_ : n.digits.isEmpty = false := List.isEmpty_eq_false_iff.mpr n.someDigit
    rw [numeralRun, DigitRun.anyDigit_pushes, some_]
    rfl
  have holds := numeralRun_holds n
  rw [parseFixed_eq valid (text_ne_nil n), Numeral.text, takeSign_text n.sign (body_stops n)]
  dsimp only
  rw [readDigits_text, finish]
  simp only [DigitRun.withCount, any, Bool.true_eq_false, if_false, exponentPart_text,
    List.isEmpty_nil, shift_eq]
  rw [settled]
  by_cases large : 2 ^ 63 ≤ n.significand
  · have flagged : (numeralRun n).overflowed = true := by
      by_contra calm
      have exact := holds.exact (by simpa using calm)
      have bound := (numeralRun n).digits.toInt_lt
      omega
    rw [if_pos flagged, if_pos large]
  · obtain ⟨calm, digits⟩ := holds.digits_eq large
    rw [calm, digits, if_neg Bool.false_ne_true, if_neg large]
    rfl

end Numerals

section Grammar

theorem sign_exists (text : Bytes) : ∃ sign, text = signText sign ++ (takeSign text).2 := by
  cases text with
  | nil => exact ⟨none, rfl⟩
  | cons c rest =>
    rw [takeSign]
    split
    next signed =>
      rcases signed with rfl | rfl
      · exact ⟨some .plus, rfl⟩
      · exact ⟨some .minus, rfl⟩
    next => exact ⟨none, rfl⟩

theorem mem_takeWhile_digit {text : Bytes} :
    ∀ c ∈ text.takeWhile isDigit, Decimal.isDigit c = true :=
  fun _ member => List.mem_takeWhile_imp member

theorem fraction_exists (run : DigitRun) (text : Bytes) :
    ∃ fraction : Option Bytes, (∀ c ∈ fraction.getD [], Decimal.isDigit c = true) ∧
      text = fractionText fraction ++ (fractionPart run text).2 ∧
      (fractionPart run text).1.anyDigit = (run.anyDigit || !(fraction.getD []).isEmpty) := by
  cases text with
  | nil => exact ⟨none, by simp, rfl, by simp [fractionPart]⟩
  | cons c rest =>
    rw [fractionPart]
    split
    next pointed =>
      refine ⟨some (rest.takeWhile isDigit), mem_takeWhile_digit, ?_, ?_⟩
      · rw [fractionDigits_eq, pointed, fractionText, List.cons_append,
          List.takeWhile_append_dropWhile]
        rfl
      · rw [fractionDigits_eq]
        exact DigitRun.anyDigit_pushes _ _
    next => exact ⟨none, by simp, rfl, by simp⟩

theorem exponent_exists {text : Bytes} {exponent : Int32}
    (read : exponentPart text = some (exponent, [])) : ∃ e, text = exponentText e := by
  cases text with
  | nil => exact ⟨none, rfl⟩
  | cons c rest =>
    rw [exponentPart] at read
    split at read
    next marked =>
      obtain ⟨sign, whole⟩ := sign_exists rest
      dsimp only at read
      cases digits : (takeSign rest).2 with
      | nil => simp [digits] at read
      | cons d others =>
        rw [digits] at read
        dsimp only at read
        split at read
        next first =>
          have spelled := exponentDigits_eq 0 (d :: others)
          have start : Int32.ofNat (min 1000 0) = 0 := rfl
          rw [start] at spelled
          rw [spelled, Option.some.injEq, Prod.mk.injEq] at read
          have all : ∀ c ∈ d :: others, Decimal.isDigit c = true := by
            rw [List.dropWhile_eq_nil_iff] at read
            exact read.2
          rw [digits] at whole
          refine ⟨some ⟨c == ascii 'E', sign, d :: others, ⟨by simp, all⟩⟩, ?_⟩
          rw [exponentText, Exponent.text, whole]
          rcases marked with rfl | rfl <;> rfl
        next => simp at read
    next => simp at read

theorem numeral_of_parseFixed {text : Bytes} {scale : Scale} (valid : scale ≤ kMaxScale)
    (some_ : text ≠ []) (formed : (parseFixed text scale).error ≠ .malformed) :
    ∃ n : Numeral, n.text = text := by
  rw [parseFixed_eq valid some_] at formed
  obtain ⟨sign, whole⟩ := sign_exists text
  generalize (takeSign text).2 = body at whole formed
  obtain ⟨fraction, digits, parts, any⟩ :=
    fraction_exists (integerDigits ⟨0, 0, false, false⟩ body).1
      (integerDigits ⟨0, 0, false, false⟩ body).2
  rw [integerDigits_eq] at parts any
  dsimp only at parts any
  rw [finish, readDigits, integerDigits_eq] at formed
  dsimp only at formed
  generalize fractionPart _ _ = read at parts any formed
  split at formed
  next => simp at formed
  next seen =>
    cases tail : exponentPart read.2 with
    | none => simp [tail] at formed
    | some found =>
      obtain ⟨exponent, rest⟩ := found
      rw [tail] at formed
      dsimp only at formed
      split at formed
      next => simp at formed
      next done =>
        have ended : rest = [] := by simpa using done
        rw [ended] at tail
        obtain ⟨e, spelled⟩ := exponent_exists tail
        rw [any, DigitRun.anyDigit_pushes] at seen
        refine ⟨⟨sign, body.takeWhile isDigit, fraction, e, mem_takeWhile_digit, digits, ?_⟩, ?_⟩
        · intro none
          obtain ⟨first, second⟩ := List.append_eq_nil_iff.mp none
          simp [first, second] at seen
        · rw [Numeral.text, whole, ← spelled, ← parts, List.takeWhile_append_dropWhile]

end Grammar

end Crossbook
