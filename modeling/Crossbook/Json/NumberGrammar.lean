import Crossbook.Json.CursorScan
import Crossbook.Lib.Regular

set_option autoImplicit false

namespace Crossbook

namespace Json

open Spans Regular RegularExpression

section Expression

def anyDigit : RegularExpression UInt8 := oneOf (bytes "0123456789")

def integerExpression : RegularExpression UInt8 :=
  char (ascii '0') + oneOf (bytes "123456789") * anyDigit.star

def fractionExpression : RegularExpression UInt8 := char (ascii '.') * atLeastOne anyDigit

def exponentExpression : RegularExpression UInt8 :=
  oneOf (bytes "eE") * (optional (oneOf (bytes "+-")) * atLeastOne anyDigit)

/-- `-?(0|[1-9]\d*)(\.\d+)?([eE][+-]?\d+)?` -/
def numberExpression : RegularExpression UInt8 :=
  optional (char (ascii '-')) *
    (integerExpression * (optional fractionExpression * optional exponentExpression))

variable {t : Bytes}

theorem mem_digits (c : UInt8) : c ∈ bytes "0123456789" ↔ isDigit c = true := by
  have listed : bytes "0123456789" = [48, 49, 50, 51, 52, 53, 54, 55, 56, 57] := by decide +kernel
  have bounds : isDigit c = true ↔ 48 ≤ c.toNat ∧ c.toNat ≤ 57 := by
    rw [isDigit, Bool.and_eq_true, decide_eq_true_iff, decide_eq_true_iff, UInt8.le_iff_toNat_le,
      UInt8.le_iff_toNat_le]
    rfl
  rw [listed, bounds]
  simp only [List.mem_cons, List.not_mem_nil, ← UInt8.toNat_inj, UInt8.reduceToNat, or_false]
  exact ⟨fun known => by omega, fun inside => by omega⟩

theorem mem_nonzero_digits (c : UInt8) :
    c ∈ bytes "123456789" ↔ isDigit c = true ∧ c ≠ ascii '0' := by
  have listed : bytes "0123456789" = ascii '0' :: bytes "123456789" := by decide +kernel
  have absent : ascii '0' ∉ bytes "123456789" := by decide +kernel
  rw [← mem_digits, listed, List.mem_cons]
  constructor
  · intro known
    exact ⟨.inr known, fun zero => absent (zero ▸ known)⟩
  · rintro ⟨known, nonzero⟩
    exact known.resolve_left nonzero

theorem mem_someDigits : t ∈ (atLeastOne anyDigit).matches' ↔ Digits t := by
  simp only [anyDigit, mem_atLeastOne_oneOf, mem_digits, Digits]

theorem mem_integer : t ∈ integerExpression.matches' ↔ IntegerText t := by
  simp only [integerExpression, anyDigit, mem_add, mem_char, mem_mul, mem_oneOf, mem_star_oneOf,
    mem_digits, mem_nonzero_digits, IntegerText, Digits]
  refine or_congr_right ⟨?_, ?_⟩
  · rintro ⟨front, ⟨c, ⟨digit, nonzero⟩, rfl⟩, back, later, rfl⟩
    exact ⟨⟨nofun, List.forall_mem_cons.mpr ⟨digit, later⟩⟩, by simpa using nonzero⟩
  · rintro ⟨⟨nonempty, digits⟩, nonzero⟩
    cases t with
    | nil => contradiction
    | cons c rest =>
      obtain ⟨digit, later⟩ := List.forall_mem_cons.mp digits
      exact ⟨[c], ⟨c, ⟨digit, by simpa using nonzero⟩, rfl⟩, rest, later, rfl⟩

theorem mem_fraction : t ∈ (optional fractionExpression).matches' ↔ FractionText t := by
  simp only [fractionExpression, mem_optional, mem_mul, mem_char, mem_someDigits, FractionText]
  refine or_congr_right ⟨?_, ?_⟩
  · rintro ⟨_, rfl, digits, all, rfl⟩
    exact ⟨digits, all, rfl⟩
  · rintro ⟨digits, all, rfl⟩
    exact ⟨_, rfl, digits, all, rfl⟩

theorem mem_sign : t ∈ (optional (oneOf (bytes "+-"))).matches' ↔ SignText t := by
  have listed : bytes "+-" = [ascii '+', ascii '-'] := by decide +kernel
  simp [mem_optional, mem_oneOf, listed, SignText]

theorem mem_mark (c : UInt8) : c ∈ bytes "eE" ↔ c = ascii 'e' ∨ c = ascii 'E' := by
  have listed : bytes "eE" = [ascii 'e', ascii 'E'] := by decide +kernel
  simp [listed]

theorem mem_exponent : t ∈ (optional exponentExpression).matches' ↔ ExponentText t := by
  rw [mem_optional, ExponentText, exponentExpression]
  simp only [mem_mul, mem_someDigits, mem_sign]
  refine or_congr_right ⟨?_, ?_⟩
  · rintro ⟨_, marked, _, ⟨sign, signed, digits, all, rfl⟩, rfl⟩
    obtain ⟨mark, known, rfl⟩ := mem_oneOf.mp marked
    exact ⟨mark, sign, digits, (mem_mark mark).mp known, signed, all, rfl⟩
  · rintro ⟨mark, sign, digits, known, signed, all, rfl⟩
    exact ⟨[mark], mem_oneOf.mpr ⟨mark, (mem_mark mark).mpr known, rfl⟩, sign ++ digits,
      ⟨sign, signed, digits, all, rfl⟩, rfl⟩

theorem mem_number : t ∈ numberExpression.matches' ↔ NumberText t := by
  rw [numberExpression, NumberText]
  simp only [mem_mul, mem_optional (r := char (ascii '-')), mem_char, mem_integer, mem_fraction,
    mem_exponent]
  constructor
  · rintro ⟨minus, signed, _, ⟨integer, whole, _, ⟨fraction, points, exponent, marks, rfl⟩, rfl⟩, rfl⟩
    exact ⟨minus, integer, fraction, exponent, signed, whole, points, marks, rfl⟩
  · rintro ⟨minus, integer, fraction, exponent, signed, whole, points, marks, rfl⟩
    exact ⟨minus, signed, _, ⟨integer, whole, _, ⟨fraction, points, exponent, marks, rfl⟩, rfl⟩, rfl⟩

end Expression

section Automaton

inductive NumberState where
  | start
  | sign
  | zero
  | int
  | dot
  | frac
  | exp
  | expSign
  | expDigit
  | dead
  deriving DecidableEq, Repr

def isMark (c : UInt8) : Bool := c == ascii 'e' || c == ascii 'E'

def NumberState.next (st : NumberState) (c : UInt8) : NumberState :=
  let digit := isDigit c
  match st with
  | .start =>
    if c = ascii '-' then .sign else if c = ascii '0' then .zero else if digit then .int else .dead
  | .sign => if c = ascii '0' then .zero else if digit then .int else .dead
  | .zero => if c = ascii '.' then .dot else if isMark c then .exp else .dead
  | .int =>
    if digit then .int else if c = ascii '.' then .dot else if isMark c then .exp else .dead
  | .dot => if digit then .frac else .dead
  | .frac => if digit then .frac else if isMark c then .exp else .dead
  | .exp =>
    if c = ascii '+' ∨ c = ascii '-' then .expSign else if digit then .expDigit else .dead
  | .expSign => if digit then .expDigit else .dead
  | .expDigit => if digit then .expDigit else .dead
  | .dead => .dead

def NumberState.accepting (st : NumberState) : Bool :=
  st == .zero || st == .int || st == .frac || st == .expDigit

def numberDfaFrom (st : NumberState) : Bytes → Bool
  | [] => st.accepting
  | c :: rest =>
    if st.next c = .dead then false else numberDfaFrom (st.next c) rest

def numberDfa (t : Bytes) : Bool := numberDfaFrom .start t

theorem from_expDigit (t : Bytes) : numberDfaFrom .expDigit t = (t.dropWhile isDigit == []) := by
  induction t with
  | nil => rfl
  | cons c rest ih => by_cases digit : isDigit c <;> simp [numberDfaFrom, NumberState.next, digit, ih]

theorem from_expSign (t : Bytes) : numberDfaFrom .expSign t = (someDigits t == some []) := by
  cases t with
  | nil => rfl
  | cons c rest =>
    by_cases digit : isDigit c <;>
      simp [numberDfaFrom, NumberState.next, someDigits, digit, from_expDigit]

theorem from_exp (t : Bytes) : numberDfaFrom .exp t = (someDigits (takeSign t).2 == some []) := by
  cases t with
  | nil => rfl
  | cons c rest =>
    by_cases signed : c = ascii '+' ∨ c = ascii '-'
    · simp [numberDfaFrom, NumberState.next, takeSign, signed, from_expSign]
    · by_cases digit : isDigit c <;>
        simp [numberDfaFrom, NumberState.next, takeSign, someDigits, signed, digit, from_expDigit]

theorem from_mark (st : NumberState) (c : UInt8) (rest : Bytes)
    (steps : st.next c = if isMark c then .exp else .dead) :
    numberDfaFrom st (c :: rest) = (numberExponent (c :: rest) == some []) := by
  rw [numberDfaFrom, steps, numberExponent]
  by_cases mark : c = ascii 'e' ∨ c = ascii 'E'
  · have marked : isMark c = true := by simpa [isMark] using mark
    simp [mark, marked, from_exp]
  · have unmarked : isMark c = false := by simpa [isMark] using mark
    simp [mark, unmarked]

theorem from_frac (t : Bytes) :
    numberDfaFrom .frac t = (numberExponent (t.dropWhile isDigit) == some []) := by
  induction t with
  | nil => rfl
  | cons c rest ih =>
    by_cases digit : isDigit c
    · simp [numberDfaFrom, NumberState.next, digit, ih]
    · rw [List.dropWhile_cons_of_neg digit, from_mark]
      simp [NumberState.next, digit]

theorem from_dot (t : Bytes) :
    numberDfaFrom .dot t = ((someDigits t).bind numberExponent == some []) := by
  cases t with
  | nil => rfl
  | cons c rest =>
    by_cases digit : isDigit c <;>
      simp [numberDfaFrom, NumberState.next, someDigits, digit, from_frac]

theorem from_point (st : NumberState) (c : UInt8) (rest : Bytes)
    (steps : st.next c = if c = ascii '.' then .dot else if isMark c then .exp else .dead) :
    numberDfaFrom st (c :: rest) = ((numberFraction (c :: rest)).bind numberExponent == some []) := by
  rw [numberFraction]
  by_cases point : c = ascii '.'
  · rw [if_pos point] at steps ⊢
    simp [numberDfaFrom, steps, from_dot]
  · rw [if_neg point] at steps ⊢
    rw [Option.bind_some, from_mark st c rest steps]

theorem from_zero (t : Bytes) :
    numberDfaFrom .zero t = ((numberFraction t).bind numberExponent == some []) := by
  cases t with
  | nil => rfl
  | cons c rest => exact from_point .zero c rest rfl

theorem from_int (t : Bytes) : numberDfaFrom .int t =
    ((numberFraction (t.dropWhile isDigit)).bind numberExponent == some []) := by
  induction t with
  | nil => rfl
  | cons c rest ih =>
    by_cases digit : isDigit c
    · simp [numberDfaFrom, NumberState.next, digit, ih]
    · rw [List.dropWhile_cons_of_neg digit, from_point]
      simp [NumberState.next, digit]

theorem from_integer (st : NumberState) (c : UInt8) (rest : Bytes)
    (steps : st.next c = if c = ascii '0' then .zero else if isDigit c then .int else .dead) :
    numberDfaFrom st (c :: rest) =
      (((numberInteger (c :: rest)).bind numberFraction).bind numberExponent == some []) := by
  -- The states in front of the integer part agree but for the sign.
  rw [numberDfaFrom, steps, numberInteger]
  by_cases zero : c = ascii '0'
  · simp [zero, from_zero]
  · by_cases digit : isDigit c <;> simp [zero, digit, from_int]

theorem from_sign (t : Bytes) : numberDfaFrom .sign t =
    (((numberInteger t).bind numberFraction).bind numberExponent == some []) := by
  cases t with
  | nil => rfl
  | cons c rest => exact from_integer .sign c rest rfl

theorem numberDfa_eq (t : Bytes) : numberDfa t = isJsonNumber t := by
  have ends : isJsonNumber t =
      (((numberInteger (dropMinus t)).bind numberFraction).bind numberExponent == some []) := by
    unfold isJsonNumber
    split <;> simp_all
  rw [ends, numberDfa]
  cases t with
  | nil => rfl
  | cons c rest =>
    by_cases minus : c = ascii '-'
    · simp [numberDfaFrom, NumberState.next, dropMinus, minus, from_sign]
    · rw [dropMinus, if_neg minus, from_integer]
      simp [NumberState.next, minus]

end Automaton

/-- The index walk, which never reads past the text, and the independent recogniser both accept
the numbers of the grammar and nothing else. -/
theorem isJsonNumber_grammar (t : Bytes) :
    (Cursor.isJsonNumber (t.length + 1) t = .ok true ↔ t ∈ numberExpression.matches') ∧
      (∃ verdict, Cursor.isJsonNumber (t.length + 1) t = .ok verdict) ∧
      (numberDfa t = true ↔ t ∈ numberExpression.matches') := by
  rw [mem_number, numberDfa_eq, Cursor.isJsonNumber_eq t (Nat.lt_succ_self _), isJsonNumber_iff,
    Except.ok.injEq, isJsonNumber_iff]
  exact ⟨Iff.rfl, ⟨_, rfl⟩, Iff.rfl⟩

end Json

end Crossbook
