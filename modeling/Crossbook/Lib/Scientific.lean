import Crossbook.Lib.Decimal
import Crossbook.Lib.Spans

set_option autoImplicit false

namespace Scientific

open Decimal Spans

inductive Sign where
  | plus
  | minus
  deriving DecidableEq, Repr

def Sign.byte : Sign → UInt8
  | .plus => 43
  | .minus => 45

def point : UInt8 := 46

def signText : Option Sign → List UInt8
  | none => []
  | some sign => [sign.byte]

structure Exponent where
  upper : Bool
  sign : Option Sign
  digits : List UInt8
  number : Number digits

namespace Exponent

def mark (e : Exponent) : UInt8 := if e.upper then 69 else 101

def text (e : Exponent) : List UInt8 := e.mark :: (signText e.sign ++ e.digits)

def magnitude (e : Exponent) : Nat := Decimal.value e.digits

def value (e : Exponent) : Int := if e.sign = some .minus then -e.magnitude else e.magnitude

end Exponent

/-- A decimal number as it is spelled: digits before and behind an optional point, at least one
of them, with an optional sign in front and an optional exponent behind. -/
structure Numeral where
  sign : Option Sign
  integer : List UInt8
  fraction : Option (List UInt8)
  exponent : Option Exponent
  integerDigits : ∀ c ∈ integer, isDigit c = true
  fractionDigits : ∀ c ∈ fraction.getD [], isDigit c = true
  someDigit : integer ++ fraction.getD [] ≠ []

def fractionText : Option (List UInt8) → List UInt8
  | none => []
  | some digits => point :: digits

def exponentText : Option Exponent → List UInt8
  | none => []
  | some e => e.text

namespace Numeral

def text (n : Numeral) : List UInt8 :=
  signText n.sign ++ (n.integer ++ (fractionText n.fraction ++ exponentText n.exponent))

def digits (n : Numeral) : List UInt8 := n.integer ++ n.fraction.getD []

def significand (n : Numeral) : Nat := Decimal.value n.digits

def places (n : Numeral) : Nat := (n.fraction.getD []).length

def negative (n : Numeral) : Bool := n.sign == some .minus

def exponentValue (n : Numeral) : Int := (n.exponent.map Exponent.value).getD 0

def power (n : Numeral) : Int := n.exponentValue - n.places

def magnitude (n : Numeral) : ℚ := n.significand * (10 : ℚ) ^ n.power

def value (n : Numeral) : ℚ := if n.negative then -n.magnitude else n.magnitude

theorem magnitude_nonneg (n : Numeral) : 0 ≤ n.magnitude := by
  unfold magnitude
  positivity

theorem abs_value (n : Numeral) : |n.value| = n.magnitude := by
  unfold value
  split
  · rw [abs_neg, abs_of_nonneg n.magnitude_nonneg]
  · exact abs_of_nonneg n.magnitude_nonneg

end Numeral

theorem exponentText_stops (exponent : Option Exponent) : Stops isDigit (exponentText exponent) := by
  cases exponent with
  | none => exact stops_nil
  | some e =>
    rw [exponentText, Exponent.text, stops_cons, Exponent.mark]
    cases e.upper <;> decide

theorem fractionText_stops (fraction : Option (List UInt8)) (exponent : Option Exponent) :
    Stops isDigit (fractionText fraction ++ exponentText exponent) := by
  cases fraction with
  | none => exact exponentText_stops exponent
  | some digits =>
    rw [fractionText, List.cons_append, stops_cons]
    decide

end Scientific
