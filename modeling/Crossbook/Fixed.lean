import Crossbook.Checksum

set_option autoImplicit false

namespace Crossbook

def ascii (c : Char) : UInt8 := UInt8.ofNat c.toNat

def isDigit (c : UInt8) : Bool := ascii '0' ≤ c && c ≤ ascii '9'

def kMaxScale : Scale := 18

def kPow10 (exponent : Nat) : Int64 := Int64.ofNat (10 ^ exponent)

inductive ParseError where
  | ok
  | empty
  | malformed
  | precisionLoss
  | overflow
  | scaleTooLarge
  deriving DecidableEq, Repr

structure ParseResult where
  mantissa : Int64
  error : ParseError
  deriving DecidableEq, Repr

def ParseResult.ok (result : ParseResult) : Bool := result.error == .ok

def checkedMul (a b : Int64) : Option Int64 :=
  if a = 0 ∨ b = 0 then some 0 else if Int64.maxValue / b < a then none else some (a * b)

def checkedAdd (a b : Int64) : Option Int64 :=
  if Int64.maxValue - b < a then none else some (a + b)

/-- What a run of digits leaves: `fractionalCount` is the C++ `int`. -/
structure DigitRun where
  digits : Int64
  fractionalCount : Int32
  anyDigit : Bool
  overflowed : Bool
  deriving DecidableEq, Repr

def DigitRun.push (run : DigitRun) (c : UInt8) : DigitRun :=
  let seen := { run with anyDigit := true }
  if run.overflowed then seen
  else
    match (checkedMul run.digits 10).bind fun scaled =>
        checkedAdd scaled (c - ascii '0').toUInt64.toInt64 with
    | some digits => { seen with digits := digits }
    | none => { seen with overflowed := true }

def integerDigits (run : DigitRun) : Bytes → DigitRun × Bytes
  | [] => (run, [])
  | c :: rest => if isDigit c then integerDigits (run.push c) rest else (run, c :: rest)

def fractionDigits (run : DigitRun) : Bytes → DigitRun × Bytes
  | [] => (run, [])
  | c :: rest =>
    if isDigit c then
      fractionDigits { run.push c with fractionalCount := run.fractionalCount + 1 } rest
    else (run, c :: rest)

def fractionPart (run : DigitRun) : Bytes → DigitRun × Bytes
  | [] => (run, [])
  | c :: rest => if c = ascii '.' then fractionDigits run rest else (run, c :: rest)

-- Clamped, so that the exponent cannot leave the `int`.
def exponentDigits (exponent : Int32) : Bytes → Int32 × Bytes
  | [] => (exponent, [])
  | c :: rest =>
    if isDigit c then
      let next := exponent * 10 + (c - ascii '0').toUInt32.toInt32
      exponentDigits (if 1000 < next then 1000 else next) rest
    else (exponent, c :: rest)

def takeSign : Bytes → Bool × Bytes
  | [] => (false, [])
  | c :: rest =>
    if c = ascii '+' ∨ c = ascii '-' then (decide (c = ascii '-'), rest) else (false, c :: rest)

/-- No result means an exponent mark without an exponent. -/
def exponentPart : Bytes → Option (Int32 × Bytes)
  | [] => some (0, [])
  | c :: rest =>
    if c = ascii 'e' ∨ c = ascii 'E' then
      let signed := takeSign rest
      match signed.2 with
      | [] => none
      | d :: _ =>
        if isDigit d then
          let read := exponentDigits 0 signed.2
          some (if signed.1 then -read.1 else read.1, read.2)
        else none
    else some (0, c :: rest)

def shiftMantissa (digits : Int64) (shift : Int32) : ParseResult :=
  if 0 < shift then
    if kMaxScale.toUInt32.toInt32 < shift then ⟨0, .overflow⟩
    else
      match checkedMul digits (kPow10 shift.toInt.toNat) with
      | some mantissa => ⟨mantissa, .ok⟩
      | none => ⟨0, .overflow⟩
  else if shift < 0 then
    let drop := -shift
    if kMaxScale.toUInt32.toInt32 < drop then
      if digits = 0 then ⟨0, .ok⟩ else ⟨0, .precisionLoss⟩
    else if digits % kPow10 drop.toInt.toNat ≠ 0 then ⟨0, .precisionLoss⟩
    else ⟨digits / kPow10 drop.toInt.toNat, .ok⟩
  else ⟨digits, .ok⟩

def parseFixed (text : Bytes) (scale : Scale) : ParseResult :=
  if kMaxScale < scale then ⟨0, .scaleTooLarge⟩
  else if text.isEmpty then ⟨0, .empty⟩
  else
    let signed := takeSign text
    let integer := integerDigits ⟨0, 0, false, false⟩ signed.2
    let fraction := fractionPart integer.1 integer.2
    let run := fraction.1
    if run.anyDigit = false then ⟨0, .malformed⟩
    else
      match exponentPart fraction.2 with
      | none => ⟨0, .malformed⟩
      | some (exponent, rest) =>
        if rest.isEmpty = false then ⟨0, .malformed⟩
        else if run.overflowed then ⟨0, .overflow⟩
        else
          let shifted :=
            shiftMantissa run.digits (scale.toUInt32.toInt32 + exponent - run.fractionalCount)
          if shifted.ok then ⟨if signed.1 then -shifted.mantissa else shifted.mantissa, .ok⟩
          else shifted

def digitByte (magnitude : UInt64) : UInt8 := ascii '0' + (magnitude % 10).toUInt8

-- Written from the end of the buffer: the text so far stands behind each new byte.
def formatFraction : Nat → UInt64 → Bytes → UInt64 × Bytes
  | 0, magnitude, text => (magnitude, text)
  | places + 1, magnitude, text =>
    formatFraction places (magnitude / 10) (digitByte magnitude :: text)

def formatFixed (mantissa : Int64) (scale : Scale) : Bytes :=
  let fraction := formatFraction scale.toNat (magnitudeOf mantissa) []
  let pointed := if 0 < scale then ascii '.' :: fraction.2 else fraction.2
  let whole := (digitsLoop fraction.1).reverse ++ pointed
  if mantissa < 0 then ascii '-' :: whole else whole

def dropPlus : Bytes → Bytes
  | [] => []
  | c :: rest => if c = ascii '+' then rest else c :: rest

def isCanonicalAtScale (text : Bytes) (scale : Scale) : Bool :=
  let parsed := parseFixed (dropPlus text) scale
  parsed.ok && formatFixed parsed.mantissa scale == dropPlus text

/-- The check for a text that was already parsed to `mantissa`. -/
def isCanonicalMantissa (text : Bytes) (scale : Scale) (mantissa : Int64) : Bool :=
  formatFixed mantissa scale == dropPlus text

end Crossbook
