import Crossbook.Fixed

set_option autoImplicit false

namespace Crossbook

/-- Days from 1970-01-01, proleptic Gregorian. -/
def daysFromCivil (y : Int64) (m d : UInt32) : Int64 :=
  let y := if m ≤ 2 then y - 1 else y
  let era := (if 0 ≤ y then y else y - 399) / 400
  let yoe := (y - era * 400).toUInt64.toUInt32
  let doy := (153 * (if 2 < m then m - 3 else m + 9) + 2) / 5 + d - 1
  let doe := yoe * 365 + yoe / 4 - yoe / 100 + doy
  era * 146097 + doe.toUInt64.toInt64 - 719468

def takeDigitsLoop : Nat → UInt32 → Bytes → Option (UInt32 × Bytes)
  | 0, value, s => some (value, s)
  | _ + 1, _, [] => none
  | n + 1, value, c :: rest =>
    if isDigit c then takeDigitsLoop n (value * 10 + (c - ascii '0').toUInt32) rest else none

def takeDigits (n : Nat) (s : Bytes) : Option (UInt32 × Bytes) := takeDigitsLoop n 0 s

def takeByte (accepts : UInt8 → Bool) : Bytes → Option Bytes
  | [] => none
  | c :: rest => if accepts c then some rest else none

-- Digits past the ninth count for nothing.
def fractionNanos (digits : Nat) (scaled : Int64) : Bytes → (Nat × Int64) × Bytes
  | [] => ((digits, scaled), [])
  | c :: rest =>
    if isDigit c then
      if digits < 9 then
        fractionNanos (digits + 1) (scaled * 10 + (c - ascii '0').toUInt64.toInt64) rest
      else fractionNanos digits scaled rest
    else ((digits, scaled), c :: rest)

def takeNanos : Bytes → Option (Int64 × Bytes)
  | [] => some (0, [])
  | c :: rest =>
    if c = ascii '.' then
      let read := fractionNanos 0 0 rest
      if read.1.1 = 0 then none
      else some ((List.range (9 - read.1.1)).foldl (fun scaled _ => scaled * 10) read.1.2, read.2)
    else some (0, c :: rest)

def kMaxSeconds : Int64 := Int64.maxValue / 1000000000 - 1

def parseRfc3339Nanos (text : Bytes) : Option Int64 := do
  let (year, s) ← takeDigits 4 text
  let s ← takeByte (· == ascii '-') s
  let (month, s) ← takeDigits 2 s
  let s ← takeByte (· == ascii '-') s
  let (day, s) ← takeDigits 2 s
  let s ← takeByte (fun c => c == ascii 'T' || c == ascii 't') s
  let (hour, s) ← takeDigits 2 s
  let s ← takeByte (· == ascii ':') s
  let (minute, s) ← takeDigits 2 s
  let s ← takeByte (· == ascii ':') s
  let (second, s) ← takeDigits 2 s
  if month < 1 ∨ 12 < month ∨ day < 1 ∨ 31 < day ∨ 23 < hour ∨ 59 < minute ∨ 60 < second then none
  else
    let (nanos, s) ← takeNanos s
    let s ← takeByte (fun c => c == ascii 'Z' || c == ascii 'z') s
    let days := daysFromCivil year.toUInt64.toInt64 month day
    let seconds :=
      days * 86400 + hour.toUInt64.toInt64 * 3600 + minute.toUInt64.toInt64 * 60 +
        second.toUInt64.toInt64
    if s.isEmpty = false ∨ seconds < 0 ∨ kMaxSeconds < seconds then none
    else some (seconds * 1000000000 + nanos)

end Crossbook
