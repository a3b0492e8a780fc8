import Crossbook.Json.Walk

set_option autoImplicit false

namespace Crossbook

namespace Json

def hexDigit (c : UInt8) : Option Nat :=
  if isDigit c then some (c.toNat - 48)
  else if ascii 'a' ≤ c ∧ c ≤ ascii 'f' then some (c.toNat - 87)
  else if ascii 'A' ≤ c ∧ c ≤ ascii 'F' then some (c.toNat - 55)
  else none

def hexUnit : Bytes → Option (Nat × Bytes)
  | a :: b :: c :: d :: rest => do
    let a ← hexDigit a
    let b ← hexDigit b
    let c ← hexDigit c
    let d ← hexDigit d
    pure (((a * 16 + b) * 16 + c) * 16 + d, rest)
  | _ => none

def lowSurrogate : Bytes → Option (Nat × Bytes)
  | mark :: letter :: rest =>
    if mark = ascii '\\' ∧ letter = ascii 'u' then
      (hexUnit rest).filter fun unit => 0xDC00 ≤ unit.1 && unit.1 < 0xE000
    else none
  | _ => none

def utf8 (code : Nat) : Bytes := String.utf8EncodeChar (Char.ofNat code)

-- What follows a backslash and a `u`.
def unicodeEscape (s : Bytes) : Option (Bytes × Bytes) := do
  let (unit, rest) ← hexUnit s
  if 0xD800 ≤ unit ∧ unit < 0xDC00 then do
    let (low, rest) ← lowSurrogate rest
    pure (utf8 (0x10000 + (unit - 0xD800) * 0x400 + (low - 0xDC00)), rest)
  else if 0xDC00 ≤ unit ∧ unit < 0xE000 then none
  else pure (utf8 unit, rest)

def decodedWithin : Nat → Bytes → Option Bytes
  | _, [] => some []
  | 0, _ => none
  | fuel + 1, c :: rest =>
    if c = ascii '\\' then
      match rest with
      | [] => none
      | escape :: rest =>
        if escape = ascii 'u' then do
          let (code, rest) ← unicodeEscape rest
          let later ← decodedWithin fuel rest
          pure (code ++ later)
        else do
          let decoded ← unescape escape
          let later ← decodedWithin fuel rest
          pure (decoded :: later)
    else (decodedWithin fuel rest).map (List.cons c)

/-- The text a string's body stands for, every escape of RFC 8259 resolved. -/
def decodedText (body : Bytes) : Option Bytes := decodedWithin body.length body

theorem decodedText_plain (body : Bytes) (plain : ascii '\\' ∉ body) :
    decodedText body = some body := by
  unfold decodedText
  induction body with
  | nil => rfl
  | cons c rest ih =>
    have notEscape : c ≠ ascii '\\' := fun same => plain (by simp [same])
    rw [List.length_cons, decodedWithin.eq_def]
    dsimp only
    rw [if_neg notEscape, ih fun member => plain (List.mem_cons_of_mem c member)]
    rfl

end Json

end Crossbook
