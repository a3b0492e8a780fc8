import Crossbook.Json.Language

set_option autoImplicit false

namespace Crossbook

namespace Json

/-- What a scan could do wrong besides refusing the text. -/
inductive ScanFault where
  | pastEnd
  | outOfRounds
  deriving DecidableEq, Repr

abbrev Checked (α : Type) := Except ScanFault α

namespace Cursor

-- Every index into the text goes through here.
def byteAt (s : Bytes) (pos : Nat) : Checked UInt8 :=
  match s[pos]? with
  | none => .error .pastEnd
  | some c => .ok c

-- `rounds` bounds how often a loop may go round.
def advanceWhile (p : UInt8 → Bool) (s : Bytes) : Nat → Nat → Checked Nat
  | 0, _ => .error .outOfRounds
  | rounds + 1, pos =>
    if pos < s.length then do
      let c ← byteAt s pos
      if p c then advanceWhile p s rounds (pos + 1) else pure pos
    else pure pos

section Number

variable (rounds : Nat) (t : Bytes)

def someDigits (start : Nat) : Checked (Option Nat) := do
  let i ← advanceWhile isDigit t rounds start
  pure (if i = start then none else some i)

def skipMinus : Checked Nat :=
  if 0 < t.length then do
    let c ← byteAt t 0
    pure (if c = ascii '-' then 1 else 0)
  else pure 0

def numberInteger (i : Nat) : Checked (Option Nat) :=
  if t.length ≤ i then pure none
  else do
    let c ← byteAt t i
    if c = ascii '0' then pure (some (i + 1))
    else if isDigit c then do
      let next ← advanceWhile isDigit t rounds i
      pure (some next)
    else pure none

def numberFraction (i : Nat) : Checked (Option Nat) :=
  if i < t.length then do
    let c ← byteAt t i
    if c = ascii '.' then someDigits rounds t (i + 1) else pure (some i)
  else pure (some i)

def skipSign (i : Nat) : Checked Nat :=
  if i < t.length then do
    let c ← byteAt t i
    pure (if c = ascii '+' ∨ c = ascii '-' then i + 1 else i)
  else pure i

def numberExponent (i : Nat) : Checked (Option Nat) :=
  if i < t.length then do
    let c ← byteAt t i
    if c = ascii 'e' ∨ c = ascii 'E' then do
      let start ← skipSign t (i + 1)
      someDigits rounds t start
    else pure (some i)
  else pure (some i)

def isJsonNumber : Checked Bool := do
  let start ← skipMinus t
  match ← numberInteger rounds t start with
  | none => pure false
  | some afterInteger =>
    match ← numberFraction rounds t afterInteger with
    | none => pure false
    | some afterFraction =>
      match ← numberExponent rounds t afterFraction with
      | none => pure false
      | some i => pure (i == t.length)

def isJsonScalar : Checked Bool :=
  if t = bytes "true" ∨ t = bytes "false" ∨ t = bytes "null" then pure true
  else isJsonNumber rounds t

end Number

section Value

variable (rounds : Nat) (s : Bytes)

def skipSpace (pos : Nat) : Checked Nat := advanceWhile isSpace s rounds pos

def skipStringLoop (s : Bytes) : Nat → Nat → Checked (Option Nat)
  | 0, _ => .error .outOfRounds
  | rounds + 1, pos =>
    if pos < s.length then do
      let c ← byteAt s pos
      if c = ascii '\\' then skipStringLoop s rounds (pos + 2)
      else if c = ascii '"' then pure (some (pos + 1))
      else skipStringLoop s rounds (pos + 1)
    else pure none

def skipString (pos : Nat) : Checked (Option Nat) :=
  if s.length ≤ pos then pure none
  else do
    let c ← byteAt s pos
    if c = ascii '"' then skipStringLoop s rounds (pos + 1) else pure none

def skipKey (pos : Nat) : Checked (Option Nat) := do
  let start ← skipSpace rounds s pos
  match ← skipString rounds s start with
  | none => pure none
  | some afterKey =>
    let colon ← skipSpace rounds s afterKey
    if s.length ≤ colon then pure none
    else do
      let c ← byteAt s colon
      pure (if c = ascii ':' then some (colon + 1) else none)

def skipItem (value : Nat → Checked (Option Nat)) (keyed : Bool) (pos : Nat) :
    Checked (Option Nat) :=
  if keyed then do
    match ← skipKey rounds s pos with
    | none => pure none
    | some start => value start
  else value pos

def skipItems (value : Nat → Checked (Option Nat)) (keyed : Bool) (close : UInt8) :
    Nat → Nat → Checked (Option Nat)
  | 0, _ => .error .outOfRounds
  | left + 1, pos =>
    if pos < s.length then do
      match ← skipItem rounds s value keyed pos with
      | none => pure none
      | some afterItem =>
        let next ← skipSpace rounds s afterItem
        if s.length ≤ next then pure none
        else do
          let c ← byteAt s next
          if c = close then pure (some (next + 1))
          else if c = ascii ',' then skipItems value keyed close left (next + 1)
          else pure none
    else pure none

def skipContainer (value : Nat → Checked (Option Nat)) (opening : UInt8) (pos : Nat) :
    Checked (Option Nat) := do
  let first ← skipSpace rounds s pos
  let empty ← if first < s.length then do
      let c ← byteAt s first
      pure (c == closing opening)
    else pure false
  if empty then pure (some (first + 1))
  else skipItems rounds s value (opening == ascii '{') (closing opening) rounds first

def skipScalar (start : Nat) : Checked (Option Nat) := do
  let pos ← advanceWhile (fun c => !isDelimiter c) s rounds start
  if pos = start then pure none
  else do
    let scalar ← isJsonScalar rounds ((s.drop start).take (pos - start))
    pure (if scalar then some pos else none)

def skipValue (depth pos : Nat) : Checked (Option Nat) :=
  if kMaxDepth < depth then pure none
  else do
    let start ← skipSpace rounds s pos
    if s.length ≤ start then pure none
    else do
      let c ← byteAt s start
      if c = ascii '"' then skipString rounds s start
      else if c = ascii '{' ∨ c = ascii '[' then
        skipContainer rounds s (skipValue (depth + 1)) c (start + 1)
      else skipScalar rounds s start
termination_by kMaxDepth + 1 - depth

def wellFormed : Checked Bool := do
  match ← skipValue rounds s 0 0 with
  | none => pure false
  | some stop => do
    let last ← skipSpace rounds s stop
    pure (last == s.length)

end Value

end Cursor

end Json

end Crossbook
