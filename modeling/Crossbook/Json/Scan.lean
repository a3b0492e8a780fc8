import Crossbook.Fixed

set_option autoImplicit false

namespace Crossbook

inductive JsonType where
  | invalid
  | object
  | array
  | string
  | number
  | bool
  | null
  deriving DecidableEq, Repr

/-- A value as the bytes that spell it; those of a string include its quotes. -/
structure JsonValue where
  raw : Bytes
  type : JsonType
  deriving DecidableEq, Repr

namespace JsonValue

def absent : JsonValue := ⟨[], .invalid⟩

def ok (value : JsonValue) : Bool := !(value.type == .invalid)

end JsonValue

namespace Json

def kMaxDepth : Nat := 32

def isSpace (c : UInt8) : Bool :=
  c == ascii ' ' || c == ascii '\t' || c == ascii '\n' || c == ascii '\r'

-- A position is what is left of the text from there on.
def skipSpace (s : Bytes) : Bytes := s.dropWhile isSpace

def numberInteger : Bytes → Option Bytes
  | [] => none
  | c :: rest =>
    if c = ascii '0' then some rest
    else if isDigit c then some (rest.dropWhile isDigit)
    else none

-- A run of digits that may not be empty.
def someDigits : Bytes → Option Bytes
  | [] => none
  | c :: rest => if isDigit c then some (rest.dropWhile isDigit) else none

def numberFraction : Bytes → Option Bytes
  | [] => some []
  | c :: rest => if c = ascii '.' then someDigits rest else some (c :: rest)

def numberExponent : Bytes → Option Bytes
  | [] => some []
  | c :: rest =>
    if c = ascii 'e' ∨ c = ascii 'E' then someDigits (takeSign rest).2 else some (c :: rest)

def dropMinus : Bytes → Bytes
  | [] => []
  | c :: rest => if c = ascii '-' then rest else c :: rest

def isJsonNumber (t : Bytes) : Bool :=
  match ((numberInteger (dropMinus t)).bind numberFraction).bind numberExponent with
  | some [] => true
  | _ => false

def isJsonScalar (t : Bytes) : Bool :=
  t == bytes "true" || t == bytes "false" || t == bytes "null" || isJsonNumber t

def skipStringTail : Bytes → Option Bytes
  | [] => none
  | c :: rest =>
    if c = ascii '\\' then
      match rest with
      | [] => none
      | _ :: rest => skipStringTail rest
    else if c = ascii '"' then some rest
    else skipStringTail rest

def skipString : Bytes → Option Bytes
  | [] => none
  | c :: rest => if c = ascii '"' then skipStringTail rest else none

structure Scanner where
  run : Bytes → Option Bytes
  forward : ∀ s rest, run s = some rest → rest <:+ s ∧ rest.length < s.length

theorem skipStringTail_forward (s rest : Bytes) (result : skipStringTail s = some rest) :
    rest <:+ s ∧ rest.length < s.length := by
  fun_induction skipStringTail s with
  | case1 => simp at result
  | case2 => simp at result
  | case3 escaped tail ih =>
    obtain ⟨suffix, shorter⟩ := ih result
    exact ⟨suffix.trans (List.suffix_append [_, escaped] tail), by simp; omega⟩
  | case4 tail =>
    obtain rfl := Option.some.inj result
    exact ⟨List.suffix_cons _ _, by simp⟩
  | case5 c tail plain within ih =>
    obtain ⟨suffix, shorter⟩ := ih result
    exact ⟨suffix.trans (List.suffix_cons c tail), by simp; omega⟩

theorem skipString_forward (s rest : Bytes) (result : skipString s = some rest) :
    rest <:+ s ∧ rest.length < s.length := by
  cases s with
  | nil => simp [skipString] at result
  | cons c tail =>
    rw [skipString] at result
    split at result
    · obtain ⟨suffix, shorter⟩ := skipStringTail_forward tail rest result
      exact ⟨suffix.trans (List.suffix_cons c tail), by simp; omega⟩
    · simp at result

theorem skipSpace_suffix (s : Bytes) : skipSpace s <:+ s := List.dropWhile_suffix _

theorem length_skipSpace (s : Bytes) : (skipSpace s).length ≤ s.length :=
  (skipSpace_suffix s).length_le

-- The next byte that is not a space, and what follows it.
def nextByte (s : Bytes) : Option (UInt8 × Bytes) :=
  match skipSpace s with
  | [] => none
  | c :: rest => some (c, rest)

theorem nextByte_suffix (s : Bytes) {c : UInt8} {rest : Bytes}
    (result : nextByte s = some (c, rest)) : c :: rest <:+ s := by
  unfold nextByte at result
  have suffix := skipSpace_suffix s
  split at result
  · simp at result
  · rename_i spaced
    simp only [Option.some.injEq, Prod.mk.injEq] at result
    obtain ⟨rfl, rfl⟩ := result
    rwa [spaced] at suffix

theorem nextByte_forward (s : Bytes) {c : UInt8} {rest : Bytes}
    (result : nextByte s = some (c, rest)) : rest <:+ s ∧ rest.length < s.length := by
  have suffix := nextByte_suffix s result
  exact ⟨(List.suffix_cons c rest).trans suffix, by simpa using suffix.length_le⟩

def skipKey (s : Bytes) : Option Bytes :=
  (skipString (skipSpace s)).bind fun rest =>
    (nextByte rest).bind fun next => if next.1 = ascii ':' then some next.2 else none

theorem skipKey_forward (s rest : Bytes) (result : skipKey s = some rest) :
    rest <:+ s ∧ rest.length < s.length := by
  simp only [skipKey, Option.bind_eq_some_iff] at result
  obtain ⟨afterKey, key, ⟨c, tail⟩, colon, last⟩ := result
  obtain ⟨keySuffix, keyShorter⟩ := skipString_forward _ _ key
  obtain ⟨colonSuffix, colonShorter⟩ := nextByte_forward _ colon
  have space := length_skipSpace s
  split at last
  · obtain rfl := Option.some.inj last
    exact ⟨colonSuffix.trans (keySuffix.trans (skipSpace_suffix s)), by simp only at *; omega⟩
  · simp at last

def itemScanner (inner : Scanner) (keyed : Bool) : Scanner where
  run s := (if keyed then skipKey s else some s).bind inner.run
  forward s rest result := by
    rw [Option.bind_eq_some_iff] at result
    obtain ⟨middle, first, second⟩ := result
    obtain ⟨suffix, shorter⟩ := inner.forward middle rest second
    split at first
    · obtain ⟨keySuffix, keyShorter⟩ := skipKey_forward s middle first
      exact ⟨suffix.trans keySuffix, by omega⟩
    · obtain rfl := Option.some.inj first
      exact ⟨suffix, shorter⟩

def skipItems (item : Scanner) (close : UInt8) (s : Bytes) : Option Bytes :=
  match _scanned : item.run s with
  | none => none
  | some rest =>
    match _next : nextByte rest with
    | none => none
    | some (c, tail) =>
      if c = close then some tail
      else if c = ascii ',' then skipItems item close tail
      else none
termination_by s.length
decreasing_by
  have first := (item.forward s rest _scanned).2
  have second := (nextByte_forward rest _next).2
  omega

theorem skipItems_forward (item : Scanner) (close : UInt8) (s rest : Bytes)
    (result : skipItems item close s = some rest) : rest <:+ s ∧ rest.length < s.length := by
  fun_induction skipItems item close s with
  | case1 => simp at result
  | case2 => simp at result
  | case3 s middle scanned tail next =>
    obtain rfl := Option.some.inj result
    obtain ⟨suffix, shorter⟩ := item.forward s middle scanned
    obtain ⟨nextSuffix, nextShorter⟩ := nextByte_forward middle next
    exact ⟨nextSuffix.trans suffix, by omega⟩
  | case4 s middle scanned tail next different ih =>
    obtain ⟨suffix, shorter⟩ := item.forward s middle scanned
    obtain ⟨nextSuffix, nextShorter⟩ := nextByte_forward middle next
    obtain ⟨laterSuffix, laterShorter⟩ := ih result
    exact ⟨laterSuffix.trans (nextSuffix.trans suffix), by omega⟩
  | case5 => simp at result

def isDelimiter (c : UInt8) : Bool :=
  c == ascii ',' || c == ascii '}' || c == ascii ']' || isSpace c

def skipScalar (s : Bytes) : Option Bytes :=
  let run := s.takeWhile fun c => !isDelimiter c
  if run.isEmpty || !isJsonScalar run then none else some (s.dropWhile fun c => !isDelimiter c)

theorem skipScalar_forward (s rest : Bytes) (result : skipScalar s = some rest) :
    rest <:+ s ∧ rest.length < s.length := by
  simp only [skipScalar, Option.ite_none_left_eq_some, Option.some.injEq] at result
  obtain ⟨accepted, rfl⟩ := result
  refine ⟨List.dropWhile_suffix _, ?_⟩
  have whole := congrArg List.length
    (List.takeWhile_append_dropWhile (p := fun c => !isDelimiter c) (l := s))
  have some_ : (s.takeWhile fun c => !isDelimiter c).length ≠ 0 := by
    intro empty
    simp [List.length_eq_zero_iff.mp empty] at accepted
  rw [List.length_append] at whole
  omega

def closing (opening : UInt8) : UInt8 := if opening = ascii '{' then ascii '}' else ascii ']'

def skipContainer (inner : Scanner) (opening : UInt8) (s : Bytes) : Option Bytes :=
  match nextByte s with
  | none => none
  | some (c, tail) =>
    if c = closing opening then some tail
    else skipItems (itemScanner inner (opening == ascii '{')) (closing opening) (c :: tail)

def skipFrom (inner : Scanner) : Bytes → Option Bytes
  | [] => none
  | c :: rest =>
    if c = ascii '"' then skipString (c :: rest)
    else if c = ascii '{' ∨ c = ascii '[' then skipContainer inner c rest
    else skipScalar (c :: rest)

theorem skipContainer_forward (inner : Scanner) (opening : UInt8) (s rest : Bytes)
    (result : skipContainer inner opening s = some rest) : rest <:+ s ∧ rest.length < s.length := by
  unfold skipContainer at result
  split at result
  · simp at result
  · rename_i c tail next
    split at result
    · obtain rfl := Option.some.inj result
      exact nextByte_forward s next
    · have suffix := nextByte_suffix s next
      have length := suffix.length_le
      obtain ⟨laterSuffix, laterShorter⟩ := skipItems_forward _ _ _ _ result
      exact ⟨laterSuffix.trans suffix, by omega⟩

theorem skipFrom_forward (inner : Scanner) (s rest : Bytes) (result : skipFrom inner s = some rest) :
    rest <:+ s ∧ rest.length < s.length := by
  cases s with
  | nil => simp [skipFrom] at result
  | cons c tail =>
    rw [skipFrom] at result
    split at result
    · exact skipString_forward _ _ result
    · split at result
      · obtain ⟨suffix, shorter⟩ := skipContainer_forward inner c tail rest result
        exact ⟨suffix.trans (List.suffix_cons c tail), by simp; omega⟩
      · exact skipScalar_forward _ _ result

def skipValue : Nat → Scanner
  | 0 => ⟨fun _ => none, by simp⟩
  | levels + 1 =>
    { run := fun s => skipFrom (skipValue levels) (skipSpace s)
      forward := by
        intro s rest result
        obtain ⟨suffix, shorter⟩ := skipFrom_forward _ _ rest result
        have space := length_skipSpace s
        exact ⟨suffix.trans (skipSpace_suffix s), by omega⟩ }

-- Depths 0 to `kMaxDepth` are accepted.
def valueScanner : Scanner := skipValue (kMaxDepth + 1)

def classify (s : Bytes) : JsonType :=
  match nextByte s with
  | none => .invalid
  | some (c, _) =>
    if c = ascii '{' then .object
    else if c = ascii '[' then .array
    else if c = ascii '"' then .string
    else if c = ascii 't' ∨ c = ascii 'f' then .bool
    else if c = ascii 'n' then .null
    else if c = ascii '-' ∨ isDigit c then .number
    else .invalid

def wellFormed (s : Bytes) : Bool :=
  match valueScanner.run s with
  | none => false
  | some rest => (skipSpace rest).isEmpty

end Json

end Crossbook
