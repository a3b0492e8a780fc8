import Crossbook.Json.Scan

set_option autoImplicit false

namespace Crossbook

namespace Json

def span (s rest : Bytes) : Bytes := s.take (s.length - rest.length)

def readValue (s : Bytes) : Option (JsonValue × Bytes) :=
  let start := skipSpace s
  (valueScanner.run start).map fun rest => (⟨span start rest, classify start⟩, rest)

def readMember (s : Bytes) : Option ((Bytes × JsonValue) × Bytes) :=
  let start := skipSpace s
  (skipString start).bind fun rest =>
    (nextByte rest).bind fun next =>
      if next.1 = ascii ':' then
        (readValue next.2).map fun value => (((span start rest).tail.dropLast, value.1), value.2)
      else none

structure Reader (α : Type) where
  run : Bytes → Option (α × Bytes)
  forward : ∀ s item rest, run s = some (item, rest) → rest.length < s.length

theorem readValue_forward (s : Bytes) (value : JsonValue) (rest : Bytes)
    (result : readValue s = some (value, rest)) : rest.length < s.length := by
  simp only [readValue, Option.map_eq_some_iff, Prod.mk.injEq] at result
  obtain ⟨_, scanned, _, rfl⟩ := result
  exact (valueScanner.forward _ _ scanned).2.trans_le (length_skipSpace s)

theorem readMember_cases {s rest : Bytes} {member : Bytes × JsonValue}
    (read : readMember s = some (member, rest)) :
    ∃ afterKey inside, skipString (skipSpace s) = some afterKey ∧
      nextByte afterKey = some (ascii ':', inside) ∧ readValue inside = some (member.2, rest) ∧
      member.1 = (span (skipSpace s) afterKey).tail.dropLast := by
  simp only [readMember, Option.bind_eq_some_iff] at read
  obtain ⟨afterKey, key, ⟨c, inside⟩, next, last⟩ := read
  split at last
  · rename_i colon
    simp only [Option.map_eq_some_iff, Prod.mk.injEq] at last
    obtain ⟨value, read, rfl, rfl⟩ := last
    dsimp only at colon
    exact ⟨afterKey, inside, key, colon ▸ next, read, rfl⟩
  · simp at last

theorem readMember_forward (s : Bytes) (member : Bytes × JsonValue) (rest : Bytes)
    (result : readMember s = some (member, rest)) : rest.length < s.length := by
  obtain ⟨afterKey, inside, key, colon, read, _⟩ := readMember_cases result
  have space := length_skipSpace s
  have first := (skipString_forward _ _ key).2
  have second := (nextByte_forward _ colon).2
  have third := readValue_forward _ _ _ read
  omega

def elementReader : Reader JsonValue := ⟨readValue, readValue_forward⟩

def memberReader : Reader (Bytes × JsonValue) := ⟨readMember, readMember_forward⟩

inductive WalkEnd where
  | stopped
  | closed (rest : Bytes)
  | malformed
  deriving DecidableEq, Repr

section Walking

variable {α σ : Type}

def walkItems (reader : Reader α) (close : UInt8) (fn : σ → α → σ × Bool) (state : σ) (s : Bytes) :
    σ × WalkEnd :=
  match _read : reader.run s with
  | none => (state, .malformed)
  | some (item, rest) =>
    if (fn state item).2 = false then ((fn state item).1, .stopped)
    else
      match _next : nextByte rest with
      | none => ((fn state item).1, .malformed)
      | some (c, tail) =>
        if c = close then ((fn state item).1, .closed tail)
        else if c = ascii ',' then walkItems reader close fn (fn state item).1 tail
        else ((fn state item).1, .malformed)
termination_by s.length
decreasing_by
  have first := reader.forward s item rest _read
  have second := (nextByte_forward rest _next).2
  omega

def walkContainer (reader : Reader α) (opening close : UInt8) (fn : σ → α → σ × Bool) (state : σ)
    (s : Bytes) : σ × WalkEnd :=
  match nextByte s with
  | none => (state, .malformed)
  | some (c, inside) =>
    if c = opening then
      match nextByte inside with
      | some (d, tail) =>
        if d = close then (state, .closed tail) else walkItems reader close fn state inside
      | none => walkItems reader close fn state inside
    else (state, .malformed)

-- A stop vouches for nothing behind it.
def forEachMember (object : Bytes) (fn : σ → Bytes × JsonValue → σ × Bool) (state : σ) : σ × Bool :=
  let walked := walkContainer memberReader (ascii '{') (ascii '}') fn state object
  (walked.1, match walked.2 with
    | .stopped => true
    | .closed rest => (skipSpace rest).isEmpty
    | .malformed => false)

def forEach (array : Bytes) (fn : σ → JsonValue → σ × Bool) (state : σ) : σ × Bool :=
  let walked := walkContainer elementReader (ascii '[') (ascii ']') fn state array
  (walked.1, match walked.2 with
    | .stopped => true
    | .closed _ => true
    | .malformed => false)

end Walking

section Contents

variable {α σ : Type}

def itemsOf (reader : Reader α) (close : UInt8) (s : Bytes) : List α × WalkEnd :=
  match _read : reader.run s with
  | none => ([], .malformed)
  | some (item, rest) =>
    match _next : nextByte rest with
    | none => ([item], .malformed)
    | some (c, tail) =>
      if c = close then ([item], .closed tail)
      else if c = ascii ',' then
        (item :: (itemsOf reader close tail).1, (itemsOf reader close tail).2)
      else ([item], .malformed)
termination_by s.length
decreasing_by all_goals
  have first := reader.forward s item rest _read
  have second := (nextByte_forward rest _next).2
  omega

def contentsOf (reader : Reader α) (opening close : UInt8) (s : Bytes) : List α × WalkEnd :=
  match nextByte s with
  | none => ([], .malformed)
  | some (c, inside) =>
    if c = opening then
      match nextByte inside with
      | some (d, tail) => if d = close then ([], .closed tail) else itemsOf reader close inside
      | none => itemsOf reader close inside
    else ([], .malformed)

def members (object : Bytes) : List (Bytes × JsonValue) :=
  (contentsOf memberReader (ascii '{') (ascii '}') object).1

def elements (array : Bytes) : List JsonValue :=
  (contentsOf elementReader (ascii '[') (ascii ']') array).1

def feed (fn : σ → α → σ × Bool) : σ → List α → σ × Bool
  | state, [] => (state, false)
  | state, item :: rest =>
    if (fn state item).2 = false then ((fn state item).1, true) else feed fn (fn state item).1 rest

theorem itemsOf_none {reader : Reader α} {close : UInt8} {s : Bytes} (read : reader.run s = none) :
    itemsOf reader close s = ([], .malformed) := by
  rw [itemsOf]
  split
  · rfl
  · rename_i found
    rw [read] at found
    contradiction

theorem itemsOf_some {reader : Reader α} {close : UInt8} {s : Bytes} {item : α} {rest : Bytes}
    (read : reader.run s = some (item, rest)) :
    itemsOf reader close s =
      match nextByte rest with
      | none => ([item], .malformed)
      | some (c, tail) =>
        if c = close then ([item], .closed tail)
        else if c = ascii ',' then
          (item :: (itemsOf reader close tail).1, (itemsOf reader close tail).2)
        else ([item], .malformed) := by
  rw [itemsOf]
  split
  · rename_i found
    rw [read] at found
    contradiction
  · rename_i found
    rw [read] at found
    simp only [Option.some.injEq, Prod.mk.injEq] at found
    obtain ⟨rfl, rfl⟩ := found
    split <;> rename_i next <;> simp only [next]

theorem walkItems_eq (reader : Reader α) (close : UInt8) (fn : σ → α → σ × Bool) (state : σ)
    (s : Bytes) :
    walkItems reader close fn state s =
      let fed := feed fn state (itemsOf reader close s).1
      (fed.1, if fed.2 then .stopped else (itemsOf reader close s).2) := by
  fun_induction walkItems reader close fn state s with
  | case1 state s read => simp [itemsOf_none read, feed]
  | case2 state s item rest read stop =>
    have first : ∃ more, (itemsOf reader close s).1 = item :: more := by
      rw [itemsOf_some read]
      split
      · exact ⟨[], rfl⟩
      · split
        · exact ⟨[], rfl⟩
        · split <;> exact ⟨_, rfl⟩
    obtain ⟨more, first⟩ := first
    simp [first, feed, stop]
  | case3 state s item rest read go next => simp [itemsOf_some read, next, feed, go]
  | case4 state s item rest read go tail next => simp [itemsOf_some read, next, feed, go]
  | case5 state s item rest read go tail next different ih =>
    simp [itemsOf_some read, next, feed, go, different, ih]
  | case6 state s item rest read go c tail next notClose notComma =>
    simp [itemsOf_some read, next, feed, go, notClose, notComma]

theorem walkContainer_eq (reader : Reader α) (opening close : UInt8) (fn : σ → α → σ × Bool)
    (state : σ) (s : Bytes) :
    walkContainer reader opening close fn state s =
      let fed := feed fn state (contentsOf reader opening close s).1
      (fed.1, if fed.2 then .stopped else (contentsOf reader opening close s).2) := by
  unfold walkContainer contentsOf
  split
  · rfl
  · split
    · split
      · split
        · rfl
        · exact walkItems_eq ..
      · exact walkItems_eq ..
    · rfl

theorem forEachMember_state (object : Bytes) (fn : σ → Bytes × JsonValue → σ × Bool) (state : σ) :
    (forEachMember object fn state).1 = (feed fn state (members object)).1 := by
  rw [forEachMember, walkContainer_eq]
  rfl

theorem forEach_state (array : Bytes) (fn : σ → JsonValue → σ × Bool) (state : σ) :
    (forEach array fn state).1 = (feed fn state (elements array)).1 := by
  rw [forEach, walkContainer_eq]
  rfl

theorem forEach_stopped (array : Bytes) (fn : σ → JsonValue → σ × Bool) (state : σ)
    (stopped : (feed fn state (elements array)).2 = true) : (forEach array fn state).2 = true := by
  rw [forEach, walkContainer_eq]
  change (match (if (feed fn state (elements array)).2 = true then WalkEnd.stopped else _) with
    | .stopped => true
    | .closed _ => true
    | .malformed => false) = true
  rw [if_pos stopped]

theorem feed_all (fn : σ → α → σ × Bool) (goes : ∀ state item, (fn state item).2 = true) (state : σ)
    (items : List α) :
    feed fn state items = (items.foldl (fun state item => (fn state item).1) state, false) := by
  induction items generalizing state with
  | nil => rfl
  | cons item rest ih => simp [feed, goes, ih]

theorem feed_invariant {P : σ → Prop} {fn : σ → α → σ × Bool}
    (keeps : ∀ state item, P state → P (fn state item).1) (state : σ) (items : List α)
    (start : P state) : P (feed fn state items).1 := by
  induction items generalizing state with
  | nil => exact start
  | cons item rest ih =>
    rw [feed]
    split
    · exact keeps state item start
    · exact ih _ (keeps state item start)

def recording (fn : σ → α → σ × Bool) (noted : σ × List α) (item : α) : (σ × List α) × Bool :=
  (((fn noted.1 item).1, noted.2 ++ [item]), (fn noted.1 item).2)

def visitedMembers (object : Bytes) (fn : σ → Bytes × JsonValue → σ × Bool) (state : σ) :
    List (Bytes × JsonValue) :=
  (forEachMember object (recording fn) (state, [])).1.2

def visitedElements (array : Bytes) (fn : σ → JsonValue → σ × Bool) (state : σ) : List JsonValue :=
  (forEach array (recording fn) (state, [])).1.2

theorem feed_recording (fn : σ → α → σ × Bool) (state : σ) (noted items : List α) :
    (feed (recording fn) (state, noted) items).1.2 <+: noted ++ items := by
  induction items generalizing state noted with
  | nil => simp [feed]
  | cons item rest ih =>
    have later := ih (fn state item).1 (noted ++ [item])
    rw [List.append_assoc] at later
    unfold feed
    split
    · exact ⟨rest, by simp [recording]⟩
    · exact later

theorem feed_recording_all (fn : σ → α → σ × Bool)
    (goes : ∀ state item, (fn state item).2 = true) (state : σ) (noted items : List α) :
    (feed (recording fn) (state, noted) items).1.2 = noted ++ items := by
  induction items generalizing state noted with
  | nil => simp [feed]
  | cons item rest ih => simp [feed, recording, goes, ih]

theorem visitedMembers_front (object : Bytes) (fn : σ → Bytes × JsonValue → σ × Bool) (state : σ) :
    visitedMembers object fn state <+: members object := by
  rw [visitedMembers, forEachMember_state]
  exact feed_recording fn state [] _

theorem visitedElements_front (array : Bytes) (fn : σ → JsonValue → σ × Bool) (state : σ) :
    visitedElements array fn state <+: elements array := by
  rw [visitedElements, forEach_state]
  exact feed_recording fn state [] _

theorem visitedMembers_eq (object : Bytes) (fn : σ → Bytes × JsonValue → σ × Bool)
    (goes : ∀ state member, (fn state member).2 = true) (state : σ) :
    visitedMembers object fn state = members object := by
  rw [visitedMembers, forEachMember_state, feed_recording_all fn goes, List.nil_append]

theorem visitedElements_eq (array : Bytes) (fn : σ → JsonValue → σ × Bool)
    (goes : ∀ state value, (fn state value).2 = true) (state : σ) :
    visitedElements array fn state = elements array := by
  rw [visitedElements, forEach_state, feed_recording_all fn goes, List.nil_append]

end Contents

inductive StringRead where
  | notAString
  | plain
  | escaped
  deriving DecidableEq, Repr

def readString (value : JsonValue) : StringRead × Bytes :=
  if value.type ≠ .string ∨ value.raw.length < 2 then (.notAString, [])
  else
    let body := value.raw.tail.dropLast
    (if body.contains (ascii '\\') then .escaped else .plain, body)

def unescape (c : UInt8) : Option UInt8 :=
  if c = ascii '"' then some (ascii '"')
  else if c = ascii '\\' then some (ascii '\\')
  else if c = ascii '/' then some (ascii '/')
  else if c = ascii 'b' then some 8
  else if c = ascii 'f' then some 12
  else if c = ascii 'n' then some 10
  else if c = ascii 'r' then some 13
  else if c = ascii 't' then some 9
  else none

def equalsEscaped : Bytes → Bytes → Bool
  | [], expected => expected.isEmpty
  | c :: rest, expected =>
    if c = ascii '\\' then
      match rest with
      | [] => false
      | escape :: rest =>
        match unescape escape, expected with
        | some decoded, e :: expected => e == decoded && equalsEscaped rest expected
        | _, _ => false
    else
      match expected with
      | [] => false
      | e :: expected => e == c && equalsEscaped rest expected

def stringEquals (value : JsonValue) (expected : Bytes) : Bool :=
  match readString value with
  | (.notAString, _) => false
  | (.plain, body) => body == expected
  | (.escaped, body) => equalsEscaped body expected

def stringBody (value : JsonValue) : Bytes :=
  match readString value with
  | (.plain, body) => body
  | _ => []

def numberToken (value : JsonValue) : Bytes :=
  if value.type = .number then value.raw
  else if value.type = .string then stringBody value
  else []

def parseU64Digits (value : UInt64) : Bytes → Option UInt64
  | [] => some value
  | c :: rest =>
    if isDigit c then
      let digit := (c - ascii '0').toUInt64
      if (0xFFFFFFFFFFFFFFFF - digit) / 10 < value then none
      else parseU64Digits (value * 10 + digit) rest
    else none

def parseU64 (token : Bytes) : Option UInt64 :=
  if token.isEmpty then none else parseU64Digits 0 token

end Json

end Crossbook
