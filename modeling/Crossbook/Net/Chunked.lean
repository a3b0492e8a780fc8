import Crossbook.Fixed
import Crossbook.Lib.Loop
import Crossbook.Lib.Search

set_option autoImplicit false

namespace Crossbook

namespace Net

/-- Bytes in memory, where no object is longer than `PTRDIFF_MAX`. -/
structure StringView where
  bytes : Bytes
  addressable : bytes.length < 2 ^ 63
  deriving Repr

def crlf : Bytes := [ascii '\r', ascii '\n']

def hexDigit (c : UInt8) : Option Nat :=
  if ascii '0' ≤ c ∧ c ≤ ascii '9' then some (c - ascii '0').toNat
  else if ascii 'a' ≤ c ∧ c ≤ ascii 'f' then some ((c - ascii 'a').toNat + 10)
  else if ascii 'A' ≤ c ∧ c ≤ ascii 'F' then some ((c - ascii 'A').toNat + 10)
  else none

def chunkSizeFrom (size : Nat) : Bytes → Option Nat
  | [] => some size
  | c :: rest =>
    match hexDigit c with
    | none => none
    | some digit => chunkSizeFrom ((size * 16 + digit) % 2 ^ 64) rest

def chunkSize (sizeText : Bytes) : Option Nat := chunkSizeFrom 0 sizeText

def sizeLine (input : Bytes) (pos : Nat) : Option (Nat × Nat) :=
  match (input.drop pos).dropInfix? crlf with
  | none => none
  | some (line, _) =>
    -- The line may carry chunk extensions after a semicolon.
    let sizeText := line.takeWhile (· ≠ ascii ';')
    if sizeText.isEmpty then none
    else (chunkSize sizeText).map fun size => (size, pos + line.length + 2)

structure ChunkCursor where
  pos : Nat
  out : Bytes
  deriving DecidableEq, Repr

def decodeChunk (input : Bytes) (cursor : ChunkCursor) : ChunkCursor ⊕ (Bool × Bytes) :=
  if cursor.pos < input.length then
    match sizeLine input cursor.pos with
    | none => .inr (false, cursor.out)
    | some (size, body) =>
      if size = 0 then .inr (true, cursor.out)
      else if input.length < (body + size) % 2 ^ 64 then .inr (false, cursor.out)
      else
        .inl { pos := (body + size + 2) % 2 ^ 64
               out := cursor.out ++ (input.drop body).take size }
  else .inr (false, cursor.out)

def decodeChunked (fuel : Nat) (input out : Bytes) : Option (Bool × Bytes) :=
  Loop.run (decodeChunk input) fuel ⟨0, out⟩

def hexValueFrom (value : Nat) (text : Bytes) : Nat :=
  text.foldl (fun value c => value * 16 + (hexDigit c).getD 0) value

def hexValue (text : Bytes) : Nat := hexValueFrom 0 text

theorem hexValueFrom_cons (value : Nat) (c : UInt8) (rest : Bytes) :
    hexValueFrom value (c :: rest) = hexValueFrom (value * 16 + (hexDigit c).getD 0) rest := rfl

theorem hexValueFrom_mod (value : Nat) (text : Bytes) :
    hexValueFrom (value % 2 ^ 64) text % 2 ^ 64 = hexValueFrom value text % 2 ^ 64 := by
  induction text generalizing value with
  | nil => exact Nat.mod_mod value (2 ^ 64)
  | cons c rest ih =>
    have wraps : (value % 2 ^ 64 * 16 + (hexDigit c).getD 0) % 2 ^ 64 =
        (value * 16 + (hexDigit c).getD 0) % 2 ^ 64 := by
      omega
    rw [hexValueFrom_cons, hexValueFrom_cons, ← ih, wraps, ih]

theorem chunkSizeFrom_eq (size : Nat) (small : size < 2 ^ 64) (text : Bytes) :
    chunkSizeFrom size text =
      if ∀ c ∈ text, (hexDigit c).isSome then some (hexValueFrom size text % 2 ^ 64) else none := by
  induction text generalizing size with
  | nil =>
    rw [chunkSizeFrom, if_pos (by simp)]
    exact congrArg some (Nat.mod_eq_of_lt small).symm
  | cons c rest ih =>
    rw [chunkSizeFrom]
    cases isHex : hexDigit c with
    | none => simp [isHex]
    | some digit =>
      have next := Nat.mod_lt (size * 16 + digit) (show 0 < 2 ^ 64 by decide)
      simp only [ih _ next, List.forall_mem_cons, isHex, Option.isSome_some, true_and,
        hexValueFrom_cons, Option.getD_some, hexValueFrom_mod]

theorem chunkSize_eq (text : Bytes) :
    chunkSize text =
      if ∀ c ∈ text, (hexDigit c).isSome then some (hexValue text % 2 ^ 64) else none :=
  chunkSizeFrom_eq 0 (by decide) text

theorem chunkSize_lt {text : Bytes} {size : Nat} (parsed : chunkSize text = some size) :
    size < 2 ^ 64 := by
  rw [chunkSize_eq] at parsed
  split at parsed
  · cases parsed
    exact Nat.mod_lt _ (by decide)
  · contradiction

theorem sizeLine_bounds {input : Bytes} {pos size body : Nat}
    (line : sizeLine input pos = some (size, body)) :
    size < 2 ^ 64 ∧ pos + 2 < body ∧ body ≤ input.length := by
  unfold sizeLine at line
  cases found : (input.drop pos).dropInfix? crlf with
  | none => simp [found] at line
  | some parts =>
    obtain ⟨text, rest⟩ := parts
    simp only [found] at line
    split at line
    · contradiction
    · rename_i nonempty
      rw [Option.map_eq_some_iff] at line
      obtain ⟨size, parsed, same⟩ := line
      cases same
      have room := Search.length_of_dropInfix? found
      have some_ : text ≠ [] := by
        intro none_
        exact nonempty (by simp [none_])
      have positive := List.length_pos_iff.mpr some_
      rw [List.length_drop] at room
      simp only [crlf, List.length_cons, List.length_nil] at room
      exact ⟨chunkSize_lt parsed, by omega, by omega⟩

theorem decodeChunk_line {input : Bytes} {cursor : ChunkCursor} {size body : Nat}
    (line : sizeLine input cursor.pos = some (size, body)) :
    decodeChunk input cursor =
      if size = 0 then .inr (true, cursor.out)
      else if input.length < (body + size) % 2 ^ 64 then .inr (false, cursor.out)
      else
        .inl ⟨(body + size + 2) % 2 ^ 64, cursor.out ++ (input.drop body).take size⟩ := by
  have bounds := sizeLine_bounds line
  rw [decodeChunk, if_pos (by omega)]
  simp only [line]

theorem decodeChunk_none {input : Bytes} {cursor : ChunkCursor}
    (line : sizeLine input cursor.pos = none) :
    decodeChunk input cursor = .inr (false, cursor.out) := by
  rw [decodeChunk]
  simp only [line, ite_self]

theorem decodeChunk_inl {input : Bytes} {cursor next : ChunkCursor}
    (taken : decodeChunk input cursor = .inl next) : ∃ size body,
      sizeLine input cursor.pos = some (size, body) ∧ size ≠ 0 ∧
        (body + size) % 2 ^ 64 ≤ input.length ∧
        next = ⟨(body + size + 2) % 2 ^ 64, cursor.out ++ (input.drop body).take size⟩ := by
  cases line : sizeLine input cursor.pos with
  | none =>
    rw [decodeChunk_none line] at taken
    contradiction
  | some parts =>
    obtain ⟨size, body⟩ := parts
    rw [decodeChunk_line line] at taken
    split at taken
    · contradiction
    · split at taken
      · contradiction
      · rename_i some_ room
        exact ⟨size, body, rfl, some_, not_lt.mp room, (Sum.inl.inj taken).symm⟩

theorem decodeChunk_inr {input : Bytes} {cursor : ChunkCursor} {result : Bool × Bytes}
    (returned : decodeChunk input cursor = .inr result) : result.2 = cursor.out := by
  cases line : sizeLine input cursor.pos with
  | none =>
    rw [decodeChunk_none line] at returned
    rw [← Sum.inr.inj returned]
  | some parts =>
    rw [decodeChunk_line line] at returned
    split at returned
    · rw [← Sum.inr.inj returned]
    · split at returned
      · rw [← Sum.inr.inj returned]
      · contradiction

theorem decodeChunk_advance {input : Bytes} (cursor : ChunkCursor) {size body : Nat}
    (line : sizeLine input cursor.pos = some (size, body)) (some_ : size ≠ 0)
    (room : (body + size) % 2 ^ 64 ≤ input.length) :
    decodeChunk input cursor =
      .inl ⟨(body + size + 2) % 2 ^ 64, cursor.out ++ (input.drop body).take size⟩ := by
  rw [decodeChunk_line line, if_neg some_, if_neg (not_lt.mpr room)]

inductive LineAt (input : Bytes) : Nat → Prop
  | first : LineAt input 0
  | next {pos size body : Nat} : LineAt input pos → sizeLine input pos = some (size, body) →
      size ≠ 0 → (body + size) % 2 ^ 64 ≤ input.length →
      LineAt input ((body + size + 2) % 2 ^ 64)

/-- The size in this line takes the address behind its chunk past `2 ^ 64` and back to this line
or before it. -/
def WrapsBack (input : Bytes) (pos : Nat) : Prop :=
  ∃ size body, sizeLine input pos = some (size, body) ∧ 2 ^ 64 ≤ body + size ∧
    body + size + 2 ≤ pos + 2 ^ 64

structure Progresses (input : StringView) (out : Bytes) : Prop where
  advances : ∀ cursor next, Loop.Reached (decodeChunk input.bytes) ⟨0, out⟩ cursor →
    decodeChunk input.bytes cursor = .inl next → cursor.pos < next.pos
  copies : ∀ cursor next, Loop.Reached (decodeChunk input.bytes) ⟨0, out⟩ cursor →
    decodeChunk input.bytes cursor = .inl next → ∃ start count,
      start + count ≤ input.bytes.length ∧
        next.out = cursor.out ++ (input.bytes.drop start).take count
  keeps : ∀ cursor result, Loop.Reached (decodeChunk input.bytes) ⟨0, out⟩ cursor →
    decodeChunk input.bytes cursor = .inr result → result.2 = cursor.out
  returns : ∃ result, Loop.Returns (decodeChunk input.bytes) ⟨0, out⟩ result

theorem lineAt_iff_reached (input out : Bytes) (pos : Nat) :
    LineAt input pos ↔ ∃ acc, Loop.Reached (decodeChunk input) ⟨0, out⟩ ⟨pos, acc⟩ := by
  constructor
  · intro at_
    induction at_ with
    | first => exact ⟨out, .start⟩
    | @next pos size body _ line some_ room ih =>
      obtain ⟨acc, reached⟩ := ih
      exact ⟨_, .next reached (decodeChunk_advance ⟨pos, acc⟩ line some_ room)⟩
  · intro ⟨acc, reached⟩
    generalize cursorEq : (⟨pos, acc⟩ : ChunkCursor) = cursor at reached
    have here : LineAt input cursor.pos := by
      clear cursorEq
      induction reached with
      | start => exact .first
      | next _ taken ih =>
        obtain ⟨size, body, line, some_, room, rfl⟩ := decodeChunk_inl taken
        exact .next ih line some_ room
    rwa [← cursorEq] at here

theorem next_advances_iff (input : StringView) {pos size body : Nat}
    (line : sizeLine input.bytes pos = some (size, body))
    (room : (body + size) % 2 ^ 64 ≤ input.bytes.length) :
    pos < (body + size + 2) % 2 ^ 64 ↔ ¬ WrapsBack input.bytes pos := by
  have ⟨sizeFits, ahead, inside⟩ := sizeLine_bounds line
  have addressable := input.addressable
  have wraps : WrapsBack input.bytes pos ↔
      2 ^ 64 ≤ body + size ∧ body + size + 2 ≤ pos + 2 ^ 64 := by
    constructor
    · intro ⟨otherSize, otherBody, otherLine, wrapped⟩
      cases line.symm.trans otherLine
      exact wrapped
    · intro wrapped
      exact ⟨size, body, line, wrapped⟩
  rw [wraps]
  omega

theorem copies_of_step {input : Bytes} {cursor next : ChunkCursor}
    (taken : decodeChunk input cursor = .inl next) : ∃ start count,
      start + count ≤ input.length ∧
        next.out = cursor.out ++ (input.drop start).take count := by
  obtain ⟨size, body, line, -, -, rfl⟩ := decodeChunk_inl taken
  have bounds := sizeLine_bounds line
  refine ⟨body, min size (input.length - body), by omega, ?_⟩
  rw [← List.length_drop, ← List.take_eq_take_min]

theorem pos_le_of_step {input : StringView} {cursor next : ChunkCursor}
    (taken : decodeChunk input.bytes cursor = .inl next) :
    next.pos ≤ input.bytes.length + 2 := by
  obtain ⟨size, body, -, -, room, rfl⟩ := decodeChunk_inl taken
  have addressable := input.addressable
  change (body + size + 2) % 2 ^ 64 ≤ _
  omega

/-- The loop moves on in every iteration exactly when no size line it comes to wraps back. -/
theorem decodeChunked_progresses_iff (input : StringView) (out : Bytes) :
    Progresses input out ↔ ∀ pos, LineAt input.bytes pos → ¬ WrapsBack input.bytes pos := by
  constructor
  · intro progresses pos at_ wraps
    obtain ⟨acc, reached⟩ := (lineAt_iff_reached input.bytes out pos).mp at_
    obtain ⟨size, body, line, wrapped⟩ := wraps
    have ⟨sizeFits, ahead, inside⟩ := sizeLine_bounds line
    have addressable := input.addressable
    have room : (body + size) % 2 ^ 64 ≤ input.bytes.length := by omega
    have taken := decodeChunk_advance ⟨pos, acc⟩ line (by omega) room
    have moves := progresses.advances ⟨pos, acc⟩ _ reached taken
    exact (next_advances_iff input line room).mp moves ⟨size, body, line, wrapped⟩
  · intro straight
    have advances : ∀ cursor next, Loop.Reached (decodeChunk input.bytes) ⟨0, out⟩ cursor →
        decodeChunk input.bytes cursor = .inl next → cursor.pos < next.pos := by
      intro cursor next reached taken
      obtain ⟨size, body, line, -, room, rfl⟩ := decodeChunk_inl taken
      have at_ := (lineAt_iff_reached input.bytes out cursor.pos).mpr ⟨cursor.out, reached⟩
      exact (next_advances_iff input line room).mpr (straight cursor.pos at_)
    refine ⟨advances, fun _ _ _ taken => copies_of_step taken,
      fun _ _ _ returned => decodeChunk_inr returned, ?_⟩
    refine Loop.returns_of_measure (fun cursor => input.bytes.length + 2 - cursor.pos) ?_
    intro cursor next reached taken
    have moves := advances cursor next reached taken
    have bound := pos_le_of_step taken
    change input.bytes.length + 2 - next.pos < input.bytes.length + 2 - cursor.pos
    omega

def spinning : StringView := ⟨bytes "00FFFFFFFFFFFFFFEC\r\n", by decide⟩

theorem decodeChunked_spins :
    ¬ Progresses spinning [] ∧ ∀ fuel, decodeChunked fuel spinning.bytes [] = none := by
  have first : decodeChunk spinning.bytes ⟨0, []⟩ = .inl ⟨2, []⟩ := by decide +kernel
  have again : decodeChunk spinning.bytes ⟨2, []⟩ = .inl ⟨2, []⟩ := by decide +kernel
  constructor
  · intro progresses
    have stuck := progresses.advances ⟨2, []⟩ ⟨2, []⟩ (.next .start first) again
    exact absurd stuck (by decide)
  · intro fuel
    refine Loop.run_of_trapped (I := fun cursor => cursor = ⟨0, []⟩ ∨ cursor = ⟨2, []⟩) ?_ fuel
      (.inl rfl)
    rintro cursor (rfl | rfl)
    · exact ⟨_, first, .inr rfl⟩
    · exact ⟨_, again, .inr rfl⟩

end Net

end Crossbook
