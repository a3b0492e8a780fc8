import Crossbook.Json.CursorScan
import Crossbook.Json.Spelled

set_option autoImplicit false

namespace Crossbook

namespace Json

namespace Cursor

-- The next decoded byte of a body and the position behind it, for what the walk decodes.
def decodeAt (body : Bytes) (i : Nat) : Checked (Option (UInt8 × Nat)) := do
  let c ← byteAt body i
  if c ≠ ascii '\\' then pure (some (c, i + 1))
  else if body.length ≤ i + 1 then pure none
  else do
    let escape ← byteAt body (i + 1)
    pure ((unescape escape).map fun decoded => (decoded, i + 2))

def stringEqualsLoop (body expected : Bytes) : Nat → Nat → Nat → Checked Bool
  | 0, _, _ => .error .outOfRounds
  | rounds + 1, i, j =>
    if i < body.length then do
      match ← decodeAt body i with
      | none => pure false
      | some (decoded, next) =>
        if expected.length ≤ j then pure false
        else do
          let e ← byteAt expected j
          if e = decoded then stringEqualsLoop body expected rounds next (j + 1) else pure false
    else pure (j == expected.length)

def stringEquals (rounds : Nat) (value : JsonValue) (expected : Bytes) : Checked Bool :=
  match readString value with
  | (.notAString, _) => pure false
  | (.plain, body) => pure (body == expected)
  | (.escaped, body) => stringEqualsLoop body expected rounds 0 0

end Cursor

section Decoding

def simpleEscapes : List (UInt8 × UInt8) :=
  [(ascii '"', ascii '"'), (ascii '\\', ascii '\\'), (ascii '/', ascii '/'), (ascii 'b', 8),
    (ascii 'f', 12), (ascii 'n', 10), (ascii 'r', 13), (ascii 't', 9)]

inductive SimplyDecodes : Bytes → Bytes → Prop
  | nil : SimplyDecodes [] []
  | plain {c : UInt8} {body text : Bytes} (notEscape : c ≠ ascii '\\')
      (later : SimplyDecodes body text) : SimplyDecodes (c :: body) (c :: text)
  | escape {escape decoded : UInt8} {body text : Bytes} (simple : (escape, decoded) ∈ simpleEscapes)
      (later : SimplyDecodes body text) :
      SimplyDecodes (ascii '\\' :: escape :: body) (decoded :: text)

theorem unescape_iff (escape decoded : UInt8) :
    unescape escape = some decoded ↔ (escape, decoded) ∈ simpleEscapes := by
  simp only [simpleEscapes, List.mem_cons, List.not_mem_nil, Prod.mk.injEq, or_false]
  unfold unescape
  split_ifs with quote backslash slash b f n r t
  all_goals simp_all [ascii, eq_comm]

theorem simplyDecodes_plain {body text : Bytes} (plain : ascii '\\' ∉ body) :
    SimplyDecodes body text ↔ body = text := by
  constructor
  · intro decodes
    induction decodes with
    | nil => rfl
    | plain notEscape later ih => rw [ih fun inside => plain (List.mem_cons_of_mem _ inside)]
    | escape simple later ih => exact absurd List.mem_cons_self plain
  · rintro rfl
    induction body with
    | nil => exact .nil
    | cons c rest ih =>
      rw [List.mem_cons, not_or] at plain
      exact .plain (Ne.symm plain.1) (ih plain.2)

theorem equalsEscaped_iff (body expected : Bytes) :
    equalsEscaped body expected = true ↔ SimplyDecodes body expected := by
  constructor
  · intro same
    fun_induction equalsEscaped body expected with
    | case1 expected => rw [List.isEmpty_iff.mp same]; exact .nil
    | case3 escape rest decoded e expected simple ih =>
      simp only [Bool.and_eq_true, beq_iff_eq] at same
      rw [same.1]
      exact .escape ((unescape_iff escape decoded).mp simple) (ih same.2)
    | case6 c rest plain e expected ih =>
      simp only [Bool.and_eq_true, beq_iff_eq] at same
      rw [same.1]
      exact .plain plain (ih same.2)
    | case2 => contradiction
    | case4 => contradiction
    | case5 => contradiction
  · intro decodes
    induction decodes with
    | nil => rfl
    | plain notEscape later ih =>
      rw [equalsEscaped.eq_def]
      simp [notEscape, ih]
    | escape simple later ih =>
      rw [equalsEscaped.eq_def]
      simp [(unescape_iff _ _).mpr simple, ih]

end Decoding

section Walk

open Cursor

variable {body expected rest left : Bytes} {rounds : Nat}

theorem decodeAt_plain {c : UInt8} (suffix : c :: rest <:+ body) (plain : c ≠ ascii '\\') :
    decodeAt body (offset body (c :: rest)) = .ok (some (c, offset body rest)) := by
  rw [decodeAt, byteAt_offset suffix, ok_bind, if_pos plain, offset_tail suffix]
  rfl

theorem decodeAt_cut (suffix : [ascii '\\'] <:+ body) :
    decodeAt body (offset body [ascii '\\']) = .ok none := by
  have outside : body.length ≤ offset body [ascii '\\'] + 1 := by
    rw [offset_tail suffix, offset_nil]
  rw [decodeAt, byteAt_offset suffix, ok_bind, if_neg (not_not.mpr rfl), if_pos outside]
  rfl

theorem decodeAt_escape {escape : UInt8} (suffix : ascii '\\' :: escape :: rest <:+ body) :
    decodeAt body (offset body (ascii '\\' :: escape :: rest)) =
      .ok ((unescape escape).map fun decoded => (decoded, offset body rest)) := by
  have inner := suffix_tail suffix
  have first := offset_tail suffix
  have second := offset_tail inner
  have inside : ¬ body.length ≤ offset body (escape :: rest) := by
    have := offset_inside inner
    omega
  rw [decodeAt, byteAt_offset suffix, ok_bind, if_neg (not_not.mpr rfl), first, if_neg inside,
    byteAt_offset inner, ok_bind, ← second, ← first]
  rfl

theorem loop_refused {c : UInt8} (suffix : c :: rest <:+ body)
    (refused : decodeAt body (offset body (c :: rest)) = .ok none) (j : Nat) :
    stringEqualsLoop body expected (rounds + 1) (offset body (c :: rest)) j = .ok false := by
  rw [stringEqualsLoop, if_pos (offset_inside suffix), refused]
  rfl

theorem loop_decoded {c decoded : UInt8} {after : Bytes} (suffix : c :: rest <:+ body)
    (found : decodeAt body (offset body (c :: rest)) = .ok (some (decoded, offset body after)))
    (behind : left <:+ expected) :
    stringEqualsLoop body expected (rounds + 1) (offset body (c :: rest)) (offset expected left) =
      match left with
      | [] => .ok false
      | e :: later =>
        if e = decoded then
          stringEqualsLoop body expected rounds (offset body after) (offset expected later)
        else .ok false := by
  rw [stringEqualsLoop, if_pos (offset_inside suffix), found, ok_bind]
  dsimp only
  rw [read_unless_outside behind]
  cases left with
  | nil => rfl
  | cons e later => rw [onFirst_cons, offset_tail behind]; rfl

theorem loop_compared {c decoded e : UInt8} {after later : Bytes} {answer : Bool}
    (suffix : c :: rest <:+ body)
    (found : decodeAt body (offset body (c :: rest)) = .ok (some (decoded, offset body after)))
    (behind : e :: later <:+ expected)
    (onward : stringEqualsLoop body expected rounds (offset body after) (offset expected later) =
      .ok answer) :
    stringEqualsLoop body expected (rounds + 1) (offset body (c :: rest))
        (offset expected (e :: later)) = .ok (e == decoded && answer) := by
  rw [loop_decoded suffix found behind]
  dsimp only
  split
  next same => rw [onward, beq_iff_eq.mpr same, Bool.true_and]
  next other => rw [beq_eq_false_iff_ne.mpr other, Bool.false_and]

theorem stringEqualsLoop_eq (suffix : rest <:+ body) (behind : left <:+ expected)
    (enough : rest.length < rounds) :
    stringEqualsLoop body expected rounds (offset body rest) (offset expected left) =
      .ok (equalsEscaped rest left) := by
  obtain ⟨fuel, rfl⟩ := Nat.exists_eq_succ_of_ne_zero (Nat.ne_zero_of_lt enough)
  fun_induction equalsEscaped rest left generalizing fuel with
  | case1 left =>
    rw [stringEqualsLoop, if_neg (by simp [offset_nil]), offset_isEmpty behind]
    rfl
  | case2 left => exact loop_refused suffix (decodeAt_cut suffix) _
  | case3 escape rest decoded e later simple ih =>
    obtain ⟨fewer, rfl⟩ : ∃ fewer, fuel = fewer + 1 :=
      Nat.exists_eq_succ_of_ne_zero (by simp at enough; omega)
    have found := decodeAt_escape suffix
    rw [simple] at found
    apply loop_compared suffix found behind
    exact ih (suffix_tail (suffix_tail suffix)) (suffix_tail behind) fewer
      (by simp at enough ⊢; omega)
  | case4 left escape rest unmet =>
    have found := decodeAt_escape suffix
    cases simple : unescape escape with
    | none =>
      rw [simple] at found
      exact loop_refused suffix found _
    | some decoded =>
      rw [simple] at found
      rw [loop_decoded suffix found behind]
      cases left with
      | nil => rfl
      | cons e later => exact absurd rfl (unmet decoded e later simple)
  | case5 c rest plain => rw [loop_decoded suffix (decodeAt_plain suffix plain) behind]
  | case6 c rest plain e later ih =>
    obtain ⟨fewer, rfl⟩ : ∃ fewer, fuel = fewer + 1 :=
      Nat.exists_eq_succ_of_ne_zero (by simp at enough; omega)
    apply loop_compared suffix (decodeAt_plain suffix plain) behind
    exact ih (suffix_tail suffix) (suffix_tail behind) fewer (by simp at enough ⊢; omega)

theorem cursor_stringEquals_eq (value : JsonValue) (expected : Bytes) :
    Cursor.stringEquals (value.raw.length + 1) value expected =
      .ok (stringEquals value expected) := by
  rw [Cursor.stringEquals, stringEquals]
  cases read : readString value with
  | mk status body =>
    cases status with
    | notAString => rfl
    | plain => rfl
    | escaped =>
      have bounded : body.length ≤ value.raw.length := by
        unfold readString at read
        split at read
        · simp at read
        · obtain ⟨-, rfl⟩ := Prod.mk.inj read
          rw [List.length_dropLast, List.length_tail]
          omega
      have walked := stringEqualsLoop_eq (List.suffix_refl body) (List.suffix_refl expected)
        (Nat.lt_succ_of_le bounded)
      rwa [offset_self, offset_self] at walked

end Walk

/-- Comparing a string value with a text: the body between its quotes is never read past, nor is
the text, and they are equal just where the body decodes to the text. -/
structure ComparesDecoded (value : JsonValue) (expected : Bytes) : Prop where
  reads : ∃ verdict, Cursor.stringEquals (value.raw.length + 1) value expected = .ok verdict
  equal : ∃ body, value.raw = ascii '"' :: (body ++ [ascii '"']) ∧
    (Cursor.stringEquals (value.raw.length + 1) value expected = .ok true ↔
      SimplyDecodes body expected)

theorem stringEquals_compares (value : JsonValue) (delivered : Delivered value)
    (string : value.type = .string) (expected : Bytes) : ComparesDecoded value expected := by
  have walked := cursor_stringEquals_eq value expected
  obtain ⟨body, formed, whole, read⟩ := delivered.readString string
  refine ⟨⟨_, walked⟩, body, whole, ?_⟩
  rw [walked, Except.ok.injEq, stringEquals, read]
  by_cases escaped : body.contains (ascii '\\') = true
  · rw [if_pos escaped]
    exact equalsEscaped_iff body expected
  · rw [if_neg escaped, beq_iff_eq, simplyDecodes_plain (by simpa using escaped)]

theorem stringEquals_compares_symbol :
    ComparesDecoded ⟨bytes "\"BTC\\/USD\"", .string⟩ (bytes "BTC/USD") :=
  stringEquals_compares _ (readValue_delivered (bytes "\"BTC\\/USD\"") _ [] (by decide +kernel)) rfl _

end Json

end Crossbook
