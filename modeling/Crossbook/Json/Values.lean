import Crossbook.Json.Walk

set_option autoImplicit false

namespace Crossbook

namespace Json

theorem isJsonNumber_head (c : UInt8) (rest : Bytes) (number : isJsonNumber (c :: rest) = true) :
    c = ascii '-' ∨ isDigit c = true := by
  by_cases minus : c = ascii '-'
  · exact .inl minus
  · refine .inr ?_
    by_contra other
    have zero : c ≠ ascii '0' := by
      rintro rfl
      exact other (by decide)
    simp [isJsonNumber, dropMinus, minus, numberInteger, zero, other] at number

theorem classify_cons {c : UInt8} {rest : Bytes} (spaced : skipSpace (c :: rest) = c :: rest) :
    classify (c :: rest) =
      if c = ascii '{' then .object
      else if c = ascii '[' then .array
      else if c = ascii '"' then .string
      else if c = ascii 't' ∨ c = ascii 'f' then .bool
      else if c = ascii 'n' then .null
      else if c = ascii '-' ∨ isDigit c then .number
      else .invalid := by
  rw [classify, nextByte, spaced]

theorem classify_of_scalar (c : UInt8) (rest : Bytes)
    (scalar : isJsonScalar ((c :: rest).takeWhile fun c => !isDelimiter c) = true)
    (proper : isDelimiter c = false) : classify (c :: rest) ≠ .invalid := by
  have spaced : skipSpace (c :: rest) = c :: rest := by
    have solid : isSpace c = false := by
      simp only [isDelimiter, Bool.or_eq_false_iff] at proper
      exact proper.2
    simp [skipSpace, solid]
  rw [List.takeWhile_cons_of_pos (by simp [proper])] at scalar
  have heads : c = ascii 't' ∨ c = ascii 'f' ∨ c = ascii 'n' ∨ c = ascii '-' ∨ isDigit c = true := by
    simp only [isJsonScalar, Bool.or_eq_true, beq_iff_eq] at scalar
    rcases scalar with ((isTrue | isFalse) | isNull) | number
    · exact .inl (List.cons_eq_cons.mp isTrue).1
    · exact .inr (.inl (List.cons_eq_cons.mp isFalse).1)
    · exact .inr (.inr (.inl (List.cons_eq_cons.mp isNull).1))
    · exact .inr (.inr (.inr (isJsonNumber_head c _ number)))
  rw [classify_cons spaced]
  repeat' split
  all_goals first | exact JsonType.noConfusion | skip
  rename_i notTrue notNull notNumber
  exact absurd heads (by tauto)

theorem skipSpace_idem (s : Bytes) : skipSpace (skipSpace s) = skipSpace s := by
  simp [skipSpace, List.dropWhile_idempotent]

theorem classify_ne_invalid (s rest : Bytes) (scanned : valueScanner.run s = some rest) :
    classify s ≠ .invalid := by
  have scanned : skipFrom (skipValue kMaxDepth) (skipSpace s) = some rest := scanned
  have same : classify s = classify (skipSpace s) := by
    rw [classify, classify, nextByte, nextByte, skipSpace_idem]
  rw [same]
  cases start : skipSpace s with
  | nil =>
    rw [start] at scanned
    simp [skipFrom] at scanned
  | cons c tail =>
    have spaced : skipSpace (c :: tail) = c :: tail := by rw [← start, skipSpace_idem]
    rw [start, skipFrom] at scanned
    split at scanned
    · rename_i quote
      rw [classify_cons spaced, quote]
      decide
    · split at scanned
      · rename_i opening
        rw [classify_cons spaced]
        rcases opening with rfl | rfl <;> decide
      · simp only [skipScalar, Option.ite_none_left_eq_some] at scanned
        have accepted := scanned.1
        simp only [Bool.or_eq_true, Bool.not_eq_true', not_or, Bool.not_eq_true, Bool.not_eq_false,
          List.isEmpty_eq_false_iff] at accepted
        have proper : isDelimiter c = false := by
          by_contra delimiter
          apply accepted.1
          rw [List.takeWhile_cons_of_neg (by simpa using delimiter)]
        exact classify_of_scalar c tail accepted.2 proper

theorem readValue_ok (s : Bytes) (value : JsonValue) (rest : Bytes)
    (read : readValue s = some (value, rest)) : value.ok = true := by
  simp only [readValue, Option.map_eq_some_iff, Prod.mk.injEq] at read
  obtain ⟨after, scanned, rfl, rfl⟩ := read
  simpa [JsonValue.ok] using classify_ne_invalid _ _ scanned

theorem readMember_ok (s : Bytes) (member : Bytes × JsonValue) (rest : Bytes)
    (read : readMember s = some (member, rest)) : member.2.ok = true := by
  obtain ⟨_, inside, _, _, value, _⟩ := readMember_cases read
  exact readValue_ok inside _ _ value

section Contents

variable {α : Type} {reader : Reader α} {P : α → Prop}

theorem itemsOf_forall (each : ∀ s item rest, reader.run s = some (item, rest) → P item)
    (close : UInt8) (s : Bytes) : ∀ item ∈ (itemsOf reader close s).1, P item := by
  fun_induction itemsOf reader close s with
  | case1 => simp
  | case2 s item rest read => simpa using each s item rest read
  | case3 s item rest read => simpa using each s item rest read
  | case4 s item rest read tail next different ih =>
    intro other member
    rcases List.mem_cons.mp member with rfl | later
    · exact each s _ rest read
    · exact ih other later
  | case5 s item rest read => simpa using each s item rest read

theorem contentsOf_forall (each : ∀ s item rest, reader.run s = some (item, rest) → P item)
    (opening close : UInt8) (s : Bytes) : ∀ item ∈ (contentsOf reader opening close s).1, P item := by
  have inside := itemsOf_forall each close
  unfold contentsOf
  split
  · simp
  · split
    · split
      · split
        · simp
        · exact inside _
      · exact inside _
    · simp

end Contents

theorem members_ok (object : Bytes) : ∀ member ∈ members object, member.2.ok = true :=
  contentsOf_forall readMember_ok _ _ object

def first (key : String) (members : List (Bytes × JsonValue)) : JsonValue :=
  ((members.find? fun member => member.1 = bytes key).map Prod.snd).getD .absent

theorem first_members (key : String) (object : Bytes)
    (missing : (first key (members object)).ok = false) :
    first key (members object) = .absent := by
  unfold first at missing ⊢
  cases found : (members object).find? fun member => member.1 = bytes key with
  | none => rfl
  | some member =>
    have delivered := members_ok object member (List.mem_of_find?_eq_some found)
    simp [found, delivered] at missing

end Json

end Crossbook
