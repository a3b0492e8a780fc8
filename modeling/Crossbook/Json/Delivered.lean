import Crossbook.Json.Find
import Crossbook.Json.WalkLanguage

set_option autoImplicit false

namespace Crossbook

namespace Json

open Spans (Stops)

structure Delivered (value : JsonValue) : Prop where
  text : Value kMaxDepth value.raw
  kind : value.type = classify value.raw

theorem classify_append {t : Bytes} (headed : ∃ c tail, t = c :: tail ∧ isDelimiter c = false)
    (rest : Bytes) : classify (t ++ rest) = classify t := by
  obtain ⟨c, tail, rfl, proper⟩ := headed
  have solid := solid_of_proper proper
  have none : Blank [] := by simp [Blank]
  have whole : nextByte (c :: tail ++ rest) = some (c, tail ++ rest) :=
    (nextByte_iff _ _ _).mpr ⟨[], none, rfl, solid⟩
  have alone : nextByte (c :: tail) = some (c, tail) :=
    (nextByte_iff _ _ _).mpr ⟨[], none, rfl, solid⟩
  rw [classify, classify, whole, alone]

theorem span_append (t after : Bytes) : span (t ++ after) after = t := by
  rw [span, List.length_append, Nat.add_sub_cancel, List.take_left]

theorem readValue_spelled (s : Bytes) (value : JsonValue) (rest : Bytes)
    (read : readValue s = some (value, rest)) :
    Delivered value ∧ ∃ w, Blank w ∧ s = w ++ (value.raw ++ rest) := by
  simp only [readValue, Option.map_eq_some_iff, Prod.mk.injEq] at read
  obtain ⟨after, scanned, rfl, rfl⟩ := read
  obtain ⟨w, t, blank, text, whole⟩ := scans_valueScanner.sound _ _ scanned
  obtain ⟨u, before, spaced⟩ := exists_blank s
  have headed := scans_valueScanner.headed t text
  have unspaced : w = [] := by
    cases w with
    | nil => rfl
    | cons c w =>
      have stops : Stops isSpace (skipSpace s) := Spans.stops_dropWhile s
      rw [whole] at stops
      simp [blank c (by simp)] at stops
  subst unspaced
  rw [List.nil_append] at whole
  rw [whole] at spaced ⊢
  rw [span_append]
  exact ⟨⟨text, classify_append headed after⟩, u, before, spaced⟩

theorem readValue_delivered (s : Bytes) (value : JsonValue) (rest : Bytes)
    (read : readValue s = some (value, rest)) : Delivered value :=
  (readValue_spelled s value rest read).1

theorem readMember_delivered (s : Bytes) (member : Bytes × JsonValue) (rest : Bytes)
    (read : readMember s = some (member, rest)) : Delivered member.2 := by
  obtain ⟨_, inside, _, _, value, _⟩ := readMember_cases read
  exact readValue_delivered inside _ _ value

theorem members_delivered (object : Bytes) : ∀ member ∈ members object, Delivered member.2 :=
  contentsOf_forall readMember_delivered _ _ object

theorem elements_delivered (array : Bytes) : ∀ value ∈ elements array, Delivered value :=
  contentsOf_forall readValue_delivered _ _ array

theorem firstRaw_delivered (key object : Bytes)
    (present : (firstRaw key (members object)).ok = true) :
    Delivered (firstRaw key (members object)) := by
  unfold firstRaw at present ⊢
  cases found : (members object).find? fun member => member.1 = key with
  | none => simp [found, JsonValue.ok, JsonValue.absent] at present
  | some member => exact members_delivered object member (List.mem_of_find?_eq_some found)

theorem first_delivered (key : String) (object : Bytes)
    (present : (first key (members object)).ok = true) : Delivered (first key (members object)) :=
  firstRaw_delivered (bytes key) object present

theorem Delivered.scanned {value : JsonValue} (delivered : Delivered value) :
    skipFrom valueScanner value.raw = some [] := by
  have value_ := value_mono kMaxDepth _ delivered.text
  have found := skipFrom_complete scans_valueScanner value_ [] fun _ => Spans.stops_nil
  rwa [List.append_nil] at found

theorem Delivered.opened {value : JsonValue} (delivered : Delivered value) {opening : UInt8}
    (starts : ∃ rest, nextByte value.raw = some (opening, rest)) :
    ∃ inside, value.raw = opening :: inside := by
  obtain ⟨rest, starts⟩ := starts
  obtain ⟨c, tail, whole, proper⟩ := scans_valueScanner.headed _ delivered.text
  have head : nextByte value.raw = some (c, tail) := by
    rw [whole]
    exact (nextByte_iff _ _ _).mpr ⟨[], by simp [Blank], rfl, solid_of_proper proper⟩
  obtain ⟨rfl, rfl⟩ := Prod.mk.inj (Option.some.inj (head.symm.trans starts))
  exact ⟨tail, whole⟩

theorem Delivered.closed {α : Type} {value : JsonValue} (delivered : Delivered value)
    {reader : Reader α} {opening : UInt8} (opens : opening = ascii '{' ∨ opening = ascii '[')
    (starts : ∃ rest, nextByte value.raw = some (opening, rest))
    (tracks : Tracks reader (itemScanner valueScanner (opening == ascii '{'))) :
    (contentsOf reader opening (closing opening) value.raw).2 = .closed [] := by
  obtain ⟨inside, whole⟩ := delivered.opened starts
  have scanned := delivered.scanned
  obtain ⟨notQuote, solid⟩ : opening ≠ ascii '"' ∧ isSpace opening = false := by
    rcases opens with rfl | rfl <;> decide
  have head : nextByte (opening :: inside) = some (opening, inside) :=
    (nextByte_iff _ _ _).mpr ⟨[], by simp [Blank], rfl, solid⟩
  rw [whole, skipFrom, if_neg notQuote, if_pos opens] at scanned
  rw [whole, contentsOf_end _ tracks, head, Option.bind_some, if_pos rfl, scanned]
  rfl

theorem classify_array (s : Bytes) :
    classify s = .array ↔ ∃ rest, nextByte s = some (ascii '[', rest) := by
  unfold classify
  split
  · rename_i ended
    simp [ended]
  · rename_i c rest next
    simp only [next, Option.some.injEq, Prod.mk.injEq]
    by_cases bracket : c = ascii '['
    · simpa [bracket] using show ascii '[' ≠ ascii '{' by decide
    · constructor
      · intro other
        repeat' split at other
        all_goals contradiction
      · rintro ⟨_, same, _⟩
        exact absurd same bracket

theorem Delivered.forEach_walked {σ : Type} {value : JsonValue} (delivered : Delivered value)
    (array : value.type = .array) (fn : σ → JsonValue → σ × Bool) (state : σ) :
    (forEach value.raw fn state).2 = true := by
  have closed := delivered.closed (.inr rfl)
    ((classify_array _).mp (delivered.kind.symm.trans array)) elementReader_tracks
  have ended : contentsOf elementReader (ascii '[') (ascii ']') value.raw =
      (elements value.raw, .closed []) := Prod.ext rfl closed
  rw [forEach, walkContainer_eq, ended]
  cases stopped : (feed fn state (elements value.raw)).2 <;> simp [stopped]

theorem Delivered.forEachMember_walked {σ : Type} {value : JsonValue} (delivered : Delivered value)
    (object : value.type = .object) (fn : σ → Bytes × JsonValue → σ × Bool) (state : σ) :
    (forEachMember value.raw fn state).2 = true := by
  have closed := delivered.closed (.inl rfl)
    ((classify_object _).mp (delivered.kind.symm.trans object)) memberReader_tracks
  have ended : contentsOf memberReader (ascii '{') (ascii '}') value.raw =
      (members value.raw, .closed []) := Prod.ext rfl closed
  rw [forEachMember, walkContainer_eq, ended]
  cases stopped : (feed fn state (members value.raw)).2 <;> simp [stopped, skipSpace]

end Json

end Crossbook
