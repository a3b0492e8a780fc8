import Crossbook.Capture.Capture

set_option autoImplicit false

namespace Crossbook

open Spans (splitFirst splitFirst_append splitFirst_eq_none)

namespace Capture

structure IsI64 (text : Bytes) : Prop where
  number : Decimal.Number text
  fits : Decimal.value text < 2 ^ 63

instance (text : Bytes) : Decidable (IsI64 text) :=
  decidable_of_iff (Decimal.Number text ∧ Decimal.value text < 2 ^ 63)
    ⟨fun both => ⟨both.1, both.2⟩, fun isI64 => ⟨isI64.number, isI64.fits⟩⟩

theorem isDigit_eq (c : UInt8) : isDigit c = Decimal.isDigit c := rfl

theorem parseI64Digits_eq (value : Nat) (small : value < 2 ^ 63) (text : Bytes) :
    parseI64Digits value text =
      if (∀ c ∈ text, Decimal.isDigit c = true) ∧ Decimal.valueFrom value text < 2 ^ 63 then
        some (Decimal.valueFrom value text)
      else none := by
  induction text generalizing value with
  | nil =>
    rw [parseI64Digits, if_pos ⟨by simp, small⟩]
    rfl
  | cons c rest ih =>
    rw [parseI64Digits, isDigit_eq]
    cases isDig : Decimal.isDigit c with
    | false => simp [isDig]
    | true =>
      have digit := Decimal.digitValue_lt isDig
      change (if (9223372036854775807 - Decimal.digitValue c) / 10 < value then none
        else parseI64Digits (value * 10 + Decimal.digitValue c) rest) = _
      have grows := Decimal.le_valueFrom (value * 10 + Decimal.digitValue c) rest
      rw [Decimal.valueFrom_cons]
      by_cases overflow : (9223372036854775807 - Decimal.digitValue c) / 10 < value
      · rw [if_pos overflow, if_neg]
        rintro ⟨_, fits⟩
        omega
      · rw [if_neg overflow, ih _ (by omega)]
        simp only [List.forall_mem_cons, isDig, true_and]

theorem parseI64_eq (text : Bytes) :
    parseI64 text = if IsI64 text then Int64.ofNat (Decimal.value text) else -1 := by
  by_cases empty : text = []
  · subst empty
    rw [parseI64, if_pos (by rfl), if_neg fun isI64 : IsI64 [] => isI64.number.some_ rfl]
  · rw [parseI64, if_neg (by simpa using empty), parseI64Digits_eq 0 (by decide)]
    by_cases isI64 : IsI64 text
    · rw [if_pos isI64, if_pos ⟨isI64.number.digits, isI64.fits⟩]
      rfl
    · rw [if_neg isI64, if_neg fun both => isI64 ⟨⟨empty, both.1⟩, both.2⟩]

theorem parseI64_isI64 {text : Bytes} (isI64 : IsI64 text) :
    parseI64 text = Int64.ofNat (Decimal.value text) := by
  rw [parseI64_eq, if_pos isI64]

theorem parseI64_neg_iff (text : Bytes) : parseI64 text < 0 ↔ ¬ IsI64 text := by
  rw [parseI64_eq]
  split
  · rename_i isI64
    have value := Int64.toInt_ofNat_of_lt isI64.fits
    refine iff_of_false ?_ (not_not_intro isI64)
    rw [Int64.lt_iff_toInt_lt, value]
    simp
  · rename_i isI64
    exact iff_of_true (by decide) isI64

theorem count_isI64 {text : Bytes} (isI64 : IsI64 text) :
    (parseI64 text).toNatClampNeg = Decimal.value text := by
  rw [parseI64_isI64 isI64, Int64.toNatClampNeg_ofNat_of_lt isI64.fits]

theorem IsI64.absent {text : Bytes} (isI64 : IsI64 text) {c : UInt8}
    (other : Decimal.isDigit c = false) : c ∉ text := by
  intro member
  rw [isI64.number.digits c member] at other
  contradiction

/-- A record as the format means it. -/
structure Record where
  tsText : Bytes
  lenText : Bytes
  payload : Bytes
  ts : IsI64 tsText
  len : IsI64 lenText
  counted : payload.length = Decimal.value lenText

namespace Record

variable (record : Record)

def header : Bytes := record.tsText ++ ascii ' ' :: record.lenText

def line : Bytes := record.header ++ [ascii '\n']

def bytes : Bytes := record.line ++ (record.payload ++ [ascii '\n'])

def frame : CapturedFrame where
  tsRecv := Int64.ofNat (Decimal.value record.tsText)
  payload := record.payload
  addressable := record.counted ▸ record.len.fits

theorem header_absent : ascii '\n' ∉ record.header := by
  have noNewline : ascii '\n' ≠ ascii ' ' := by decide
  simp only [header, List.mem_append, List.mem_cons, not_or]
  exact ⟨record.ts.absent (by decide), noNewline, record.len.absent (by decide)⟩

end Record

/-- The frames of the records whose line and payload lie within so many bytes. -/
def wholeIn : Nat → List Record → List CapturedFrame
  | _, [] => []
  | room, record :: rest =>
    if record.line.length + record.payload.length ≤ room then
      record.frame :: wholeIn (room - record.bytes.length) rest
    else []

theorem parseRecords_nil : parseRecords [] = .ok [] := by
  rw [parseRecords, if_pos (by rfl)]

theorem parseRecords_unended {text : Bytes} (unended : ascii '\n' ∉ text) :
    parseRecords text = .ok [] := by
  rw [parseRecords]
  split
  · rfl
  · split
    · rfl
    · rename_i found
      rw [(splitFirst_eq_none _ _).mpr unended] at found
      contradiction

theorem parseRecords_line {record : Bytes} (absent : ascii '\n' ∉ record) (body : Bytes) :
    parseRecords (record ++ ascii '\n' :: body) =
      match splitFirst (ascii ' ') record with
      | none => .error (Crossbook.bytes "malformed record header: " ++ record)
      | some (tsText, lenText) =>
        if parseI64 lenText < 0 then .error (Crossbook.bytes "negative frame length")
        else if body.length < (parseI64 lenText).toNatClampNeg then .ok []
        else (parseRecords (body.drop ((parseI64 lenText).toNatClampNeg + 1))).map
          fun frames => frameAt (parseI64 tsText) (parseI64 lenText) body :: frames := by
  rw [parseRecords, if_neg (by simp)]
  split
  · rename_i missing
    rw [splitFirst_append absent] at missing
    contradiction
  · rename_i found
    rw [splitFirst_append absent] at found
    simp only [Option.some.injEq, Prod.mk.injEq] at found
    obtain ⟨rfl, rfl⟩ := found
    rfl

theorem parseRecords_record (record : Record) (body : Bytes) :
    parseRecords (record.line ++ body) =
      if body.length < record.payload.length then .ok []
      else (parseRecords (body.drop (record.payload.length + 1))).map fun frames =>
        frameAt (parseI64 record.tsText) (parseI64 record.lenText) body :: frames := by
  have notNegative : ¬ parseI64 record.lenText < 0 :=
    mt (parseI64_neg_iff _).mp (not_not_intro record.len)
  have split := splitFirst_append (record.ts.absent (c := ascii ' ') (by decide)) record.lenText
  rw [Record.line, List.append_assoc, List.singleton_append, parseRecords_line record.header_absent,
    Record.header, split]
  dsimp only
  rw [if_neg notNegative, count_isI64 record.len, ← record.counted]

theorem frameAt_record (record : Record) (behind : Bytes) :
    frameAt (parseI64 record.tsText) (parseI64 record.lenText) (record.payload ++ behind) =
      record.frame := by
  apply CapturedFrame.ext
  · exact parseI64_isI64 record.ts
  · change (record.payload ++ behind).take _ = record.payload
    rw [count_isI64 record.len, ← record.counted, List.take_left]

theorem parseRecords_cut (records : List Record) (room : Nat) :
    parseRecords ((records.flatMap Record.bytes).take room) = .ok (wholeIn room records) := by
  induction records generalizing room with
  | nil => rw [List.flatMap_nil, List.take_nil, parseRecords_nil]; rfl
  | cons record rest ih =>
    have lineLength : record.line.length = record.header.length + 1 := by simp [Record.line]
    have bytesLength : record.bytes.length =
        record.line.length + (record.payload.length + 1) := by simp [Record.bytes]
    rw [List.flatMap_cons, wholeIn]
    by_cases inLine : room < record.line.length
    · -- The cut falls before the line's newline.
      have front : (record.bytes ++ rest.flatMap Record.bytes).take room =
          record.header.take room := by
        rw [Record.bytes, Record.line, List.append_assoc, List.append_assoc,
          List.take_append_of_le_length (by omega)]
      have unended : ascii '\n' ∉ record.header.take room := fun member =>
        record.header_absent (List.mem_of_mem_take member)
      rw [front, parseRecords_unended unended, if_neg (by omega)]
    · have front : (record.bytes ++ rest.flatMap Record.bytes).take room = record.line ++
          (record.payload ++ ascii '\n' :: rest.flatMap Record.bytes).take
            (room - record.line.length) := by
        rw [Record.bytes, List.append_assoc, List.take_append, List.take_of_length_le (by omega),
          List.append_assoc, List.singleton_append]
      rw [front, parseRecords_record]
      by_cases inPayload : room - record.line.length < record.payload.length
      · rw [if_pos (by rw [List.length_take]; omega), if_neg (by omega)]
      · have behind : (record.payload ++ ascii '\n' :: rest.flatMap Record.bytes).take
            (room - record.line.length) = record.payload ++
              (ascii '\n' :: rest.flatMap Record.bytes).take
                (room - record.line.length - record.payload.length) := by
          rw [List.take_append, List.take_of_length_le (by omega)]
        have last : room - record.line.length - record.payload.length - 1 =
            room - record.bytes.length := by omega
        rw [if_neg (by rw [behind, List.length_append]; omega), if_pos (by omega), behind,
          frameAt_record, ← List.drop_drop, List.drop_left, List.drop_take, List.drop_one,
          List.tail_cons, last, ih]
        rfl

end Capture

end Crossbook
