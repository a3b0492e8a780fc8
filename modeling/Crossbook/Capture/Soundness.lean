import Crossbook.Capture.RoundTrip

set_option autoImplicit false

namespace Crossbook

open Spans (splitFirst splitFirst_append splitFirst_eq_none splitFirst_eq_some)

namespace Capture

structure SoundHeader (header : Bytes) (capture : Capture) (startText : Bytes) : Prop where
  shape : ∃ behind, header = kMagic ++ (capture.venue ++ ascii ' ' ::
    (capture.symbol ++ ascii ' ' :: behind)) ∧
      (behind = startText ∨ ∃ more, behind = startText ++ ascii ' ' :: more)
  venue : capture.venue ≠ [] ∧ ascii ' ' ∉ capture.venue
  symbol : capture.symbol ≠ [] ∧ ascii ' ' ∉ capture.symbol
  start : IsI64 startText
  value : capture.startUnixNs = Int64.ofNat (Decimal.value startText)

/-- A file that is a header line and records, the last of which may be cut short, and a capture that
holds what they say. -/
def Sound (contents : Bytes) (capture : Capture) : Prop :=
  ∃ header rest startText records, contents = header ++ ascii '\n' :: rest ∧
    ascii '\n' ∉ header ∧ SoundHeader header capture startText ∧
    rest <+: records.flatMap Record.bytes ∧ capture.frames = wholeIn rest.length records

def startField (header : Bytes) : Bytes :=
  (takeField (takeField (takeField (header.drop 7)).2.1).2.1).1

def recordFields (text : Bytes) : Option (Bytes × Bytes × Bytes) :=
  (splitFirst (ascii '\n') text).bind fun line =>
    (splitFirst (ascii ' ') line.1).map fun fields => (fields.1, fields.2, line.2)

inductive Reaches (text : Bytes) : Bytes → Prop
  | start : Reaches text text
  | next {here tsText lenText body : Bytes} (reached : Reaches text here)
      (fields : recordFields here = some (tsText, lenText, body))
      (fits : (parseI64 lenText).toNatClampNeg ≤ body.length) :
      Reaches text (body.drop ((parseI64 lenText).toNatClampNeg + 1))

def beginsLine (text : Bytes) : Prop :=
  match splitFirst (ascii ' ') text with
  | none => text = [] ∨ IsI64 text
  | some (tsText, lenText) => IsI64 tsText ∧ (lenText = [] ∨ IsI64 lenText)

instance (text : Bytes) : Decidable (beginsLine text) := by
  unfold beginsLine
  split <;> infer_instance

/-- The timestamp is a number and the byte skipped behind the payload is a newline. -/
def ReadsAsMeant (here : Bytes) : Prop :=
  match recordFields here with
  | none => beginsLine here
  | some (tsText, lenText, body) =>
    IsI64 tsText ∧ ∀ c ∈ (body.drop (parseI64 lenText).toNatClampNeg).head?, c = ascii '\n'

instance (here : Bytes) : Decidable (ReadsAsMeant here) := by
  unfold ReadsAsMeant
  split <;> infer_instance

/-- What the parser takes for granted. -/
structure AsMeant (header text : Bytes) : Prop where
  start : IsI64 (startField header)
  records : ∀ here, Reaches text here → ReadsAsMeant here

theorem value_take (text : Bytes) (count : Nat) :
    Decimal.value (text.take count) ≤ Decimal.value text := by
  conv_rhs => rw [← List.take_append_drop count text]
  rw [Decimal.value, Decimal.value, Decimal.valueFrom_append]
  exact Decimal.le_valueFrom _ _

theorem IsI64.of_prefix {text front : Bytes} (isI64 : IsI64 text) (isFront : front <+: text) :
    front = [] ∨ IsI64 front := by
  by_cases empty : front = []
  · exact .inl empty
  · have taken := List.prefix_iff_eq_take.mp isFront
    refine .inr ⟨⟨empty, fun c member => isI64.number.digits c (isFront.subset member)⟩, ?_⟩
    rw [taken]
    exact (value_take text _).trans_lt isI64.fits

theorem beginsLine_of_prefix {record : Record} {text : Bytes} (isFront : text <+: record.header) :
    beginsLine text := by
  unfold beginsLine
  rcases Spans.cut_cases (record.ts.absent (by decide)) isFront with
    ⟨inTs, unsplit⟩ | ⟨lenText, inLen, _, split⟩
  · rw [unsplit]
    exact record.ts.of_prefix inTs
  · rw [split]
    exact ⟨record.ts, record.len.of_prefix inLen⟩

theorem recordFields_line (record : Record) (body : Bytes) :
    recordFields (record.line ++ body) = some (record.tsText, record.lenText, body) := by
  rw [recordFields, Record.line, List.append_assoc, List.singleton_append,
    splitFirst_append record.header_absent, Option.bind_some, Record.header,
    splitFirst_append (record.ts.absent (by decide))]
  rfl

theorem records_cut_cases {records : List Record} {text : Bytes}
    (isCut : text <+: records.flatMap Record.bytes) :
    (recordFields text = none ∧ beginsLine text) ∨
      ∃ record rest body, text = Record.line record ++ body ∧
        body <+: record.payload ++ ascii '\n' :: List.flatMap Record.bytes rest := by
  cases records with
  | nil =>
    obtain rfl := List.prefix_nil.mp isCut
    exact .inl ⟨rfl, .inl rfl⟩
  | cons record rest =>
    have whole : (record :: rest).flatMap Record.bytes = record.header ++
        ascii '\n' :: (record.payload ++ ascii '\n' :: rest.flatMap Record.bytes) := by
      simp [Record.bytes, Record.line]
    rw [whole] at isCut
    rcases Spans.cut_cases record.header_absent isCut with ⟨inHeader, unsplit⟩ | ⟨body, kept, rfl, _⟩
    · exact .inl ⟨by rw [recordFields, unsplit]; rfl, beginsLine_of_prefix inHeader⟩
    · exact .inr ⟨record, rest, body, by simp [Record.line], kept⟩

theorem behind_payload {payload body more : Bytes}
    (isCut : body <+: payload ++ ascii '\n' :: more) (fits : payload.length ≤ body.length) :
    (∀ c ∈ (body.drop payload.length).head?, c = ascii '\n') ∧
      body.drop (payload.length + 1) <+: more := by
  obtain ⟨kept, rfl⟩ := List.prefix_of_prefix_length_le (List.prefix_append payload _) isCut fits
  rw [List.prefix_append_right_inj, List.prefix_cons_iff] at isCut
  rw [← List.drop_drop, List.drop_left]
  rcases isCut with rfl | ⟨rest, rfl, isRest⟩
  · exact ⟨by simp, by simp⟩
  · exact ⟨by simp, by simpa using isRest⟩

theorem reaches_records {records : List Record} {text : Bytes}
    (isCut : text <+: records.flatMap Record.bytes) {here : Bytes} (reached : Reaches text here) :
    ∃ left : List Record, here <+: left.flatMap Record.bytes := by
  induction reached with
  | start => exact ⟨records, isCut⟩
  | next _ fields fits ih =>
    obtain ⟨left, isHere⟩ := ih
    rcases records_cut_cases isHere with ⟨none, _⟩ | ⟨record, rest, body, rfl, kept⟩
    · rw [none] at fields
      contradiction
    · rw [recordFields_line] at fields
      simp only [Option.some.injEq, Prod.mk.injEq] at fields
      obtain ⟨rfl, rfl, rfl⟩ := fields
      rw [count_isI64 record.len, ← record.counted] at fits ⊢
      exact ⟨rest, (behind_payload kept fits).2⟩

theorem readsAsMeant_records {records : List Record} {here : Bytes}
    (isCut : here <+: records.flatMap Record.bytes) : ReadsAsMeant here := by
  unfold ReadsAsMeant
  rcases records_cut_cases isCut with ⟨none, begins⟩ | ⟨record, rest, body, rfl, kept⟩
  · rw [none]
    exact begins
  · rw [recordFields_line]
    refine ⟨record.ts, ?_⟩
    rw [count_isI64 record.len, ← record.counted]
    by_cases fits : record.payload.length ≤ body.length
    · exact (behind_payload kept fits).1
    · rw [List.drop_eq_nil_of_le (by omega)]
      simp

theorem Reaches.trans {text middle here : Bytes} (first : Reaches text middle)
    (second : Reaches middle here) : Reaches text here := by
  induction second with
  | start => exact first
  | next _ fields fits ih => exact .next ih fields fits

theorem record_of_beginsLine {text : Bytes} (begins : beginsLine text) :
    ∃ record : Record, text <+: record.header := by
  have zero : IsI64 (Decimal.print 0) := CaptureWriter.isI64_print (by decide)
  have build : ∀ tsText lenText, IsI64 tsText → IsI64 lenText →
      ∃ record : Record, record.header = tsText ++ ascii ' ' :: lenText := fun tsText lenText ts len =>
    ⟨⟨tsText, lenText, List.replicate (Decimal.value lenText) 0, ts, len, List.length_replicate⟩, rfl⟩
  unfold beginsLine at begins
  cases split : splitFirst (ascii ' ') text with
  | none =>
    rw [split] at begins
    rcases begins with rfl | ts
    · obtain ⟨record, _⟩ := build _ _ zero zero
      exact ⟨record, List.nil_prefix⟩
    · obtain ⟨record, spelled⟩ := build text _ ts zero
      exact ⟨record, spelled ▸ List.prefix_append _ _⟩
  | some fields =>
    obtain ⟨tsText, lenText⟩ := fields
    rw [split] at begins
    obtain ⟨rfl, _⟩ := (splitFirst_eq_some _ _ _ _).mp split
    obtain ⟨ts, rfl | len⟩ := begins
    · obtain ⟨record, spelled⟩ := build tsText _ ts zero
      refine ⟨record, spelled ▸ ?_⟩
      rw [List.prefix_append_right_inj, List.cons_prefix_cons]
      exact ⟨rfl, List.nil_prefix⟩
    · obtain ⟨record, spelled⟩ := build tsText lenText ts len
      exact ⟨record, spelled ▸ List.prefix_rfl⟩

theorem bytes_single (record : Record) :
    List.flatMap Record.bytes [record] = record.line ++ (record.payload ++ [ascii '\n']) := by
  simp [Record.bytes]

theorem wholeIn_short {record : Record} {rest : List Record} {room : Nat}
    (short : room < record.line.length + record.payload.length) :
    wholeIn room (record :: rest) = [] := by
  rw [wholeIn, if_neg (by omega)]

theorem behind_newline {body more : Bytes} (newline : ∀ c ∈ body.head?, c = ascii '\n')
    (isCut : body.drop 1 <+: more) : body <+: ascii '\n' :: more := by
  cases body with
  | nil => exact List.nil_prefix
  | cons c body =>
    obtain rfl : c = ascii '\n' := newline c (by simp)
    exact List.cons_prefix_cons.mpr ⟨rfl, by simpa using isCut⟩

theorem cut_in_line {text : Bytes} (begins : beginsLine text) :
    ∃ record, text <+: List.flatMap Record.bytes [record] ∧ wholeIn text.length [record] = [] := by
  obtain ⟨record, isFront⟩ := record_of_beginsLine begins
  have short : text.length < record.line.length + record.payload.length := by
    have inHeader := isFront.length_le
    rw [Record.line, List.length_append, List.length_singleton]
    omega
  refine ⟨record, ?_, wholeIn_short short⟩
  rw [bytes_single, Record.line, List.append_assoc]
  exact List.prefix_append_of_prefix isFront

theorem cut_in_payload {tsText lenText body : Bytes} (ts : IsI64 tsText) (len : IsI64 lenText)
    (short : body.length < Decimal.value lenText) :
    ∃ record, tsText ++ ascii ' ' :: lenText ++ ascii '\n' :: body <+:
        List.flatMap Record.bytes [record] ∧
      wholeIn (tsText ++ ascii ' ' :: lenText ++ ascii '\n' :: body).length [record] = [] := by
  let record : Record :=
    ⟨tsText, lenText, body ++ List.replicate (Decimal.value lenText - body.length) 0, ts, len, by
      rw [List.length_append, List.length_replicate]
      omega⟩
  have shape : tsText ++ ascii ' ' :: lenText ++ ascii '\n' :: body = record.line ++ body := by
    simp [record, Record.line, Record.header]
  have outside : (record.line ++ body).length < record.line.length + record.payload.length := by
    rw [List.length_append, record.counted]
    exact Nat.add_lt_add_left short _
  rw [shape]
  refine ⟨record, ?_, wholeIn_short outside⟩
  rw [bytes_single, List.prefix_append_right_inj]
  exact List.prefix_append_of_prefix (List.prefix_append _ _)

theorem whole_record {tsText lenText body : Bytes} (ts : IsI64 tsText) (len : IsI64 lenText)
    (enough : Decimal.value lenText ≤ body.length)
    (newline : ∀ c ∈ (body.drop (Decimal.value lenText)).head?, c = ascii '\n')
    {records : List Record}
    (isCut : body.drop (Decimal.value lenText + 1) <+: records.flatMap Record.bytes) :
    ∃ record, tsText ++ ascii ' ' :: lenText ++ ascii '\n' :: body <+:
        List.flatMap Record.bytes (record :: records) ∧
      wholeIn (tsText ++ ascii ' ' :: lenText ++ ascii '\n' :: body).length (record :: records) =
        frameAt (parseI64 tsText) (parseI64 lenText) body ::
          wholeIn (body.drop (Decimal.value lenText + 1)).length records := by
  let record : Record := ⟨tsText, lenText, body.take (Decimal.value lenText), ts, len, by
    rw [List.length_take]
    omega⟩
  have taken : record.payload.length = Decimal.value lenText := record.counted
  have split : body = record.payload ++ body.drop (Decimal.value lenText) :=
    (List.take_append_drop _ body).symm
  have shape : tsText ++ ascii ' ' :: lenText ++ ascii '\n' :: body =
      record.line ++ (record.payload ++ body.drop (Decimal.value lenText)) := by
    rw [← split]
    simp [record, Record.line, Record.header]
  have whole : (record :: records).flatMap Record.bytes =
      record.line ++ (record.payload ++ ascii '\n' :: records.flatMap Record.bytes) := by
    simp [Record.bytes]
  have frame : frameAt (parseI64 tsText) (parseI64 lenText) body = record.frame := by
    conv_lhs => rw [split]
    exact frameAt_record record _
  have room : (record.line ++ (record.payload ++ body.drop (Decimal.value lenText))).length -
      record.bytes.length = (body.drop (Decimal.value lenText + 1)).length := by
    simp only [Record.bytes, List.length_append, List.length_singleton, List.length_drop]
    omega
  rw [← List.drop_drop] at isCut
  refine ⟨record, ?_, ?_⟩
  · rw [shape, whole, List.prefix_append_right_inj, List.prefix_append_right_inj]
    exact behind_newline newline isCut
  · rw [shape, wholeIn, if_pos (by simp only [List.length_append]; omega), room, frame]

theorem records_of_meant {text : Bytes} {frames : List CapturedFrame}
    (parsed : parseRecords text = .ok frames)
    (meant : ∀ here, Reaches text here → ReadsAsMeant here) :
    ∃ records, text <+: List.flatMap Record.bytes records ∧
      frames = wholeIn text.length records := by
  fun_induction parseRecords text generalizing frames with
  | case1 text empty =>
    obtain rfl := List.isEmpty_iff.mp empty
    exact ⟨[], List.nil_prefix, (Except.ok.inj parsed).symm⟩
  | case2 text _ unended =>
    -- The text ends inside a header line.
    have here := meant text .start
    rw [ReadsAsMeant, recordFields, unended] at here
    obtain ⟨record, isCut, none⟩ := cut_in_line here
    exact ⟨[record], isCut, none ▸ (Except.ok.inj parsed).symm⟩
  | case3 => contradiction
  | case4 => contradiction
  | case5 =>
    rename_i text _ header body line tsText lenText fields len notNegative count short
    -- The text ends inside a payload.
    have lenIsI64 : IsI64 lenText := not_not.mp (mt (parseI64_neg_iff _).mpr notNegative)
    have counted : count = Decimal.value lenText := count_isI64 lenIsI64
    have here := meant text .start
    rw [ReadsAsMeant, recordFields, line, Option.bind_some, fields] at here
    obtain ⟨rfl, _⟩ := (splitFirst_eq_some _ _ _ _).mp line
    obtain ⟨rfl, _⟩ := (splitFirst_eq_some _ _ _ _).mp fields
    obtain ⟨record, isCut, none⟩ := cut_in_payload here.1 lenIsI64 (counted ▸ short)
    exact ⟨[record], isCut, none ▸ (Except.ok.inj parsed).symm⟩
  | case6 =>
    rename_i text _ header body line tsText lenText fields ts len notNegative count enough ih
    have lenIsI64 : IsI64 lenText := not_not.mp (mt (parseI64_neg_iff _).mpr notNegative)
    have counted : count = Decimal.value lenText := count_isI64 lenIsI64
    -- A whole record, and the records behind it.
    have readFields : recordFields text = some (tsText, lenText, body) := by
      rw [recordFields, line, Option.bind_some, fields]
      rfl
    have here := meant text .start
    rw [ReadsAsMeant, readFields] at here
    have step : Reaches text (body.drop (count + 1)) :=
      .next .start readFields (Nat.le_of_not_lt enough)
    cases later : parseRecords (body.drop (count + 1)) with
    | error message =>
      rw [later] at parsed
      contradiction
    | ok rest =>
      rw [later] at parsed
      obtain ⟨records, isCut, kept⟩ := ih later fun there reached => meant there (step.trans reached)
      obtain ⟨rfl, _⟩ := (splitFirst_eq_some _ _ _ _).mp line
      obtain ⟨rfl, _⟩ := (splitFirst_eq_some _ _ _ _).mp fields
      rw [counted] at enough isCut kept
      obtain ⟨record, isFront, whole⟩ := whole_record here.1 lenIsI64 (not_lt.mp enough)
        (by rw [← count_isI64 lenIsI64]; exact here.2) isCut
      refine ⟨record :: records, isFront, ?_⟩
      rw [whole, ← kept]
      exact (Except.ok.inj parsed).symm

theorem drop_magic (behind : Bytes) : (kMagic ++ behind).drop 7 = behind := List.drop_left' rfl

theorem takeField_ok {text field rest : Bytes} (taken : takeField text = (field, rest, true)) :
    (field ≠ [] ∧ ascii ' ' ∉ field) ∧
      (text = field ∧ rest = [] ∨ text = field ++ ascii ' ' :: rest) := by
  unfold takeField at taken
  split at taken
  · simp at taken
  · cases split : splitFirst (ascii ' ') text with
    | none =>
      rw [split] at taken
      simp only [Prod.mk.injEq, Bool.not_eq_true', List.isEmpty_eq_false_iff] at taken
      obtain ⟨rfl, rfl, some_⟩ := taken
      exact ⟨⟨some_, (splitFirst_eq_none _ _).mp split⟩, .inl ⟨rfl, rfl⟩⟩
    | some parts =>
      rw [split] at taken
      simp only [Prod.mk.injEq, Bool.not_eq_true', List.isEmpty_eq_false_iff] at taken
      obtain ⟨rfl, rfl, some_⟩ := taken
      obtain ⟨whole, absent⟩ := (splitFirst_eq_some _ _ _ _).mp split
      exact ⟨⟨some_, absent⟩, .inr whole⟩

theorem takeField_front (text : Bytes) :
    ascii ' ' ∉ (takeField text).1 ∧
      (text = (takeField text).1 ∨
        ∃ more, text = (takeField text).1 ++ ascii ' ' :: more) := by
  unfold takeField
  split
  · rename_i empty
    exact ⟨by simp, .inl (List.isEmpty_iff.mp empty)⟩
  · cases split : splitFirst (ascii ' ') text with
    | none => exact ⟨(splitFirst_eq_none _ _).mp split, .inl rfl⟩
    | some parts =>
      obtain ⟨whole, absent⟩ := (splitFirst_eq_some _ _ _ _).mp split
      exact ⟨absent, .inr ⟨_, whole⟩⟩

structure HeaderParsed (header text : Bytes) (capture : Capture) (symbolText startText : Bytes) :
    Prop where
  magic : header = kMagic ++ header.drop 7
  venue : takeField (header.drop 7) = (capture.venue, symbolText, true)
  symbol : takeField symbolText = (capture.symbol, startText, true)
  start : capture.startUnixNs = parseI64 (takeField startText).1
  records : parseRecords text = .ok capture.frames

theorem parse_ok {contents header text : Bytes} {capture : Capture}
    (parsed : parse contents = .ok capture)
    (split : splitFirst (ascii '\n') contents = some (header, text)) :
    ∃ symbolText startText, HeaderParsed header text capture symbolText startText := by
  rw [parse, split] at parsed
  dsimp only at parsed
  split at parsed
  · contradiction
  rename_i magic
  obtain ⟨behind, rfl⟩ := List.isPrefixOf_iff_prefix.mp (Bool.eq_true_of_not_eq_false magic)
  split at parsed
  · contradiction
  rename_i named
  simp only [Bool.not_eq_false, Bool.and_eq_true] at named
  cases records : parseRecords text with
  | error message =>
    rw [records] at parsed
    contradiction
  | ok frames =>
    rw [records] at parsed
    obtain rfl := Except.ok.inj parsed
    exact ⟨_, _, by rw [drop_magic], Prod.ext rfl (Prod.ext rfl named.1),
      Prod.ext rfl (Prod.ext rfl named.2), rfl, records⟩

theorem startField_sound {header startText : Bytes} {capture : Capture}
    (sound : SoundHeader header capture startText) : startField header = startText := by
  obtain ⟨behind, rfl, ends⟩ := sound.shape
  have absent := sound.start.absent (c := ascii ' ') (by decide)
  rw [startField, drop_magic, takeField_spaced sound.venue.2,
    takeField_spaced sound.symbol.2]
  rcases ends with rfl | ⟨more, rfl⟩
  · rw [takeField_last absent]
  · rw [takeField_spaced absent]

theorem startField_parsed {header text symbolText startText : Bytes} {capture : Capture}
    (found : HeaderParsed header text capture symbolText startText) :
    startField header = (takeField startText).1 := by
  rw [startField, found.venue, found.symbol]

theorem soundHeader_of_parsed {header text symbolText startText : Bytes} {capture : Capture}
    (found : HeaderParsed header text capture symbolText startText)
    (start : IsI64 (takeField startText).1) :
    SoundHeader header capture (takeField startText).1 := by
  obtain ⟨venue, venueEnds⟩ := takeField_ok found.venue
  obtain ⟨symbol, symbolEnds⟩ := takeField_ok found.symbol
  rcases venueEnds with ⟨_, rfl⟩ | venueEnds
  · have missing := found.symbol
    simp [takeField] at missing
  rcases symbolEnds with ⟨_, rfl⟩ | symbolEnds
  · exact absurd rfl start.number.some_
  refine ⟨⟨startText, ?_, (takeField_front startText).2⟩, venue, symbol, start, ?_⟩
  · rw [← symbolEnds, ← venueEnds]
    exact found.magic
  · rw [found.start, parseI64_isI64 start]

theorem asMeant_of_sound {contents header text : Bytes} {capture : Capture}
    (split : splitFirst (ascii '\n') contents = some (header, text))
    (sound : Sound contents capture) : AsMeant header text := by
  obtain ⟨line, rest, startText, records, rfl, absent, soundLine, isCut, _⟩ := sound
  rw [splitFirst_append absent] at split
  simp only [Option.some.injEq, Prod.mk.injEq] at split
  obtain ⟨rfl, rfl⟩ := split
  refine ⟨startField_sound soundLine ▸ soundLine.start, fun here reached => ?_⟩
  obtain ⟨left, isHere⟩ := reaches_records isCut reached
  exact readsAsMeant_records isHere

/-- What a parser accepts is sound when every number it does not check is one, every byte it skips is
a newline, and what it leaves over begins a record. -/
theorem parse_sound_iff {contents header text : Bytes} {capture : Capture}
    (parsed : parse contents = .ok capture)
    (split : splitFirst (ascii '\n') contents = some (header, text)) :
    Sound contents capture ↔ AsMeant header text := by
  constructor
  · exact asMeant_of_sound split
  · intro meant
    obtain ⟨symbolText, startText, found⟩ := parse_ok parsed split
    obtain ⟨whole, absent⟩ := (splitFirst_eq_some _ _ _ _).mp split
    obtain ⟨records, isCut, kept⟩ := records_of_meant found.records meant.records
    have start := meant.start
    rw [startField_parsed found] at start
    exact ⟨header, text, _, records, whole, absent, soundHeader_of_parsed found start, isCut, kept⟩

def cutText : Bytes := bytes "1 2\nxy\n2 30\nxy"

def cutRecords : List Record :=
  [⟨bytes "1", bytes "2", bytes "xy", by decide +kernel, by decide +kernel, by decide +kernel⟩,
    ⟨bytes "2", bytes "30", bytes "xy" ++ List.replicate 28 0, by decide +kernel,
      by decide +kernel, by decide +kernel⟩]

theorem parse_sound_iff_cut :
    Sound (bytes "CBCAP1 a b 5\n" ++ cutText)
      ⟨bytes "a", bytes "b", 5, [⟨1, bytes "xy", by decide⟩]⟩ := by
  have isCut : cutText <+: cutRecords.flatMap Record.bytes := by decide +kernel
  have split : splitFirst (ascii '\n') (bytes "CBCAP1 a b 5\n" ++ cutText) =
      some (bytes "CBCAP1 a b 5", cutText) := by decide +kernel
  refine (parse_sound_iff (by decide +kernel) split).mpr ⟨by decide +kernel, ?_⟩
  intro here reached
  obtain ⟨left, isHere⟩ := reaches_records isCut reached
  exact readsAsMeant_records isHere

/-- A timestamp that is not a number, and a payload that no newline ends. -/
theorem parse_invents_values :
    (parse (bytes "CBCAP1 a b 5\nxx 0\n\n") =
        .ok ⟨bytes "a", bytes "b", 5, [⟨-1, [], by decide⟩]⟩ ∧
      ¬ Sound (bytes "CBCAP1 a b 5\nxx 0\n\n")
        ⟨bytes "a", bytes "b", 5, [⟨-1, [], by decide⟩]⟩) ∧
    (parse (bytes "CBCAP1 a b 5\n1 1\nxy2 0\n\n") =
        .ok ⟨bytes "a", bytes "b", 5, [⟨1, bytes "x", by decide⟩, ⟨2, [], by decide⟩]⟩ ∧
      ¬ Sound (bytes "CBCAP1 a b 5\n1 1\nxy2 0\n\n")
        ⟨bytes "a", bytes "b", 5, [⟨1, bytes "x", by decide⟩, ⟨2, [], by decide⟩]⟩) := by
  have unsound : ∀ contents header text capture,
      splitFirst (ascii '\n') contents = some (header, text) → ¬ ReadsAsMeant text →
      ¬ Sound contents capture := fun contents header text capture split wrong sound =>
    wrong ((asMeant_of_sound split sound).records text .start)
  refine ⟨⟨by decide +kernel, ?_⟩, ⟨by decide +kernel, ?_⟩⟩
  · exact unsound _ (bytes "CBCAP1 a b 5") (bytes "xx 0\n\n") _ (by decide +kernel)
      (by decide +kernel)
  · exact unsound _ (bytes "CBCAP1 a b 5") (bytes "1 1\nxy2 0\n\n") _ (by decide +kernel)
      (by decide +kernel)

end Capture

end Crossbook
