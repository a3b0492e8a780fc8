import Crossbook.Capture.Records

set_option autoImplicit false

namespace Crossbook

open Spans (splitFirst splitFirst_append splitFirst_eq_none)

namespace Capture

theorem takeField_spaced {field : Bytes} (absent : ascii ' ' ∉ field) (rest : Bytes) :
    takeField (field ++ ascii ' ' :: rest) = (field, rest, !field.isEmpty) := by
  rw [takeField, if_neg (by simp), splitFirst_append absent]

theorem takeField_last {field : Bytes} (absent : ascii ' ' ∉ field) :
    takeField field = (field, [], !field.isEmpty) := by
  rw [takeField, (splitFirst_eq_none _ _).mpr absent]
  cases field <;> rfl

structure Plain (name : Bytes) : Prop where
  some_ : name ≠ []
  noSpace : ascii ' ' ∉ name
  noNewline : ascii '\n' ∉ name

theorem parse_header {venue symbol startText : Bytes}
    (venueSpace : ascii ' ' ∉ venue) (venueNewline : ascii '\n' ∉ venue)
    (symbolSpace : ascii ' ' ∉ symbol) (symbolNewline : ascii '\n' ∉ symbol)
    (startSpace : ascii ' ' ∉ startText) (startNewline : ascii '\n' ∉ startText) (text : Bytes) :
    parse (kMagic ++ (venue ++ ascii ' ' :: (symbol ++ ascii ' ' :: (startText ++ [ascii '\n']))) ++
        text) =
      if venue = [] ∨ symbol = [] then
        .error (bytes "capture header is missing venue or symbol")
      else (parseRecords text).map fun frames => ⟨venue, symbol, parseI64 startText, frames⟩ := by
  have notNewline : ascii '\n' ≠ ascii ' ' := by decide
  have absent : ascii '\n' ∉
      kMagic ++ (venue ++ ascii ' ' :: (symbol ++ ascii ' ' :: startText)) := by
    simp only [List.mem_append, List.mem_cons, not_or]
    exact ⟨by decide, venueNewline, notNewline, symbolNewline, notNewline, startNewline⟩
  have shape : kMagic ++ (venue ++ ascii ' ' :: (symbol ++ ascii ' ' ::
      (startText ++ [ascii '\n']))) ++ text =
        kMagic ++ (venue ++ ascii ' ' :: (symbol ++ ascii ' ' :: startText)) ++ ascii '\n' :: text := by
    simp
  have magic : kMagic.isPrefixOf
      (kMagic ++ (venue ++ ascii ' ' :: (symbol ++ ascii ' ' :: startText))) = true :=
    List.isPrefixOf_iff_prefix.mpr (List.prefix_append _ _)
  have behind : (kMagic ++ (venue ++ ascii ' ' :: (symbol ++ ascii ' ' :: startText))).drop 7 =
      venue ++ ascii ' ' :: (symbol ++ ascii ' ' :: startText) := List.drop_left' rfl
  rw [parse, shape, splitFirst_append absent]
  simp only [magic, behind, takeField_spaced venueSpace, takeField_spaced symbolSpace,
    takeField_last startSpace]
  cases venue <;> cases symbol <;> simp

end Capture

namespace CaptureWriter

open Capture

theorem toInt_of_nonneg {value : Int64} (nonneg : 0 ≤ value) :
    value.toInt = value.toNatClampNeg := by
  have low : (0 : Int64).toInt ≤ value.toInt := Int64.le_iff_toInt_le.mp nonneg
  rw [Int64.toInt_zero] at low
  exact (Int.toNat_of_nonneg low).symm

theorem printI64_of_nonneg {value : Int64} (nonneg : 0 ≤ value) :
    printI64 value = Decimal.print value.toNatClampNeg := by
  have integer := toInt_of_nonneg nonneg
  rw [printI64, if_neg (Int64.not_lt.mpr nonneg), integer, Int.natAbs_natCast]

theorem isI64_print {n : Nat} (fits : n < 2 ^ 63) : IsI64 (Decimal.print n) :=
  ⟨Decimal.print_number n, (Decimal.value_print n).symm ▸ fits⟩

theorem parseI64_printI64 {value : Int64} (nonneg : 0 ≤ value) :
    parseI64 (printI64 value) = value := by
  have fits := value.toNatClampNeg_lt
  rw [printI64_of_nonneg nonneg, parseI64_isI64 (isI64_print fits), Decimal.value_print]
  apply Int64.toInt_inj.mp
  rw [Int64.toInt_ofNat_of_lt fits, toInt_of_nonneg nonneg]

theorem printI64_absent (value : Int64) {c : UInt8} (notMinus : c ≠ ascii '-')
    (other : Decimal.isDigit c = false) : c ∉ printI64 value := by
  have absent : c ∉ Decimal.print value.toInt.natAbs := by
    intro member
    rw [(Decimal.print_number _).digits c member] at other
    contradiction
  unfold printI64
  split
  · exact fun member => (List.mem_cons.mp member).elim notMinus absent
  · exact absent

theorem mem_printName {name : Bytes} {c : UInt8} (member : c ∈ printName name) : c ∈ name := by
  unfold printName at member
  dsimp only at member
  have inside := (List.takeWhile_prefix _).subset member
  split at inside
  · exact inside
  · exact List.mem_of_mem_take inside

theorem printName_eq_iff {name : Bytes} (short : (printName name).length ≤ kIntMax) :
    printName name = name ↔ 0 ∉ name ∧ name.length < 2 ^ 31 := by
  -- `printf` stops at a zero byte, and the cast of the size to `int` may leave less than none.
  have printed : name.length < 2 ^ 31 → printName name = name.takeWhile fun c => c != 0 := by
    intro fits
    have precision := Int32.toInt_ofNat_of_lt fits
    rw [printName, precision, if_neg (by omega), Int.toNat_natCast, List.take_length]
  constructor
  · intro whole
    have fits : name.length < 2 ^ 31 := by
      rw [whole, kIntMax] at short
      omega
    refine ⟨fun zero => ?_, fits⟩
    have kept := List.mem_takeWhile_imp ((printed fits).symm.trans whole ▸ zero)
    simp at kept
  · rintro ⟨absent, fits⟩
    rw [printed fits]
    refine List.takeWhile_eq_self_iff.mpr fun c member => ?_
    simp only [bne_iff_ne, ne_eq]
    rintro rfl
    exact absent member

def recordOf (frame : CapturedFrame) : Record where
  tsText := Decimal.print frame.tsRecv.toNatClampNeg
  lenText := Decimal.print frame.payload.length
  payload := frame.payload
  ts := isI64_print frame.tsRecv.toNatClampNeg_lt
  len := isI64_print frame.addressable
  counted := (Decimal.value_print _).symm

section Frames

variable {frame : CapturedFrame} (nonneg : 0 ≤ frame.tsRecv)

include nonneg in
theorem line_recordOf : (recordOf frame).line = recordLine frame := by
  rw [recordLine, printI64_of_nonneg nonneg]
  simp [Record.line, Record.header, recordOf]

include nonneg in
theorem bytes_recordOf : (recordOf frame).bytes = recordBytes frame := by
  rw [Record.bytes, line_recordOf nonneg]
  rfl

include nonneg in
theorem frame_recordOf : (recordOf frame).frame = frame := by
  apply CapturedFrame.ext
  · have whole := parseI64_printI64 nonneg
    rw [printI64_of_nonneg nonneg, parseI64_isI64 (isI64_print frame.tsRecv.toNatClampNeg_lt)]
      at whole
    exact whole
  · rfl

end Frames

theorem bytes_records {frames : List CapturedFrame} (nonneg : ∀ frame ∈ frames, 0 ≤ frame.tsRecv) :
    (frames.map recordOf).flatMap Record.bytes = frames.flatMap recordBytes := by
  rw [List.flatMap_map]
  exact List.flatMap_congr fun frame member => bytes_recordOf (nonneg frame member)

theorem frames_records {frames : List CapturedFrame} (nonneg : ∀ frame ∈ frames, 0 ≤ frame.tsRecv) :
    (frames.map recordOf).map Record.frame = frames := by
  rw [List.map_map]
  refine (List.map_congr_left fun frame member => ?_).trans (List.map_id frames)
  exact frame_recordOf (nonneg frame member)

theorem length_line_pos (record : Record) : 0 < record.line.length := by
  simp [Record.line]

theorem wholeIn_take (records : List Record) (room : Nat) :
    ∃ k, wholeIn room records = (records.take k).map Record.frame ∧
      ∀ i (inside : i < records.length), i < k ↔
        ((records.take i).flatMap Record.bytes).length + (records[i].line.length +
          records[i].payload.length) ≤ room := by
  induction records generalizing room with
  | nil => exact ⟨0, rfl, fun i inside => absurd inside (Nat.not_lt_zero i)⟩
  | cons record rest ih =>
    have positive := fun i (inside : i < rest.length) => length_line_pos rest[i]
    have bytesLength : record.bytes.length =
        record.line.length + (record.payload.length + 1) := by simp [Record.bytes]
    rw [wholeIn]
    by_cases fits : record.line.length + record.payload.length ≤ room
    · obtain ⟨k, kept, lies⟩ := ih (room - record.bytes.length)
      refine ⟨k + 1, by rw [if_pos fits, kept]; rfl, ?_⟩
      intro i inside
      cases i with
      | zero => simpa using fits
      | succ i =>
        have inRest : i < rest.length := by simpa using inside
        have next := lies i inRest
        have some_ := positive i inRest
        simp only [List.take_succ_cons, List.flatMap_cons, List.length_append,
          List.getElem_cons_succ]
        omega
    · refine ⟨0, by rw [if_neg fits]; rfl, ?_⟩
      intro i inside
      cases i with
      | zero => simpa using fits
      | succ i =>
        simp only [List.take_succ_cons, List.flatMap_cons, List.length_append,
          List.getElem_cons_succ]
        omega

theorem wholeIn_all (records : List Record) :
    wholeIn (records.flatMap Record.bytes).length records = records.map Record.frame := by
  induction records with
  | nil => rfl
  | cons record rest ih =>
    have bytesLength : record.bytes.length =
        record.line.length + (record.payload.length + 1) := by simp [Record.bytes]
    rw [wholeIn, List.flatMap_cons, List.length_append, if_pos (by omega), Nat.add_sub_cancel_left,
      ih, List.map_cons]

theorem parseRecords_all (records : List Record) :
    parseRecords (records.flatMap Record.bytes) = .ok (records.map Record.frame) := by
  have cut := parseRecords_cut records (records.flatMap Record.bytes).length
  rwa [List.take_length, wholeIn_all] at cut

theorem written_shape {venue symbol : Bytes} {startUnixNs : Int64} {frames : List CapturedFrame}
    {contents : Bytes} (produced : written venue symbol startUnixNs frames = some contents) :
    contents = headerLine venue symbol startUnixNs ++ frames.flatMap recordBytes ∧
      (headerLine venue symbol startUnixNs).length ≤ kIntMax := by
  rw [written_eq] at produced
  split at produced
  · contradiction
  · exact ⟨(Option.some.inj produced).symm, by omega⟩

theorem parse_headerLine {venue symbol : Bytes} (venueSpace : ascii ' ' ∉ venue)
    (venueNewline : ascii '\n' ∉ venue) (symbolSpace : ascii ' ' ∉ symbol)
    (symbolNewline : ascii '\n' ∉ symbol) (startUnixNs : Int64) (text : Bytes) :
    parse (headerLine venue symbol startUnixNs ++ text) =
      if printName venue = [] ∨ printName symbol = [] then
        .error (bytes "capture header is missing venue or symbol")
      else (parseRecords text).map fun frames =>
        ⟨printName venue, printName symbol, parseI64 (printI64 startUnixNs), frames⟩ :=
  parse_header (mt mem_printName venueSpace) (mt mem_printName venueNewline)
    (mt mem_printName symbolSpace) (mt mem_printName symbolNewline)
    (printI64_absent _ (by decide) (by decide)) (printI64_absent _ (by decide) (by decide)) text

/-- A capture is read back as it was written when its names are printed whole. -/
theorem written_round_trip_iff {venue symbol : Bytes} (venueNamed : Plain venue)
    (symbolNamed : Plain symbol) {startUnixNs : Int64} (startNonneg : 0 ≤ startUnixNs)
    {frames : List CapturedFrame} (nonneg : ∀ frame ∈ frames, 0 ≤ frame.tsRecv) {contents : Bytes}
    (produced : written venue symbol startUnixNs frames = some contents) :
    parse contents = .ok ⟨venue, symbol, startUnixNs, frames⟩ ↔
      (0 ∉ venue ∧ venue.length < 2 ^ 31) ∧ (0 ∉ symbol ∧ symbol.length < 2 ^ 31) := by
  obtain ⟨rfl, short⟩ := written_shape produced
  have lengths : (printName venue).length ≤ kIntMax ∧ (printName symbol).length ≤ kIntMax := by
    simp only [headerLine, List.length_append, List.length_cons] at short
    omega
  have records := parseRecords_all (frames.map recordOf)
  rw [bytes_records nonneg, frames_records nonneg] at records
  rw [parse_headerLine venueNamed.noSpace venueNamed.noNewline symbolNamed.noSpace
    symbolNamed.noNewline, records, parseI64_printI64 startNonneg,
    ← printName_eq_iff lengths.1, ← printName_eq_iff lengths.2]
  by_cases missing : printName venue = [] ∨ printName symbol = []
  · rw [if_pos missing]
    refine iff_of_false (by simp) ?_
    rintro ⟨venueWhole, symbolWhole⟩
    rcases missing with missing | missing
    · exact venueNamed.some_ (venueWhole.symm.trans missing)
    · exact symbolNamed.some_ (symbolWhole.symm.trans missing)
  · rw [if_neg missing]
    simp [Except.map]

def trickyFrame : CapturedFrame := ⟨10, bytes "1 5\nhello\n", by decide⟩

def trickyCapture : Bytes := bytes "CBCAP1 kraken BTC/USD 1234\n10 10\n1 5\nhello\n\n20 0\n\n"

theorem written_round_trip_iff_tricky :
    written (bytes "kraken") (bytes "BTC/USD") 1234 [trickyFrame, ⟨20, [], by decide⟩] =
        some trickyCapture ∧
      parse trickyCapture =
        .ok ⟨bytes "kraken", bytes "BTC/USD", 1234, [trickyFrame, ⟨20, [], by decide⟩]⟩ := by
  have produced : written (bytes "kraken") (bytes "BTC/USD") 1234
      [trickyFrame, ⟨20, [], by decide⟩] = some trickyCapture := by decide +kernel
  refine ⟨produced, (written_round_trip_iff ⟨?_, ?_, ?_⟩ ⟨?_, ?_, ?_⟩ ?_ ?_ produced).mpr ?_⟩
  all_goals decide +kernel

def zeroVenue : Bytes := [ascii 'a', 0, ascii 'b']

theorem zero_byte_cuts_name :
    zeroVenue ≠ [] ∧ ascii ' ' ∉ zeroVenue ∧ ascii '\n' ∉ zeroVenue ∧
      written zeroVenue (bytes "s") 0 [] = some (bytes "CBCAP1 a s 0\n") ∧
      parse (bytes "CBCAP1 a s 0\n") ≠ .ok ⟨zeroVenue, bytes "s", 0, []⟩ := by
  decide +kernel

/-- A capture cut short behind its header reads as the records whose payloads the cut spares. -/
theorem cut_keeps_whole_records {venue symbol : Bytes} (venuePrinted : printName venue ≠ [])
    (symbolPrinted : printName symbol ≠ []) (venueSpace : ascii ' ' ∉ venue)
    (venueNewline : ascii '\n' ∉ venue) (symbolSpace : ascii ' ' ∉ symbol)
    (symbolNewline : ascii '\n' ∉ symbol) (startUnixNs : Int64) {frames : List CapturedFrame}
    (nonneg : ∀ frame ∈ frames, 0 ≤ frame.tsRecv) {contents : Bytes}
    (produced : written venue symbol startUnixNs frames = some contents) (cut : Nat)
    (behindHeader : (headerLine venue symbol startUnixNs).length ≤ cut) :
    ∃ k, parse (contents.take cut) = .ok ⟨printName venue, printName symbol,
        parseI64 (printI64 startUnixNs), frames.take k⟩ ∧
      ∀ i (inside : i < frames.length), i < k ↔
        (headerLine venue symbol startUnixNs).length + ((frames.take i).flatMap recordBytes).length +
          (recordLine frames[i]).length + frames[i].payload.length ≤ cut := by
  obtain ⟨rfl, _⟩ := written_shape produced
  have records := parseRecords_cut (frames.map recordOf)
    (cut - (headerLine venue symbol startUnixNs).length)
  obtain ⟨k, kept, lies⟩ := wholeIn_take (frames.map recordOf)
    (cut - (headerLine venue symbol startUnixNs).length)
  have nonnegTake : ∀ i, ∀ frame ∈ frames.take i, 0 ≤ frame.tsRecv := fun i frame member =>
    nonneg frame (List.mem_of_mem_take member)
  rw [bytes_records nonneg, kept, ← List.map_take, frames_records (nonnegTake k)] at records
  refine ⟨k, ?_, ?_⟩
  · rw [List.take_append, List.take_of_length_le behindHeader,
      parse_headerLine venueSpace venueNewline symbolSpace symbolNewline, records,
      if_neg (not_or.mpr ⟨venuePrinted, symbolPrinted⟩)]
    rfl
  · intro i inside
    have here := lies i (by simpa using inside)
    rw [← List.map_take, bytes_records (nonnegTake i), List.getElem_map,
      line_recordOf (nonneg _ (List.getElem_mem inside))] at here
    rw [here]
    change _ + (_ + frames[i].payload.length) ≤ _ ↔ _
    omega

theorem cut_keeps_whole_records_midway :
    parse (trickyCapture.take 47) =
      .ok ⟨printName (bytes "kraken"), printName (bytes "BTC/USD"), parseI64 (printI64 1234),
        [trickyFrame]⟩ := by
  have produced : written (bytes "kraken") (bytes "BTC/USD") 1234
      [trickyFrame, ⟨20, [], by decide⟩] = some trickyCapture := by decide +kernel
  obtain ⟨k, kept, lies⟩ := cut_keeps_whole_records (by decide +kernel) (by decide +kernel)
    (by decide +kernel) (by decide +kernel) (by decide +kernel) (by decide +kernel) 1234
    (by decide +kernel) produced 47 (by decide +kernel)
  have first : 0 < k := (lies 0 (by decide)).mpr (by decide +kernel)
  have second : ¬ 1 < k := mt (lies 1 (by decide)).mp (by decide +kernel)
  obtain rfl : k = 1 := by omega
  exact kept

end CaptureWriter

end Crossbook
