import Crossbook.Fixed
import Crossbook.Lib.Decimal
import Crossbook.Lib.Spans

set_option autoImplicit false

namespace Crossbook

open Spans (splitFirst)

/-- One recorded frame. No payload is longer than the largest object. -/
@[ext] structure CapturedFrame where
  tsRecv : Int64
  payload : Bytes
  addressable : payload.length < 2 ^ 63
  deriving DecidableEq, Repr

structure Capture where
  venue : Bytes
  symbol : Bytes
  startUnixNs : Int64
  frames : List CapturedFrame
  deriving DecidableEq, Repr

namespace Capture

def kMagic : Bytes := bytes "CBCAP1 "

def takeField (text : Bytes) : Bytes × Bytes × Bool :=
  if text.isEmpty then ([], text, false)
  else
    match splitFirst (ascii ' ') text with
    | none => (text, [], !text.isEmpty)
    | some (field, rest) => (field, rest, !field.isEmpty)

def parseI64Digits (value : Nat) : Bytes → Option Nat
  | [] => some value
  | c :: rest =>
    if isDigit c = false then none
    else
      let digit := (c - ascii '0').toNat
      -- Overflow: reject rather than wrap.
      if (9223372036854775807 - digit) / 10 < value then none
      else parseI64Digits (value * 10 + digit) rest

def parseI64 (text : Bytes) : Int64 :=
  if text.isEmpty then -1
  else
    match parseI64Digits 0 text with
    | none => -1
    | some value => Int64.ofNat value

def frameAt (ts len : Int64) (body : Bytes) : CapturedFrame where
  tsRecv := ts
  payload := body.take len.toNatClampNeg
  addressable := by
    have bound := len.toNatClampNeg_lt
    rw [List.length_take]
    omega

def parseRecords (text : Bytes) : Except Bytes (List CapturedFrame) :=
  if text.isEmpty then .ok []
  else
    match _line : splitFirst (ascii '\n') text with
    | none => .ok []
    | some (record, body) =>
      match splitFirst (ascii ' ') record with
      | none => .error (bytes "malformed record header: " ++ record)
      | some (tsText, lenText) =>
        -- A timestamp that is not a number is taken for minus one, and nothing checks it.
        let ts := parseI64 tsText
        let len := parseI64 lenText
        if len < 0 then .error (bytes "negative frame length")
        else
          let count := len.toNatClampNeg
          -- A recording that was cut short ends with its last whole record.
          if body.length < count then .ok []
          -- The byte behind the payload is skipped unread.
          else (parseRecords (body.drop (count + 1))).map fun frames => frameAt ts len body :: frames
termination_by text.length
decreasing_by
  have shorter := Spans.length_splitFirst _line
  rw [List.length_drop]
  omega

def parse (contents : Bytes) : Except Bytes Capture :=
  match splitFirst (ascii '\n') contents with
  | none => .error (bytes "capture has no header line")
  | some (header, text) =>
    if kMagic.isPrefixOf header = false then .error (bytes "capture header is not CBCAP1")
    else
      let (venue, header, hasVenue) := takeField (header.drop 7)
      let (symbol, header, hasSymbol) := takeField header
      if (hasVenue && hasSymbol) = false then
        .error (bytes "capture header is missing venue or symbol")
      else
        let (startText, _, _) := takeField header
        (parseRecords text).map fun frames => ⟨venue, symbol, parseI64 startText, frames⟩

end Capture

structure CaptureWriter where
  contents : Bytes
  isOpen : Bool
  frames : UInt64
  bytesWritten : UInt64
  deriving DecidableEq, Repr

namespace CaptureWriter

def kIntMax : Nat := 2 ^ 31 - 1

def fresh : CaptureWriter := ⟨[], false, 0, 0⟩

/-- A name printed with a precision of its size as an `int`: printing stops at a zero byte, and a
negative precision is none. -/
def printName (name : Bytes) : Bytes :=
  let precision := (Int32.ofNat name.length).toInt
  (if precision < 0 then name else name.take precision.toNat).takeWhile fun c => c != 0

def printI64 (value : Int64) : Bytes :=
  if value < 0 then ascii '-' :: Decimal.print value.toInt.natAbs
  else Decimal.print value.toInt.natAbs

def headerLine (venue symbol : Bytes) (startUnixNs : Int64) : Bytes :=
  Capture.kMagic ++ (printName venue ++ ascii ' ' :: (printName symbol ++
    ascii ' ' :: (printI64 startUnixNs ++ [ascii '\n'])))

def recordLine (frame : CapturedFrame) : Bytes :=
  printI64 frame.tsRecv ++ ascii ' ' :: (Decimal.print frame.payload.length ++ [ascii '\n'])

def recordBytes (frame : CapturedFrame) : Bytes :=
  recordLine frame ++ (frame.payload ++ [ascii '\n'])

-- Printing more bytes than an `int` can count fails.
def openFile (writer : CaptureWriter) (venue symbol : Bytes) (startUnixNs : Int64) :
    CaptureWriter × Bool :=
  let line := headerLine venue symbol startUnixNs
  if kIntMax < line.length then ({ writer with contents := [], isOpen := true }, false)
  else ({ writer with contents := line, isOpen := true }, true)

def write (writer : CaptureWriter) (frame : CapturedFrame) : CaptureWriter × Bool :=
  if writer.isOpen = false then (writer, false)
  else
    ({ writer with
        contents := writer.contents ++ recordBytes frame
        frames := writer.frames + 1
        bytesWritten := writer.bytesWritten + UInt64.ofNat frame.payload.length }, true)

def close (writer : CaptureWriter) : CaptureWriter := { writer with isOpen := false }

def writeAll : List CapturedFrame → CaptureWriter → CaptureWriter × Bool
  | [], writer => (writer, true)
  | frame :: rest, writer =>
    let (writer, ok) := writer.write frame
    if ok = false then (writer, false) else writeAll rest writer

/-- The file a writer leaves behind, if every call succeeds. -/
def written (venue symbol : Bytes) (startUnixNs : Int64) (frames : List CapturedFrame) :
    Option Bytes :=
  let (writer, opened) := fresh.openFile venue symbol startUnixNs
  if opened = false then none
  else
    let (writer, ok) := writeAll frames writer
    if ok = false then none else some writer.close.contents

theorem writeAll_open (frames : List CapturedFrame) (writer : CaptureWriter)
    (isOpen : writer.isOpen = true) :
    (writeAll frames writer).2 = true ∧
      (writeAll frames writer).1.contents = writer.contents ++ frames.flatMap recordBytes := by
  induction frames generalizing writer with
  | nil => simp [writeAll]
  | cons frame rest ih =>
    have later := ih (writer.write frame).1 (by simp [write, isOpen])
    simp only [writeAll, write, isOpen, Bool.true_eq_false, if_false] at later ⊢
    refine ⟨later.1, later.2.trans ?_⟩
    rw [List.flatMap_cons, List.append_assoc]

theorem written_eq (venue symbol : Bytes) (startUnixNs : Int64) (frames : List CapturedFrame) :
    written venue symbol startUnixNs frames =
      if kIntMax < (headerLine venue symbol startUnixNs).length then none
      else some (headerLine venue symbol startUnixNs ++ frames.flatMap recordBytes) := by
  by_cases long : kIntMax < (headerLine venue symbol startUnixNs).length
  · simp [written, openFile, long]
  · have all := writeAll_open frames
      { fresh with contents := headerLine venue symbol startUnixNs, isOpen := true } rfl
    simp only [written, openFile, if_neg long, Bool.true_eq_false, if_false, all.1, close, all.2]

end CaptureWriter

end Crossbook
