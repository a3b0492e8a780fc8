import Crossbook.Lib.LittleEndian
import Crossbook.Venues.Decoding

set_option autoImplicit false

namespace Crossbook

structure BinanceSbeDecoder where
  spec : InstrumentSpec

namespace BinanceSbeDecoder

open Venues

def kSchemaId : UInt16 := 1

def kDepthSnapshotTemplate : UInt16 := 10002

def kDepthDiffTemplate : UInt16 := 10003

def kMaxEventUs : Int64 := 9223372036854775

def fail (message : DecodedMessage) (error : DecodeError) : DecodedMessage :=
  { message with kind := .ignored, error := error, levels := [] }

section Reads

variable (frame : Bytes) (cursor : Nat)

def loadU16 : UInt16 := UInt16.ofNat (LittleEndian.load 2 frame cursor)

def loadI64 : Int64 := (UInt64.ofNat (LittleEndian.load 8 frame cursor)).toInt64

def loadI8 : Int8 := (UInt8.ofNat (LittleEndian.load 1 frame cursor)).toInt8

def readU16 : Option (UInt16 × Nat) :=
  if frame.length - cursor < 2 then none else some (loadU16 frame cursor, cursor + 2)

-- A failed read leaves the zero its caller started from, and the cursor.
def readI64 : Int64 × Nat :=
  if frame.length - cursor < 8 then (0, cursor) else (loadI64 frame cursor, cursor + 8)

def readI8 : Int8 × Nat :=
  if frame.length - cursor < 1 then (0, cursor) else (loadI8 frame cursor, cursor + 1)

structure Root where
  eventUs : Int64
  firstId : Int64
  lastId : Int64
  priceExp : Int8
  qtyExp : Int8
  deriving DecidableEq, Repr

def readRoot (diff : Bool) : Root :=
  let event := readI64 frame cursor
  let first := if diff then readI64 frame event.2 else (0, event.2)
  let last := readI64 frame first.2
  let price := readI8 frame last.2
  let qty := readI8 frame price.2
  ⟨event.1, if diff then first.1 else last.1, last.1, price.1, qty.1⟩

def peekGroup : Option (UInt16 × UInt16 × Nat) :=
  if frame.length - cursor < 4 then none
  else
    let stride := loadU16 frame cursor
    let count := loadU16 frame (cursor + 2)
    let entries := cursor + 4
    -- A newer schema may lengthen the entries as well.
    if stride < 16 then none
    else if frame.length - entries < stride.toNat * count.toNat then none
    else some (stride, count, entries + stride.toNat * count.toNat)

def peekSymbol : Option Bytes :=
  match frame[cursor]? with
  | none => none
  | some len =>
    if frame.length - cursor - 1 < len.toNat then none
    else some ((frame.drop (cursor + 1)).take len.toNat)

end Reads

def rescale (mantissa : Int64) (exponent : Int8) (scale : Scale) : Option Int64 :=
  let shift : Int := scale.toNat + exponent.toInt
  if shift = 0 then some mantissa
  else if 0 < shift then
    -- Past the table even a zero is refused, though not in the other direction.
    if kMaxScale.toNat < shift then none else checkedMul mantissa (kPow10 shift.toNat)
  else if kMaxScale.toNat < -shift then if mantissa = 0 then some 0 else none
  else
    let divisor := kPow10 (-shift).toNat
    if mantissa % divisor ≠ 0 then none else some (mantissa / divisor)

section Groups

variable (spec : InstrumentSpec) (frame : Bytes) (root : Root)

def decodeGroupEntry (side : Side) (message : DecodedMessage) (cursor : Nat) : DecodedMessage × Bool :=
  let priceMantissa := loadI64 frame cursor
  let qtyMantissa := loadI64 frame (cursor + 8)
  if priceMantissa < 0 ∨ qtyMantissa < 0 then (fail message .malformed, false)
  else
    match rescale priceMantissa root.priceExp spec.priceScale,
        rescale qtyMantissa root.qtyExp spec.qtyScale with
    | some ticks, some units =>
      ({ message with levels := message.levels ++ [⟨side, ⟨ticks⟩, ⟨units⟩⟩] }, true)
    | _, _ => (fail message .precisionLoss, false)

def decodeEntries (side : Side) (stride : UInt16) :
    Nat → DecodedMessage → Nat → (DecodedMessage × Nat) × Bool
  | 0, message, cursor => ((message, cursor), true)
  | count + 1, message, cursor =>
    let entry := decodeGroupEntry spec frame root side message cursor
    let next := cursor + stride.toNat
    if entry.2 = false then ((entry.1, next), false)
    else decodeEntries side stride count entry.1 next

-- The four bytes of the dimensions were validated by the peek.
def decodeGroup (side : Side) (stride count : UInt16) (message : DecodedMessage) (cursor : Nat) :
    (DecodedMessage × Nat) × Bool :=
  decodeEntries spec frame root side stride count.toNat message (cursor + 4)

def decodeGroups (bidStride bidCount askStride askCount : UInt16) (message : DecodedMessage)
    (cursor : Nat) : DecodedMessage :=
  let bids := decodeGroup spec frame root .bid bidStride bidCount message cursor
  if bids.2 = false then bids.1.1
  else (decodeGroup spec frame root .ask askStride askCount bids.1.1 bids.1.2).1.1

end Groups

def stampEvent (message : DecodedMessage) (eventUs : Int64) : DecodedMessage :=
  if 0 < eventUs ∧ eventUs ≤ kMaxEventUs then { message with ts := eventUs * 1000 } else message

/-- The message before its levels are read. -/
def openMessage (message : DecodedMessage) (root : Root) (diff : Bool) (symbol : Bytes) :
    DecodedMessage :=
  let named := { message with symbol := symbol, kind := if diff then .update else .snapshot }
  { stampEvent named root.eventUs with
    ids := { named.ids with firstId := root.firstId.toUInt64, finalId := root.lastId.toUInt64 }
    hasIds := true }

def decodeDepth (spec : InstrumentSpec) (message : DecodedMessage) (frame : Bytes) (cursor : Nat)
    (blockLength : UInt16) (diff : Bool) : DecodedMessage :=
  -- A newer schema may lengthen the block, whose known fields come first.
  let minBlock : UInt16 := if diff then 26 else 18
  if blockLength < minBlock ∨ frame.length - cursor < blockLength.toNat then fail message .malformed
  else
    let root := readRoot frame cursor diff
    let groups := cursor + blockLength.toNat
    if root.firstId < 0 ∨ root.lastId < 0 then fail message .badSequence
    else
      match peekGroup frame groups with
      | none => fail message .malformed
      | some (bidStride, bidCount, asks) =>
        match peekGroup frame asks with
        | none => fail message .malformed
        | some (askStride, askCount, trailer) =>
          match peekSymbol frame trailer with
          | none => fail message .malformed
          | some symbol =>
            -- A frame without a symbol is taken to be addressed.
            if !symbol.isEmpty && !equalsIgnoreCase symbol spec.symbol then
              { message with kind := .ignored, symbol := [] }
            else if kMaxLevelsPerMessage < bidCount.toNat + askCount.toNat then
              fail { message with symbol := symbol } .tooManyLevels
            else
              decodeGroups spec frame root bidStride bidCount askStride askCount
                (openMessage message root diff symbol) groups

def readHeader (frame : Bytes) : Option ((UInt16 × UInt16 × UInt16 × UInt16) × Nat) := do
  let (blockLength, cursor) ← readU16 frame 0
  let (templateId, cursor) ← readU16 frame cursor
  let (schemaId, cursor) ← readU16 frame cursor
  let (version, cursor) ← readU16 frame cursor
  pure ((blockLength, templateId, schemaId, version), cursor)

def decodeInto (decoder : BinanceSbeDecoder) (message : DecodedMessage) (frame : Bytes) :
    DecodedMessage :=
  match readHeader frame with
  | none => fail message .malformed
  | some ((blockLength, templateId, schemaId, _), cursor) =>
    if schemaId ≠ kSchemaId then fail message .malformed
    else if templateId = kDepthDiffTemplate then
      decodeDepth decoder.spec message frame cursor blockLength true
    else if templateId = kDepthSnapshotTemplate then
      decodeDepth decoder.spec message frame cursor blockLength false
    else { message with kind := .ignored }

/-- Decoding on an object that decoded `last` before. -/
def decodeAfter (decoder : BinanceSbeDecoder) (last : DecodedMessage) (frame : Bytes) :
    DecodedMessage :=
  decoder.decodeInto last.reset frame

def decode (decoder : BinanceSbeDecoder) (frame : Bytes) : DecodedMessage :=
  decoder.decodeInto .blank frame

end BinanceSbeDecoder

end Crossbook
