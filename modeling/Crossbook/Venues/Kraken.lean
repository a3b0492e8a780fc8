import Crossbook.Venues.Decoding
import Crossbook.Venues.Rfc3339

set_option autoImplicit false

namespace Crossbook

structure KrakenBookDecoder where
  spec : InstrumentSpec

namespace KrakenBookDecoder

open Venues

structure FrameFields where
  errorText : JsonValue
  success : JsonValue
  method : JsonValue
  channel : JsonValue
  type : JsonValue
  data : JsonValue

def FrameFields.blank : FrameFields := ⟨.absent, .absent, .absent, .absent, .absent, .absent⟩

def FrameFields.member (fields : FrameFields) (member : Bytes × JsonValue) : FrameFields × Bool :=
  ({ errorText := captureAt "error" fields.errorText member
     success := captureAt "success" fields.success member
     method := captureAt "method" fields.method member
     channel := captureAt "channel" fields.channel member
     type := captureAt "type" fields.type member
     data := captureAt "data" fields.data member }, true)

structure EntryFields where
  symbol : JsonValue
  checksum : JsonValue
  timestamp : JsonValue
  bids : JsonValue
  asks : JsonValue

def EntryFields.blank : EntryFields := ⟨.absent, .absent, .absent, .absent, .absent⟩

def EntryFields.member (fields : EntryFields) (member : Bytes × JsonValue) : EntryFields × Bool :=
  ({ symbol := captureAt "symbol" fields.symbol member
     checksum := captureAt "checksum" fields.checksum member
     timestamp := captureAt "timestamp" fields.timestamp member
     bids := captureAt "bids" fields.bids member
     asks := captureAt "asks" fields.asks member }, true)

structure LevelFields where
  price : JsonValue
  qty : JsonValue

def LevelFields.blank : LevelFields := ⟨.absent, .absent⟩

def LevelFields.member (fields : LevelFields) (member : Bytes × JsonValue) : LevelFields × Bool :=
  ({ price := captureAt "price" fields.price member
     qty := captureAt "qty" fields.qty member }, true)

def venueError (message : DecodedMessage) (detail : Bytes) : DecodedMessage :=
  { message with kind := .venueError, badToken := detail, levels := [] }

def decodeChecksum (message : DecodedMessage) (checksum : JsonValue) : DecodedMessage × Bool :=
  -- A frame may come without a checksum, but not with one that cannot be read.
  if checksum.ok = false then (message, true)
  else
    let token := Json.numberToken checksum
    let unreadable :=
      { message with
        error := .badChecksum
        badToken := if token.isEmpty then checksum.raw else token }
    match (if token.isEmpty then none else Json.parseU64 token) with
    | none => (unreadable, false)
    | some raw =>
      -- A number past 32 bits is no CRC.
      if 0xFFFFFFFF < raw then (unreadable, false)
      else ({ message with checksum := raw.toUInt32, hasChecksum := true }, true)

def decodeTimestamp (message : DecodedMessage) (timestamp : JsonValue) : DecodedMessage × Bool :=
  let text := Json.stringBody timestamp
  match (if text.isEmpty then none else parseRfc3339Nanos text) with
  | none =>
    ({ message with
        error := .badTimestamp
        badToken := if text.isEmpty then timestamp.raw else text }, false)
  | some nanos => ({ message with ts := nanos }, true)

section Levels

variable (spec : InstrumentSpec) (side : Side)

def decodeLevel (progress : Progress) (level : JsonValue) : Progress × Bool :=
  let message := progress.1
  if level.type ≠ .object then failed message
  else if kMaxLevelsPerMessage ≤ message.levels.length then
    failed { message with error := .tooManyLevels }
  else
    let walked := Json.forEachMember level.raw LevelFields.member .blank
    if walked.2 = false then failed message
    else
      let priceToken := Json.numberToken walked.1.price
      let qtyToken := Json.numberToken walked.1.qty
      if priceToken.isEmpty || qtyToken.isEmpty then failed message
      else pushLevel spec side message priceToken qtyToken

def decodeSide : DecodedMessage → JsonValue → DecodedMessage × Bool :=
  walkSide (decodeLevel spec side)

end Levels

def decodeEntry (spec : InstrumentSpec) (message : DecodedMessage) (fields : EntryFields) :
    DecodedMessage × Bool :=
  let named := { message with symbol := Json.stringBody fields.symbol }
  let checked := decodeChecksum named fields.checksum
  if checked.2 = false then checked
  else
    let stamped := decodeTimestamp checked.1 fields.timestamp
    if stamped.2 = false then stamped
    else
      let bids := decodeSide spec .bid stamped.1 fields.bids
      if bids.2 = false then bids else decodeSide spec .ask bids.1 fields.asks

structure DataWalk where
  message : DecodedMessage
  matched : Bool
  failed : Bool

def foreign (spec : InstrumentSpec) (symbol : JsonValue) : Bool :=
  let read := Json.readString symbol
  -- An entry that names no instrument is taken for this one.
  decide (read.1 ≠ .notAString) && !read.2.isEmpty && !Json.stringEquals symbol spec.symbol

def dataEntry (spec : InstrumentSpec) (walk : DataWalk) (entry : JsonValue) : DataWalk × Bool :=
  if entry.type ≠ .object then ({ walk with failed := true }, false)
  -- One entry is decoded; the others are walked over.
  else if walk.matched then (walk, true)
  else
    let walked := Json.forEachMember entry.raw EntryFields.member .blank
    if walked.2 = false then ({ walk with failed := true }, false)
    else if foreign spec walked.1.symbol then (walk, true)
    else
      let decoded := decodeEntry spec walk.message walked.1
      (⟨decoded.1, true, !decoded.2⟩, decoded.2)

def decodeData (spec : InstrumentSpec) (message : DecodedMessage) (data : JsonValue) : DecodedMessage :=
  if data.ok = false || data.type ≠ .array then fail message .malformed
  else
    let walked := Json.forEach data.raw (dataEntry spec) ⟨message, false, false⟩
    if walked.2 = false || walked.1.failed then failDecoded walked.1.message
    -- Entries for other instruments alone leave nothing to apply.
    else if walked.1.matched = false then
      { walked.1.message with kind := .ignored, levels := [] }
    else walked.1.message

def decodeBook (spec : InstrumentSpec) (message : DecodedMessage) (fields : FrameFields) :
    DecodedMessage :=
  if Json.stringEquals fields.type (bytes "snapshot") then
    decodeData spec { message with kind := .snapshot } fields.data
  else if Json.stringEquals fields.type (bytes "update") then
    decodeData spec { message with kind := .update } fields.data
  else { message with kind := .ignored }

def decodeInto (decoder : KrakenBookDecoder) (message : DecodedMessage) (frame : Bytes) :
    DecodedMessage :=
  let walked := Json.forEachMember frame FrameFields.member .blank
  let fields := walked.1
  if walked.2 = false then
    -- JSON that is no object is not for this decoder; anything else is broken.
    if Json.wellFormed frame then { message with kind := .ignored } else fail message .malformed
  else if fields.errorText.ok && fields.errorText.type == .string then
    venueError message (Json.stringBody fields.errorText)
  else if fields.success.ok && fields.success.type == .bool && fields.success.raw == bytes "false" then
    venueError message (Json.stringBody fields.method)
  else if fields.channel.ok = false then { message with kind := .ignored }
  else if Json.stringEquals fields.channel (bytes "status") ||
      Json.stringEquals fields.channel (bytes "heartbeat") then { message with kind := .ignored }
  else if Json.stringEquals fields.channel (bytes "book") = false then
    { message with kind := .ignored }
  else decodeBook decoder.spec message fields

/-- Decoding on an object that decoded `last` before. -/
def decodeAfter (decoder : KrakenBookDecoder) (last : DecodedMessage) (frame : Bytes) :
    DecodedMessage :=
  decoder.decodeInto last.reset frame

def decode (decoder : KrakenBookDecoder) (frame : Bytes) : DecodedMessage :=
  decoder.decodeInto .blank frame

end KrakenBookDecoder

def KrakenBookDecoder.toDecoder (decoder : KrakenBookDecoder) : Decoder :=
  ⟨decoder.spec, decoder.decode⟩

end Crossbook
