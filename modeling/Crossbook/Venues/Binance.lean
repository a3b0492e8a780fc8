import Crossbook.Venues.Decoding

set_option autoImplicit false

namespace Crossbook

inductive BinanceMarket where
  | spot
  | futures
  deriving DecidableEq, Repr

structure BinanceDepthDecoder where
  spec : InstrumentSpec
  market : BinanceMarket

namespace BinanceDepthDecoder

open Venues

def kMaxEventMs : UInt64 := Int64.maxValue.toUInt64 / 1000000

def policy (decoder : BinanceDepthDecoder) : SequencePolicy :=
  if decoder.market = .spot then .binanceSpot else .binanceFutures

structure PayloadFields where
  event : JsonValue
  code : JsonValue
  msg : JsonValue
  symbol : JsonValue
  eventMs : JsonValue
  firstId : JsonValue
  finalId : JsonValue
  prevId : JsonValue
  bids : JsonValue
  asks : JsonValue

namespace PayloadFields

def blank : PayloadFields :=
  ⟨.absent, .absent, .absent, .absent, .absent, .absent, .absent, .absent, .absent, .absent⟩

def consume (fields : PayloadFields) (member : Bytes × JsonValue) : PayloadFields :=
  { event := captureAt "e" fields.event member
    code := captureAt "code" fields.code member
    msg := captureAt "msg" fields.msg member
    symbol := captureAt "s" fields.symbol member
    eventMs := captureAt "E" fields.eventMs member
    firstId := captureAt "U" fields.firstId member
    finalId := captureAt "u" fields.finalId member
    prevId := captureAt "pu" fields.prevId member
    bids := captureAt "b" fields.bids member
    asks := captureAt "a" fields.asks member }

def member (fields : PayloadFields) (member : Bytes × JsonValue) : PayloadFields × Bool :=
  (fields.consume member, true)

end PayloadFields

structure FrameFields where
  top : PayloadFields
  wrapped : JsonValue

def FrameFields.blank : FrameFields := ⟨.blank, .absent⟩

def FrameFields.member (fields : FrameFields) (member : Bytes × JsonValue) : FrameFields × Bool :=
  if member.1 = bytes "data" then ({ fields with wrapped := capture fields.wrapped member.2 }, true)
  else ({ fields with top := fields.top.consume member }, true)

structure SnapshotFields where
  lastId : JsonValue
  bids : JsonValue
  asks : JsonValue

def SnapshotFields.blank : SnapshotFields := ⟨.absent, .absent, .absent⟩

def SnapshotFields.member (fields : SnapshotFields) (member : Bytes × JsonValue) :
    SnapshotFields × Bool :=
  ({ lastId := captureAt "lastUpdateId" fields.lastId member
     bids := captureAt "bids" fields.bids member
     asks := captureAt "asks" fields.asks member }, true)

section Levels

variable (spec : InstrumentSpec) (side : Side)

structure PairWalk where
  price : Bytes
  qty : Bytes
  seen : Nat

-- Trailing elements are ignored.
def pairField (walk : PairWalk) (field : JsonValue) : PairWalk × Bool :=
  let token := Json.numberToken field
  ({ price := if walk.seen = 0 then token else walk.price
     qty := if walk.seen = 1 then token else walk.qty
     seen := walk.seen + 1 }, decide (walk.seen + 1 < 2))

def decodeLevel (progress : Progress) (level : JsonValue) : Progress × Bool :=
  let message := progress.1
  if level.type ≠ .array then failed message
  else if kMaxLevelsPerMessage ≤ message.levels.length then
    failed { message with error := .tooManyLevels }
  else
    let walked := Json.forEach level.raw pairField ⟨[], [], 0⟩
    if walked.2 = false || walked.1.price.isEmpty || walked.1.qty.isEmpty then failed message
    else pushLevel spec side message walked.1.price walked.1.qty

def decodeSide : DecodedMessage → JsonValue → DecodedMessage × Bool :=
  walkSide (decodeLevel spec side)

end Levels

def decodeSides (spec : InstrumentSpec) (message : DecodedMessage) (bids asks : JsonValue) :
    DecodedMessage :=
  let bidSide := decodeSide spec .bid message bids
  if bidSide.2 = false then failDecoded bidSide.1
  else
    let askSide := decodeSide spec .ask bidSide.1 asks
    if askSide.2 = false then failDecoded askSide.1 else askSide.1

-- An event time past the range of a timestamp leaves it unusable, not the frame.
def stampEvent (message : DecodedMessage) (eventMs : JsonValue) : DecodedMessage :=
  match Json.parseU64 (Json.numberToken eventMs) with
  | some ms => if ms ≤ kMaxEventMs then { message with ts := ms.toInt64 * 1000000 } else message
  | none => message

/-- The ids of an update; a futures stream cannot do without the previous one. -/
def decodeIds (decoder : BinanceDepthDecoder) (message : DecodedMessage) (fields : PayloadFields) :
    DecodedMessage × Bool :=
  match Json.parseU64 (Json.numberToken fields.firstId),
      Json.parseU64 (Json.numberToken fields.finalId) with
  | some firstId, some finalId =>
    let numbered :=
      { message with ids := { message.ids with firstId := firstId, finalId := finalId } }
    match decoder.market with
    -- The id before the range is a futures stream's own.
    | .spot => ({ numbered with hasIds := true }, true)
    | .futures =>
      match Json.parseU64 (Json.numberToken fields.prevId) with
      | none => (numbered, false)
      | some prevId =>
        ({ numbered with ids := { numbered.ids with prevId := prevId }, hasIds := true }, true)
  | _, _ => (message, false)

def decodeDepth (decoder : BinanceDepthDecoder) (message : DecodedMessage) (fields : PayloadFields) :
    DecodedMessage :=
  let numbered := decodeIds decoder (stampEvent message fields.eventMs) fields
  if numbered.2 = false then fail numbered.1 .badSequence
  else decodeSides decoder.spec numbered.1 fields.bids fields.asks

def decodePayload (decoder : BinanceDepthDecoder) (message : DecodedMessage)
    (fields : PayloadFields) : DecodedMessage :=
  if fields.event.ok = false then
    -- Without an event it is an error of the venue, or the answer to a subscription.
    if fields.code.ok && fields.code.type == .number && fields.msg.ok then
      { message with kind := .venueError, badToken := Json.stringBody fields.msg }
    else { message with kind := .ignored }
  else if Json.stringEquals fields.event (bytes "depthUpdate") = false then
    { message with kind := .ignored }
  else
    let symbol := Json.stringBody fields.symbol
    if !symbol.isEmpty && !equalsIgnoreCase symbol decoder.spec.symbol then
      { message with kind := .ignored, symbol := [] }
    else decodeDepth decoder { message with symbol := symbol, kind := .update } fields

def decodeInto (decoder : BinanceDepthDecoder) (message : DecodedMessage) (frame : Bytes) :
    DecodedMessage :=
  let walked := Json.forEachMember frame FrameFields.member .blank
  let wrapped := walked.1.wrapped
  if walked.2 = false then
    if Json.wellFormed frame then { message with kind := .ignored } else fail message .malformed
  -- A combined stream wraps the payload, and its own members then count for nothing.
  else if wrapped.ok && wrapped.type == .object then
    let inner := Json.forEachMember wrapped.raw PayloadFields.member .blank
    if inner.2 = false then fail message .malformed else decodePayload decoder message inner.1
  else decodePayload decoder message walked.1.top

def decodeSnapshotInto (decoder : BinanceDepthDecoder) (last : DecodedMessage) (body : Bytes) :
    DecodedMessage :=
  let message := { last with kind := .snapshot }
  let walked := Json.forEachMember body SnapshotFields.member .blank
  let fields := walked.1
  if walked.2 = false then
    -- JSON that is no object has no id to anchor the stream on.
    fail message (if Json.wellFormed body then .badSequence else .malformed)
  else
    match Json.parseU64 (Json.numberToken fields.lastId) with
    | none => fail message .badSequence
    | some lastId =>
      decodeSides decoder.spec { message with ids := ⟨lastId, lastId, lastId⟩, hasIds := true }
        fields.bids fields.asks

/-- Decoding on an object that decoded `last` before. -/
def decodeAfter (decoder : BinanceDepthDecoder) (last : DecodedMessage) (frame : Bytes) :
    DecodedMessage :=
  decoder.decodeInto last.reset frame

def decodeSnapshotAfter (decoder : BinanceDepthDecoder) (last : DecodedMessage) (body : Bytes) :
    DecodedMessage :=
  decoder.decodeSnapshotInto last.reset body

def decode (decoder : BinanceDepthDecoder) (frame : Bytes) : DecodedMessage :=
  decoder.decodeInto .blank frame

end BinanceDepthDecoder

def BinanceDepthDecoder.toDecoder (decoder : BinanceDepthDecoder) : Decoder :=
  ⟨decoder.spec, decoder.decode⟩

end Crossbook
