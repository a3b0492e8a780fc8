import Crossbook.Capture.RoundTrip
import Crossbook.Feed.Lockstep
import Crossbook.Lib.Spans
import Crossbook.Tools.Verdict
import Crossbook.Venues.Binance
import Crossbook.Venues.Kinds
import Crossbook.Venues.Kraken
import Crossbook.Venues.Lookup

set_option autoImplicit false

namespace Crossbook

namespace Tools

/-- Decimal places in a numeric token, as the venue spelled it. -/
def decimalsIn (token : Bytes) : Int32 :=
  match Spans.splitFirst (ascii '.') token with
  | none => 0
  | some (_, fraction) => Int32.ofNat fraction.length

structure ScaleScan where
  priceMax : Int32
  qtyMax : Int32
  sideLevels : Nat
  maxSideLevels : Nat
  deriving DecidableEq, Repr

namespace ScaleScan

def start : ScaleScan := ⟨-1, -1, 0, 0⟩

def price (scan : ScaleScan) (value : JsonValue) : ScaleScan :=
  { scan with priceMax := max scan.priceMax (decimalsIn (Json.numberToken value)) }

def qty (scan : ScaleScan) (value : JsonValue) : ScaleScan :=
  { scan with qtyMax := max scan.qtyMax (decimalsIn (Json.numberToken value)) }

-- Binance: ["price","qty"].
def pairField (walk : Nat × ScaleScan) (field : JsonValue) : (Nat × ScaleScan) × Bool :=
  let scan :=
    if walk.1 = 0 then walk.2.price field
    else if walk.1 = 1 then walk.2.qty field
    else walk.2
  ((walk.1 + 1, scan), decide (walk.1 + 1 < 2))

def level (priceKey qtyKey : Bytes) (levelsAreArrays : Bool) (scan : ScaleScan)
    (level : JsonValue) : ScaleScan × Bool :=
  let counted := { scan with sideLevels := scan.sideLevels + 1 }
  if levelsAreArrays then ((Json.forEach level.raw pairField (0, counted)).1.2, true)
  else
    ((counted.price (Json.find level.raw priceKey)).qty (Json.find level.raw qtyKey), true)

def side (priceKey qtyKey : Bytes) (levelsAreArrays : Bool) (container : Bytes) (scan : ScaleScan)
    (key : Bytes) : ScaleScan :=
  let array := Json.find container key
  if array.ok && array.type == .array then
    let scanned := (Json.forEach array.raw (level priceKey qtyKey levelsAreArrays)
      { scan with sideLevels := 0 }).1
    { scanned with maxSideLevels := max scanned.maxSideLevels scanned.sideLevels }
  else scan

end ScaleScan

structure Scales where
  price : Int32
  qty : Int32
  depth : Nat
  deriving DecidableEq, Repr

/-- Where a frame's levels stand: Kraken wraps them in data[0], Binance puts them at the top. -/
def levelContainer (frame : Bytes) : Bytes :=
  let data := Json.find frame (bytes "data")
  if data.ok && data.type == .array then
    (Json.forEach data.raw (fun _ entry => (entry.raw, false)) frame).1
  else frame

def scannedSides (levelsAreArrays : Bool) : List Bytes :=
  if levelsAreArrays then [bytes "bids", bytes "asks", bytes "b", bytes "a"]
  else [bytes "bids", bytes "asks"]

/-- The scales of an instrument and the depth of its feed, read off a frame that carries levels. -/
def inferScales (frame priceKey qtyKey : Bytes) (levelsAreArrays : Bool) : Option Scales :=
  let scan := (scannedSides levelsAreArrays).foldl
    (ScaleScan.side priceKey qtyKey levelsAreArrays (levelContainer frame)) ScaleScan.start
  if scan.priceMax < 0 ∨ scan.qtyMax < 0 then none
  else some ⟨scan.priceMax, scan.qtyMax, scan.maxSideLevels⟩

def isBookSnapshot (frame : Bytes) : Bool :=
  Json.stringBody (Json.find frame (bytes "channel")) == bytes "book" &&
    Json.stringBody (Json.find frame (bytes "type")) == bytes "snapshot"

/-- What the command line says of a run. A scale below zero is to be inferred. -/
structure Options where
  symbol : Bytes
  depth : Int32
  priceScale : Int32
  qtyScale : Int32
  deriving DecidableEq, Repr

namespace Options

def inferred (options : Options) : Bool :=
  decide (options.priceScale < 0) || decide (options.qtyScale < 0)

def adopt (options : Options) (scales : Scales) : Options :=
  { options with
    priceScale := if options.priceScale < 0 then scales.price else options.priceScale
    qtyScale := if options.qtyScale < 0 then scales.qty else options.qtyScale }

def scaleOf (value : Int32) : Scale := value.toUInt32.toUInt8

def spec (options : Options) : InstrumentSpec where
  symbol := options.symbol
  priceScale := scaleOf options.priceScale
  qtyScale := scaleOf options.qtyScale

/-- The depth as a size: a negative one is huge. -/
def size (options : Options) : Nat := options.depth.toInt64.toUInt64.toNat

end Options

def printI32 (value : Int32) : Bytes := CaptureWriter.printI64 value.toInt64

def krakenSubscribe (symbol : Bytes) (depth : Int32) (subscribe : Bool) : Bytes :=
  bytes "\x7b\"method\":\"" ++ bytes (if subscribe then "subscribe" else "unsubscribe") ++
    bytes "\",\"params\":\x7b\"channel\":\"book\",\"symbol\":[\"" ++ symbol ++
    bytes "\"],\"depth\":" ++ printI32 depth ++ bytes "\x7d\x7d"

variable {S : Type} [SideImpl S] [LawfulSideImpl S]

def krakenFeed (spec : InstrumentSpec) (depth : Nat) : Feed S :=
  Feed.new (bytes "kraken") (KrakenBookDecoder.mk spec).toDecoder .strictIncrement depth

structure Live (S : Type) [SideImpl S] where
  options : Options
  writer : CaptureWriter
  feed : Option (Feed S)
  sent : List Bytes

namespace Live

def subscribed (options : Options) (writer : CaptureWriter) : Live S where
  options := options
  writer := writer
  feed := none
  sent := [krakenSubscribe options.symbol options.depth true]

def start (options : Options) (startUnixNs : Option Int64) : Option (Live S) :=
  match startUnixNs with
  | none => some (subscribed options .fresh)
  | some ns =>
    let opened := CaptureWriter.fresh.openFile (bytes "kraken") options.symbol ns
    if opened.2 then some (subscribed options opened.1) else none

def capture (live : Live S) (frame : CapturedFrame) : Option (Live S) :=
  if live.writer.isOpen then
    let wrote := live.writer.write frame
    if wrote.2 then some { live with writer := wrote.1 } else none
  else some live

def opening (options : Options) (frame : Bytes) : Option Options :=
  if isBookSnapshot frame then
    if options.inferred then
      (inferScales frame (bytes "price") (bytes "qty") false).map options.adopt
    else some options
  else none

def openFeed (live : Live S) (frame : Bytes) : Live S :=
  match live.feed with
  | some _ => live
  | none =>
    match opening live.options frame with
    | none => live
    | some options =>
      { live with options := options, feed := some (krakenFeed options.spec options.size) }

-- Kraken has no resnapshot request: the subscription is dropped and taken anew.
def feedFrame (live : Live S) (frame : Bytes) : Live S :=
  match live.feed with
  | none => live
  | some feed =>
    let fed := feed.handle frame
    let fedLive := { live with feed := some fed.1 }
    if fed.2 = .needsSnapshot then
      { fedLive with
        sent := live.sent ++ [krakenSubscribe live.options.symbol live.options.depth false,
          krakenSubscribe live.options.symbol live.options.depth true] }
    else fedLive

def hear (live : Live S) (frame : Bytes) : Live S := (live.openFeed frame).feedFrame frame

/-- What a run makes of one message: none if its capture cannot be written. -/
def message (live : Live S) (frame : CapturedFrame) : Option (Live S) :=
  (live.capture frame).map fun captured => captured.hear frame.payload

def messages : List CapturedFrame → Live S → Option (Live S)
  | [], live => some live
  | frame :: rest, live => (live.message frame).bind (messages rest)

def status (live : Live S) : Nat :=
  match live.feed with
  | none => 1
  | some feed => verdict feed

end Live

section Replay

def firstScales (levelsAreArrays : Bool) (frames : List CapturedFrame) : Option Scales :=
  frames.findSome? fun frame =>
    inferScales frame.payload (bytes "price") (bytes "qty") levelsAreArrays

def replayFeed (options : Options) (capture : Capture) : Option (Feed S) :=
  let binance := (bytes "binance").isPrefixOf capture.venue
  (firstScales binance capture.frames).map fun scales =>
    let adopted := { options with symbol := capture.symbol }.adopt scales
    if binance then
      let market :=
        if capture.venue = bytes "binance-futures" then BinanceMarket.futures else .spot
      let decoder : BinanceDepthDecoder := ⟨adopted.spec, market⟩
      Feed.new capture.venue decoder.toDecoder decoder.policy 0
    else krakenFeed adopted.spec scales.depth

/-- The feed a replay of a capture ends with, if it begins. -/
def replayed (options : Options) (contents : Bytes) : Option (Feed S) :=
  match Capture.parse contents with
  | .error _ => none
  | .ok capture =>
    if capture.frames.isEmpty then none
    else
      (replayFeed options capture).map fun feed =>
        (Run.respond Feed.handle feed (capture.frames.map CapturedFrame.payload)).1

def runReplay (options : Options) (contents : Bytes) : Nat :=
  match replayed (S := S) options contents with
  | none => 1
  | some feed => verdict feed

theorem runReplay_replayed {options : Options} {contents : Bytes} {feed : Feed S}
    (ended : replayed options contents = some feed) :
    runReplay (S := S) options contents = verdict feed := by
  rw [runReplay, ended]

end Replay

namespace Live

section Hearing

variable {live : Live S}

def withWriter (live : Live S) (writer : CaptureWriter) : Live S := { live with writer := writer }

theorem hear_withWriter (live : Live S) (writer : CaptureWriter) (frame : Bytes) :
    (live.withWriter writer).hear frame = (live.hear frame).withWriter writer := by
  -- Writing the capture and feeding the book do not meddle with one another.
  cases held : live.feed with
  | some feed =>
    simp only [hear, openFeed, feedFrame, withWriter, held]
    split <;> rfl
  | none =>
    cases opened : opening live.options frame with
    | none => simp only [hear, openFeed, feedFrame, withWriter, held, opened]
    | some options =>
      simp only [hear, openFeed, feedFrame, withWriter, held, opened]
      split <;> rfl

theorem foldl_hear_withWriter (live : Live S) (writer : CaptureWriter) (frames : List Bytes) :
    frames.foldl hear (live.withWriter writer) = (frames.foldl hear live).withWriter writer := by
  induction frames generalizing live with
  | nil => rfl
  | cons frame rest ih => rw [List.foldl_cons, List.foldl_cons, hear_withWriter, ih]

omit [LawfulSideImpl S] in
theorem capture_open {live : Live S} (isOpen : live.writer.isOpen = true) (frame : CapturedFrame) :
    live.capture frame = some (live.withWriter (live.writer.write frame).1) := by
  have wrote : (live.writer.write frame).2 = true := by simp [CaptureWriter.write, isOpen]
  rw [capture, if_pos isOpen]
  dsimp only
  rw [if_pos wrote]
  rfl

theorem messages_open (frames : List CapturedFrame) (live : Live S)
    (isOpen : live.writer.isOpen = true) :
    messages frames live =
      some (((frames.map CapturedFrame.payload).foldl hear live).withWriter
        (CaptureWriter.writeAll frames live.writer).1) := by
  induction frames generalizing live with
  | nil => rfl
  | cons frame rest ih =>
    have stillOpen : (live.writer.write frame).1.isOpen = true := by
      simp [CaptureWriter.write, isOpen]
    have wrote : CaptureWriter.writeAll (frame :: rest) live.writer =
        CaptureWriter.writeAll rest (live.writer.write frame).1 := by
      simp [CaptureWriter.writeAll, CaptureWriter.write, isOpen]
    have later := ih ((live.hear frame.payload).withWriter (live.writer.write frame).1) stillOpen
    rw [messages, message, capture_open isOpen, Option.map_some, Option.bind_some, hear_withWriter,
      later, foldl_hear_withWriter, List.map_cons, List.foldl_cons, wrote]
    rfl

theorem hear_closed (waiting : live.feed = none) {frame : Bytes}
    (closed : opening live.options frame = none) : live.hear frame = live := by
  simp only [hear, openFeed, feedFrame, waiting, closed]

theorem hear_opening (waiting : live.feed = none) {frame : Bytes} {options : Options}
    (opened : opening live.options frame = some options) :
    (live.hear frame).feed =
      some ((krakenFeed options.spec options.size : Feed S).handle frame).1 := by
  simp only [hear, openFeed, feedFrame, waiting, opened]
  split <;> rfl

theorem hear_feeding {feed : Feed S} (held : live.feed = some feed) (frame : Bytes) :
    (live.hear frame).feed = some (feed.handle frame).1 := by
  simp only [hear, openFeed, feedFrame, held]
  split <;> rfl

theorem foldl_hear_closed (waiting : live.feed = none) {frames : List Bytes}
    (closed : ∀ frame ∈ frames, opening live.options frame = none) :
    frames.foldl hear live = live := by
  induction frames with
  | nil => rfl
  | cons frame rest ih =>
    obtain ⟨here, later⟩ := List.forall_mem_cons.mp closed
    rw [List.foldl_cons, hear_closed waiting here]
    exact ih later

theorem foldl_hear_feeding {feed : Feed S} (held : live.feed = some feed) (frames : List Bytes) :
    (frames.foldl hear live).feed = some (Run.respond Feed.handle feed frames).1 := by
  induction frames generalizing live feed with
  | nil => exact held
  | cons frame rest ih => exact ih (hear_feeding held frame)

end Hearing

end Live

section Replayed

theorem fails_without_snapshot (venue : Bytes) (decoder : Decoder) (policy : SequencePolicy)
    (depth : Nat) (frames : List Bytes)
    (other : ∀ frame ∈ frames, Feed.NoSnapshot decoder frame) :
    verdict (Run.respond Feed.handle (Feed.new venue decoder policy depth : Feed S) frames).1 ≠ 0 := by
  obtain ⟨passes, -⟩ := Feed.verdict_clean (S := S) venue decoder policy depth frames
  obtain ⟨-, nothing, -⟩ :=
    (Feed.new venue decoder policy depth : Feed S).run_waiting rfl frames other
  rw [ne_eq, passes]
  exact fun both => both.2 nothing

theorem firstScales_some {levelsAreArrays : Bool} {frames : List CapturedFrame} {scales : Scales}
    (found : firstScales levelsAreArrays frames = some scales) : frames.isEmpty = false := by
  cases frames with
  | nil => simp [firstScales] at found
  | cons frame rest => rfl

/-- The verifier passes exactly the captures of a Kraken book that can be parsed, carry levels, and
replay without the book being lost and with a checksum compared, every one of which agrees. No
capture of a Binance stream passes. -/
theorem replay_passes_iff (options : Options) (contents : Bytes) :
    runReplay (S := S) options contents = 0 ↔
      ∃ capture scales, Capture.parse contents = .ok capture ∧
        ¬ bytes "binance" <+: capture.venue ∧ firstScales false capture.frames = some scales ∧
        let spec := ({ options with symbol := capture.symbol }.adopt scales).spec
        let start : Feed S := krakenFeed spec scales.depth
        let payloads := capture.frames.map CapturedFrame.payload
        let compared := start.compared (payloads.map FeedCall.handle)
        Uninterrupted (Run.respond Feed.handle start payloads).2 ∧ compared ≠ [] ∧
          ∀ c ∈ compared, c.matched = true := by
  unfold runReplay replayed
  cases parsed : Capture.parse contents with
  | error text => simp
  | ok capture =>
    simp only [Except.ok.injEq, exists_and_left, exists_eq_left', replayFeed]
    cases prefixed : (bytes "binance").isPrefixOf capture.venue with
    | true =>
      have binance := List.isPrefixOf_iff_prefix.mp prefixed
      simp only [binance, not_true, false_and, iff_false]
      cases found : firstScales true capture.frames with
      | none => cases capture.frames.isEmpty <;> simp
      | some scales =>
        simp only [firstScales_some found, Bool.false_eq_true, if_false, if_true, Option.map_some]
        exact fails_without_snapshot _ _ _ _ _
          fun frame _ _ => BinanceDepthDecoder.decode_noSnapshot _ frame
    | false =>
      have kraken : ¬ bytes "binance" <+: capture.venue := by
        rw [← List.isPrefixOf_iff_prefix, prefixed]
        decide
      simp only [kraken, not_false_eq_true, true_and]
      cases found : firstScales false capture.frames with
      | none => cases capture.frames.isEmpty <;> simp
      | some scales =>
        simp only [firstScales_some found, Bool.false_eq_true, if_false, Option.map_some,
          Option.some.injEq, exists_eq_left']
        exact verdict_passes_iff _ _ _ _ _

end Replayed

end Tools

end Crossbook
