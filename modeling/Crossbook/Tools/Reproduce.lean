import Crossbook.Tools.Live
import Crossbook.Venues.KrakenWire

set_option autoImplicit false

namespace Crossbook

namespace Tools

open CaptureWriter (printName headerLine recordBytes kIntMax writeAll)

section Written

variable {symbol : Bytes} (named : Capture.Plain symbol)
  (argument : 0 ∉ symbol ∧ symbol.length < 2 ^ 31)

include named argument in
theorem parse_live (startUnixNs : Int64)
    (short : (headerLine (bytes "kraken") symbol startUnixNs).length ≤ kIntMax)
    {frames : List CapturedFrame} (nonneg : ∀ frame ∈ frames, 0 ≤ frame.tsRecv) :
    Capture.parse (headerLine (bytes "kraken") symbol startUnixNs ++ frames.flatMap recordBytes) =
      .ok ⟨bytes "kraken", symbol,
        Capture.parseI64 (CaptureWriter.printI64 startUnixNs), frames⟩ := by
  have fits : (printName symbol).length ≤ kIntMax := by
    simp only [headerLine, List.length_append, List.length_cons] at short
    omega
  have whole : printName symbol = symbol := (CaptureWriter.printName_eq_iff fits).mpr argument
  have venue : printName (bytes "kraken") = bytes "kraken" := by decide +kernel
  have records := CaptureWriter.parseRecords_all (frames.map CaptureWriter.recordOf)
  rw [CaptureWriter.bytes_records nonneg, CaptureWriter.frames_records nonneg] at records
  rw [CaptureWriter.parse_headerLine (by decide +kernel) (by decide +kernel) named.noSpace
    named.noNewline, records, venue, whole, if_neg (not_or.mpr ⟨by decide +kernel, named.some_⟩)]
  rfl

end Written

variable {S : Type} [SideImpl S] [LawfulSideImpl S]

/-- The first frame that carries levels is the first snapshot of the book, and it carries as many
levels to a side as were asked for. -/
structure OpensWith (options : Options) (early : List CapturedFrame) (opening : CapturedFrame)
    (scales : Scales) : Prop where
  waits : ∀ frame ∈ early, isBookSnapshot frame.payload = false
  bare : ∀ frame ∈ early, inferScales frame.payload (bytes "price") (bytes "qty") false = none
  opens : isBookSnapshot opening.payload = true
  levels : inferScales opening.payload (bytes "price") (bytes "qty") false = some scales
  full : scales.depth = options.size

namespace OpensWith

variable {options : Options} {early : List CapturedFrame} {opening : CapturedFrame}
  {scales : Scales} (opens : OpensWith options early opening scales)

include opens

theorem closed : ∀ frame ∈ early.map CapturedFrame.payload, Live.opening options frame = none := by
  intro frame member
  obtain ⟨captured, inside, rfl⟩ := List.mem_map.mp member
  simp [Live.opening, opens.waits captured inside]

theorem opened : Live.opening options opening.payload = some (options.adopt scales) := by
  rw [Live.opening, if_pos opens.opens]
  split
  · rw [opens.levels]
    rfl
  · rename_i given
    simp only [Options.inferred, Bool.or_eq_true, decide_eq_true_eq, not_or] at given
    rw [Options.adopt, if_neg given.1, if_neg given.2]

theorem first (late : List CapturedFrame) :
    firstScales false (early ++ opening :: late) = some scales := by
  have nothing : early.findSome? (fun frame =>
      inferScales frame.payload (bytes "price") (bytes "qty") false) = none :=
    List.findSome?_eq_none_iff.mpr opens.bare
  rw [firstScales, List.findSome?_append, nothing, Option.none_or, List.findSome?_cons,
    opens.levels]

end OpensWith

theorem OpensWith.hears {options : Options} {early : List CapturedFrame} {opening : CapturedFrame}
    {scales : Scales} (opens : OpensWith options early opening scales) (writer : CaptureWriter)
    (late : List CapturedFrame) :
    (((early ++ opening :: late).map CapturedFrame.payload).foldl Live.hear
      (Live.subscribed options writer : Live S)).feed =
        some (Run.respond Feed.handle
          (krakenFeed (options.adopt scales).spec options.size : Feed S)
          ((opening :: late).map CapturedFrame.payload)).1 := by
  have waiting : (Live.subscribed options writer : Live S).feed = none := rfl
  have opened : Live.opening (Live.subscribed options writer : Live S).options opening.payload =
      some (options.adopt scales) := opens.opened
  have sits : (early.map CapturedFrame.payload).foldl Live.hear (Live.subscribed options writer) =
      (Live.subscribed options writer : Live S) := Live.foldl_hear_closed waiting opens.closed
  rw [List.map_append, List.foldl_append, List.map_cons, List.foldl_cons, sits,
    Live.foldl_hear_feeding (Live.hear_opening waiting opened)]
  rfl

theorem OpensWith.feeds {options again : Options} {early : List CapturedFrame}
    {opening : CapturedFrame} {scales : Scales} (opens : OpensWith options early opening scales)
    (alike : again.priceScale = options.priceScale ∧ again.qtyScale = options.qtyScale)
    (late : List CapturedFrame) (startUnixNs : Int64) :
    replayFeed again ⟨bytes "kraken", options.symbol, startUnixNs, early ++ opening :: late⟩ =
      some (krakenFeed (options.adopt scales).spec options.size : Feed S) := by
  have kraken : (bytes "binance").isPrefixOf (bytes "kraken") = false := by decide +kernel
  have adopted : ({ again with symbol := options.symbol }.adopt scales).spec =
      (options.adopt scales).spec := by
    simp only [Options.spec, Options.adopt, alike.1, alike.2]
  simp only [replayFeed, kraken, Bool.false_eq_true, if_false, opens.first late, Option.map_some,
    adopted, opens.full]

theorem OpensWith.replays {options again : Options} {early : List CapturedFrame}
    {opening : CapturedFrame} {scales : Scales} (opens : OpensWith options early opening scales)
    (alike : again.priceScale = options.priceScale ∧ again.qtyScale = options.qtyScale)
    {contents : Bytes} {late : List CapturedFrame} {startUnixNs : Int64}
    (parsed : Capture.parse contents =
      .ok ⟨bytes "kraken", options.symbol, startUnixNs, early ++ opening :: late⟩) :
    replayed again contents =
      some (Run.respond Feed.handle (krakenFeed (options.adopt scales).spec options.size : Feed S)
        ((early ++ opening :: late).map CapturedFrame.payload)).1 := by
  have someFrame : (early ++ opening :: late).isEmpty = false := by simp
  rw [replayed, parsed]
  simp only [someFrame, Bool.false_eq_true, if_false, opens.feeds alike late startUnixNs,
    Option.map_some]

section Acknowledged

open KrakenBookDecoder (bookFrame entryText levelText)

def askOne : Options := ⟨bytes "BTC/USD", 1, -1, -1⟩

-- The acknowledgement says "snapshot" and carries no levels at all.
def acknowledgement : CapturedFrame where
  tsRecv := 5
  payload := bytes
    "\x7b\"method\":\"subscribe\",\"result\":\x7b\"channel\":\"book\",\"snapshot\":true\x7d\x7d"
  addressable := by decide +kernel

def firstSnapshot : CapturedFrame where
  tsRecv := 7
  payload := bookFrame "snapshot"
    (entryText "BTC/USD" (levelText "45283.5" "0.50000000") (levelText "45283.6" "0.25000000"))
  addressable := by
    unfold bookFrame entryText levelText
    simp only [bytes_append, -String.reduceAppend]
    decide +kernel

theorem firstSnapshot_opens : OpensWith askOne [acknowledgement] firstSnapshot ⟨1, 8, 1⟩ where
  waits := by decide +kernel
  bare := by decide +kernel
  opens := by
    unfold firstSnapshot bookFrame entryText levelText
    simp only [bytes_append, -String.reduceAppend]
    decide +kernel
  levels := by
    unfold firstSnapshot bookFrame entryText levelText
    simp only [bytes_append, -String.reduceAppend]
    decide +kernel
  full := by decide +kernel

def asked : Live MapSide :=
  Live.subscribed askOne (CaptureWriter.fresh.openFile (bytes "kraken") askOne.symbol 3).1

theorem asked_started : Live.start askOne (some 3) = some asked := by
  rw [Live.start, if_pos (by decide +kernel)]
  rfl

end Acknowledged

end Tools

end Crossbook
