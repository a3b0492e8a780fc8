import Crossbook.Venues.BinanceSbeLayout

set_option autoImplicit false

namespace Crossbook

namespace BinanceSbeDecoder

open Venues

section Levels

variable {spec : InstrumentSpec} {root : Root} {side : Side}

structure Readable (spec : InstrumentSpec) (root : Root) (entry : Int64 × Int64) : Prop where
  price : 0 ≤ entry.1
  qty : 0 ≤ entry.2
  ticks : (rescale entry.1 root.priceExp spec.priceScale).isSome = true
  units : (rescale entry.2 root.qtyExp spec.qtyScale).isSome = true

instance (spec : InstrumentSpec) (root : Root) (entry : Int64 × Int64) :
    Decidable (Readable spec root entry) :=
  decidable_of_iff
    (0 ≤ entry.1 ∧ 0 ≤ entry.2 ∧ (rescale entry.1 root.priceExp spec.priceScale).isSome = true ∧
      (rescale entry.2 root.qtyExp spec.qtyScale).isSome = true)
    ⟨fun ⟨price, qty, ticks, units⟩ => ⟨price, qty, ticks, units⟩,
      fun ⟨price, qty, ticks, units⟩ => ⟨price, qty, ticks, units⟩⟩

structure Rescales (spec : InstrumentSpec) (root : Root) (side : Side) (entry : Int64 × Int64)
    (level : LevelUpdate) : Prop where
  side : level.side = side
  price : rescale entry.1 root.priceExp spec.priceScale = some level.price.ticks
  qty : rescale entry.2 root.qtyExp spec.qtyScale = some level.qty.units

theorem readLevel_readable (side : Side) {entry : Int64 × Int64} (readable : Readable spec root entry)
    (message : DecodedMessage) :
    ∃ level, Rescales spec root side entry level ∧
      readLevel spec root side message entry =
        ({ message with levels := message.levels ++ [level] }, true) := by
  obtain ⟨ticks, price⟩ := Option.isSome_iff_exists.mp readable.ticks
  obtain ⟨units, qty⟩ := Option.isSome_iff_exists.mp readable.units
  have signs : ¬(entry.1 < 0 ∨ entry.2 < 0) :=
    not_or.mpr ⟨Int64.not_lt.mpr readable.price, Int64.not_lt.mpr readable.qty⟩
  refine ⟨⟨side, ⟨ticks⟩, ⟨units⟩⟩, ⟨rfl, price, qty⟩, ?_⟩
  rw [readLevel, if_neg signs, price, qty]

theorem readLevel_refused (side : Side) {entry : Int64 × Int64} (unreadable : ¬ Readable spec root entry)
    (message : DecodedMessage) :
    (readLevel spec root side message entry).2 = false ∧
      (readLevel spec root side message entry).1.ok = false := by
  unfold readLevel
  by_cases signs : entry.1 < 0 ∨ entry.2 < 0
  · rw [if_pos signs]
    exact ⟨rfl, rfl⟩
  · rw [if_neg signs]
    cases price : rescale entry.1 root.priceExp spec.priceScale with
    | none => exact ⟨rfl, rfl⟩
    | some ticks =>
      cases qty : rescale entry.2 root.qtyExp spec.qtyScale with
      | none => exact ⟨rfl, rfl⟩
      | some units =>
        rw [not_or, Int64.not_lt, Int64.not_lt] at signs
        exact absurd ⟨signs.1, signs.2, by rw [price]; rfl, by rw [qty]; rfl⟩ unreadable

theorem readLevels_readable (side : Side) {entries : List (Int64 × Int64)}
    (readable : ∀ entry ∈ entries, Readable spec root entry) (message : DecodedMessage) :
    ∃ levels, List.Forall₂ (Rescales spec root side) entries levels ∧
      readLevels spec root side message entries =
        ({ message with levels := message.levels ++ levels }, true) := by
  induction entries generalizing message with
  | nil => exact ⟨[], .nil, by simp [readLevels]⟩
  | cons entry entries ih =>
    obtain ⟨level, rescales, read⟩ :=
      readLevel_readable side (readable entry (by simp)) message
    obtain ⟨levels, rest, walked⟩ :=
      ih (fun other listed => readable other (by simp [listed]))
        { message with levels := message.levels ++ [level] }
    refine ⟨level :: levels, .cons rescales rest, ?_⟩
    simp only [readLevels, read, Bool.true_eq_false, if_false, walked, List.append_assoc,
      List.singleton_append]

theorem readLevels_refused (side : Side) {entries : List (Int64 × Int64)}
    (unreadable : ¬ ∀ entry ∈ entries, Readable spec root entry) (message : DecodedMessage) :
    (readLevels spec root side message entries).2 = false ∧
      (readLevels spec root side message entries).1.ok = false := by
  induction entries generalizing message with
  | nil => exact absurd (by simp) unreadable
  | cons entry entries ih =>
    simp only [readLevels]
    by_cases first : Readable spec root entry
    · obtain ⟨level, -, read⟩ := readLevel_readable side first message
      simp only [read, Bool.true_eq_false, if_false]
      refine ih (fun rest => unreadable ?_) _
      simpa [first] using rest
    · obtain ⟨stops, bad⟩ := readLevel_refused side first message
      simp only [stops, if_true]
      exact ⟨trivial, bad⟩

end Levels

section Depths

variable (spec : InstrumentSpec) (depth : Depth)

structure Depth.Clean : Prop where
  firstId : 0 ≤ depth.root.firstId
  lastId : 0 ≤ depth.root.lastId
  bids : ∀ entry ∈ depth.bids, Readable spec depth.root entry
  asks : ∀ entry ∈ depth.asks, Readable spec depth.root entry

-- The entries are tested one by one; a mantissa has too many values to go through.
instance : Decidable (depth.Clean spec) :=
  decidable_of_iff
    (0 ≤ depth.root.firstId ∧ 0 ≤ depth.root.lastId ∧
      (depth.bids.all fun entry => decide (Readable spec depth.root entry)) = true ∧
      (depth.asks.all fun entry => decide (Readable spec depth.root entry)) = true) <| by
    simp only [List.all_eq_true, decide_eq_true_eq]
    exact ⟨fun ⟨firstId, lastId, bids, asks⟩ => ⟨firstId, lastId, bids, asks⟩,
      fun ⟨firstId, lastId, bids, asks⟩ => ⟨firstId, lastId, bids, asks⟩⟩

/-- The event time in nanoseconds; one that is not positive or does not fit counts as absent. -/
def Root.eventNs (root : Root) : Int :=
  if 0 < root.eventUs.toInt ∧ root.eventUs.toInt * 1000 < 2 ^ 63 then root.eventUs.toInt * 1000 else 0

/-- The message that says what the depth says, no more and no less. -/
structure Depth.DeliveredBy (decoded : DecodedMessage) : Prop where
  kind : decoded.kind = if depth.diff then .update else .snapshot
  error : decoded.error = .ok
  symbol : decoded.symbol = depth.symbol
  ts : decoded.ts.toInt = depth.root.eventNs
  ids : decoded.ids = ⟨depth.root.firstId.toUInt64, depth.root.lastId.toUInt64, 0⟩
  hasIds : decoded.hasIds = true
  hasChecksum : decoded.hasChecksum = false
  levels : ∃ bids asks,
    List.Forall₂ (Rescales spec depth.root .bid) depth.bids bids ∧
      List.Forall₂ (Rescales spec depth.root .ask) depth.asks asks ∧ decoded.levels = bids ++ asks

end Depths

theorem stampEvent_blank (message : DecodedMessage) (root : Root) (unset : message.ts = 0) :
    (stampEvent message root.eventUs).ts.toInt = root.eventNs := by
  have bound : kMaxEventUs.toInt = 9223372036854775 := by decide
  unfold stampEvent Root.eventNs
  by_cases timed : 0 < root.eventUs ∧ root.eventUs ≤ kMaxEventUs
  · have positive := Int64.lt_iff_toInt_lt.mp timed.1
    have fits := Int64.le_iff_toInt_le.mp timed.2
    rw [Int64.toInt_zero] at positive
    rw [if_pos timed, if_pos ⟨positive, by omega⟩]
    dsimp only
    have thousand : (1000 : Int64).toInt = 1000 := by decide
    rw [MachineInt.toInt_mul_of_fits _ _ (by rw [thousand]; omega) (by rw [thousand]; omega),
      thousand]
  · rw [if_neg timed, if_neg, unset, Int64.toInt_zero]
    rintro ⟨positive, fits⟩
    refine timed ⟨Int64.lt_iff_toInt_lt.mpr positive, Int64.le_iff_toInt_le.mpr ?_⟩
    omega

theorem stampEvent_rest (message : DecodedMessage) (eventUs : Int64) :
    stampEvent message eventUs = { message with ts := (stampEvent message eventUs).ts } := by
  unfold stampEvent
  split <;> rfl

section Interpreting

variable (spec : InstrumentSpec) {depth : Depth}

theorem interpret_clean (clean : depth.Clean spec) (addressed : depth.addressed spec = true)
    (few : depth.bids.length + depth.asks.length ≤ kMaxLevelsPerMessage) :
    depth.DeliveredBy spec (interpret spec .blank depth) := by
  have ids : ¬(depth.root.firstId < 0 ∨ depth.root.lastId < 0) :=
    not_or.mpr ⟨Int64.not_lt.mpr clean.firstId, Int64.not_lt.mpr clean.lastId⟩
  obtain ⟨bids, bidsRescale, bidsRead⟩ := readLevels_readable .bid clean.bids
    (openMessage .blank depth.root depth.diff depth.symbol)
  obtain ⟨asks, asksRescale, asksRead⟩ := readLevels_readable .ask clean.asks
    { openMessage .blank depth.root depth.diff depth.symbol with
      levels := (openMessage .blank depth.root depth.diff depth.symbol).levels ++ bids }
  simp only [interpret]
  rw [if_neg ids, if_neg (by simp [addressed]), if_neg (by omega), bidsRead]
  simp only [Bool.true_eq_false, if_false]
  rw [asksRead]
  have stamped := stampEvent_blank
    { DecodedMessage.blank with
      symbol := depth.symbol, kind := if depth.diff then .update else .snapshot } depth.root rfl
  have kept := stampEvent_rest
    { DecodedMessage.blank with
      symbol := depth.symbol, kind := if depth.diff then .update else .snapshot } depth.root.eventUs
  dsimp only [openMessage] at kept stamped ⊢
  rw [kept]
  exact ⟨rfl, rfl, rfl, stamped, rfl, rfl, rfl, bids, asks, bidsRescale, asksRescale, rfl⟩

theorem interpret_unclean (unclean : ¬ depth.Clean spec) (addressed : depth.addressed spec = true)
    (few : depth.bids.length + depth.asks.length ≤ kMaxLevelsPerMessage) :
    (interpret spec .blank depth).ok = false := by
  simp only [interpret]
  by_cases ids : depth.root.firstId < 0 ∨ depth.root.lastId < 0
  · rw [if_pos ids]
    rfl
  · rw [if_neg ids, if_neg (by simp [addressed]), if_neg (by omega)]
    rw [not_or, Int64.not_lt, Int64.not_lt] at ids
    by_cases bids : ∀ entry ∈ depth.bids, Readable spec depth.root entry
    · obtain ⟨levels, -, bidsRead⟩ := readLevels_readable .bid bids
        (openMessage .blank depth.root depth.diff depth.symbol)
      rw [bidsRead]
      simp only [Bool.true_eq_false, if_false]
      exact (readLevels_refused .ask (fun asks => unclean ⟨ids.1, ids.2, bids, asks⟩) _).2
    · obtain ⟨stops, bad⟩ := readLevels_refused .bid bids
        (openMessage .blank depth.root depth.diff depth.symbol)
      rw [if_pos stops]
      exact bad

theorem interpret_elsewhere (depth : Depth) (firstId : 0 ≤ depth.root.firstId)
    (lastId : 0 ≤ depth.root.lastId) (elsewhere : depth.addressed spec = false) : interpret spec .blank depth = .blank := by
  simp only [interpret]
  rw [if_neg (not_or.mpr ⟨Int64.not_lt.mpr firstId, Int64.not_lt.mpr lastId⟩), if_pos elsewhere]
  rfl

end Interpreting

section Faithful

/-- A frame is decoded exactly when it is clean, says what it says whatever a newer schema put
behind its fields, and is put aside when it names another instrument. -/
theorem decode_faithful (decoder : BinanceSbeDecoder) (last : DecodedMessage) (frame : DepthFrame)
    (few : frame.bids.entries.length + frame.asks.entries.length ≤ kMaxLevelsPerMessage) :
    (frame.symbol = [] ∨ equalsIgnoreCase frame.symbol decoder.spec.symbol = true →
      ((decoder.decodeAfter last frame.bytes).ok = true ↔ frame.depth.Clean decoder.spec) ∧
        ((decoder.decodeAfter last frame.bytes).ok = true →
          frame.depth.DeliveredBy decoder.spec (decoder.decodeAfter last frame.bytes))) ∧
    (∀ other : DepthFrame, other.depth = frame.depth →
      decoder.decodeAfter last other.bytes = decoder.decodeAfter last frame.bytes) ∧
    (0 ≤ frame.root.firstId → 0 ≤ frame.root.lastId → frame.symbol ≠ [] →
      equalsIgnoreCase frame.symbol decoder.spec.symbol = false →
      (decoder.decodeAfter last frame.bytes).ok = true ∧
        (decoder.decodeAfter last frame.bytes).kind = .ignored ∧
        (decoder.decodeAfter last frame.bytes).levels = []) := by
  have few' : frame.depth.bids.length + frame.depth.asks.length ≤ kMaxLevelsPerMessage := by
    simpa [DepthFrame.depth] using few
  have decoded (other : DepthFrame) :
      decoder.decodeAfter last other.bytes = interpret decoder.spec .blank other.depth :=
    decodeInto_frame .blank other decoder
  simp only [decoded]
  refine ⟨fun named => ?_, fun other same => by rw [same], fun firstId lastId symbol elsewhere => ?_⟩
  · have addressed : frame.depth.addressed decoder.spec = true := by
      simpa [Depth.addressed, DepthFrame.depth, List.isEmpty_iff] using named
    by_cases clean : frame.depth.Clean decoder.spec
    · have delivered := interpret_clean decoder.spec clean addressed few'
      have ok : (interpret decoder.spec .blank frame.depth).ok = true := by
        rw [DecodedMessage.ok, delivered.error]
        rfl
      exact ⟨iff_of_true ok clean, fun _ => delivered⟩
    · have refused := interpret_unclean decoder.spec clean addressed few'
      rw [refused]
      exact ⟨iff_of_false (by decide) clean, fun ok => absurd ok (by decide)⟩
  · have other : frame.depth.addressed decoder.spec = false := by
      simp [Depth.addressed, DepthFrame.depth, symbol, elsewhere]
    rw [interpret_elsewhere decoder.spec frame.depth firstId lastId other]
    exact ⟨rfl, rfl, rfl⟩

def btcUsdt : BinanceSbeDecoder := ⟨⟨bytes "BTCUSDT", 2, 8⟩⟩

def unextended (entries : List (Int64 × Int64)) (fits : entries.length < 2 ^ 16) : Group where
  stride := 16
  entries := entries.map fun entry => ⟨entry.1, entry.2, []⟩
  strideFits := by decide
  extensions := by
    intro entry listed
    obtain ⟨mantissas, -, rfl⟩ := List.mem_map.mp listed
    rfl
  countFits := by simpa using fits

def extendedGroup : Group where
  stride := 18
  entries := [⟨9350000, 150000000, [7, 7]⟩, ⟨9349900, 0, [7, 7]⟩]
  strideFits := by decide
  extensions := by decide
  countFits := by decide

def extendedDiff (eventUs : Int64) : DepthFrame where
  diff := true
  version := 1
  root := ⟨eventUs, 1027024, 1027027, -2, -8⟩
  oneId := by simp
  extension := [1, 2, 3]
  blockFits := by decide
  bids := extendedGroup
  asks := unextended [(9350100, 25)] (by decide)
  symbol := bytes "btcusdt"
  symbolFits := by decide
  trailing := [255]

theorem decode_faithful_extended :
    (btcUsdt.decodeAfter .blank (extendedDiff 1700000000000000).bytes).ok = true ∧
      (extendedDiff 1700000000000000).depth.DeliveredBy btcUsdt.spec
        (btcUsdt.decodeAfter .blank (extendedDiff 1700000000000000).bytes) := by
  have few : (extendedDiff 1700000000000000).bids.entries.length +
      (extendedDiff 1700000000000000).asks.entries.length ≤ kMaxLevelsPerMessage := by decide
  have named : equalsIgnoreCase (extendedDiff 1700000000000000).symbol btcUsdt.spec.symbol = true := by
    decide +kernel
  have read := (decode_faithful btcUsdt .blank (extendedDiff 1700000000000000) few).1 (.inr named)
  have ok := read.1.mpr (by decide +kernel)
  exact ⟨ok, read.2 ok⟩

/-- An event before 1970 is delivered without its time. -/
theorem decode_drops_early_time :
    (extendedDiff (-1)).depth.Clean btcUsdt.spec ∧
      (btcUsdt.decode (extendedDiff (-1)).bytes).ok = true ∧
      (btcUsdt.decode (extendedDiff (-1)).bytes).ts.toInt ≠ (extendedDiff (-1)).root.eventUs.toInt * 1000 :=
  ⟨by decide +kernel, by decide +kernel, by decide +kernel⟩

end Faithful

end BinanceSbeDecoder

end Crossbook
