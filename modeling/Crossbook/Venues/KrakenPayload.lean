import Crossbook.Feed.Load
import Crossbook.Fixed.Digits
import Crossbook.Venues.KrakenWire

set_option autoImplicit false

namespace Crossbook

def dropZeros (text : Bytes) : Bytes := text.dropWhile fun c => c = ascii '0'

/-- The venue's checksum text of a token: no point, no leading zeros. -/
def stripToken (token : Bytes) : Bytes := dropZeros (token.filter fun c => c ≠ ascii '.')

section Digits

theorem digitByte_ne_point (magnitude : UInt64) : digitByte magnitude ≠ ascii '.' := by
  intro same
  have value := toNat_digitByte magnitude
  rw [same] at value
  change 46 = _ at value
  omega

theorem digitByte_eq_zero (magnitude : UInt64) :
    digitByte magnitude = ascii '0' ↔ magnitude.toNat % 10 = 0 := by
  rw [← UInt8.toNat_inj, toNat_digitByte]
  change 48 + _ = 48 ↔ _
  omega

theorem digitsLoop_no_point (magnitude : UInt64) : ∀ c ∈ digitsLoop magnitude, c ≠ ascii '.' := by
  fun_induction digitsLoop magnitude with
  | case1 magnitude ih =>
    intro c member
    rcases List.mem_cons.mp member with rfl | later
    · exact digitByte_ne_point magnitude
    · split at later
      · simp at later
      · rename_i more
        exact ih more c later

theorem digitsLoop_last (magnitude : UInt64) (positive : 0 < magnitude.toNat) :
    ∃ lead rest, (digitsLoop magnitude).reverse = lead :: rest ∧ lead ≠ ascii '0' := by
  fun_induction digitsLoop magnitude with
  | case1 magnitude ih =>
    by_cases last : magnitude / 10 = 0
    · refine ⟨digitByte magnitude, [], by rw [if_pos last]; rfl, ?_⟩
      rw [ne_eq, digitByte_eq_zero]
      have small : magnitude.toNat / 10 = 0 := by
        rw [← UInt64.toNat_inj, UInt64.toNat_div] at last
        exact last
      omega
    · have more : 0 < (magnitude / 10).toNat :=
        Nat.pos_of_ne_zero fun zero => last (UInt64.toNat_inj.mp zero)
      obtain ⟨lead, rest, whole, nonzero⟩ := ih last more
      exact ⟨lead, rest ++ [digitByte magnitude], by
        rw [if_neg last, List.reverse_cons, whole]; rfl, nonzero⟩

theorem formatFraction_no_point (places : Nat) (magnitude : UInt64) (text : Bytes)
    (plain : ∀ c ∈ text, c ≠ ascii '.') :
    ∀ c ∈ (formatFraction places magnitude text).2, c ≠ ascii '.' := by
  induction places generalizing magnitude text with
  | zero => exact plain
  | succ places ih =>
    refine ih (magnitude / 10) _ ?_
    intro c member
    rcases List.mem_cons.mp member with rfl | later
    · exact digitByte_ne_point magnitude
    · exact plain c later

theorem dropZeros_digits (magnitude : UInt64) (text : Bytes) (positive : 0 < magnitude.toNat) :
    dropZeros ((digitsLoop magnitude).reverse ++ text) = (digitsLoop magnitude).reverse ++ text := by
  obtain ⟨lead, rest, whole, nonzero⟩ := digitsLoop_last magnitude positive
  rw [whole, dropZeros, List.cons_append, List.dropWhile_cons_of_neg (by simpa using nonzero)]

theorem dropZeros_formatFraction (places : Nat) (magnitude : UInt64) (text : Bytes) :
    dropZeros ((digitsLoop (formatFraction places magnitude text).1).reverse ++
        (formatFraction places magnitude text).2) =
      dropZeros ((digitsLoop magnitude).reverse ++ text) := by
  -- Writing a number around a decimal place adds leading zeros at most.
  induction places generalizing magnitude text with
  | zero => rfl
  | succ places ih =>
    rw [formatFraction, ih, digitsLoop_eq magnitude]
    split
    · rename_i last
      have zero : (digitsLoop 0).reverse = [ascii '0'] := by decide +kernel
      rw [last, zero]
      rfl
    · rw [List.reverse_cons, List.append_assoc]
      rfl

theorem stripToken_formatFixed (mantissa : Int64) (scale : Scale) (positive : 0 < mantissa) :
    stripToken (formatFixed mantissa scale) = writeDigits mantissa := by
  have sign : ¬ mantissa < 0 := Int64.not_lt.mpr (Int64.le_of_lt positive)
  have magnitude : 0 < (magnitudeOf mantissa).toNat := by
    have value := MachineInt.toNat_toUInt64 mantissa
    have above : 0 < mantissa.toInt := Int64.lt_iff_toInt_lt.mp positive
    have below := mantissa.toInt_lt
    rw [magnitudeOf, if_neg sign]
    omega
  have plainWhole : ∀ m : UInt64, (digitsLoop m).reverse.filter (fun c => c ≠ ascii '.') =
      (digitsLoop m).reverse := by
    intro m
    rw [List.filter_eq_self]
    intro c member
    simpa using digitsLoop_no_point m c (List.mem_reverse.mp member)
  have plainFraction := formatFraction_no_point scale.toNat (magnitudeOf mantissa) [] (by simp)
  -- Without its point the text is the whole part with the fraction behind it.
  have pointed : stripToken (formatFixed mantissa scale) =
      dropZeros ((digitsLoop (formatFraction scale.toNat (magnitudeOf mantissa) []).1).reverse ++
        (formatFraction scale.toNat (magnitudeOf mantissa) []).2) := by
    have fraction : (formatFraction scale.toNat (magnitudeOf mantissa) []).2.filter
        (fun c => c ≠ ascii '.') = (formatFraction scale.toNat (magnitudeOf mantissa) []).2 := by
      rw [List.filter_eq_self]
      intro c member
      simpa using plainFraction c member
    unfold stripToken formatFixed
    simp only [if_neg sign]
    rw [List.filter_append, plainWhole]
    split
    · rw [List.filter_cons_of_neg (by simp), fraction]
    · rw [fraction]
  rw [pointed, dropZeros_formatFraction, dropZeros_digits _ _ magnitude, List.append_nil]
  rfl

theorem length_writeDigits (value : Int64) : (writeDigits value).length ≤ kMaxDigits := by
  rw [writeDigits, List.length_reverse]
  exact digitsLoop_length _ 19 (lt_of_lt_of_le (magnitudeOf value).toNat_lt (by decide))

end Digits

section Payload

variable {S : Type} [SideImpl S] [LawfulSideImpl S]

theorem length_writeLevel (level : Level) : (writeLevel level).length ≤ kMaxDigits * 2 := by
  have price := length_writeDigits level.price.ticks
  have qty := length_writeDigits level.qty.units
  rw [writeLevel, List.length_append]
  omega

theorem length_payloadSide (levels : List Level) :
    ((levels.take kKrakenChecksumDepth).flatMap writeLevel).length ≤
      kKrakenChecksumDepth * (kMaxDigits * 2) := by
  have each : ∀ list : List Level, (list.flatMap writeLevel).length ≤
      list.length * (kMaxDigits * 2) := by
    intro list
    induction list with
    | nil => simp
    | cons level rest ih =>
      have first := length_writeLevel level
      rw [List.flatMap_cons, List.length_append, List.length_cons, Nat.succ_mul]
      omega
  exact (each _).trans (Nat.mul_le_mul_right _ (List.length_take_le _ _))

theorem length_krakenChecksumPayload (book : BasicL2Book S) :
    (krakenChecksumPayload book).length ≤ kMaxChecksumPayload := by
  have asks := length_payloadSide (book.levels .ask)
  have bids := length_payloadSide (book.levels .bid)
  have both : kMaxChecksumPayload =
      kKrakenChecksumDepth * (kMaxDigits * 2) + kKrakenChecksumDepth * (kMaxDigits * 2) := rfl
  rw [krakenChecksumPayload_eq, List.length_append, both]
  exact Nat.add_le_add asks bids

end Payload

namespace KrakenBookDecoder

open Venues

/-- The levels spelled on the wire since the last snapshot, the latest first. -/
abbrev Tape := List WireLevel

def tapeStep (decoder : KrakenBookDecoder) (tape : Tape) (frame : Bytes) : Tape :=
  (wireLevels decoder.spec frame).reverse ++
    if (decoder.decode frame).kind = .snapshot then [] else tape

/-- A level the book takes: it refuses a negative quantity. -/
def Counts (spec : InstrumentSpec) (level : WireLevel) : Bool :=
  decide (0 ≤ (level.read spec).qty.units)

/-- The most recent spelling of the level at a price, among those that count. -/
def latest (spec : InstrumentSpec) (counts : WireLevel → Bool) (tape : Tape) (side : Side)
    (ticks : Int64) : Option WireLevel :=
  tape.find? fun level =>
    counts level && decide (level.side = side) && decide ((level.read spec).price.ticks = ticks)

def wireText (spec : InstrumentSpec) (counts : WireLevel → Bool) (tape : Tape) (side : Side)
    (level : Level) : Bytes :=
  match latest spec counts tape side level.price.ticks with
  | none => []
  | some wire => stripToken wire.price ++ stripToken wire.qty

/-- The text the venue hashes: the spellings of the ten best asks, then of the ten best bids. -/
def wirePayload {S : Type} [SideImpl S] [LawfulSideImpl S] (spec : InstrumentSpec)
    (counts : WireLevel → Bool) (tape : Tape) (book : BasicL2Book S) : Bytes :=
  ((book.levels .ask).take kKrakenChecksumDepth).flatMap (wireText spec counts tape .ask) ++
    ((book.levels .bid).take kKrakenChecksumDepth).flatMap (wireText spec counts tape .bid)

structure Plain (spec : InstrumentSpec) (level : WireLevel) : Prop where
  pricePlain : level.price.head? ≠ some (ascii '+')
  qtyPlain : level.qty.head? ≠ some (ascii '+')
  pricePositive : 0 < (level.read spec).price.ticks

structure AcceptedFrame (decoder : KrakenBookDecoder) (frame : Bytes) : Prop where
  loads : Loads (decoder.decode frame)
  plain : ∀ level ∈ wireLevels decoder.spec frame, Plain decoder.spec level

section Run

variable {S : Type} [SideImpl S] [LawfulSideImpl S]

def bookStep (decoder : KrakenBookDecoder) (book : BasicL2Book S) (frame : Bytes) : BasicL2Book S :=
  let message := decoder.decode frame
  (if message.kind = .snapshot then book.clear else book).load message.levels

structure Spells (spec : InstrumentSpec) (tape : Tape) (book : BasicL2Book S) : Prop where
  spelled : ∀ level ∈ tape, level.Spelled spec ∧ Plain spec level
  held : ∀ s ticks, book.qtyAt s ticks =
    (latest spec (Counts spec) tape s ticks).bind fun level =>
      BasicL2Book.stored (level.read spec).qty

theorem spells_push {spec : InstrumentSpec} {tape : Tape} {book : BasicL2Book S}
    (spells : Spells spec tape book) (level : WireLevel) (spelled : level.Spelled spec)
    (plain : Plain spec level) :
    Spells spec (level :: tape)
      (book.apply (level.read spec).side (level.read spec).price (level.read spec).qty).1 := by
  refine ⟨?_, ?_⟩
  · intro other member
    rcases List.mem_cons.mp member with rfl | later
    · exact ⟨spelled, plain⟩
    · exact spells.spelled other later
  · intro s ticks
    by_cases counts : Counts spec level = true
    · have representable : BasicL2Book.Representable (level.read spec).price (level.read spec).qty :=
        ⟨Int64.le_of_lt plain.pricePositive, by simpa [Counts] using counts⟩
      rw [BasicL2Book.qtyAt_apply _ _ _ _ _ _ representable, spells.held]
      -- The tape is searched from its newest spelling on.
      by_cases here : level.side = s ∧ (level.read spec).price.ticks = ticks
      · have sameSide : s = (level.read spec).side := here.1.symm
        rw [if_pos ⟨sameSide, here.2⟩, latest,
          List.find?_cons_of_pos (by simp [counts, here.1, here.2])]
        rfl
      · rw [if_neg (fun both => here ⟨both.1.symm, both.2⟩), latest, latest,
          List.find?_cons_of_neg (by simpa [counts] using here)]
    · -- A level the book refuses does not count on the tape either.
      have refused : ¬ BasicL2Book.Representable (level.read spec).price (level.read spec).qty :=
        fun representable => counts (decide_eq_true representable.2)
      rw [BasicL2Book.apply_refused _ _ _ _ refused, spells.held, latest, latest,
        List.find?_cons_of_neg (by simp [counts])]

theorem spells_load {spec : InstrumentSpec} {tape : Tape} {book : BasicL2Book S}
    (spells : Spells spec tape book) (levels : List WireLevel)
    (spelled : ∀ level ∈ levels, level.Spelled spec) (plain : ∀ level ∈ levels, Plain spec level) :
    Spells spec (levels.reverse ++ tape) (book.load (levels.map (WireLevel.read spec))) := by
  induction levels generalizing tape book with
  | nil => exact spells
  | cons level rest ih =>
    have next := spells_push spells level (spelled level (by simp)) (plain level (by simp))
    have later := ih next (fun other member => spelled other (List.mem_cons_of_mem level member))
      (fun other member => plain other (List.mem_cons_of_mem level member))
    rwa [List.reverse_cons, List.append_assoc]

theorem spells_clear {spec : InstrumentSpec} (book : BasicL2Book S) : Spells spec [] book.clear where
  spelled := by simp
  held s ticks := by simp [BasicL2Book.qtyAt_clear, latest]

theorem wireLevels_of_find {spec : InstrumentSpec} {frame : Bytes} {entry : JsonValue}
    (found : (dataEntries frame).find? (addressed spec) = some entry) :
    wireLevels spec frame = entryLevels entry := by
  rw [wireLevels, found]
  rfl

theorem spells_step {decoder : KrakenBookDecoder} {tape : Tape} {book : BasicL2Book S}
    (spells : Spells decoder.spec tape book) (frame : Bytes) (accepted : AcceptedFrame decoder frame) :
    Spells decoder.spec (tapeStep decoder tape frame) (bookStep decoder book frame) := by
  obtain ⟨entry, found, levels, spelled⟩ := decode_spec decoder frame accepted.loads
  have plain := accepted.plain
  rw [wireLevels_of_find found] at plain
  unfold tapeStep bookStep
  dsimp only
  rw [wireLevels_of_find found, levels]
  -- A snapshot starts the book and the tape over.
  split
  · exact spells_load (spells_clear book) _ spelled plain
  · exact spells_load spells _ spelled plain

theorem spells_run {decoder : KrakenBookDecoder} (frames : List Bytes)
    (accepted : ∀ frame ∈ frames, AcceptedFrame decoder frame) {tape : Tape} {book : BasicL2Book S}
    (spells : Spells decoder.spec tape book) :
    Spells decoder.spec (frames.foldl (tapeStep decoder) tape)
      (frames.foldl (bookStep decoder) book) := by
  induction frames generalizing tape book with
  | nil => exact spells
  | cons frame rest ih =>
    exact ih (fun other member => accepted other (List.mem_cons_of_mem frame member))
      (spells_step spells frame (accepted frame (by simp)))

theorem dropPlus_plain (token : Bytes) (plain : token.head? ≠ some (ascii '+')) :
    dropPlus token = token := by
  cases token with
  | nil => rfl
  | cons c rest =>
    rw [dropPlus, if_neg]
    rintro rfl
    exact plain rfl

theorem stripToken_canonical (token : Bytes) (scale : Scale) (mantissa : Int64)
    (plain : token.head? ≠ some (ascii '+')) (positive : 0 < mantissa)
    (canonical : isCanonicalMantissa token scale mantissa = true) :
    stripToken token = writeDigits mantissa := by
  rw [isCanonicalMantissa, dropPlus_plain token plain, beq_iff_eq] at canonical
  rw [← canonical]
  exact stripToken_formatFixed mantissa scale positive

theorem latest_of_level {spec : InstrumentSpec} {tape : Tape} {book : BasicL2Book S}
    (spells : Spells spec tape book) {s : Side} {level : Level} (member : level ∈ book.levels s) :
    ∃ wire, latest spec (Counts spec) tape s level.price.ticks = some wire ∧
      wire.read spec = ⟨s, level.price, level.qty⟩ ∧ 0 < level.qty.units ∧
      wire.Spelled spec ∧ Plain spec wire := by
  have quantity := (BasicL2Book.mem_levels book s level).mp member
  rw [spells.held, Option.bind_eq_some_iff] at quantity
  obtain ⟨wire, found, stored⟩ := quantity
  have matched := List.find?_some found
  simp only [Bool.and_eq_true, decide_eq_true_eq] at matched
  obtain ⟨⟨counts, side⟩, price⟩ := matched
  simp only [BasicL2Book.stored, Qty.isZero, Option.ite_none_left_eq_some, Option.some.injEq,
    beq_iff_eq] at stored
  obtain ⟨nonzero, units⟩ := stored
  have nonnegative : 0 ≤ (wire.read spec).qty.units := by simpa [Counts] using counts
  refine ⟨wire, found, ?_, ?_, spells.spelled wire (List.mem_of_find?_eq_some found)⟩
  · obtain ⟨⟨ticks⟩, ⟨amount⟩⟩ := level
    obtain ⟨wireSide, priceToken, qtyToken⟩ := wire
    simp only [WireLevel.read] at side price units ⊢
    rw [side, price, units]
  · rw [← units]
    exact lt_of_le_of_ne nonnegative (Ne.symm nonzero)

theorem wireText_of_level {spec : InstrumentSpec} {tape : Tape} {book : BasicL2Book S}
    (spells : Spells spec tape book) {s : Side} {level : Level} (member : level ∈ book.levels s) :
    wireText spec (Counts spec) tape s level = writeLevel level := by
  obtain ⟨wire, found, read, positive, spelled, plain⟩ := latest_of_level spells member
  have price : (wire.read spec).price = level.price := by rw [read]
  have qty : (wire.read spec).qty = level.qty := by rw [read]
  have pricePositive := plain.pricePositive
  have priceCanonical := spelled.priceCanonical
  have qtyCanonical := spelled.qtyCanonical
  rw [price] at pricePositive priceCanonical
  rw [qty] at qtyCanonical
  rw [wireText, found, writeLevel]
  dsimp only
  rw [stripToken_canonical _ _ _ plain.pricePlain pricePositive priceCanonical,
    stripToken_canonical _ _ _ plain.qtyPlain positive qtyCanonical]

theorem wirePayload_eq {spec : InstrumentSpec} {tape : Tape} {book : BasicL2Book S}
    (spells : Spells spec tape book) :
    krakenChecksumPayload book = wirePayload spec (Counts spec) tape book := by
  have side : ∀ s, ((book.levels s).take kKrakenChecksumDepth).flatMap
      (wireText spec (Counts spec) tape s) =
      ((book.levels s).take kKrakenChecksumDepth).flatMap writeLevel := by
    intro s
    apply List.flatMap_congr
    intro level member
    exact wireText_of_level spells (List.mem_of_mem_take member)
  rw [krakenChecksumPayload_eq, wirePayload, side, side]

/-- The integer book reproduces the text the venue hashed. -/
theorem payload_reproduces_wire (decoder : KrakenBookDecoder) (frames : List Bytes)
    (accepted : ∀ frame ∈ frames, AcceptedFrame decoder frame) :
    let book := frames.foldl (bookStep decoder) (BasicL2Book.new decoder.spec : BasicL2Book S)
    let tape := frames.foldl (tapeStep decoder) []
    krakenChecksumPayload book = wirePayload decoder.spec (Counts decoder.spec) tape book ∧
      (krakenChecksumPayload book).length ≤ kMaxChecksumPayload ∧
      ∀ s, ∀ level ∈ book.levels s, ∃ wire,
        latest decoder.spec (Counts decoder.spec) tape s level.price.ticks = some wire ∧
          wire.read decoder.spec = ⟨s, level.price, level.qty⟩ := by
  intro book tape
  have start : Spells decoder.spec [] (BasicL2Book.new decoder.spec : BasicL2Book S) :=
    ⟨by simp, by simp [BasicL2Book.qtyAt_new, latest]⟩
  have spells : Spells decoder.spec tape book := spells_run frames accepted start
  refine ⟨wirePayload_eq spells, length_krakenChecksumPayload book, ?_⟩
  intro s level member
  obtain ⟨wire, found, read, _⟩ := latest_of_level spells member
  exact ⟨wire, found, read⟩

end Run

instance (spec : InstrumentSpec) (level : WireLevel) : Decidable (Plain spec level) :=
  decidable_of_iff (level.price.head? ≠ some (ascii '+') ∧ level.qty.head? ≠ some (ascii '+') ∧
      0 < (level.read spec).price.ticks)
    ⟨fun ⟨price, qty, positive⟩ => ⟨price, qty, positive⟩,
      fun ⟨price, qty, positive⟩ => ⟨price, qty, positive⟩⟩

instance (decoder : KrakenBookDecoder) (frame : Bytes) : Decidable (AcceptedFrame decoder frame) :=
  decidable_of_iff (Loads (decoder.decode frame) ∧
      ∀ level ∈ wireLevels decoder.spec frame, Plain decoder.spec level)
    ⟨fun ⟨loads, plain⟩ => ⟨loads, plain⟩, fun ⟨loads, plain⟩ => ⟨loads, plain⟩⟩

def openingFrame : Bytes :=
  bookFrame "snapshot" (entryText "BTC/USD" (levelText "45283.5" "0.10000000")
    (levelText "45285.2" "0.00100000"))

theorem payload_reproduces_wire_opening :
    let book := [openingFrame].foldl (bookStep btcUsd) (BasicL2Book.new btcUsd.spec : MapBook)
    krakenChecksumPayload book =
      wirePayload btcUsd.spec (Counts btcUsd.spec) ([openingFrame].foldl (tapeStep btcUsd) []) book := by
  have accepted : ∀ frame ∈ [openingFrame], AcceptedFrame btcUsd frame := by
    unfold openingFrame bookFrame entryText levelText
    simp only [bytes_append, -String.reduceAppend]
    decide +kernel
  exact (payload_reproduces_wire btcUsd [openingFrame] accepted).1

def negativeUpdate : Bytes :=
  bookFrame "update" (entryText "BTC/USD" (levelText "45283.5" "-0.30000000") "")

/-- Counting a negative quantity, which the book refuses, breaks the agreement. -/
theorem payload_ignores_negative_quantity :
    (∀ frame ∈ [openingFrame, negativeUpdate], AcceptedFrame btcUsd frame) ∧
      let book := [openingFrame, negativeUpdate].foldl (bookStep btcUsd)
        (BasicL2Book.new btcUsd.spec : MapBook)
      let tape := [openingFrame, negativeUpdate].foldl (tapeStep btcUsd) []
      krakenChecksumPayload book ≠ wirePayload btcUsd.spec (fun _ => true) tape book := by
  unfold openingFrame negativeUpdate bookFrame entryText levelText
  simp only [bytes_append, -String.reduceAppend]
  decide +kernel

end KrakenBookDecoder

end Crossbook
