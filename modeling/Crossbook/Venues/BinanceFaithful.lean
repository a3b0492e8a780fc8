import Crossbook.Fixed.Canonical
import Crossbook.Json.Spelled
import Crossbook.Venues.BinanceRouting

set_option autoImplicit false

namespace Crossbook

open Decimal Scientific Spans

section Mantissas

def SpellsMantissa (t : Bytes) (scale : Scale) (m : Int64) : Prop :=
  ∃ token, Json.TokenText t token ∧ dropPlus token = formatFixed m scale ∧
    ∃ n : Numeral, n.text = token ∧ n.exponent = none ∧
      (m.toInt : ℚ) = n.value * 10 ^ scale.toNat

theorem formatted_magnitude (m : Int64) (scale : Scale) :
    (formatted m scale).magnitude * 10 ^ scale.toNat = m.toInt.natAbs := by
  have places : (formatted m scale).places = scale.toNat := by
    rw [Numeral.places, formatted_fraction, length_formatFraction]
  have power : (formatted m scale).power = -(scale.toNat : Int) := by
    rw [Numeral.power, places]
    exact zero_sub _
  rw [Numeral.magnitude, formatted_significand, power, zpow_neg, zpow_natCast,
    inv_mul_cancel_right₀ (by positivity)]

theorem formatted_value (m : Int64) (scale : Scale) :
    (m.toInt : ℚ) = (formatted m scale).value * 10 ^ scale.toNat := by
  have magnitude := formatted_magnitude m scale
  by_cases below : m < 0
  · have negative : (formatted m scale).negative = true := by
      simp [Numeral.negative, formatted, below]
    have sign : m.toInt < 0 := Int64.lt_iff_toInt_lt.mp below
    rw [Numeral.value, if_pos negative, neg_mul, magnitude, Nat.cast_natAbs, abs_of_neg sign]
    push_cast
    ring
  · have positive : ¬ (formatted m scale).negative = true := by
      simp [Numeral.negative, formatted, below]
    have sign : 0 ≤ m.toInt := Int64.le_iff_toInt_le.mp (Int64.not_lt.mp below)
    rw [Numeral.value, if_neg positive, magnitude, Nat.cast_natAbs, abs_of_nonneg sign]

theorem canonical_numeral {token : Bytes} {scale : Scale}
    (parsed : (parseFixed token scale).ok = true)
    (canonical : dropPlus token = formatFixed (parseFixed token scale).mantissa scale) :
    ∃ n : Numeral, n.text = token ∧ n.exponent = none ∧
      ((parseFixed token scale).mantissa.toInt : ℚ) = n.value * 10 ^ scale.toNat := by
  generalize held : (parseFixed token scale).mantissa = m at canonical
  rcases dropPlus_cases token with same | ⟨rest, rfl⟩
  · rw [same] at canonical
    exact ⟨formatted m scale, by rw [formatted_text, canonical], rfl, formatted_value m scale⟩
  · rw [dropPlus, if_pos rfl] at canonical
    have valid : scale ≤ kMaxScale := by
      by_contra large
      rw [parseFixed, if_pos (UInt8.not_le.mp large)] at parsed
      contradiction
    -- A minus behind the plus would not have parsed.
    have above : ¬ m < 0 := by
      intro below
      obtain ⟨body, text⟩ := formatFixed_negative below scale
      rw [canonical, text, parseFixed_two_signs body valid] at parsed
      contradiction
    have unsigned : (formatted m scale).sign = none := if_neg above
    have positive : ¬ (formatted m scale).negative = true := by
      simp [Numeral.negative, unsigned]
    refine ⟨{ formatted m scale with sign := some .plus }, ?_, rfl, ?_⟩
    · have text := formatted_text m scale
      rw [Numeral.text, unsigned, ← canonical] at text
      rw [← text]
      rfl
    · have value := formatted_value m scale
      rw [Numeral.value, if_neg positive] at value
      exact value

theorem spelled_mantissa {value : JsonValue} (delivered : Json.Delivered value) {scale : Scale}
    (some_ : Json.numberToken value ≠ [])
    (parsed : (parseFixed (Json.numberToken value) scale).ok = true)
    (canonical : isCanonicalMantissa (Json.numberToken value) scale
      (parseFixed (Json.numberToken value) scale).mantissa = true) :
    SpellsMantissa value.raw scale (parseFixed (Json.numberToken value) scale).mantissa := by
  have written := ((isCanonicalMantissa_iff _ _ _).mp canonical).symm
  exact ⟨_, Json.numberToken_text delivered some_, written, canonical_numeral parsed written⟩

end Mantissas

namespace BinanceDepthDecoder

open Json (first members elements firstText valueOf spelledMember Delivered)
open Venues

/-- The members that describe the event: those of the first `data` member when it is an object,
and those of the frame otherwise. -/
def Payload (frame : Bytes) (fields : List (Bytes × Bytes)) : Prop :=
  ∃ envelope, Json.ObjectMembers frame envelope ∧
    ((∃ text, firstText "data" envelope = some text ∧ Json.Members text fields) ∨
      (∀ text, firstText "data" envelope = some text → ¬ Json.Spells .object text) ∧
        fields = envelope)

theorem payload_unique {frame : Bytes} {fields others : List (Bytes × Bytes)}
    (left : Payload frame fields) (right : Payload frame others) : fields = others := by
  obtain ⟨envelope, holds, source⟩ := left
  obtain ⟨envelope', holds', source'⟩ := right
  obtain rfl := Json.objectMembers_unique holds holds'
  rcases source with ⟨text, data, inner⟩ | ⟨plain, rfl⟩
  · rcases source' with ⟨text', data', inner'⟩ | ⟨plain, _⟩
    · rw [data, Option.some.injEq] at data'
      subst data'
      exact Json.members_unique inner inner'
    · exact absurd (.object inner) (plain text data)
  · rcases source' with ⟨text, data, inner⟩ | ⟨_, rfl⟩
    · exact absurd (.object inner) (plain text data)
    · rfl

section Levels

def SpellsLevel (spec : InstrumentSpec) (side : Side) (pair : Bytes) (level : LevelUpdate) : Prop :=
  level.side = side ∧ ∃ price qty rest, Json.Elements pair (price :: qty :: rest) ∧
    SpellsMantissa price spec.priceScale level.price.ticks ∧
    SpellsMantissa qty spec.qtyScale level.qty.units

inductive SpellsSide (spec : InstrumentSpec) (side : Side) :
    Option Bytes → List LevelUpdate → Prop
  | absent : SpellsSide spec side none []
  | levels {text : Bytes} {pairs : List Bytes} {levels : List LevelUpdate}
      (holds : Json.Elements text pairs)
      (each : List.Forall₂ (SpellsLevel spec side) pairs levels) :
      SpellsSide spec side (some text) levels

variable {spec : InstrumentSpec} {side : Side}

theorem spelled_level {pair : JsonValue} (delivered : Delivered pair) (shaped : Shaped pair)
    (spelled : (wireLevel side pair).Spelled spec) :
    SpellsLevel spec side pair.raw ((wireLevel side pair).read spec) := by
  have array : pair.type = .array := shaped
  have holds := delivered.elements array
  have tokens : (tokenAt pair 0).isEmpty = false ∧ (tokenAt pair 1).isEmpty = false :=
    spelled.tokens
  have each := Json.elements_delivered pair.raw
  unfold tokenAt at tokens
  match found : elements pair.raw with
  | [] =>
    rw [found] at tokens
    exact absurd tokens.1 (by decide)
  | [price] =>
    rw [found] at tokens
    exact absurd tokens.2 (by simp)
  | price :: qty :: rest =>
    rw [found] at tokens holds each
    have priceToken : (wireLevel side pair).price = Json.numberToken price := by
      simp [wireLevel, tokenAt, found]
    have qtyToken : (wireLevel side pair).qty = Json.numberToken qty := by
      simp [wireLevel, tokenAt, found]
    obtain ⟨priceParsed, qtyParsed, priceCanonical, qtyCanonical⟩ := spelled
    unfold WireLevel.read at priceCanonical qtyCanonical ⊢
    rw [priceToken] at priceParsed priceCanonical
    rw [qtyToken] at qtyParsed qtyCanonical
    rw [priceToken, qtyToken]
    refine ⟨rfl, price.raw, qty.raw, rest.map JsonValue.raw, holds, ?_, ?_⟩
    · exact spelled_mantissa (each price (by simp)) (by simpa using tokens.1) priceParsed
        priceCanonical
    · exact spelled_mantissa (each qty (by simp)) (by simpa using tokens.2) qtyParsed qtyCanonical

theorem spelled_levels {pairs : List JsonValue} (delivered : ∀ pair ∈ pairs, Delivered pair)
    (shaped : ∀ pair ∈ pairs, Shaped pair ∧ (wireLevel side pair).Spelled spec) :
    List.Forall₂ (SpellsLevel spec side) (pairs.map JsonValue.raw)
      ((pairs.map (wireLevel side)).map (WireLevel.read spec)) := by
  induction pairs with
  | nil => exact .nil
  | cons pair rest ih =>
    obtain ⟨here, later⟩ := List.forall_mem_cons.mp delivered
    obtain ⟨⟨array, spelled⟩, others⟩ := List.forall_mem_cons.mp shaped
    exact .cons (spelled_level here array spelled) (ih later others)

theorem spelled_side (key : String) (object : Bytes)
    (shaped : SideShaped spec (wireLevel side) Shaped (first key (members object))) :
    SpellsSide spec side (firstText key ((members object).map spelledMember))
      ((sideLevels side (first key (members object))).map (WireLevel.read spec)) := by
  rw [Json.first_members_eq] at shaped ⊢
  cases found : firstText key ((members object).map spelledMember) with
  | none => exact .absent
  | some text =>
    obtain ⟨ok, delivered⟩ := Json.valueOf_delivered found
    rw [found] at shaped
    rcases shaped with absent | ⟨array, levels⟩
    · rw [ok] at absent
      contradiction
    · exact .levels (delivered.elements array)
        (spelled_levels (Json.elements_delivered _) levels)

end Levels

section Updates

variable {decoder : BinanceDepthDecoder}

/-- What a payload's members say, and a decoded update repeats. -/
structure SpellsUpdate (decoder : BinanceDepthDecoder) (fields : List (Bytes × Bytes))
    (message : DecodedMessage) : Prop where
  event : ∃ text, firstText "e" fields = some text ∧
    Json.StringDecodes text (bytes "depthUpdate")
  firstId : ∃ text, firstText "U" fields = some text ∧ Json.SpellsU64 text message.ids.firstId
  finalId : ∃ text, firstText "u" fields = some text ∧ Json.SpellsU64 text message.ids.finalId
  prevId : decoder.market = .futures →
    ∃ text, firstText "pu" fields = some text ∧ Json.SpellsU64 text message.ids.prevId
  hasIds : message.hasIds = true
  levels : ∃ bids asks, SpellsSide decoder.spec .bid (firstText "b" fields) bids ∧
    SpellsSide decoder.spec .ask (firstText "a" fields) asks ∧ message.levels = bids ++ asks

def slotsFrom (fields : List (Bytes × Bytes)) : PayloadFields where
  event := valueOf (firstText "e" fields)
  code := valueOf (firstText "code" fields)
  msg := valueOf (firstText "msg" fields)
  symbol := valueOf (firstText "s" fields)
  eventMs := valueOf (firstText "E" fields)
  firstId := valueOf (firstText "U" fields)
  finalId := valueOf (firstText "u" fields)
  prevId := valueOf (firstText "pu" fields)
  bids := valueOf (firstText "b" fields)
  asks := valueOf (firstText "a" fields)

theorem slotsOf_eq (object : Bytes) :
    slotsOf object = slotsFrom ((members object).map spelledMember) := by
  unfold slotsOf slotsFrom
  simp only [Json.first_members_eq]

theorem walked_payload {frame : Bytes}
    (walked : (Json.forEachMember frame FrameFields.member .blank).2 = true) :
    Payload frame ((members (payload frame)).map spelledMember) := by
  have envelope := Json.forEachMember_members frame _ frame_goes _ walked
  refine ⟨_, envelope, ?_⟩
  have data := Json.first_members_eq "data" frame
  unfold payload
  dsimp only
  by_cases wrapped : (first "data" (members frame)).ok = true ∧
      (first "data" (members frame)).type = .object
  · rw [if_pos (by simpa using wrapped)]
    have delivered := Json.first_delivered "data" frame wrapped.1
    refine .inl ⟨_, ?_, delivered.members wrapped.2⟩
    rw [data] at wrapped ⊢
    exact Json.valueOf_ok wrapped.1
  · rw [if_neg (by simpa using wrapped)]
    refine .inr ⟨?_, rfl⟩
    intro text found spells
    rw [found] at data
    have object : (first "data" (members frame)).type = .object := by
      rw [data]
      exact spells.classified
    exact wrapped ⟨by simp [JsonValue.ok, object], object⟩

theorem decode_accepted {frame : Bytes} (accepted : AcceptedUpdate (decoder.decode frame)) :
    decoder.decode frame =
      decoder.decodeDepth
        { DecodedMessage.blank with
          symbol := Json.stringBody (slotsOf (payload frame)).symbol, kind := .update }
        (slotsOf (payload frame)) := by
  obtain ⟨object, update, matched⟩ := (decode_update_iff decoder frame).mp accepted
  have walked := (Json.forEachMember_iff frame FrameFields.member frame_goes .blank).mpr object
  have symbol : (slotsOf (payload frame)).symbol = symbolOf frame := rfl
  have ours : ¬ (!(Json.stringBody (slotsOf (payload frame)).symbol).isEmpty &&
      !equalsIgnoreCase (Json.stringBody (slotsOf (payload frame)).symbol)
        decoder.spec.symbol) = true := by
    rw [symbol]
    rcases matched with empty | same
    · simp [empty]
    · simp [same]
  rw [decode, decodeInto_eq, if_pos walked, decodePayload,
    if_neg (by simp [stringEquals_ok update.event]), if_neg (by simp [update.event])]
  exact if_neg ours

theorem spelled_id {key : String} {object : Bytes} {id : UInt64}
    (parsed : Json.parseU64 (Json.numberToken (first key (members object))) = some id) :
    ∃ text, firstText key ((members object).map spelledMember) = some text ∧
      Json.SpellsU64 text id := by
  obtain ⟨text, found, delivered, read⟩ := Json.first_spelled
    (fun value => Json.parseU64 (Json.numberToken value) = some id) nofun parsed
  exact ⟨text, found, Json.parseU64_spelled delivered read⟩

theorem spelled_event {key : String} {object expected : Bytes}
    (same : Json.stringEquals (first key (members object)) expected = true) :
    ∃ text, firstText key ((members object).map spelledMember) = some text ∧
      Json.StringDecodes text expected := by
  obtain ⟨text, found, delivered, equal⟩ := Json.first_spelled
    (fun value => Json.stringEquals value expected = true) nofun same
  exact ⟨text, found, Json.stringEquals_decodes delivered equal⟩

theorem decodeDepth_spelled {message : DecodedMessage} {object : Bytes} (ok : message.ok = true)
    (empty : message.levels = [])
    (event : Json.stringEquals (slotsOf object).event (bytes "depthUpdate") = true)
    (success : (decoder.decodeDepth message (slotsOf object)).ok = true) :
    SpellsUpdate decoder ((members object).map spelledMember)
      (decoder.decodeDepth message (slotsOf object)) := by
  obtain ⟨readable, shaped⟩ := (decodeDepth_iff decoder message object ok empty).mp success
  have stamped := stampEvent_keeps message (slotsOf object).eventMs
  have bidSlot : Slot (slotsOf object).bids := slot_first "b" object
  have askSlot : Slot (slotsOf object).asks := slot_first "a" object
  obtain ⟨firstId, firstRead⟩ := Option.isSome_iff_exists.mp readable.firstId
  obtain ⟨finalId, finalRead⟩ := Option.isSome_iff_exists.mp readable.finalId
  have bids := spelled_side "b" object shaped.bidsShaped
  have asks := spelled_side "a" object shaped.asksShaped
  have noLevels := stamped.2.2.trans empty
  unfold decodeDepth decodeIds
  rw [firstRead, finalRead]
  dsimp only
  cases market : decoder.market with
  | spot =>
    dsimp only
    rw [if_neg (by simp), decodeSides_shaped _ (by exact noLevels) bidSlot askSlot shaped]
    exact ⟨spelled_event event, spelled_id firstRead, spelled_id finalRead,
      fun futures => absurd (market.symm.trans futures) (by decide), rfl,
      _, _, bids, asks, List.map_append⟩
  | futures =>
    obtain ⟨prevId, prevRead⟩ := Option.isSome_iff_exists.mp (readable.prevId market)
    rw [prevRead]
    dsimp only
    rw [if_neg (by simp), decodeSides_shaped _ (by exact noLevels) bidSlot askSlot shaped]
    exact ⟨spelled_event event, spelled_id firstRead, spelled_id finalRead,
      fun _ => spelled_id prevRead, rfl, _, _, bids, asks, List.map_append⟩

/-- An accepted update says what its payload spells, and nothing around the payload matters. -/
theorem decode_update_faithful (decoder : BinanceDepthDecoder) (last : DecodedMessage)
    (frame : Bytes) (accepted : AcceptedUpdate (decoder.decodeAfter last frame)) :
    ∃ fields, Payload frame fields ∧
      SpellsUpdate decoder fields (decoder.decodeAfter last frame) ∧
      ∀ (earlier : DecodedMessage) (other : Bytes), Payload other fields →
        AcceptedUpdate (decoder.decodeAfter earlier other) →
        decoder.decodeAfter earlier other = decoder.decodeAfter last frame := by
  have walked (frame : Bytes) (accepted : AcceptedUpdate (decoder.decode frame)) :
      Payload frame ((members (payload frame)).map spelledMember) :=
    walked_payload ((Json.forEachMember_iff frame FrameFields.member frame_goes .blank).mpr
      ((decode_update_iff decoder frame).mp accepted).1)
  have update : AcceptedUpdate (decoder.decode frame) := accepted
  have depth := ((decode_update_iff decoder frame).mp update).2.1
  have decoded := decode_accepted update
  refine ⟨_, walked frame update, ?_, ?_⟩
  · change SpellsUpdate decoder _ (decoder.decode frame)
    have success := update.1
    rw [decoded] at success ⊢
    exact decodeDepth_spelled rfl rfl depth.event success
  · intro earlier other same accepted'
    have update' : AcceptedUpdate (decoder.decode other) := accepted'
    have fields := payload_unique (walked other update') same
    change decoder.decode other = decoder.decode frame
    rw [decode_accepted update', decoded, slotsOf_eq, slotsOf_eq, fields]

def wrappedUpdate : Bytes :=
  bytes ("\x7b\"U\":1,\"data\":\x7b\"e\":\"depthUpdate\",\"s\":\"BTCUSDT\",\"U\":98,\"u\":105," ++
    "\"b\":[[\"3000.00\",\"7.00000000\",[]]],\"a\":[]\x7d,\"u\":2\x7d")

theorem decode_update_faithful_wrapped :
    AcceptedUpdate (btcUsdt.decodeAfter .blank wrappedUpdate) ∧
      (btcUsdt.decodeAfter .blank wrappedUpdate).ids = ⟨98, 105, 0⟩ ∧
      ∃ fields, Payload wrappedUpdate fields ∧
        SpellsUpdate btcUsdt fields (btcUsdt.decodeAfter .blank wrappedUpdate) := by
  have accepted : AcceptedUpdate (btcUsdt.decodeAfter .blank wrappedUpdate) := by decide +kernel
  obtain ⟨fields, holds, spelled, _⟩ :=
    decode_update_faithful btcUsdt .blank wrappedUpdate accepted
  exact ⟨accepted, by decide +kernel, fields, holds, spelled⟩

end Updates

end BinanceDepthDecoder

end Crossbook
