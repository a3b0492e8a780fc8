import Crossbook.Json.StringValue
import Crossbook.Venues.BinanceWire

set_option autoImplicit false

namespace Crossbook

namespace BinanceDepthDecoder

open Json (first members elements)
open Venues

section Updates

variable {decoder : BinanceDepthDecoder}

structure IdsReadable (decoder : BinanceDepthDecoder) (fields : PayloadFields) : Prop where
  firstId : (Json.parseU64 (Json.numberToken fields.firstId)).isSome = true
  finalId : (Json.parseU64 (Json.numberToken fields.finalId)).isSome = true
  prevId : decoder.market = .futures →
    (Json.parseU64 (Json.numberToken fields.prevId)).isSome = true

structure DepthUpdate (decoder : BinanceDepthDecoder) (fields : PayloadFields) : Prop where
  event : Json.stringEquals fields.event (bytes "depthUpdate") = true
  ids : IdsReadable decoder fields
  sides : SidesShaped decoder.spec fields.bids fields.asks

theorem decodeIds_keeps (decoder : BinanceDepthDecoder) (message : DecodedMessage)
    (fields : PayloadFields) :
    (decodeIds decoder message fields).1.kind = message.kind ∧
      (decodeIds decoder message fields).1.error = message.error ∧
      (decodeIds decoder message fields).1.levels = message.levels := by
  unfold decodeIds
  split
  · dsimp only
    split
    · exact ⟨rfl, rfl, rfl⟩
    · split <;> exact ⟨rfl, rfl, rfl⟩
  · exact ⟨rfl, rfl, rfl⟩

theorem stampEvent_keeps (message : DecodedMessage) (eventMs : JsonValue) :
    (stampEvent message eventMs).kind = message.kind ∧
      (stampEvent message eventMs).error = message.error ∧
      (stampEvent message eventMs).levels = message.levels := by
  unfold stampEvent
  split
  · split <;> exact ⟨rfl, rfl, rfl⟩
  · exact ⟨rfl, rfl, rfl⟩

theorem decodeIds_iff (message : DecodedMessage) (fields : PayloadFields) :
    (decodeIds decoder message fields).2 = true ↔ IdsReadable decoder fields := by
  unfold decodeIds
  constructor
  · intro success
    split at success
    · rename_i firstId finalId firstRead finalRead
      refine ⟨by simp [firstRead], by simp [finalRead], ?_⟩
      intro futures
      rw [futures] at success
      dsimp only at success
      split at success
      · contradiction
      · rename_i prevId prevRead
        simp [prevRead]
    · contradiction
  · rintro ⟨firstId, finalId, prevId⟩
    obtain ⟨firstId, firstRead⟩ := Option.isSome_iff_exists.mp firstId
    obtain ⟨finalId, finalRead⟩ := Option.isSome_iff_exists.mp finalId
    rw [firstRead, finalRead]
    dsimp only
    split
    · rfl
    · rename_i futures
      obtain ⟨prevId, prevRead⟩ := Option.isSome_iff_exists.mp (prevId futures)
      rw [prevRead]

theorem decodeDepth_iff (decoder : BinanceDepthDecoder) (message : DecodedMessage)
    (object : Bytes) (ok : message.ok = true) (empty : message.levels = []) :
    (decodeDepth decoder message (slotsOf object)).ok = true ↔
      IdsReadable decoder (slotsOf object) ∧
        SidesShaped decoder.spec (slotsOf object).bids (slotsOf object).asks := by
  have stamped := stampEvent_keeps message (slotsOf object).eventMs
  have numbered := decodeIds_keeps decoder
    (stampEvent message (slotsOf object).eventMs) (slotsOf object)
  have bidSlot : Slot (slotsOf object).bids := slot_first "b" object
  have askSlot : Slot (slotsOf object).asks := slot_first "a" object
  have noLevels := numbered.2.2.trans (stamped.2.2.trans empty)
  unfold decodeDepth
  rw [← decodeIds_iff (stampEvent message (slotsOf object).eventMs) (slotsOf object)]
  dsimp only
  split
  · rename_i unreadable
    simp [unreadable, fail, DecodedMessage.ok]
  · rename_i readable
    constructor
    · intro success
      exact ⟨by simpa using readable,
        decodeSides_ok _ noLevels bidSlot askSlot success⟩
    · rintro ⟨_, shaped⟩
      rw [decodeSides_shaped _ noLevels bidSlot askSlot shaped]
      change (decodeIds decoder _ _).1.ok = true
      unfold DecodedMessage.ok at ok ⊢
      rw [numbered.2.1, stamped.2.1]
      exact ok

theorem decodeDepth_kind (message : DecodedMessage) (object : Bytes) (ok : message.ok = true)
    (empty : message.levels = [])
    (success : (decodeDepth decoder message (slotsOf object)).ok = true) :
    (decodeDepth decoder message (slotsOf object)).kind = message.kind := by
  obtain ⟨ids, shaped⟩ := (decodeDepth_iff decoder message object ok empty).mp success
  have stamped := stampEvent_keeps message (slotsOf object).eventMs
  have numbered := decodeIds_keeps decoder
    (stampEvent message (slotsOf object).eventMs) (slotsOf object)
  have bidSlot : Slot (slotsOf object).bids := slot_first "b" object
  have askSlot : Slot (slotsOf object).asks := slot_first "a" object
  have noLevels := numbered.2.2.trans (stamped.2.2.trans empty)
  have readable := (decodeIds_iff (stampEvent message (slotsOf object).eventMs) (slotsOf object)).mpr ids
  unfold decodeDepth
  dsimp only
  rw [if_neg (by simp [readable]), decodeSides_shaped _ noLevels bidSlot askSlot shaped]
  exact numbered.1.trans stamped.1

end Updates

section Routing

def Names (symbol : JsonValue) : Prop := symbol.type = .string ∧ (Json.readString symbol).2 ≠ []

/-- The text a symbol member stands for is the configured symbol, up to ASCII case. -/
def RoutedTo (spec : InstrumentSpec) (symbol : JsonValue) : Prop :=
  ∃ text, Json.decodedText (Json.readString symbol).2 = some text ∧
    equalsIgnoreCase text spec.symbol = true

def symbolOf (frame : Bytes) : JsonValue := first "s" (members (payload frame))

def AcceptedUpdate (message : DecodedMessage) : Prop := message.ok = true ∧ message.kind = .update

/-- A depth update whose symbol is spelled with an escape and is not ours. -/
structure Misrouted (decoder : BinanceDepthDecoder) (frame : Bytes) : Prop where
  object : Json.ObjectText (Json.kMaxDepth + 1) frame
  update : DepthUpdate decoder (slotsOf (payload frame))
  escaped : (Json.readString (symbolOf frame)).1 = .escaped
  foreign : ¬ RoutedTo decoder.spec (symbolOf frame)

theorem readString_escaped {value : JsonValue} (escaped : (Json.readString value).1 = .escaped) :
    Names value ∧ Json.stringBody value = [] := by
  have body : Json.stringBody value = [] := by
    unfold Json.stringBody
    split
    · rename_i plain
      rw [plain] at escaped
      contradiction
    · rfl
  refine ⟨?_, body⟩
  unfold Json.readString at escaped
  split at escaped
  · contradiction
  · rename_i proper
    simp only [not_or, ne_eq, not_not] at proper
    refine ⟨proper.1, ?_⟩
    intro empty
    unfold Json.readString at empty
    rw [if_neg (by simpa using proper)] at empty
    dsimp only at empty escaped
    rw [empty] at escaped
    contradiction

theorem readString_names {value : JsonValue} (names : Names value) :
    Json.readString value =
      (if value.raw.tail.dropLast.contains (ascii '\\') then .escaped else .plain,
        value.raw.tail.dropLast) := by
  have body := names.2
  unfold Json.readString at body ⊢
  split at body
  · contradiction
  · rename_i proper
    rw [if_neg proper]

theorem readString_plain {value : JsonValue} (names : Names value)
    (plain : (Json.readString value).1 ≠ .escaped) :
    Json.stringBody value = (Json.readString value).2 ∧
      Json.decodedText (Json.readString value).2 = some (Json.readString value).2 := by
  have read := readString_names names
  unfold Json.stringBody
  rw [read] at plain ⊢
  dsimp only at plain
  split at plain
  · contradiction
  · rename_i noEscape
    rw [if_neg noEscape]
    exact ⟨rfl, Json.decodedText_plain _ (by simpa using noEscape)⟩

theorem stringEquals_ok {value : JsonValue} {text : Bytes}
    (same : Json.stringEquals value text = true) : value.ok = true := by
  by_contra absent
  have type : value.type ≠ .string := by
    intro string
    simp [JsonValue.ok, string] at absent
  unfold Json.stringEquals Json.readString at same
  rw [if_pos (.inl type)] at same
  contradiction

theorem decodePayload_update (decoder : BinanceDepthDecoder) (object : Bytes) :
    AcceptedUpdate (decoder.decodePayload .blank (slotsOf object)) ↔
      DepthUpdate decoder (slotsOf object) ∧
        ((Json.stringBody (slotsOf object).symbol).isEmpty = true ∨
          equalsIgnoreCase (Json.stringBody (slotsOf object).symbol) decoder.spec.symbol = true) := by
  unfold decodePayload AcceptedUpdate
  split
  · rename_i noEvent
    constructor
    · rintro ⟨_, kind⟩
      split at kind <;> contradiction
    · rintro ⟨update, _⟩
      have event := stringEquals_ok update.event
      rw [noEvent] at event
      contradiction
  split
  · rename_i notDepth
    constructor
    · rintro ⟨_, kind⟩
      contradiction
    · rintro ⟨update, _⟩
      rw [update.event] at notDepth
      contradiction
  rename_i depth
  dsimp only
  split
  · rename_i foreign
    -- An event of another symbol is ignored before its levels are read.
    simp only [Bool.and_eq_true, Bool.not_eq_true'] at foreign
    constructor
    · rintro ⟨_, kind⟩
      contradiction
    · rintro ⟨_, empty | same⟩
      · rw [foreign.1] at empty
        contradiction
      · rw [foreign.2] at same
        contradiction
  · rename_i ours
    have decoded := decodeDepth_iff decoder
      { DecodedMessage.blank with
        symbol := Json.stringBody (slotsOf object).symbol, kind := .update } object rfl rfl
    constructor
    · rintro ⟨success, _⟩
      obtain ⟨ids, sides⟩ := decoded.mp success
      refine ⟨⟨by simpa using depth, ids, sides⟩, ?_⟩
      cases empty : (Json.stringBody (slotsOf object).symbol).isEmpty
      · exact .inr (by simpa [empty] using ours)
      · exact .inl rfl
    · rintro ⟨update, _⟩
      have success := decoded.mpr ⟨update.ids, update.sides⟩
      exact ⟨success, decodeDepth_kind _ object rfl rfl success⟩

theorem decode_update_iff (decoder : BinanceDepthDecoder) (frame : Bytes) :
    AcceptedUpdate (decoder.decode frame) ↔
      Json.ObjectText (Json.kMaxDepth + 1) frame ∧
        DepthUpdate decoder (slotsOf (payload frame)) ∧
        ((Json.stringBody (symbolOf frame)).isEmpty = true ∨
          equalsIgnoreCase (Json.stringBody (symbolOf frame)) decoder.spec.symbol = true) := by
  rw [decode, decodeInto_eq, ← Json.forEachMember_iff frame FrameFields.member frame_goes .blank]
  split
  · rename_i walked
    rw [decodePayload_update]
    simp only [walked, true_and]
    rfl
  · rename_i broken
    constructor
    · rintro ⟨success, kind⟩
      split at success
      · rename_i accepted
        rw [if_pos accepted] at kind
        contradiction
      · contradiction
    · exact fun both => absurd both.1 broken

/-- Routing goes wrong exactly on depth updates that spell a foreign symbol with an escape. -/
theorem routing_sound_iff (decoder : BinanceDepthDecoder) (frame : Bytes) :
    (AcceptedUpdate (decoder.decode frame) → Names (symbolOf frame) →
        RoutedTo decoder.spec (symbolOf frame)) ↔ ¬ Misrouted decoder frame := by
  rw [decode_update_iff]
  constructor
  · intro sound misrouted
    obtain ⟨names, noBody⟩ := readString_escaped misrouted.escaped
    exact misrouted.foreign
      (sound ⟨misrouted.object, misrouted.update, .inl (by rw [noBody]; rfl)⟩ names)
  · rintro routed ⟨object, update, matched⟩ names
    by_cases escaped : (Json.readString (symbolOf frame)).1 = .escaped
    · by_contra foreign
      exact routed ⟨object, update, escaped, foreign⟩
    · obtain ⟨body, decoded⟩ := readString_plain names escaped
      rw [body] at matched
      rcases matched with empty | same
      · exact absurd (List.isEmpty_iff.mp empty) names.2
      · exact ⟨_, decoded, same⟩

instance (symbol : JsonValue) : Decidable (Names symbol) :=
  inferInstanceAs (Decidable (_ ∧ _))

instance (message : DecodedMessage) : Decidable (AcceptedUpdate message) :=
  inferInstanceAs (Decidable (_ ∧ _))

instance (spec : InstrumentSpec) (symbol : JsonValue) : Decidable (RoutedTo spec symbol) :=
  decidable_of_iff ((Json.decodedText (Json.readString symbol).2).any
      (fun text => equalsIgnoreCase text spec.symbol) = true) (by
    rw [Option.any_eq_true]
    rfl)

def btcUsdt : BinanceDepthDecoder := ⟨⟨bytes "BTCUSDT", 2, 8⟩, .spot⟩

def escapedForeign : Bytes :=
  bytes ("\x7b\"e\":\"depthUpdate\",\"E\":1,\"s\":\"ETHU\\u0053DT\",\"U\":98,\"u\":105," ++
    "\"b\":[[\"3000.00\",\"7.00000000\"]],\"a\":[]\x7d")

theorem decode_misroutes_escaped :
    ¬ (AcceptedUpdate (btcUsdt.decode escapedForeign) → Names (symbolOf escapedForeign) →
        RoutedTo btcUsdt.spec (symbolOf escapedForeign)) := by
  decide +kernel

end Routing

end BinanceDepthDecoder

end Crossbook
