import Crossbook.Venues.Binance
import Crossbook.Venues.WireLevels

set_option autoImplicit false

namespace Crossbook

namespace BinanceDepthDecoder

open Json (first members elements Delivered)
open Venues

def tokenAt (level : JsonValue) (index : Nat) : Bytes :=
  ((elements level.raw)[index]?.map Json.numberToken).getD []

def wireLevel (side : Side) (level : JsonValue) : WireLevel :=
  ⟨side, tokenAt level 0, tokenAt level 1⟩

def sideLevels (side : Side) (array : JsonValue) : List WireLevel :=
  (elements array.raw).map (wireLevel side)

def Shaped (level : JsonValue) : Prop := level.type = .array

section Levels

variable {spec : InstrumentSpec}

theorem pairWalk (level : JsonValue) :
    (Json.forEach level.raw pairField ⟨[], [], 0⟩).1.price = tokenAt level 0 ∧
      (Json.forEach level.raw pairField ⟨[], [], 0⟩).1.qty = tokenAt level 1 ∧
      ((tokenAt level 1).isEmpty = false →
        (Json.forEach level.raw pairField ⟨[], [], 0⟩).2 = true) := by
  -- The walk takes the first two tokens and stops at the second one.
  rw [Json.forEach_state]
  have stop := Json.forEach_stopped level.raw pairField ⟨[], [], 0⟩
  unfold tokenAt
  match found : elements level.raw with
  | [] => exact ⟨rfl, rfl, by simp⟩
  | [price] => exact ⟨rfl, rfl, by simp⟩
  | price :: qty :: rest =>
    rw [found] at stop
    exact ⟨rfl, rfl, fun _ => stop rfl⟩

theorem readsLevels (spec : InstrumentSpec) (side : Side) :
    ReadsLevels spec (decodeLevel spec side) (wireLevel side) Shaped := by
  constructor
  · intro message level shaped spelled room
    have tokens : (tokenAt level 0).isEmpty = false ∧ (tokenAt level 1).isEmpty = false :=
      spelled.tokens
    have array : level.type = .array := shaped
    obtain ⟨price, qty, walked⟩ := pairWalk level
    unfold decodeLevel
    simp only [price, qty, walked tokens.2]
    rw [if_neg (not_not.mpr array), if_neg (by omega), if_neg (by simp [tokens])]
    rcases pushLevel_cases spec message (wireLevel side level) with ⟨misspelled, _⟩ |
      ⟨_, pushed⟩
    · exact absurd spelled misspelled
    · exact pushed
  · intro message level refused
    obtain ⟨price, qty, _⟩ := pairWalk level
    unfold decodeLevel
    simp only [price, qty]
    split
    · exact ⟨rfl, rfl⟩
    rename_i array
    split
    · exact ⟨rfl, rfl⟩
    rename_i room
    split
    · exact ⟨rfl, rfl⟩
    rcases pushLevel_cases spec message (wireLevel side level) with ⟨_, stopped⟩ |
      ⟨spelled, _⟩
    · exact stopped
    · exact absurd ⟨not_not.mp array, spelled, by omega⟩ refused

structure SidesShaped (spec : InstrumentSpec) (bids asks : JsonValue) : Prop where
  bidsShaped : SideShaped spec (wireLevel .bid) Shaped bids
  asksShaped : SideShaped spec (wireLevel .ask) Shaped asks
  fits : (elements bids.raw).length + (elements asks.raw).length ≤ kMaxLevelsPerMessage

structure Slot (value : JsonValue) : Prop where
  missing : value.ok = false → value = .absent
  delivered : value.ok = true → Delivered value

theorem slot_first (key : String) (object : Bytes) : Slot (first key (members object)) :=
  ⟨Json.first_members key object, Json.first_delivered key object⟩

theorem decodeSides_shaped (message : DecodedMessage) (empty : message.levels = [])
    {bids asks : JsonValue} (bidSlot : Slot bids) (askSlot : Slot asks)
    (shaped : SidesShaped spec bids asks) :
    decodeSides spec message bids asks =
      { message with
        levels := (sideLevels .bid bids ++ sideLevels .ask asks).map (WireLevel.read spec) } := by
  have bidSide := walkSide_complete (readsLevels spec .bid) message bids bidSlot.missing
    bidSlot.delivered shaped.bidsShaped (by
      rw [empty, List.length_nil, Nat.zero_add]
      exact (Nat.le_add_right _ _).trans shaped.fits)
  have askSide := walkSide_complete (readsLevels spec .ask)
    { message with
      levels := message.levels ++
        ((elements bids.raw).map (wireLevel .bid)).map (WireLevel.read spec) }
    asks askSlot.missing askSlot.delivered shaped.asksShaped (by simpa [empty] using shaped.fits)
  unfold decodeSides decodeSide
  rw [bidSide]
  simp only [Bool.true_eq_false, if_false]
  rw [askSide]
  simp [empty, sideLevels]

theorem decodeSides_ok (message : DecodedMessage) (empty : message.levels = [])
    {bids asks : JsonValue} (bidSlot : Slot bids) (askSlot : Slot asks)
    (success : (decodeSides spec message bids asks).ok = true) : SidesShaped spec bids asks := by
  unfold decodeSides decodeSide at success
  dsimp only at success
  split at success
  · rw [failDecoded_not_ok] at success
    contradiction
  rename_i bidSide
  obtain ⟨bidLevels, bidShaped, bidFits⟩ := walkSide_success (readsLevels spec .bid) message bids
    bidSlot.missing (by simp [empty]) (by simpa using bidSide)
  split at success
  · rw [failDecoded_not_ok] at success
    contradiction
  rename_i askSide
  obtain ⟨_, askShaped, askFits⟩ := walkSide_success (readsLevels spec .ask)
    (walkSide (decodeLevel spec .bid) message bids).1 asks
    askSlot.missing (by rw [bidLevels]; simpa using bidFits) (by simpa using askSide)
  rw [bidLevels] at askFits
  exact ⟨bidShaped, askShaped, by simpa [empty] using askFits⟩

end Levels

section Payload

def payload (frame : Bytes) : Bytes :=
  let wrapped := first "data" (members frame)
  if wrapped.ok && wrapped.type == .object then wrapped.raw else frame

def slotsOf (object : Bytes) : PayloadFields where
  event := first "e" (members object)
  code := first "code" (members object)
  msg := first "msg" (members object)
  symbol := first "s" (members object)
  eventMs := first "E" (members object)
  firstId := first "U" (members object)
  finalId := first "u" (members object)
  prevId := first "pu" (members object)
  bids := first "b" (members object)
  asks := first "a" (members object)

theorem walked_slots {F : Type} (fn : F → Bytes × JsonValue → F × Bool) (blank : F)
    (slots : F → PayloadFields) (goes : ∀ fields member, (fn fields member).2 = true)
    (consumes : ∀ fields member, slots (fn fields member).1 = (slots fields).consume member)
    (start : slots blank = .blank) (object : Bytes) :
    slots (Json.forEachMember object fn blank).1 = slotsOf object := by
  have slot (key : String) (field : PayloadFields → JsonValue)
      (captures : ∀ fields member,
        field (PayloadFields.consume fields member) = captureAt key (field fields) member)
      (absent : field .blank = .absent) :
      field (slots (Json.forEachMember object fn blank).1) = first key (members object) :=
    walked_field key (fun fields => field (slots fields)) goes
      (fun fields member => by rw [consumes, captures]) (by rw [start, absent]) object
  have event := slot "e" PayloadFields.event (fun _ _ => rfl) rfl
  have code := slot "code" PayloadFields.code (fun _ _ => rfl) rfl
  have msg := slot "msg" PayloadFields.msg (fun _ _ => rfl) rfl
  have symbol := slot "s" PayloadFields.symbol (fun _ _ => rfl) rfl
  have eventMs := slot "E" PayloadFields.eventMs (fun _ _ => rfl) rfl
  have firstId := slot "U" PayloadFields.firstId (fun _ _ => rfl) rfl
  have finalId := slot "u" PayloadFields.finalId (fun _ _ => rfl) rfl
  have prevId := slot "pu" PayloadFields.prevId (fun _ _ => rfl) rfl
  have bids := slot "b" PayloadFields.bids (fun _ _ => rfl) rfl
  have asks := slot "a" PayloadFields.asks (fun _ _ => rfl) rfl
  unfold slotsOf
  rw [← event, ← code, ← msg, ← symbol, ← eventMs, ← firstId, ← finalId, ← prevId, ← bids, ← asks]

theorem consume_data (fields : PayloadFields) (member : Bytes × JsonValue)
    (data : member.1 = bytes "data") : fields.consume member = fields := by
  have other : ∀ key : String, bytes "data" ≠ bytes key →
      ∀ slot, captureAt key slot member = slot := by
    intro key differ slot
    rw [captureAt, if_neg (by rwa [data])]
  unfold PayloadFields.consume
  rw [other "e" (by decide), other "code" (by decide), other "msg" (by decide),
    other "s" (by decide), other "E" (by decide), other "U" (by decide), other "u" (by decide),
    other "pu" (by decide), other "b" (by decide), other "a" (by decide)]

theorem frame_goes (fields : FrameFields) (member : Bytes × JsonValue) :
    (FrameFields.member fields member).2 = true := by
  unfold FrameFields.member
  split <;> rfl

theorem frameFields_top (frame : Bytes) :
    (Json.forEachMember frame FrameFields.member .blank).1.top = slotsOf frame := by
  refine walked_slots FrameFields.member .blank FrameFields.top frame_goes ?_ rfl frame
  intro fields member
  unfold FrameFields.member
  split
  · rename_i data
    exact (consume_data fields.top member data).symm
  · rfl

theorem frameFields_wrapped (frame : Bytes) :
    (Json.forEachMember frame FrameFields.member .blank).1.wrapped =
      first "data" (members frame) := by
  refine walked_field "data" FrameFields.wrapped frame_goes ?_ rfl frame
  intro fields member
  unfold FrameFields.member captureAt
  split <;> rfl

theorem decodeInto_eq (decoder : BinanceDepthDecoder) (message : DecodedMessage) (frame : Bytes) :
    decoder.decodeInto message frame =
      if (Json.forEachMember frame FrameFields.member .blank).2 = true then
        decoder.decodePayload message (slotsOf (payload frame))
      else if Json.wellFormed frame then { message with kind := .ignored }
      else fail message .malformed := by
  unfold decodeInto payload
  dsimp only
  rw [frameFields_top, frameFields_wrapped]
  cases walked : (Json.forEachMember frame FrameFields.member .blank).2 with
  | false => simp
  | true =>
    simp only [Bool.true_eq_false, if_false, if_true]
    split
    · rename_i object
      simp only [Bool.and_eq_true, beq_iff_eq] at object
      have delivered := (slot_first "data" frame).delivered object.1
      have slots := walked_slots PayloadFields.member .blank id (fun _ _ => rfl)
        (fun _ _ => rfl) rfl (first "data" (members frame)).raw
      rw [delivered.forEachMember_walked object.2, ← slots]
      rfl
    · rfl

end Payload

end BinanceDepthDecoder

end Crossbook
