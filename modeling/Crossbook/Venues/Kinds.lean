import Crossbook.Json.StringEquals
import Crossbook.Venues.Binance
import Crossbook.Venues.Kraken
import Crossbook.Venues.Lookup

set_option autoImplicit false

namespace Crossbook

namespace Json

def Unescaped (c : UInt8) : Prop := c ∉ simpleEscapes.map Prod.snd

instance (c : UInt8) : Decidable (Unescaped c) := inferInstanceAs (Decidable (¬ _))

end Json

/-- What a message is, and whether it is numbered. -/
def DecodedMessage.marks (message : DecodedMessage) : MessageKind × Bool :=
  (message.kind, message.hasIds)

namespace Venues

theorem pushLevel_marks (spec : InstrumentSpec) (side : Side) (message : DecodedMessage)
    (priceToken qtyToken : Bytes) :
    (pushLevel spec side message priceToken qtyToken).1.1.marks = message.marks := by
  unfold pushLevel refuse failed
  dsimp only
  repeat' split
  all_goals rfl

theorem walkSide_marks {decodeLevel : Progress → JsonValue → Progress × Bool}
    (keeps : ∀ progress level, (decodeLevel progress level).1.1.marks = progress.1.marks)
    (message : DecodedMessage) (array : JsonValue) :
    (walkSide decodeLevel message array).1.marks = message.marks := by
  unfold walkSide
  split
  · rfl
  · split
    · rfl
    · dsimp only
      rw [Json.forEach_state]
      exact @Json.feed_invariant _ _ (fun progress : Progress => progress.1.marks = message.marks) _
        (fun progress level held => (keeps progress level).trans held) _ _ rfl

end Venues

namespace KrakenBookDecoder

open Venues

theorem decodeChecksum_marks (message : DecodedMessage) (checksum : JsonValue) :
    (decodeChecksum message checksum).1.marks = message.marks := by
  unfold decodeChecksum
  split
  · rfl
  · dsimp only
    split
    · rfl
    · split <;> rfl

theorem decodeTimestamp_marks (message : DecodedMessage) (timestamp : JsonValue) :
    (decodeTimestamp message timestamp).1.marks = message.marks := by
  unfold decodeTimestamp
  dsimp only
  split <;> rfl

theorem decodeLevel_marks (spec : InstrumentSpec) (side : Side) (progress : Progress)
    (level : JsonValue) : (decodeLevel spec side progress level).1.1.marks = progress.1.marks := by
  unfold decodeLevel
  dsimp only
  split
  · rfl
  · split
    · rfl
    · split
      · rfl
      · split
        · rfl
        · exact pushLevel_marks spec side progress.1 _ _

theorem decodeSide_marks (spec : InstrumentSpec) (side : Side) (message : DecodedMessage)
    (array : JsonValue) : (decodeSide spec side message array).1.marks = message.marks :=
  walkSide_marks (decodeLevel_marks spec side) message array

theorem decodeEntry_marks (spec : InstrumentSpec) (message : DecodedMessage) (fields : EntryFields) :
    (decodeEntry spec message fields).1.marks = message.marks := by
  have checked :=
    decodeChecksum_marks { message with symbol := Json.stringBody fields.symbol } fields.checksum
  unfold decodeEntry
  dsimp only
  split
  · exact checked
  · have stamped := (decodeTimestamp_marks _ fields.timestamp).trans checked
    split
    · exact stamped
    · have bids := (decodeSide_marks spec .bid _ fields.bids).trans stamped
      split
      · exact bids
      · exact (decodeSide_marks spec .ask _ fields.asks).trans bids

theorem dataEntry_marks (spec : InstrumentSpec) (walk : DataWalk) (entry : JsonValue) :
    (dataEntry spec walk entry).1.message.marks = walk.message.marks := by
  unfold dataEntry
  split
  · rfl
  · split
    · rfl
    · dsimp only
      split
      · rfl
      · split
        · rfl
        · exact decodeEntry_marks spec walk.message _

theorem decodeData_marks (spec : InstrumentSpec) (message : DecodedMessage) (data : JsonValue) :
    (decodeData spec message data).hasIds = message.hasIds ∧
      ((decodeData spec message data).kind = message.kind ∨
        (decodeData spec message data).kind = .ignored) := by
  unfold decodeData
  split
  · exact ⟨rfl, .inl rfl⟩
  · have walked : (Json.forEach data.raw (dataEntry spec) ⟨message, false, false⟩).1.message.marks =
        message.marks := by
      rw [Json.forEach_state]
      refine @Json.feed_invariant _ _ (fun walk : DataWalk => walk.message.marks = message.marks) _
        (fun walk entry held => ?_) _ _ rfl
      exact (dataEntry_marks spec walk entry).trans held
    obtain ⟨kind, numbered⟩ := Prod.mk.inj walked
    dsimp only
    split
    · exact ⟨numbered, .inl kind⟩
    · split
      · exact ⟨numbered, .inr rfl⟩
      · exact ⟨numbered, .inl kind⟩

theorem decodeBook_numberless (spec : InstrumentSpec) {message : DecodedMessage}
    (numberless : message.hasIds = false) (fields : FrameFields) :
    (decodeBook spec message fields).hasIds = false := by
  unfold decodeBook
  split
  · exact (decodeData_marks spec _ _).1.trans numberless
  · split
    · exact (decodeData_marks spec _ _).1.trans numberless
    · exact numberless

theorem decode_numberless (decoder : KrakenBookDecoder) (frame : Bytes) :
    (decoder.decode frame).hasIds = false := by
  unfold decode decodeInto
  dsimp only
  split
  · split <;> rfl
  split
  · rfl
  split
  · rfl
  split
  · rfl
  split
  · rfl
  split
  · rfl
  exact decodeBook_numberless decoder.spec rfl _

end KrakenBookDecoder

namespace BinanceDepthDecoder

open Venues

theorem decodeLevel_marks (spec : InstrumentSpec) (side : Side) (progress : Progress)
    (level : JsonValue) : (decodeLevel spec side progress level).1.1.marks = progress.1.marks := by
  unfold decodeLevel
  dsimp only
  split
  · rfl
  · split
    · rfl
    · split
      · rfl
      · exact pushLevel_marks spec side progress.1 _ _

theorem decodeSides_marks (spec : InstrumentSpec) (message : DecodedMessage)
    (bids asks : JsonValue) : (decodeSides spec message bids asks).marks = message.marks := by
  have bidSide := walkSide_marks (decodeLevel_marks spec .bid) message bids
  unfold decodeSides decodeSide
  dsimp only
  split
  · exact bidSide
  · have askSide := (walkSide_marks (decodeLevel_marks spec .ask)
      (walkSide (decodeLevel spec .bid) message bids).1 asks).trans bidSide
    split
    · exact askSide
    · exact askSide

theorem stampEvent_kind (message : DecodedMessage) (eventMs : JsonValue) :
    (stampEvent message eventMs).kind = message.kind := by
  unfold stampEvent
  split
  · split <;> rfl
  · rfl

theorem decodeIds_kind (decoder : BinanceDepthDecoder) (message : DecodedMessage)
    (fields : PayloadFields) : (decodeIds decoder message fields).1.kind = message.kind := by
  unfold decodeIds
  dsimp only
  split
  · split
    · rfl
    · split <;> rfl
  · rfl

theorem decodePayload_kind (decoder : BinanceDepthDecoder) (message : DecodedMessage)
    (fields : PayloadFields) :
    (decodePayload decoder message fields).kind ≠ .snapshot := by
  unfold decodePayload
  split
  · split <;> simp
  · split
    · simp
    · dsimp only
      split
      · simp
      · have numbered := (decodeIds_kind decoder _ fields).trans (stampEvent_kind
          { message with symbol := Json.stringBody fields.symbol, kind := .update } fields.eventMs)
        unfold decodeDepth
        dsimp only
        split
        · rw [fail, numbered]
          simp
        · have sides : ∀ numbered bids asks, (decodeSides decoder.spec numbered bids asks).kind =
              numbered.kind := fun _ _ _ => congrArg Prod.fst (decodeSides_marks decoder.spec _ _ _)
          rw [sides, numbered]
          simp

theorem decode_noSnapshot (decoder : BinanceDepthDecoder) (frame : Bytes) :
    (decoder.decode frame).kind ≠ .snapshot := by
  unfold decode decodeInto
  dsimp only
  split
  · split <;> simp [fail, DecodedMessage.blank]
  · split
    · split
      · simp [fail, DecodedMessage.blank]
      · exact decodePayload_kind decoder _ _
    · exact decodePayload_kind decoder _ _

end BinanceDepthDecoder

end Crossbook
