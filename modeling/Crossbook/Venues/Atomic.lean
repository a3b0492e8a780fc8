import Crossbook.Json.Truncation
import Crossbook.Venues.BinanceRouting
import Crossbook.Venues.KrakenWire

set_option autoImplicit false

namespace Crossbook

namespace Venues

def Clears (message : DecodedMessage) : Prop := message.ok = false → message.levels = []

/-- All of a frame or nothing of it, whatever was decoded before. -/
structure Atomic (decodeAfter : DecodedMessage → Bytes → DecodedMessage) (Complete : Bytes → Prop) :
    Prop where
  clears : ∀ last frame, Clears (decodeAfter last frame)
  truncated : ∀ last again frame part, Loads (decodeAfter last frame) → Complete frame →
    part <+: frame → part ≠ frame →
      (decodeAfter again part).ok = false ∧ (decodeAfter again part).levels = []

def EndsInBrace (frame : Bytes) : Prop := frame.getLast? = some (ascii '}')

theorem clears_ok {message : DecodedMessage} (ok : message.ok = true) : Clears message := by
  intro refused
  rw [ok] at refused
  contradiction

theorem clears_fail (message : DecodedMessage) (error : DecodeError) : Clears (fail message error) :=
  fun _ => rfl

theorem clears_failDecoded (message : DecodedMessage) : Clears (failDecoded message) := fun _ => rfl

section Levels

variable {spec : InstrumentSpec} {decodeLevel : Progress → JsonValue → Progress × Bool}
  {wire : JsonValue → WireLevel} {Shaped : JsonValue → Prop}

theorem feed_error (reads : ReadsLevels spec decodeLevel wire Shaped) (message : DecodedMessage)
    (levels : List JsonValue)
    (success : (Json.feed decodeLevel (message, false) levels).1.2 = false) :
    (Json.feed decodeLevel (message, false) levels).1.1.error = message.error := by
  induction levels generalizing message with
  | nil => rfl
  | cons level rest ih =>
    rw [Json.feed] at success ⊢
    by_cases pushed : Shaped level ∧ (wire level).Spelled spec ∧
        message.levels.length < kMaxLevelsPerMessage
    · rw [reads.pushed message level pushed.1 pushed.2.1 pushed.2.2] at success ⊢
      exact ih _ success
    · obtain ⟨failed, stopped⟩ := reads.stopped message level pushed
      rw [if_pos stopped] at success
      exact absurd (failed.symm.trans success) (by decide)

theorem walkSide_error (reads : ReadsLevels spec decodeLevel wire Shaped) {message : DecodedMessage}
    {array : JsonValue} (success : (walkSide decodeLevel message array).2 = true) :
    (walkSide decodeLevel message array).1.error = message.error := by
  unfold walkSide at success ⊢
  split
  · rfl
  rename_i present
  rw [if_neg present] at success
  split
  · rfl
  rename_i isArray
  rw [if_neg isArray] at success
  simp only [Bool.and_eq_true, Bool.not_eq_true', Json.forEach_state] at success ⊢
  exact feed_error reads message _ success.2

end Levels

end Venues

namespace KrakenBookDecoder

open Venues

variable {spec : InstrumentSpec}

theorem decodeChecksum_error {message : DecodedMessage} {checksum : JsonValue}
    (success : (decodeChecksum message checksum).2 = true) :
    (decodeChecksum message checksum).1.error = message.error := by
  unfold decodeChecksum at success ⊢
  dsimp only at success ⊢
  split
  · rfl
  rename_i present
  rw [if_neg present] at success
  split at success
  · contradiction
  · split at success
    · contradiction
    · rename_i fits
      rw [if_neg fits]

theorem decodeTimestamp_error {message : DecodedMessage} {timestamp : JsonValue}
    (success : (decodeTimestamp message timestamp).2 = true) :
    (decodeTimestamp message timestamp).1.error = message.error := by
  unfold decodeTimestamp at success ⊢
  dsimp only at success ⊢
  split at success
  · contradiction
  · rfl

theorem decodeEntry_error {message : DecodedMessage} {fields : EntryFields}
    (success : (decodeEntry spec message fields).2 = true) :
    (decodeEntry spec message fields).1.error = message.error := by
  unfold decodeEntry at success ⊢
  dsimp only at success ⊢
  split at success
  · simp_all
  rename_i checked
  rw [if_neg checked]
  split at success
  · simp_all
  rename_i stamped
  rw [if_neg stamped]
  split at success
  · simp_all
  rename_i bids
  rw [if_neg bids]
  calc
    _ = _ := walkSide_error (readsLevels spec .ask) success
    _ = _ := walkSide_error (readsLevels spec .bid) (Bool.of_not_eq_false bids)
    _ = _ := decodeTimestamp_error (Bool.of_not_eq_false stamped)
    _ = _ := decodeChecksum_error (Bool.of_not_eq_false checked)

theorem dataEntry_error (walk : DataWalk) (entry : JsonValue)
    (goes : (dataEntry spec walk entry).2 = true ∨ (dataEntry spec walk entry).1.failed = false) :
    (dataEntry spec walk entry).1.message.error = walk.message.error := by
  unfold dataEntry at goes ⊢
  split at goes
  · simp at goes
  rename_i object
  rw [if_neg object]
  split at goes
  · rename_i matched
    rw [if_pos matched]
  rename_i unmatched
  rw [if_neg unmatched]
  dsimp only at goes ⊢
  split at goes
  · simp at goes
  rename_i walked
  rw [if_neg walked]
  split at goes
  · rename_i other
    rw [if_pos other]
  rename_i ours
  rw [if_neg ours]
  dsimp only at goes ⊢
  exact decodeEntry_error (by simpa using goes)

theorem feed_dataEntry_error (entries : List JsonValue) (walk : DataWalk)
    (success : (Json.feed (dataEntry spec) walk entries).1.failed = false) :
    (Json.feed (dataEntry spec) walk entries).1.message.error = walk.message.error := by
  induction entries generalizing walk with
  | nil => rfl
  | cons entry rest ih =>
    rw [Json.feed] at success ⊢
    split at success
    · rename_i stopped
      rw [if_pos stopped]
      exact dataEntry_error walk entry (.inr success)
    · rename_i goes
      rw [if_neg goes]
      exact (ih _ success).trans (dataEntry_error walk entry (.inl (Bool.of_not_eq_false goes)))

theorem decodeData_clears (message : DecodedMessage) (ok : message.ok = true) (data : JsonValue) :
    Clears (decodeData spec message data) := by
  unfold decodeData
  split
  · exact clears_fail _ _
  dsimp only
  split
  · exact clears_failDecoded _
  rename_i complete
  simp only [Bool.or_eq_true, decide_eq_true_eq, not_or, Bool.not_eq_true, Json.forEach_state]
    at complete
  split
  · exact fun _ => rfl
  · refine clears_ok ?_
    rw [Json.forEach_state, DecodedMessage.ok, feed_dataEntry_error _ _ complete.2]
    exact ok

theorem decodeInto_clears (decoder : KrakenBookDecoder) {message : DecodedMessage}
    (ok : message.ok = true) (frame : Bytes) : Clears (decoder.decodeInto message frame) := by
  unfold decodeInto
  dsimp only
  split
  · split
    · exact clears_ok ok
    · exact clears_fail _ _
  · split
    · exact fun _ => rfl
    split
    · exact fun _ => rfl
    split
    · exact clears_ok ok
    split
    · exact clears_ok ok
    split
    · exact clears_ok ok
    unfold decodeBook
    split
    · exact decodeData_clears _ (by exact ok) _
    split
    · exact decodeData_clears _ (by exact ok) _
    · exact clears_ok ok

theorem decodeInto_object (decoder : KrakenBookDecoder) {message : DecodedMessage} {frame : Bytes}
    (loads : Loads (decoder.decodeInto message frame)) :
    Json.ObjectText (Json.kMaxDepth + 1) frame := by
  rw [← Json.forEachMember_iff frame FrameFields.member (fun _ _ => rfl) .blank]
  by_contra broken
  unfold decodeInto at loads
  rw [if_pos (by simpa using broken)] at loads
  split at loads
  · rcases loads.2 with kind | kind <;> contradiction
  · exact absurd loads.1 (by simp [fail, DecodedMessage.ok])

theorem decodeAfter_atomic (decoder : KrakenBookDecoder) :
    Atomic decoder.decodeAfter EndsInBrace where
  clears last frame := decodeInto_clears decoder rfl frame
  truncated last again frame part loads complete isPrefix proper := by
    have object := decodeInto_object decoder loads
    have broken := Json.object_truncated_wellFormed object complete isPrefix proper
    have unwalked := Json.object_truncated_walk object complete isPrefix proper FrameFields.member
      (fun _ _ => rfl) .blank
    unfold decodeAfter decodeInto
    rw [if_pos unwalked, if_neg (by simp [broken])]
    exact ⟨rfl, rfl⟩

end KrakenBookDecoder

namespace BinanceDepthDecoder

open Venues

theorem decodeSides_clears (spec : InstrumentSpec) (message : DecodedMessage)
    (ok : message.ok = true) (bids asks : JsonValue) :
    Clears (decodeSides spec message bids asks) := by
  unfold decodeSides decodeSide
  dsimp only
  split
  · exact clears_failDecoded _
  rename_i bidSide
  split
  · exact clears_failDecoded _
  rename_i askSide
  refine clears_ok ?_
  rw [DecodedMessage.ok, walkSide_error (readsLevels spec .ask) (Bool.of_not_eq_false askSide),
    walkSide_error (readsLevels spec .bid) (Bool.of_not_eq_false bidSide)]
  exact ok

theorem decodeDepth_clears (decoder : BinanceDepthDecoder) (message : DecodedMessage)
    (ok : message.ok = true) (fields : PayloadFields) :
    Clears (decodeDepth decoder message fields) := by
  unfold decodeDepth
  dsimp only
  split
  · exact clears_fail _ _
  · refine decodeSides_clears _ _ ?_ _ _
    rw [DecodedMessage.ok, (decodeIds_keeps _ _ _).2.1, (stampEvent_keeps _ _).2.1]
    exact ok

theorem decodePayload_clears (decoder : BinanceDepthDecoder) (message : DecodedMessage)
    (ok : message.ok = true) (fields : PayloadFields) :
    Clears (decoder.decodePayload message fields) := by
  unfold decodePayload
  split
  · split <;> exact clears_ok ok
  split
  · exact clears_ok ok
  dsimp only
  split
  · exact clears_ok ok
  · exact decodeDepth_clears _ _ (by exact ok) _

theorem decodeAfter_atomic (decoder : BinanceDepthDecoder) :
    Atomic decoder.decodeAfter EndsInBrace where
  clears last frame := by
    unfold decodeAfter
    rw [decodeInto_eq]
    split
    · exact decodePayload_clears _ _ rfl _
    split
    · exact clears_ok rfl
    · exact clears_fail _ _
  truncated last again frame part loads complete isPrefix proper := by
    have object : Json.ObjectText (Json.kMaxDepth + 1) frame := by
      rw [← Json.forEachMember_iff frame FrameFields.member frame_goes .blank]
      by_contra broken
      rw [decodeAfter, decodeInto_eq, if_neg broken] at loads
      split at loads
      · rcases loads.2 with kind | kind <;> contradiction
      · exact absurd loads.1 (by simp [fail, DecodedMessage.ok])
    have broken := Json.object_truncated_wellFormed object complete isPrefix proper
    have unwalked := Json.object_truncated_walk object complete isPrefix proper FrameFields.member
      frame_goes .blank
    rw [decodeAfter, decodeInto_eq, if_neg (by simp [unwalked]), if_neg (by simp [broken])]
    exact ⟨rfl, rfl⟩

theorem decodeSnapshotAfter_atomic (decoder : BinanceDepthDecoder) :
    Atomic decoder.decodeSnapshotAfter EndsInBrace where
  clears last body := by
    unfold decodeSnapshotAfter decodeSnapshotInto
    dsimp only
    split
    · exact clears_fail _ _
    split
    · exact clears_fail _ _
    · exact decodeSides_clears _ _ rfl _ _
  truncated last again body part loads complete isPrefix proper := by
    have object : Json.ObjectText (Json.kMaxDepth + 1) body := by
      rw [← Json.forEachMember_iff body SnapshotFields.member (fun _ _ => rfl) .blank]
      by_contra broken
      unfold decodeSnapshotAfter decodeSnapshotInto at loads
      rw [if_pos (by simpa using broken)] at loads
      split at loads <;> exact absurd loads.1 (by simp [fail, DecodedMessage.ok])
    have unwalked := Json.object_truncated_walk object complete isPrefix proper SnapshotFields.member
      (fun _ _ => rfl) .blank
    have broken := Json.object_truncated_wellFormed object complete isPrefix proper
    unfold decodeSnapshotAfter decodeSnapshotInto
    rw [if_pos unwalked, if_neg (by simp [broken])]
    exact ⟨rfl, rfl⟩

end BinanceDepthDecoder

end Crossbook
