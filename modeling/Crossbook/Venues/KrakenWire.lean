import Crossbook.Venues.Kraken
import Crossbook.Venues.WireLevels

set_option autoImplicit false

namespace Crossbook

namespace KrakenBookDecoder

open Json (first members elements)
open Venues

def wireLevel (side : Side) (level : JsonValue) : WireLevel :=
  ⟨side, Json.numberToken (first "price" (members level.raw)),
    Json.numberToken (first "qty" (members level.raw))⟩

def sideLevels (side : Side) (array : JsonValue) : List WireLevel :=
  (elements array.raw).map (wireLevel side)

def entryLevels (entry : JsonValue) : List WireLevel :=
  sideLevels .bid (first "bids" (members entry.raw)) ++
    sideLevels .ask (first "asks" (members entry.raw))

def addressed (spec : InstrumentSpec) (entry : JsonValue) : Bool :=
  !foreign spec (first "symbol" (members entry.raw))

def dataEntries (frame : Bytes) : List JsonValue := elements (first "data" (members frame)).raw

def wireLevels (spec : InstrumentSpec) (frame : Bytes) : List WireLevel :=
  (((dataEntries frame).find? (addressed spec)).map entryLevels).getD []

section Levels

variable {spec : InstrumentSpec} {side : Side}

def Shaped (level : JsonValue) : Prop :=
  level.type = .object ∧ (Json.forEachMember level.raw LevelFields.member .blank).2 = true

theorem readsLevels (spec : InstrumentSpec) (side : Side) :
    ReadsLevels spec (decodeLevel spec side) (wireLevel side) Shaped := by
  have price : ∀ level : JsonValue, (Json.forEachMember level.raw LevelFields.member .blank).1.price =
      first "price" (members level.raw) := fun level =>
    walked_field "price" LevelFields.price (fun _ _ => rfl) (fun _ _ => rfl) rfl level.raw
  have qty : ∀ level : JsonValue, (Json.forEachMember level.raw LevelFields.member .blank).1.qty =
      first "qty" (members level.raw) := fun level =>
    walked_field "qty" LevelFields.qty (fun _ _ => rfl) (fun _ _ => rfl) rfl level.raw
  constructor
  · intro message level shaped spelled room
    have tokens : (Json.numberToken (first "price" (members level.raw))).isEmpty = false ∧
        (Json.numberToken (first "qty" (members level.raw))).isEmpty = false := spelled.tokens
    unfold decodeLevel
    simp only [price, qty]
    rw [if_neg (not_not.mpr shaped.1), if_neg (by omega), if_neg (by simp [shaped.2]),
      if_neg (by simp only [tokens, Bool.or_self, Bool.false_eq_true, not_false_eq_true])]
    rcases pushLevel_cases spec message (wireLevel side level) with ⟨misspelled, _⟩ |
      ⟨_, pushed⟩
    · exact absurd spelled misspelled
    · exact pushed
  · intro message level refused
    unfold decodeLevel
    simp only [price, qty]
    split
    · exact ⟨rfl, rfl⟩
    rename_i object
    split
    · exact ⟨rfl, rfl⟩
    rename_i room
    split
    · exact ⟨rfl, rfl⟩
    rename_i walked
    split
    · exact ⟨rfl, rfl⟩
    rcases pushLevel_cases spec message (wireLevel side level) with ⟨_, stopped⟩ |
      ⟨spelled, _⟩
    · exact stopped
    · exact absurd ⟨⟨not_not.mp object, by simpa using walked⟩, spelled, by omega⟩ refused

theorem decodeSide_spec (message : DecodedMessage) (array : JsonValue)
    (missing : array.ok = false → array = .absent)
    (room : message.levels.length ≤ kMaxLevelsPerMessage)
    (success : (decodeSide spec side message array).2 = true) :
    (decodeSide spec side message array).1 =
        { message with
          levels := message.levels ++ (sideLevels side array).map (WireLevel.read spec) } ∧
      (∀ level ∈ sideLevels side array, level.Spelled spec) ∧
      message.levels.length + (sideLevels side array).length ≤ kMaxLevelsPerMessage := by
  obtain ⟨levels, shaped, fits⟩ :=
    walkSide_success (readsLevels spec side) message array missing room success
  refine ⟨levels, ?_, by simpa [sideLevels] using fits⟩
  intro level member
  obtain ⟨value, inside, rfl⟩ := List.mem_map.mp member
  rcases shaped with none | ⟨_, readable⟩
  · have empty : elements array.raw = [] := by
      rw [missing none]
      rfl
    simp [empty] at inside
  · exact (readable value inside).2

end Levels

section Entries

variable {spec : InstrumentSpec}

theorem levels_decodeChecksum (message : DecodedMessage) (checksum : JsonValue) :
    (decodeChecksum message checksum).1.levels = message.levels := by
  unfold decodeChecksum
  dsimp only
  split
  · rfl
  · split
    · rfl
    · split <;> rfl

theorem levels_decodeTimestamp (message : DecodedMessage) (timestamp : JsonValue) :
    (decodeTimestamp message timestamp).1.levels = message.levels := by
  unfold decodeTimestamp
  dsimp only
  split <;> rfl

def entryFields (entry : JsonValue) : EntryFields :=
  (Json.forEachMember entry.raw EntryFields.member .blank).1

theorem entryFields_symbol (entry : JsonValue) :
    (entryFields entry).symbol = first "symbol" (members entry.raw) :=
  walked_field "symbol" EntryFields.symbol (fun _ _ => rfl) (fun _ _ => rfl) rfl entry.raw

theorem entryFields_bids (entry : JsonValue) :
    (entryFields entry).bids = first "bids" (members entry.raw) :=
  walked_field "bids" EntryFields.bids (fun _ _ => rfl) (fun _ _ => rfl) rfl entry.raw

theorem entryFields_asks (entry : JsonValue) :
    (entryFields entry).asks = first "asks" (members entry.raw) :=
  walked_field "asks" EntryFields.asks (fun _ _ => rfl) (fun _ _ => rfl) rfl entry.raw

theorem decodeEntry_spec (message : DecodedMessage) (entry : JsonValue)
    (room : message.levels.length ≤ kMaxLevelsPerMessage)
    (success : (decodeEntry spec message (entryFields entry)).2 = true) :
    (decodeEntry spec message (entryFields entry)).1.levels =
        message.levels ++ (entryLevels entry).map (WireLevel.read spec) ∧
      ∀ level ∈ entryLevels entry, level.Spelled spec := by
  unfold decodeEntry at success ⊢
  rw [entryFields_bids, entryFields_asks] at success ⊢
  dsimp only at success ⊢
  split at success
  · simp_all
  rename_i checked
  rw [if_neg checked]
  split at success
  · simp_all
  rename_i stamped
  rw [if_neg stamped]
  split at success
  · simp_all
  rename_i bids
  rw [if_neg bids]
  have kept := levels_decodeTimestamp (decodeChecksum
    { message with symbol := Json.stringBody (entryFields entry).symbol }
    (entryFields entry).checksum).1 (entryFields entry).timestamp
  rw [levels_decodeChecksum] at kept
  obtain ⟨bidLevels, bidsSpelled, bidsFit⟩ := decodeSide_spec _ _
    (Json.first_members "bids" entry.raw) (kept ▸ room) (by simpa using bids)
  obtain ⟨askLevels, asksSpelled, _⟩ := decodeSide_spec _ _
    (Json.first_members "asks" entry.raw) (by rw [bidLevels]; simpa using bidsFit) success
  refine ⟨?_, ?_⟩
  · rw [askLevels, bidLevels]
    simp [levels_decodeTimestamp, levels_decodeChecksum, entryLevels]
  · intro level member
    rcases List.mem_append.mp member with bid | ask
    · exact bidsSpelled level bid
    · exact asksSpelled level ask

theorem feed_dataEntry_matched (walk : DataWalk) (matched : walk.matched = true)
    (entries : List JsonValue) :
    (Json.feed (dataEntry spec) walk entries).1.message = walk.message ∧
      (Json.feed (dataEntry spec) walk entries).1.matched = true := by
  induction entries with
  | nil => exact ⟨rfl, matched⟩
  | cons entry rest ih =>
    rw [Json.feed]
    by_cases object : entry.type = .object
    · simpa [dataEntry, object, matched] using ih
    · simp [dataEntry, object, matched]

theorem feed_dataEntry (message : DecodedMessage) (entries : List JsonValue)
    (room : message.levels.length ≤ kMaxLevelsPerMessage)
    (success : (Json.feed (dataEntry spec) ⟨message, false, false⟩ entries).1.failed = false)
    (matched : (Json.feed (dataEntry spec) ⟨message, false, false⟩ entries).1.matched = true) :
    ∃ entry, entries.find? (addressed spec) = some entry ∧
      (Json.feed (dataEntry spec) ⟨message, false, false⟩ entries).1.message.levels =
        message.levels ++ (entryLevels entry).map (WireLevel.read spec) ∧
      ∀ level ∈ entryLevels entry, level.Spelled spec := by
  induction entries with
  | nil => simp [Json.feed] at matched
  | cons entry rest ih =>
    have symbol : (Json.forEachMember entry.raw EntryFields.member .blank).1.symbol =
      first "symbol" (members entry.raw) := entryFields_symbol entry
    by_cases object : entry.type = .object
    swap
    · simp [Json.feed, dataEntry, object] at success
    by_cases walked : (Json.forEachMember entry.raw EntryFields.member .blank).2 = false
    · simp [Json.feed, dataEntry, object, walked] at success
    by_cases other : foreign spec (first "symbol" (members entry.raw)) = true
    · have passed : dataEntry spec ⟨message, false, false⟩ entry = (⟨message, false, false⟩, true) := by
        simp [dataEntry, object, walked, symbol, other]
      rw [Json.feed, passed] at success matched ⊢
      obtain ⟨found, first, rest⟩ := ih success matched
      exact ⟨found, by simpa [addressed, other] using first, rest⟩
    · have ours : addressed spec entry = true := by simp [addressed, other]
      have decoded : dataEntry spec ⟨message, false, false⟩ entry =
          (⟨(decodeEntry spec message (entryFields entry)).1, true,
            !(decodeEntry spec message (entryFields entry)).2⟩,
            (decodeEntry spec message (entryFields entry)).2) := by
        simp [dataEntry, object, walked, symbol, other, entryFields]
      rw [Json.feed, decoded] at success ⊢
      cases complete : (decodeEntry spec message (entryFields entry)).2 with
      | false => simp [complete] at success
      | true =>
        obtain ⟨levels, spelled⟩ := decodeEntry_spec message entry room complete
        refine ⟨entry, by simp [ours], ?_, spelled⟩
        simp only [Bool.true_eq_false, if_false]
        rw [(feed_dataEntry_matched _ rfl rest).1]
        exact levels

end Entries

theorem decodeData_spec {spec : InstrumentSpec} (message : DecodedMessage) (data : JsonValue)
    (room : message.levels.length ≤ kMaxLevelsPerMessage)
    (loads : Loads (decodeData spec message data)) :
    ∃ entry, (elements data.raw).find? (addressed spec) = some entry ∧
      (decodeData spec message data).levels =
        message.levels ++ (entryLevels entry).map (WireLevel.read spec) ∧
      ∀ level ∈ entryLevels entry, level.Spelled spec := by
  obtain ⟨success, kind⟩ := loads
  unfold decodeData at success kind ⊢
  split at success
  · exact absurd success (by simp [fail, DecodedMessage.ok])
  rename_i present
  rw [if_neg present] at kind ⊢
  dsimp only at success kind ⊢
  split at success
  · rw [failDecoded_not_ok] at success
    contradiction
  rename_i complete
  rw [if_neg complete] at kind ⊢
  split at kind
  · simp at kind
  rename_i matched
  rw [if_neg matched]
  simp only [Json.forEach_state] at complete matched ⊢
  simp only [Bool.or_eq_true, decide_eq_true_eq, not_or, Bool.not_eq_true] at complete
  exact feed_dataEntry message _ room complete.2 (by simpa using matched)

theorem frameFields_data (frame : Bytes) :
    (Json.forEachMember frame FrameFields.member .blank).1.data = first "data" (members frame) :=
  walked_field "data" FrameFields.data (fun _ _ => rfl) (fun _ _ => rfl) rfl frame

theorem decode_spec (decoder : KrakenBookDecoder) (frame : Bytes)
    (loads : Loads (decoder.decode frame)) :
    ∃ entry, (dataEntries frame).find? (addressed decoder.spec) = some entry ∧
      (decoder.decode frame).levels = (entryLevels entry).map (WireLevel.read decoder.spec) ∧
      ∀ level ∈ entryLevels entry, level.Spelled decoder.spec := by
  have quiet : ∀ message : DecodedMessage, message.kind = .ignored ∨ message.kind = .venueError →
      ¬ Loads message := by
    intro message other both
    rcases both.2 with kind | kind <;> simp [kind] at other
  -- In the order the decoder asks: every earlier answer is of a kind without levels.
  unfold decode decodeInto at loads ⊢
  dsimp only at loads ⊢
  split at loads
  · split at loads <;> exact absurd loads (quiet _ (.inl rfl))
  rename_i walked
  rw [if_neg walked]
  split at loads
  · exact absurd loads (quiet _ (.inr rfl))
  rename_i noError
  rw [if_neg noError]
  split at loads
  · exact absurd loads (quiet _ (.inr rfl))
  rename_i noFailure
  rw [if_neg noFailure]
  split at loads
  · exact absurd loads (quiet _ (.inl rfl))
  rename_i onChannel
  rw [if_neg onChannel]
  split at loads
  · exact absurd loads (quiet _ (.inl rfl))
  rename_i notStatus
  rw [if_neg notStatus]
  split at loads
  · exact absurd loads (quiet _ (.inl rfl))
  rename_i book
  rw [if_neg book]
  unfold decodeBook at loads ⊢
  rw [frameFields_data] at loads ⊢
  split at loads
  · rename_i snapshot
    rw [if_pos snapshot]
    exact decodeData_spec _ _ (Nat.zero_le _) loads
  rename_i notSnapshot
  rw [if_neg notSnapshot]
  split at loads
  · rename_i update
    rw [if_pos update]
    exact decodeData_spec _ _ (Nat.zero_le _) loads
  · exact absurd loads (quiet _ (.inl rfl))

/-- What an accepted frame delivers is what its first entry for this instrument spells. -/
theorem decode_delivers_first_addressed (decoder : KrakenBookDecoder) (frame : Bytes)
    (loads : Loads (decoder.decode frame)) :
    ∃ before entry after, dataEntries frame = before ++ entry :: after ∧
      (∀ other ∈ before, addressed decoder.spec other = false) ∧
      addressed decoder.spec entry = true ∧
      (decoder.decode frame).levels = (entryLevels entry).map (WireLevel.read decoder.spec) ∧
      ∀ level ∈ entryLevels entry, level.Spelled decoder.spec := by
  obtain ⟨entry, found, levels, spelled⟩ := decode_spec decoder frame loads
  obtain ⟨ours, before, after, whole, skipped⟩ := List.find?_eq_some_iff_append.mp found
  refine ⟨before, entry, after, whole, ?_, ours, levels, spelled⟩
  intro other member
  simpa using skipped other member

def levelText (price qty : String) : String :=
  "\x7b\"price\":" ++ price ++ ",\"qty\":" ++ qty ++ "\x7d"

def entryText (symbol bids asks : String) : String :=
  "\x7b\"symbol\":\"" ++ symbol ++ "\",\"timestamp\":\"2026-07-31T12:00:00.000000Z\",\"bids\":[" ++
    bids ++ "],\"asks\":[" ++ asks ++ "]\x7d"

def bookFrame (type data : String) : Bytes :=
  bytes ("\x7b\"channel\":\"book\",\"type\":\"" ++ type ++ "\",\"data\":[" ++ data ++ "]\x7d")

def btcUsd : KrakenBookDecoder := ⟨⟨bytes "BTC/USD", 1, 8⟩⟩

def mixedFrame : Bytes :=
  bookFrame "update" (entryText "ETH/USD" (levelText "3000.0" "7.00000000") "" ++ "," ++
    entryText "BTC/USD" (levelText "45283.5" "0.50000000") "")

theorem decode_delivers_first_addressed_mixed :
    ∃ entry ∈ dataEntries mixedFrame,
      (btcUsd.decode mixedFrame).levels = (entryLevels entry).map (WireLevel.read btcUsd.spec) := by
  have loads : Loads (btcUsd.decode mixedFrame) := by
    -- The pieces of a text are far cheaper to spell out than the whole.
    unfold mixedFrame bookFrame entryText levelText
    simp only [bytes_append, -String.reduceAppend]
    decide +kernel
  obtain ⟨before, entry, after, whole, _, _, levels, _⟩ :=
    decode_delivers_first_addressed btcUsd mixedFrame loads
  exact ⟨entry, by simp [whole], levels⟩

def repeatedFrame : Bytes :=
  bookFrame "update" (entryText "BTC/USD" (levelText "45283.5" "0.50000000") "" ++ "," ++
    entryText "BTC/USD" (levelText "45283.0" "0.25000000") "")

/-- A second entry for the instrument is walked over. -/
theorem decode_drops_second_addressed :
    Loads (btcUsd.decode repeatedFrame) ∧
      (btcUsd.decode repeatedFrame).levels ≠
        (((dataEntries repeatedFrame).filter (addressed btcUsd.spec)).flatMap entryLevels).map
          (WireLevel.read btcUsd.spec) := by
  unfold repeatedFrame bookFrame entryText levelText
  simp only [bytes_append, -String.reduceAppend]
  decide +kernel

end KrakenBookDecoder

end Crossbook
