import Crossbook.Venues.Atomic
import Crossbook.Venues.BinanceSbe

set_option autoImplicit false

namespace Crossbook

namespace BinanceSbeDecoder

open Venues (Atomic Clears Loads EndsInBrace clears_ok)

section Clearing

variable (spec : InstrumentSpec) (frame : Bytes) (root : Root) (side : Side)

theorem clears_fail (message : DecodedMessage) (error : DecodeError) : Clears (fail message error) :=
  fun _ => rfl

structure Settles (message read : DecodedMessage) (goes : Bool) : Prop where
  error : goes = true → read.error = message.error
  levels : goes = false → read.levels = []

theorem decodeGroupEntry_settles (message : DecodedMessage) (cursor : Nat) :
    Settles message (decodeGroupEntry spec frame root side message cursor).1
      (decodeGroupEntry spec frame root side message cursor).2 := by
  unfold decodeGroupEntry
  dsimp only
  split
  · exact ⟨by simp, fun _ => rfl⟩
  split
  · exact ⟨fun _ => rfl, by simp⟩
  · exact ⟨by simp, fun _ => rfl⟩

theorem decodeEntries_settles (stride : UInt16) (count : Nat) (message : DecodedMessage)
    (cursor : Nat) :
    Settles message (decodeEntries spec frame root side stride count message cursor).1.1
      (decodeEntries spec frame root side stride count message cursor).2 := by
  induction count generalizing message cursor with
  | zero => exact ⟨fun _ => rfl, by simp [decodeEntries]⟩
  | succ count ih =>
    have entry := decodeGroupEntry_settles spec frame root side message cursor
    rw [decodeEntries]
    split
    · rename_i stops
      exact ⟨by simp, fun _ => entry.levels stops⟩
    · rename_i goes
      have rest := ih (decodeGroupEntry spec frame root side message cursor).1
        (cursor + stride.toNat)
      exact ⟨fun read => (rest.error read).trans (entry.error (Bool.of_not_eq_false goes)),
        rest.levels⟩

theorem Settles.clears {message read : DecodedMessage} {goes : Bool}
    (settles : Settles message read goes) (ok : message.ok = true) : Clears read := by
  cases goes with
  | false => exact fun _ => settles.levels rfl
  | true =>
    refine clears_ok ?_
    rw [DecodedMessage.ok, settles.error rfl]
    exact ok

theorem decodeGroups_clears (bidStride bidCount askStride askCount : UInt16)
    (message : DecodedMessage) (ok : message.ok = true) (cursor : Nat) :
    Clears (decodeGroups spec frame root bidStride bidCount askStride askCount message cursor) := by
  unfold decodeGroups decodeGroup
  have bids := decodeEntries_settles spec frame root .bid bidStride bidCount.toNat message (cursor + 4)
  dsimp only
  split
  · exact bids.clears ok
  · rename_i goes
    refine (decodeEntries_settles spec frame root .ask askStride askCount.toNat _ _).clears ?_
    rw [DecodedMessage.ok, bids.error (Bool.of_not_eq_false goes)]
    exact ok

theorem openMessage_error (message : DecodedMessage) (diff : Bool) (symbol : Bytes) :
    (openMessage message root diff symbol).error = message.error := by
  unfold openMessage stampEvent
  dsimp only
  split <;> rfl

theorem decodeDepth_clears (message : DecodedMessage) (ok : message.ok = true) (cursor : Nat)
    (blockLength : UInt16) (diff : Bool) :
    Clears (decodeDepth spec message frame cursor blockLength diff) := by
  unfold decodeDepth
  dsimp only
  generalize (if diff then (26 : UInt16) else 18) = minBlock
  split
  · exact clears_fail _ _
  split
  · exact clears_fail _ _
  split
  · exact clears_fail _ _
  split
  · exact clears_fail _ _
  split
  · exact clears_fail _ _
  split
  · exact clears_ok ok
  split
  · exact clears_fail _ _
  · refine decodeGroups_clears _ _ _ _ _ _ _ _ ?_ _
    rw [DecodedMessage.ok, openMessage_error]
    exact ok

end Clearing

section Truncation

variable {frame part : Bytes} {cursor : Nat}

def symbolEnd (frame : Bytes) : Option Nat := do
  let (header, cursor) ← readHeader frame
  let (_, _, asks) ← peekGroup frame (cursor + header.1.toNat)
  let (_, _, trailer) ← peekGroup frame asks
  let symbol ← peekSymbol frame trailer
  pure (trailer + 1 + symbol.length)

def EndsAtSymbol (frame : Bytes) : Prop := symbolEnd frame = some frame.length

theorem loadU16_prefix (isPrefix : part <+: frame) (inside : cursor + 2 ≤ part.length) :
    loadU16 frame cursor = loadU16 part cursor := by
  rw [loadU16, loadU16, LittleEndian.load_prefix isPrefix inside]

theorem readU16_prefix (isPrefix : part <+: frame) {read : UInt16 × Nat}
    (found : readU16 part cursor = some read) : readU16 frame cursor = some read := by
  have length := isPrefix.length_le
  unfold readU16 at found ⊢
  split at found
  · contradiction
  · rw [if_neg (by omega), loadU16_prefix isPrefix (by omega)]
    exact found

theorem readHeader_prefix (isPrefix : part <+: frame)
    {header : (UInt16 × UInt16 × UInt16 × UInt16) × Nat} (found : readHeader part = some header) :
    readHeader frame = some header := by
  simp only [readHeader, Option.bind_eq_bind, Option.bind_eq_some_iff] at found ⊢
  obtain ⟨block, blockRead, template, templateRead, schema, schemaRead, version, versionRead, same⟩ :=
    found
  exact ⟨block, readU16_prefix isPrefix blockRead, template, readU16_prefix isPrefix templateRead,
    schema, readU16_prefix isPrefix schemaRead, version, readU16_prefix isPrefix versionRead, same⟩

theorem peekGroup_prefix (isPrefix : part <+: frame) {group : UInt16 × UInt16 × Nat}
    (found : peekGroup part cursor = some group) : peekGroup frame cursor = some group := by
  have length := isPrefix.length_le
  unfold peekGroup at found ⊢
  dsimp only at found ⊢
  split at found
  · contradiction
  rename_i dimensions
  rw [if_neg (by omega), loadU16_prefix isPrefix (by omega), loadU16_prefix isPrefix (by omega)]
  split at found
  · contradiction
  rename_i stride
  rw [if_neg stride]
  split at found
  · contradiction
  rename_i entries
  rw [if_neg (by omega)]
  exact found

theorem peekSymbol_prefix (isPrefix : part <+: frame) {symbol : Bytes}
    (found : peekSymbol part cursor = some symbol) :
    peekSymbol frame cursor = some symbol ∧ cursor + 1 + symbol.length ≤ part.length := by
  obtain ⟨rest, rfl⟩ := isPrefix
  unfold peekSymbol at found ⊢
  cases first : part[cursor]? with
  | none => simp [first] at found
  | some len =>
    obtain ⟨inside, -⟩ := List.getElem?_eq_some_iff.mp first
    rw [first] at found
    dsimp only at found
    split at found
    · contradiction
    rename_i room
    obtain rfl := Option.some.inj found
    rw [List.getElem?_append_left inside, first]
    dsimp only
    rw [List.length_append, if_neg (by omega), List.drop_append_of_le_length (by omega),
      List.take_append_of_le_length (by rw [List.length_drop]; omega)]
    refine ⟨rfl, ?_⟩
    rw [List.length_take, List.length_drop]
    omega

theorem peekSymbol_cut (complete : EndsAtSymbol frame) (isPrefix : part <+: frame)
    (proper : part ≠ frame) {header : (UInt16 × UInt16 × UInt16 × UInt16) × Nat}
    {bids asks : UInt16 × UInt16 × Nat} (headerRead : readHeader part = some header)
    (bidsRead : peekGroup part (header.2 + header.1.1.toNat) = some bids)
    (asksRead : peekGroup part bids.2.2 = some asks) : peekSymbol part asks.2.2 = none := by
  by_contra found
  obtain ⟨symbol, found⟩ := Option.ne_none_iff_exists'.mp found
  obtain ⟨whole, inside⟩ := peekSymbol_prefix isPrefix found
  have ends : symbolEnd frame = some (asks.2.2 + 1 + symbol.length) := by
    simp only [symbolEnd, readHeader_prefix isPrefix headerRead, Option.bind_eq_bind,
      Option.bind_some, peekGroup_prefix isPrefix bidsRead, peekGroup_prefix isPrefix asksRead, whole,
      Option.pure_def]
  have length := Option.some.inj (complete.symm.trans ends)
  exact proper (isPrefix.eq_of_length_le (by omega))

theorem decodeDepth_truncated (spec : InstrumentSpec) (message : DecodedMessage) (diff : Bool)
    (complete : EndsAtSymbol frame) (isPrefix : part <+: frame) (proper : part ≠ frame)
    {header : (UInt16 × UInt16 × UInt16 × UInt16) × Nat} (headerRead : readHeader part = some header) :
    (decodeDepth spec message part header.2 header.1.1 diff).ok = false ∧
      (decodeDepth spec message part header.2 header.1.1 diff).levels = [] := by
  unfold decodeDepth
  dsimp only
  generalize (if diff then (26 : UInt16) else 18) = minBlock
  split
  · exact ⟨rfl, rfl⟩
  split
  · exact ⟨rfl, rfl⟩
  split
  · exact ⟨rfl, rfl⟩
  rename_i bidsRead
  split
  · exact ⟨rfl, rfl⟩
  rename_i asksRead
  rw [peekSymbol_cut complete isPrefix proper headerRead bidsRead asksRead]
  exact ⟨rfl, rfl⟩

end Truncation

theorem decodeAfter_atomic (decoder : BinanceSbeDecoder) :
    Atomic decoder.decodeAfter EndsAtSymbol where
  clears last frame := by
    unfold decodeAfter decodeInto
    split
    · exact clears_fail _ _
    split
    · exact clears_fail _ _
    split
    · exact decodeDepth_clears _ _ _ rfl _ _ _
    split
    · exact decodeDepth_clears _ _ _ rfl _ _ _
    · exact clears_ok rfl
  truncated last again frame part loads complete isPrefix proper := by
    unfold decodeAfter decodeInto at loads ⊢
    cases headerRead : readHeader part with
    | none => exact ⟨rfl, rfl⟩
    | some header =>
      have cut (diff : Bool) := decodeDepth_truncated decoder.spec again.reset diff complete isPrefix
        proper headerRead
      rw [ readHeader_prefix isPrefix headerRead] at loads
      dsimp only at loads ⊢
      split
      · exact ⟨rfl, rfl⟩
      rename_i schema
      rw [if_neg schema] at loads
      split
      · exact cut true
      rename_i notDiff
      rw [if_neg notDiff] at loads
      split
      · exact cut false
      rename_i notSnapshot
      rw [if_neg notSnapshot] at loads
      rcases loads.2 with kind | kind <;> contradiction

end BinanceSbeDecoder

namespace Venues

/-- Every decoder delivers all of a frame or nothing of it. -/
theorem decoding_atomic (kraken : KrakenBookDecoder) (binance : BinanceDepthDecoder)
    (sbe : BinanceSbeDecoder) :
    Atomic kraken.decodeAfter EndsInBrace ∧ Atomic binance.decodeAfter EndsInBrace ∧
      Atomic binance.decodeSnapshotAfter EndsInBrace ∧
      Atomic sbe.decodeAfter BinanceSbeDecoder.EndsAtSymbol :=
  ⟨kraken.decodeAfter_atomic, binance.decodeAfter_atomic, binance.decodeSnapshotAfter_atomic,
    sbe.decodeAfter_atomic⟩

end Venues

end Crossbook
