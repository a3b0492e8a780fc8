import Crossbook.Venues.BinanceSbe

set_option autoImplicit false

namespace Crossbook

namespace BinanceSbeDecoder

open Venues

section Layout

def i64Bytes (value : Int64) : Bytes := LittleEndian.encode 8 value.toUInt64.toNat

def i8Bytes (value : Int8) : Bytes := LittleEndian.encode 1 value.toUInt8.toNat

def u16Bytes (value : UInt16) : Bytes := LittleEndian.encode 2 value.toNat

/-- A group entry: its two known fields, and whatever a newer schema put behind them. -/
structure Entry where
  price : Int64
  qty : Int64
  extension : Bytes

def Entry.bytes (entry : Entry) : Bytes := i64Bytes entry.price ++ (i64Bytes entry.qty ++ entry.extension)

structure Group where
  stride : UInt16
  entries : List Entry
  strideFits : 16 ≤ stride
  extensions : ∀ entry ∈ entries, 16 + entry.extension.length = stride.toNat
  countFits : entries.length < 2 ^ 16

def Group.count (group : Group) : UInt16 := UInt16.ofNat group.entries.length

def Group.body (group : Group) : Bytes := group.entries.flatMap Entry.bytes

def Group.bytes (group : Group) : Bytes :=
  u16Bytes group.stride ++ (u16Bytes group.count ++ group.body)

def rootBytes (diff : Bool) (root : Root) : Bytes :=
  i64Bytes root.eventUs ++ ((if diff then i64Bytes root.firstId else []) ++
    (i64Bytes root.lastId ++ (i8Bytes root.priceExp ++ i8Bytes root.qtyExp)))

def minBlock (diff : Bool) : Nat := if diff then 26 else 18

/-- A depth diff or depth snapshot as the schema lays it out; a snapshot has one id. -/
structure DepthFrame where
  diff : Bool
  version : UInt16
  root : Root
  oneId : diff = false → root.firstId = root.lastId
  extension : Bytes
  blockFits : minBlock diff + extension.length < 2 ^ 16
  bids : Group
  asks : Group
  symbol : Bytes
  symbolFits : symbol.length < 256
  trailing : Bytes

namespace DepthFrame

def blockLength (frame : DepthFrame) : UInt16 :=
  UInt16.ofNat (minBlock frame.diff + frame.extension.length)

def templateId (frame : DepthFrame) : UInt16 :=
  if frame.diff then kDepthDiffTemplate else kDepthSnapshotTemplate

def groups (frame : DepthFrame) : Bytes :=
  frame.bids.bytes ++ (frame.asks.bytes ++
    (UInt8.ofNat frame.symbol.length :: (frame.symbol ++ frame.trailing)))

def bytes (frame : DepthFrame) : Bytes :=
  u16Bytes frame.blockLength ++ (u16Bytes frame.templateId ++ (u16Bytes kSchemaId ++
    (u16Bytes frame.version ++
      (rootBytes frame.diff frame.root ++ (frame.extension ++ frame.groups)))))

end DepthFrame

end Layout

section Reading

variable {frame rest : Bytes} {cursor : Nat}

def At (frame : Bytes) (cursor : Nat) (rest : Bytes) : Prop :=
  frame.drop cursor = rest ∧ cursor ≤ frame.length

theorem At.length (placed : At frame cursor rest) : frame.length - cursor = rest.length := by
  rw [← placed.1, List.length_drop]

theorem At.skip {front : Bytes} (placed : At frame cursor (front ++ rest)) :
    At frame (cursor + front.length) rest := by
  have length := placed.length
  rw [List.length_append] at length
  refine ⟨?_, by have := placed.2; omega⟩
  rw [← List.drop_drop, placed.1, List.drop_left]

@[simp] theorem length_u16Bytes (value : UInt16) : (u16Bytes value).length = 2 :=
  LittleEndian.length_encode 2 _

@[simp] theorem length_i64Bytes (value : Int64) : (i64Bytes value).length = 8 :=
  LittleEndian.length_encode 8 _

@[simp] theorem length_i8Bytes (value : Int8) : (i8Bytes value).length = 1 :=
  LittleEndian.length_encode 1 _

theorem loadU16_at {value : UInt16} (placed : At frame cursor (u16Bytes value ++ rest)) :
    loadU16 frame cursor = value := by
  rw [loadU16, LittleEndian.load_encode placed.1 value.toNat_lt, UInt16.ofNat_toNat]

theorem loadI64_at {value : Int64} (placed : At frame cursor (i64Bytes value ++ rest)) :
    loadI64 frame cursor = value := by
  rw [loadI64, LittleEndian.load_encode placed.1 value.toUInt64.toNat_lt, UInt64.ofNat_toNat]
  rfl

theorem loadI8_at {value : Int8} (placed : At frame cursor (i8Bytes value ++ rest)) :
    loadI8 frame cursor = value := by
  rw [loadI8, LittleEndian.load_encode placed.1 value.toUInt8.toNat_lt, UInt8.ofNat_toNat]
  rfl

theorem readU16_at {value : UInt16} (placed : At frame cursor (u16Bytes value ++ rest)) :
    readU16 frame cursor = some (value, cursor + 2) := by
  have length := placed.length
  rw [List.length_append, length_u16Bytes] at length
  rw [readU16, if_neg (by omega), loadU16_at placed]

theorem readI64_at {value : Int64} (placed : At frame cursor (i64Bytes value ++ rest)) :
    readI64 frame cursor = (value, cursor + 8) := by
  have length := placed.length
  rw [List.length_append, length_i64Bytes] at length
  rw [readI64, if_neg (by omega), loadI64_at placed]

theorem readI8_at {value : Int8} (placed : At frame cursor (i8Bytes value ++ rest)) :
    readI8 frame cursor = (value, cursor + 1) := by
  have length := placed.length
  rw [List.length_append, length_i8Bytes] at length
  rw [readI8, if_neg (by omega), loadI8_at placed]

theorem At.skipU16 {value : UInt16} (placed : At frame cursor (u16Bytes value ++ rest)) :
    At frame (cursor + 2) rest := by
  simpa using placed.skip

theorem At.skipI64 {value : Int64} (placed : At frame cursor (i64Bytes value ++ rest)) :
    At frame (cursor + 8) rest := by
  simpa using placed.skip

theorem At.skipI8 {value : Int8} (placed : At frame cursor (i8Bytes value ++ rest)) :
    At frame (cursor + 1) rest := by
  simpa using placed.skip

theorem readRoot_at {diff : Bool} {root : Root} (oneId : diff = false → root.firstId = root.lastId)
    (placed : At frame cursor (rootBytes diff root ++ rest)) : readRoot frame cursor diff = root := by
  unfold rootBytes at placed
  simp only [List.append_assoc] at placed
  unfold readRoot
  rw [readI64_at placed]
  have ids := placed.skipI64
  cases diff with
  | true =>
    simp only [if_true] at ids ⊢
    have last := ids.skipI64
    have price := last.skipI64
    rw [readI64_at ids, readI64_at last, readI8_at price, readI8_at price.skipI8]
  | false =>
    simp only [Bool.false_eq_true, if_false, List.nil_append] at ids ⊢
    have price := ids.skipI64
    rw [readI64_at ids, readI8_at price, readI8_at price.skipI8]
    have one := oneId rfl
    cases root
    simp_all

theorem length_rootBytes (diff : Bool) (root : Root) : (rootBytes diff root).length = minBlock diff := by
  cases diff <;> simp [rootBytes, minBlock]

end Reading

section GroupReading

variable {frame rest : Bytes} {cursor : Nat}

theorem Group.toNat_count (group : Group) : group.count.toNat = group.entries.length := by
  rw [Group.count, UInt16.toNat_ofNat']
  exact Nat.mod_eq_of_lt group.countFits

theorem length_entries {stride : Nat} (entries : List Entry)
    (extensions : ∀ entry ∈ entries, 16 + entry.extension.length = stride) :
    (entries.flatMap Entry.bytes).length = stride * entries.length := by
  induction entries with
  | nil => rfl
  | cons entry entries ih =>
    have here := extensions entry (by simp)
    have later := ih fun other listed => extensions other (by simp [listed])
    rw [List.flatMap_cons, List.length_append, later, List.length_cons, Nat.mul_succ]
    simp only [Entry.bytes, List.length_append, length_i64Bytes]
    omega

theorem Group.length_body (group : Group) :
    group.body.length = group.stride.toNat * group.count.toNat := by
  rw [Group.toNat_count]
  exact length_entries group.entries group.extensions

theorem Group.length_bytes (group : Group) :
    group.bytes.length = 4 + group.stride.toNat * group.count.toNat := by
  rw [← Group.length_body]
  simp only [Group.bytes, List.length_append, length_u16Bytes]
  omega

theorem peekGroup_at {group : Group} (placed : At frame cursor (group.bytes ++ rest)) :
    peekGroup frame cursor = some (group.stride, group.count, cursor + group.bytes.length) := by
  have room := placed.length
  rw [List.length_append, group.length_bytes] at room
  rw [Group.bytes, List.append_assoc, List.append_assoc] at placed
  have strideFits := UInt16.not_lt.mpr group.strideFits
  simp only [peekGroup]
  rw [if_neg (by omega), loadU16_at placed, loadU16_at placed.skipU16, if_neg strideFits,
    if_neg (by omega), group.length_bytes, Nat.add_assoc]

theorem At.entries {group : Group} (placed : At frame cursor (group.bytes ++ rest)) :
    At frame (cursor + 4) (group.body ++ rest) := by
  rw [Group.bytes, List.append_assoc, List.append_assoc] at placed
  exact placed.skipU16.skipU16

theorem peekSymbol_at {symbol : Bytes} (symbolFits : symbol.length < 256)
    (placed : At frame cursor (UInt8.ofNat symbol.length :: (symbol ++ rest))) :
    peekSymbol frame cursor = some symbol := by
  have room := placed.length
  rw [List.length_cons, List.length_append] at room
  have first : frame[cursor]? = some (UInt8.ofNat symbol.length) := by
    rw [← List.head?_drop, placed.1, List.head?_cons]
  have length : (UInt8.ofNat symbol.length).toNat = symbol.length := by
    rw [UInt8.toNat_ofNat']
    exact Nat.mod_eq_of_lt symbolFits
  simp only [peekSymbol, first, length]
  rw [if_neg (by omega), ← List.drop_drop, placed.1, List.drop_succ_cons, List.drop_zero,
    List.take_left]

end GroupReading

section Levels

variable (spec : InstrumentSpec) (root : Root)

def readLevel (side : Side) (message : DecodedMessage) (entry : Int64 × Int64) :
    DecodedMessage × Bool :=
  if entry.1 < 0 ∨ entry.2 < 0 then (fail message .malformed, false)
  else
    match rescale entry.1 root.priceExp spec.priceScale,
        rescale entry.2 root.qtyExp spec.qtyScale with
    | some ticks, some units =>
      ({ message with levels := message.levels ++ [⟨side, ⟨ticks⟩, ⟨units⟩⟩] }, true)
    | _, _ => (fail message .precisionLoss, false)

def readLevels (side : Side) : DecodedMessage → List (Int64 × Int64) → DecodedMessage × Bool
  | message, [] => (message, true)
  | message, entry :: entries =>
    let read := readLevel spec root side message entry
    if read.2 = false then (read.1, false) else readLevels side read.1 entries

def Entry.mantissas (entry : Entry) : Int64 × Int64 := (entry.price, entry.qty)

theorem decodeGroupEntry_at {frame rest : Bytes} {cursor : Nat} {entry : Entry} (side : Side)
    (message : DecodedMessage) (placed : At frame cursor (entry.bytes ++ rest)) :
    decodeGroupEntry spec frame root side message cursor =
      readLevel spec root side message entry.mantissas := by
  rw [Entry.bytes, List.append_assoc, List.append_assoc] at placed
  simp only [decodeGroupEntry, readLevel, Entry.mantissas]
  rw [loadI64_at placed, loadI64_at placed.skipI64]
  rfl

-- The cursor lands behind the group on the path that goes on; a failure leaves it unused.
theorem decodeEntries_at {frame rest : Bytes} {stride : UInt16} (side : Side)
    (entries : List Entry) (message : DecodedMessage) (cursor : Nat)
    (extensions : ∀ entry ∈ entries, 16 + entry.extension.length = stride.toNat)
    (placed : At frame cursor (entries.flatMap Entry.bytes ++ rest)) :
    let walked := decodeEntries spec frame root side stride entries.length message cursor
    let read := readLevels spec root side message (entries.map Entry.mantissas)
    walked.1.1 = read.1 ∧ walked.2 = read.2 ∧
      (read.2 = true → walked.1.2 = cursor + stride.toNat * entries.length) := by
  induction entries generalizing message cursor with
  | nil => exact ⟨rfl, rfl, fun _ => rfl⟩
  | cons entry entries ih =>
    rw [List.flatMap_cons, List.append_assoc] at placed
    have here := extensions entry (by simp)
    have next := placed.skip
    rw [Entry.bytes, List.length_append, List.length_append, length_i64Bytes, length_i64Bytes,
      show 8 + (8 + entry.extension.length) = stride.toNat by omega] at next
    simp only [List.length_cons, List.map_cons, decodeEntries, readLevels]
    rw [decodeGroupEntry_at spec root side message placed]
    cases read : (readLevel spec root side message entry.mantissas).2 with
    | false => exact ⟨rfl, rfl, by simp⟩
    | true =>
      simp only [Bool.true_eq_false, if_false]
      obtain ⟨same, agree, behind⟩ :=
        ih (readLevel spec root side message entry.mantissas).1 (cursor + stride.toNat)
          (fun other listed => extensions other (by simp [listed])) next
      refine ⟨same, agree, fun goes => ?_⟩
      rw [behind goes, Nat.mul_succ]
      omega

end Levels

section Frames

structure Depth where
  diff : Bool
  root : Root
  bids : List (Int64 × Int64)
  asks : List (Int64 × Int64)
  symbol : Bytes
  deriving DecidableEq

def Depth.addressed (depth : Depth) (spec : InstrumentSpec) : Bool :=
  depth.symbol.isEmpty || equalsIgnoreCase depth.symbol spec.symbol

def interpret (spec : InstrumentSpec) (message : DecodedMessage) (depth : Depth) : DecodedMessage :=
  if depth.root.firstId < 0 ∨ depth.root.lastId < 0 then fail message .badSequence
  else if depth.addressed spec = false then { message with kind := .ignored, symbol := [] }
  else if kMaxLevelsPerMessage < depth.bids.length + depth.asks.length then
    fail { message with symbol := depth.symbol } .tooManyLevels
  else
    let opened := openMessage message depth.root depth.diff depth.symbol
    let bids := readLevels spec depth.root .bid opened depth.bids
    if bids.2 = false then bids.1
    else (readLevels spec depth.root .ask bids.1 depth.asks).1

def DepthFrame.depth (frame : DepthFrame) : Depth where
  diff := frame.diff
  root := frame.root
  bids := frame.bids.entries.map Entry.mantissas
  asks := frame.asks.entries.map Entry.mantissas
  symbol := frame.symbol

variable (spec : InstrumentSpec) (message : DecodedMessage) (frame : DepthFrame)

theorem DepthFrame.readHeader_bytes :
    readHeader frame.bytes =
      some ((frame.blockLength, frame.templateId, kSchemaId, frame.version), 8) := by
  have block : At frame.bytes 0 frame.bytes := ⟨rfl, Nat.zero_le _⟩
  conv at block => arg 3; rw [DepthFrame.bytes]
  have template := block.skipU16
  have schema := template.skipU16
  simp only [readHeader, readU16_at block, readU16_at template, readU16_at schema,
    readU16_at schema.skipU16, Option.bind_eq_bind, Option.bind_some, Option.pure_def]

theorem DepthFrame.at_root :
    At frame.bytes 8 (rootBytes frame.diff frame.root ++ (frame.extension ++ frame.groups)) := by
  have block : At frame.bytes 0 frame.bytes := ⟨rfl, Nat.zero_le _⟩
  conv at block => arg 3; rw [DepthFrame.bytes]
  exact block.skipU16.skipU16.skipU16.skipU16

theorem DepthFrame.toNat_blockLength :
    frame.blockLength.toNat = minBlock frame.diff + frame.extension.length := by
  rw [DepthFrame.blockLength, UInt16.toNat_ofNat']
  exact Nat.mod_eq_of_lt frame.blockFits

theorem DepthFrame.at_groups : At frame.bytes (8 + frame.blockLength.toNat) frame.groups := by
  have behind := frame.at_root.skip.skip
  rwa [length_rootBytes, Nat.add_assoc, ← frame.toNat_blockLength] at behind

theorem decodeGroups_at {frame rest : Bytes} {cursor : Nat} {root : Root} {bids asks : Group}
    (placed : At frame cursor (bids.bytes ++ (asks.bytes ++ rest))) :
    decodeGroups spec frame root bids.stride bids.count asks.stride asks.count message cursor =
      let read := readLevels spec root .bid message (bids.entries.map Entry.mantissas)
      if read.2 = false then read.1
      else (readLevels spec root .ask read.1 (asks.entries.map Entry.mantissas)).1 := by
  obtain ⟨sameBids, agreeBids, behind⟩ :=
    decodeEntries_at spec root .bid bids.entries message (cursor + 4) bids.extensions placed.entries
  simp only [decodeGroups, decodeGroup, Group.toNat_count]
  rw [agreeBids]
  cases read : (readLevels spec root .bid message (bids.entries.map Entry.mantissas)).2 with
  | false => simpa using sameBids
  | true =>
    have here : cursor + 4 + bids.stride.toNat * bids.entries.length = cursor + bids.bytes.length := by
      rw [bids.length_bytes, bids.toNat_count, Nat.add_assoc]
    simp only [Bool.true_eq_false, if_false]
    rw [behind read, here, sameBids]
    exact (decodeEntries_at spec root .ask asks.entries _ _ asks.extensions placed.skip.entries).1

theorem decodeDepth_frame :
    decodeDepth spec message frame.bytes 8 frame.blockLength frame.diff =
      interpret spec message frame.depth := by
  have known := frame.at_root
  have groups := frame.at_groups
  have whole := groups.2
  rw [DepthFrame.groups] at groups
  have enough : ¬ frame.blockLength < (if frame.diff then 26 else 18) := by
    rw [UInt16.not_lt, UInt16.le_iff_toNat_le, frame.toNat_blockLength]
    cases frame.diff <;> simp [minBlock]
  have counts : frame.bids.count.toNat + frame.asks.count.toNat =
      frame.depth.bids.length + frame.depth.asks.length := by
    simp [DepthFrame.depth, Group.toNat_count]
  have routed : (!frame.symbol.isEmpty && !equalsIgnoreCase frame.symbol spec.symbol) =
      !frame.depth.addressed spec := (Bool.not_or _ _).symm
  simp only [decodeDepth]
  rw [if_neg (by rw [not_or]; exact ⟨enough, by omega⟩), readRoot_at frame.oneId known,
    peekGroup_at groups]
  dsimp only
  rw [peekGroup_at groups.skip]
  dsimp only
  rw [peekSymbol_at frame.symbolFits groups.skip.skip]
  dsimp only
  rw [decodeGroups_at spec _ groups, counts, routed]
  simp only [interpret]
  cases frame.depth.addressed spec <;> rfl

theorem decodeInto_frame (decoder : BinanceSbeDecoder) :
    decoder.decodeInto message frame.bytes = interpret decoder.spec message frame.depth := by
  simp only [decodeInto, frame.readHeader_bytes]
  rw [← decodeDepth_frame]
  cases layout : frame.diff <;>
    simp [DepthFrame.templateId, layout, kDepthDiffTemplate, kDepthSnapshotTemplate]

end Frames

end BinanceSbeDecoder

end Crossbook
