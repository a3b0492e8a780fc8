import Crossbook.Net.FrameStream

set_option autoImplicit false

namespace Crossbook

namespace Net

/-- A frame the specification allows. -/
structure Frame where
  opcode : Opcode
  fin : Bool
  payload : Bytes
  lengthFits : payload.length < 2 ^ 63
  controlFits : opcode.isControl = true → fin = true ∧ payload.length ≤ kMaxControlPayload

namespace Frame

def firstByte (fin : Bool) (opcode : Opcode) : UInt8 := (if fin then 0x80 else 0x00) ||| opcode.raw

/-- The length of an unmasked payload, in as few bytes as the wire allows. -/
def lengthBytes (len : Nat) : Bytes :=
  if len < 126 then [UInt8.ofNat len]
  else if len < 65536 then 126 :: BigEndian.encode 2 len
  else 127 :: BigEndian.encode 8 len

def headerBytes (frame : Frame) : Bytes :=
  firstByte frame.fin frame.opcode :: lengthBytes frame.payload.length

def bytes (frame : Frame) : Bytes := frame.headerBytes ++ frame.payload

def header (frame : Frame) : FrameHeader where
  opcode := frame.opcode
  payloadLen := frame.payload.length
  maskKey := 0
  headerSize := frame.headerBytes.length
  fin := frame.fin
  masked := false

end Frame

theorem firstByte_reads (fin : Bool) (opcode : Opcode) :
    Frame.firstByte fin opcode &&& 0x70 = 0 ∧
      Opcode.known (Frame.firstByte fin opcode &&& 0x0F) = some opcode ∧
      (Frame.firstByte fin opcode &&& 0x80 != 0) = fin := by
  cases fin <;> cases opcode <;> decide

theorem shortLen_reads (len : Nat) (short : len < 126) :
    (UInt8.ofNat len &&& 0x80 != 0) = false ∧ UInt8.ofNat len &&& 0x7F = UInt8.ofNat len ∧
      UInt8.ofNat len < 126 ∧ (UInt8.ofNat len).toNat = len := by
  revert len
  decide

theorem lengthBytes_reads (first : UInt8) (len : Nat) (fits : len < 2 ^ 63) (rest : Bytes) :
    ∃ b1 more, Frame.lengthBytes len = b1 :: more ∧ (b1 &&& 0x80 != 0) = false ∧
      parsePayloadLen (first :: (Frame.lengthBytes len ++ rest)) (b1 &&& 0x7F) =
        .ok (len, 1 + (Frame.lengthBytes len).length) := by
  unfold Frame.lengthBytes
  split
  · rename_i short
    obtain ⟨unmasked, same, small, value⟩ := shortLen_reads len short
    refine ⟨_, _, rfl, unmasked, ?_⟩
    rw [same, parsePayloadLen, if_pos small, value]
    rfl
  rename_i long
  split
  · rename_i two
    have decoded := BigEndian.decode_encode 2 len
    rw [Nat.mod_eq_of_lt (by omega)] at decoded
    refine ⟨126, _, rfl, by decide, ?_⟩
    rw [show (126 : UInt8) &&& 0x7F = 126 by decide, parsePayloadLen, if_neg (by decide),
      if_pos rfl, if_neg (by simp)]
    simp only [List.cons_append, List.drop_succ_cons, List.drop_zero]
    rw [List.take_left' (BigEndian.length_encode 2 len), decoded, if_neg (by omega)]
    simp
  · rename_i eight
    have decoded := BigEndian.decode_encode 8 len
    rw [Nat.mod_eq_of_lt (by omega)] at decoded
    refine ⟨127, _, rfl, by decide, ?_⟩
    rw [show (127 : UInt8) &&& 0x7F = 127 by decide, parsePayloadLen, if_neg (by decide),
      if_neg (by decide), if_neg (by simp)]
    simp only [List.cons_append, List.drop_succ_cons, List.drop_zero]
    rw [List.take_left' (BigEndian.length_encode 8 len), decoded, if_neg (by omega),
      if_neg (by omega)]
    simp

theorem parseFrameHeader_bytes (frame : Frame) (rest : Bytes) :
    parseFrameHeader (frame.bytes ++ rest) = .ok frame.header := by
  obtain ⟨reserved, known, fin⟩ := firstByte_reads frame.fin frame.opcode
  obtain ⟨b1, more, spelled, unmasked, length⟩ := lengthBytes_reads
    (Frame.firstByte frame.fin frame.opcode) frame.payload.length frame.lengthFits
    (frame.payload ++ rest)
  have allowed : (frame.opcode.isControl &&
      (!frame.fin || decide (kMaxControlPayload < frame.payload.length))) = false := by
    cases control : frame.opcode.isControl with
    | false => rfl
    | true =>
      obtain ⟨final, short⟩ := frame.controlFits control
      simp [final, short]
  rw [spelled] at length
  simp only [Frame.bytes, Frame.headerBytes, spelled, List.cons_append, List.append_assoc] at length ⊢
  simp only [parseFrameHeader, reserved, known, fin, unmasked, length, allowed]
  simp [Frame.header, Frame.headerBytes, spelled, Nat.add_comm]

section Front

variable (frame : Frame) (rest : Bytes)

theorem bytes_front : frame.bytes ++ rest = frame.headerBytes ++ (frame.payload ++ rest) := by
  rw [Frame.bytes, List.append_assoc]

theorem complete_front : ¬ (frame.bytes ++ rest).length <
    frame.header.headerSize + frame.header.payloadLen := by
  rw [bytes_front, List.length_append, List.length_append]
  change ¬ _ < frame.headerBytes.length + frame.payload.length
  omega

theorem payload_front :
    ((frame.bytes ++ rest).drop frame.header.headerSize).take frame.header.payloadLen =
      frame.payload := by
  rw [bytes_front, Frame.header, List.drop_left, List.take_left]

theorem drop_front :
    (frame.bytes ++ rest).drop (frame.header.headerSize + frame.header.payloadLen) = rest := by
  rw [bytes_front, ← List.drop_drop, Frame.header, List.drop_left, List.drop_left]

end Front

theorem pass_bytes (maxMessageBytes : Nat) (assembly : Assembly) (frame : Frame) (rest : Bytes) :
    pass maxMessageBytes assembly (frame.bytes ++ rest) =
      if tooLarge maxMessageBytes assembly frame.payload.length then
        some ⟨assembly, frame.bytes ++ rest, some ⟨.messageTooLarge, none⟩⟩
      else
        let received := assembly.receive frame.opcode frame.fin frame.payload
        some ⟨received.1, rest, received.2⟩ := by
  rw [pass, parseFrameHeader_bytes]
  dsimp only
  rw [if_neg (by simp [Frame.header]), if_neg (complete_front frame rest),
    payload_front, drop_front]
  rfl

end Net

end Crossbook
