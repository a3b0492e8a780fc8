import Crossbook.Net.ClosingHandshake

set_option autoImplicit false

namespace Crossbook

namespace Net

def applyMaskPieces (maskKey : UInt32) : Nat → List Bytes → Bytes
  | _, [] => []
  | offset, piece :: rest =>
    applyMask piece maskKey offset ++ applyMaskPieces maskKey (piece.length + offset) rest

theorem applyMaskPieces_eq (maskKey : UInt32) (offset : Nat) (pieces : List Bytes) :
    applyMaskPieces maskKey offset pieces = applyMask pieces.flatten maskKey offset := by
  induction pieces generalizing offset with
  | nil => simp [applyMaskPieces, applyMask]
  | cons piece rest ih => rw [applyMaskPieces, ih, List.flatten_cons, applyMask_append]

/-- A frame with a final masked header for the payload, and the payload masked behind it. -/
structure CarriesPayload (frame : Bytes) (opcode : Opcode) (payload : Bytes) (maskKey : UInt32)
    (headerSize : Nat) : Prop where
  header : parseFrameHeader frame =
    .ok ⟨opcode, payload.length, maskKey, headerSize, true, true⟩
  length : (frame.drop headerSize).length = payload.length
  whole : applyMask (frame.drop headerSize) maskKey 0 = payload
  pieces : ∀ pieces : List Bytes, pieces.flatten = frame.drop headerSize →
    applyMaskPieces maskKey 0 pieces = payload

namespace WebSocketClient

theorem sentFrame_carries {opcode : Opcode} {payload : Bytes} (fits : payload.length < 2 ^ 63)
    (control : opcode.isControl = true → payload.length ≤ kMaxControlPayload) (maskKey : UInt32) :
    CarriesPayload (sentFrame opcode payload maskKey) opcode payload maskKey
      (writeFrameHeader opcode (UInt64.ofNat payload.length) maskKey true).length := by
  have size : (UInt64.ofNat payload.length).toNat = payload.length := by
    rw [UInt64.toNat_ofNat']
    exact Nat.mod_eq_of_lt (by omega)
  have writable : Writable opcode (UInt64.ofNat payload.length) true := by
    constructor
    · rwa [size]
    · intro isControl
      exact ⟨rfl, size.symm ▸ control isControl⟩
  have behind : (sentFrame opcode payload maskKey).drop
      (writeFrameHeader opcode (UInt64.ofNat payload.length) maskKey true).length =
        applyMask payload maskKey 0 := by
    rw [sentFrame, List.drop_left]
  constructor
  · rw [sentFrame, parseFrameHeader_written writable, writtenHeader, size]
  · rw [behind, length_applyMask]
  · rw [behind, applyMask_applyMask]
  · intro pieces cut
    rw [applyMaskPieces_eq, cut, behind, applyMask_applyMask]

theorem sent_frame_decodes {τ ρ : Type} (net : Transport τ) (draw : ρ → UInt32 × ρ)
    (client : WebSocketClient τ ρ) (opcode : Opcode) (payload : Bytes)
    (linked : net.connected client.transport = true) (fits : payload.length < 2 ^ 63)
    (control : opcode.isControl = true → payload.length ≤ kMaxControlPayload) :
    ∃ (frame : Bytes) (headerSize : Nat),
      (client.sendFrame net draw opcode payload).1.written = client.written ++ [frame] ∧
        CarriesPayload frame opcode payload (draw client.rng).1 headerSize :=
  ⟨_, _, sendFrame_written client opcode payload linked, sentFrame_carries fits control _⟩

-- A transport that takes every byte, and a generator that always draws zero.
theorem sent_frame_decodes_unmasked :
    let net : Transport Unit :=
      { connected := fun _ => true
        read := fun state _ => (state, .timeout, [])
        write := fun state _ => (state, .ok)
        close := id
        lastError := fun _ => ""
        readFits := fun _ _ => Nat.zero_le _ }
    let client : WebSocketClient Unit Unit :=
      ⟨(), FrameReader.fresh 0, "", (), WebSocketStats.zero, true, []⟩
    ∃ (frame : Bytes) (headerSize : Nat),
      (client.sendFrame net (fun rng => (0, rng)) .ping [0x68, 0x69]).1.written = [frame] ∧
        CarriesPayload frame .ping [0x68, 0x69] 0 headerSize := by
  intro net client
  exact sent_frame_decodes net (fun rng => (0, rng)) client .ping [0x68, 0x69] rfl (by decide)
    (by decide)

end WebSocketClient

end Net

end Crossbook
