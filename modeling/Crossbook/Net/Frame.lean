import Crossbook.Lib.BigEndian
import Crossbook.Lib.LittleEndian
import Crossbook.Types

set_option autoImplicit false

namespace Crossbook

namespace Net

inductive Opcode where
  | continuation
  | text
  | binary
  | close
  | ping
  | pong
  deriving DecidableEq, Repr

namespace Opcode

def raw : Opcode → UInt8
  | continuation => 0x0
  | text => 0x1
  | binary => 0x2
  | close => 0x8
  | ping => 0x9
  | pong => 0xA

/-- The known opcodes, and no others. -/
def known (raw : UInt8) : Option Opcode :=
  if raw = 0x0 then some continuation
  else if raw = 0x1 then some text
  else if raw = 0x2 then some binary
  else if raw = 0x8 then some close
  else if raw = 0x9 then some ping
  else if raw = 0xA then some pong
  else none

def isControl (op : Opcode) : Bool := op.raw &&& 0x08 != 0

end Opcode

def kMaxControlPayload : Nat := 125

structure FrameHeader where
  opcode : Opcode
  payloadLen : Nat
  maskKey : UInt32
  headerSize : Nat
  fin : Bool
  masked : Bool
  deriving DecidableEq, Repr

inductive FrameStatus where
  | ok (header : FrameHeader)
  | incomplete
  | protocolError
  deriving DecidableEq, Repr

/-- The payload length and the position behind it, or the verdict that ends the parse. -/
def parsePayloadLen (buf : Bytes) (shortLen : UInt8) : Except FrameStatus (Nat × Nat) :=
  if shortLen < 126 then .ok (shortLen.toNat, 2)
  else if shortLen = 126 then
    if buf.length < 4 then .error .incomplete
    else
      let len := BigEndian.decode ((buf.drop 2).take 2)
      -- The minimal number of bytes must be used to encode the length.
      if len < 126 then .error .protocolError else .ok (len, 4)
  else if buf.length < 10 then .error .incomplete
  else
    let len := BigEndian.decode ((buf.drop 2).take 8)
    if 2 ^ 63 ≤ len then .error .protocolError
    else if len < 65536 then .error .protocolError
    else .ok (len, 10)

def parseFrameHeader (buf : Bytes) : FrameStatus :=
  match buf with
  | b0 :: b1 :: _ =>
    if b0 &&& 0x70 ≠ 0 then .protocolError
    else
      match Opcode.known (b0 &&& 0x0F) with
      | none => .protocolError
      | some opcode =>
        let fin := b0 &&& 0x80 != 0
        let masked := b1 &&& 0x80 != 0
        match parsePayloadLen buf (b1 &&& 0x7F) with
        | .error status => status
        | .ok (payloadLen, pos) =>
          if opcode.isControl && (!fin || decide (kMaxControlPayload < payloadLen)) then
            .protocolError
          else if masked then
            if buf.length < pos + 4 then .incomplete
            else .ok ⟨opcode, payloadLen, UInt32.ofNat (LittleEndian.load 4 buf pos), pos + 4, fin, true⟩
          else .ok ⟨opcode, payloadLen, 0, pos, fin, false⟩
  | _ => .incomplete

section Parsing

variable {buf more : Bytes}

theorem take_drop_more {width start : Nat} (room : start + width ≤ buf.length) :
    ((buf ++ more).drop start).take width = (buf.drop start).take width := by
  rw [List.drop_append_of_le_length (by omega), List.take_append_of_le_length]
  rw [List.length_drop]
  omega

theorem parsePayloadLen_more {shortLen : UInt8}
    (verdict : parsePayloadLen buf shortLen ≠ .error .incomplete) :
    parsePayloadLen (buf ++ more) shortLen = parsePayloadLen buf shortLen := by
  unfold parsePayloadLen at verdict ⊢
  split
  · rfl
  rename_i long
  rw [if_neg long] at verdict
  split
  · rename_i two
    rw [if_pos two] at verdict
    split at verdict
    · exact absurd rfl verdict
    rename_i room
    rw [if_neg room, if_neg (by rw [List.length_append]; omega), take_drop_more (by omega)]
  · rename_i eight
    rw [if_neg eight] at verdict
    split at verdict
    · exact absurd rfl verdict
    rename_i room
    rw [if_neg room, if_neg (by rw [List.length_append]; omega), take_drop_more (by omega)]

theorem parsePayloadLen_room {shortLen : UInt8} {payloadLen pos : Nat}
    (parsed : parsePayloadLen buf shortLen = .ok (payloadLen, pos)) :
    2 ≤ pos ∧ pos ≤ 10 ∧ (2 ≤ buf.length → pos ≤ buf.length) ∧ payloadLen < 2 ^ 63 := by
  unfold parsePayloadLen at parsed
  have short := shortLen.toNat_lt
  split at parsed
  · simp only [Except.ok.injEq, Prod.mk.injEq] at parsed
    omega
  split at parsed
  · split at parsed
    · contradiction
    dsimp only at parsed
    have bound := BigEndian.decode_lt ((buf.drop 2).take 2)
    have small : 256 ^ ((buf.drop 2).take 2).length ≤ 256 ^ 2 :=
      Nat.pow_le_pow_right (by decide) (by simp)
    split at parsed
    · contradiction
    simp only [Except.ok.injEq, Prod.mk.injEq] at parsed
    omega
  · split at parsed
    · contradiction
    dsimp only at parsed
    split at parsed
    · contradiction
    split at parsed
    · contradiction
    simp only [Except.ok.injEq, Prod.mk.injEq] at parsed
    omega

theorem parsePayloadLen_error {shortLen : UInt8} {status : FrameStatus}
    (refused : parsePayloadLen buf shortLen = .error status) :
    status = .incomplete ∨ status = .protocolError := by
  unfold parsePayloadLen at refused
  dsimp only at refused
  split at refused
  · contradiction
  split at refused <;> split at refused
  · exact .inl (Except.error.inj refused).symm
  · split at refused
    · exact .inr (Except.error.inj refused).symm
    · contradiction
  · exact .inl (Except.error.inj refused).symm
  · split at refused
    · exact .inr (Except.error.inj refused).symm
    · split at refused
      · exact .inr (Except.error.inj refused).symm
      · contradiction

theorem parseFrameHeader_more (verdict : parseFrameHeader buf ≠ .incomplete) :
    parseFrameHeader (buf ++ more) = parseFrameHeader buf := by
  match buf with
  | [] => exact absurd rfl verdict
  | [_] => exact absurd rfl verdict
  | b0 :: b1 :: rest =>
    simp only [parseFrameHeader, List.cons_append] at verdict ⊢
    split
    · rfl
    rename_i reserved
    rw [if_neg reserved] at verdict
    cases opcode : Opcode.known (b0 &&& 0x0F) with
    | none => rfl
    | some op =>
      simp only [opcode] at verdict ⊢
      -- A verdict rests on bytes that are there, and those stay where they are.
      have length : parsePayloadLen (b0 :: b1 :: rest) (b1 &&& 0x7F) ≠ .error .incomplete →
          parsePayloadLen (b0 :: b1 :: rest ++ more) (b1 &&& 0x7F) =
            parsePayloadLen (b0 :: b1 :: rest) (b1 &&& 0x7F) := parsePayloadLen_more
      cases parsed : parsePayloadLen (b0 :: b1 :: rest) (b1 &&& 0x7F) with
      | error status =>
        rw [parsed] at verdict length
        dsimp only at verdict
        have same := length (by simpa using verdict)
        rw [List.cons_append, List.cons_append] at same
        rw [same]
      | ok read =>
        rw [parsed] at verdict length
        have same := length (by simp)
        rw [List.cons_append, List.cons_append] at same
        rw [same]
        obtain ⟨payloadLen, pos⟩ := read
        dsimp only at verdict ⊢
        split
        · rfl
        rename_i allowed
        rw [if_neg allowed] at verdict
        split
        · rename_i masked
          rw [if_pos masked] at verdict
          split at verdict
          · exact absurd rfl verdict
          rename_i room
          have isPrefix : b0 :: b1 :: rest <+: b0 :: b1 :: (rest ++ more) := ⟨more, rfl⟩
          rw [if_neg room, if_neg (by have := isPrefix.length_le; omega),
            LittleEndian.load_prefix isPrefix (by omega)]
        · rfl

structure HeaderRead (buf : Bytes) (header : FrameHeader) (b0 b1 : UInt8) (rest : Bytes)
    (pos : Nat) : Prop where
  shape : buf = b0 :: b1 :: rest
  reserved : b0 &&& 0x70 = 0
  opcode : Opcode.known (b0 &&& 0x0F) = some header.opcode
  fin : (b0 &&& 0x80 != 0) = header.fin
  masked : (b1 &&& 0x80 != 0) = header.masked
  length : parsePayloadLen buf (b1 &&& 0x7F) = .ok (header.payloadLen, pos)
  allowed : ¬ (header.opcode.isControl &&
    (!header.fin || decide (kMaxControlPayload < header.payloadLen))) = true
  key : header.masked = true → pos + 4 ≤ buf.length ∧
    header.maskKey = UInt32.ofNat (LittleEndian.load 4 buf pos) ∧ header.headerSize = pos + 4
  plain : header.masked = false → header.maskKey = 0 ∧ header.headerSize = pos

theorem parseFrameHeader_ok {header : FrameHeader} (parsed : parseFrameHeader buf = .ok header) :
    ∃ b0 b1 rest pos, HeaderRead buf header b0 b1 rest pos := by
  match buf with
  | [] => contradiction
  | [_] => contradiction
  | b0 :: b1 :: rest =>
    simp only [parseFrameHeader] at parsed
    split at parsed
    · contradiction
    rename_i reserved
    split at parsed
    · contradiction
    rename_i opcode known
    split at parsed
    · rename_i status refused
      rcases parsePayloadLen_error refused with rfl | rfl <;> contradiction
    rename_i payloadLen pos length
    split at parsed
    · contradiction
    rename_i allowed
    split at parsed
    · rename_i bit
      split at parsed
      · contradiction
      rename_i room
      obtain rfl := FrameStatus.ok.inj parsed
      exact ⟨b0, b1, rest, pos, rfl, not_not.mp reserved, known, rfl, bit, length, allowed,
        fun _ => ⟨Nat.le_of_not_lt room, rfl, rfl⟩, fun plain => Bool.noConfusion plain⟩
    · rename_i bit
      obtain rfl := FrameStatus.ok.inj parsed
      exact ⟨b0, b1, rest, pos, rfl, not_not.mp reserved, known, rfl, Bool.not_eq_true _ ▸ bit,
        length, allowed, fun masked => Bool.noConfusion masked, fun _ => ⟨rfl, rfl⟩⟩

theorem parseFrameHeader_room {header : FrameHeader} (parsed : parseFrameHeader buf = .ok header) :
    2 ≤ header.headerSize ∧ header.headerSize ≤ buf.length ∧ header.payloadLen < 2 ^ 63 := by
  obtain ⟨b0, b1, rest, pos, read⟩ := parseFrameHeader_ok parsed
  obtain ⟨low, _, inside, bound⟩ := parsePayloadLen_room read.length
  have inside := inside (by simp [read.shape])
  cases masked : header.masked with
  | true =>
    obtain ⟨room, _, size⟩ := read.key masked
    exact ⟨by omega, by omega, bound⟩
  | false =>
    have size := (read.plain masked).2
    exact ⟨by omega, by omega, bound⟩

end Parsing

end Net

end Crossbook
