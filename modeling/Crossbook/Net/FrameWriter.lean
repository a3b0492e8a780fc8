import Crossbook.Net.FrameLayout

set_option autoImplicit false

namespace Crossbook

namespace Net

def writtenLength (payloadLen : UInt64) : Bytes :=
  if payloadLen < 126 then [0x80 ||| payloadLen.toUInt8]
  else if payloadLen ≤ 0xFFFF then
    [0x80 ||| 126, (payloadLen >>> 8 &&& 0xFF).toUInt8, (payloadLen &&& 0xFF).toUInt8]
  else
    (0x80 ||| 127) :: ([56, 48, 40, 32, 24, 16, 8, 0] : List UInt64).map fun shift =>
      (payloadLen >>> shift &&& 0xFF).toUInt8

/-- The bytes written; a client masks every frame it sends. -/
def writeFrameHeader (opcode : Opcode) (payloadLen : UInt64) (maskKey : UInt32) (fin : Bool) :
    Bytes :=
  ((if fin then 0x80 else 0x00) ||| opcode.raw) ::
    (writtenLength payloadLen ++ LittleEndian.encode 4 maskKey.toNat)

theorem shifted_byte (value shift : UInt64) (inside : shift.toNat < 64) :
    (value >>> shift &&& 0xFF).toUInt8 = UInt8.ofNat (value.toNat / 2 ^ shift.toNat % 256) := by
  apply UInt8.toNat_inj.mp
  rw [UInt64.toNat_toUInt8, UInt64.toNat_and, UInt64.toNat_shiftRight, Nat.mod_eq_of_lt inside,
    Nat.shiftRight_eq_div_pow, BigEndian.toNat_low]
  have low : value.toNat / 2 ^ shift.toNat &&& (0xFF : UInt64).toNat =
      value.toNat / 2 ^ shift.toNat % 256 := Nat.and_two_pow_sub_one_eq_mod _ 8
  rw [low]
  omega

theorem writtenLength_eq (payloadLen : UInt64) :
    ∃ b1 more, Frame.lengthBytes payloadLen.toNat = b1 :: more ∧
      writtenLength payloadLen = (0x80 ||| b1) :: more := by
  unfold Frame.lengthBytes writtenLength
  have short : payloadLen < 126 ↔ payloadLen.toNat < 126 := UInt64.lt_iff_toNat_lt
  have two : payloadLen ≤ 0xFFFF ↔ payloadLen.toNat < 65536 :=
    UInt64.le_iff_toNat_le.trans (by change _ ≤ 65535 ↔ _; omega)
  by_cases isShort : payloadLen.toNat < 126
  · rw [if_pos isShort, if_pos (short.mpr isShort)]
    exact ⟨_, _, rfl, rfl⟩
  · rw [if_neg isShort, if_neg (mt short.mp isShort)]
    by_cases isTwo : payloadLen.toNat < 65536
    · rw [if_pos isTwo, if_pos (two.mpr isTwo)]
      have low := shifted_byte payloadLen 0 (by decide)
      have high := shifted_byte payloadLen 8 (by decide)
      refine ⟨_, _, rfl, ?_⟩
      simp only [UInt64.shiftRight_zero] at low
      rw [high, low]
      simp [BigEndian.encode]
    · rw [if_neg isTwo, if_neg (mt two.mp isTwo)]
      refine ⟨_, _, rfl, ?_⟩
      simp only [List.map_cons, List.map_nil]
      repeat rw [shifted_byte payloadLen _ (by decide)]
      simp [BigEndian.encode, Nat.div_div_eq_div_mul]

theorem maskBit_reads (byte : UInt8) :
    ((0x80 ||| byte) &&& 0x80 != 0) = true ∧ (0x80 ||| byte) &&& 0x7F = byte &&& 0x7F := by
  revert byte
  exact MachineInt.byte_forall (by decide +kernel)

theorem maskBit_restores (byte : UInt8) :
    (byte &&& 0x80 != 0) = true → 0x80 ||| (byte &&& 0x7F) = byte := by
  revert byte
  exact MachineInt.byte_forall (by decide +kernel)

theorem shortLen_le (byte : UInt8) : (byte &&& 0x7F).toNat ≤ 127 := by
  revert byte
  exact MachineInt.byte_forall (by decide +kernel)

theorem firstByte_restores (byte : UInt8) :
    byte &&& 0x70 = 0 → ∀ opcode, Opcode.known (byte &&& 0x0F) = some opcode →
      Frame.firstByte (byte &&& 0x80 != 0) opcode = byte := by
  revert byte
  exact MachineInt.byte_forall (by decide +kernel)

theorem parsePayloadLen_second (b0 b1 b1' : UInt8) (rest : Bytes) (shortLen : UInt8) :
    parsePayloadLen (b0 :: b1 :: rest) shortLen = parsePayloadLen (b0 :: b1' :: rest) shortLen := by
  -- The parser takes the width of a length from its own argument, not from the second byte.
  simp only [parsePayloadLen, List.drop_succ_cons, List.drop_zero, List.length_cons]

structure Writable (opcode : Opcode) (payloadLen : UInt64) (fin : Bool) : Prop where
  lengthFits : payloadLen.toNat < 2 ^ 63
  controlFits : opcode.isControl = true → fin = true ∧ payloadLen.toNat ≤ kMaxControlPayload

def writtenHeader (opcode : Opcode) (payloadLen : UInt64) (maskKey : UInt32) (fin : Bool) :
    FrameHeader where
  opcode := opcode
  payloadLen := payloadLen.toNat
  maskKey := maskKey
  headerSize := (writeFrameHeader opcode payloadLen maskKey fin).length
  fin := fin
  masked := true

theorem parseFrameHeader_written {opcode : Opcode} {payloadLen : UInt64} {fin : Bool}
    (writable : Writable opcode payloadLen fin) (maskKey : UInt32) (rest : Bytes) :
    parseFrameHeader (writeFrameHeader opcode payloadLen maskKey fin ++ rest) =
      .ok (writtenHeader opcode payloadLen maskKey fin) := by
  obtain ⟨reserved, known, final⟩ := firstByte_reads fin opcode
  obtain ⟨b1, more, spelled, written⟩ := writtenLength_eq payloadLen
  obtain ⟨d1, tail, same, _, length⟩ := lengthBytes_reads (Frame.firstByte fin opcode)
    payloadLen.toNat writable.lengthFits (LittleEndian.encode 4 maskKey.toNat ++ rest)
  obtain ⟨rfl, rfl⟩ := List.cons_eq_cons.mp (same.symm.trans spelled)
  obtain ⟨masked, low⟩ := maskBit_reads d1
  rw [spelled, List.cons_append, parsePayloadLen_second _ _ (0x80 ||| d1), List.length_cons] at length
  have allowed : (opcode.isControl &&
      (!fin || decide (kMaxControlPayload < payloadLen.toNat))) = false := by
    cases control : opcode.isControl with
    | false => rfl
    | true =>
      obtain ⟨whole, short⟩ := writable.controlFits control
      simp [whole, short]
  have key : LittleEndian.load 4 (Frame.firstByte fin opcode :: (0x80 ||| d1) ::
      (tail ++ (LittleEndian.encode 4 maskKey.toNat ++ rest))) (1 + (tail.length + 1)) =
        maskKey.toNat := by
    have placed : (Frame.firstByte fin opcode :: (0x80 ||| d1) ::
        (tail ++ (LittleEndian.encode 4 maskKey.toNat ++ rest))).drop (1 + (tail.length + 1)) =
          LittleEndian.encode 4 maskKey.toNat ++ rest := by
      rw [Nat.add_comm, List.drop_succ_cons, List.drop_succ_cons, List.drop_left]
    exact LittleEndian.load_encode placed maskKey.toNat_lt
  have room : ¬ (Frame.firstByte fin opcode :: (0x80 ||| d1) ::
      (tail ++ (LittleEndian.encode 4 maskKey.toNat ++ rest))).length <
        1 + (tail.length + 1) + 4 := by
    simp only [List.length_cons, List.length_append, LittleEndian.length_encode]
    omega
  have shape : writeFrameHeader opcode payloadLen maskKey fin ++ rest =
      Frame.firstByte fin opcode :: (0x80 ||| d1) ::
        (tail ++ (LittleEndian.encode 4 maskKey.toNat ++ rest)) := by
    simp [writeFrameHeader, written, Frame.firstByte]
  have size : (writeFrameHeader opcode payloadLen maskKey fin).length = 1 + (tail.length + 1) + 4 := by
    simp only [writeFrameHeader, written, List.length_cons, List.length_append,
      LittleEndian.length_encode]
    omega
  rw [shape, parseFrameHeader, if_neg (not_not_intro reserved), known]
  simp only [masked, low, length, allowed, final, key, if_neg room, Bool.false_eq_true, if_false,
    if_true]
  simp [writtenHeader, size]

theorem parsePayloadLen_spelled {b0 b1 : UInt8} {rest : Bytes} {payloadLen pos : Nat}
    (parsed : parsePayloadLen (b0 :: b1 :: rest) (b1 &&& 0x7F) = .ok (payloadLen, pos)) :
    (b1 &&& 0x7F) :: rest.take (pos - 2) = Frame.lengthBytes payloadLen := by
  have bound := shortLen_le b1
  unfold parsePayloadLen at parsed
  split at parsed
  · rename_i short
    simp only [Except.ok.injEq, Prod.mk.injEq] at parsed
    obtain ⟨rfl, rfl⟩ := parsed
    rw [Frame.lengthBytes, if_pos (by simpa [UInt8.lt_iff_toNat_lt] using short)]
    simp
  rename_i long
  split at parsed
  · rename_i two
    split at parsed
    · contradiction
    rename_i room
    simp only [List.drop_succ_cons, List.drop_zero, List.length_cons] at parsed room
    split at parsed
    · contradiction
    simp only [Except.ok.injEq, Prod.mk.injEq] at parsed
    obtain ⟨rfl, rfl⟩ := parsed
    have inside : 2 ≤ rest.length := by omega
    have small := BigEndian.decode_take_lt inside
    rw [Frame.lengthBytes, if_neg (by assumption), if_pos (by omega), two,
      BigEndian.encode_decode_take inside]
  · rename_i eight
    split at parsed
    · contradiction
    rename_i room
    simp only [List.drop_succ_cons, List.drop_zero, List.length_cons] at parsed room
    split at parsed
    · contradiction
    split at parsed
    · contradiction
    rename_i minimal
    simp only [Except.ok.injEq, Prod.mk.injEq] at parsed
    obtain ⟨rfl, rfl⟩ := parsed
    have inside : 8 ≤ rest.length := by omega
    -- Neither short nor 126, so the seven bits are all set.
    have last : b1 &&& 0x7F = 127 := by
      apply UInt8.toNat_inj.mp
      have notShort : ¬ (b1 &&& 0x7F).toNat < 126 := by
        simpa [UInt8.lt_iff_toNat_lt] using long
      have notTwo : (b1 &&& 0x7F).toNat ≠ 126 := fun same => eight (UInt8.toNat_inj.mp same)
      change _ = 127
      omega
    rw [Frame.lengthBytes, if_neg (by omega), if_neg minimal, last,
      BigEndian.encode_decode_take inside]

theorem maskKey_encoded {buf : Bytes} {pos : Nat} (room : pos + 4 ≤ buf.length) :
    LittleEndian.encode 4 (UInt32.ofNat (LittleEndian.load 4 buf pos)).toNat =
      (buf.drop pos).take 4 := by
  have taken : ((buf.drop pos).take 4).length = 4 := by
    rw [List.length_take, List.length_drop]
    omega
  have small := LittleEndian.decode_lt ((buf.drop pos).take 4)
  have restored := LittleEndian.encode_decode ((buf.drop pos).take 4)
  rw [taken] at small restored
  have small : LittleEndian.decode ((buf.drop pos).take 4) < 2 ^ 32 := small
  rw [LittleEndian.load, UInt32.toNat_ofNat', Nat.mod_eq_of_lt small, restored]

theorem written_of_parsed {buf : Bytes} {header : FrameHeader}
    (parsed : parseFrameHeader buf = .ok header) (masked : header.masked = true) :
    buf.take header.headerSize = writeFrameHeader header.opcode (UInt64.ofNat header.payloadLen)
      header.maskKey header.fin := by
  have fits := (parseFrameHeader_room parsed).2.2
  obtain ⟨b0, b1, rest, pos, read⟩ := parseFrameHeader_ok parsed
  obtain ⟨room, maskKey, size⟩ := read.key masked
  obtain ⟨low, _, _, _⟩ := parsePayloadLen_room read.length
  obtain ⟨d1, more, spelled, written⟩ := writtenLength_eq (UInt64.ofNat header.payloadLen)
  have value : (UInt64.ofNat header.payloadLen).toNat = header.payloadLen := by
    rw [UInt64.toNat_ofNat']
    exact Nat.mod_eq_of_lt (by omega)
  -- The parser takes the shortest field only, and that is the one written.
  have field := parsePayloadLen_spelled (read.shape ▸ read.length)
  rw [← value, spelled] at field
  obtain ⟨rfl, rfl⟩ := List.cons_eq_cons.mp field
  have first := firstByte_restores b0 read.reserved header.opcode read.opcode
  rw [read.fin] at first
  have key := maskKey_encoded room
  have bit := read.masked.trans masked
  rw [writeFrameHeader, written, maskKey, key, maskBit_restores b1 bit, size]
  change _ = Frame.firstByte _ _ :: _
  rw [first, read.shape]
  obtain ⟨start, rfl⟩ : ∃ start, pos = start + 2 := ⟨pos - 2, by omega⟩
  have length : start + 2 + 4 = (start + 4) + 2 := by omega
  rw [List.drop_succ_cons, List.drop_succ_cons, length, List.take_succ_cons,
    List.take_succ_cons, List.take_add, List.cons_append, Nat.add_sub_cancel]

theorem parseFrameHeader_cut {buf : Bytes} {header : FrameHeader}
    (parsed : parseFrameHeader buf = .ok header) (cut : Nat) (short : cut < header.headerSize) :
    parseFrameHeader (buf.take cut) = .incomplete := by
  by_contra verdict
  have whole : parseFrameHeader (buf.take cut ++ buf.drop cut) = parseFrameHeader (buf.take cut) :=
    parseFrameHeader_more verdict
  rw [List.take_append_drop, parsed] at whole
  have room := (parseFrameHeader_room whole.symm).2.1
  rw [List.length_take] at room
  omega

/-- A masked header and its fields determine each other, and a verdict is reached when the last byte
of the header is there and stands whatever follows. -/
theorem frameHeader_round_trip :
    (∀ (opcode : Opcode) (fin : Bool) (maskKey : UInt32) (payloadLen : UInt64),
      payloadLen.toNat < 2 ^ 63 →
      (opcode.isControl = true → fin = true ∧ payloadLen.toNat ≤ kMaxControlPayload) →
      parseFrameHeader (writeFrameHeader opcode payloadLen maskKey fin) =
        .ok ⟨opcode, payloadLen.toNat, maskKey,
          (writeFrameHeader opcode payloadLen maskKey fin).length, fin, true⟩) ∧
    (∀ (buf : Bytes) (header : FrameHeader), parseFrameHeader buf = .ok header →
      header.masked = true →
      buf.take header.headerSize = writeFrameHeader header.opcode (UInt64.ofNat header.payloadLen)
        header.maskKey header.fin) ∧
    (∀ buf more : Bytes, parseFrameHeader buf ≠ .incomplete →
      parseFrameHeader (buf ++ more) = parseFrameHeader buf) ∧
    ∀ (buf : Bytes) (header : FrameHeader), parseFrameHeader buf = .ok header →
      ∀ cut < header.headerSize, parseFrameHeader (buf.take cut) = .incomplete := by
  refine ⟨?_, ?_, ?_, ?_⟩
  · intro opcode fin maskKey payloadLen lengthFits controlFits
    have parsed := parseFrameHeader_written ⟨lengthFits, controlFits⟩ maskKey []
    rwa [List.append_nil] at parsed
  · exact fun buf header parsed masked => written_of_parsed parsed masked
  · exact fun buf more verdict => parseFrameHeader_more verdict
  · exact fun buf header parsed cut short => parseFrameHeader_cut parsed cut short

theorem frameHeader_round_trip_ping :
    parseFrameHeader (writeFrameHeader .ping 125 0xA1B2C3D4 true) =
      .ok ⟨.ping, 125, 0xA1B2C3D4, 6, true, true⟩ :=
  frameHeader_round_trip.1 .ping true 0xA1B2C3D4 125 (by decide) (by decide)

def keyBytes (maskKey : UInt32) : Bytes := LittleEndian.encode 4 maskKey.toNat

def applyMask (data : Bytes) (maskKey : UInt32) (offset : Nat) : Bytes :=
  if maskKey = 0 then data
  else data.mapIdx fun i byte => byte ^^^ (keyBytes maskKey).getD ((i + offset) % 4) 0

@[simp] theorem length_applyMask (data : Bytes) (maskKey : UInt32) (offset : Nat) :
    (applyMask data maskKey offset).length = data.length := by
  unfold applyMask
  split <;> simp

theorem applyMask_applyMask (data : Bytes) (maskKey : UInt32) (offset : Nat) :
    applyMask (applyMask data maskKey offset) maskKey offset = data := by
  unfold applyMask
  split
  · rfl
  · apply List.ext_getElem
    · simp
    · intro i _ _
      simp

theorem applyMask_append (front back : Bytes) (maskKey : UInt32) (offset : Nat) :
    applyMask (front ++ back) maskKey offset =
      applyMask front maskKey offset ++ applyMask back maskKey (front.length + offset) := by
  unfold applyMask
  split
  · rfl
  · rw [List.mapIdx_append]
    congr 1
    simp only [Nat.add_assoc]

end Net

end Crossbook
