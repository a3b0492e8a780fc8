import Crossbook.Net.Frame

set_option autoImplicit false

namespace Crossbook

namespace Net

def kNoStatus : UInt16 := 1005

inductive ReadStatus where
  | needMore
  | message
  | ping
  | pong
  | close
  | protocolError
  | messageTooLarge
  deriving DecidableEq, Repr

def ReadStatus.isFailure (status : ReadStatus) : Bool :=
  status == .protocolError || status == .messageTooLarge

structure Event where
  opcode : Opcode
  payload : Bytes
  closeCode : UInt16
  deriving DecidableEq, Repr

structure Report where
  status : ReadStatus
  event : Option Event
  deriving DecidableEq, Repr

structure FrameReader where
  maxMessageBytes : Nat
  buf : Bytes
  assembled : Bytes
  control : Bytes
  readPos : Nat
  pendingConsume : Nat
  failure : ReadStatus
  messageOpcode : Opcode
  pendingClearAssembled : Bool
  assembling : Bool
  deriving DecidableEq, Repr

namespace FrameReader

def kCompactThreshold : Nat := 32 * 1024

def fresh (maxMessageBytes : Nat) : FrameReader where
  maxMessageBytes := maxMessageBytes
  buf := []
  assembled := []
  control := []
  readPos := 0
  pendingConsume := 0
  failure := .needMore
  messageOpcode := .text
  pendingClearAssembled := false
  assembling := false

variable (reader : FrameReader)

def failed : Bool := reader.failure != .needMore

def buffered : Nat := reader.buf.length - reader.readPos

def reset : FrameReader :=
  { reader with
    buf := []
    assembled := []
    readPos := 0
    pendingConsume := 0
    pendingClearAssembled := false
    assembling := false
    failure := .needMore }

def consumePending : FrameReader :=
  { reader with
    readPos := reader.readPos + reader.pendingConsume
    pendingConsume := 0
    assembled := if reader.pendingClearAssembled then [] else reader.assembled
    pendingClearAssembled := false }

def compact : FrameReader :=
  let reader := reader.consumePending
  if reader.readPos = 0 then reader
  else if reader.readPos = reader.buf.length then { reader with buf := [], readPos := 0 }
  else if reader.readPos < kCompactThreshold then reader
  else { reader with buf := reader.buf.drop reader.readPos, readPos := 0 }

def append (data : Bytes) : FrameReader :=
  let reader := reader.compact
  { reader with buf := reader.buf ++ data }

/-- Room for bytes whose content is not yet determined. -/
def writableTail (undetermined : Bytes) : FrameReader :=
  let reader := reader.compact
  { reader with buf := reader.buf ++ undetermined }

/-- The caller fills the front of the last `requested` bytes. -/
def fillTail (requested : Nat) (data : Bytes) : FrameReader :=
  let old := reader.buf.length - requested
  { reader with buf := reader.buf.take old ++ data ++ reader.buf.drop (old + data.length) }

def commit (written requested : Nat) : FrameReader :=
  { reader with buf := reader.buf.take (reader.buf.length - (requested - written)) }

def latch (status : ReadStatus) : FrameReader × Report :=
  ({ reader with failure := status }, ⟨status, none⟩)

def emitControl (opcode : Opcode) (payload : Bytes) : FrameReader × Report :=
  let reader := { reader with control := payload }
  let event : Event := ⟨opcode, reader.control, kNoStatus⟩
  if opcode = .ping then (reader, ⟨.ping, some event⟩)
  else if opcode = .pong then (reader, ⟨.pong, some event⟩)
  else
    match payload with
    | [] => (reader, ⟨.close, some event⟩)
    -- The one failure that is not latched.
    | [_] => (reader, ⟨.protocolError, some event⟩)
    | high :: low :: _ =>
      (reader, ⟨.close, some ⟨opcode, reader.control.drop 2, high.toUInt16 <<< 8 ||| low.toUInt16⟩⟩)

/-- One pass of the loop in `next`; without a report the loop goes round. -/
def nextFrame : FrameReader × Option Report :=
  let reported := fun (result : FrameReader × Report) => (result.1, some result.2)
  let view := reader.buf.drop reader.readPos
  match parseFrameHeader view with
  | .incomplete => (reader, some ⟨.needMore, none⟩)
  | .protocolError => reported (reader.latch .protocolError)
  | .ok header =>
    -- A server masks nothing.
    if header.masked then reported (reader.latch .protocolError)
    else if reader.maxMessageBytes < header.payloadLen ∨
        reader.maxMessageBytes < reader.assembled.length + header.payloadLen then
      reported (reader.latch .messageTooLarge)
    else
      let frameTotal := header.headerSize + header.payloadLen
      if view.length < frameTotal then (reader, some ⟨.needMore, none⟩)
      else
        let payload := (view.drop header.headerSize).take header.payloadLen
        if header.opcode.isControl then
          reported (emitControl { reader with readPos := reader.readPos + frameTotal }
            header.opcode payload)
        else if header.opcode = .continuation ∧ reader.assembling = false then
          reported (reader.latch .protocolError)
        else if header.opcode ≠ .continuation ∧ reader.assembling = true then
          reported (reader.latch .protocolError)
        else
          let opcode :=
            if header.opcode = .continuation then reader.messageOpcode else header.opcode
          let reader := { reader with messageOpcode := opcode }
          -- A message of one frame is handed out where it lies, and passed by the next call.
          if header.fin && !reader.assembling then
            ({ reader with pendingConsume := frameTotal },
              some ⟨.message, some ⟨opcode, payload, kNoStatus⟩⟩)
          else
            let joined :=
              { reader with
                assembled := reader.assembled ++ payload
                assembling := true
                readPos := reader.readPos + frameTotal }
            if header.fin then
              ({ joined with assembling := false, pendingClearAssembled := true },
                some ⟨.message, some ⟨opcode, joined.assembled, kNoStatus⟩⟩)
            else (joined, none)

section Steps

variable (header : FrameHeader)

structure Ready : Prop where
  parsed : parseFrameHeader (reader.buf.drop reader.readPos) = .ok header
  unmasked : header.masked = false
  fits : ¬ (reader.maxMessageBytes < header.payloadLen ∨
    reader.maxMessageBytes < reader.assembled.length + header.payloadLen)
  complete : ¬ (reader.buf.drop reader.readPos).length < header.headerSize + header.payloadLen

def payloadAt : Bytes :=
  ((reader.buf.drop reader.readPos).drop header.headerSize).take header.payloadLen

def opcodeAt : Opcode :=
  if header.opcode = .continuation then reader.messageOpcode else header.opcode

def gather : FrameReader :=
  { reader with
    messageOpcode := reader.opcodeAt header
    assembled := reader.assembled ++ reader.payloadAt header
    assembling := true
    readPos := reader.readPos + (header.headerSize + header.payloadLen) }

/-- All that a pass of the loop can do. -/
inductive FrameStep : FrameReader × Option Report → Prop
  | waits
      (waiting : parseFrameHeader (reader.buf.drop reader.readPos) = .incomplete ∨
        ∃ header, parseFrameHeader (reader.buf.drop reader.readPos) = .ok header ∧
          header.masked = false ∧
          ¬ (reader.maxMessageBytes < header.payloadLen ∨
            reader.maxMessageBytes < reader.assembled.length + header.payloadLen) ∧
          (reader.buf.drop reader.readPos).length < header.headerSize + header.payloadLen) :
      FrameStep (reader, some ⟨.needMore, none⟩)
  | malformed (parsed : parseFrameHeader (reader.buf.drop reader.readPos) = .protocolError) :
      FrameStep ({ reader with failure := .protocolError }, some ⟨.protocolError, none⟩)
  | masked {header : FrameHeader}
      (parsed : parseFrameHeader (reader.buf.drop reader.readPos) = .ok header)
      (masked : header.masked = true) :
      FrameStep ({ reader with failure := .protocolError }, some ⟨.protocolError, none⟩)
  | tooLarge {header : FrameHeader}
      (parsed : parseFrameHeader (reader.buf.drop reader.readPos) = .ok header)
      (unmasked : header.masked = false)
      (large : reader.maxMessageBytes < header.payloadLen ∨
        reader.maxMessageBytes < reader.assembled.length + header.payloadLen) :
      FrameStep ({ reader with failure := .messageTooLarge }, some ⟨.messageTooLarge, none⟩)
  | control {header : FrameHeader} (ready : reader.Ready header)
      (control : header.opcode.isControl = true) {after : FrameReader} {report : Report}
      (emitted : emitControl
        { reader with readPos := reader.readPos + (header.headerSize + header.payloadLen) }
        header.opcode (reader.payloadAt header) = (after, report)) :
      FrameStep (after, some report)
  | misplaced {header : FrameHeader} (ready : reader.Ready header)
      (data : header.opcode.isControl = false)
      (misplaced : header.opcode = .continuation ↔ reader.assembling = false) :
      FrameStep ({ reader with failure := .protocolError }, some ⟨.protocolError, none⟩)
  | whole {header : FrameHeader} (ready : reader.Ready header)
      (data : header.opcode.isControl = false)
      (placed : ¬ (header.opcode = .continuation ↔ reader.assembling = false))
      (fin : header.fin = true) (alone : reader.assembling = false) :
      FrameStep
        ({ reader with
            messageOpcode := reader.opcodeAt header
            pendingConsume := header.headerSize + header.payloadLen },
          some ⟨.message, some ⟨reader.opcodeAt header, reader.payloadAt header, kNoStatus⟩⟩)
  | last {header : FrameHeader} (ready : reader.Ready header)
      (data : header.opcode.isControl = false)
      (placed : ¬ (header.opcode = .continuation ↔ reader.assembling = false))
      (fin : header.fin = true) (joins : reader.assembling = true) :
      FrameStep
        ({ reader.gather header with assembling := false, pendingClearAssembled := true },
          some ⟨.message, some ⟨reader.opcodeAt header, (reader.gather header).assembled, kNoStatus⟩⟩)
  | part {header : FrameHeader} (ready : reader.Ready header)
      (data : header.opcode.isControl = false)
      (placed : ¬ (header.opcode = .continuation ↔ reader.assembling = false))
      (fin : header.fin = false) : FrameStep (reader.gather header, none)

end Steps

theorem nextFrame_step : reader.FrameStep reader.nextFrame := by
  unfold nextFrame
  dsimp only
  cases parsed : parseFrameHeader (reader.buf.drop reader.readPos) with
  | incomplete => exact .waits (.inl parsed)
  | protocolError => exact .malformed parsed
  | ok header =>
    dsimp only
    split
    · rename_i masked
      exact .masked parsed masked
    rename_i unmasked
    rw [Bool.not_eq_true] at unmasked
    split
    · rename_i large
      exact .tooLarge parsed unmasked large
    rename_i fits
    split
    · rename_i short
      exact .waits (.inr ⟨header, parsed, unmasked, fits, short⟩)
    rename_i complete
    have ready : reader.Ready header := ⟨parsed, unmasked, fits, complete⟩
    split
    · rename_i control
      exact .control ready control rfl
    rename_i data
    rw [Bool.not_eq_true] at data
    split
    · rename_i orphan
      exact .misplaced ready data (iff_of_true orphan.1 orphan.2)
    rename_i continued
    split
    · rename_i interleaved
      exact .misplaced ready data (iff_of_false interleaved.1 (by simp [interleaved.2]))
    rename_i separate
    -- What is left starts a message or continues the one being gathered.
    have placed : ¬ (header.opcode = .continuation ↔ reader.assembling = false) := by
      cases assembling : reader.assembling <;> simp_all
    by_cases fin : header.fin = true
    · by_cases alone : reader.assembling = false
      · rw [if_pos (by simp [fin, alone])]
        exact .whole ready data placed fin alone
      · rw [if_neg (by simpa [fin] using alone), if_pos fin]
        exact .last ready data placed fin (by simpa using alone)
    · rw [if_neg (by simp [fin]), if_neg fin]
      exact .part ready data placed (by simpa using fin)

theorem nextFrame_again {reader again : FrameReader} (goes : reader.nextFrame = (again, none)) :
    again.buffered < reader.buffered := by
  have step := reader.nextFrame_step
  rw [goes] at step
  cases step with
  | part ready _ _ _ =>
    rename_i header
    obtain ⟨low, -, -⟩ := parseFrameHeader_room ready.parsed
    have complete := ready.complete
    rw [List.length_drop] at complete
    simp only [buffered, gather]
    omega

def nextFrames (reader : FrameReader) : FrameReader × Report :=
  match _goes : reader.nextFrame with
  | (stopped, some report) => (stopped, report)
  | (again, none) => nextFrames again
  termination_by reader.buffered
  decreasing_by exact nextFrame_again _goes

def next : FrameReader × Report :=
  if reader.failure ≠ .needMore then (reader, ⟨reader.failure, none⟩)
  else reader.consumePending.nextFrames

end FrameReader

end Net

end Crossbook
