import Crossbook.Net.FrameReader

set_option autoImplicit false

namespace Crossbook

namespace Net

structure Assembly where
  gathered : Bytes
  opcode : Opcode
  assembling : Bool
  deriving DecidableEq, Repr

namespace Assembly

def start : Assembly := ⟨[], .text, false⟩

def controlReport (opcode : Opcode) (payload : Bytes) : Report :=
  if opcode = .ping then ⟨.ping, some ⟨opcode, payload, kNoStatus⟩⟩
  else if opcode = .pong then ⟨.pong, some ⟨opcode, payload, kNoStatus⟩⟩
  else
    match payload with
    | [] => ⟨.close, some ⟨opcode, [], kNoStatus⟩⟩
    | [code] => ⟨.protocolError, some ⟨opcode, [code], kNoStatus⟩⟩
    | high :: low :: reason =>
      ⟨.close, some ⟨opcode, reason, high.toUInt16 <<< 8 ||| low.toUInt16⟩⟩

def receive (assembly : Assembly) (opcode : Opcode) (fin : Bool) (payload : Bytes) :
    Assembly × Option Report :=
  if opcode.isControl then (assembly, some (controlReport opcode payload))
  else if (opcode = .continuation) ↔ (assembly.assembling = false) then
    (assembly, some ⟨.protocolError, none⟩)
  else
    let opcode := if opcode = .continuation then assembly.opcode else opcode
    let whole := if assembly.assembling then assembly.gathered ++ payload else payload
    if fin then (⟨[], opcode, false⟩, some ⟨.message, some ⟨opcode, whole, kNoStatus⟩⟩)
    else (⟨assembly.gathered ++ payload, opcode, true⟩, none)

end Assembly

structure Pass where
  assembly : Assembly
  rest : Bytes
  report : Option Report
  deriving DecidableEq, Repr

section Stream

variable (maxMessageBytes : Nat)

def tooLarge (assembly : Assembly) (payloadLen : Nat) : Prop :=
  maxMessageBytes < payloadLen ∨ maxMessageBytes < assembly.gathered.length + payloadLen

instance (assembly : Assembly) (payloadLen : Nat) :
    Decidable (tooLarge maxMessageBytes assembly payloadLen) :=
  inferInstanceAs (Decidable (_ ∨ _))

/-- What the first frame of a stream does, once enough of it is there to tell. -/
def pass (assembly : Assembly) (stream : Bytes) : Option Pass :=
  match parseFrameHeader stream with
  | .incomplete => none
  | .protocolError => some ⟨assembly, stream, some ⟨.protocolError, none⟩⟩
  | .ok header =>
    if header.masked then some ⟨assembly, stream, some ⟨.protocolError, none⟩⟩
    else if tooLarge maxMessageBytes assembly header.payloadLen then
      some ⟨assembly, stream, some ⟨.messageTooLarge, none⟩⟩
    else if stream.length < header.headerSize + header.payloadLen then none
    else
      let received := assembly.receive header.opcode header.fin
        ((stream.drop header.headerSize).take header.payloadLen)
      some ⟨received.1, stream.drop (header.headerSize + header.payloadLen), received.2⟩

variable {maxMessageBytes} {assembly : Assembly} {stream : Bytes}

theorem pass_more {step : Pass} (passed : pass maxMessageBytes assembly stream = some step)
    (more : Bytes) :
    pass maxMessageBytes assembly (stream ++ more) = some { step with rest := step.rest ++ more } := by
  unfold pass at passed ⊢
  rw [parseFrameHeader_more (by intro incomplete; simp [incomplete] at passed)]
  split at passed
  · contradiction
  · obtain rfl := Option.some.inj passed
    rfl
  rename_i header parsed
  obtain ⟨_, inside, _⟩ := parseFrameHeader_room parsed
  split at passed
  · rename_i masked
    obtain rfl := Option.some.inj passed
    rw [if_pos masked]
  rename_i unmasked
  split at passed
  · rename_i large
    obtain rfl := Option.some.inj passed
    rw [if_neg unmasked, if_pos large]
  rename_i fits
  split at passed
  · contradiction
  rename_i complete
  obtain rfl := Option.some.inj passed
  rw [if_neg unmasked, if_neg fits, if_neg (by rw [List.length_append]; omega),
    take_drop_more (by omega), List.drop_append_of_le_length (by omega)]

theorem pass_shorter {step : Pass} (passed : pass maxMessageBytes assembly stream = some step)
    (goes : ∀ report, step.report = some report → report.status.isFailure = false) :
    step.rest.length < stream.length := by
  unfold pass at passed
  split at passed
  · contradiction
  · obtain rfl := Option.some.inj passed
    simp [ReadStatus.isFailure] at goes
  rename_i header parsed
  obtain ⟨low, _, _⟩ := parseFrameHeader_room parsed
  split at passed
  · obtain rfl := Option.some.inj passed
    simp [ReadStatus.isFailure] at goes
  split at passed
  · obtain rfl := Option.some.inj passed
    simp [ReadStatus.isFailure] at goes
  split at passed
  · contradiction
  obtain rfl := Option.some.inj passed
  rw [List.length_drop]
  omega

variable (maxMessageBytes)

/-- Everything there is to report about a stream, up to the first failure. -/
def reports (assembly : Assembly) (stream : Bytes) : List Report :=
  match _passed : pass maxMessageBytes assembly stream with
  | none => []
  | some ⟨assembly, rest, none⟩ => reports assembly rest
  | some ⟨assembly, rest, some report⟩ =>
    if _failed : report.status.isFailure = true then [report] else report :: reports assembly rest
  termination_by stream.length
  decreasing_by
    · exact pass_shorter _passed (by simp)
    · exact pass_shorter _passed (by simpa using _failed)

variable {maxMessageBytes}

theorem reports_wait (waits : pass maxMessageBytes assembly stream = none) :
    reports maxMessageBytes assembly stream = [] := by
  rw [reports]
  split
  · rfl
  all_goals simp_all

theorem reports_pass {step : Pass} (passed : pass maxMessageBytes assembly stream = some step) :
    reports maxMessageBytes assembly stream =
      match step.report with
      | none => reports maxMessageBytes step.assembly step.rest
      | some report =>
        if report.status.isFailure = true then [report]
        else report :: reports maxMessageBytes step.assembly step.rest := by
  rw [reports]
  split
  · simp_all
  · rename_i found
    obtain rfl := Option.some.inj (passed.symm.trans found)
    rfl
  · rename_i found
    obtain rfl := Option.some.inj (passed.symm.trans found)
    simp

end Stream

end Net

end Crossbook
