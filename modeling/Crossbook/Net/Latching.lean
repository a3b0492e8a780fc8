import Crossbook.Net.Segmentation

set_option autoImplicit false

namespace Crossbook

namespace Net

open FrameReader

/-- A close frame whose payload is a single byte, which no status code is. -/
def ShortClose (limit : Nat) (assembly : Assembly) (stream : Bytes) : Prop :=
  ¬ tooLarge limit assembly 1 ∧ ∃ code rest, stream = 0x88 :: 0x01 :: code :: rest

/-- Behind the fragments that a call goes over there is a close frame of a single byte. -/
inductive MeetsShortClose (limit : Nat) : Assembly → Bytes → Prop
  | here {assembly : Assembly} {stream : Bytes} (short : ShortClose limit assembly stream) :
      MeetsShortClose limit assembly stream
  | later {assembly after : Assembly} {stream rest : Bytes}
      (passed : pass limit assembly stream = some ⟨after, rest, none⟩)
      (meets : MeetsShortClose limit after rest) : MeetsShortClose limit assembly stream

inductive Op where
  | call (call : Call)
  | reset

/-- Until it is reset the reader stays failed, and every call to `next` says so. -/
def Stays (status : ReadStatus) : FrameReader → List Op → Prop
  | reader, [] => reader.failed = true
  | reader, .reset :: _ => reader.failed = true
  | reader, .call call :: ops =>
    reader.failed = true ∧ (∀ report ∈ (reader.call call).2, report.status = status) ∧
      Stays status (reader.call call).1 ops

def Latches : FrameReader → List Op → Prop
  | _, [] => True
  | reader, .reset :: ops => Latches reader.reset ops
  | reader, .call call :: ops =>
    (∀ report ∈ (reader.call call).2, report.status.isFailure = true →
      Stays report.status (reader.call call).1 ops) ∧ Latches (reader.call call).1 ops

def AvoidsShortClose : FrameReader → List Op → Prop
  | _, [] => True
  | reader, .reset :: ops => AvoidsShortClose reader.reset ops
  | reader, .call call :: ops =>
    (call = .next → reader.failed = false →
      ¬ MeetsShortClose reader.maxMessageBytes reader.assembly reader.unread) ∧
      AvoidsShortClose (reader.call call).1 ops

section Headers

theorem closeByte (b0 : UInt8) (reserved : b0 &&& 0x70 = 0)
    (close : Opcode.known (b0 &&& 0x0F) = some .close) (fin : (b0 &&& 0x80 != 0) = true) :
    b0 = 0x88 := by
  revert b0
  exact MachineInt.byte_forall (by decide +kernel)

theorem oneByte (b1 : UInt8) (unmasked : (b1 &&& 0x80 != 0) = false)
    (one : (b1 &&& 0x7F).toNat = 1) : b1 = 0x01 := by
  revert b1
  exact MachineInt.byte_forall (by decide +kernel)

theorem parse_shortClose (rest : Bytes) :
    parseFrameHeader (0x88 :: 0x01 :: rest) = .ok ⟨.close, 1, 0, 2, true, false⟩ := rfl

theorem parse_close {stream : Bytes} {header : FrameHeader}
    (parsed : parseFrameHeader stream = .ok header) (close : header.opcode = .close)
    (unmasked : header.masked = false) (one : header.payloadLen = 1) :
    ∃ rest, stream = 0x88 :: 0x01 :: rest := by
  obtain ⟨b0, b1, rest, pos, read⟩ := parseFrameHeader_ok parsed
  have known := read.opcode
  rw [close] at known
  -- Final, unmasked and minimal, such a header has only one spelling.
  have final : (b0 &&& 0x80 != 0) = true := by
    rw [read.fin]
    by_contra fragment
    rw [Bool.not_eq_true] at fragment
    exact read.allowed (by rw [close, fragment]; rfl)
  have short : (b1 &&& 0x7F).toNat = 1 := by
    have length := read.length
    rw [one] at length
    unfold parsePayloadLen at length
    dsimp only at length
    split at length
    · exact (Prod.mk.inj (Except.ok.inj length)).1
    -- The longer fields may not spell so small a length.
    split at length <;> split at length
    · contradiction
    · split at length
      · contradiction
      · have value := (Prod.mk.inj (Except.ok.inj length)).1
        omega
    · contradiction
    · split at length
      · contradiction
      split at length
      · contradiction
      · have value := (Prod.mk.inj (Except.ok.inj length)).1
        omega
  have plain := read.masked.trans unmasked
  rw [read.shape, closeByte b0 read.reserved known final, oneByte b1 plain short]
  exact ⟨rest, rfl⟩

end Headers

section Passes

variable {reader : FrameReader}

theorem controlReport_fails {opcode : Opcode} {payload : Bytes} (control : opcode.isControl = true)
    (failed : (Assembly.controlReport opcode payload).status.isFailure = true) :
    opcode = .close ∧ ∃ code, payload = [code] := by
  unfold Assembly.controlReport at failed
  split at failed
  · contradiction
  rename_i notPing
  split at failed
  · contradiction
  rename_i notPong
  refine ⟨by cases opcode <;> first | rfl | contradiction, ?_⟩
  rcases payload with _ | ⟨code, _ | ⟨low, rest⟩⟩
  · contradiction
  · exact ⟨code, rfl⟩
  · contradiction

theorem shortClose_of_control {header : FrameHeader} (ready : reader.Ready header)
    (control : header.opcode.isControl = true)
    (failed : (Assembly.controlReport header.opcode (reader.payloadAt header)).status.isFailure =
      true) :
    ShortClose reader.maxMessageBytes ⟨reader.assembled, reader.messageOpcode, reader.assembling⟩
      (reader.buf.drop reader.readPos) := by
  -- A control frame fails only as a close frame of a single byte.
  obtain ⟨parsed, unmasked, fits, complete⟩ := ready
  obtain ⟨close, code, payload⟩ := controlReport_fails control failed
  have one : header.payloadLen = 1 := by
    have length := congrArg List.length payload
    rw [payloadAt, List.length_take, List.length_drop, List.length_singleton] at length
    omega
  obtain ⟨rest, whole⟩ := parse_close parsed close unmasked one
  rw [whole, parse_shortClose] at parsed
  obtain rfl := FrameStatus.ok.inj parsed
  rw [whole] at complete
  have some_ : 0 < rest.length := by
    simp only [List.length_cons] at complete
    omega
  obtain ⟨code, behind, rfl⟩ := List.exists_cons_of_length_pos some_
  exact ⟨fits, code, behind, whole⟩

theorem nextFrame_latch (settled : reader.Settled) {report : Report}
    (reported : reader.nextFrame.2 = some report) (failed : report.status.isFailure = true) :
    reader.nextFrame.1.failure = report.status ∨
      ShortClose reader.maxMessageBytes reader.assembly reader.unread := by
  -- A failure is latched, but for the one that a close frame of a single byte is.
  rw [settled.unread, settled.assembly]
  have taken := reader.nextFrame_step
  generalize reader.nextFrame = result at taken reported ⊢
  cases taken with
  | waits =>
    obtain rfl := Option.some.inj reported
    contradiction
  | malformed | masked | tooLarge | misplaced =>
    obtain rfl := Option.some.inj reported
    exact .inl rfl
  | control ready control emitted =>
    obtain rfl := Option.some.inj reported
    obtain rfl := (congrArg Prod.snd emitted).symm.trans (emitControl_report _ _ _)
    exact .inr (shortClose_of_control ready control failed)
  | whole | last =>
    obtain rfl := Option.some.inj reported
    contradiction
  | part => contradiction

theorem nextFrame_shortClose (settled : reader.Settled)
    (short : ShortClose reader.maxMessageBytes reader.assembly reader.unread) :
    ∃ report, reader.nextFrame.2 = some report ∧ report.status = .protocolError ∧
      reader.nextFrame.1.failure = reader.failure := by
  rw [settled.unread, settled.assembly] at short
  obtain ⟨fits, code, rest, whole⟩ := short
  unfold nextFrame
  dsimp only
  rw [whole, parse_shortClose]
  dsimp only
  rw [if_neg (by decide), if_neg (by exact fits), if_neg (by simp), if_pos (by rfl)]
  exact ⟨_, rfl, rfl, rfl⟩

theorem nextFrames_latch (sound : reader.Sound) (settled : reader.Settled)
    (live : reader.failure = .needMore) :
    (MeetsShortClose reader.maxMessageBytes reader.assembly reader.unread →
      reader.nextFrames.2.status = .protocolError ∧ reader.nextFrames.1.failure = .needMore) ∧
    (¬ MeetsShortClose reader.maxMessageBytes reader.assembly reader.unread →
      reader.nextFrames.2.status.isFailure = true →
        reader.nextFrames.1.failure = reader.nextFrames.2.status) := by
  fun_induction nextFrames reader with
  | case1 reader stopped report stops =>
    constructor
    · intro meets
      cases meets with
      | here short =>
        obtain ⟨found, same, status, failure⟩ := nextFrame_shortClose settled short
        rw [stops] at same failure
        obtain rfl := Option.some.inj same
        exact ⟨status, failure.trans live⟩
      | later passed meets =>
        -- A report ends the loop, so this frame did not let it go on.
        have reported := (nextFrame_pass sound settled passed).1
        rw [stops] at reported
        contradiction
    · intro avoids failed
      have latched :=
        nextFrame_latch settled (show reader.nextFrame.2 = some report by rw [stops]) failed
      rw [stops] at latched
      exact latched.resolve_right fun short => avoids (.here short)
  | case2 reader again goes ih =>
    cases passed : pass reader.maxMessageBytes reader.assembly reader.unread with
    | none =>
      have stops := goes.symm.trans (nextFrame_wait settled passed)
      simp at stops
    | some step =>
      obtain ⟨reported, reached⟩ := nextFrame_pass sound settled passed
      rw [goes] at reported reached
      have reached := reached (by simp [← reported])
      have later := ih reached.sound (reached.settled reported.symm) (reached.failure.trans live)
      rw [reached.maxMessageBytes, reached.assembly, reached.unread] at later
      have through : pass reader.maxMessageBytes reader.assembly reader.unread =
          some ⟨step.assembly, step.rest, none⟩ := by
        rw [passed]
        exact congrArg some (by rw [show none = step.report from reported])
      constructor
      · intro meets
        cases meets with
        | here short =>
          -- A short close is reported, and this frame was not.
          obtain ⟨found, same, _⟩ := nextFrame_shortClose settled short
          rw [goes] at same
          contradiction
        | later other meets =>
          obtain ⟨rfl, rfl, -⟩ := Pass.mk.inj (Option.some.inj (through.symm.trans other))
          exact later.1 meets
      · intro avoids failed
        exact later.2 (fun meets => avoids (.later through meets)) failed

end Passes

section Runs

variable {reader : FrameReader}

theorem next_latch (sound : reader.Sound) (live : reader.failure = .needMore) :
    (MeetsShortClose reader.maxMessageBytes reader.assembly reader.unread →
      reader.next.2.status = .protocolError ∧ reader.next.1.failure = .needMore) ∧
    (¬ MeetsShortClose reader.maxMessageBytes reader.assembly reader.unread →
      reader.next.2.status.isFailure = true → reader.next.1.failure = reader.next.2.status) := by
  have same := consumePending_same sound
  have latched := nextFrames_latch same.sound (consumePending_settled reader)
    (same.failure.trans live)
  rw [same.maxMessageBytes, same.assembly, same.unread] at latched
  rwa [next, if_neg (by simp [live])]

def Good (reader : FrameReader) : Prop := reader.failure = .needMore → reader.Sound

theorem call_failed (failed : reader.failure ≠ .needMore) (call : Call) :
    (reader.call call).1.failure = reader.failure ∧
      ∀ report ∈ (reader.call call).2, report.status = reader.failure := by
  have compacted : reader.compact.failure = reader.failure := by
    unfold compact
    dsimp only
    split
    · rfl
    split
    · rfl
    split <;> rfl
  cases call with
  | append data => exact ⟨compacted, by simp [FrameReader.call]⟩
  | read undetermined data fits => exact ⟨compacted, by simp [FrameReader.call]⟩
  | next => simp [FrameReader.call, next, failed]

theorem stays_failed (failed : reader.failure ≠ .needMore) (ops : List Op) :
    Stays reader.failure reader ops := by
  have told : reader.failed = true := by simpa [FrameReader.failed] using failed
  induction ops generalizing reader with
  | nil => exact told
  | cons op ops ih =>
    cases op with
    | reset => exact told
    | call call =>
      obtain ⟨same, reports⟩ := call_failed failed call
      refine ⟨told, reports, ?_⟩
      rw [← same]
      exact ih (by rwa [same]) (by simpa [FrameReader.failed, same] using failed)

theorem Stays.failed {status : ReadStatus} {ops : List Op} (stays : Stays status reader ops) :
    reader.failed = true := by
  match ops with
  | [] => exact stays
  | .reset :: _ => exact stays
  | .call _ :: _ => exact stays.1

theorem latches_of_failed (failed : reader.failure ≠ .needMore) (call : Call) :
    ∀ report ∈ (reader.call call).2, report.status.isFailure = true → ∀ ops,
      Stays report.status (reader.call call).1 ops := by
  intro report listed _ ops
  obtain ⟨same, reports⟩ := call_failed failed call
  rw [reports report listed, ← same]
  exact stays_failed (by rwa [same]) ops

theorem good_next (sound : reader.Sound) (live : reader.failure = .needMore)
    (latch : reader.next.2.status.isFailure = true →
      reader.next.1.failure = reader.next.2.status) : Good reader.next.1 := by
  intro goes
  have answer := next_answer sound live
  generalize reader.next = called at answer latch goes ⊢
  obtain ⟨after, report⟩ := called
  dsimp only at answer latch goes ⊢
  cases answer with
  | wait sound => exact sound
  | fails failed =>
    rw [← latch failed, goes] at failed
    contradiction
  | reports _ _ sound => exact sound

theorem latches_iff (good : Good reader) (ops : List Op) :
    Latches reader ops ↔ AvoidsShortClose reader ops := by
  induction ops generalizing reader with
  | nil => exact Iff.rfl
  | cons op ops ih =>
    cases op with
    | reset => exact ih fun _ => ⟨Nat.zero_le _, fun _ => rfl⟩
    | call call =>
      by_cases failed : reader.failure = .needMore
      swap
      · have told : reader.failed = true := by simpa [FrameReader.failed] using failed
        have later := @ih (reader.call call).1 fun live =>
          absurd ((call_failed failed call).1.symm.trans live) failed
        rw [Latches, AvoidsShortClose, later]
        refine and_congr_left fun _ => iff_of_true ?_ (by simp [told])
        exact fun report listed bad => latches_of_failed failed call report listed bad ops
      have sound := good failed
      have untold : reader.failed = false := by simp [FrameReader.failed, failed]
      cases call with
      | append data =>
        have later := @ih (reader.append data) fun _ => (append_extends sound data).sound
        simpa [Latches, AvoidsShortClose, FrameReader.call] using later
      | read undetermined data fits =>
        have later := @ih (reader.append data) fun _ => (append_extends sound data).sound
        simpa [Latches, AvoidsShortClose, FrameReader.call, commit_append reader _ _ fits] using later
      | next =>
        obtain ⟨short, latch⟩ := next_latch sound failed
        rw [Latches, AvoidsShortClose]
        by_cases meets : MeetsShortClose reader.maxMessageBytes reader.assembly reader.unread
        · obtain ⟨status, live⟩ := short meets
          refine iff_of_false ?_ fun avoids => avoids.1 rfl untold meets
          rintro ⟨stays, _⟩
          have told := (stays _ (List.mem_singleton_self _) (by rw [status]; rfl)).failed
          simp [FrameReader.call, FrameReader.failed, live] at told
        · have latch := latch meets
          have later := ih (good_next sound failed latch)
          refine (and_congr_right fun _ => later).trans (and_congr_left fun _ => iff_of_true ?_ ?_)
          · -- The failure that was reported is the one kept.
            intro report listed bad
            obtain rfl := List.mem_singleton.mp listed
            rw [← latch bad]
            refine stays_failed ?_ ops
            rw [latch bad]
            intro waits
            rw [waits] at bad
            contradiction
          · exact fun _ _ => meets

theorem next_latches_iff (maxMessageBytes : Nat) (ops : List Op) :
    Latches (fresh maxMessageBytes) ops ↔ AvoidsShortClose (fresh maxMessageBytes) ops :=
  latches_iff (fun _ => sound_fresh maxMessageBytes) ops

def brokenClose : Bytes := [0x88, 0x01, 0x03, 0x81, 0x01, 0x41]

/-- The error is reported and forgotten: the next call reads on. -/
theorem short_close_not_latched :
    ((fresh 125).run [.append brokenClose, .next, .next]).2.map Report.status =
        [.protocolError, .message] ∧
      ¬ Latches (fresh 125) [.call (.append brokenClose), .call .next, .call .next] := by
  refine ⟨by decide +kernel, ?_⟩
  rintro ⟨_, latched, _⟩
  have reported : (((fresh 125).call (.append brokenClose)).1.call .next).2 =
      [⟨.protocolError, some ⟨.close, [0x03], kNoStatus⟩⟩] := by decide +kernel
  have told :=
    (latched ⟨.protocolError, some ⟨.close, [0x03], kNoStatus⟩⟩ (by simp [reported]) rfl).failed
  have live : (((fresh 125).call (.append brokenClose)).1.call .next).1.failed = false := by
    decide +kernel
  rw [live] at told
  contradiction

end Runs

end Net

end Crossbook
