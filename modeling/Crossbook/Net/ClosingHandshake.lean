import Crossbook.Net.ReaderRefinement
import Crossbook.Net.WebSocketClient

set_option autoImplicit false

namespace Crossbook

namespace Net

/-- What a server makes of a frame: its opcode and its payload without the mask. -/
def unmasked (frame : Bytes) : Option (Opcode × Bytes) :=
  match parseFrameHeader frame with
  | .ok header =>
    some (header.opcode,
      applyMask ((frame.drop header.headerSize).take header.payloadLen) header.maskKey 0)
  | _ => none

/-- A close frame that answers a close payload with its own status. -/
def Echoes (payload frame : Bytes) : Prop :=
  ∃ body, unmasked frame = some (.close, body) ∧
    if payload = [] then body = [] else body.take 2 = payload.take 2

instance (payload frame : Bytes) : Decidable (Echoes payload frame) :=
  match found : unmasked frame with
  | some (.close, body) =>
    decidable_of_iff (if payload = [] then body = [] else body.take 2 = payload.take 2) (by
      constructor
      · exact fun echoed => ⟨body, found, echoed⟩
      · rintro ⟨other, same, echoed⟩
        rw [found] at same
        simp only [Option.some.injEq, Prod.mk.injEq, true_and] at same
        rwa [same])
  | some (.continuation, _) | some (.text, _) | some (.binary, _) | some (.ping, _)
  | some (.pong, _) | none =>
    isFalse (by
      rintro ⟨body, same, _⟩
      rw [found] at same
      simp at same)

def RepeatsStatus (payload : Bytes) : Prop :=
  payload = [] ∨ ∃ high low reason, payload = high :: low :: high :: low :: reason

section Frames

open WebSocketClient

theorem unmasked_sentFrame {opcode : Opcode} {payload : Bytes}
    (writable : Writable opcode (UInt64.ofNat payload.length) true)
    (fits : payload.length < 2 ^ 64) (maskKey : UInt32) :
    unmasked (sentFrame opcode payload maskKey) = some (opcode, payload) := by
  have size : (UInt64.ofNat payload.length).toNat = payload.length := by
    rw [UInt64.toNat_ofNat']
    exact Nat.mod_eq_of_lt fits
  rw [unmasked, sentFrame, parseFrameHeader_written writable]
  simp only [writtenHeader, size, List.drop_left]
  rw [List.take_of_length_le (by rw [length_applyMask]), applyMask_applyMask]

theorem unmasked_close {payload : Bytes} (short : payload.length ≤ kMaxControlPayload)
    (maskKey : UInt32) :
    unmasked (sentFrame .close payload maskKey) = some (.close, payload) := by
  have bound : payload.length ≤ 125 := short
  have size : (UInt64.ofNat payload.length).toNat = payload.length := by
    rw [UInt64.toNat_ofNat']
    exact Nat.mod_eq_of_lt (by omega)
  refine unmasked_sentFrame ⟨?_, fun _ => ⟨rfl, ?_⟩⟩ (by omega) maskKey
  · omega
  · rwa [size]

theorem echoes_iff {payload body : Bytes} (short : body.length ≤ kMaxControlPayload)
    (maskKey : UInt32) :
    Echoes payload (sentFrame .close body maskKey) ↔
      if payload = [] then body = [] else body.take 2 = payload.take 2 := by
  rw [Echoes, unmasked_close short]
  simp

end Frames

namespace FrameReader

theorem nextFrames_report {reader stopped : FrameReader} {report : Report}
    (reported : reader.nextFrame = (stopped, some report)) :
    reader.nextFrames = (stopped, report) := by
  rw [nextFrames]
  split
  · rename_i found
    rw [reported] at found
    simp only [Prod.mk.injEq, Option.some.injEq] at found
    rw [found.1, found.2]
  · rename_i found
    rw [reported] at found
    simp at found

theorem next_close {reader : FrameReader} (live : reader.failure = .needMore) (frame : Frame)
    (closes : frame.opcode = .close) {rest : Bytes} (front : reader.unread = frame.bytes ++ rest) :
    reader.next.2 =
      if tooLarge reader.maxMessageBytes reader.assembly frame.payload.length then
        ⟨.messageTooLarge, none⟩
      else Assembly.controlReport .close frame.payload := by
  have view : reader.consumePending.buf.drop reader.consumePending.readPos = frame.bytes ++ rest :=
    front
  have control : frame.header.opcode.isControl = true := by
    change frame.opcode.isControl = true
    rw [closes]
    rfl
  rw [next, if_neg (by simp [live])]
  -- A close is measured with what is gathered before it, like any frame.
  by_cases large : tooLarge reader.maxMessageBytes reader.assembly frame.payload.length
  · rw [if_pos large]
    have reported : reader.consumePending.nextFrame =
        ({ reader.consumePending with failure := .messageTooLarge },
          some ⟨.messageTooLarge, none⟩) := by
      unfold nextFrame
      dsimp only
      rw [view, parseFrameHeader_bytes]
      dsimp only
      rw [if_neg (by simp [Frame.header]), if_pos (by exact large)]
      rfl
    rw [nextFrames_report reported]
  · rw [if_neg large]
    have reported : reader.consumePending.nextFrame =
        ((emitControl { reader.consumePending with
            readPos := reader.consumePending.readPos +
              (frame.header.headerSize + frame.header.payloadLen) } .close frame.payload).1,
          some (Assembly.controlReport .close frame.payload)) := by
      unfold nextFrame
      dsimp only
      rw [view, parseFrameHeader_bytes]
      dsimp only
      rw [if_neg (by simp [Frame.header]), if_neg (by exact large),
        if_neg (complete_front frame rest), if_pos control, payload_front, ← emitControl_report]
      rw [show frame.header.opcode = .close from closes]
    rw [nextFrames_report reported]

end FrameReader

namespace WebSocketClient

variable {τ ρ : Type} {net : Transport τ} {draw : ρ → UInt32 × ρ}

theorem sendFrame_written (client : WebSocketClient τ ρ) (opcode : Opcode) (payload : Bytes)
    (linked : net.connected client.transport = true) :
    (client.sendFrame net draw opcode payload).1.written =
      client.written ++ [sentFrame opcode payload (draw client.rng).1] := by
  unfold sendFrame nextMaskKey
  rw [if_neg (by simp [linked])]
  dsimp only
  split <;> rfl

theorem sendFrame_isOpen (client : WebSocketClient τ ρ) (opcode : Opcode) (payload : Bytes) :
    (client.sendFrame net draw opcode payload).1.isOpen = client.isOpen := by
  unfold sendFrame nextMaskKey
  split
  · rfl
  · dsimp only
    split <;> rfl

theorem close_written (client : WebSocketClient τ ρ) (code : CloseCode) (reason : Bytes)
    (linked : client.connected net = true) :
    (client.close net draw code reason).written =
      client.written ++ [sentFrame .close (closePayload code reason) (draw client.rng).1] := by
  have transport := (Bool.and_eq_true_iff.mp linked).2
  rw [close, if_pos linked]
  exact sendFrame_written client .close _ transport

theorem length_closePayload (code : CloseCode) (reason : Bytes) :
    (closePayload code reason).length ≤ kMaxControlPayload := by
  simp only [closePayload, List.length_cons, List.length_take, kMaxControlPayload]
  omega

theorem pollTransport_isOpen {polling next : Polling τ ρ}
    (goes : pollTransport net polling = (next, none)) :
    next.client.isOpen = polling.client.isOpen := by
  unfold pollTransport at goes
  dsimp only at goes
  split at goes
  · rw [← (Prod.mk.inj goes).1]
  all_goals simp at goes

theorem pollPass_isOpen {polling next : Polling τ ρ}
    (goes : pollPass net draw polling = (next, none)) :
    next.client.isOpen = polling.client.isOpen := by
  unfold pollPass at goes
  dsimp only at goes
  split at goes
  · simp at goes
  · split at goes
    · simp at goes
    · rw [← (Prod.mk.inj goes).1]
      exact sendFrame_isOpen _ _ _
  · rw [← (Prod.mk.inj goes).1]
  · simp at goes
  · simp at goes
  · simp at goes
  · exact (pollTransport_isOpen goes).trans rfl

theorem pollPasses_isOpen {passes : Nat} {polling next : Polling τ ρ}
    (goes : pollPasses net draw passes polling = (next, none)) :
    next.client.isOpen = polling.client.isOpen := by
  induction passes generalizing polling with
  | zero => rw [← (Prod.mk.inj goes).1]
  | succ passes ih =>
    rw [pollPasses] at goes
    cases pass : pollPass net draw polling with
    | mk later status =>
      rw [pass] at goes
      cases status with
      | some status => simp at goes
      | none => exact (ih goes).trans (pollPass_isOpen pass)

theorem pollPasses_succ {passes : Nat} {polling before : Polling τ ρ}
    (goes : pollPasses net draw passes polling = (before, none)) :
    pollPasses net draw (passes + 1) polling = pollPass net draw before := by
  induction passes generalizing polling with
  | zero =>
    obtain ⟨rfl, _⟩ := Prod.mk.inj goes
    rw [pollPasses]
    cases pass : pollPass net draw polling with
    | mk later status => cases status <;> rfl
  | succ passes ih =>
    rw [pollPasses] at goes ⊢
    cases pass : pollPass net draw polling with
    | mk later status =>
      rw [pass] at goes
      cases status with
      | some status => simp at goes
      | none => exact ih goes

theorem pollPass_close (draw : ρ → UInt32 × ρ) (polling : Polling τ ρ)
    (linked : polling.client.connected net = true)
    (live : polling.client.reader.failure = .needMore) (frame : Frame)
    (closes : frame.opcode = .close) (notSingle : frame.payload.length ≠ 1) {rest : Bytes}
    (front : polling.client.reader.unread = frame.bytes ++ rest) :
    (pollPass net draw polling).2.isSome = true ∧
      (pollPass net draw polling).1.client.written = polling.client.written ++
        [sentFrame .close
          (if tooLarge polling.client.reader.maxMessageBytes polling.client.reader.assembly
              frame.payload.length then
            closePayload .messageTooBig (bytes "message too big")
          else frame.payload.drop 2)
          (draw polling.client.rng).1] := by
  have transport := (Bool.and_eq_true_iff.mp linked).2
  have reported := polling.client.reader.next_close live frame closes front
  by_cases large : tooLarge polling.client.reader.maxMessageBytes polling.client.reader.assembly
      frame.payload.length
  · rw [if_pos large] at reported ⊢
    simp only [pollPass, reported]
    exact ⟨rfl, close_written _ _ _ linked⟩
  · rw [if_neg large] at reported ⊢
    have event : ∃ code, Assembly.controlReport .close frame.payload =
        ⟨.close, some ⟨.close, frame.payload.drop 2, code⟩⟩ := by
      generalize frame.payload = payload at notSingle ⊢
      rcases payload with _ | ⟨high, _ | ⟨low, reason⟩⟩
      · exact ⟨_, rfl⟩
      · simp at notSingle
      · exact ⟨_, rfl⟩
    obtain ⟨code, event⟩ := event
    rw [event] at reported
    simp only [pollPass, reported]
    exact ⟨rfl, sendFrame_written _ .close _ transport⟩

theorem take_drop_repeats (payload : Bytes) (notSingle : payload.length ≠ 1) :
    (if payload = [] then payload.drop 2 = [] else (payload.drop 2).take 2 = payload.take 2) ↔
      RepeatsStatus payload := by
  rcases payload with _ | ⟨high, _ | ⟨low, _ | ⟨third, _ | ⟨fourth, reason⟩⟩⟩⟩
  · simp [RepeatsStatus]
  · simp at notSingle
  · simp [RepeatsStatus]
  · simp [RepeatsStatus]
  · simp [RepeatsStatus]

/-- A close frame is answered with its own status when its reason begins with the status over again,
or when it is refused as too large and its status is the one that says so. -/
theorem poll_echoes_iff (net : Transport τ) (draw : ρ → UInt32 × ρ) (passes : Nat)
    (polling before : Polling τ ρ) (goes : pollPasses net draw passes polling = (before, none))
    (started : polling.client.connected net = true)
    (linked : net.connected before.client.transport = true)
    (live : before.client.reader.failure = .needMore) (frame : Frame)
    (closes : frame.opcode = .close) (notSingle : frame.payload.length ≠ 1) (rest : Bytes)
    (front : before.client.reader.unread = frame.bytes ++ rest) :
    ∃ reply, (poll net draw polling (passes + 1)).2.isSome = true ∧
      (poll net draw polling (passes + 1)).1.client.written = before.client.written ++ [reply] ∧
      (Echoes frame.payload reply ↔
        if tooLarge before.client.reader.maxMessageBytes before.client.reader.assembly
            frame.payload.length then
          ∃ reason, frame.payload = 0x03 :: 0xF1 :: reason
        else RepeatsStatus frame.payload) := by
  have isOpen : before.client.isOpen = true :=
    (pollPasses_isOpen goes).trans (Bool.and_eq_true_iff.mp started).1
  have ready : before.client.connected net = true := Bool.and_eq_true_iff.mpr ⟨isOpen, linked⟩
  obtain ⟨ended, written⟩ := pollPass_close draw before ready live frame closes notSingle front
  have short : frame.payload.length ≤ kMaxControlPayload :=
    (frame.controlFits (by rw [closes]; rfl)).2
  rw [poll, if_neg (by simp [started]), pollPasses_succ goes]
  refine ⟨_, ended, written, ?_⟩
  by_cases large : tooLarge before.client.reader.maxMessageBytes before.client.reader.assembly
      frame.payload.length
  · rw [if_pos large, if_pos large, echoes_iff (length_closePayload _ _)]
    have status : closePayload .messageTooBig (bytes "message too big") =
        0x03 :: 0xF1 :: bytes "message too big" := by decide +kernel
    rw [status]
    generalize frame.payload = payload at notSingle ⊢
    rcases payload with _ | ⟨high, _ | ⟨low, reason⟩⟩
    · simp
    · simp at notSingle
    · simp [eq_comm]
  · rw [if_neg large, if_neg large,
      echoes_iff (by rw [List.length_drop]; exact (Nat.sub_le _ _).trans short),
      take_drop_repeats _ notSingle]

def scripted : Transport (List Bytes) where
  connected _ := true
  read state len :=
    match state with
    | [] => ([], .timeout, [])
    | data :: later => (later, .ok, data.take len)
  write state _ := (state, .ok)
  close state := state
  lastError _ := ""
  readFits state len := by
    cases state with
    | nil => simp
    | cons data later => simp

def countingKeys (key : UInt32) : UInt32 × UInt32 := (key, key + 1)

def holding (received : Bytes) : Polling (List Bytes) UInt32 :=
  ⟨⟨[], (FrameReader.fresh (8 * 1024 * 1024)).append received, "", 0x01020304, .zero, true, []⟩,
    ⟨.text, [], kNoStatus⟩⟩

theorem poll_drops_status :
    (poll scripted countingKeys (holding [0x88, 0x02, 0x03, 0xE8]) 1).2 = some .close ∧
      ∃ reply ∈ (poll scripted countingKeys (holding [0x88, 0x02, 0x03, 0xE8]) 1).1.client.written,
        ¬ Echoes [0x03, 0xE8] reply := by
  decide +kernel

theorem poll_echoes_iff_repeated :
    ∃ reply, (poll scripted countingKeys
        (holding [0x88, 0x04, 0x03, 0xE8, 0x03, 0xE8]) 1).1.client.written = [reply] ∧
      Echoes [0x03, 0xE8, 0x03, 0xE8] reply := by
  obtain ⟨reply, _, written, echoed⟩ := poll_echoes_iff scripted countingKeys 0
    (holding [0x88, 0x04, 0x03, 0xE8, 0x03, 0xE8]) _ rfl rfl rfl rfl
    ⟨.close, true, [0x03, 0xE8, 0x03, 0xE8], by decide, by decide⟩ rfl (by decide) []
    (by decide +kernel)
  refine ⟨reply, written, echoed.mpr ?_⟩
  rw [if_neg (by decide +kernel)]
  exact .inr ⟨0x03, 0xE8, [], rfl⟩

end WebSocketClient

end Net

end Crossbook
