import Crossbook.Net.SessionWire
import Crossbook.Net.TcpSocket

set_option autoImplicit false

namespace Crossbook

namespace Net

open FrameReader

namespace WebSocketClient

variable {κ ρ : Type} {kernel : Kernel κ} {draw : ρ → UInt32 × ρ}

def wholePieces (pieces frames : List Bytes) : Nat :=
  (pieces.zip frames).countP fun pair => pair.1 = pair.2

theorem wholePieces_append {early earlyFrames : List Bytes} (late lateFrames : List Bytes)
    (matched : early.length = earlyFrames.length) :
    wholePieces (early ++ late) (earlyFrames ++ lateFrames) =
      wholePieces early earlyFrames + wholePieces late lateFrames := by
  rw [wholePieces, List.zip_append matched, List.countP_append]
  rfl

/-- What a client wrote in a stretch of a run, and what of it went out: a front part of every frame,
counted as sent exactly when it is all of it. -/
def Outgoing (kernel : Kernel κ) (before after : WebSocketClient (PlainTransport κ) ρ) : Prop :=
  ∃ frames pieces, after.written = before.written ++ frames ∧
    List.Forall₂ (· <+: ·) pieces frames ∧
    after.transport.wire kernel = before.transport.wire kernel ++ pieces.flatten ∧
    after.stats.framesSent = before.stats.framesSent + UInt64.ofNat (wholePieces pieces frames)

theorem Outgoing.quiet {before after : WebSocketClient (PlainTransport κ) ρ}
    (written : after.written = before.written)
    (wire : after.transport.wire kernel = before.transport.wire kernel)
    (framesSent : after.stats.framesSent = before.stats.framesSent) :
    Outgoing kernel before after :=
  ⟨[], [], by simp [written], .nil, by simp [wire],
    by rw [framesSent]; exact (UInt64.add_zero _).symm⟩

theorem Outgoing.trans {first middle last : WebSocketClient (PlainTransport κ) ρ}
    (before : Outgoing kernel first middle) (after : Outgoing kernel middle last) :
    Outgoing kernel first last := by
  obtain ⟨early, earlyPieces, written, fronts, wire, counted⟩ := before
  obtain ⟨late, latePieces, writtenLater, frontsLater, wireLater, countedLater⟩ := after
  refine ⟨early ++ late, earlyPieces ++ latePieces, ?_, ?_, ?_, ?_⟩
  · rw [writtenLater, written, List.append_assoc]
  · exact List.rel_append fronts frontsLater
  · rw [wireLater, wire, List.flatten_append, List.append_assoc]
  · rw [countedLater, counted, wholePieces_append _ _ fronts.length_eq, UInt64.ofNat_add,
      UInt64.add_assoc]

theorem sentFrame_ne_nil (opcode : Opcode) (payload : Bytes) (maskKey : UInt32) :
    sentFrame opcode payload maskKey ≠ [] := by
  simp [sentFrame, writeFrameHeader]

theorem sendFrame_outgoing (client : WebSocketClient (PlainTransport κ) ρ) (opcode : Opcode)
    (payload : Bytes) :
    Outgoing kernel client
      (client.sendFrame (PlainTransport.transport kernel) draw opcode payload).1 := by
  unfold sendFrame nextMaskKey
  split
  · exact .quiet rfl rfl rfl
  · dsimp only
    obtain ⟨sent, front, wire, whole, part⟩ := PlainTransport.wire_write kernel client.transport
      (sentFrame opcode payload (draw client.rng).1)
    have pieces : List.Forall₂ (· <+: ·) [sent] [sentFrame opcode payload (draw client.rng).1] :=
      .cons front .nil
    split
    · rename_i failed
      have short := part failed (sentFrame_ne_nil _ _ _)
      refine ⟨_, [sent], rfl, pieces, by rw [List.flatten_singleton]; exact wire, ?_⟩
      simp only [wholePieces, List.zip_cons_cons, List.zip_nil_left, List.countP_cons, short,
        decide_false, Bool.false_eq_true, if_false, List.countP_nil]
      exact (UInt64.add_zero _).symm
    · rename_i done
      have all := whole (not_not.mp done)
      refine ⟨_, [sent], rfl, pieces, by rw [List.flatten_singleton]; exact wire, ?_⟩
      simp only [wholePieces, List.zip_cons_cons, List.zip_nil_left, List.countP_cons, all,
        decide_true, if_true, List.countP_nil]
      rfl

theorem close_outgoing (client : WebSocketClient (PlainTransport κ) ρ) (code : CloseCode)
    (reason : Bytes) :
    Outgoing kernel client (client.close (PlainTransport.transport kernel) draw code reason) := by
  unfold close
  dsimp only
  split
  · have sent := @sendFrame_outgoing _ _ kernel draw client .close
      (closePayload code reason)
    exact sent.trans (.quiet rfl (PlainTransport.wire_close kernel _) rfl)
  · exact .quiet rfl (PlainTransport.wire_close kernel _) rfl

theorem pollTransport_outgoing (polling : Polling (PlainTransport κ) ρ) :
    Outgoing kernel polling.client
      (pollTransport (PlainTransport.transport kernel) polling).1.client := by
  have wire := PlainTransport.wire_read kernel polling.client.transport kReadChunk
  unfold pollTransport
  dsimp only
  split <;> exact .quiet rfl wire rfl

theorem pollPass_outgoing (polling : Polling (PlainTransport κ) ρ) :
    Outgoing kernel polling.client
      (pollPass (PlainTransport.transport kernel) draw polling).1.client := by
  unfold pollPass
  generalize polling.client.reader.next = called
  obtain ⟨after, report⟩ := called
  dsimp only
  cases report.status with
  | message => exact .quiet rfl rfl rfl
  | pong => exact .quiet rfl rfl rfl
  | needMore =>
    have read := @pollTransport_outgoing _ _ kernel
      ⟨{ polling.client with reader := after }, report.event.getD polling.event⟩
    exact Outgoing.trans (.quiet rfl rfl rfl) read
  | close =>
    have sent := @sendFrame_outgoing _ _ kernel draw
      ({ polling.client with reader := after } : WebSocketClient (PlainTransport κ) ρ) .close
      (report.event.getD polling.event).payload
    have before : Outgoing kernel polling.client
        ({ polling.client with reader := after } : WebSocketClient (PlainTransport κ) ρ) :=
      .quiet rfl rfl rfl
    exact (before.trans sent).trans (.quiet rfl (PlainTransport.wire_close kernel _) rfl)
  | protocolError =>
    have before : Outgoing kernel polling.client
        ({ polling.client with
            reader := after
            error := "peer violated RFC 6455" } : WebSocketClient (PlainTransport κ) ρ) :=
      .quiet rfl rfl rfl
    exact before.trans (close_outgoing _ .protocolError (bytes "protocol error"))
  | messageTooLarge =>
    have before : Outgoing kernel polling.client
        ({ polling.client with
            reader := after
            error := "message exceeded the configured ceiling" } :
          WebSocketClient (PlainTransport κ) ρ) := .quiet rfl rfl rfl
    exact before.trans (close_outgoing _ .messageTooBig (bytes "message too big"))
  | ping =>
    generalize pinged : ({ polling.client with
        reader := after
        stats := { polling.client.stats with
          pingsReceived := polling.client.stats.pingsReceived + 1 } } :
        WebSocketClient (PlainTransport κ) ρ) = client
    have before : Outgoing kernel polling.client client := by
      rw [← pinged]
      exact .quiet rfl rfl rfl
    have sent := @sendFrame_outgoing _ _ kernel draw client .pong
      (report.event.getD polling.event).payload
    dsimp only
    split
    · exact before.trans sent
    · exact (before.trans sent).trans (.quiet rfl rfl rfl)

theorem pollPasses_outgoing (passes : Nat) (polling : Polling (PlainTransport κ) ρ) :
    Outgoing kernel polling.client
      (pollPasses (PlainTransport.transport kernel) draw passes polling).1.client := by
  induction passes generalizing polling with
  | zero => exact .quiet rfl rfl rfl
  | succ passes ih =>
    have first := @pollPass_outgoing _ _ kernel draw polling
    rw [pollPasses]
    cases pass : pollPass (PlainTransport.transport kernel) draw polling with
    | mk next status =>
      rw [pass] at first
      cases status with
      | some status => exact first
      | none => exact first.trans (ih next)

theorem session_outgoing (client : WebSocketClient (PlainTransport κ) ρ) (call : SessionCall) :
    Outgoing kernel client (client.session (PlainTransport.transport kernel) draw call).1 := by
  cases call with
  | poll passes event =>
    rw [session, poll]
    split
    · exact .quiet rfl rfl rfl
    · exact pollPasses_outgoing passes ⟨client, event⟩
  | sendText payload => exact sendFrame_outgoing client .text payload
  | sendBinary payload => exact sendFrame_outgoing client .binary payload
  | sendPing payload =>
    unfold session sendPing
    dsimp only
    split
    · exact .quiet rfl rfl rfl
    · exact sendFrame_outgoing client .ping payload
  | close code reason => exact close_outgoing client code reason

theorem run_outgoing (client : WebSocketClient (PlainTransport κ) ρ) (calls : List SessionCall) :
    Outgoing kernel client
      (Run.respond (session (PlainTransport.transport kernel) draw) client calls).1 := by
  induction calls generalizing client with
  | nil => exact .quiet rfl rfl rfl
  | cons call rest ih => exact (session_outgoing client call).trans (ih _)

theorem wholePieces_le (pieces frames : List Bytes) : wholePieces pieces frames ≤ frames.length := by
  refine List.countP_le_length.trans ?_
  rw [List.length_zip]
  exact Nat.min_le_right _ _

theorem pieces_whole_iff {pieces frames : List Bytes} (fronts : List.Forall₂ (· <+: ·) pieces frames) :
    wholePieces pieces frames = frames.length ↔ pieces.flatten = frames.flatten := by
  induction fronts with
  | nil => simp [wholePieces]
  | @cons piece frame pieces frames front fronts ih =>
    have few := wholePieces_le pieces frames
    have short : pieces.flatten.length ≤ frames.flatten.length := by
      clear ih few
      induction fronts with
      | nil => exact le_rfl
      | cons front fronts ih =>
        have := front.length_le
        simp only [List.flatten_cons, List.length_append]
        omega
    have split : wholePieces (piece :: pieces) (frame :: frames) =
        wholePieces pieces frames + if piece = frame then 1 else 0 := by
      simp [wholePieces, List.countP_cons]
    rw [split, List.length_cons, List.flatten_cons, List.flatten_cons]
    by_cases whole : piece = frame
    · subst whole
      simp only [if_true, Nat.add_right_cancel_iff, List.append_cancel_left_eq]
      exact ih
    · simp only [whole, if_false, Nat.add_zero]
      refine iff_of_false (by omega) ?_
      intro same
      have less : piece.length < frame.length := by
        refine lt_of_le_of_ne front.length_le ?_
        exact fun same => whole (front.eq_of_length same)
      have lengths := congrArg List.length same
      simp only [List.length_append] at lengths
      omega

end WebSocketClient

open WebSocketClient

/-- What the peer of a plain session is sent, however the kernel takes the bytes: a front part of
every frame written, in order, and the frames themselves exactly when every one was counted as sent.
The frames are legal, and none follows a close frame. -/
theorem plain_session_wire {κ ρ : Type} (kernel : Kernel κ) (draw : ρ → UInt32 × ρ)
    (client : WebSocketClient (PlainTransport κ) ρ) (maxMessageBytes : Nat) (early : Bytes)
    (opened : client.Opened maxMessageBytes early) (unwritten : client.written = [])
    (uncounted : client.stats.framesSent = 0) (calls : List SessionCall)
    (addressable : ∀ call ∈ calls, call.Addressable) :
    let after := (Run.respond (session (PlainTransport.transport kernel) draw) client calls).1
    let wire := after.transport.wire kernel
    (∃ pieces, List.Forall₂ (· <+: ·) pieces after.written ∧
      wire = client.transport.wire kernel ++ pieces.flatten) ∧
      (after.written.length < 2 ^ 64 →
        (after.stats.framesSent = UInt64.ofNat after.written.length ↔
          wire = client.transport.wire kernel ++ after.written.flatten)) ∧
      (∀ frame ∈ after.written, LegalFrame frame) ∧
      ∀ front frame behind, after.written = front ++ frame :: behind → Closes frame →
        behind = [] := by
  intro after wire
  obtain ⟨frames, pieces, written, fronts, sent, counted⟩ :=
    @run_outgoing _ _ kernel draw client calls
  rw [unwritten, List.nil_append] at written
  have start : client.Tidy (PlainTransport.transport kernel) :=
    ⟨by simp [unwritten], fun _ => .inl (by simp [Unclosed, unwritten])⟩
  have tidy := run_tidy draw opened.live start calls addressable
  have fronts : List.Forall₂ (· <+: ·) pieces after.written := written ▸ fronts
  have counted : after.stats.framesSent = UInt64.ofNat (wholePieces pieces after.written) := by
    rw [counted, uncounted, written]
    exact UInt64.zero_add _
  have last := PlainTransport.closesForGood kernel
  refine ⟨⟨pieces, fronts, sent⟩, ?_, tidy.legal, fun front frame behind => tidy.closing_last last⟩
  intro few
  have fewer := wholePieces_le pieces after.written
  have all : after.stats.framesSent = UInt64.ofNat after.written.length ↔
      wholePieces pieces after.written = after.written.length := by
    rw [counted]
    constructor
    · intro same
      have values := congrArg UInt64.toNat same
      rw [UInt64.toNat_ofNat', UInt64.toNat_ofNat', Nat.mod_eq_of_lt (fewer.trans_lt few),
        Nat.mod_eq_of_lt few] at values
      exact values
    · intro same
      rw [same]
  rw [all, pieces_whole_iff fronts]
  have wire_eq : wire = client.transport.wire kernel ++ pieces.flatten := sent
  rw [wire_eq]
  exact (List.append_cancel_left_eq _ _ _).to_iff.symm

def sipping : Kernel Bytes where
  send state data := (state ++ data.take 3, .sent (data.take 3).length)
  recv state _ := (state, .wouldBlock)
  close state := state
  errorString context _ := context
  wire state := state
  signals _ := 0
  sendFits state data := by simp [SendOutcome.count]
  sendWire state data := by simp [SendOutcome.count]
  sendSignals state data interrupted := by simp at interrupted
  recvFits state len data received := by simp at received
  recvWire _ _ := rfl
  closeWire _ := rfl

def sippingClient : WebSocketClient (PlainTransport Bytes) UInt32 where
  transport := ⟨⟨[], true⟩, "", true⟩
  reader := (fresh 125).append []
  error := ""
  rng := 7
  stats := WebSocketStats.zero
  isOpen := true
  written := []

theorem plain_session_wire_sipping :
    let after := (Run.respond (session (PlainTransport.transport sipping) countingKeys)
      sippingClient [.sendText [0x68, 0x69], .close .normal []]).1
    after.written.length < 2 ^ 64 →
      (after.stats.framesSent = UInt64.ofNat after.written.length ↔
        after.transport.wire sipping = sippingClient.transport.wire sipping ++ after.written.flatten) :=
  (plain_session_wire sipping countingKeys sippingClient 125 [] ⟨rfl, rfl⟩ rfl rfl
    [.sendText [0x68, 0x69], .close .normal []] (by
      intro call member
      simp only [List.mem_cons, List.not_mem_nil, or_false] at member
      rcases member with rfl | rfl <;> simp [SessionCall.Addressable])).2.1

end Net

end Crossbook
