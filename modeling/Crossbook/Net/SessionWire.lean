import Crossbook.Lib.Run
import Crossbook.Net.SentFrames
import Crossbook.Net.Session

set_option autoImplicit false

namespace Crossbook

namespace Net

open FrameReader

/-- A frame a server must accept: whole, final, masked, its payload readable under its own key. -/
def LegalFrame (frame : Bytes) : Prop :=
  ∃ opcode payload maskKey headerSize, CarriesPayload frame opcode payload maskKey headerSize ∧
    opcode ≠ .continuation ∧ (opcode.isControl = true → payload.length ≤ kMaxControlPayload)

def payloadOf (opcode : Opcode) (frame : Bytes) : Option Bytes :=
  (unmasked frame).bind fun read => if read.1 = opcode then some read.2 else none

def Closes (frame : Bytes) : Prop := (payloadOf .close frame).isSome = true

def pings (reports : List Report) : List Bytes :=
  reports.filterMap fun report =>
    if report.status = .ping then report.event.map Event.payload else none

def pongs (frames : List Bytes) : List Bytes := frames.filterMap (payloadOf .pong)

def SessionCall.Addressable : SessionCall → Prop
  | .sendText payload | .sendBinary payload => payload.length < 2 ^ 63
  | _ => True

def Transport.ClosesForGood {τ : Type} (net : Transport τ) : Prop :=
  ∀ state, net.connected (net.close state) = false

namespace WebSocketClient

variable {τ ρ : Type} {net : Transport τ} {draw : ρ → UInt32 × ρ}

structure Sendable (opcode : Opcode) (payload : Bytes) : Prop where
  fits : payload.length < 2 ^ 63
  control : opcode.isControl = true → payload.length ≤ kMaxControlPayload
  whole : opcode ≠ .continuation

theorem sendable_short (opcode : Opcode) {payload : Bytes} (whole : opcode ≠ .continuation)
    (short : payload.length ≤ kMaxControlPayload) : Sendable opcode payload where
  fits := by
    have ceiling : kMaxControlPayload = 125 := rfl
    omega
  control _ := short
  whole := whole

theorem sentFrame_legal {opcode : Opcode} {payload : Bytes} (sendable : Sendable opcode payload)
    (maskKey : UInt32) : LegalFrame (sentFrame opcode payload maskKey) :=
  ⟨_, _, _, _, sentFrame_carries sendable.fits sendable.control maskKey, sendable.whole,
    sendable.control⟩

theorem unmasked_sendable {opcode : Opcode} {payload : Bytes} (sendable : Sendable opcode payload)
    (maskKey : UInt32) : unmasked (sentFrame opcode payload maskKey) = some (opcode, payload) := by
  have fits := sendable.fits
  have size : (UInt64.ofNat payload.length).toNat = payload.length := by
    rw [UInt64.toNat_ofNat']
    exact Nat.mod_eq_of_lt (by omega)
  refine unmasked_sentFrame ⟨?_, fun control => ⟨rfl, ?_⟩⟩ (by omega) maskKey
  · rwa [size]
  · rw [size]
    exact sendable.control control

theorem payloadOf_sentFrame {opcode : Opcode} {payload : Bytes} (sendable : Sendable opcode payload)
    (maskKey : UInt32) (wanted : Opcode) :
    payloadOf wanted (sentFrame opcode payload maskKey) =
      if opcode = wanted then some payload else none := by
  rw [payloadOf, unmasked_sendable sendable]
  rfl

/-- All that sending a frame can do. -/
inductive SendStep (net : Transport τ) (draw : ρ → UInt32 × ρ) (client : WebSocketClient τ ρ)
    (opcode : Opcode) (payload : Bytes) : WebSocketClient τ ρ × Bool → Prop
  | refused (lost : net.connected client.transport = false) (error : String) :
      SendStep net draw client opcode payload ({ client with error := error }, false)
  | failed (linked : net.connected client.transport = true) (transport : τ) (rng : ρ)
      (error : String) (status : IoStatus) (refused : status ≠ .ok)
      (wrote : net.write client.transport (sentFrame opcode payload (draw client.rng).1) =
        (transport, status)) :
      SendStep net draw client opcode payload
        ({ client with
            transport := transport, rng := rng, error := error
            written := client.written ++ [sentFrame opcode payload (draw client.rng).1] }, false)
  | accepted (linked : net.connected client.transport = true) (transport : τ) (rng : ρ)
      (wrote : net.write client.transport (sentFrame opcode payload (draw client.rng).1) =
        (transport, .ok)) :
      SendStep net draw client opcode payload
        ({ client with
            transport := transport, rng := rng
            stats := { client.stats with framesSent := client.stats.framesSent + 1 }
            written := client.written ++ [sentFrame opcode payload (draw client.rng).1] }, true)

theorem sendFrame_step (client : WebSocketClient τ ρ) (opcode : Opcode) (payload : Bytes) :
    SendStep net draw client opcode payload (client.sendFrame net draw opcode payload) := by
  unfold sendFrame nextMaskKey
  by_cases lost : net.connected client.transport = false
  · rw [if_pos lost]
    exact .refused lost _
  · rw [if_neg lost]
    rw [Bool.not_eq_false] at lost
    dsimp only
    split
    next refused => exact .failed lost _ _ _ _ refused rfl
    next taken =>
      rw [ne_eq, not_not] at taken
      exact .accepted lost _ _ (Prod.ext rfl taken)

section Legal

def Unclosed (client : WebSocketClient τ ρ) : Prop := ∀ frame ∈ client.written, ¬ Closes frame

/-- A close frame was the last thing written, and the transport is gone. -/
def HungUp (net : Transport τ) (client : WebSocketClient τ ρ) : Prop :=
  net.connected client.transport = false ∧
    ∃ front frame, client.written = front ++ [frame] ∧ ∀ earlier ∈ front, ¬ Closes earlier

structure Tidy (net : Transport τ) (client : WebSocketClient τ ρ) : Prop where
  legal : ∀ frame ∈ client.written, LegalFrame frame
  last : net.ClosesForGood → client.Unclosed ∨ client.HungUp net

variable {client : WebSocketClient τ ρ}

theorem Tidy.unclosed (tidy : client.Tidy net) (linked : net.connected client.transport = true)
    (good : net.ClosesForGood) : client.Unclosed := by
  rcases tidy.last good with unclosed | hungUp
  · exact unclosed
  · exact absurd (linked.symm.trans hungUp.1) (by decide)

theorem Tidy.rewritten {after : WebSocketClient τ ρ} (tidy : client.Tidy net)
    (written : after.written = client.written)
    (gone : net.ClosesForGood → net.connected after.transport = false) : after.Tidy net := by
  refine ⟨fun frame member => tidy.legal frame (written ▸ member), fun good => ?_⟩
  rcases tidy.last good with unclosed | hungUp
  · exact .inl fun frame member => unclosed frame (written ▸ member)
  · obtain ⟨front, frame, same, earlier⟩ := hungUp.2
    exact .inr ⟨gone good, front, frame, written.trans same, earlier⟩

theorem Tidy.closing_last (tidy : client.Tidy net) (good : net.ClosesForGood)
    {front behind : List Bytes} {frame : Bytes}
    (split : client.written = front ++ frame :: behind) (closes : Closes frame) : behind = [] := by
  rcases tidy.last good with unclosed | hungUp
  · have member : frame ∈ client.written := by
      rw [split]
      exact List.mem_append_right _ List.mem_cons_self
    exact absurd closes (unclosed frame member)
  · obtain ⟨before, last, same, earlier⟩ := hungUp.2
    by_contra more
    obtain ⟨body, final, rfl⟩ := List.eq_nil_or_concat' behind |>.resolve_left more
    have whole : (front ++ frame :: body) ++ [final] = before ++ [last] := by
      rw [← same, List.append_assoc, List.cons_append]
      exact split.symm
    obtain ⟨rfl, -⟩ := List.append_inj' whole rfl
    exact earlier frame (List.mem_append_right _ List.mem_cons_self) closes

variable (net draw) in
theorem sendFrame_legal (legal : ∀ frame ∈ client.written, LegalFrame frame) {opcode : Opcode}
    {payload : Bytes} (sendable : Sendable opcode payload) :
    ∀ frame ∈ (client.sendFrame net draw opcode payload).1.written, LegalFrame frame := by
  have step := @sendFrame_step _ _ net draw client opcode payload
  have more : ∀ frame ∈ client.written ++ [sentFrame opcode payload (draw client.rng).1],
      LegalFrame frame := by
    intro frame member
    rcases List.mem_append.mp member with earlier | last
    · exact legal frame earlier
    · rw [List.mem_singleton.mp last]
      exact sentFrame_legal sendable _
  generalize client.sendFrame net draw opcode payload = sent at step ⊢
  cases step with
  | refused => exact legal
  | failed => exact more
  | accepted => exact more

variable (net draw) in
theorem sendFrame_unclosed (unclosed : client.Unclosed) {opcode : Opcode} {payload : Bytes}
    (sendable : Sendable opcode payload) (open_ : opcode ≠ .close) :
    (client.sendFrame net draw opcode payload).1.Unclosed := by
  have step := @sendFrame_step _ _ net draw client opcode payload
  have other : ¬ Closes (sentFrame opcode payload (draw client.rng).1) := by
    rw [Closes, payloadOf_sentFrame sendable, if_neg open_]
    simp
  have more : ∀ frame ∈ client.written ++ [sentFrame opcode payload (draw client.rng).1],
      ¬ Closes frame := by
    intro frame member
    rcases List.mem_append.mp member with earlier | last
    · exact unclosed frame earlier
    · rw [List.mem_singleton.mp last]
      exact other
  generalize client.sendFrame net draw opcode payload = sent at step ⊢
  cases step with
  | refused => exact unclosed
  | failed => exact more
  | accepted => exact more

variable (draw) in
theorem hangUp_tidy (tidy : client.Tidy net) {payload : Bytes}
    (short : payload.length ≤ kMaxControlPayload) {after : WebSocketClient τ ρ}
    (transport : after.transport = net.close (client.sendFrame net draw .close payload).1.transport)
    (written : after.written = (client.sendFrame net draw .close payload).1.written) :
    after.Tidy net := by
  have gone (good : net.ClosesForGood) : net.connected after.transport = false := by
    rw [transport, good]
  have legal := sendFrame_legal net draw tidy.legal
    (sendable_short .close (by decide) short)
  rw [← written] at legal
  have step := @sendFrame_step _ _ net draw client .close payload
  generalize client.sendFrame net draw .close payload = sent at step written
  have ended (linked : net.connected client.transport = true)
      (written : after.written = client.written ++ [sentFrame .close payload (draw client.rng).1]) :
      after.Tidy net :=
    ⟨legal, fun good => .inr ⟨gone good, _, _, written, tidy.unclosed linked good⟩⟩
  cases step with
  | refused => exact tidy.rewritten written gone
  | failed linked => exact ended linked written
  | accepted linked => exact ended linked written

theorem close_tidy (tidy : client.Tidy net) (code : CloseCode) (reason : Bytes) :
    (client.close net draw code reason).Tidy net := by
  by_cases linked : client.connected net = true
  · refine hangUp_tidy draw tidy (length_closePayload code reason) ?_ ?_
    · rw [close, if_pos linked]
    · rw [close, if_pos linked]
  · have written : (client.close net draw code reason).written = client.written := by
      rw [close, if_neg linked]
    exact tidy.rewritten written fun good => good _

theorem pollTransport_written (polling : Polling τ ρ) :
    (pollTransport net polling).1.client.written = polling.client.written := by
  unfold pollTransport
  dsimp only
  split <;> rfl

variable (draw) in
theorem pollPass_tidy (polling : Polling τ ρ)
    (live : polling.client.reader.failure = .needMore)
    (legal : ∀ frame ∈ polling.client.written, LegalFrame frame)
    (unclosed : net.ClosesForGood → polling.client.Unclosed) :
    (pollPass net draw polling).1.client.Tidy net ∧
      ((pollPass net draw polling).2 = none → net.ClosesForGood →
        (pollPass net draw polling).1.client.Unclosed) := by
  have formed := next_formed live
  unfold pollPass
  generalize polling.client.reader.next = called at formed ⊢
  obtain ⟨after, report⟩ := called
  dsimp only at formed ⊢
  have before {client : WebSocketClient τ ρ} (written : client.written = polling.client.written) :
      client.Tidy net :=
    ⟨written ▸ legal, fun good => .inl (by rw [Unclosed, written]; exact unclosed good)⟩
  cases status : report.status with
  | message => exact ⟨before rfl, fun _ => unclosed⟩
  | pong => exact ⟨before rfl, fun _ => unclosed⟩
  | ping =>
    obtain ⟨event, same⟩ := formed.present (by simp [status]) (by simp [status, ReadStatus.isFailure])
    have short := formed.short (by simp [status]) event same
    rw [same]
    simp only [Option.getD_some]
    generalize pinged : ({ polling.client with
        reader := after
        stats := { polling.client.stats with
          pingsReceived := polling.client.stats.pingsReceived + 1 } } : WebSocketClient τ ρ) = client
    have written : client.written = polling.client.written := by rw [← pinged]
    have sendable := sendable_short .pong (by decide) short
    have legal : ∀ frame ∈ (client.sendFrame net draw .pong event.payload).1.written,
        LegalFrame frame :=
      sendFrame_legal net draw (by rw [written]; exact legal) sendable
    have unclosed (good : net.ClosesForGood) :
        (client.sendFrame net draw .pong event.payload).1.Unclosed :=
      sendFrame_unclosed net draw (by rw [Unclosed, written]; exact unclosed good) sendable
        (by decide)
    split <;> exact ⟨⟨legal, fun good => .inl (unclosed good)⟩, fun _ => unclosed⟩
  | close =>
    obtain ⟨event, same⟩ := formed.present (by simp [status]) (by simp [status, ReadStatus.isFailure])
    have short := formed.short (by simp [status]) event same
    rw [same]
    have tidy : ({ polling.client with reader := after } : WebSocketClient τ ρ).Tidy net := before rfl
    exact ⟨hangUp_tidy draw tidy short rfl rfl, by simp⟩
  | protocolError =>
    have tidy : ({ polling.client with
        reader := after
        error := "peer violated RFC 6455" } : WebSocketClient τ ρ).Tidy net := before rfl
    exact ⟨close_tidy tidy .protocolError (bytes "protocol error"), by simp⟩
  | messageTooLarge =>
    have tidy : ({ polling.client with
        reader := after
        error := "message exceeded the configured ceiling" } : WebSocketClient τ ρ).Tidy net :=
      before rfl
    exact ⟨close_tidy tidy .messageTooBig (bytes "message too big"), by simp⟩
  | needMore =>
    have written := @pollTransport_written _ _ net
      ⟨{ polling.client with reader := after }, report.event.getD polling.event⟩
    exact ⟨before written, fun _ good => by rw [Unclosed, written]; exact unclosed good⟩

theorem pollPasses_tidy (passes : Nat) (polling : Polling τ ρ)
    (isOpen : polling.client.isOpen = true) (live : polling.client.Live)
    (legal : ∀ frame ∈ polling.client.written, LegalFrame frame)
    (unclosed : net.ClosesForGood → polling.client.Unclosed) :
    (pollPasses net draw passes polling).1.client.Tidy net := by
  induction passes generalizing polling with
  | zero => exact ⟨legal, fun good => .inl (unclosed good)⟩
  | succ passes ih =>
    obtain ⟨sound, steady⟩ := live isOpen
    obtain ⟨tidy, goes⟩ := pollPass_tidy draw polling steady legal unclosed
    have follows := @pollPass_follows _ _ net draw polling sound steady
    rw [pollPasses]
    cases pass : pollPass net draw polling with
    | mk next status =>
      rw [pass] at tidy goes follows
      cases status with
      | some status => exact tidy
      | none =>
        exact ih next ((pollPass_isOpen pass).trans isOpen) follows.live tidy.legal (goes rfl)

theorem sendFrame_tidy (tidy : client.Tidy net) {opcode : Opcode} {payload : Bytes}
    (sendable : Sendable opcode payload) (open_ : opcode ≠ .close) :
    (client.sendFrame net draw opcode payload).1.Tidy net := by
  cases linked : net.connected client.transport with
  | true =>
    refine ⟨sendFrame_legal net draw tidy.legal sendable, fun good => .inl ?_⟩
    exact sendFrame_unclosed net draw (tidy.unclosed linked good) sendable open_
  | false =>
    rw [sendFrame, if_pos linked]
    exact ⟨tidy.legal, tidy.last⟩

theorem session_tidy (live : client.Live) (tidy : client.Tidy net)
    (call : SessionCall) (addressable : call.Addressable) :
    (client.session net draw call).1.Tidy net := by
  cases call with
  | poll passes event =>
    rw [session, poll]
    by_cases linked : client.connected net = false
    · rw [if_pos linked]
      exact ⟨tidy.legal, tidy.last⟩
    · rw [if_neg linked]
      rw [Bool.not_eq_false] at linked
      obtain ⟨isOpen, transport⟩ := Bool.and_eq_true_iff.mp linked
      exact pollPasses_tidy passes ⟨client, event⟩ isOpen live tidy.legal
        (tidy.unclosed transport)
  | sendText payload =>
    exact sendFrame_tidy tidy ⟨addressable, fun control => absurd control (by decide), by decide⟩
      (by decide)
  | sendBinary payload =>
    exact sendFrame_tidy tidy ⟨addressable, fun control => absurd control (by decide), by decide⟩
      (by decide)
  | sendPing payload =>
    unfold session sendPing
    dsimp only
    split
    · exact ⟨tidy.legal, tidy.last⟩
    · rename_i short
      exact sendFrame_tidy tidy (sendable_short _ (by decide) (not_lt.mp short)) (by decide)
  | close code reason => exact close_tidy tidy code reason

variable (draw) in
theorem run_tidy (live : client.Live) (tidy : client.Tidy net)
    (calls : List SessionCall) (addressable : ∀ call ∈ calls, call.Addressable) :
    (Run.respond (session net draw) client calls).1.Tidy net := by
  induction calls generalizing client with
  | nil => exact tidy
  | cons call rest ih =>
    obtain ⟨here, later⟩ := List.forall_mem_cons.mp addressable
    have follows := @session_follows _ _ net draw client live call
    exact ih follows.live (session_tidy live tidy call here) later

end Legal

end WebSocketClient

open WebSocketClient

/-- Whatever is asked of a client, in whatever order, all it writes are legal masked frames, and over
a transport that closes for good it writes nothing more behind a close frame. -/
theorem session_wire_legal {τ ρ : Type} (net : Transport τ) (draw : ρ → UInt32 × ρ)
    (client : WebSocketClient τ ρ) (maxMessageBytes : Nat) (early : Bytes)
    (opened : client.Opened maxMessageBytes early) (unwritten : client.written = [])
    (calls : List SessionCall) (addressable : ∀ call ∈ calls, call.Addressable) :
    let written := (Run.respond (session net draw) client calls).1.written
    (∀ frame ∈ written, LegalFrame frame) ∧
      (net.ClosesForGood → ∀ front frame behind, written = front ++ frame :: behind →
        Closes frame → behind = []) := by
  intro written
  have start : client.Tidy net :=
    ⟨by simp [unwritten], fun _ => .inl (by simp [Unclosed, unwritten])⟩
  have tidy := run_tidy draw opened.live start calls addressable
  exact ⟨tidy.legal, fun good front frame behind => tidy.closing_last good⟩

def closable : Transport (Option (List Bytes)) where
  connected state := state.isSome
  read state len :=
    match state with
    | none => (none, .error, [])
    | some [] => (some [], .timeout, [])
    | some (data :: later) => (some later, .ok, data.take len)
  write state _ := (state, if state.isSome then .ok else .error)
  close _ := none
  lastError _ := ""
  readFits state len := by
    rcases state with _ | _ | ⟨data, later⟩ <;> simp

def pingedThenClosed : WebSocketClient (Option (List Bytes)) UInt32 where
  transport := some [[0x89, 0x01, 0x41], [0x88, 0x00]]
  reader := (fresh 125).append []
  error := ""
  rng := 7
  stats := WebSocketStats.zero
  isOpen := true
  written := []

def pollThenSend : List SessionCall :=
  [.poll 9 ⟨.continuation, [], kNoStatus⟩, .sendText [0x68], .close .normal []]

theorem session_wire_legal_closed :
    let written := (Run.respond (session closable countingKeys) pingedThenClosed pollThenSend).1.written
    (∀ frame ∈ written, LegalFrame frame) ∧
      ∀ front frame behind, written = front ++ frame :: behind → Closes frame → behind = [] := by
  have addressable : ∀ call ∈ pollThenSend, call.Addressable := by
    intro call member
    simp only [pollThenSend, List.mem_cons, List.not_mem_nil, or_false] at member
    rcases member with rfl | rfl | rfl <;> simp [SessionCall.Addressable]
  obtain ⟨legal, last⟩ := session_wire_legal closable countingKeys pingedThenClosed 125 []
    ⟨rfl, rfl⟩ rfl pollThenSend addressable
  exact ⟨legal, last fun _ => rfl⟩

end Net

end Crossbook
