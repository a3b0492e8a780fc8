import Crossbook.Lib.Replies
import Crossbook.Net.ClosingHandshake
import Crossbook.Net.ControlFrames

set_option autoImplicit false

namespace Crossbook

namespace Net

open FrameReader

inductive SessionCall where
  | poll (passes : Nat) (event : Event)
  | sendText (payload : Bytes)
  | sendBinary (payload : Bytes)
  | sendPing (payload : Bytes)
  | close (code : CloseCode) (reason : Bytes)
  deriving DecidableEq, Repr

inductive SessionReply where
  | polled (status : Option ReadStatus) (event : Event)
  | sent (sent : Bool)
  | closed
  deriving DecidableEq, Repr

def SessionReply.message : SessionReply → Option (Opcode × Bytes)
  | .polled (some .message) event => some (event.opcode, event.payload)
  | _ => none

def delivered (replies : List SessionReply) : List (Opcode × Bytes) :=
  replies.filterMap SessionReply.message

structure Traffic where
  received : Bytes
  reported : List Report
  deriving DecidableEq, Repr

namespace Traffic

def none : Traffic := ⟨[], []⟩

def thenMore (first second : Traffic) : Traffic where
  received := first.received ++ second.received
  reported := first.reported ++ second.reported

@[simp] theorem received_thenMore (first second : Traffic) :
    (first.thenMore second).received = first.received ++ second.received := rfl

@[simp] theorem reported_thenMore (first second : Traffic) :
    (first.thenMore second).reported = first.reported ++ second.reported := rfl

@[simp] theorem thenMore_none (traffic : Traffic) : traffic.thenMore none = traffic := by
  simp [thenMore, none]

end Traffic

structure Report.Formed (report : Report) : Prop where
  present : report.status ≠ .needMore → report.status.isFailure = false →
    ∃ event, report.event = some event
  short : report.status ≠ .message → ∀ event, report.event = some event →
    event.payload.length ≤ kMaxControlPayload

namespace FrameReader

theorem ready_short {reader : FrameReader} {header : FrameHeader} (ready : reader.Ready header)
    (control : header.opcode.isControl = true) :
    (reader.payloadAt header).length ≤ kMaxControlPayload := by
  obtain ⟨b0, b1, rest, pos, read⟩ := parseFrameHeader_ok ready.parsed
  have allowed := read.allowed
  have bound : header.payloadLen ≤ kMaxControlPayload := by
    by_contra large
    exact allowed (by simp [control, not_le.mp large])
  rw [payloadAt, List.length_take]
  exact (Nat.min_le_left _ _).trans bound

theorem controlReport_formed (opcode : Opcode) {payload : Bytes}
    (short : payload.length ≤ kMaxControlPayload) :
    (Assembly.controlReport opcode payload).Formed := by
  have ceiling : kMaxControlPayload = 125 := rfl
  unfold Assembly.controlReport
  split
  · exact ⟨fun _ _ => ⟨_, rfl⟩, fun _ event same => by simp_all [← Option.some.inj same]⟩
  split
  · exact ⟨fun _ _ => ⟨_, rfl⟩, fun _ event same => by simp_all [← Option.some.inj same]⟩
  rcases payload with _ | ⟨high, _ | ⟨low, rest⟩⟩
  · exact ⟨fun _ _ => ⟨_, rfl⟩, fun _ event same => by simp [← Option.some.inj same]⟩
  · exact ⟨fun _ fine => by simp [ReadStatus.isFailure] at fine,
      fun _ event same => by simp [← Option.some.inj same, ceiling]⟩
  · refine ⟨fun _ _ => ⟨_, rfl⟩, fun _ event same => ?_⟩
    simp only [List.length_cons] at short
    simp only [← Option.some.inj same]
    omega

theorem nextFrame_formed {reader after : FrameReader} {report : Report}
    (reported : reader.nextFrame = (after, some report)) : report.Formed := by
  have step := reader.nextFrame_step
  rw [reported] at step
  cases step with
  | waits => exact ⟨fun goes => absurd rfl goes, by simp⟩
  | malformed => exact ⟨fun _ fine => by simp [ReadStatus.isFailure] at fine, by simp⟩
  | masked => exact ⟨fun _ fine => by simp [ReadStatus.isFailure] at fine, by simp⟩
  | tooLarge => exact ⟨fun _ fine => by simp [ReadStatus.isFailure] at fine, by simp⟩
  | misplaced => exact ⟨fun _ fine => by simp [ReadStatus.isFailure] at fine, by simp⟩
  | whole => exact ⟨fun _ _ => ⟨_, rfl⟩, by simp⟩
  | last => exact ⟨fun _ _ => ⟨_, rfl⟩, by simp⟩
  | control ready control emitted =>
    rename_i header
    have said : Assembly.controlReport header.opcode (reader.payloadAt header) = report :=
      (emitControl_report _ _ _).symm.trans (congrArg Prod.snd emitted)
    exact said ▸ controlReport_formed header.opcode (ready_short ready control)

theorem nextFrames_formed (reader : FrameReader) : reader.nextFrames.2.Formed := by
  fun_induction nextFrames reader with
  | case1 reader stopped report stops => exact nextFrame_formed stops
  | case2 reader again goes ih => exact ih

theorem commit_nothing (reader : FrameReader) (undetermined data : Bytes)
    (fits : data.length ≤ undetermined.length) :
    ((reader.writableTail undetermined).fillTail undetermined.length data).commit 0
      undetermined.length = reader.append [] := by
  have old : (reader.compact.buf ++ undetermined).length - undetermined.length =
      reader.compact.buf.length := by
    rw [List.length_append]
    omega
  simp only [writableTail, fillTail, commit, append, old, List.take_left, List.append_nil]
  congr 1
  have filled : (reader.compact.buf ++ data ++ (reader.compact.buf ++ undetermined).drop
      (reader.compact.buf.length + data.length)).length - (undetermined.length - 0) =
        reader.compact.buf.length := by
    simp only [List.length_append, List.length_drop]
    omega
  rw [filled, List.append_assoc, List.take_left]

theorem next_formed {reader : FrameReader} (live : reader.failure = .needMore) :
    reader.next.2.Formed := by
  rw [next, if_neg (by simp [live])]
  exact nextFrames_formed _

end FrameReader

namespace WebSocketClient

section Calls

variable {τ ρ : Type} (net : Transport τ) (draw : ρ → UInt32 × ρ)

def session (client : WebSocketClient τ ρ) : SessionCall → WebSocketClient τ ρ × SessionReply
  | .poll passes event =>
    let polled := poll net draw ⟨client, event⟩ passes
    (polled.1.client, .polled polled.2 polled.1.event)
  | .sendText payload =>
    let sent := client.sendText net draw payload
    (sent.1, .sent sent.2)
  | .sendBinary payload =>
    let sent := client.sendBinary net draw payload
    (sent.1, .sent sent.2)
  | .sendPing payload =>
    let sent := client.sendPing net draw payload
    (sent.1, .sent sent.2)
  | .close code reason => (client.close net draw code reason, .closed)

def passTraffic (polling : Polling τ ρ) : Traffic :=
  let report := polling.client.reader.next.2
  if report.status = .needMore then
    let read := net.read polling.client.transport kReadChunk
    ⟨if read.2.1 = .ok then read.2.2 else [], []⟩
  else ⟨[], [report]⟩

def passesTraffic : Nat → Polling τ ρ → Traffic
  | 0, _ => .none
  | passes + 1, polling =>
    match pollPass net draw polling with
    | (next, none) => (passTraffic net polling).thenMore (passesTraffic passes next)
    | (_, some _) => passTraffic net polling

def callTraffic (client : WebSocketClient τ ρ) : SessionCall → Traffic
  | .poll passes event =>
    if client.connected net = false then .none else passesTraffic net draw passes ⟨client, event⟩
  | _ => .none

def traffic : WebSocketClient τ ρ → List SessionCall → Traffic
  | _, [] => .none
  | client, call :: rest =>
    (callTraffic net draw client call).thenMore (traffic (client.session net draw call).1 rest)

end Calls

variable {τ ρ : Type} {net : Transport τ} {draw : ρ → UInt32 × ρ}

def Live (client : WebSocketClient τ ρ) : Prop :=
  client.isOpen = true → client.reader.Sound ∧ client.reader.failure = .needMore

/-- What a stretch of traffic reported is what the reader before it had to report of the bytes that
came in, and the rest is still for the reader after it. -/
structure Follows (before : WebSocketClient τ ρ) (traffic : Traffic)
    (after : WebSocketClient τ ρ) : Prop where
  due : ∀ later, traffic.reported <+: before.reader.future (traffic.received ++ later)
  live : after.Live
  rest : after.isOpen = true → ∀ later,
    before.reader.future (traffic.received ++ later) = traffic.reported ++ after.reader.future later

theorem Follows.same {before after : WebSocketClient τ ρ} (live : before.Live)
    (reader : after.reader = before.reader) (isOpen : after.isOpen = true → before.isOpen = true) :
    Follows before .none after where
  due _ := List.nil_prefix
  live stays := reader ▸ live (isOpen stays)
  rest _ later := by simp [Traffic.none, reader]

theorem Follows.closed {before after : WebSocketClient τ ρ} {traffic : Traffic}
    (due : ∀ later, traffic.reported <+: before.reader.future (traffic.received ++ later))
    (closed : after.isOpen = false) : Follows before traffic after where
  due := due
  live stays := absurd (stays.symm.trans closed) (by decide)
  rest stays := absurd (stays.symm.trans closed) (by decide)

theorem Follows.trans {first middle last : WebSocketClient τ ρ} {early late : Traffic}
    (before : Follows first early middle) (after : Follows middle late last)
    (idle : middle.isOpen = false → late = .none ∧ last.isOpen = false) :
    Follows first (early.thenMore late) last := by
  cases stays : middle.isOpen with
  | false =>
    obtain ⟨rfl, closed⟩ := idle stays
    rw [Traffic.thenMore_none]
    exact .closed before.due closed
  | true =>
    have joined (later : Bytes) :
        first.reader.future ((early.thenMore late).received ++ later) =
          early.reported ++ middle.reader.future (late.received ++ later) := by
      rw [Traffic.received_thenMore, List.append_assoc, before.rest stays]
    refine ⟨?_, after.live, ?_⟩
    · intro later
      rw [joined, Traffic.reported_thenMore]
      exact List.prefix_append_right_inj _ |>.mpr (after.due later)
    · intro opened later
      rw [joined, after.rest opened, Traffic.reported_thenMore, List.append_assoc]

theorem sendFrame_reader (client : WebSocketClient τ ρ) (opcode : Opcode) (payload : Bytes) :
    (client.sendFrame net draw opcode payload).1.reader = client.reader := by
  unfold sendFrame nextMaskKey
  split
  · rfl
  · dsimp only
    split <;> rfl

theorem pollTransport_follows (polling : Polling τ ρ) (sound : polling.client.reader.Sound)
    (live : polling.client.reader.failure = .needMore) :
    let read := net.read polling.client.transport kReadChunk
    Follows polling.client ⟨if read.2.1 = .ok then read.2.2 else [], []⟩
      (pollTransport net polling).1.client := by
  intro read
  have fits : read.2.2.length ≤ kReadChunk := net.readFits _ _
  have tail : (List.replicate kReadChunk (0 : UInt8)).length = kReadChunk := List.length_replicate
  have taken := commit_append polling.client.reader (List.replicate kReadChunk 0) read.2.2
    (fits.trans_eq tail.symm)
  have dropped := commit_nothing polling.client.reader (List.replicate kReadChunk 0) read.2.2
    (fits.trans_eq tail.symm)
  rw [tail] at taken dropped
  have filled (data : Bytes) {after : WebSocketClient τ ρ}
      (reader : after.reader = polling.client.reader.append data) :
      Follows polling.client ⟨data, []⟩ after := by
    have extends_ := append_extends sound data
    exact
      { due := fun _ => List.nil_prefix
        live := fun _ => reader ▸ ⟨extends_.sound, extends_.failure.trans live⟩
        rest := fun _ later => by rw [reader, extends_.future]; rfl }
  unfold pollTransport
  cases status : read.2.1 with
  | ok =>
    have status : (net.read polling.client.transport kReadChunk).2.1 = .ok := status
    simp only [status, if_true]
    exact filled _ taken
  | timeout =>
    have status : (net.read polling.client.transport kReadChunk).2.1 = .timeout := status
    simp only [status, reduceCtorEq, if_false]
    exact filled _ dropped
  | closed =>
    have status : (net.read polling.client.transport kReadChunk).2.1 = .closed := status
    simp only [status, reduceCtorEq, if_false]
    exact filled _ dropped
  | error =>
    have status : (net.read polling.client.transport kReadChunk).2.1 = .error := status
    simp only [status, reduceCtorEq, if_false]
    exact filled _ dropped

theorem pollPass_follows (polling : Polling τ ρ) (sound : polling.client.reader.Sound)
    (live : polling.client.reader.failure = .needMore) :
    Follows polling.client (passTraffic net polling) (pollPass net draw polling).1.client := by
  have answer := next_answer sound live
  unfold passTraffic pollPass
  generalize polling.client.reader.next = called at answer ⊢
  obtain ⟨after, report⟩ := called
  dsimp only at answer ⊢
  cases answer with
  | wait sound live same idle =>
    have read := @pollTransport_follows _ _ net
      ⟨{ polling.client with reader := after }, polling.event⟩ sound live
    exact
      { due := fun _ => List.nil_prefix
        live := read.live
        rest := fun stays later => (same _).symm.trans (read.rest stays later) }
  | fails failed last =>
    have reported : ∀ later : Bytes, [report] <+: polling.client.reader.future ([] ++ later) :=
      fun later => (last _).symm ▸ List.prefix_rfl
    cases status : report.status with
    | protocolError => exact .closed reported rfl
    | messageTooLarge => exact .closed reported rfl
    | needMore => simp [ReadStatus.isFailure, status] at failed
    | message => simp [ReadStatus.isFailure, status] at failed
    | ping => simp [ReadStatus.isFailure, status] at failed
    | pong => simp [ReadStatus.isFailure, status] at failed
    | close => simp [ReadStatus.isFailure, status] at failed
  | reports proper fine sound live first shorter =>
    have onward {next : WebSocketClient τ ρ} (reader : next.reader = after) :
        Follows polling.client ⟨[], [report]⟩ next :=
      { due := fun later => (first _).symm ▸ ⟨_, rfl⟩
        live := fun _ => reader ▸ ⟨sound, live⟩
        rest := fun _ later => by rw [reader]; exact first later }
    cases status : report.status with
    | needMore => exact absurd status proper
    | protocolError => simp [ReadStatus.isFailure, status] at fine
    | messageTooLarge => simp [ReadStatus.isFailure, status] at fine
    | message => exact onward rfl
    | pong => exact onward rfl
    | close => exact onward (sendFrame_reader _ _ _)
    | ping =>
      simp only [reduceCtorEq, if_false]
      split
      · exact onward (sendFrame_reader _ _ _)
      · exact onward (sendFrame_reader _ _ _)

theorem pollPasses_follows (passes : Nat) (polling : Polling τ ρ)
    (isOpen : polling.client.isOpen = true) (sound : polling.client.reader.Sound)
    (live : polling.client.reader.failure = .needMore) :
    Follows polling.client (passesTraffic net draw passes polling)
      (pollPasses net draw passes polling).1.client := by
  induction passes generalizing polling with
  | zero => exact .same (fun _ => ⟨sound, live⟩) rfl id
  | succ passes ih =>
    have first := @pollPass_follows _ _ net draw polling sound live
    rw [passesTraffic, pollPasses]
    cases pass : pollPass net draw polling with
    | mk next status =>
      rw [pass] at first
      cases status with
      | some status => exact first
      | none =>
        have stays : next.client.isOpen = true := (pollPass_isOpen pass).trans isOpen
        obtain ⟨sound, live⟩ := first.live stays
        refine first.trans (ih next stays sound live) ?_
        exact fun closed => absurd (stays.symm.trans closed) (by decide)

theorem poll_idle (client : WebSocketClient τ ρ) (closed : client.isOpen = false) (passes : Nat)
    (event : Event) :
    poll net draw ⟨client, event⟩ passes =
      (⟨{ client with error := "poll: not connected" }, event⟩, some .protocolError) := by
  rw [poll, if_pos (by simp [connected, closed])]

theorem session_idle (client : WebSocketClient τ ρ) (closed : client.isOpen = false)
    (call : SessionCall) :
    callTraffic net draw client call = .none ∧ (client.session net draw call).1.isOpen = false := by
  cases call with
  | poll passes event =>
    refine ⟨by rw [callTraffic, if_pos (by simp [connected, closed])], ?_⟩
    rw [session, poll_idle client closed]
    exact closed
  | sendText payload => exact ⟨rfl, (sendFrame_isOpen client .text payload).trans closed⟩
  | sendBinary payload => exact ⟨rfl, (sendFrame_isOpen client .binary payload).trans closed⟩
  | sendPing payload =>
    refine ⟨rfl, ?_⟩
    unfold session sendPing
    dsimp only
    split
    · exact closed
    · exact (sendFrame_isOpen client .ping payload).trans closed
  | close code reason => exact ⟨rfl, rfl⟩

theorem session_follows (client : WebSocketClient τ ρ) (live : client.Live) (call : SessionCall) :
    Follows client (callTraffic net draw client call) (client.session net draw call).1 := by
  cases call with
  | poll passes event =>
    rw [callTraffic, session, poll]
    by_cases linked : client.connected net = false
    · rw [if_pos linked, if_pos linked]
      exact .same live rfl id
    · rw [if_neg linked, if_neg linked]
      rw [Bool.not_eq_false] at linked
      have isOpen := (Bool.and_eq_true_iff.mp linked).1
      obtain ⟨sound, steady⟩ := live isOpen
      exact pollPasses_follows passes ⟨client, event⟩ isOpen sound steady
  | sendText payload =>
    exact .same live (sendFrame_reader _ _ _)
      (fun opened => sendFrame_isOpen client .text payload ▸ opened)
  | sendBinary payload =>
    exact .same live (sendFrame_reader _ _ _)
      (fun opened => sendFrame_isOpen client .binary payload ▸ opened)
  | sendPing payload =>
    unfold session sendPing
    dsimp only
    split
    · exact .same live rfl id
    · exact .same live (sendFrame_reader _ _ _)
        (fun opened => sendFrame_isOpen client .ping payload ▸ opened)
  | close code reason => exact .closed (fun _ => List.nil_prefix) rfl

theorem traffic_idle (client : WebSocketClient τ ρ) (closed : client.isOpen = false)
    (calls : List SessionCall) :
    traffic net draw client calls = .none ∧
      (Run.respond (session net draw) client calls).1.isOpen = false := by
  induction calls generalizing client with
  | nil => exact ⟨rfl, closed⟩
  | cons call rest ih =>
    obtain ⟨quiet, stays⟩ := @session_idle _ _ net draw client closed call
    obtain ⟨later, last⟩ := ih (client.session net draw call).1 stays
    exact ⟨by rw [traffic, quiet, later]; rfl, last⟩

theorem run_follows (client : WebSocketClient τ ρ) (live : client.Live) (calls : List SessionCall) :
    Follows client (traffic net draw client calls)
      (Run.respond (session net draw) client calls).1 := by
  induction calls generalizing client with
  | nil => exact .same live rfl id
  | cons call rest ih =>
    have first := @session_follows _ _ net draw client live call
    exact first.trans (ih _ first.live) fun closed => traffic_idle _ closed rest

theorem pollPass_message (polling : Polling τ ρ) (live : polling.client.reader.failure = .needMore) :
    (SessionReply.polled (pollPass net draw polling).2
      (pollPass net draw polling).1.event).message.toList =
        messages (passTraffic net polling).reported := by
  have formed := next_formed live
  unfold passTraffic pollPass
  generalize polling.client.reader.next = called at formed ⊢
  obtain ⟨after, report⟩ := called
  dsimp only at formed ⊢
  cases status : report.status with
  | message =>
    obtain ⟨event, same⟩ := formed.present (by simp [status]) (by simp [status, ReadStatus.isFailure])
    simp [messages, SessionReply.message, status, same]
  | ping =>
    dsimp only
    split <;> simp [messages, SessionReply.message, status]
  | pong => simp [messages, SessionReply.message, status]
  | close => simp [messages, SessionReply.message, status]
  | protocolError => simp [messages, SessionReply.message, status]
  | messageTooLarge => simp [messages, SessionReply.message, status]
  | needMore =>
    unfold pollTransport
    dsimp only
    split <;> simp [messages, SessionReply.message]

theorem messages_thenMore (first second : Traffic) :
    messages (first.thenMore second).reported =
      messages first.reported ++ messages second.reported :=
  messages_append _ _

theorem pollPasses_message (passes : Nat) (polling : Polling τ ρ)
    (isOpen : polling.client.isOpen = true) (sound : polling.client.reader.Sound)
    (live : polling.client.reader.failure = .needMore) :
    (SessionReply.polled (pollPasses net draw passes polling).2
      (pollPasses net draw passes polling).1.event).message.toList =
        messages (passesTraffic net draw passes polling).reported := by
  induction passes generalizing polling with
  | zero => rfl
  | succ passes ih =>
    have first := @pollPass_message _ _ net draw polling live
    have follows := @pollPass_follows _ _ net draw polling sound live
    rw [passesTraffic, pollPasses]
    cases pass : pollPass net draw polling with
    | mk next status =>
      rw [pass] at first follows
      cases status with
      | some status => exact first
      | none =>
        have stays : next.client.isOpen = true := (pollPass_isOpen pass).trans isOpen
        obtain ⟨sound, live⟩ := follows.live stays
        have quiet : messages (passTraffic net polling).reported = [] := first.symm
        dsimp only
        rw [messages_thenMore, quiet, List.nil_append]
        exact ih next stays sound live

theorem session_message (client : WebSocketClient τ ρ) (live : client.Live) (call : SessionCall) :
    (client.session net draw call).2.message.toList =
      messages (callTraffic net draw client call).reported := by
  cases call with
  | poll passes event =>
    rw [callTraffic, session, poll]
    by_cases linked : client.connected net = false
    · rw [if_pos linked, if_pos linked]
      rfl
    · rw [if_neg linked, if_neg linked]
      rw [Bool.not_eq_false] at linked
      have isOpen := (Bool.and_eq_true_iff.mp linked).1
      obtain ⟨sound, steady⟩ := live isOpen
      exact pollPasses_message passes ⟨client, event⟩ isOpen sound steady
  | sendText payload => rfl
  | sendBinary payload => rfl
  | sendPing payload => rfl
  | close code reason => rfl

theorem run_messages (client : WebSocketClient τ ρ) (live : client.Live)
    (calls : List SessionCall) :
    delivered (Run.respond (session net draw) client calls).2 =
      messages (traffic net draw client calls).reported := by
  induction calls generalizing client with
  | nil => rfl
  | cons call rest ih =>
    have first := @session_message _ _ net draw client live call
    have follows := @session_follows _ _ net draw client live call
    rw [traffic, messages_thenMore, ← first, ← ih _ follows.live]
    simp only [Run.respond, delivered, List.filterMap_cons]
    cases (client.session net draw call).2.message <;> rfl

/-- An open client whose reader has nothing to report of what it holds. -/
def CaughtUp (client : WebSocketClient τ ρ) : Prop :=
  client.isOpen = true ∧ client.reader.future [] = []

theorem pollTransport_waits (polling : Polling τ ρ) (sound : polling.client.reader.Sound)
    (isOpen : polling.client.isOpen = true) (idle : polling.client.reader.future [] = [])
    (waits : (pollTransport net polling).2 = some .needMore) :
    (pollTransport net polling).1.client.CaughtUp := by
  have tail : (List.replicate kReadChunk (0 : UInt8)).length = kReadChunk := List.length_replicate
  have dropped := commit_nothing polling.client.reader (List.replicate kReadChunk 0)
    (net.read polling.client.transport kReadChunk).2.2 ((net.readFits _ _).trans_eq tail.symm)
  rw [tail] at dropped
  unfold pollTransport at waits ⊢
  cases status : (net.read polling.client.transport kReadChunk).2.1 with
  | ok => simp [status] at waits
  | closed => simp [status] at waits
  | error => simp [status] at waits
  | timeout =>
    simp only [CaughtUp, status, reduceCtorEq, if_false, dropped]
    exact ⟨isOpen, ((append_extends sound []).future []).trans idle⟩

theorem pollPass_waits (polling : Polling τ ρ) (isOpen : polling.client.isOpen = true)
    (sound : polling.client.reader.Sound) (live : polling.client.reader.failure = .needMore)
    (waits : (pollPass net draw polling).2 = some .needMore) :
    (pollPass net draw polling).1.client.CaughtUp := by
  have answer := next_answer sound live
  unfold pollPass at waits ⊢
  generalize polling.client.reader.next = called at answer waits ⊢
  obtain ⟨after, report⟩ := called
  dsimp only at answer waits ⊢
  cases status : report.status with
  | message => simp [status] at waits
  | ping =>
    simp only [status] at waits
    split at waits <;> simp at waits
  | pong => simp [status] at waits
  | close => simp [status] at waits
  | protocolError => simp [status] at waits
  | messageTooLarge => simp [status] at waits
  | needMore =>
    simp only [status] at waits ⊢
    cases answer with
    | wait sound live same idle => exact pollTransport_waits _ sound isOpen idle waits
    | fails failed last => simp [ReadStatus.isFailure, status] at failed
    | reports proper => exact absurd status proper

theorem pollPasses_waits (passes : Nat) (polling : Polling τ ρ)
    (isOpen : polling.client.isOpen = true) (sound : polling.client.reader.Sound)
    (live : polling.client.reader.failure = .needMore)
    (waits : (pollPasses net draw passes polling).2 = some .needMore) :
    (pollPasses net draw passes polling).1.client.CaughtUp := by
  induction passes generalizing polling with
  | zero => simp [pollPasses] at waits
  | succ passes ih =>
    have here := @pollPass_waits _ _ net draw polling isOpen sound live
    have follows := @pollPass_follows _ _ net draw polling sound live
    rw [pollPasses] at waits ⊢
    cases pass : pollPass net draw polling with
    | mk next status =>
      rw [pass] at here follows waits
      cases status with
      | some status => exact here waits
      | none =>
        have stays : next.client.isOpen = true := (pollPass_isOpen pass).trans isOpen
        obtain ⟨sound, live⟩ := follows.live stays
        exact ih next stays sound live waits

theorem session_waits (client : WebSocketClient τ ρ) (live : client.Live) (call : SessionCall)
    (event : Event) (waits : (client.session net draw call).2 = .polled (some .needMore) event) :
    (client.session net draw call).1.CaughtUp := by
  cases call with
  | poll passes given =>
    have status : (poll net draw ⟨client, given⟩ passes).2 = some .needMore :=
      (SessionReply.polled.inj waits).1
    rw [session]
    unfold poll at status ⊢
    split at status
    · simp at status
    · rename_i linked
      rw [if_neg linked]
      rw [Bool.not_eq_false] at linked
      have isOpen := (Bool.and_eq_true_iff.mp linked).1
      obtain ⟨sound, steady⟩ := live isOpen
      exact pollPasses_waits passes ⟨client, given⟩ isOpen sound steady status
  | sendText payload => simp [session] at waits
  | sendBinary payload => simp [session] at waits
  | sendPing payload => simp [session] at waits
  | close code reason => simp [session] at waits

theorem run_waits (client : WebSocketClient τ ρ) (live : client.Live) (calls : List SessionCall)
    (event : Event)
    (waits : (Run.respond (session net draw) client calls).2.getLast? =
      some (.polled (some .needMore) event)) :
    (Run.respond (session net draw) client calls).1.CaughtUp := by
  induction calls generalizing client with
  | nil => simp [Run.respond] at waits
  | cons call rest ih =>
    have follows := @session_follows _ _ net draw client live call
    simp only [Run.respond] at waits ⊢
    cases rest with
    | nil => exact session_waits client live call event (by simpa [Run.respond] using waits)
    | cons next later =>
      refine ih _ follows.live ?_
      rw [← waits]
      simp [Run.respond, List.getLast?_cons_cons]

/-- A client as the opening handshake leaves it: open, with a reader that holds the bytes which came
in behind the response. -/
structure Opened (client : WebSocketClient τ ρ) (maxMessageBytes : Nat) (early : Bytes) : Prop where
  isOpen : client.isOpen = true
  reader : client.reader = (fresh maxMessageBytes).append early

theorem Opened.live {client : WebSocketClient τ ρ} {maxMessageBytes : Nat} {early : Bytes}
    (opened : client.Opened maxMessageBytes early) : client.Live := by
  have extends_ := append_extends (sound_fresh maxMessageBytes) early
  exact fun _ => opened.reader ▸ ⟨extends_.sound, extends_.failure⟩

theorem Opened.future {client : WebSocketClient τ ρ} {maxMessageBytes : Nat} {early : Bytes}
    (opened : client.Opened maxMessageBytes early) (received : Bytes) :
    client.reader.future received = reports maxMessageBytes Assembly.start (early ++ received) := by
  have extends_ := append_extends (sound_fresh maxMessageBytes) early
  rw [opened.reader, extends_.future]
  rfl

end WebSocketClient

open WebSocketClient

theorem run_delivers {τ ρ : Type} (net : Transport τ) (draw : ρ → UInt32 × ρ)
    {client : WebSocketClient τ ρ} {maxMessageBytes : Nat} {early : Bytes} (live : client.Live)
    (future : ∀ received, client.reader.future received =
      reports maxMessageBytes Assembly.start (early ++ received)) (calls : List SessionCall) :
    let ran := Run.respond (session net draw) client calls
    let stream := early ++ (traffic net draw client calls).received
    let due := messages (reports maxMessageBytes Assembly.start stream)
    delivered ran.2 <+: due ∧
      ∀ event, ran.2.getLast? = some (.polled (some .needMore) event) → delivered ran.2 = due := by
  intro ran stream due
  have follows := @run_follows _ _ net draw client live calls
  have handed := @run_messages _ _ net draw client live calls
  have stream_eq := future (traffic net draw client calls).received
  constructor
  · have reported := follows.due []
    rw [List.append_nil, stream_eq] at reported
    rw [handed]
    exact reported.filterMap _
  · intro event waits
    obtain ⟨isOpen, idle⟩ := run_waits client live calls event waits
    have all := follows.rest isOpen []
    rw [idle, List.append_nil, List.append_nil, stream_eq] at all
    rw [handed, ← all]

/-- Whatever pieces the transport hands over and whenever the calls come, the application is given
the messages of the stream in order, none left out, none twice, none of its own making; and a poll
that asks for more has given it all there are so far. -/
theorem session_delivers {τ ρ : Type} (net : Transport τ) (draw : ρ → UInt32 × ρ)
    (client : WebSocketClient τ ρ) (maxMessageBytes : Nat) (early : Bytes)
    (opened : client.Opened maxMessageBytes early) (calls : List SessionCall) :
    let ran := Run.respond (session net draw) client calls
    let stream := early ++ (traffic net draw client calls).received
    let due := messages (reports maxMessageBytes Assembly.start stream)
    delivered ran.2 <+: due ∧
      ∀ event, ran.2.getLast? = some (.polled (some .needMore) event) → delivered ran.2 = due :=
  run_delivers net draw opened.live opened.future calls

def splitText : WebSocketClient (List Bytes) UInt32 where
  transport := [[0x81], [0x02, 0x68], [0x69]]
  reader := (fresh 125).append []
  error := ""
  rng := 7
  stats := WebSocketStats.zero
  isOpen := true
  written := []

theorem session_delivers_text :
    delivered (Run.respond (session scripted countingKeys) splitText
      [.poll 9 ⟨.continuation, [], kNoStatus⟩, .poll 9 ⟨.continuation, [], kNoStatus⟩]).2 <+:
        messages (reports 125 Assembly.start ([] ++ (traffic scripted countingKeys splitText
          [.poll 9 ⟨.continuation, [], kNoStatus⟩, .poll 9 ⟨.continuation, [], kNoStatus⟩]).received)) :=
  (session_delivers scripted countingKeys splitText 125 [] ⟨rfl, rfl⟩ _).1

end Net

end Crossbook
