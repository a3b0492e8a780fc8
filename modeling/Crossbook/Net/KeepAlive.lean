import Crossbook.Net.SessionWire

set_option autoImplicit false

namespace Crossbook

namespace Net

open FrameReader

def pongCount (reports : List Report) : Nat := reports.countP fun report => report.status = .pong

def SessionReply.failed : SessionReply → Bool
  | .polled (some .protocolError) _ => true
  | _ => false

/-- `took` lists what a transport has taken whole: the writes it answered with success, in order. -/
structure Transport.Logs {τ : Type} (net : Transport τ) (took : τ → List Bytes) : Prop where
  read : ∀ state len, took (net.read state len).1 = took state
  write : ∀ state data, took (net.write state data).1 =
    took state ++ if (net.write state data).2 = .ok then [data] else []
  close : ∀ state, took (net.close state) = took state

def Transport.recorded {τ : Type} (net : Transport τ) : Transport (τ × List Bytes) where
  connected state := net.connected state.1
  read state len :=
    let (after, status, data) := net.read state.1 len
    ((after, state.2), status, data)
  write state data :=
    let (after, status) := net.write state.1 data
    ((after, state.2 ++ if status = .ok then [data] else []), status)
  close state := (net.close state.1, state.2)
  lastError state := net.lastError state.1
  readFits state := net.readFits state.1

theorem Transport.recorded_logs {τ : Type} (net : Transport τ) : net.recorded.Logs Prod.snd where
  read _ _ := rfl
  write _ _ := rfl
  close _ := rfl

namespace WebSocketClient

variable {τ ρ : Type} {net : Transport τ} {draw : ρ → UInt32 × ρ} {took : τ → List Bytes}

/-- What a stretch of calls hands to the transport, and what the transport takes of it; the taken
frames, and the pongs among them, are counted. -/
structure Sends (took : τ → List Bytes) (before after : WebSocketClient τ ρ)
    (frames taken : List Bytes) : Prop where
  written : after.written = before.written ++ frames
  took : took after.transport = took before.transport ++ taken
  inOrder : taken.Sublist frames
  framesSent : after.stats.framesSent = before.stats.framesSent + UInt64.ofNat taken.length
  pongsSent : after.stats.pongsSent = before.stats.pongsSent + UInt64.ofNat (pongs taken).length

theorem pongs_append (front back : List Bytes) : pongs (front ++ back) = pongs front ++ pongs back :=
  List.filterMap_append

theorem Sends.trans {first middle last : WebSocketClient τ ρ} {front back early late : List Bytes}
    (before : Sends took first middle front early) (after : Sends took middle last back late) :
    Sends took first last (front ++ back) (early ++ late) where
  written := by rw [after.written, before.written, List.append_assoc]
  took := by rw [after.took, before.took, List.append_assoc]
  inOrder := before.inOrder.append after.inOrder
  framesSent := by
    rw [after.framesSent, before.framesSent, List.length_append, UInt64.ofNat_add, UInt64.add_assoc]
  pongsSent := by
    rw [after.pongsSent, before.pongsSent, pongs_append, List.length_append, UInt64.ofNat_add,
      UInt64.add_assoc]

theorem Sends.nothing {before after : WebSocketClient τ ρ} (written : after.written = before.written)
    (transport : took after.transport = took before.transport)
    (framesSent : after.stats.framesSent = before.stats.framesSent)
    (pongsSent : after.stats.pongsSent = before.stats.pongsSent) :
    Sends took before after [] [] where
  written := by rw [written, List.append_nil]
  took := by rw [transport, List.append_nil]
  inOrder := List.nil_sublist _
  framesSent := framesSent.trans (UInt64.add_zero _).symm
  pongsSent := pongsSent.trans (UInt64.add_zero _).symm

theorem Sends.since {before client after : WebSocketClient τ ρ} {frames taken : List Bytes}
    (sends : Sends took client after frames taken) (written : client.written = before.written)
    (transport : took client.transport = took before.transport)
    (framesSent : client.stats.framesSent = before.stats.framesSent)
    (pongsSent : client.stats.pongsSent = before.stats.pongsSent) :
    Sends took before after frames taken :=
  (Sends.nothing written transport framesSent pongsSent).trans sends

/-- The pongs handed over in a stretch of traffic answer its pings in order, each at most once, and
unless a poll failed the transport has taken one for each of them. -/
def Answers (took : τ → List Bytes) (before : WebSocketClient τ ρ) (traffic : Traffic)
    (after : WebSocketClient τ ρ) (failed : Bool) : Prop :=
  ∃ frames taken, Sends took before after frames taken ∧
    (pongs frames).Sublist (pings traffic.reported) ∧
    (failed = false → pongs taken = pings traffic.reported)

theorem Answers.quiet {before after : WebSocketClient τ ρ} {traffic : Traffic} {failed : Bool}
    {frames taken : List Bytes} (sends : Sends took before after frames taken)
    (unanswered : pongs frames = []) (unasked : pings traffic.reported = []) :
    Answers took before traffic after failed := by
  have none_ : pongs taken = [] := by
    have fewer : (pongs taken).Sublist (pongs frames) := sends.inOrder.filterMap _
    rw [unanswered] at fewer
    exact List.sublist_nil.mp fewer
  refine ⟨frames, taken, sends, ?_, fun _ => none_.trans unasked.symm⟩
  rw [unanswered]
  exact List.nil_sublist _

theorem Answers.idle (client : WebSocketClient τ ρ) (failed : Bool) :
    Answers took client .none client failed :=
  .quiet (.nothing rfl rfl rfl rfl) rfl rfl

theorem Answers.since {before client after : WebSocketClient τ ρ} {traffic : Traffic} {failed : Bool}
    (answers : Answers took client traffic after failed) (written : client.written = before.written)
    (transport : took client.transport = took before.transport)
    (framesSent : client.stats.framesSent = before.stats.framesSent)
    (pongsSent : client.stats.pongsSent = before.stats.pongsSent) :
    Answers took before traffic after failed := by
  obtain ⟨frames, taken, sends, replies⟩ := answers
  exact ⟨frames, taken, sends.since written transport framesSent pongsSent, replies⟩

theorem Answers.trans {first middle last : WebSocketClient τ ρ} {early late : Traffic}
    {failed failedLater : Bool} (before : Answers took first early middle failed)
    (after : Answers took middle late last failedLater) :
    Answers took first (early.thenMore late) last (failed || failedLater) := by
  obtain ⟨front, takenFront, sendsFront, inOrder, all⟩ := before
  obtain ⟨back, takenBack, sendsBack, inOrderLater, allLater⟩ := after
  have split : pings (early.thenMore late).reported = pings early.reported ++ pings late.reported :=
    List.filterMap_append
  refine ⟨front ++ back, takenFront ++ takenBack, sendsFront.trans sendsBack, ?_, ?_⟩
  · rw [split, pongs_append]
    exact inOrder.append inOrderLater
  · intro fine
    obtain ⟨here, there⟩ := Bool.or_eq_false_iff.mp fine
    rw [split, pongs_append, all here, allLater there]

theorem sendFrame_took (logs : net.Logs took) (client : WebSocketClient τ ρ) (opcode : Opcode)
    (payload : Bytes) :
    let sent := client.sendFrame net draw opcode payload
    let frame := sentFrame opcode payload (draw client.rng).1
    let taken := if sent.2 = true then [frame] else []
    ∃ frames, (frames = [] ∨ frames = [frame]) ∧ taken.Sublist frames ∧
      sent.1.written = client.written ++ frames ∧
      took sent.1.transport = took client.transport ++ taken ∧
      sent.1.stats = { client.stats with
        framesSent := client.stats.framesSent + UInt64.ofNat taken.length } := by
  have step := @sendFrame_step _ _ net draw client opcode payload
  have logged := logs.write client.transport (sentFrame opcode payload (draw client.rng).1)
  have same : client.stats = { client.stats with
      framesSent := client.stats.framesSent + UInt64.ofNat 0 } := by
    rw [show UInt64.ofNat 0 = 0 from rfl, UInt64.add_zero]
  generalize client.sendFrame net draw opcode payload = sent at step ⊢
  dsimp only
  cases step with
  | refused => exact ⟨[], .inl rfl, List.nil_sublist _, by simp, by simp, same⟩
  | failed linked transport rng error status refused wrote =>
    rw [wrote, if_neg refused] at logged
    exact ⟨_, .inr rfl, List.nil_sublist _, rfl, logged, same⟩
  | accepted linked transport rng wrote =>
    rw [wrote, if_pos rfl] at logged
    exact ⟨_, .inr rfl, List.Sublist.refl _, rfl, logged, rfl⟩

theorem pongs_other {opcode : Opcode} {payload : Bytes} (sendable : Sendable opcode payload)
    (other : opcode ≠ .pong) (maskKey : UInt32) : pongs [sentFrame opcode payload maskKey] = [] := by
  simp [pongs, payloadOf_sentFrame sendable, other]

variable (draw) in
theorem sendFrame_quiet (logs : net.Logs took) (client : WebSocketClient τ ρ) {opcode : Opcode}
    {payload : Bytes} (sendable : Sendable opcode payload) (other : opcode ≠ .pong) :
    ∃ frames taken, Sends took client (client.sendFrame net draw opcode payload).1 frames taken ∧
      pongs frames = [] := by
  obtain ⟨frames, one, inOrder, written, took_, stats⟩ :=
    @sendFrame_took _ _ net draw _ logs client opcode payload
  have silent : pongs frames = [] := by
    rcases one with rfl | rfl
    · rfl
    · exact pongs_other sendable other _
  refine ⟨frames, _, ⟨written, took_, inOrder, by rw [stats], ?_⟩, silent⟩
  have fewer := inOrder.filterMap (payloadOf .pong)
  change (pongs _).Sublist (pongs _) at fewer
  rw [silent, List.sublist_nil] at fewer
  rw [stats, fewer]
  exact (UInt64.add_zero _).symm

variable (draw) in
theorem close_quiet (logs : net.Logs took) (client : WebSocketClient τ ρ) (code : CloseCode)
    (reason : Bytes) :
    ∃ frames taken, Sends took client (client.close net draw code reason) frames taken ∧
      pongs frames = [] := by
  unfold close
  dsimp only
  split
  · obtain ⟨frames, taken, sends, silent⟩ := sendFrame_quiet draw logs client
      (sendable_short .close (by decide) (length_closePayload code reason)) (by decide)
    refine ⟨frames, taken, { sends with took := ?_ }, silent⟩
    rw [logs.close]
    exact sends.took
  · exact ⟨[], [], .nothing rfl (logs.close _) rfl rfl, rfl⟩

theorem pollTransport_sends (logs : net.Logs took) (polling : Polling τ ρ) :
    Sends took polling.client (pollTransport net polling).1.client [] [] := by
  have kept := logs.read polling.client.transport kReadChunk
  unfold pollTransport
  dsimp only
  split <;> exact .nothing rfl kept rfl rfl

variable (draw) in
theorem pong_answers (logs : net.Logs took) (client : WebSocketClient τ ρ) {payload : Bytes}
    (short : payload.length ≤ kMaxControlPayload) {traffic : Traffic}
    (asked : pings traffic.reported = [payload]) :
    let (after, sent) := client.sendFrame net draw .pong payload
    if sent = false then Answers took client traffic after true
    else
      Answers took client traffic
        { after with stats := { after.stats with pongsSent := after.stats.pongsSent + 1 } } false := by
  have answered (maskKey : UInt32) : pongs [sentFrame .pong payload maskKey] = [payload] := by
    simp [pongs, payloadOf_sentFrame (sendable_short .pong (by decide) short)]
  obtain ⟨frames, one, inOrder, written, took_, stats⟩ :=
    @sendFrame_took _ _ net draw _ logs client .pong payload
  have ordered : (pongs frames).Sublist (pings traffic.reported) := by
    rcases one with rfl | rfl
    · exact List.nil_sublist _
    · rw [asked, answered]
  generalize client.sendFrame net draw .pong payload = called at inOrder written took_ stats ⊢
  obtain ⟨after, _ | _⟩ := called
  · rw [if_neg Bool.false_ne_true] at inOrder took_ stats
    refine ⟨frames, [], ⟨written, took_, inOrder, by rw [stats], ?_⟩, ordered, nofun⟩
    rw [stats]
    exact (UInt64.add_zero _).symm
  · rw [if_pos rfl] at inOrder took_ stats
    refine ⟨frames, _, ⟨written, took_, inOrder, by rw [stats], ?_⟩, ordered, fun _ => ?_⟩
    · rw [stats, answered]
      rfl
    · rw [answered, asked]

theorem pollPass_answers (logs : net.Logs took) (polling : Polling τ ρ)
    (live : polling.client.reader.failure = .needMore) :
    Answers took polling.client (passTraffic net polling) (pollPass net draw polling).1.client
      ((pollPass net draw polling).2 == some .protocolError) := by
  have formed := next_formed live
  unfold passTraffic pollPass
  generalize polling.client.reader.next = called at formed ⊢
  obtain ⟨after, report⟩ := called
  dsimp only at formed ⊢
  cases status : report.status with
  | message => exact .quiet (.nothing rfl rfl rfl rfl) rfl (by simp [pings, status])
  | pong => exact .quiet (.nothing rfl rfl rfl rfl) rfl (by simp [pings, status])
  | needMore =>
    have sends := pollTransport_sends logs
      ⟨{ polling.client with reader := after }, report.event.getD polling.event⟩
    exact .quiet (sends.since rfl rfl rfl rfl) rfl (by simp [pings])
  | protocolError =>
    obtain ⟨frames, taken, sends, silent⟩ := close_quiet draw logs
      ({ polling.client with reader := after, error := "peer violated RFC 6455" } :
        WebSocketClient τ ρ) .protocolError (bytes "protocol error")
    exact .quiet (sends.since rfl rfl rfl rfl) silent (by simp [pings, status])
  | messageTooLarge =>
    obtain ⟨frames, taken, sends, silent⟩ := close_quiet draw logs
      ({ polling.client with
          reader := after, error := "message exceeded the configured ceiling" } :
        WebSocketClient τ ρ) .messageTooBig (bytes "message too big")
    exact .quiet (sends.since rfl rfl rfl rfl) silent (by simp [pings, status])
  | close =>
    obtain ⟨event, same⟩ := formed.present (by simp [status]) (by simp [status, ReadStatus.isFailure])
    have short := formed.short (by simp [status]) event same
    obtain ⟨frames, taken, sends, silent⟩ := sendFrame_quiet draw logs
      ({ polling.client with reader := after } : WebSocketClient τ ρ)
      (sendable_short .close (by decide) short) (by decide)
    rw [same]
    exact .quiet ⟨sends.written, (logs.close _).trans sends.took, sends.inOrder, sends.framesSent,
      sends.pongsSent⟩ silent (by simp [pings, status])
  | ping =>
    obtain ⟨event, same⟩ := formed.present (by simp [status]) (by simp [status, ReadStatus.isFailure])
    have short := formed.short (by simp [status]) event same
    have asked : pings [report] = [event.payload] := by simp [pings, status, same]
    rw [same]
    simp only [Option.getD_some, reduceCtorEq, if_false]
    generalize pinged : ({ polling.client with
        reader := after
        stats := { polling.client.stats with
          pingsReceived := polling.client.stats.pingsReceived + 1 } } : WebSocketClient τ ρ) = client
    have answers := pong_answers draw logs client short
      (show pings (Traffic.reported ⟨[], [report]⟩) = [event.payload] from asked)
    generalize client.sendFrame net draw .pong event.payload = called at answers ⊢
    subst pinged
    obtain ⟨sent, _ | _⟩ := called <;> exact Answers.since answers rfl rfl rfl rfl

theorem pollPasses_answers (logs : net.Logs took) (passes : Nat) (polling : Polling τ ρ)
    (isOpen : polling.client.isOpen = true) (live : polling.client.Live) :
    Answers took polling.client (passesTraffic net draw passes polling)
      (pollPasses net draw passes polling).1.client
      ((pollPasses net draw passes polling).2 == some .protocolError) := by
  induction passes generalizing polling with
  | zero => exact .idle _ _
  | succ passes ih =>
    obtain ⟨sound, steady⟩ := live isOpen
    have first := @pollPass_answers _ _ net draw _ logs polling steady
    have follows := @pollPass_follows _ _ net draw polling sound steady
    rw [passesTraffic, pollPasses]
    cases pass : pollPass net draw polling with
    | mk next status =>
      rw [pass] at first follows
      cases status with
      | some status => exact first
      | none => exact first.trans (ih next ((pollPass_isOpen pass).trans isOpen) follows.live)

theorem failed_polled (status : Option ReadStatus) (event : Event) :
    (SessionReply.polled status event).failed = (status == some .protocolError) := by
  rcases status with _ | status
  · rfl
  · cases status <;> rfl

theorem session_answers (logs : net.Logs took) (client : WebSocketClient τ ρ) (live : client.Live)
    (call : SessionCall) (addressable : call.Addressable) :
    Answers took client (callTraffic net draw client call) (client.session net draw call).1
      (client.session net draw call).2.failed := by
  have data {opcode : Opcode} {payload : Bytes} (sendable : Sendable opcode payload)
      (other : opcode ≠ .pong) (failed : Bool) :
      Answers took client .none (client.sendFrame net draw opcode payload).1 failed := by
    obtain ⟨frames, taken, sends, silent⟩ := sendFrame_quiet draw logs client sendable other
    exact .quiet sends silent rfl
  cases call with
  | poll passes event =>
    rw [callTraffic, session, failed_polled, poll]
    by_cases linked : client.connected net = false
    · rw [if_pos linked, if_pos linked]
      exact .quiet (.nothing rfl rfl rfl rfl) rfl rfl
    · rw [if_neg linked, if_neg linked]
      rw [Bool.not_eq_false] at linked
      exact pollPasses_answers logs passes ⟨client, event⟩ (Bool.and_eq_true_iff.mp linked).1 live
  | sendText payload =>
    exact data ⟨addressable, fun control => absurd control (by decide), by decide⟩ (by decide) _
  | sendBinary payload =>
    exact data ⟨addressable, fun control => absurd control (by decide), by decide⟩ (by decide) _
  | sendPing payload =>
    unfold session sendPing
    dsimp only
    split
    · exact .quiet (.nothing rfl rfl rfl rfl) rfl rfl
    · rename_i short
      exact data (sendable_short _ (by decide) (not_lt.mp short)) (by decide) _
  | close code reason =>
    obtain ⟨frames, taken, sends, silent⟩ := close_quiet draw logs client code reason
    exact .quiet sends silent rfl

theorem run_answers (logs : net.Logs took) (client : WebSocketClient τ ρ) (live : client.Live)
    (calls : List SessionCall) (addressable : ∀ call ∈ calls, call.Addressable) :
    Answers took client (traffic net draw client calls)
      (Run.respond (session net draw) client calls).1
      ((Run.respond (session net draw) client calls).2.any SessionReply.failed) := by
  induction calls generalizing client with
  | nil => exact .idle _ _
  | cons call rest ih =>
    obtain ⟨here, later⟩ := List.forall_mem_cons.mp addressable
    have follows := @session_follows _ _ net draw client live call
    exact (session_answers logs client live call here).trans (ih _ follows.live later)

end WebSocketClient

structure WebSocketStats.Counted (before : WebSocketStats) (traffic : Traffic)
    (after : WebSocketStats) : Prop where
  messages : after.messages = before.messages + UInt64.ofNat (Net.messages traffic.reported).length
  bytesReceived : after.bytesReceived =
    before.bytesReceived + UInt64.ofNat traffic.received.length
  pingsReceived : after.pingsReceived =
    before.pingsReceived + UInt64.ofNat (pings traffic.reported).length
  pongsReceived : after.pongsReceived =
    before.pongsReceived + UInt64.ofNat (pongCount traffic.reported)

def WebSocketStats.Same (before after : WebSocketStats) : Prop :=
  after = { before with framesSent := after.framesSent }

namespace WebSocketStats

theorem Same.counted {before after : WebSocketStats} (same : before.Same after) :
    before.Counted .none after := by
  unfold Same at same
  rw [same]
  exact ⟨(UInt64.add_zero _).symm, (UInt64.add_zero _).symm, (UInt64.add_zero _).symm,
    (UInt64.add_zero _).symm⟩

theorem Counted.trans {first middle last : WebSocketStats} {early late : Traffic}
    (before : first.Counted early middle) (after : middle.Counted late last) :
    first.Counted (early.thenMore late) last := by
  have handed : Net.messages (early.thenMore late).reported =
      Net.messages early.reported ++ Net.messages late.reported := messages_append _ _
  have pinged : pings (early.thenMore late).reported = pings early.reported ++ pings late.reported :=
    List.filterMap_append
  have ponged : pongCount (early.thenMore late).reported =
      pongCount early.reported + pongCount late.reported := List.countP_append
  constructor
  · rw [after.messages, before.messages, handed, List.length_append, UInt64.ofNat_add,
      UInt64.add_assoc]
  · rw [after.bytesReceived, before.bytesReceived, Traffic.received_thenMore, List.length_append,
      UInt64.ofNat_add, UInt64.add_assoc]
  · rw [after.pingsReceived, before.pingsReceived, pinged, List.length_append, UInt64.ofNat_add,
      UInt64.add_assoc]
  · rw [after.pongsReceived, before.pongsReceived, ponged, UInt64.ofNat_add, UInt64.add_assoc]

theorem counted_report {before after : WebSocketStats} {report : Report}
    (received : after.bytesReceived = before.bytesReceived)
    (handed : after.messages = before.messages + UInt64.ofNat (Net.messages [report]).length)
    (asked : after.pingsReceived = before.pingsReceived + UInt64.ofNat (pings [report]).length)
    (answered : after.pongsReceived = before.pongsReceived + UInt64.ofNat (pongCount [report])) :
    before.Counted ⟨[], [report]⟩ after :=
  ⟨handed, received.trans (UInt64.add_zero _).symm, asked, answered⟩

theorem Same.counted_report {before after : WebSocketStats} (same : before.Same after)
    {report : Report} (quiet : Net.messages [report] = []) (unasked : pings [report] = [])
    (unanswered : pongCount [report] = 0) : before.Counted ⟨[], [report]⟩ after := by
  unfold Same at same
  rw [same]
  apply WebSocketStats.counted_report
  · rfl
  · rw [quiet]; exact (UInt64.add_zero _).symm
  · rw [unasked]; exact (UInt64.add_zero _).symm
  · rw [unanswered]; exact (UInt64.add_zero _).symm

end WebSocketStats

namespace WebSocketClient

variable {τ ρ : Type} {net : Transport τ} {draw : ρ → UInt32 × ρ}

theorem sendFrame_sameCounts (client : WebSocketClient τ ρ) (opcode : Opcode) (payload : Bytes) :
    client.stats.Same (client.sendFrame net draw opcode payload).1.stats := by
  have step := @sendFrame_step _ _ net draw client opcode payload
  generalize client.sendFrame net draw opcode payload = sent at step ⊢
  cases step <;> rfl

theorem close_sameCounts (client : WebSocketClient τ ρ) (code : CloseCode) (reason : Bytes) :
    client.stats.Same (client.close net draw code reason).stats := by
  unfold close
  dsimp only
  split
  · exact sendFrame_sameCounts client _ _
  · rfl

theorem pollTransport_counted (polling : Polling τ ρ) :
    let read := net.read polling.client.transport kReadChunk
    polling.client.stats.Counted ⟨if read.2.1 = .ok then read.2.2 else [], []⟩
      (pollTransport net polling).1.client.stats := by
  intro read
  unfold pollTransport
  have same : polling.client.stats.Same polling.client.stats := rfl
  have idle := same.counted
  cases status : read.2.1 with
  | ok =>
    have status : (net.read polling.client.transport kReadChunk).2.1 = .ok := status
    simp only [status, if_true]
    exact ⟨(UInt64.add_zero _).symm, rfl, (UInt64.add_zero _).symm, (UInt64.add_zero _).symm⟩
  | timeout =>
    have status : (net.read polling.client.transport kReadChunk).2.1 = .timeout := status
    simp only [status, reduceCtorEq, if_false]
    exact idle
  | closed =>
    have status : (net.read polling.client.transport kReadChunk).2.1 = .closed := status
    simp only [status, reduceCtorEq, if_false]
    exact idle
  | error =>
    have status : (net.read polling.client.transport kReadChunk).2.1 = .error := status
    simp only [status, reduceCtorEq, if_false]
    exact idle

theorem pollPass_counted (polling : Polling τ ρ) (live : polling.client.reader.failure = .needMore) :
    polling.client.stats.Counted (passTraffic net polling)
      (pollPass net draw polling).1.client.stats := by
  have formed := next_formed live
  unfold passTraffic pollPass
  generalize polling.client.reader.next = called at formed ⊢
  obtain ⟨after, report⟩ := called
  dsimp only at formed ⊢
  cases status : report.status with
  | needMore =>
    exact @pollTransport_counted _ _ net
      ⟨{ polling.client with reader := after }, report.event.getD polling.event⟩
  | close =>
    exact (sendFrame_sameCounts
      ({ polling.client with reader := after } : WebSocketClient τ ρ) .close _).counted_report
      (by simp [messages, status]) (by simp [pings, status]) (by simp [pongCount, status])
  | protocolError =>
    exact (close_sameCounts
      ({ polling.client with reader := after, error := "peer violated RFC 6455" } :
        WebSocketClient τ ρ) .protocolError (bytes "protocol error")).counted_report
      (by simp [messages, status]) (by simp [pings, status]) (by simp [pongCount, status])
  | messageTooLarge =>
    exact (close_sameCounts
      ({ polling.client with
          reader := after, error := "message exceeded the configured ceiling" } :
        WebSocketClient τ ρ) .messageTooBig (bytes "message too big")).counted_report
      (by simp [messages, status]) (by simp [pings, status]) (by simp [pongCount, status])
  | message =>
    obtain ⟨event, same⟩ := formed.present (by simp [status]) (by simp [status, ReadStatus.isFailure])
    have one : messages [report] = [(event.opcode, event.payload)] := by simp [messages, status, same]
    have unasked : pings [report] = [] := by simp [pings, status]
    have unanswered : pongCount [report] = 0 := by simp [pongCount, status]
    apply WebSocketStats.counted_report
    · rfl
    · rw [one]; rfl
    · rw [unasked]; exact (UInt64.add_zero _).symm
    · rw [unanswered]; exact (UInt64.add_zero _).symm
  | pong =>
    have quiet : messages [report] = [] := by simp [messages, status]
    have unasked : pings [report] = [] := by simp [pings, status]
    have one : pongCount [report] = 1 := by simp [pongCount, status]
    apply WebSocketStats.counted_report
    · rfl
    · rw [quiet]; exact (UInt64.add_zero _).symm
    · rw [unasked]; exact (UInt64.add_zero _).symm
    · rw [one]; rfl
  | ping =>
    obtain ⟨event, same⟩ := formed.present (by simp [status]) (by simp [status, ReadStatus.isFailure])
    have quiet : messages [report] = [] := by simp [messages, status]
    have one : pings [report] = [event.payload] := by simp [pings, status, same]
    have unanswered : pongCount [report] = 0 := by simp [pongCount, status]
    simp only [reduceCtorEq, if_false]
    generalize pinged : ({ polling.client with
        reader := after
        stats := { polling.client.stats with
          pingsReceived := polling.client.stats.pingsReceived + 1 } } : WebSocketClient τ ρ) = client
    have counts := @sendFrame_sameCounts _ _ net draw client .pong
      (report.event.getD polling.event).payload
    generalize client.sendFrame net draw .pong (report.event.getD polling.event).payload = sent
      at counts ⊢
    subst pinged
    unfold WebSocketStats.Same at counts
    have counted : polling.client.stats.Counted ⟨[], [report]⟩ sent.1.stats := by
      rw [counts]
      apply WebSocketStats.counted_report
      · rfl
      · rw [quiet]; exact (UInt64.add_zero _).symm
      · rw [one]; rfl
      · rw [unanswered]; exact (UInt64.add_zero _).symm
    -- The pong may fail, which changes nothing of what has come in.
    split
    · exact counted
    · exact ⟨counted.messages, counted.bytesReceived, counted.pingsReceived, counted.pongsReceived⟩

theorem pollPasses_counted (passes : Nat) (polling : Polling τ ρ)
    (isOpen : polling.client.isOpen = true) (live : polling.client.Live) :
    polling.client.stats.Counted (passesTraffic net draw passes polling)
      (pollPasses net draw passes polling).1.client.stats := by
  induction passes generalizing polling with
  | zero =>
    have same : polling.client.stats.Same polling.client.stats := rfl
    exact same.counted
  | succ passes ih =>
    obtain ⟨sound, steady⟩ := live isOpen
    have first := @pollPass_counted _ _ net draw polling steady
    have follows := @pollPass_follows _ _ net draw polling sound steady
    rw [passesTraffic, pollPasses]
    cases pass : pollPass net draw polling with
    | mk next status =>
      rw [pass] at first follows
      cases status with
      | some status => exact first
      | none => exact first.trans (ih next ((pollPass_isOpen pass).trans isOpen) follows.live)

theorem session_counted (client : WebSocketClient τ ρ) (live : client.Live) (call : SessionCall) :
    client.stats.Counted (callTraffic net draw client call)
      (client.session net draw call).1.stats := by
  have same : client.stats.Same client.stats := rfl
  cases call with
  | poll passes event =>
    rw [callTraffic, session, poll]
    by_cases linked : client.connected net = false
    · rw [if_pos linked, if_pos linked]
      exact same.counted
    · rw [if_neg linked, if_neg linked]
      rw [Bool.not_eq_false] at linked
      exact pollPasses_counted passes ⟨client, event⟩ (Bool.and_eq_true_iff.mp linked).1 live
  | sendText payload => exact (sendFrame_sameCounts client .text payload).counted
  | sendBinary payload => exact (sendFrame_sameCounts client .binary payload).counted
  | sendPing payload =>
    unfold session sendPing
    dsimp only
    split
    · exact same.counted
    · exact (sendFrame_sameCounts client .ping payload).counted
  | close code reason => exact (close_sameCounts client code reason).counted

theorem run_counted (client : WebSocketClient τ ρ) (live : client.Live) (calls : List SessionCall) :
    client.stats.Counted (traffic net draw client calls)
      (Run.respond (session net draw) client calls).1.stats := by
  induction calls generalizing client with
  | nil =>
    have same : client.stats.Same client.stats := rfl
    exact same.counted
  | cons call rest ih =>
    have follows := @session_follows _ _ net draw client live call
    exact (session_counted client live call).trans (ih _ follows.live)

end WebSocketClient

open WebSocketClient

/-- Over any session the counters are exact: what came in against what the reader reported of the
stream, what went out against what the transport took. The pongs written answer the pings reported in
order, each with its own payload and at most once, and unless a poll failed the transport has taken
one for every ping. -/
theorem session_answers_pings {τ ρ : Type} (net : Transport τ) (took : τ → List Bytes)
    (logs : net.Logs took) (draw : ρ → UInt32 × ρ) (client : WebSocketClient τ ρ)
    (maxMessageBytes : Nat) (early : Bytes) (opened : client.Opened maxMessageBytes early)
    (unwritten : client.written = []) (untaken : took client.transport = [])
    (uncounted : client.stats = WebSocketStats.zero) (calls : List SessionCall)
    (addressable : ∀ call ∈ calls, call.Addressable) :
    let ran := Run.respond (session net draw) client calls
    let arrived := traffic net draw client calls
    let due := reports maxMessageBytes Assembly.start (early ++ arrived.received)
    let taken := took ran.1.transport
    arrived.reported <+: due ∧
      (∀ event, ran.2.getLast? = some (.polled (some .needMore) event) → arrived.reported = due) ∧
      delivered ran.2 = messages arrived.reported ∧
      ran.1.stats = {
        messages := UInt64.ofNat (messages arrived.reported).length
        bytesReceived := UInt64.ofNat arrived.received.length
        pingsReceived := UInt64.ofNat (pings arrived.reported).length
        pongsSent := UInt64.ofNat (pongs taken).length
        pongsReceived := UInt64.ofNat (pongCount arrived.reported)
        framesSent := UInt64.ofNat taken.length } ∧
      taken.Sublist ran.1.written ∧
      (pongs ran.1.written).Sublist (pings arrived.reported) ∧
      (ran.2.any SessionReply.failed = false → pongs taken = pings arrived.reported) := by
  intro ran arrived due taken
  have follows := @run_follows _ _ net draw client opened.live calls
  have counted := @run_counted _ _ net draw client opened.live calls
  obtain ⟨frames, kept, sends, inOrder, all⟩ :=
    @run_answers _ _ net draw _ logs client opened.live calls addressable
  have written := sends.written
  have took_ := sends.took
  rw [unwritten, List.nil_append] at written
  rw [untaken, List.nil_append] at took_
  have framesSent := sends.framesSent
  have pongsSent := sends.pongsSent
  rw [uncounted] at counted framesSent pongsSent
  have stream := opened.future arrived.received
  have reported := follows.due []
  rw [List.append_nil, stream] at reported
  have fromZero (n : UInt64) : 0 + n = n := UInt64.zero_add n
  refine ⟨reported, ?_, run_messages client opened.live calls, ?_, ?_, ?_, ?_⟩
  · intro event waits
    obtain ⟨isOpen, idle⟩ := run_waits client opened.live calls event waits
    have whole := follows.rest isOpen []
    rw [idle, List.append_nil, List.append_nil, stream] at whole
    exact whole.symm
  · have stats : ran.1.stats = ⟨_, _, _, _, _, _⟩ := rfl
    rw [stats, counted.messages, counted.bytesReceived, counted.pingsReceived, counted.pongsReceived,
      framesSent, pongsSent]
    change WebSocketStats.mk (0 + _) (0 + _) (0 + _) (0 + _) (0 + _) (0 + _) = _
    simp only [fromZero, taken, ran, took_, arrived]
  · change (took ran.1.transport).Sublist ran.1.written
    rw [written, took_]
    exact sends.inOrder
  · rw [written]
    exact inOrder
  · intro fine
    change pongs (took ran.1.transport) = _
    rw [took_]
    exact all fine

-- The transport of `closable` with a list of what it has taken, and nothing in it yet.
def recordedPing : WebSocketClient (Option (List Bytes) × List Bytes) UInt32 where
  transport := (pingedThenClosed.transport, [])
  reader := pingedThenClosed.reader
  error := ""
  rng := 7
  stats := WebSocketStats.zero
  isOpen := true
  written := []

theorem session_answers_pings_closed :
    let ran := Run.respond (session closable.recorded countingKeys) recordedPing pollThenSend
    ran.1.stats.pongsSent = UInt64.ofNat (pongs ran.1.transport.2).length ∧
      ran.2.any SessionReply.failed = false ∧ pongs ran.1.transport.2 = [[0x41]] := by
  have addressable : ∀ call ∈ pollThenSend, call.Addressable := by
    intro call member
    simp only [pollThenSend, List.mem_cons, List.not_mem_nil, or_false] at member
    rcases member with rfl | rfl | rfl <;> simp [SessionCall.Addressable]
  obtain ⟨-, -, -, stats, -, -, all⟩ := session_answers_pings closable.recorded Prod.snd
    closable.recorded_logs countingKeys recordedPing 125 [] ⟨rfl, rfl⟩ rfl rfl rfl pollThenSend
    addressable
  refine ⟨congrArg WebSocketStats.pongsSent stats, by decide +kernel, by decide +kernel⟩

end Net

end Crossbook
