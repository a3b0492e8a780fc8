import Crossbook.Net.ControlFrames
import Crossbook.Net.Session
import Crossbook.Tools.Live

set_option autoImplicit false

namespace Crossbook

namespace Net

variable {maxMessageBytes : Nat}

theorem receive_bounded {assembly : Assembly} {opcode : Opcode} {fin : Bool} {payload : Bytes}
    (gathered : assembly.gathered.length ≤ maxMessageBytes)
    (fits : assembly.gathered.length + payload.length ≤ maxMessageBytes) :
    (assembly.receive opcode fin payload).1.gathered.length ≤ maxMessageBytes ∧
      ∀ report ∈ (assembly.receive opcode fin payload).2, ∀ event ∈ report.event,
        report.status = .message → event.payload.length ≤ maxMessageBytes := by
  unfold Assembly.receive
  split
  · refine ⟨gathered, ?_⟩
    intro report member event _ status
    obtain rfl := Option.mem_some.mp member
    unfold Assembly.controlReport at status
    split at status
    · simp at status
    · split at status
      · simp at status
      · split at status <;> simp at status
  · split
    · refine ⟨gathered, ?_⟩
      intro report member event _ status
      obtain rfl := Option.mem_some.mp member
      simp at status
    · dsimp only
      split
      · refine ⟨Nat.zero_le _, ?_⟩
        intro report member event inside _
        obtain rfl := Option.mem_some.mp member
        obtain rfl := Option.mem_some.mp inside
        dsimp only
        split
        · rw [List.length_append]
          exact fits
        · omega
      · refine ⟨?_, by simp⟩
        rw [List.length_append]
        exact fits

theorem pass_bounded {assembly : Assembly} {stream : Bytes} {step : Pass}
    (gathered : assembly.gathered.length ≤ maxMessageBytes)
    (passed : pass maxMessageBytes assembly stream = some step) :
    step.assembly.gathered.length ≤ maxMessageBytes ∧
      ∀ report ∈ step.report, ∀ event ∈ report.event,
        report.status = .message → event.payload.length ≤ maxMessageBytes := by
  unfold pass at passed
  split at passed
  · contradiction
  · obtain rfl := Option.some.inj passed
    exact ⟨gathered, by simp⟩
  split at passed
  · obtain rfl := Option.some.inj passed
    exact ⟨gathered, by simp⟩
  split at passed
  · obtain rfl := Option.some.inj passed
    exact ⟨gathered, by simp⟩
  rename_i fits
  split at passed
  · contradiction
  obtain rfl := Option.some.inj passed
  rw [tooLarge] at fits
  refine receive_bounded gathered ?_
  rw [List.length_take]
  omega

theorem messages_bounded (assembly : Assembly) (stream : Bytes)
    (gathered : assembly.gathered.length ≤ maxMessageBytes) :
    ∀ message ∈ messages (reports maxMessageBytes assembly stream),
      message.2.length ≤ maxMessageBytes := by
  have reported : ∀ report ∈ reports maxMessageBytes assembly stream, ∀ event ∈ report.event,
      report.status = .message → event.payload.length ≤ maxMessageBytes := by
    fun_induction reports maxMessageBytes assembly stream with
    | case1 => simp
    | case2 assembly stream next rest passed ih =>
      exact ih (pass_bounded gathered passed).1
    | case3 assembly stream next rest report passed failed =>
      intro other member
      obtain rfl := List.mem_singleton.mp member
      exact (pass_bounded gathered passed).2 other rfl
    | case4 assembly stream next rest report passed fine ih =>
      obtain ⟨kept, here⟩ := pass_bounded gathered passed
      exact List.forall_mem_cons.mpr ⟨here report rfl, ih kept⟩
  intro message member
  obtain ⟨report, inside, found⟩ := List.mem_filterMap.mp member
  split at found
  · rename_i status
    obtain ⟨event, held, rfl⟩ := Option.map_eq_some_iff.mp found
    exact reported report inside event held status
  · contradiction

end Net

namespace Tools

open Net

/-- A message as it is recorded. No object is larger than the largest object. -/
def received (now : Int64) (payload : Bytes) : CapturedFrame where
  tsRecv := now
  payload := payload.take (2 ^ 63 - 1)
  addressable := by
    rw [List.length_take]
    omega

inductive Ending where
  | peerClosed
  | failed
  deriving DecidableEq, Repr

structure Driver (τ ρ : Type) (S : Type) [SideImpl S] where
  client : WebSocketClient τ ρ
  live : Live S
  ending : Option Ending

/-- Once round the loop: how long `poll` goes on, and what the clock says when it returns. -/
structure Round where
  passes : Nat
  now : Int64
  deriving DecidableEq, Repr

namespace Driver

section Rounds

variable {τ ρ S : Type} [SideImpl S] [LawfulSideImpl S] (net : Transport τ) (draw : ρ → UInt32 × ρ)

def sendTexts (client : WebSocketClient τ ρ) (texts : List Bytes) : WebSocketClient τ ρ :=
  texts.foldl (fun client text => (client.sendText net draw text).1) client

def take (driver : Driver τ ρ S) (frame : CapturedFrame) : Driver τ ρ S :=
  match driver.live.message frame with
  | none => { driver with ending := some .failed }
  | some live =>
    { driver with
      client := sendTexts net draw driver.client (live.sent.drop driver.live.sent.length)
      live := live }

def round (driver : Driver τ ρ S) (round : Round) : Driver τ ρ S :=
  if driver.ending.isSome then driver
  else
    let polled := WebSocketClient.poll net draw ⟨driver.client, ⟨.continuation, [], kNoStatus⟩⟩
      round.passes
    let driver := { driver with client := polled.1.client }
    match polled.2 with
    -- The call has not returned yet.
    | none => driver
    | some .needMore => driver
    | some .message => driver.take net draw (received round.now polled.1.event.payload)
    | some .close => { driver with ending := some .peerClosed }
    | some _ => { driver with ending := some .failed }

def run (driver : Driver τ ρ S) (rounds : List Round) : Driver τ ρ S :=
  rounds.foldl (round net draw) driver

def enter (client : WebSocketClient τ ρ) (options : Options) (startUnixNs : Option Int64) :
    Option (Driver τ ρ S) :=
  let sent := client.sendText net draw (krakenSubscribe options.symbol options.depth true)
  if sent.2 = false then none
  else (Live.start options startUnixNs).map fun live => ⟨sent.1, live, none⟩

end Rounds

section Hears

variable {τ ρ S : Type} [SideImpl S] [LawfulSideImpl S] {net : Transport τ} {draw : ρ → UInt32 × ρ}

open WebSocketClient

def heardPayload (message : Opcode × Bytes) : Bytes := (received 0 message.2).payload

theorem poll_silent {client : WebSocketClient τ ρ} {given : Event} {passes : Nat}
    (other : (WebSocketClient.poll net draw ⟨client, given⟩ passes).2 ≠ some .message) :
    delivered (Run.respond (session net draw) client [.poll passes given]).2 = [] := by
  simp only [Run.respond, session, delivered, List.filterMap_cons, List.filterMap_nil]
  generalize (WebSocketClient.poll net draw ⟨client, given⟩ passes).2 = status at other ⊢
  rcases status with _ | _ | _ | _ | _ | _ | _ | _ <;> simp_all [SessionReply.message]

theorem poll_hears {client : WebSocketClient τ ρ} {given : Event} {passes : Nat}
    (status : (WebSocketClient.poll net draw ⟨client, given⟩ passes).2 = some .message) :
    let event := (WebSocketClient.poll net draw ⟨client, given⟩ passes).1.event
    delivered (Run.respond (session net draw) client [.poll passes given]).2 =
      [(event.opcode, event.payload)] := by
  simp only [Run.respond, session, delivered, status]
  rfl

theorem delivered_payloads {client : WebSocketClient τ ρ} {maxMessageBytes : Nat} {early : Bytes}
    (live : client.Live) (future : ∀ received, client.reader.future received =
      reports maxMessageBytes Assembly.start (early ++ received))
    (addressable : maxMessageBytes < 2 ^ 63) (calls : List SessionCall) :
    let ran := Run.respond (session net draw) client calls
    let stream := early ++ (traffic net draw client calls).received
    let due := (messages (reports maxMessageBytes Assembly.start stream)).map Prod.snd
    (delivered ran.2).map heardPayload <+: due ∧
      (ran.1.CaughtUp → (delivered ran.2).map heardPayload = due) := by
  intro ran stream due
  obtain ⟨inOrder, -⟩ := run_delivers net draw live future calls
  have whole : (delivered ran.2).map heardPayload = (delivered ran.2).map Prod.snd := by
    refine List.map_congr_left fun message member => ?_
    have bound := messages_bounded Assembly.start _ (Nat.zero_le maxMessageBytes) message
      (inOrder.subset member)
    exact List.take_of_length_le (by omega)
  constructor
  · rw [whole]
    exact inOrder.map Prod.snd
  · rintro ⟨isOpen, idle⟩
    have follows := @run_follows _ _ net draw client live calls
    have all := follows.rest isOpen []
    rw [idle, List.append_nil, List.append_nil, future] at all
    rw [whole, run_messages client live, ← all]

structure Drives (net : Transport τ) (draw : ρ → UInt32 × ρ) (before : Driver τ ρ S)
    (calls : List SessionCall) (frames : List CapturedFrame) (after : Driver τ ρ S) : Prop where
  client : after.client = (Run.respond (session net draw) before.client calls).1
  live : Live.messages frames before.live = some after.live
  payloads : frames.map CapturedFrame.payload =
    (delivered (Run.respond (session net draw) before.client calls).2).map heardPayload

theorem messages_append (front later : List CapturedFrame) (live : Live S) :
    Live.messages (front ++ later) live = (Live.messages front live).bind (Live.messages later) := by
  induction front generalizing live with
  | nil => rfl
  | cons frame rest ih =>
    rw [List.cons_append, Live.messages, Live.messages]
    cases live.message frame with
    | none => rfl
    | some next => exact ih next

theorem Drives.still (driver : Driver τ ρ S) : Drives net draw driver [] [] driver :=
  ⟨rfl, rfl, rfl⟩

theorem Drives.trans {first middle last : Driver τ ρ S} {calls more : List SessionCall}
    {frames later : List CapturedFrame} (before : Drives net draw first calls frames middle)
    (after : Drives net draw middle more later last) :
    Drives net draw first (calls ++ more) (frames ++ later) last where
  client := by
    rw [Run.respond_append, after.client, before.client]
  live := by
    rw [messages_append, before.live]
    exact after.live
  payloads := by
    rw [Run.respond_append, delivered, List.filterMap_append, List.map_append, List.map_append,
      before.payloads, after.payloads, before.client]
    rfl

theorem message_taken (live : Live S) (frame : CapturedFrame) :
    ∃ next, live.message frame = some next := by
  unfold Live.message Live.capture
  by_cases isOpen : live.writer.isOpen = true
  · simp [isOpen, CaptureWriter.write]
  · simp [isOpen]

theorem sendTexts_session (client : WebSocketClient τ ρ) (texts : List Bytes) :
    sendTexts net draw client texts =
        (Run.respond (session net draw) client (texts.map SessionCall.sendText)).1 ∧
      delivered (Run.respond (session net draw) client (texts.map SessionCall.sendText)).2 = [] := by
  induction texts generalizing client with
  | nil => exact ⟨rfl, rfl⟩
  | cons text rest ih => exact ih (client.sendText net draw text).1

theorem take_drives (driver : Driver τ ρ S) (frame : CapturedFrame) :
    ∃ texts : List Bytes, (driver.take net draw frame).live ∈ driver.live.message frame ∧
      (driver.take net draw frame).client = sendTexts net draw driver.client texts := by
  obtain ⟨next, taken⟩ := message_taken driver.live frame
  simp only [take, taken]
  exact ⟨_, rfl, rfl⟩

theorem polled_drives {driver after : Driver τ ρ S} {round : Round}
    (client : after.client = (WebSocketClient.poll net draw
      ⟨driver.client, ⟨.continuation, [], kNoStatus⟩⟩ round.passes).1.client)
    (other : (WebSocketClient.poll net draw
      ⟨driver.client, ⟨.continuation, [], kNoStatus⟩⟩ round.passes).2 ≠ some .message)
    (live : after.live = driver.live) :
    Drives net draw driver [.poll round.passes ⟨.continuation, [], kNoStatus⟩] [] after where
  client := client
  live := congrArg some live.symm
  payloads := by
    rw [poll_silent other]
    rfl

theorem round_drives (driver : Driver τ ρ S) (round : Round) :
    ∃ calls frames, Drives net draw driver calls frames (driver.round net draw round) := by
  unfold Driver.round
  split
  · exact ⟨[], [], Drives.still driver⟩
  dsimp only
  split
  · rename_i status
    exact ⟨_, _, polled_drives rfl (by simp [status]) rfl⟩
  · rename_i status
    exact ⟨_, _, polled_drives rfl (by simp [status]) rfl⟩
  · rename_i status
    set polled := WebSocketClient.poll net draw
      ⟨driver.client, ⟨.continuation, [], kNoStatus⟩⟩ round.passes with called
    obtain ⟨texts, live, client⟩ := @take_drives _ _ _ _ _ net draw
      { driver with client := polled.1.client } (received round.now polled.1.event.payload)
    obtain ⟨sent, silent⟩ :=
      @sendTexts_session _ _ net draw polled.1.client texts
    refine ⟨.poll round.passes ⟨.continuation, [], kNoStatus⟩ :: texts.map SessionCall.sendText,
      [received round.now polled.1.event.payload], ?_, ?_, ?_⟩
    · exact client.trans sent
    · rw [Live.messages, Option.mem_def.mp live]
      rfl
    · have handed := poll_hears status
      simp only [Run.respond, session, delivered, List.filterMap_cons, List.filterMap_nil,
        ← called] at handed ⊢
      rw [delivered] at silent
      rw [silent, handed]
      rfl
  · rename_i status
    exact ⟨_, _, polled_drives rfl (by simp [status]) rfl⟩
  · rename_i _ _ notMessage _ status
    exact ⟨_, _, polled_drives rfl (by simpa [status] using notMessage) rfl⟩

omit [LawfulSideImpl S] in
theorem enter_drives {client : WebSocketClient τ ρ} {options : Options}
    {startUnixNs : Option Int64} {entered : Driver τ ρ S}
    (entering : enter net draw client options startUnixNs = some entered) :
    entered.client =
      (client.session net draw
        (.sendText (krakenSubscribe options.symbol options.depth true))).1 := by
  unfold enter at entering
  dsimp only at entering
  split at entering
  · contradiction
  · obtain ⟨live, _, rfl⟩ := Option.map_eq_some_iff.mp entering
    rfl

theorem run_drives (driver : Driver τ ρ S) (rounds : List Round) :
    ∃ calls frames, Drives net draw driver calls frames (driver.run net draw rounds) := by
  induction rounds generalizing driver with
  | nil => exact ⟨[], [], Drives.still driver⟩
  | cons round rest ih =>
    obtain ⟨calls, frames, first⟩ := @round_drives _ _ _ _ _ net draw driver round
    obtain ⟨more, later, others⟩ := ih (driver.round net draw round)
    exact ⟨_, _, first.trans others⟩

end Hears

end Driver

end Tools

open Net WebSocketClient

/-- From the bytes of the connection to the book: whatever pieces the transport hands over and
however long the polls go on, the verifier has heard the messages of the stream in order, none left
out and none twice, and all there are once its reader has nothing left to report. -/
theorem verifier_hears_stream {τ ρ S : Type} [SideImpl S] [LawfulSideImpl S] (net : Transport τ)
    (draw : ρ → UInt32 × ρ) {client : WebSocketClient τ ρ} {maxMessageBytes : Nat} {early : Bytes}
    (opened : client.Opened maxMessageBytes early) (addressable : maxMessageBytes < 2 ^ 63)
    {options : Tools.Options} {startUnixNs : Option Int64} {entered : Tools.Driver τ ρ S}
    (entering : Tools.Driver.enter net draw client options startUnixNs = some entered)
    (rounds : List Tools.Round) :
    let after := entered.run net draw rounds
    ∃ calls frames, after.client = (Run.respond (session net draw) client calls).1 ∧
      Tools.Live.messages frames entered.live = some after.live ∧
      let stream := early ++ (traffic net draw client calls).received
      let due := (messages (reports maxMessageBytes Assembly.start stream)).map Prod.snd
      frames.map CapturedFrame.payload <+: due ∧
        (after.client.CaughtUp → frames.map CapturedFrame.payload = due) := by
  intro after
  obtain ⟨calls, frames, drives⟩ := @Tools.Driver.run_drives _ _ _ _ _ net draw entered rounds
  have subscribed := Tools.Driver.enter_drives entering
  set subscribe := SessionCall.sendText (Tools.krakenSubscribe options.symbol options.depth true)
  have ran : Run.respond (session net draw) client (subscribe :: calls) =
      ((Run.respond (session net draw) entered.client calls).1,
        (client.session net draw subscribe).2 ::
          (Run.respond (session net draw) entered.client calls).2) := by
    rw [Run.respond, subscribed]
  have handed : delivered (Run.respond (session net draw) client (subscribe :: calls)).2 =
      delivered (Run.respond (session net draw) entered.client calls).2 := by
    rw [ran]
    rfl
  obtain ⟨inOrder, all⟩ := @Tools.Driver.delivered_payloads _ _ net draw _ _ _ opened.live
    opened.future addressable (subscribe :: calls)
  have payloads : frames.map CapturedFrame.payload =
      (delivered (Run.respond (session net draw) client (subscribe :: calls)).2).map
        Tools.Driver.heardPayload := by
    rw [drives.payloads, handed]
  have last : after.client = (Run.respond (session net draw) client (subscribe :: calls)).1 := by
    rw [ran]
    exact drives.client
  refine ⟨subscribe :: calls, frames, last, drives.live, payloads ▸ inOrder, ?_⟩
  intro caughtUp
  rw [payloads]
  exact all (last ▸ caughtUp)

section Quiet

def quietOptions : Tools.Options := ⟨bytes "BTC/USD", 10, -1, -1⟩

def quietEntry : Tools.Driver (List Bytes) UInt32 MapSide where
  client := (splitText.sendText scripted countingKeys
    (Tools.krakenSubscribe quietOptions.symbol quietOptions.depth true)).1
  live := Tools.Live.subscribed quietOptions .fresh
  ending := none

theorem quietEntry_entered :
    Tools.Driver.enter scripted countingKeys splitText quietOptions none = some quietEntry := by
  rw [Tools.Driver.enter, if_neg (by decide +kernel)]
  rfl

theorem verifier_hears_stream_quiet :
    ∃ calls frames,
      (quietEntry.run scripted countingKeys [⟨9, 1⟩, ⟨9, 2⟩]).client =
        (Run.respond (session scripted countingKeys) splitText calls).1 ∧
      Tools.Live.messages frames quietEntry.live =
        some (quietEntry.run scripted countingKeys [⟨9, 1⟩, ⟨9, 2⟩]).live ∧
      frames.map CapturedFrame.payload <+:
        (messages (reports 125 Assembly.start
          ([] ++ (traffic scripted countingKeys splitText calls).received))).map Prod.snd ∧
      ((quietEntry.run scripted countingKeys [⟨9, 1⟩, ⟨9, 2⟩]).client.CaughtUp →
        frames.map CapturedFrame.payload =
          (messages (reports 125 Assembly.start
            ([] ++ (traffic scripted countingKeys splitText calls).received))).map Prod.snd) :=
  verifier_hears_stream scripted countingKeys ⟨rfl, rfl⟩ (by decide) quietEntry_entered
    [⟨9, 1⟩, ⟨9, 2⟩]

end Quiet

end Crossbook
