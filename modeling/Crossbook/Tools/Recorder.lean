import Crossbook.Net.Connect
import Crossbook.Tools.Drive

set_option autoImplicit false

namespace Crossbook

namespace Tools

open Net

/-- Where a venue streams, and what is sent to ask for it: nothing where the path says it all. -/
structure Venue where
  url : Bytes
  subscribe : Bytes
  name : Bytes
  deriving DecidableEq, Repr

structure CaptureOptions where
  venueName : Bytes
  symbol : Bytes
  depth : Int32
  customUrl : Bytes
  customSubscribe : Bytes
  deriving DecidableEq, Repr

def isSeparator (c : UInt8) : Bool := c == ascii '/' || c == ascii '-' || c == ascii '_'

def binanceStreamSymbol (symbol : Bytes) : Bytes :=
  (symbol.filter fun c => !isSeparator c).map lower

def buildVenue (name symbol : Bytes) (depth : Int32) : Option Venue :=
  if name = bytes "kraken" then
    some {
      url := bytes "wss://ws.kraken.com/v2"
      subscribe := krakenSubscribe symbol depth true
      name := bytes "kraken" }
  else if name = bytes "binance" then
    some {
      url := bytes "wss://stream.binance.com:9443/ws/" ++ binanceStreamSymbol symbol ++
        bytes "@depth@100ms"
      subscribe := []
      name := bytes "binance" }
  else if name = bytes "binance-futures" then
    some {
      url := bytes "wss://fstream.binance.com/ws/" ++ binanceStreamSymbol symbol ++
        bytes "@depth@100ms"
      subscribe := []
      name := bytes "binance-futures" }
  else none

def CaptureOptions.venue (options : CaptureOptions) : Option Venue :=
  if options.customUrl.isEmpty then buildVenue options.venueName options.symbol options.depth
  else
    some {
      url := options.customUrl
      subscribe := options.customSubscribe
      name := bytes "custom" }

section Venues

def Venue.asks (venue : Venue) : List SessionCall :=
  if venue.subscribe.isEmpty then [] else [.sendText venue.subscribe]

def venueHosts : List Bytes :=
  [bytes "ws.kraken.com", bytes "stream.binance.com", bytes "fstream.binance.com"]

structure Named (name : Bytes) : Prop where
  plain : Capture.Plain name
  noZero : 0 ∉ name
  short : name.length < 2 ^ 31

theorem parseUrl_secure {authority host : Bytes} {port : UInt16} (bare : ascii '/' ∉ authority)
    (names : splitAuthority authority 443 = .ok (host, port)) (some_ : host ≠ []) (path : Bytes)
    (held : Url) : parseUrl (securePrefix ++ authority ++ ascii '/' :: path) held =
      (.ok, ⟨host, ascii '/' :: path, port, true⟩) := by
  have spells : PathText (ascii '/' :: path) (ascii '/' :: path) := .inr ⟨rfl, rfl⟩
  have standard : defaultPort true = 443 := rfl
  have empty : host.isEmpty = false := by simpa using some_
  have cut := parseUrl_cut true bare spells held
  rw [standard, names, finishUrl, empty, if_neg Bool.false_ne_true] at cut
  exact cut

theorem preset_address {options : CaptureOptions} {venue : Venue}
    (chosen : options.venue = some venue) (preset : options.customUrl = []) (held : Url) :
    ∃ url, parseUrl venue.url held = (.ok, url) ∧ url.secure = true ∧ url.host ∈ venueHosts := by
  have dials (authority host : Bytes) (port : UInt16) (path : Bytes)
      (bare : ascii '/' ∉ authority) (names : splitAuthority authority 443 = .ok (host, port))
      (some_ : host ≠ []) (own : host ∈ venueHosts)
      (text : venue.url = securePrefix ++ authority ++ ascii '/' :: path) :
      ∃ url, parseUrl venue.url held = (.ok, url) ∧ url.secure = true ∧ url.host ∈ venueHosts := by
    rw [text, parseUrl_secure bare names some_]
    exact ⟨_, rfl, rfl, own⟩
  unfold CaptureOptions.venue buildVenue at chosen
  rw [preset, List.isEmpty_nil, if_pos rfl] at chosen
  split at chosen
  · obtain rfl := Option.some.inj chosen
    refine dials (bytes "ws.kraken.com") (bytes "ws.kraken.com") 443 (bytes "v2") ?_ ?_ ?_ ?_ rfl
    all_goals decide +kernel
  split at chosen
  · obtain rfl := Option.some.inj chosen
    refine dials (bytes "stream.binance.com:9443") (bytes "stream.binance.com") 9443
      (bytes "ws/" ++ binanceStreamSymbol options.symbol ++ bytes "@depth@100ms") ?_ ?_ ?_ ?_ rfl
    all_goals decide +kernel
  split at chosen
  · obtain rfl := Option.some.inj chosen
    refine dials (bytes "fstream.binance.com") (bytes "fstream.binance.com") 443
      (bytes "ws/" ++ binanceStreamSymbol options.symbol ++ bytes "@depth@100ms") ?_ ?_ ?_ ?_ rfl
    all_goals decide +kernel
  · contradiction

theorem venue_named {options : CaptureOptions} {venue : Venue}
    (chosen : options.venue = some venue) : Named venue.name := by
  have named : ∀ name ∈ [bytes "kraken", bytes "binance", bytes "binance-futures",
      bytes "custom"], Named name := by
    intro name member
    fin_cases member
    all_goals exact ⟨⟨by decide, by decide, by decide⟩, by decide, by decide⟩
  refine named venue.name ?_
  unfold CaptureOptions.venue buildVenue at chosen
  split at chosen
  · split at chosen
    · obtain rfl := Option.some.inj chosen
      simp
    split at chosen
    · obtain rfl := Option.some.inj chosen
      simp
    split at chosen
    · obtain rfl := Option.some.inj chosen
      simp
    · contradiction
  · obtain rfl := Option.some.inj chosen
    simp

end Venues

structure Tape where
  writer : CaptureWriter
  frames : Nat
  byteCount : Nat
  gaps : List Int64
  previous : Int64
  deriving DecidableEq, Repr

namespace Tape

def blank (writer : CaptureWriter) : Tape := ⟨writer, 0, 0, [], 0⟩

def count (tape : Tape) (frame : CapturedFrame) : Tape :=
  { tape with
    frames := tape.frames + 1
    byteCount := tape.byteCount + frame.payload.length
    gaps := if tape.previous = 0 then tape.gaps else tape.gaps ++ [frame.tsRecv - tape.previous]
    previous := frame.tsRecv }

/-- A frame is counted, and written where there is a capture; false if it cannot be. -/
def take (tape : Tape) (frame : CapturedFrame) : Tape × Bool :=
  if tape.writer.isOpen then
    let wrote := tape.writer.write frame
    ({ tape.count frame with writer := wrote.1 }, wrote.2)
  else (tape.count frame, true)

def takeAll (frames : List CapturedFrame) (tape : Tape) : Tape :=
  frames.foldl (fun tape frame => (tape.take frame).1) tape

section Taking

variable (tape : Tape) (frame : CapturedFrame) (frames : List CapturedFrame)

theorem take_counted : (tape.take frame).1.frames = tape.frames + 1 ∧
    (tape.take frame).1.byteCount = tape.byteCount + frame.payload.length ∧
    (tape.take frame).1.previous = frame.tsRecv ∧
    (tape.take frame).1.gaps = if tape.previous = 0 then tape.gaps
      else tape.gaps ++ [frame.tsRecv - tape.previous] := by
  unfold take
  split <;> exact ⟨rfl, rfl, rfl, rfl⟩

theorem takeAll_counted : (takeAll frames tape).frames = tape.frames + frames.length ∧
    (takeAll frames tape).byteCount =
      tape.byteCount + (frames.map fun frame => frame.payload.length).sum := by
  induction frames generalizing tape with
  | nil => exact ⟨rfl, rfl⟩
  | cons frame rest ih =>
    obtain ⟨count, size, -, -⟩ := take_counted tape frame
    obtain ⟨counts, sizes⟩ := ih (tape.take frame).1
    rw [takeAll, List.foldl_cons, ← takeAll, counts, sizes, count, size]
    simp only [List.length_cons, List.map_cons, List.sum_cons]
    omega

def between (times : List Int64) : List Int64 :=
  List.zipWith (fun earlier later => later - earlier) times times.tail

theorem takeAll_running (running : tape.previous ≠ 0)
    (clock : ∀ frame ∈ frames, frame.tsRecv ≠ 0) : (takeAll frames tape).gaps =
      tape.gaps ++ between (tape.previous :: frames.map CapturedFrame.tsRecv) := by
  induction frames generalizing tape with
  | nil => exact (List.append_nil _).symm
  | cons frame rest ih =>
    obtain ⟨-, -, previous, gaps⟩ := take_counted tape frame
    obtain ⟨now, later⟩ := List.forall_mem_cons.mp clock
    rw [takeAll, List.foldl_cons, ← takeAll, ih _ (previous ▸ now) later, gaps, if_neg running,
      previous]
    simp [between]

theorem takeAll_gaps (clock : ∀ frame ∈ frames, frame.tsRecv ≠ 0) (writer : CaptureWriter) :
    (takeAll frames (blank writer)).gaps = between (frames.map CapturedFrame.tsRecv) := by
  cases frames with
  | nil => rfl
  | cons frame rest =>
    obtain ⟨-, -, previous, gaps⟩ := take_counted (blank writer) frame
    obtain ⟨now, later⟩ := List.forall_mem_cons.mp clock
    rw [takeAll, List.foldl_cons, ← takeAll, takeAll_running _ _ (previous ▸ now) later, gaps,
      previous]
    rfl

theorem takeAll_writes (isOpen : tape.writer.isOpen = true) :
    (takeAll frames tape).writer = (CaptureWriter.writeAll frames tape.writer).1 := by
  induction frames generalizing tape with
  | nil => rfl
  | cons frame rest ih =>
    have taken : (tape.take frame).1.writer = (tape.writer.write frame).1 := by
      simp only [take, isOpen, if_true]
    have still : (tape.writer.write frame).1.isOpen = true := by simp [CaptureWriter.write, isOpen]
    have wrote : (tape.writer.write frame).2 = true := by simp [CaptureWriter.write, isOpen]
    rw [takeAll, List.foldl_cons, ← takeAll, ih _ (taken ▸ still), taken, CaptureWriter.writeAll]
    simp only [wrote, Bool.true_eq_false, if_false]

end Taking

/-- What a recording of a venue's frames comes to: the counts, the gaps that are reported, and the
capture, where there is one. -/
structure Holds (tape : Tape) (venue symbol : Bytes) (startUnixNs : Option Int64)
    (kept : List CapturedFrame) : Prop where
  frames : tape.frames = kept.length
  byteCount : tape.byteCount = (kept.map fun frame => frame.payload.length).sum
  gaps : (∀ frame ∈ kept, frame.tsRecv ≠ 0) → tape.gaps = between (kept.map CapturedFrame.tsRecv)
  capture : Named symbol → (∀ frame ∈ kept, 0 ≤ frame.tsRecv) → ∀ ns ∈ startUnixNs, 0 ≤ ns →
    Capture.parse tape.writer.contents = .ok ⟨venue, symbol, ns, kept⟩

open CaptureWriter in
theorem capture_holds {venue symbol : Bytes} (venueNamed : Named venue) (symbolNamed : Named symbol)
    {startUnixNs : Int64} (startNonneg : 0 ≤ startUnixNs)
    (opens : (CaptureWriter.fresh.openFile venue symbol startUnixNs).2 = true)
    {frames : List CapturedFrame} (clock : ∀ frame ∈ frames, 0 ≤ frame.tsRecv) :
    Capture.parse (takeAll frames
      (blank (CaptureWriter.fresh.openFile venue symbol startUnixNs).1)).writer.contents =
        .ok ⟨venue, symbol, startUnixNs, frames⟩ := by
  have fits : ¬ kIntMax < (headerLine venue symbol startUnixNs).length := by
    intro long
    simp [openFile, long] at opens
  have opened : CaptureWriter.fresh.openFile venue symbol startUnixNs =
      (⟨headerLine venue symbol startUnixNs, true, 0, 0⟩, true) := by
    rw [openFile]
    exact if_neg fits
  have contents : written venue symbol startUnixNs frames = some (takeAll frames
      (blank (CaptureWriter.fresh.openFile venue symbol startUnixNs).1)).writer.contents := by
    rw [opened, takeAll_writes _ _ rfl, (writeAll_open frames _ rfl).2, written_eq, if_neg fits]
    rfl
  exact (written_round_trip_iff venueNamed.plain symbolNamed.plain startNonneg clock contents).mpr
    ⟨⟨venueNamed.noZero, venueNamed.short⟩, symbolNamed.noZero, symbolNamed.short⟩

theorem takeAll_holds {venue symbol : Bytes} (named : Named venue) {startUnixNs : Option Int64}
    {writer : CaptureWriter} (opens : ∀ ns ∈ startUnixNs,
      CaptureWriter.fresh.openFile venue symbol ns = (writer, true)) (kept : List CapturedFrame) :
    (takeAll kept (blank writer)).Holds venue symbol startUnixNs kept where
  frames := (takeAll_counted _ kept).1.trans (Nat.zero_add _)
  byteCount := (takeAll_counted _ kept).2.trans (Nat.zero_add _)
  gaps ticked := takeAll_gaps kept ticked writer
  capture symbolNamed clock ns given startNonneg := by
    have opened := opens ns given
    have holds := capture_holds named symbolNamed startNonneg (congrArg Prod.snd opened) clock
    rw [opened] at holds
    exact holds

end Tape

section Dialling

variable {τ ρ : Type} {net : Transport τ} (draw : ρ → UInt32 × ρ) (dialer : Dialer net)

/-- What came of dialling: the client, how long was waited before each further attempt, and whether
the client was let in. -/
structure Dialled (τ ρ : Type) where
  client : WebSocketClient τ ρ
  waits : List Nat
  connected : Bool

def connectAttempts (rounds : Nat) (urlText : Bytes) (held : Url) :
    Nat → Nat → WebSocketClient τ ρ → Option (Option (Dialled τ ρ))
  | 0, _, client => some (some ⟨client, [], false⟩)
  | left + 1, delayMs, client =>
    match client.connect draw dialer rounds urlText held with
    | none => none
    | some none => some none
    | some (some (opened, true)) => some (some ⟨opened, [], true⟩)
    | some (some (refused, false)) =>
      if left = 0 then some (some ⟨refused, [], false⟩)
      else
        (connectAttempts rounds urlText held left (delayMs * 2) refused).map
          (Option.map fun dialled => { dialled with waits := delayMs :: dialled.waits })

def connectWithBackoff (rounds : Nat) (urlText : Bytes) (held : Url)
    (client : WebSocketClient τ ρ) : Option (Option (Dialled τ ρ)) :=
  connectAttempts draw dialer rounds urlText held 4 1000 client

variable {draw dialer}

/-- So many connections in a row are refused, each with the client that the one before left. -/
inductive Refused (draw : ρ → UInt32 × ρ) (dialer : Dialer net) (rounds : Nat) (urlText : Bytes)
    (held : Url) : Nat → WebSocketClient τ ρ → WebSocketClient τ ρ → Prop
  | none (client : WebSocketClient τ ρ) : Refused draw dialer rounds urlText held 0 client client
  | again {client next last : WebSocketClient τ ρ} {tries : Nat}
      (refusal : client.connect draw dialer rounds urlText held = some (some (next, false)))
      (later : Refused draw dialer rounds urlText held tries next last) :
      Refused draw dialer rounds urlText held (tries + 1) client last

theorem Refused.ceiling {rounds tries : Nat} {urlText : Bytes} {held : Url}
    {client last : WebSocketClient τ ρ}
    (refused : Refused draw dialer rounds urlText held tries client last) :
    last.reader.maxMessageBytes = client.reader.maxMessageBytes := by
  induction refused with
  | none client => rfl
  | again refusal later ih => exact ih.trans (WebSocketClient.connect_refused refusal)

theorem connectAttempts_letIn {rounds attempts delayMs : Nat} {urlText : Bytes} {held : Url}
    {client : WebSocketClient τ ρ} {dialled : Dialled τ ρ}
    (dialling : connectAttempts draw dialer rounds urlText held attempts delayMs client =
      some (some dialled)) (letIn : dialled.connected = true) :
    ∃ (tries : Nat) (last : WebSocketClient τ ρ), tries < attempts ∧
      Refused draw dialer rounds urlText held tries client last ∧
      last.connect draw dialer rounds urlText held = some (some (dialled.client, true)) ∧
      dialled.waits = (List.range tries).map (delayMs * 2 ^ ·) := by
  induction attempts generalizing delayMs client dialled with
  | zero =>
    obtain rfl := Option.some.inj (Option.some.inj dialling)
    contradiction
  | succ left ih =>
    rw [connectAttempts] at dialling
    split at dialling
    · contradiction
    · simp at dialling
    · rename_i opened accepted
      obtain rfl := Option.some.inj (Option.some.inj dialling)
      exact ⟨0, client, Nat.succ_pos left, .none client, accepted, rfl⟩
    · rename_i refused refusal
      split at dialling
      · obtain rfl := Option.some.inj (Option.some.inj dialling)
        contradiction
      · obtain ⟨result, later, outcome⟩ := Option.map_eq_some_iff.mp dialling
        obtain ⟨next, rfl, rfl⟩ := Option.map_eq_some_iff.mp outcome
        obtain ⟨tries, last, few, others, accepted, waits⟩ := ih later letIn
        refine ⟨tries + 1, last, Nat.succ_lt_succ few, .again refusal others, accepted, ?_⟩
        have doubled : (delayMs * 2 ^ ·) ∘ Nat.succ = (delayMs * 2 * 2 ^ ·) := by
          funext i
          rw [Function.comp_apply, Nat.pow_succ', Nat.mul_assoc]
        change delayMs :: next.waits = _
        rw [waits, List.range_succ_eq_map, List.map_cons, List.map_map, doubled, Nat.pow_zero,
          Nat.mul_one]

end Dialling

structure Recorder (τ ρ : Type) where
  client : WebSocketClient τ ρ
  tape : Tape
  ending : Option Ending

namespace Recorder

section Rounds

variable {τ ρ : Type} (net : Transport τ) (draw : ρ → UInt32 × ρ)

def enter (client : WebSocketClient τ ρ) (venue : Venue) (symbol : Bytes)
    (startUnixNs : Option Int64) : Option (Recorder τ ρ) :=
  let subscribed :=
    if venue.subscribe.isEmpty then (client, true) else client.sendText net draw venue.subscribe
  if subscribed.2 = false then none
  else
    match startUnixNs with
    | none => some ⟨subscribed.1, .blank .fresh, none⟩
    | some ns =>
      let opened := CaptureWriter.fresh.openFile venue.name symbol ns
      if opened.2 then some ⟨subscribed.1, .blank opened.1, none⟩ else none

def round (recorder : Recorder τ ρ) (round : Round) : Recorder τ ρ :=
  if recorder.ending.isSome then recorder
  else
    let polled := WebSocketClient.poll net draw ⟨recorder.client, ⟨.continuation, [], kNoStatus⟩⟩
      round.passes
    let recorder := { recorder with client := polled.1.client }
    match polled.2 with
    -- The call has not returned yet.
    | none => recorder
    | some .needMore => recorder
    | some .message =>
      let taken := recorder.tape.take (received round.now polled.1.event.payload)
      { recorder with
        tape := taken.1
        ending := if taken.2 then none else some .failed }
    | some .close => { recorder with ending := some .peerClosed }
    | some _ => { recorder with ending := some .failed }

def run (recorder : Recorder τ ρ) (rounds : List Round) : Recorder τ ρ :=
  rounds.foldl (round net draw) recorder

def finish (recorder : Recorder τ ρ) : Recorder τ ρ :=
  { recorder with
    client := recorder.client.close net draw .normal []
    tape := { recorder.tape with writer := recorder.tape.writer.close } }

def status (recorder : Recorder τ ρ) : Nat :=
  if recorder.ending = some .failed then 1
  else if recorder.tape.frames = 0 then 1
  else 0

end Rounds

section Hears

variable {τ ρ : Type} {net : Transport τ} {draw : ρ → UInt32 × ρ}

open WebSocketClient Driver

def polls (turns : List Round) : List SessionCall :=
  turns.map fun turn => .poll turn.passes ⟨.continuation, [], kNoStatus⟩

/-- The messages that polls hand over, each at the time when its poll has returned. -/
def handed (turns : List Round) (replies : List SessionReply) : List CapturedFrame :=
  (turns.zip replies).filterMap fun (turn, reply) =>
    reply.message.map fun message => received turn.now message.2

theorem handed_payloads (turns : List Round) (replies : List SessionReply)
    (each : replies.length = turns.length) :
    (handed turns replies).map CapturedFrame.payload = (delivered replies).map heardPayload := by
  induction turns generalizing replies with
  | nil =>
    obtain rfl := List.length_eq_zero_iff.mp each
    rfl
  | cons turn rest ih =>
    cases replies with
    | nil => simp at each
    | cons reply others =>
      have later := ih others (Nat.succ.inj each)
      rw [handed, delivered] at later
      rw [handed, delivered, List.zip_cons_cons, List.filterMap_cons, List.filterMap_cons]
      cases heard : reply.message with
      | none =>
        simp only [heard, Option.map_none]
        exact later
      | some message =>
        simp only [heard, Option.map_some, List.map_cons]
        exact congrArg _ later

theorem handed_cons (turn : Round) (rest : List Round) (reply : SessionReply)
    (others : List SessionReply) :
    handed (turn :: rest) (reply :: others) = handed [turn] [reply] ++ handed rest others := by
  simp only [handed, List.zip_cons_cons, List.zip_nil_right, List.filterMap_cons, List.filterMap_nil]
  cases reply.message <;> rfl

theorem message_of_other {status : Option ReadStatus} (other : status ≠ some .message)
    (event : Event) : (SessionReply.polled status event).message = none := by
  rcases status with _ | _ | _ | _ | _ | _ | _ | _ <;> first | rfl | exact absurd rfl other

/-- A stretch of the loop makes these polls, and takes what they hand over. -/
structure Hears (net : Transport τ) (draw : ρ → UInt32 × ρ) (before : Recorder τ ρ)
    (made : List Round) (after : Recorder τ ρ) : Prop where
  client : after.client = (Run.respond (session net draw) before.client (polls made)).1
  tape : after.tape = before.tape.takeAll
    (handed made (Run.respond (session net draw) before.client (polls made)).2)

theorem round_hears {recorder : Recorder τ ρ} (going : recorder.ending = none) (turn : Round) :
    Hears net draw recorder [turn] (recorder.round net draw turn) := by
  have running : recorder.ending.isSome = false := by rw [going]; rfl
  unfold Recorder.round
  rw [running, if_neg Bool.false_ne_true]
  dsimp only
  constructor
  · split <;> rfl
  · simp only [polls, List.map_cons, List.map_nil, Run.respond, session, handed, List.zip_cons_cons,
      List.zip_nil_right, List.filterMap_cons, List.filterMap_nil]
    split
    case h_5 _ _ notMessage _ status =>
      rw [status, message_of_other (by simpa using notMessage)]
      rfl
    all_goals
      rename_i status
      rw [status]
      rfl

theorem run_ended (recorder : Recorder τ ρ) (turns : List Round)
    (ended : recorder.ending.isSome = true) : recorder.run net draw turns = recorder := by
  induction turns with
  | nil => rfl
  | cons turn rest ih =>
    have stays : recorder.round net draw turn = recorder := if_pos ended
    rw [run, List.foldl_cons, ← run, stays]
    exact ih

theorem run_hears (recorder : Recorder τ ρ) (turns : List Round) :
    ∃ made, made <+: turns ∧ ((recorder.run net draw turns).ending = none → made = turns) ∧
      Hears net draw recorder made (recorder.run net draw turns) := by
  induction turns generalizing recorder with
  | nil => exact ⟨[], List.nil_prefix, fun _ => rfl, rfl, rfl⟩
  | cons turn rest ih =>
    cases going : recorder.ending with
    | some ending =>
      have still := @run_ended _ _ net draw recorder (turn :: rest) (by rw [going]; rfl)
      rw [still, going]
      exact ⟨[], List.nil_prefix, nofun, rfl, rfl⟩
    | none =>
      obtain ⟨made, front, all, later⟩ := ih (recorder.round net draw turn)
      have first : Hears net draw recorder [turn] _ := round_hears going turn
      refine ⟨turn :: made, List.cons_prefix_cons.mpr ⟨rfl, front⟩,
        fun goes => congrArg _ (all goes), ?_, ?_⟩
      · exact later.client.trans (by rw [first.client]; rfl)
      · refine later.tape.trans ?_
        rw [first.tape, first.client]
        exact List.foldl_append.symm.trans (congrArg (Tape.takeAll · recorder.tape)
          (handed_cons turn made _ _).symm)

variable {client : WebSocketClient τ ρ} {venue : Venue} {symbol : Bytes}
  {startUnixNs : Option Int64} {entered : Recorder τ ρ}

theorem enter_hears (entering : enter net draw client venue symbol startUnixNs = some entered) :
    ∃ writer, entered.client = (Run.respond (session net draw) client venue.asks).1 ∧
      entered.tape = .blank writer ∧ entered.ending = none ∧
      ∀ ns ∈ startUnixNs, CaptureWriter.fresh.openFile venue.name symbol ns = (writer, true) := by
  have asked : (if venue.subscribe.isEmpty then (client, true)
      else client.sendText net draw venue.subscribe).1 =
        (Run.respond (session net draw) client venue.asks).1 := by
    unfold Venue.asks
    split <;> rfl
  unfold enter at entering
  dsimp only at entering
  generalize (if venue.subscribe.isEmpty then (client, true)
    else client.sendText net draw venue.subscribe) = subscribed at entering asked
  split at entering
  · contradiction
  cases startUnixNs with
  | none =>
    obtain rfl := Option.some.inj entering
    exact ⟨.fresh, asked, rfl, rfl, by simp⟩
  | some ns =>
    dsimp only at entering
    split at entering
    next opened =>
      obtain rfl := Option.some.inj entering
      refine ⟨_, asked, rfl, rfl, ?_⟩
      rintro _ ⟨⟩
      exact Prod.ext rfl opened
    next => contradiction

theorem asks_silent (venue : Venue) (client : WebSocketClient τ ρ) :
    delivered (Run.respond (session net draw) client venue.asks).2 = [] := by
  unfold Venue.asks
  split <;> rfl

/-- Behind the subscription, what the polls hand over is what the session delivers. -/
theorem handed_session (venue : Venue) (client : WebSocketClient τ ρ) (made : List Round) :
    (handed made (Run.respond (session net draw)
      (Run.respond (session net draw) client venue.asks).1 (polls made)).2).map
        CapturedFrame.payload =
      (delivered (Run.respond (session net draw) client (venue.asks ++ polls made)).2).map
        heardPayload := by
  have silent : delivered (Run.respond (session net draw) client venue.asks).2 = [] :=
    asks_silent venue client
  rw [Run.respond_append, delivered, List.filterMap_append, ← delivered, ← delivered, silent,
    List.nil_append]
  refine handed_payloads made _ ?_
  rw [Run.length_respond, polls, List.length_map]

theorem status_passes (recorder : Recorder τ ρ) :
    recorder.status = 0 ↔ recorder.ending ≠ some .failed ∧ recorder.tape.frames ≠ 0 := by
  unfold status
  split
  · simp_all
  · split <;> simp_all

end Hears

end Recorder

open WebSocketClient

/-- A recording is evidence of what the venue sent. It was let in at the address it was told to dial,
a preset's at the venue's own host and under TLS, after waits that double; what it keeps are the
messages of the stream behind the handshake, in order and each at the time its poll returned, none
left out and none twice, and all there are once its reader has nothing left to report; the counts,
the gaps and the capture are those of the kept frames; and it passes when it has kept some and
nothing failed. -/
theorem recording_is_evidence {τ ρ : Type} {net : Transport τ} (draw : ρ → UInt32 × ρ)
    (dialer : Dialer net) {options : CaptureOptions} {venue : Venue}
    (chosen : options.venue = some venue) {held : Url} {client : WebSocketClient τ ρ} {rounds : Nat}
    {dialled : Dialled τ ρ} (dialling : connectWithBackoff draw dialer rounds venue.url held client =
      some (some dialled)) (letIn : dialled.connected = true)
    (addressable : client.reader.maxMessageBytes < 2 ^ 63) {startUnixNs : Option Int64}
    {entered : Recorder τ ρ} (entering : Recorder.enter net draw dialled.client venue options.symbol
      startUnixNs = some entered) (turns : List Round) :
    let after := entered.run net draw turns
    let finished := after.finish net draw
    ∃ (tries : Nat) (last : WebSocketClient τ ρ) (url : Url) (early : Bytes) (made : List Round),
      tries < 4 ∧ Refused draw dialer rounds venue.url held tries client last ∧
      dialled.waits = [1000, 2000, 4000].take tries ∧
      LetIn draw dialer venue.url held url last.rng early dialled.client.transport ∧
      (options.customUrl = [] → url.secure = true ∧ url.host ∈ venueHosts) ∧
      made <+: turns ∧ (after.ending = none → made = turns) ∧
      let asked := (Run.respond (session net draw) dialled.client venue.asks).1
      let ran := Run.respond (session net draw) asked (Recorder.polls made)
      let kept := Recorder.handed made ran.2
      let stream := early ++
        (traffic net draw dialled.client (venue.asks ++ Recorder.polls made)).received
      let due := (messages (reports client.reader.maxMessageBytes Assembly.start stream)).map
        Prod.snd
      after.client = ran.1 ∧ kept.map CapturedFrame.payload <+: due ∧
      (ran.1.CaughtUp → kept.map CapturedFrame.payload = due) ∧
      finished.tape.Holds venue.name options.symbol startUnixNs kept ∧
      (finished.status = 0 ↔ after.ending ≠ some .failed ∧ kept ≠ []) := by
  intro after finished
  obtain ⟨tries, last, few, refused, accepted, waits⟩ := connectAttempts_letIn dialling letIn
  obtain ⟨url, early, stands, begun⟩ := connect_begun accepted
  rw [refused.ceiling] at begun
  obtain ⟨writer, asked, blank, -, opens⟩ := Recorder.enter_hears entering
  obtain ⟨made, front, all, hears⟩ := @Recorder.run_hears _ _ net draw entered turns
  have clientIs := hears.client
  have tapeIs := hears.tape
  rw [asked] at clientIs tapeIs
  rw [blank] at tapeIs
  have payloads := @Recorder.handed_session _ _ net draw venue dialled.client made
  set ran := Run.respond (session net draw)
    (Run.respond (session net draw) dialled.client venue.asks).1 (Recorder.polls made)
  set kept := Recorder.handed made ran.2
  obtain ⟨inOrder, whole⟩ := @Driver.delivered_payloads _ _ net draw _ _ _ begun.live begun.future
    addressable (venue.asks ++ Recorder.polls made)
  rw [← payloads] at inOrder whole
  rw [Run.respond_append] at whole
  have holds := Tape.takeAll_holds (venue_named chosen) opens kept
  rw [← tapeIs] at holds
  refine ⟨tries, last, url, early, made, few, refused, ?_, stands, ?_, front, all, clientIs, inOrder,
    whole, ⟨holds.frames, holds.byteCount, holds.gaps, holds.capture⟩, ?_⟩
  · rw [waits]
    interval_cases tries <;> rfl
  · intro preset
    obtain ⟨other, address, secure, own⟩ := preset_address chosen preset held
    rw [stands.address] at address
    obtain rfl := (Prod.mk.inj address).2
    exact ⟨secure, own⟩
  · rw [Recorder.status_passes]
    change after.ending ≠ some .failed ∧ after.tape.frames ≠ 0 ↔
      after.ending ≠ some .failed ∧ kept ≠ []
    rw [holds.frames]
    exact and_congr_right' (not_congr List.length_eq_zero_iff)

section Recorded

def exampleOptions : CaptureOptions where
  venueName := bytes "kraken"
  symbol := bytes "BTC/USD"
  depth := 10
  customUrl := bytes "ws://h"
  customSubscribe := []

def exampleVenue : Venue := ⟨bytes "ws://h", [], bytes "custom"⟩

theorem recording_is_evidence_greeting :
    ∃ (dialled : Dialled (Option (List Bytes)) UInt32) (entered : Recorder _ UInt32) (url : Url)
      (rng : UInt32) (early : Bytes) (kept : List CapturedFrame),
      Recorder.enter closable countingKeys dialled.client exampleVenue exampleOptions.symbol (some 3) =
        some entered ∧
      LetIn countingKeys (answering greeting) exampleVenue.url exampleUrl url rng early
        dialled.client.transport ∧
      ((entered.run closable countingKeys [⟨9, 5⟩, ⟨9, 8⟩]).finish closable countingKeys).tape.Holds
        exampleVenue.name exampleOptions.symbol (some 3) kept := by
  obtain ⟨opened, later, early, -, -, -, -, rounds, accepted⟩ :=
    connect_let_in countingKeys (answering greeting) pingedThenClosed
      (show parseUrl (bytes "ws://h") exampleUrl = (.ok, exampleUrl) by decide +kernel)
      exampleUrl_oneLine.1 exampleUrl_oneLine.2 greeting_meets greeting_block
      (by rw [length_answerHead]; decide)
      (by rw [List.flatten_singleton, length_greeting]; decide)
      (answer_serves countingKeys exampleUrl 7 exampleUrl_oneLine.1 exampleUrl_oneLine.2)
  have accepted : pingedThenClosed.connect countingKeys (answering greeting) rounds
      exampleVenue.url exampleUrl = some (some (opened, true)) := accepted 0
  have dialling : connectWithBackoff countingKeys (answering greeting) rounds exampleVenue.url
      exampleUrl pingedThenClosed = some (some ⟨opened, [], true⟩) := by
    simp only [connectWithBackoff, connectAttempts, accepted]
  have opens : (CaptureWriter.fresh.openFile exampleVenue.name exampleOptions.symbol 3).2 = true := by
    decide +kernel
  have entering : Recorder.enter closable countingKeys opened exampleVenue exampleOptions.symbol
      (some 3) = some ⟨opened, .blank
        (CaptureWriter.fresh.openFile exampleVenue.name exampleOptions.symbol 3).1, none⟩ := by
    simp only [Recorder.enter, exampleVenue, List.isEmpty_nil, if_true, Bool.true_eq_false, if_false]
    exact if_pos opens
  have ceiling : pingedThenClosed.reader.maxMessageBytes < 2 ^ 63 := by
    change 125 < 2 ^ 63
    decide
  obtain ⟨tries, last, url, first, made, -, -, -, stands, -, -, -, -, -, -, holds, -⟩ :=
    recording_is_evidence countingKeys (answering greeting) (show exampleOptions.venue =
      some exampleVenue by decide +kernel) dialling rfl ceiling entering [⟨9, 5⟩, ⟨9, 8⟩]
  exact ⟨_, _, url, last.rng, first, _, entering, stands, holds⟩

end Recorded

end Tools

end Crossbook
