import Crossbook.Net.HandshakeReads
import Crossbook.Net.HandshakeRequest
import Crossbook.Net.SessionWire
import Crossbook.Net.Url
import Crossbook.Lib.LittleEndian

set_option autoImplicit false

namespace Crossbook

namespace Net

open FrameReader

/-- What is behind `make_transport`: the transports it makes, how they dial, and the state that
stands for none. -/
structure Dialer {τ : Type} (net : Transport τ) where
  absent : τ
  make : Bool → Option τ
  connect : τ → Bytes → UInt16 → τ × Bool
  absent_down : net.connected absent = false

namespace WebSocketClient

section Connect

variable {τ ρ : Type} {net : Transport τ} (draw : ρ → UInt32 × ρ) (dialer : Dialer net)

def drawNonce (client : WebSocketClient τ ρ) : Bytes × WebSocketClient τ ρ :=
  (List.range 4).foldl (fun drawn _ =>
    let (bits, client) := drawn.2.nextMaskKey draw
    (drawn.1 ++ LittleEndian.encode 4 bits.toNat, client)) ([], client)

def finishHandshake (net : Transport τ) : WebSocketClient τ ρ × Bool → WebSocketClient τ ρ × Bool
  | (client, true) => ({ client with isOpen := true }, true)
  | (client, false) => ({ client with transport := net.close client.transport }, false)

variable (net) in
/-- The opening handshake on a transport that is connected; none when the rounds do not suffice. -/
def openHandshake (rounds : Nat) (url : Url) (client : WebSocketClient τ ρ) :
    Option (Option (WebSocketClient τ ρ × Bool)) :=
  let (nonce, client) := client.drawNonce draw
  let key := base64Encode nonce
  let expectedAccept := websocketAcceptFor key
  let request := makeHandshakeRequest url.host url.port url.path key url.secure
  let (transport, status) := net.write client.transport request
  if status ≠ .ok then
    some (some ({ client with
      transport := net.close transport
      error := describe net "handshake write failed" transport }, false))
  else
    (Loop.run (handshakeRound net expectedAccept) rounds
      ⟨{ client with transport := transport }, []⟩).map (Option.map (finishHandshake net))

def forget (client : WebSocketClient τ ρ) : WebSocketClient τ ρ :=
  { client with
    error := ""
    reader := client.reader.reset
    stats := .zero
    isOpen := false
    written := [] }

def connect (rounds : Nat) (urlText : Bytes) (held : Url) (client : WebSocketClient τ ρ) :
    Option (Option (WebSocketClient τ ρ × Bool)) :=
  let client := client.forget
  match parseUrl urlText held with
  | (.ok, url) =>
    match dialer.make url.secure with
    | none =>
      some (some ({ client with
        transport := dialer.absent
        error := "no TLS backend in this build" }, false))
    | some made =>
      let (transport, connected) := dialer.connect made url.host url.port
      let client := { client with transport := transport }
      if connected = false then
        some (some ({ client with error := net.lastError transport }, false))
      else client.openHandshake net draw rounds url
  | (status, _) => some (some ({ client with error := "bad url: " ++ status.toString }, false))

end Connect

section Nonce

variable {τ ρ : Type} (draw : ρ → UInt32 × ρ)

def nonceFrom (rng : ρ) : Bytes × ρ :=
  let first := draw rng
  let second := draw first.2
  let third := draw second.2
  let fourth := draw third.2
  (LittleEndian.encode 4 first.1.toNat ++ LittleEndian.encode 4 second.1.toNat ++
    LittleEndian.encode 4 third.1.toNat ++ LittleEndian.encode 4 fourth.1.toNat, fourth.2)

theorem drawNonce_eq (client : WebSocketClient τ ρ) : client.drawNonce draw =
    ((nonceFrom draw client.rng).1, { client with rng := (nonceFrom draw client.rng).2 }) := rfl

theorem length_nonceFrom (rng : ρ) : (nonceFrom draw rng).1.length = 16 := by
  simp [nonceFrom]

def handshakeKey (rng : ρ) : Bytes := base64Encode (nonceFrom draw rng).1

def requestTo (url : Url) (rng : ρ) : Bytes :=
  makeHandshakeRequest url.host url.port url.path (handshakeKey draw rng) url.secure

end Nonce

end WebSocketClient

section Keys

theorem mem_encode (data : Bytes) :
    ∀ c ∈ Base64.encode data, c ∈ Base64.alphabet ∨ c = Base64.padding := by
  obtain ⟨body, inside, same⟩ := Base64.encode_shape data
  intro c member
  rw [same, List.mem_append] at member
  rcases member with front | back
  · exact .inl (inside c front)
  · exact .inr (List.eq_of_mem_replicate back)

theorem encode_plain (data : Bytes) :
    ∀ c ∈ Base64.encode data, isTrailing c = false ∧ c ≠ ascii '\n' := by
  have symbols : ∀ c ∈ Base64.padding :: Base64.alphabet,
      isTrailing c = false ∧ c ≠ ascii '\n' := by decide +kernel
  intro c member
  refine symbols c ?_
  rcases mem_encode data c member with symbol | padding
  · exact List.mem_cons_of_mem _ symbol
  · exact padding ▸ List.mem_cons_self

theorem encode_oneLine (data : Bytes) : ¬ crlf <:+: Base64.encode data := by
  intro inside
  have member : ascii '\n' ∈ Base64.encode data := inside.subset (by decide)
  exact (encode_plain data _ member).2 rfl

theorem encode_bare (data : Bytes) : Bare (Base64.encode data) := by
  constructor
  · intro c first
    have plain := (encode_plain data c (List.mem_of_mem_head? first)).1
    simp only [isTrailing, Bool.or_eq_false_iff] at plain
    exact plain.1
  · intro c last
    exact (encode_plain data c (List.mem_of_mem_getLast? last)).1

end Keys

section Reset

def Assembly.Alike (a b : Assembly) : Prop :=
  a.assembling = b.assembling ∧ a.gathered = b.gathered ∧ (a.assembling = true → a.opcode = b.opcode)

theorem Assembly.Alike.receive {a b : Assembly} (alike : a.Alike b) (opcode : Opcode) (fin : Bool)
    (payload : Bytes) : (a.receive opcode fin payload).1.Alike (b.receive opcode fin payload).1 ∧
      (a.receive opcode fin payload).2 = (b.receive opcode fin payload).2 := by
  obtain ⟨assembling, gathered, same⟩ := alike
  unfold Assembly.receive
  rw [← assembling, ← gathered]
  by_cases control : opcode.isControl = true
  · rw [if_pos control, if_pos control]
    exact ⟨⟨assembling, gathered, same⟩, rfl⟩
  · rw [if_neg control, if_neg control]
    by_cases misplaced : opcode = .continuation ↔ a.assembling = false
    · rw [if_pos misplaced, if_pos misplaced]
      exact ⟨⟨assembling, gathered, same⟩, rfl⟩
    · rw [if_neg misplaced, if_neg misplaced]
      have chosen : (if opcode = .continuation then a.opcode else opcode) =
          if opcode = .continuation then b.opcode else opcode := by
        by_cases continued : opcode = .continuation
        · have inside : a.assembling = true := by simpa [continued] using misplaced
          rw [if_pos continued, if_pos continued, same inside]
        · rw [if_neg continued, if_neg continued]
      rw [chosen]
      cases fin
      · exact ⟨⟨rfl, rfl, fun _ => rfl⟩, rfl⟩
      · exact ⟨⟨rfl, rfl, fun _ => rfl⟩, rfl⟩

variable {maxMessageBytes : Nat} {a b : Assembly}

theorem pass_alike (alike : a.Alike b) (stream : Bytes) :
    (pass maxMessageBytes a stream = none ∧ pass maxMessageBytes b stream = none) ∨
      ∃ s t, pass maxMessageBytes a stream = some s ∧ pass maxMessageBytes b stream = some t ∧
        s.assembly.Alike t.assembly ∧ s.rest = t.rest ∧ s.report = t.report := by
  unfold pass
  cases parseFrameHeader stream with
  | incomplete => exact .inl ⟨rfl, rfl⟩
  | protocolError => exact .inr ⟨_, _, rfl, rfl, alike, rfl, rfl⟩
  | ok header =>
    dsimp only
    by_cases masked : header.masked = true
    · rw [if_pos masked, if_pos masked]
      exact .inr ⟨_, _, rfl, rfl, alike, rfl, rfl⟩
    have large : tooLarge maxMessageBytes b header.payloadLen ↔
        tooLarge maxMessageBytes a header.payloadLen := by rw [tooLarge, tooLarge, alike.2.1]
    rw [if_neg masked, if_neg masked]
    by_cases fits : tooLarge maxMessageBytes a header.payloadLen
    · rw [if_pos fits, if_pos (large.mpr fits)]
      exact .inr ⟨_, _, rfl, rfl, alike, rfl, rfl⟩
    rw [if_neg fits, if_neg (fun crowded => fits (large.mp crowded))]
    by_cases short : stream.length < header.headerSize + header.payloadLen
    · rw [if_pos short, if_pos short]
      exact .inl ⟨rfl, rfl⟩
    rw [if_neg short, if_neg short]
    have received := alike.receive header.opcode header.fin
      ((stream.drop header.headerSize).take header.payloadLen)
    exact .inr ⟨_, _, rfl, rfl, received.1, rfl, received.2⟩

theorem reports_alike (alike : a.Alike b) (stream : Bytes) :
    reports maxMessageBytes a stream = reports maxMessageBytes b stream := by
  -- What is reported never mentions the opcode of the assembly, which the next fragment sets anew.
  obtain ⟨bound, small⟩ : ∃ bound, stream.length < bound := ⟨_, Nat.lt_succ_self _⟩
  induction bound generalizing a b stream with
  | zero => omega
  | succ bound ih =>
    rcases @pass_alike maxMessageBytes _ _ alike stream with
      ⟨left, right⟩ | ⟨s, t, left, right, next, rest, report⟩
    · rw [reports_wait left, reports_wait right]
    have later (goes : ∀ told, s.report = some told → told.status.isFailure = false) :
        reports maxMessageBytes s.assembly s.rest = reports maxMessageBytes t.assembly t.rest := by
      have shorter := pass_shorter left goes
      rw [← rest]
      exact ih next s.rest (by omega)
    rw [reports_pass left, reports_pass right, ← report]
    cases told : s.report with
    | none => exact later (by simp [told])
    | some report =>
      dsimp only
      by_cases failed : report.status.isFailure = true
      · rw [if_pos failed, if_pos failed]
      · rw [if_neg failed, if_neg failed, later (by simpa [told] using failed)]

theorem reset_sound (reader : FrameReader) : reader.reset.Sound :=
  ⟨Nat.zero_le _, fun _ => rfl⟩

theorem reset_future (reader : FrameReader) (received : Bytes) :
    reader.reset.future received = reports reader.maxMessageBytes Assembly.start received := by
  have idle : reader.reset.assembly.Alike Assembly.start :=
    ⟨rfl, rfl, fun assembling => absurd assembling Bool.false_ne_true⟩
  exact reports_alike idle received

end Reset

section Meeting

variable {τ ρ : Type} {net : Transport τ}

inductive Meets (dialer : Dialer net) (url : Url) (request : Bytes) (pieces : List Bytes)
    (last : τ) : Prop
  | intro {made dialled asked : τ} (makes : dialer.make url.secure = some made)
      (dials : dialer.connect made url.host url.port = (dialled, true))
      (writes : net.write dialled request = (asked, .ok))
      (delivers : WebSocketClient.Delivers net asked pieces last)

/-- The response of a server that speaks the protocol: it switches, and proves that it has read the
key in the request. -/
def Serves (request head : Bytes) : Prop :=
  ∃ lines key statusLine fields, ReadsLines request lines ∧
    header lines.tail "sec-websocket-key" = some key ∧ linesOf head = statusLine :: fields ∧
    Switches statusLine ∧ Upgrades fields (acceptFor key)

theorem ReadsLines.unique {request : Bytes} {lines others : List Bytes}
    (left : ReadsLines request lines) (right : ReadsLines request others) : lines = others := by
  obtain ⟨head, split, rfl⟩ := left
  obtain ⟨other, split', rfl⟩ := right
  rw [split, Option.some.injEq, Prod.mk.injEq] at split'
  rw [split'.1]

theorem first_line {head statusLine : Bytes} {fields : List Bytes}
    (lines : linesOf head = statusLine :: fields) (some_ : fields ≠ []) :
    ∃ block, head.dropInfix? crlf = some (statusLine, block) ∧ linesOf block = fields := by
  cases found : head.dropInfix? crlf with
  | none =>
    have single := linesOf_single ((Search.dropInfix?_eq_none _ _).mp found)
    rw [lines, List.tail_cons] at single
    exact absurd single some_
  | some parts =>
    rw [linesOf_first found, List.cons.injEq] at lines
    exact ⟨parts.2, by rw [← lines.1], lines.2⟩

theorem Upgrades.looks {fields : List Bytes} {expected : Bytes} (upgrades : Upgrades fields expected) :
    LooksUpgraded fields expected := by
  obtain ⟨⟨upgrade, found, same⟩, ⟨connection, found', lists⟩, accept⟩ := upgrades
  refine ⟨?_, ?_, ?_⟩
  · rwa [found]
  · rw [found']
    exact lists.contains
  · rw [accept]
    rfl

theorem parse_upgrades {response head body statusLine expected : Bytes} {fields : List Bytes}
    (addressable : response.length < 2 ^ 63)
    (split : response.dropInfix? headerEnd = some (head, body))
    (lines : linesOf head = statusLine :: fields) (switches : Switches statusLine)
    (upgrades : Upgrades fields expected) (out : HandshakeResponse) :
    parseHandshakeResponse response expected out =
      some (.ok, { out with headerBytes := head.length + 4, statusCode := 101 }) := by
  have some_ : fields ≠ [] := by
    rintro rfl
    obtain ⟨value, found, _⟩ := upgrades.upgrade
    exact absurd found (by simp [header])
  obtain ⟨block, first, rfl⟩ := first_line lines some_
  rw [parse_read addressable split (.headers first), WebSocketClient.judgeResponse_switches switches,
    (judgeHeaders_ok _ _).mpr upgrades.looks]

end Meeting

namespace WebSocketClient

section Connected

variable {τ ρ : Type} {net : Transport τ} {draw : ρ → UInt32 × ρ} {dialer : Dialer net}

def asking (draw : ρ → UInt32 × ρ) (client : WebSocketClient τ ρ) (asked : τ) : WebSocketClient τ ρ :=
  { client.forget with rng := (nonceFrom draw client.rng).2, transport := asked }

theorem connect_asked {client : WebSocketClient τ ρ} {urlText : Bytes} {held url : Url}
    {made dialled asked : τ} (parsed : parseUrl urlText held = (.ok, url))
    (makes : dialer.make url.secure = some made)
    (dials : dialer.connect made url.host url.port = (dialled, true))
    (writes : net.write dialled (requestTo draw url client.rng) = (asked, .ok)) (rounds : Nat) :
    client.connect draw dialer rounds urlText held =
      (Loop.run (handshakeRound net (websocketAcceptFor (handshakeKey draw client.rng))) rounds
        ⟨client.asking draw asked, []⟩).map (Option.map (finishHandshake net)) := by
  have asks : net.write dialled (makeHandshakeRequest url.host url.port url.path
      (base64Encode (nonceFrom draw client.forget.rng).1) url.secure) = (asked, .ok) := writes
  simp only [connect, parsed, makes, dials, Bool.true_eq_false, if_false, openHandshake,
    drawNonce_eq, asks, ne_eq, not_true_eq_false]
  rfl

theorem run_accepted {expectedAccept response : Bytes} {client after : WebSocketClient τ ρ}
    {rounds : Nat} (short : response.length ≤ kMaxHandshakeBytes + kReadChunk)
    (ran : Loop.run (handshakeRound net expectedAccept) rounds ⟨client, response⟩ =
      some (some (after, true))) :
    ∃ pieces parsed, Delivers net client.transport pieces after.transport ∧
      (response ++ pieces.flatten).length ≤ kMaxHandshakeBytes + kReadChunk ∧
      parseHandshakeResponse (response ++ pieces.flatten) expectedAccept ⟨0, 0⟩ =
        some (.ok, parsed) ∧
      after = (concludeHandshake { client with transport := after.transport }
        (response ++ pieces.flatten) .ok parsed).1 := by
  induction rounds generalizing client response with
  | zero => simp [Loop.run] at ran
  | succ rounds ih =>
    rw [Loop.run] at ran
    cases judged : parseHandshakeResponse response expectedAccept ⟨0, 0⟩ with
    | none => simp [handshakeRound, judged] at ran
    | some outcome =>
      obtain ⟨status, parsed⟩ := outcome
      cases status with
      | ok =>
        simp only [handshakeRound, judged, Option.some.injEq] at ran
        have concluded : (concludeHandshake client response .ok parsed).1 = after := by rw [ran]
        have transport : after.transport = client.transport := by
          rw [← concluded, concludeHandshake]
          split <;> rfl
        refine ⟨[], parsed, ?_, ?_, ?_, ?_⟩
        · rw [transport]
          exact .nil
        · simpa using short
        · simpa using judged
        · rw [transport]
          simpa using concluded.symm
      | incomplete =>
        by_cases large : kMaxHandshakeBytes < response.length
        · simp [handshakeRound, judged, large] at ran
        · have fits := net.readFits client.transport kReadChunk
          rcases read : net.read client.transport kReadChunk with ⟨next, status, data⟩
          cases status with
          | ok =>
            simp only [handshakeRound, judged, read, if_neg large] at ran
            rw [read] at fits
            obtain ⟨pieces, parsed, delivers, few, accepted, ended⟩ := ih
              (by rw [List.length_append]; dsimp only at fits; omega) ran
            refine ⟨data :: pieces, parsed, .cons read delivers, ?_, ?_, ?_⟩
            · simpa using few
            · simpa using accepted
            · simpa using ended
          | timeout => simp [handshakeRound, judged, read, large] at ran
          | closed => simp [handshakeRound, judged, read, large] at ran
          | error => simp [handshakeRound, judged, read, large] at ran
      | notSwitchingProtocols => simp [handshakeRound, judged, concludeHandshake] at ran
      | notUpgraded => simp [handshakeRound, judged, concludeHandshake] at ran
      | badAccept => simp [handshakeRound, judged, concludeHandshake] at ran

theorem finishHandshake_accepted {result : Option (WebSocketClient τ ρ × Bool)}
    {opened : WebSocketClient τ ρ}
    (finished : result.map (finishHandshake net) = some (opened, true)) :
    ∃ after, result = some (after, true) ∧ opened = { after with isOpen := true } := by
  rw [Option.map_eq_some_iff] at finished
  obtain ⟨⟨after, accepted⟩, rfl, finished⟩ := finished
  cases accepted with
  | false => simp [finishHandshake] at finished
  | true => exact ⟨after, rfl, (Prod.mk.inj finished).1.symm⟩

theorem connect_accepted {client opened : WebSocketClient τ ρ} {urlText : Bytes} {held : Url}
    {rounds : Nat}
    (accepted : client.connect draw dialer rounds urlText held = some (some (opened, true))) :
    ∃ url pieces parsed, parseUrl urlText held = (.ok, url) ∧
      Meets dialer url (requestTo draw url client.rng) pieces opened.transport ∧
      pieces.flatten.length ≤ kMaxHandshakeBytes + kReadChunk ∧
      parseHandshakeResponse pieces.flatten (websocketAcceptFor (handshakeKey draw client.rng))
        ⟨0, 0⟩ = some (.ok, parsed) ∧
      opened = { (concludeHandshake (client.asking draw opened.transport) pieces.flatten .ok
        parsed).1 with isOpen := true } := by
  rcases parsed : parseUrl urlText held with ⟨status, url⟩
  cases status with
  | ok =>
    cases makes : dialer.make url.secure with
    | none => simp [connect, parsed, makes] at accepted
    | some made =>
      rcases dials : dialer.connect made url.host url.port with ⟨dialled, connected⟩
      cases connected with
      | false => simp [connect, parsed, makes, dials] at accepted
      | true =>
        rcases writes : net.write dialled (requestTo draw url client.rng) with ⟨asked, status⟩
        by_cases sent : status = .ok
        · rw [sent] at writes
          rw [connect_asked parsed makes dials writes, Option.map_eq_some_iff] at accepted
          obtain ⟨result, ran, finished⟩ := accepted
          obtain ⟨after, accepts, rfl⟩ := finishHandshake_accepted finished
          rw [accepts] at ran
          obtain ⟨pieces, judged, delivers, few, verdict, ended⟩ := run_accepted (by simp) ran
          rw [List.nil_append] at few verdict ended
          refine ⟨url, pieces, judged, rfl, .intro makes dials writes delivers, few, verdict, ?_⟩
          exact congrArg (fun client : WebSocketClient τ ρ => { client with isOpen := true }) ended
        · have unsent : net.write dialled (makeHandshakeRequest url.host url.port url.path
              (base64Encode (nonceFrom draw client.forget.rng).1) url.secure) = (asked, status) :=
            writes
          simp [connect, parsed, makes, dials, openHandshake, drawNonce_eq, unsent, sent] at accepted
  | badScheme => simp [connect, parsed] at accepted
  | emptyHost => simp [connect, parsed] at accepted
  | badPort => simp [connect, parsed] at accepted

theorem run_refused {expectedAccept response : Bytes} {client after : WebSocketClient τ ρ}
    {rounds : Nat}
    (ran : Loop.run (handshakeRound net expectedAccept) rounds ⟨client, response⟩ =
      some (some (after, false))) : after.reader = client.reader := by
  induction rounds generalizing client response with
  | zero => simp [Loop.run] at ran
  | succ rounds ih =>
    rw [Loop.run] at ran
    cases judged : parseHandshakeResponse response expectedAccept ⟨0, 0⟩ with
    | none => simp [handshakeRound, judged] at ran
    | some outcome =>
      obtain ⟨status, parsed⟩ := outcome
      cases status with
      | ok =>
        simp only [handshakeRound, judged, concludeHandshake] at ran
        split at ran <;> simp at ran
      | incomplete =>
        by_cases large : kMaxHandshakeBytes < response.length
        · simp only [handshakeRound, judged, if_pos large, Option.some.injEq, Prod.mk.injEq] at ran
          rw [← ran.1]
        · rcases read : net.read client.transport kReadChunk with ⟨next, status, data⟩
          simp only [handshakeRound, judged, read, if_neg large] at ran
          cases status with
          | ok => exact @ih _ { client with transport := next } ran
          | timeout | closed | error =>
            simp only [Option.some.injEq, Prod.mk.injEq] at ran
            rw [← ran.1]
      | notSwitchingProtocols | notUpgraded | badAccept =>
        simp only [handshakeRound, judged, concludeHandshake, Option.some.injEq, Prod.mk.injEq] at ran
        rw [← ran.1]

theorem connect_refused {client after : WebSocketClient τ ρ} {urlText : Bytes} {held : Url}
    {rounds : Nat}
    (refused : client.connect draw dialer rounds urlText held = some (some (after, false))) :
    after.reader.maxMessageBytes = client.reader.maxMessageBytes := by
  have forgotten : client.forget.reader.maxMessageBytes = client.reader.maxMessageBytes := rfl
  unfold connect at refused
  dsimp only at refused
  split at refused
  · split at refused
    · simp only [Option.some.injEq, Prod.mk.injEq] at refused
      rw [← refused.1, ← forgotten]
    · split at refused
      · simp only [Option.some.injEq, Prod.mk.injEq] at refused
        rw [← refused.1, ← forgotten]
      · unfold openHandshake at refused
        rw [drawNonce_eq] at refused
        dsimp only at refused
        split at refused
        · simp only [Option.some.injEq, Prod.mk.injEq] at refused
          rw [← refused.1, ← forgotten]
        · obtain ⟨result, ran, finished⟩ := Option.map_eq_some_iff.mp refused
          obtain ⟨⟨last, accepted⟩, rfl, ended⟩ := Option.map_eq_some_iff.mp finished
          cases accepted with
          | true => simp [finishHandshake] at ended
          | false =>
            have reader := run_refused ran
            rw [← (Prod.mk.inj ended).1, ← forgotten]
            exact congrArg FrameReader.maxMessageBytes reader
  · simp only [Option.some.injEq, Prod.mk.injEq] at refused
    rw [← refused.1, ← forgotten]

end Connected

section Beginning

variable {τ ρ : Type} {net : Transport τ} {draw : ρ → UInt32 × ρ} {dialer : Dialer net}

structure Begun (client : WebSocketClient τ ρ) (maxMessageBytes : Nat) (early : Bytes) : Prop where
  isOpen : client.isOpen = true
  stats : client.stats = .zero
  written : client.written = []
  live : client.Live
  future : ∀ received, client.reader.future received =
    reports maxMessageBytes Assembly.start (early ++ received)

variable (draw) in
theorem concludeHandshake_begun {client opened : WebSocketClient τ ρ} {head early : Bytes}
    {parsed : HandshakeResponse} (counted : parsed.headerBytes = head.length + 4)
    (ended : opened = { (concludeHandshake (client.asking draw opened.transport)
      (head ++ headerEnd ++ early) .ok parsed).1 with isOpen := true }) :
    opened.Begun client.reader.maxMessageBytes early := by
  rw [concludeHandshake_ok _ early parsed counted] at ended
  have sound := reset_sound client.reader
  have extends_ := append_extends sound early
  have reader : opened.reader =
      if early = [] then client.reader.reset else client.reader.reset.append early := by
    rw [ended]
    rfl
  constructor
  case isOpen => rw [ended]
  case stats =>
    rw [ended]
    rfl
  case written =>
    rw [ended]
    rfl
  case live =>
    intro _
    rw [reader]
    split
    · exact ⟨sound, rfl⟩
    · exact ⟨extends_.sound, extends_.failure⟩
  case future =>
    intro received
    rw [reader]
    split
    · rename_i none
      rw [none, reset_future]
      rfl
    · rw [extends_.future, reset_future]

end Beginning

end WebSocketClient

open WebSocketClient

/-- The response that a client has accepted: status 101, and among what it took for the headers the
proof of its own key. -/
structure Accepted (key head early : Bytes) : Prop where
  proven : ∃ line headers, ReadAs head early line headers ∧ Switches line ∧
    LooksUpgraded (linesOf headers) (acceptFor key)

theorem length_handshakeKey {ρ : Type} (draw : ρ → UInt32 × ρ) (rng : ρ) :
    (handshakeKey draw rng).length = 24 := by
  rw [handshakeKey, base64Encode_eq, Base64.length_encode, length_nonceFrom]

theorem accept_handshakeKey {ρ : Type} (draw : ρ → UInt32 × ρ) (rng : ρ) :
    websocketAcceptFor (handshakeKey draw rng) = acceptFor (handshakeKey draw rng) :=
  websocketAcceptFor_eq (by rw [length_handshakeKey]; decide)

/-- What stands behind a connection: the address of the text was dialled and asked, and in what it
answered a response that proves the key, with the first bytes of the session behind it. -/
structure LetIn {τ ρ : Type} {net : Transport τ} (draw : ρ → UInt32 × ρ) (dialer : Dialer net)
    (urlText : Bytes) (held url : Url) (rng : ρ) (early : Bytes) (last : τ) : Prop where
  address : parseUrl urlText held = (.ok, url)
  answer : ∃ pieces head, Meets dialer url (requestTo draw url rng) pieces last ∧
    pieces.flatten.dropInfix? headerEnd = some (head, early) ∧
    Accepted (handshakeKey draw rng) head early

theorem connect_begun {τ ρ : Type} {net : Transport τ} {draw : ρ → UInt32 × ρ}
    {dialer : Dialer net} {client opened : WebSocketClient τ ρ} {urlText : Bytes} {held : Url}
    {rounds : Nat}
    (accepted : client.connect draw dialer rounds urlText held = some (some (opened, true))) :
    ∃ url early, LetIn draw dialer urlText held url client.rng early opened.transport ∧
      opened.Begun client.reader.maxMessageBytes early := by
  obtain ⟨url, pieces, parsed, address, meets, few, verdict, ended⟩ := connect_accepted accepted
  have addressable : pieces.flatten.length < 2 ^ 63 := by
    have ceiling : kMaxHandshakeBytes + kReadChunk < 2 ^ 63 := by decide
    omega
  cases split : pieces.flatten.dropInfix? headerEnd with
  | none => simp [parseHandshakeResponse, split] at verdict
  | some parts =>
    obtain ⟨head, early⟩ := parts
    obtain ⟨line, headers, read⟩ := exists_readAs head early
    have counted := parse_headerBytes addressable split verdict
    rw [parse_read addressable split read] at verdict
    obtain ⟨switches, judged⟩ := (judgeResponse_ok _ _ _ _).mp ⟨parsed, verdict⟩
    rw [judgeHeaders_ok, accept_handshakeKey] at judged
    rw [Search.eq_of_dropInfix? split] at ended
    refine ⟨url, early, ⟨address, pieces, head, meets, split, ⟨line, headers, read, switches, judged⟩⟩, ?_⟩
    exact concludeHandshake_begun draw counted ended

/-- A connection is accepted on no less than the proof that the server has read the key, and the
session that follows delivers the messages of all that stands behind the response. -/
theorem connect_then_session {τ ρ : Type} (net : Transport τ) (draw : ρ → UInt32 × ρ)
    (dialer : Dialer net) (client opened : WebSocketClient τ ρ) (urlText : Bytes) (held : Url)
    (rounds : Nat)
    (accepted : client.connect draw dialer rounds urlText held = some (some (opened, true))) :
    ∃ url pieces head early, parseUrl urlText held = (.ok, url) ∧
      Meets dialer url (requestTo draw url client.rng) pieces opened.transport ∧
      pieces.flatten.dropInfix? headerEnd = some (head, early) ∧
      Accepted (handshakeKey draw client.rng) head early ∧
      ∀ calls, let ran := Run.respond (session net draw) opened calls
        let stream := early ++ (traffic net draw opened calls).received
        let due := messages (reports client.reader.maxMessageBytes Assembly.start stream)
        delivered ran.2 <+: due ∧
          ∀ event, ran.2.getLast? = some (.polled (some .needMore) event) →
            delivered ran.2 = due := by
  obtain ⟨url, early, ⟨address, pieces, head, meets, split, proven⟩, begun⟩ := connect_begun accepted
  refine ⟨url, pieces, head, early, address, meets, split, proven, ?_⟩
  exact run_delivers net draw begun.live begun.future

theorem trim_handshakeKey {ρ : Type} (draw : ρ → UInt32 × ρ) (rng : ρ) :
    trim (handshakeKey draw rng) = handshakeKey draw rng := by
  rw [handshakeKey, base64Encode_eq]
  exact trim_bare (encode_bare _)

theorem handshakeKey_oneLine {ρ : Type} (draw : ρ → UInt32 × ρ) (rng : ρ) :
    ¬ crlf <:+: handshakeKey draw rng := by
  rw [handshakeKey, base64Encode_eq]
  exact encode_oneLine _

theorem Serves.upgrades {ρ : Type} {draw : ρ → UInt32 × ρ} {url : Url} {rng : ρ} {head : Bytes}
    (serves : Serves (requestTo draw url rng) head) (host : ¬ crlf <:+: url.host)
    (path : ¬ crlf <:+: url.path) :
    ∃ statusLine fields, linesOf head = statusLine :: fields ∧ Switches statusLine ∧
      Upgrades fields (acceptFor (handshakeKey draw rng)) := by
  obtain ⟨lines, key, statusLine, fields, reads, found, same, switches, upgrades⟩ := serves
  have meant := (reads_iff url.host url.port url.path (handshakeKey draw rng) url.secure).mpr
    ⟨host, path, handshakeKey_oneLine draw rng⟩
  have asks := requestLines_asks url.host url.port url.path (handshakeKey draw rng) url.secure
  rw [reads.unique meant, asks.key, trim_handshakeKey, Option.some.injEq] at found
  exact ⟨statusLine, fields, same, switches, found ▸ upgrades⟩

section LetIn

variable {τ ρ : Type} {net : Transport τ} {draw : ρ → UInt32 × ρ} {dialer : Dialer net}

variable (draw dialer) in
theorem connect_let_in (client : WebSocketClient τ ρ) {urlText head rest : Bytes} {held url : Url}
    {pieces : List Bytes} {last : τ} (address : parseUrl urlText held = (.ok, url))
    (host : ¬ crlf <:+: url.host) (path : ¬ crlf <:+: url.path)
    (meets : Meets dialer url (requestTo draw url client.rng) pieces last)
    (block : pieces.flatten.dropInfix? headerEnd = some (head, rest))
    (ceiling : head.length + 4 ≤ kMaxHandshakeBytes) (addressable : pieces.flatten.length < 2 ^ 63)
    (serves : Serves (requestTo draw url client.rng) head) :
    ∃ opened later early, early ++ later.flatten = rest ∧ later <:+ pieces ∧
      Delivers net opened.transport later last ∧
      opened.Begun client.reader.maxMessageBytes early ∧
      ∃ rounds, ∀ more, client.connect draw dialer (rounds + more) urlText held =
        some (some (opened, true)) := by
  cases meets with
  | @intro made dialled asked makes dials writes delivers =>
    obtain ⟨statusLine, fields, lines, switches, upgrades⟩ := serves.upgrades host path
    obtain ⟨consumed, later, middle, kept, split, behind, few, remaining, completed⟩ :=
      completes_at (websocketAcceptFor (handshakeKey draw client.rng)) addressable block ceiling
        (client.asking draw asked) delivers rfl
    have isFront : kept <+: rest := ⟨later.flatten, behind⟩
    have verdict := parse_upgrades (kept_short addressable block isFront) (block_again block kept)
      lines switches upgrades ⟨0, 0⟩
    rw [← accept_handshakeKey] at verdict
    have accepts := (concludeHandshake_accepts (client.asking draw middle)
      (head ++ headerEnd ++ kept) ⟨head.length + 4, 101⟩).1
    rw [concluded, verdict, Option.map_some] at completed
    obtain ⟨rounds, ran⟩ := completed
    refine ⟨{ (concludeHandshake (client.asking draw middle) (head ++ headerEnd ++ kept) .ok
      ⟨head.length + 4, 101⟩).1 with isOpen := true }, later, kept, behind, ⟨consumed, split.symm⟩,
      ?_, ?_, rounds, fun more => ?_⟩
    · rw [concludeHandshake_ok _ kept _ rfl]
      exact remaining
    · have counted : (⟨head.length + 4, 101⟩ : HandshakeResponse).headerBytes = head.length + 4 := rfl
      refine concludeHandshake_begun draw counted ?_
      rw [concludeHandshake_ok _ kept _ rfl, concludeHandshake_ok _ kept _ rfl]
      rfl
    · rw [connect_asked address makes dials writes, Loop.run_add ran more]
      have finished : finishHandshake net (concludeHandshake (client.asking draw middle)
          (head ++ headerEnd ++ kept) .ok ⟨head.length + 4, 101⟩) =
          ({ (concludeHandshake (client.asking draw middle) (head ++ headerEnd ++ kept) .ok
            ⟨head.length + 4, 101⟩).1 with isOpen := true }, true) := by
        generalize concludeHandshake (client.asking draw middle) (head ++ headerEnd ++ kept) .ok
          ⟨head.length + 4, 101⟩ = outcome at accepts ⊢
        obtain ⟨after, accepted⟩ := outcome
        dsimp only at accepts
        rw [accepts]
        rfl
      exact congrArg (fun outcome => some (some outcome)) finished

end LetIn

/-- A client that meets a server which speaks the protocol is let in, whatever it was doing before
and whatever pieces the response comes in, and its session delivers the messages that the server
sends behind the response. -/
theorem connect_meets_server {τ ρ : Type} (net : Transport τ) (draw : ρ → UInt32 × ρ)
    (dialer : Dialer net) (client : WebSocketClient τ ρ) (urlText : Bytes) (held url : Url)
    (address : parseUrl urlText held = (.ok, url)) (host : ¬ crlf <:+: url.host)
    (path : ¬ crlf <:+: url.path) (pieces : List Bytes) (last : τ)
    (meets : Meets dialer url (requestTo draw url client.rng) pieces last) (head rest : Bytes)
    (block : pieces.flatten.dropInfix? headerEnd = some (head, rest))
    (ceiling : head.length + 4 ≤ kMaxHandshakeBytes) (addressable : pieces.flatten.length < 2 ^ 63)
    (serves : Serves (requestTo draw url client.rng) head) :
    ∃ opened later early, early ++ later.flatten = rest ∧ Delivers net opened.transport later last ∧
      (∃ rounds, ∀ more, client.connect draw dialer (rounds + more) urlText held =
        some (some (opened, true))) ∧
      ∀ calls, let ran := Run.respond (session net draw) opened calls
        let stream := early ++ (traffic net draw opened calls).received
        let due := messages (reports client.reader.maxMessageBytes Assembly.start stream)
        delivered ran.2 <+: due ∧
          ∀ event, ran.2.getLast? = some (.polled (some .needMore) event) →
            delivered ran.2 = due := by
  obtain ⟨opened, later, early, behind, -, delivers, begun, accepted⟩ :=
    connect_let_in draw dialer client address host path meets block ceiling addressable serves
  exact ⟨opened, later, early, behind, delivers, accepted,
    run_delivers net draw begun.live begun.future⟩

section Answer

def answerLines (accept : Bytes) : List Bytes :=
  [bytes "HTTP/1.1 101 Switching Protocols", bytes "Upgrade: websocket",
    bytes "Connection: Upgrade", bytes "Sec-WebSocket-Accept: " ++ accept]

def answerHead (accept : Bytes) : Bytes := crlf.intercalate (answerLines accept)

theorem answer_written (data : Bytes) : Written (answerLines (Base64.encode data)) := by
  constructor
  · intro line member
    simp only [answerLines, List.mem_cons, List.not_mem_nil, or_false] at member
    rcases member with rfl | rfl | rfl | rfl <;> simp [bytes]
  · intro line member
    simp only [answerLines, List.mem_cons, List.not_mem_nil, or_false] at member
    rcases member with rfl | rfl | rfl | rfl
    · decide +kernel
    · decide +kernel
    · decide +kernel
    · intro inside
      rw [← List.append_nil (Base64.encode data)] at inside
      exact encode_oneLine data (crlf_between (by decide +kernel) List.not_mem_nil inside)

theorem answer_upgrades (data : Bytes) :
    Upgrades (answerLines (Base64.encode data)).tail (Base64.encode data) := by
  have upgrade : headerAt (bytes "Upgrade: websocket") (bytes "upgrade") =
      some (bytes "websocket") := by decide +kernel
  have upgradeOther : headerAt (bytes "Upgrade: websocket") (bytes "connection") = none ∧
      headerAt (bytes "Upgrade: websocket") (bytes "sec-websocket-accept") = none := by
    decide +kernel
  have connection : headerAt (bytes "Connection: Upgrade") (bytes "connection") =
      some (bytes "Upgrade") := by decide +kernel
  have connectionOther :
      headerAt (bytes "Connection: Upgrade") (bytes "sec-websocket-accept") = none := by
    decide +kernel
  have accept : headerAt (bytes "Sec-WebSocket-Accept: " ++ Base64.encode data)
      (bytes "sec-websocket-accept") = some (Base64.encode data) := by
    have shape : bytes "Sec-WebSocket-Accept: " ++ Base64.encode data =
        bytes "Sec-WebSocket-Accept" ++ ascii ':' :: ascii ' ' :: Base64.encode data := by
      have text : bytes "Sec-WebSocket-Accept: " =
          bytes "Sec-WebSocket-Accept" ++ [ascii ':', ascii ' '] := by decide +kernel
      rw [text]
      simp
    have same : iequals (trim (bytes "Sec-WebSocket-Accept")) (bytes "sec-websocket-accept") = true := by
      decide +kernel
    rw [shape, headerAt_named (by decide +kernel), if_pos same, trim_blank,
      trim_bare (encode_bare data)]
  constructor
  case upgrade =>
    refine ⟨bytes "websocket", ?_, by decide +kernel⟩
    simp only [header, answerLines, List.tail_cons, List.findSome?_cons, upgrade]
  case connection =>
    refine ⟨bytes "Upgrade", ?_, ⟨bytes "Upgrade", by decide +kernel, by decide +kernel⟩⟩
    simp only [header, answerLines, List.tail_cons, List.findSome?_cons, upgradeOther.1, connection]
  case accept =>
    simp only [header, answerLines, List.tail_cons, List.findSome?_cons, upgradeOther.2,
      connectionOther, accept]

theorem answer_serves {ρ : Type} (draw : ρ → UInt32 × ρ) (url : Url) (rng : ρ)
    (host : ¬ crlf <:+: url.host) (path : ¬ crlf <:+: url.path) :
    Serves (requestTo draw url rng) (answerHead (acceptFor (handshakeKey draw rng))) := by
  have oneLine : OneLine url.host url.path (handshakeKey draw rng) :=
    ⟨host, path, handshakeKey_oneLine draw rng⟩
  have asks := requestLines_asks url.host url.port url.path (handshakeKey draw rng) url.secure
  rw [trim_handshakeKey] at asks
  have token : statusToken (bytes "HTTP/1.1 101 Switching Protocols") = some (bytes "101") := by
    decide +kernel
  refine ⟨_, _, _, _, (reads_iff _ _ _ _ _).mpr oneLine, asks.key, linesOf_joined (answer_written _),
    ⟨_, token, ⟨by decide +kernel, by decide +kernel⟩, by decide +kernel⟩, answer_upgrades _⟩

end Answer

section Example

def answering (response : Bytes) : Dialer closable where
  absent := none
  make _ := some none
  connect _ _ _ := (some [response], true)
  absent_down := rfl

def greeting : Bytes :=
  answerHead (acceptFor (handshakeKey countingKeys 7)) ++ headerEnd ++ [0x81, 0x02, 0x68, 0x69]

def exampleUrl : Url := ⟨bytes "h", bytes "/", 80, false⟩

theorem length_acceptFor (key : Bytes) : (acceptFor key).length = 28 := by
  have digest : (Sha1.digest (key ++ kWebSocketGuid)).length = 20 := by
    simp [Sha1.digest, BigEndian.length_encode]
  rw [acceptFor, Base64.length_encode, digest]

theorem length_answerHead (key : Bytes) : (answerHead (acceptFor key)).length = 125 := by
  have status : (bytes "HTTP/1.1 101 Switching Protocols").length = 32 := by decide +kernel
  have upgrade : (bytes "Upgrade: websocket").length = 18 := by decide +kernel
  have connection : (bytes "Connection: Upgrade").length = 19 := by decide +kernel
  have name : (bytes "Sec-WebSocket-Accept: ").length = 22 := by decide +kernel
  simp only [answerHead, answerLines, List.intercalate_cons_cons, List.intercalate_singleton,
    List.length_append, status, upgrade, connection, name, length_acceptFor, crlf, List.length_cons,
    List.length_nil]

theorem length_greeting : greeting.length = 133 := by
  simp [greeting, length_answerHead, headerEnd, crlf]

theorem greeting_meets : Meets (answering greeting) exampleUrl
    (requestTo countingKeys exampleUrl 7) [greeting] (some []) := by
  refine .intro rfl rfl rfl (.cons ?_ .nil)
  have whole : greeting.take kReadChunk = greeting :=
    List.take_of_length_le (by rw [length_greeting]; decide)
  change (some [], IoStatus.ok, greeting.take kReadChunk) = _
  rw [whole]

theorem greeting_block : [greeting].flatten.dropInfix? headerEnd =
    some (answerHead (acceptFor (handshakeKey countingKeys 7)), [0x81, 0x02, 0x68, 0x69]) := by
  rw [List.flatten_singleton]
  exact block_split (answer_written _) (by simp [answerLines]) _

end Example

theorem exampleUrl_oneLine : ¬ crlf <:+: exampleUrl.host ∧ ¬ crlf <:+: exampleUrl.path := by
  decide +kernel

theorem connect_meets_server_greeting :
    ∃ opened later early, early ++ later.flatten = [0x81, 0x02, 0x68, 0x69] ∧
      Delivers closable opened.transport later (some []) ∧
      ∃ rounds, pingedThenClosed.connect countingKeys (answering greeting) rounds
        (bytes "ws://h") exampleUrl = some (some (opened, true)) := by
  obtain ⟨opened, later, early, behind, delivers, ⟨rounds, accepted⟩, -⟩ :=
    connect_meets_server closable countingKeys (answering greeting) pingedThenClosed
      (bytes "ws://h") exampleUrl exampleUrl (by decide +kernel) exampleUrl_oneLine.1
      exampleUrl_oneLine.2 [greeting] (some []) greeting_meets _ _ greeting_block
      (by rw [length_answerHead]; decide)
      (by rw [List.flatten_singleton, length_greeting]; decide)
      (answer_serves countingKeys exampleUrl 7 exampleUrl_oneLine.1 exampleUrl_oneLine.2)
  exact ⟨opened, later, early, behind, delivers, rounds, accepted 0⟩

theorem connect_then_session_greeting : ∃ opened rounds,
    pingedThenClosed.connect countingKeys (answering greeting) rounds (bytes "ws://h") exampleUrl =
      some (some (opened, true)) ∧
    ∃ url pieces head early, parseUrl (bytes "ws://h") exampleUrl = (.ok, url) ∧
      Meets (answering greeting) url (requestTo countingKeys url 7) pieces opened.transport ∧
      pieces.flatten.dropInfix? headerEnd = some (head, early) ∧
      Accepted (handshakeKey countingKeys 7) head early := by
  obtain ⟨opened, later, early, -, -, -, -, rounds, accepted⟩ :=
    connect_let_in countingKeys (answering greeting) pingedThenClosed
      (show parseUrl (bytes "ws://h") exampleUrl = (.ok, exampleUrl) by decide +kernel)
      exampleUrl_oneLine.1 exampleUrl_oneLine.2 greeting_meets greeting_block
      (by rw [length_answerHead]; decide)
      (by rw [List.flatten_singleton, length_greeting]; decide)
      (answer_serves countingKeys exampleUrl 7 exampleUrl_oneLine.1 exampleUrl_oneLine.2)
  obtain ⟨url, pieces, head, early, address, meets, block, proven, -⟩ :=
    connect_then_session closable countingKeys (answering greeting) pingedThenClosed opened
      (bytes "ws://h") exampleUrl rounds (accepted 0)
  exact ⟨opened, rounds, accepted 0, url, pieces, head, early, address, meets, block, proven⟩

end Net

end Crossbook
