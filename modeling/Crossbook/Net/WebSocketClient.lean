import Crossbook.Net.FrameWriter

set_option autoImplicit false

namespace Crossbook

namespace Net

inductive IoStatus where
  | ok
  | timeout
  | closed
  | error
  deriving DecidableEq, Repr

structure Transport (τ : Type) where
  connected : τ → Bool
  read : τ → Nat → τ × IoStatus × Bytes
  write : τ → Bytes → τ × IoStatus
  close : τ → τ
  lastError : τ → String
  readFits : ∀ state len, (read state len).2.2.length ≤ len

inductive CloseCode where
  | normal
  | goingAway
  | protocolError
  | unsupportedData
  | noStatus
  | abnormal
  | invalidPayload
  | policyViolation
  | messageTooBig
  | internalError
  deriving DecidableEq, Repr

def CloseCode.code : CloseCode → UInt16
  | normal => 1000
  | goingAway => 1001
  | protocolError => 1002
  | unsupportedData => 1003
  | noStatus => 1005
  | abnormal => 1006
  | invalidPayload => 1007
  | policyViolation => 1008
  | messageTooBig => 1009
  | internalError => 1011

structure WebSocketStats where
  messages : UInt64
  bytesReceived : UInt64
  pingsReceived : UInt64
  pongsSent : UInt64
  pongsReceived : UInt64
  framesSent : UInt64
  deriving DecidableEq, Repr

def WebSocketStats.zero : WebSocketStats := ⟨0, 0, 0, 0, 0, 0⟩

/-- A client after its handshake. `written` lists what it has handed to the transport. -/
structure WebSocketClient (τ ρ : Type) where
  transport : τ
  reader : FrameReader
  error : String
  rng : ρ
  stats : WebSocketStats
  isOpen : Bool
  written : List Bytes
  deriving DecidableEq, Repr

namespace WebSocketClient

def kReadChunk : Nat := 32 * 1024

variable {τ ρ : Type} (net : Transport τ) (draw : ρ → UInt32 × ρ)

section Client

variable (client : WebSocketClient τ ρ)

def connected : Bool := client.isOpen && net.connected client.transport

def nextMaskKey : UInt32 × WebSocketClient τ ρ :=
  let drawn := draw client.rng
  (drawn.1, { client with rng := drawn.2 })

def sentFrame (opcode : Opcode) (payload : Bytes) (maskKey : UInt32) : Bytes :=
  writeFrameHeader opcode (UInt64.ofNat payload.length) maskKey true ++ applyMask payload maskKey 0

def describe (fallback : String) (state : τ) : String :=
  if (net.lastError state).isEmpty then fallback else net.lastError state

def sendFrame (opcode : Opcode) (payload : Bytes) : WebSocketClient τ ρ × Bool :=
  if net.connected client.transport = false then
    ({ client with error := "send: not connected" }, false)
  else
    let (maskKey, client) := client.nextMaskKey draw
    let frame := sentFrame opcode payload maskKey
    let (transport, status) := net.write client.transport frame
    let client := { client with transport := transport, written := client.written ++ [frame] }
    if status ≠ .ok then ({ client with error := describe net "frame write failed" transport }, false)
    else
      ({ client with stats := { client.stats with framesSent := client.stats.framesSent + 1 } }, true)

def sendText (payload : Bytes) : WebSocketClient τ ρ × Bool :=
  client.sendFrame net draw .text payload

def sendBinary (payload : Bytes) : WebSocketClient τ ρ × Bool :=
  client.sendFrame net draw .binary payload

def sendPing (payload : Bytes) : WebSocketClient τ ρ × Bool :=
  if kMaxControlPayload < payload.length then
    ({ client with error := "ping payload exceeds 125 bytes" }, false)
  else client.sendFrame net draw .ping payload

/-- The two bytes of a status code and what of the reason fits behind them. -/
def closePayload (code : CloseCode) (reason : Bytes) : Bytes :=
  (code.code >>> 8).toUInt8 :: code.code.toUInt8 :: reason.take (kMaxControlPayload - 2)

def close (code : CloseCode) (reason : Bytes) : WebSocketClient τ ρ :=
  let client :=
    if client.connected net then
      (client.sendFrame net draw .close (closePayload code reason)).1
    else client
  { client with transport := net.close client.transport, isOpen := false }

end Client

structure Polling (τ ρ : Type) where
  client : WebSocketClient τ ρ
  event : Event
  deriving DecidableEq, Repr

section Polling

variable (polling : Polling τ ρ)

def pollTransport : Polling τ ρ × Option ReadStatus :=
  let client := polling.client
  let (transport, status, data) := net.read client.transport kReadChunk
  let got := if status = .ok then data.length else 0
  let reader := ((client.reader.writableTail (List.replicate kReadChunk 0)).fillTail kReadChunk
    data).commit got kReadChunk
  let client := { client with transport := transport, reader := reader }
  match status with
  | .ok =>
    let stats :=
      { client.stats with bytesReceived := client.stats.bytesReceived + UInt64.ofNat got }
    ({ polling with client := { client with stats := stats } }, none)
  | .timeout => ({ polling with client := client }, some .needMore)
  -- Hanging up without a close frame is reported as a close of its own code.
  | .closed =>
    ({ client := { client with isOpen := false },
       event := { polling.event with closeCode := CloseCode.abnormal.code, payload := [] } },
      some .close)
  | .error =>
    ({ polling with
        client :=
          { client with error := describe net "transport read failed" transport, isOpen := false } },
      some .protocolError)

/-- One pass of the loop in `poll`; without a status the loop goes round. -/
def pollPass : Polling τ ρ × Option ReadStatus :=
  let (reader, report) := polling.client.reader.next
  let event := report.event.getD polling.event
  let client := { polling.client with reader := reader }
  match report.status with
  | .message =>
    let stats := { client.stats with messages := client.stats.messages + 1 }
    (⟨{ client with stats := stats }, event⟩, some .message)
  | .ping =>
    let stats := { client.stats with pingsReceived := client.stats.pingsReceived + 1 }
    let (client, sent) := { client with stats := stats }.sendFrame net draw .pong event.payload
    -- A pong is counted once it has gone out.
    if sent = false then (⟨client, event⟩, some .protocolError)
    else
      let stats := { client.stats with pongsSent := client.stats.pongsSent + 1 }
      (⟨{ client with stats := stats }, event⟩, none)
  | .pong =>
    let stats := { client.stats with pongsReceived := client.stats.pongsReceived + 1 }
    (⟨{ client with stats := stats }, event⟩, none)
  | .close =>
    -- The event's payload no longer begins with the code, so what is echoed is the reason.
    let client := (client.sendFrame net draw .close event.payload).1
    (⟨{ client with isOpen := false, transport := net.close client.transport }, event⟩, some .close)
  | .protocolError =>
    let client := { client with error := "peer violated RFC 6455" }
    (⟨client.close net draw .protocolError (bytes "protocol error"), event⟩, some .protocolError)
  | .messageTooLarge =>
    let client := { client with error := "message exceeded the configured ceiling" }
    (⟨client.close net draw .messageTooBig (bytes "message too big"), event⟩,
      some .messageTooLarge)
  | .needMore => pollTransport net ⟨client, event⟩

/-- So many passes of the loop; without a status they were not enough. -/
def pollPasses : Nat → Polling τ ρ → Polling τ ρ × Option ReadStatus
  | 0, polling => (polling, none)
  | passes + 1, polling =>
    match pollPass net draw polling with
    | (polling, none) => pollPasses passes polling
    | (polling, some status) => (polling, some status)

def poll (passes : Nat) : Polling τ ρ × Option ReadStatus :=
  if polling.client.connected net = false then
    ({ polling with client := { polling.client with error := "poll: not connected" } },
      some .protocolError)
  else pollPasses net draw passes polling

end Polling

end WebSocketClient

end Net

end Crossbook
