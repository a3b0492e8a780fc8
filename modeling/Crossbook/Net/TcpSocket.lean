import Crossbook.Net.WebSocketClient

set_option autoImplicit false

namespace Crossbook

namespace Net

inductive SendOutcome where
  | sent (count : Nat)
  | interrupted
  | wouldBlock
  | failed
  deriving DecidableEq, Repr

inductive RecvOutcome where
  | received (data : Bytes)
  | interrupted
  | wouldBlock
  | failed
  deriving DecidableEq, Repr

def SendOutcome.count : SendOutcome → Nat
  | .sent count => count
  | _ => 0

/-- The operating system's side of a connected socket. `wire` is what it has taken for the peer, and
`signals` bounds the interruptions still to come, without which a write need not return. -/
structure Kernel (κ : Type) where
  send : κ → Bytes → κ × SendOutcome
  recv : κ → Nat → κ × RecvOutcome
  close : κ → κ
  errorString : String → κ → String
  wire : κ → Bytes
  signals : κ → Nat
  sendFits : ∀ state data, (send state data).2.count ≤ data.length
  sendWire : ∀ state data,
    wire (send state data).1 = wire state ++ data.take (send state data).2.count
  sendSignals : ∀ state data, (send state data).2 = .interrupted →
    signals (send state data).1 < signals state
  recvFits : ∀ state len data, (recv state len).2 = .received data → data.length ≤ len
  recvWire : ∀ state len, wire (recv state len).1 = wire state
  closeWire : ∀ state, wire (close state) = wire state

structure TcpSocket (κ : Type) where
  kernel : κ
  valid : Bool
  deriving DecidableEq, Repr

namespace TcpSocket

variable {κ : Type} (kernel : Kernel κ)

def writeLoop (state : κ) (left : Bytes) (error : String) : κ × IoStatus × String :=
  if _more : left = [] then (state, .ok, error)
  else
    match _answer : (kernel.send state left).2 with
    | .sent 0 => ((kernel.send state left).1, .closed, error)
    | .sent (count + 1) =>
      writeLoop (kernel.send state left).1 (left.drop (count + 1)) error
    | .interrupted => writeLoop (kernel.send state left).1 left error
    | .wouldBlock => ((kernel.send state left).1, .timeout, error)
    | .failed =>
      ((kernel.send state left).1, .error, kernel.errorString "send" (kernel.send state left).1)
  termination_by (left.length, kernel.signals state)
  decreasing_by
    · have some_ : 0 < left.length := List.length_pos_iff.mpr _more
      have shorter : (left.drop (count + 1)).length < left.length := by
        rw [List.length_drop]
        omega
      exact Prod.Lex.left _ _ shorter
    · exact Prod.Lex.right _ (kernel.sendSignals state left _answer)

theorem writeLoop_wire (state : κ) (left : Bytes) (error : String) :
    ∃ sent, sent <+: left ∧
      kernel.wire (writeLoop kernel state left error).1 = kernel.wire state ++ sent ∧
      ((writeLoop kernel state left error).2.1 = .ok ↔ sent = left) := by
  fun_induction writeLoop kernel state left error with
  | case1 state => exact ⟨[], List.nil_prefix, by simp, by simp⟩
  | case2 state left more answer =>
    have taken := kernel.sendWire state left
    rw [answer] at taken
    exact ⟨[], List.nil_prefix, taken, by simpa [eq_comm] using more⟩
  | case3 state left more count answer ih =>
    have taken := kernel.sendWire state left
    rw [answer] at taken
    obtain ⟨sent, front, wire, whole⟩ := ih
    have cut : left = left.take (count + 1) ++ left.drop (count + 1) :=
      (List.take_append_drop _ _).symm
    refine ⟨left.take (count + 1) ++ sent, ?_, ?_, ?_⟩
    · conv_rhs => rw [cut]
      exact (List.prefix_append_right_inj _).mpr front
    · rw [wire, taken, List.append_assoc]
      rfl
    · rw [whole]
      constructor
      · intro same
        rw [same]
        exact cut.symm
      · intro same
        exact List.append_cancel_left (same.trans cut)
  | case4 state left more answer ih =>
    have taken := kernel.sendWire state left
    rw [answer] at taken
    have kept : kernel.wire (kernel.send state left).1 = kernel.wire state := by
      rw [taken]
      simp [SendOutcome.count]
    rwa [kept] at ih
  | case5 state left more answer =>
    have taken := kernel.sendWire state left
    rw [answer] at taken
    exact ⟨[], List.nil_prefix, taken, by simpa [eq_comm] using more⟩
  | case6 state left more answer =>
    have taken := kernel.sendWire state left
    rw [answer] at taken
    exact ⟨[], List.nil_prefix, taken, by simpa [eq_comm] using more⟩

variable (socket : TcpSocket κ)

def read (len : Nat) (error : String) : TcpSocket κ × IoStatus × Bytes × String :=
  if socket.valid = false then (socket, .error, [], "read: socket not connected")
  else
    let answered := kernel.recv socket.kernel len
    let socket := { socket with kernel := answered.1 }
    match answered.2 with
    | .received [] => (socket, .closed, [], error)
    | .received data => (socket, .ok, data, error)
    | .wouldBlock => (socket, .timeout, [], error)
    -- A signal, not a failure: the caller's loop comes round again.
    | .interrupted => (socket, .timeout, [], error)
    | .failed => (socket, .error, [], kernel.errorString "recv" socket.kernel)

def write (buf : Bytes) (error : String) : TcpSocket κ × IoStatus × String :=
  if socket.valid = false then (socket, .error, "write: socket not connected")
  else
    let written := writeLoop kernel socket.kernel buf error
    ({ socket with kernel := written.1 }, written.2)

def close : TcpSocket κ :=
  if socket.valid = false then socket else ⟨kernel.close socket.kernel, false⟩

end TcpSocket

structure PlainTransport (κ : Type) where
  socket : TcpSocket κ
  error : String
  connected : Bool
  deriving DecidableEq, Repr

namespace PlainTransport

variable {κ : Type} (kernel : Kernel κ)

def ends (status : IoStatus) : Bool := status == .closed || status == .error

def read (plain : PlainTransport κ) (len : Nat) : PlainTransport κ × IoStatus × Bytes :=
  let (socket, status, data, error) := plain.socket.read kernel len plain.error
  (⟨socket, error, if ends status then false else plain.connected⟩, status, data)

def write (plain : PlainTransport κ) (buf : Bytes) : PlainTransport κ × IoStatus :=
  let (socket, status, error) := plain.socket.write kernel buf plain.error
  (⟨socket, error, if ends status then false else plain.connected⟩, status)

def close (plain : PlainTransport κ) : PlainTransport κ :=
  { plain with socket := plain.socket.close kernel, connected := false }

theorem read_fits (plain : PlainTransport κ) (len : Nat) :
    (plain.read kernel len).2.2.length ≤ len := by
  unfold PlainTransport.read TcpSocket.read
  by_cases gone : plain.socket.valid = false
  · simp [gone]
  · simp only [gone]
    cases answer : (kernel.recv plain.socket.kernel len).2 with
    | received data =>
      have fits := kernel.recvFits _ _ _ answer
      cases data with
      | nil => exact Nat.zero_le _
      | cons head tail => exact fits
    | interrupted => exact Nat.zero_le _
    | wouldBlock => exact Nat.zero_le _
    | failed => exact Nat.zero_le _

def transport : Transport (PlainTransport κ) where
  connected := PlainTransport.connected
  read := PlainTransport.read kernel
  write := PlainTransport.write kernel
  close := PlainTransport.close kernel
  lastError := PlainTransport.error
  readFits := read_fits kernel

def wire (plain : PlainTransport κ) : Bytes := kernel.wire plain.socket.kernel

theorem closesForGood : ∀ plain, (transport kernel).connected ((transport kernel).close plain) = false :=
  fun _ => rfl

theorem wire_read (plain : PlainTransport κ) (len : Nat) :
    (plain.read kernel len).1.wire kernel = plain.wire kernel := by
  unfold PlainTransport.read TcpSocket.read wire
  by_cases gone : plain.socket.valid = false
  · simp [gone]
  · simp only [gone]
    have kept := kernel.recvWire plain.socket.kernel len
    cases answer : (kernel.recv plain.socket.kernel len).2 with
    | received data => cases data <;> exact kept
    | interrupted => exact kept
    | wouldBlock => exact kept
    | failed => exact kept

theorem wire_close (plain : PlainTransport κ) :
    (plain.close kernel).wire kernel = plain.wire kernel := by
  unfold PlainTransport.close TcpSocket.close wire
  dsimp only
  split
  · rfl
  · exact kernel.closeWire _

theorem wire_write (plain : PlainTransport κ) (buf : Bytes) :
    ∃ sent, sent <+: buf ∧ (plain.write kernel buf).1.wire kernel = plain.wire kernel ++ sent ∧
      ((plain.write kernel buf).2 = .ok → sent = buf) ∧
      ((plain.write kernel buf).2 ≠ .ok → buf ≠ [] → sent ≠ buf) := by
  unfold PlainTransport.write TcpSocket.write wire
  by_cases gone : plain.socket.valid = false
  · rw [if_pos gone]
    exact ⟨[], List.nil_prefix, by simp, by simp, fun _ some_ => Ne.symm some_⟩
  · rw [if_neg gone]
    obtain ⟨sent, front, grown, whole⟩ :=
      TcpSocket.writeLoop_wire kernel plain.socket.kernel buf plain.error
    exact ⟨sent, front, grown, whole.mp, fun failed _ => failed ∘ whole.mpr⟩

end PlainTransport

end Net

end Crossbook
