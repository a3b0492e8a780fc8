import Crossbook.Lib.Loop
import Crossbook.Net.ClosingHandshake
import Crossbook.Net.HandshakeStrict

set_option autoImplicit false

namespace Crossbook

namespace Net

namespace WebSocketClient

def kMaxHandshakeBytes : Nat := 64 * 1024

variable {τ ρ : Type}

structure Handshaking (τ ρ : Type) where
  client : WebSocketClient τ ρ
  response : Bytes

def concludeHandshake (client : WebSocketClient τ ρ) (response : Bytes) :
    HandshakeStatus → HandshakeResponse → WebSocketClient τ ρ × Bool
  | .ok, parsed =>
    if parsed.headerBytes < response.length then
      ({ client with reader := client.reader.append (response.drop parsed.headerBytes) }, true)
    else (client, true)
  | .notSwitchingProtocols, parsed =>
    ({ client with
        error := "handshake rejected: HTTP " ++ toString parsed.statusCode.toInt }, false)
  | status, _ => ({ client with error := "handshake failed: " ++ status.toString }, false)

/-- One round of the loop in `complete_handshake`. There is no result once the status code of a
response overflows. -/
def handshakeRound (net : Transport τ) (expectedAccept : Bytes) (state : Handshaking τ ρ) :
    Handshaking τ ρ ⊕ Option (WebSocketClient τ ρ × Bool) :=
  let client := state.client
  match parseHandshakeResponse state.response expectedAccept ⟨0, 0⟩ with
  | none => .inr none
  | some (.incomplete, _) =>
    if kMaxHandshakeBytes < state.response.length then
      .inr (some ({ client with error := "handshake response exceeded ceiling" }, false))
    else
      let (transport, status, data) := net.read client.transport kReadChunk
      let client := { client with transport := transport }
      match status with
      | .ok => .inl ⟨client, state.response ++ data⟩
      | .timeout => .inr (some ({ client with error := "handshake timed out" }, false))
      | .closed => .inr (some ({ client with error := "peer closed during handshake" }, false))
      | .error =>
        .inr (some ({ client with error := describe net "handshake read failed" transport }, false))
  | some (status, parsed) => .inr (some (concludeHandshake client state.response status parsed))

def Completes (net : Transport τ) (expectedAccept : Bytes) (client : WebSocketClient τ ρ)
    (result : Option (WebSocketClient τ ρ × Bool)) : Prop :=
  Loop.Returns (handshakeRound net expectedAccept) ⟨client, []⟩ result

inductive Delivers (net : Transport τ) : τ → List Bytes → τ → Prop
  | nil {state : τ} : Delivers net state [] state
  | cons {state next last : τ} {piece : Bytes} {later : List Bytes}
      (read : net.read state kReadChunk = (next, .ok, piece)) (rest : Delivers net next later last) :
      Delivers net state (piece :: later) last

structure HandsOver (net : Transport τ) (client : WebSocketClient τ ρ) (pieces : List Bytes)
    (last : τ) (rest : Bytes) (after : WebSocketClient τ ρ) : Prop where
  lossless : ∃ consumed later handed, pieces = consumed ++ later ∧ handed ++ later.flatten = rest ∧
    Delivers net after.transport later last ∧
    after.reader = if handed = [] then client.reader else client.reader.append handed

def JudgesWhole (net : Transport τ) (expectedAccept stream rest : Bytes)
    (client : WebSocketClient τ ρ) (pieces : List Bytes) (last : τ) : Prop :=
  match parseHandshakeResponse stream expectedAccept ⟨0, 0⟩ with
  | none => Completes net expectedAccept client none
  | some (status, parsed) =>
    ∃ after accepted, Completes net expectedAccept client (some (after, accepted)) ∧
      accepted = (concludeHandshake client stream status parsed).2 ∧
      after.error = (concludeHandshake client stream status parsed).1.error ∧
      (accepted = true → HandsOver net client pieces last rest after)

/-- The same verdict, and every byte behind the header block, however the stream is split. -/
def SplitFree (expectedAccept stream rest : Bytes) : Prop :=
  ∀ {τ ρ : Type} (net : Transport τ) (client : WebSocketClient τ ρ) (pieces : List Bytes)
    (last : τ), Delivers net client.transport pieces last → pieces.flatten = stream →
    JudgesWhole net expectedAccept stream rest client pieces last

section Rounds

variable {net : Transport τ} {expectedAccept head rest : Bytes}

theorem parse_short {stream buffer : Bytes} (block : stream.dropInfix? headerEnd = some (head, rest))
    (front : buffer <+: stream) (short : buffer.length < head.length + 4) (out : HandshakeResponse) :
    parseHandshakeResponse buffer expectedAccept out = some (.incomplete, out) := by
  have clear := Search.clear_of_dropInfix? (by decide) block
  rw [Search.eq_of_dropInfix? block] at front
  rw [parseHandshakeResponse]
  rcases Search.cut_cases (by decide) clear front with none | ⟨kept, _, rfl⟩
  · rw [none]
  · simp only [List.length_append, headerEnd, crlf, List.length_cons, List.length_nil] at short
    omega

theorem delivers_piece {state last : τ} {first later : List Bytes} {piece : Bytes}
    (delivers : Delivers net state (first ++ piece :: later) last) :
    piece.length ≤ kReadChunk ∧ ∃ middle, Delivers net middle later last := by
  induction first generalizing state with
  | nil =>
    cases delivers with
    | cons read rest =>
      have fits := net.readFits state kReadChunk
      rw [read] at fits
      exact ⟨fits, _, rest⟩
  | cons other first ih =>
    cases delivers with
    | cons read rest => exact ih rest

theorem judgeResponse_complete {line headers : Bytes} {out parsed : HandshakeResponse} :
    judgeResponse line headers expectedAccept out ≠ some (.incomplete, parsed) := by
  have judged : judgeHeaders headers expectedAccept ≠ .incomplete := by
    unfold judgeHeaders
    split
    · simp
    · split
      · simp
      · split <;> simp
  unfold judgeResponse
  split
  · simp
  · split
    · simp
    · simp
    · dsimp only
      split
      · simp
      · intro same
        rw [Option.some.injEq, Prod.mk.injEq] at same
        exact judged same.1

theorem judgeResponse_headerBytes {line headers : Bytes} {out parsed : HandshakeResponse}
    {status : HandshakeStatus}
    (judged : judgeResponse line headers expectedAccept out = some (status, parsed)) :
    parsed.headerBytes = out.headerBytes := by
  unfold judgeResponse at judged
  split at judged
  · rw [Option.some.injEq, Prod.mk.injEq] at judged
    rw [← judged.2]
  · split at judged
    · contradiction
    · rw [Option.some.injEq, Prod.mk.injEq] at judged
      rw [← judged.2]
    · dsimp only at judged
      split at judged
      · rw [Option.some.injEq, Prod.mk.injEq] at judged
        rw [← judged.2]
      · rw [Option.some.injEq, Prod.mk.injEq] at judged
        rw [← judged.2]

theorem exists_crossing {α : Type} (pieces : List (List α)) (length : Nat) (some_ : 0 < length)
    (enough : length ≤ pieces.flatten.length) :
    ∃ first piece later, pieces = first ++ piece :: later ∧ first.flatten.length < length ∧
      length ≤ first.flatten.length + piece.length := by
  induction pieces generalizing length with
  | nil =>
    rw [List.flatten_nil, List.length_nil] at enough
    omega
  | cons piece rest ih =>
    by_cases here : length ≤ piece.length
    · exact ⟨[], piece, rest, rfl, some_, by simpa using here⟩
    · rw [List.flatten_cons, List.length_append] at enough
      obtain ⟨first, next, later, rfl, below, reached⟩ :=
        ih (length - piece.length) (by omega) (by omega)
      refine ⟨piece :: first, next, later, rfl, ?_, ?_⟩
      · rw [List.flatten_cons, List.length_append]
        omega
      · rw [List.flatten_cons, List.length_append]
        omega

variable {τ ρ : Type} {net : Transport τ}

def concluded (client : WebSocketClient τ ρ) (expectedAccept response : Bytes) :
    Option (WebSocketClient τ ρ × Bool) :=
  (parseHandshakeResponse response expectedAccept ⟨0, 0⟩).map fun outcome =>
    concludeHandshake client response outcome.1 outcome.2

theorem round_whole {client : WebSocketClient τ ρ} {response kept : Bytes}
    (short : response.length < 2 ^ 63)
    (split : response.dropInfix? headerEnd = some (head, kept)) :
    handshakeRound net expectedAccept ⟨client, response⟩ =
      .inr (concluded client expectedAccept response) := by
  obtain ⟨line, headers, read⟩ := exists_readAs head kept
  unfold handshakeRound concluded
  dsimp only
  rw [parse_read short split read expectedAccept ⟨0, 0⟩]
  cases judged : judgeResponse line headers expectedAccept ⟨head.length + 4, 0⟩ with
  | none => rfl
  | some outcome =>
    obtain ⟨status, result⟩ := outcome
    cases status with
    | incomplete => exact absurd judged judgeResponse_complete
    | ok => rfl
    | notSwitchingProtocols => rfl
    | notUpgraded => rfl
    | badAccept => rfl

theorem round_short {client : WebSocketClient τ ρ} {stream response piece : Bytes} {next : τ}
    (block : stream.dropInfix? headerEnd = some (head, rest))
    (ceiling : head.length + 4 ≤ kMaxHandshakeBytes) (front : response <+: stream)
    (short : response.length < head.length + 4)
    (read : net.read client.transport kReadChunk = (next, .ok, piece)) :
    handshakeRound net expectedAccept ⟨client, response⟩ =
      .inl ⟨{ client with transport := next }, response ++ piece⟩ := by
  have below : ¬ kMaxHandshakeBytes < response.length := by omega
  simp only [handshakeRound, parse_short block front short, read, if_neg below]

variable (expectedAccept) in
theorem returns_at (client : WebSocketClient τ ρ) (buffer : Bytes) {stream piece : Bytes}
    {first later : List Bytes} {last : τ} (addressable : stream.length < 2 ^ 63)
    (block : stream.dropInfix? headerEnd = some (head, rest))
    (ceiling : head.length + 4 ≤ kMaxHandshakeBytes)
    (delivers : Delivers net client.transport (first ++ piece :: later) last)
    (front : buffer ++ first.flatten ++ piece <+: stream)
    (below : (buffer ++ first.flatten).length < head.length + 4)
    (reached : head.length + 4 ≤ (buffer ++ first.flatten).length + piece.length) :
    ∃ middle kept, Delivers net middle later last ∧
      buffer ++ first.flatten ++ piece = head ++ headerEnd ++ kept ∧
      Loop.Returns (handshakeRound net expectedAccept) ⟨client, buffer⟩
        (concluded { client with transport := middle } expectedAccept
          (buffer ++ first.flatten ++ piece)) := by
  induction first generalizing client buffer with
  | nil =>
    rw [List.flatten_nil, List.append_nil] at front below reached ⊢
    cases delivers with
    | cons read rest_ =>
      have clear := Search.clear_of_dropInfix? (by decide) block
      have whole := Search.eq_of_dropInfix? block
      have start : head ++ headerEnd <+: buffer ++ piece := by
        refine List.prefix_of_prefix_length_le ⟨rest, whole.symm⟩ front ?_
        rw [List.length_append, List.length_append]
        exact reached
      obtain ⟨kept, same⟩ := start
      have split : (buffer ++ piece).dropInfix? headerEnd = some (head, kept) := by
        rw [← same]
        exact Search.dropInfix?_append clear kept
      refine ⟨_, kept, rest_, same.symm, ?_⟩
      have short : buffer <+: stream := (List.prefix_append buffer piece).trans front
      refine Loop.returns_next (round_short block ceiling short below read) ?_
      exact Loop.returns_here (round_whole (lt_of_le_of_lt front.length_le addressable) split)
  | cons other first ih =>
    rw [List.flatten_cons, ← List.append_assoc] at front below reached ⊢
    cases delivers with
    | cons read rest_ =>
      rename_i next
      have short : buffer <+: stream :=
        (((List.prefix_append buffer other).trans (List.prefix_append _ _)).trans
          (List.prefix_append _ piece)).trans front
      have small : buffer.length < head.length + 4 := by
        rw [List.length_append, List.length_append] at below
        omega
      obtain ⟨middle, kept, remaining, same, returned⟩ :=
        ih { client with transport := next } (buffer ++ other) rest_ front below reached
      exact ⟨middle, kept, remaining, same,
        Loop.returns_next (round_short block ceiling short small read) returned⟩

end Rounds

section Verdicts

structure LooksSwitched (text : Bytes) : Prop where
  upgrade : iequals (findHeader text (bytes "upgrade")) (bytes "websocket") = true
  connection : icontains (findHeader text (bytes "connection")) (bytes "upgrade") = true

theorem judgeHeaders_notUpgraded (text expectedAccept : Bytes) :
    judgeHeaders text expectedAccept = .notUpgraded ↔ ¬ LooksSwitched text := by
  unfold judgeHeaders
  constructor
  · rintro judged ⟨upgrade, connection⟩
    rw [if_neg (by simp [upgrade]), if_neg (by simp [connection])] at judged
    split at judged <;> contradiction
  · intro unlike
    by_cases upgrade : iequals (findHeader text (bytes "upgrade")) (bytes "websocket") = false
    · rw [if_pos upgrade]
    · rw [if_neg upgrade, if_pos]
      by_contra connection
      exact unlike ⟨by simpa using upgrade, by simpa using connection⟩

theorem looksSwitched_crlf (text : Bytes) : LooksSwitched (crlf ++ text) ↔ LooksSwitched text := by
  have same (name : String) :
      findHeader (crlf ++ text) (bytes name) = findHeader text (bytes name) := by
    rw [findHeader_lines, findHeader_lines, linesOf_crlf]
    rfl
  constructor
  · rintro ⟨upgrade, connection⟩
    rw [same] at upgrade connection
    exact ⟨upgrade, connection⟩
  · rintro ⟨upgrade, connection⟩
    rw [← same] at upgrade connection
    exact ⟨upgrade, connection⟩

/-- A block without headers whose verdict is left to what the first read brings behind it. -/
structure ReadsBehind (head rest : Bytes) : Prop where
  single : ¬ crlf <:+: head
  switches : Switches head
  looks : ∃ front, front <+: rest ∧ (front.length < kReadChunk ∨ front = rest) ∧
    LooksSwitched front

theorem judgeResponse_congr {line headers other expectedAccept : Bytes} (out : HandshakeResponse)
    (same : Switches line →
      judgeHeaders headers expectedAccept = judgeHeaders other expectedAccept) :
    judgeResponse line headers expectedAccept out = judgeResponse line other expectedAccept out := by
  unfold judgeResponse
  cases token : Spans.splitFirst (ascii ' ') line with
  | none => rfl
  | some parts =>
    dsimp only
    cases scanned : scanStatus 0 parts.2 with
    | overflow => rfl
    | notDigits => rfl
    | code code =>
      dsimp only
      by_cases switching : code = 101
      · rw [switching] at scanned
        obtain ⟨number, value⟩ := (scanStatus_switching _).mp scanned
        rw [if_neg (not_not.mpr switching), if_neg (not_not.mpr switching), same]
        exact ⟨_, by rw [statusToken, token]; rfl, number, value⟩
      · rw [if_pos switching, if_pos switching]

theorem judgeResponse_switches {line : Bytes} (switches : Switches line)
    (headers expectedAccept : Bytes) (out : HandshakeResponse) :
    judgeResponse line headers expectedAccept out =
      some (judgeHeaders headers expectedAccept, { out with statusCode := 101 }) := by
  obtain ⟨token, found, number, value⟩ := switches
  unfold statusToken at found
  rw [Option.map_eq_some_iff] at found
  obtain ⟨parts, split, rfl⟩ := found
  rw [judgeResponse, split]
  dsimp only
  rw [(scanStatus_switching _).mpr ⟨number, value⟩]
  rfl

variable {stream head rest kept expectedAccept : Bytes}

theorem block_again (block : stream.dropInfix? headerEnd = some (head, rest)) (kept : Bytes) :
    (head ++ headerEnd ++ kept).dropInfix? headerEnd = some (head, kept) :=
  Search.dropInfix?_append (Search.clear_of_dropInfix? (by decide) block) kept

theorem kept_short (addressable : stream.length < 2 ^ 63)
    (block : stream.dropInfix? headerEnd = some (head, rest)) (front : kept <+: rest) :
    (head ++ headerEnd ++ kept).length < 2 ^ 63 := by
  have whole := congrArg List.length (Search.eq_of_dropInfix? block)
  have shorter := front.length_le
  simp only [List.length_append] at whole ⊢
  omega

variable (expectedAccept) in
theorem parse_agrees (addressable : stream.length < 2 ^ 63)
    (block : stream.dropInfix? headerEnd = some (head, rest)) (front : kept <+: rest)
    (few : kept.length < kReadChunk) (closed : ¬ ReadsBehind head rest) (out : HandshakeResponse) :
    parseHandshakeResponse (head ++ headerEnd ++ kept) expectedAccept out =
      parseHandshakeResponse stream expectedAccept out := by
  have short := kept_short addressable block front
  have again := block_again block kept
  cases first : head.dropInfix? crlf with
  | some parts =>
    rw [parse_read short again (.headers first), parse_read addressable block (.headers first)]
  | none =>
    have single := (Search.dropInfix?_eq_none _ _).mp first
    rw [parse_read short again (.headless single), parse_read addressable block (.headless single)]
    refine judgeResponse_congr _ fun switches => ?_
    have unlike (text : Bytes) (isFront : text <+: rest)
        (reached : text.length < kReadChunk ∨ text = rest) :
        judgeHeaders (crlf ++ text) expectedAccept = .notUpgraded := by
      rw [judgeHeaders_notUpgraded, looksSwitched_crlf]
      exact fun looks => closed ⟨single, switches, text, isFront, reached, looks⟩
    rw [unlike kept front (.inl few), unlike rest List.prefix_rfl (.inr rfl)]

end Verdicts

section Splits

variable {τ ρ : Type} {net : Transport τ} {head rest expectedAccept : Bytes}

theorem concludeHandshake_accepts (client : WebSocketClient τ ρ) (response : Bytes)
    (parsed : HandshakeResponse) :
    (concludeHandshake client response .ok parsed).2 = true ∧
      (concludeHandshake client response .ok parsed).1.error = client.error := by
  unfold concludeHandshake
  dsimp only
  split <;> exact ⟨rfl, rfl⟩

theorem concludeHandshake_verdict {client other : WebSocketClient τ ρ}
    (same : client.error = other.error) (response stream : Bytes) (status : HandshakeStatus)
    (parsed : HandshakeResponse) :
    (concludeHandshake client response status parsed).2 =
        (concludeHandshake other stream status parsed).2 ∧
      (concludeHandshake client response status parsed).1.error =
        (concludeHandshake other stream status parsed).1.error := by
  cases status with
  | ok =>
    obtain ⟨accepted, error⟩ := concludeHandshake_accepts client response parsed
    obtain ⟨accepted', error'⟩ := concludeHandshake_accepts other stream parsed
    rw [accepted, accepted', error, error']
    exact ⟨rfl, same⟩
  | incomplete => exact ⟨rfl, rfl⟩
  | notSwitchingProtocols => exact ⟨rfl, rfl⟩
  | notUpgraded => exact ⟨rfl, rfl⟩
  | badAccept => exact ⟨rfl, rfl⟩

theorem concludeHandshake_ok (client : WebSocketClient τ ρ) (kept : Bytes)
    (parsed : HandshakeResponse) (counted : parsed.headerBytes = head.length + 4) :
    (concludeHandshake client (head ++ headerEnd ++ kept) .ok parsed).1 =
      { client with
        reader := if kept = [] then client.reader else client.reader.append kept } := by
  have length : (head ++ headerEnd).length = parsed.headerBytes := by
    rw [counted, List.length_append]
    rfl
  unfold concludeHandshake
  dsimp only
  rw [← length, List.drop_left]
  by_cases empty : kept = []
  · rw [if_neg (by simp [empty]), if_pos empty]
  · have some_ := List.length_pos_iff.mpr empty
    rw [if_pos (by simp only [List.length_append]; omega), if_neg empty]

theorem parse_headerBytes {stream : Bytes} (addressable : stream.length < 2 ^ 63)
    (block : stream.dropInfix? headerEnd = some (head, rest)) {status : HandshakeStatus}
    {parsed : HandshakeResponse}
    (result : parseHandshakeResponse stream expectedAccept ⟨0, 0⟩ = some (status, parsed)) :
    parsed.headerBytes = head.length + 4 := by
  obtain ⟨line, headers, read⟩ := exists_readAs head rest
  rw [parse_read addressable block read] at result
  exact judgeResponse_headerBytes result

variable (expectedAccept) in
theorem completes_at {stream : Bytes} (addressable : stream.length < 2 ^ 63)
    (block : stream.dropInfix? headerEnd = some (head, rest))
    (ceiling : head.length + 4 ≤ kMaxHandshakeBytes) (client : WebSocketClient τ ρ)
    {pieces : List Bytes} {last : τ} (delivers : Delivers net client.transport pieces last)
    (split : pieces.flatten = stream) :
    ∃ consumed later middle kept, pieces = consumed ++ later ∧ kept ++ later.flatten = rest ∧
      kept.length < kReadChunk ∧ Delivers net middle later last ∧
      Completes net expectedAccept client
        (concluded { client with transport := middle } expectedAccept
          (head ++ headerEnd ++ kept)) := by
  have whole := Search.eq_of_dropInfix? block
  have marker : headerEnd.length = 4 := rfl
  have enough : head.length + 4 ≤ pieces.flatten.length := by
    rw [split, whole]
    simp only [List.length_append]
    omega
  obtain ⟨first, piece, later, rfl, below, reached⟩ :=
    exists_crossing pieces (head.length + 4) (by omega) enough
  have parts : first.flatten ++ piece ++ later.flatten = stream := by
    rw [← split]
    simp
  obtain ⟨fits, _⟩ := delivers_piece delivers
  obtain ⟨middle, kept, remaining, same, returned⟩ := returns_at expectedAccept client []
    addressable block ceiling delivers ⟨later.flatten, parts⟩ below reached
  rw [List.nil_append] at same returned
  rw [same] at returned
  have behind : kept ++ later.flatten = rest := by
    rw [same, whole, List.append_assoc] at parts
    exact List.append_cancel_left parts
  have few : kept.length < kReadChunk := by
    have lengths := congrArg List.length same
    simp only [List.length_append] at lengths
    omega
  exact ⟨first ++ [piece], later, middle, kept, by simp, behind, few, remaining, returned⟩

theorem judges_whole {stream : Bytes} (addressable : stream.length < 2 ^ 63)
    (block : stream.dropInfix? headerEnd = some (head, rest))
    (ceiling : head.length + 4 ≤ kMaxHandshakeBytes) (closed : ¬ ReadsBehind head rest)
    (client : WebSocketClient τ ρ) {pieces : List Bytes} {last : τ}
    (delivers : Delivers net client.transport pieces last) (split : pieces.flatten = stream) :
    JudgesWhole net expectedAccept stream rest client pieces last := by
  obtain ⟨consumed, later, middle, kept, taken, behind, few, remaining, returned⟩ :=
    completes_at expectedAccept addressable block ceiling client delivers split
  have agrees := parse_agrees expectedAccept addressable block ⟨_, behind⟩ few closed ⟨0, 0⟩
  rw [concluded, agrees] at returned
  unfold JudgesWhole
  cases result : parseHandshakeResponse stream expectedAccept ⟨0, 0⟩ with
  | none =>
    rw [result] at returned
    exact returned
  | some outcome =>
    obtain ⟨status, parsed⟩ := outcome
    rw [result] at returned
    have verdict := concludeHandshake_verdict
      (show { client with transport := middle }.error = client.error from rfl)
      (head ++ headerEnd ++ kept) stream status parsed
    refine ⟨_, _, returned, verdict.1, verdict.2, ?_⟩
    intro accepted
    have counted := parse_headerBytes addressable block result
    cases status with
    | ok =>
      change HandsOver net client _ last rest
        (concludeHandshake { client with transport := middle } (head ++ headerEnd ++ kept) .ok
          parsed).1
      rw [concludeHandshake_ok _ kept parsed counted]
      exact ⟨consumed, later, kept, taken, behind, remaining, rfl⟩
    | incomplete => exact absurd accepted Bool.false_ne_true
    | notSwitchingProtocols => exact absurd accepted Bool.false_ne_true
    | notUpgraded => exact absurd accepted Bool.false_ne_true
    | badAccept => exact absurd accepted Bool.false_ne_true

def singly (bytes : Bytes) : List Bytes := bytes.map fun c => [c]

theorem flatten_singly (bytes : Bytes) : (singly bytes).flatten = bytes := by
  induction bytes with
  | nil => rfl
  | cons c rest ih => rw [singly, List.map_cons, List.flatten_cons, ← singly, ih]; rfl

theorem delivers_scripted {pieces : List Bytes}
    (fits : ∀ piece ∈ pieces, piece.length ≤ kReadChunk) : Delivers scripted pieces pieces [] := by
  induction pieces with
  | nil => exact .nil
  | cons piece later ih =>
    obtain ⟨here, others⟩ := List.forall_mem_cons.mp fits
    refine .cons ?_ (ih others)
    change (later, IoStatus.ok, piece.take kReadChunk) = (later, .ok, piece)
    rw [List.take_of_length_le here]

def bringing (head front after : Bytes) : List Bytes :=
  singly (head ++ headerEnd.dropLast) ++ (ascii '\n' :: front) :: singly after

theorem flatten_bringing (head front after : Bytes) :
    (bringing head front after).flatten = head ++ headerEnd ++ (front ++ after) := by
  have marker : headerEnd = headerEnd.dropLast ++ [ascii '\n'] := rfl
  rw [bringing, List.flatten_append, List.flatten_cons, flatten_singly, flatten_singly]
  conv_rhs => rw [marker]
  simp

theorem bringing_fits {head front after : Bytes} (few : front.length < kReadChunk) :
    ∀ piece ∈ bringing head front after, piece.length ≤ kReadChunk := by
  have single : ∀ bytes : Bytes, ∀ piece ∈ singly bytes, piece.length ≤ kReadChunk := by
    intro bytes piece member
    obtain ⟨c, _, rfl⟩ := List.mem_map.mp member
    exact (by decide : (1 : Nat) ≤ kReadChunk)
  intro piece member
  unfold bringing at member
  rw [List.mem_append, List.mem_cons] at member
  rcases member with first | rfl | later
  · exact single _ piece first
  · exact few
  · exact single _ piece later

def waiting (pieces : List Bytes) : WebSocketClient (List Bytes) Unit :=
  ⟨pieces, .fresh (8 * 1024 * 1024), "", (), .zero, false, []⟩

theorem judgeHeaders_cases (headers expectedAccept : Bytes) :
    judgeHeaders headers expectedAccept = .ok ∨
      judgeHeaders headers expectedAccept = .notUpgraded ∨
      judgeHeaders headers expectedAccept = .badAccept := by
  unfold judgeHeaders
  split
  · exact .inr (.inl rfl)
  · split
    · exact .inr (.inl rfl)
    · split
      · exact .inr (.inr rfl)
      · exact .inl rfl

theorem concludeHandshake_tells {client other : WebSocketClient τ ρ} {response stream : Bytes}
    {headers text : Bytes} {parsed : HandshakeResponse}
    (same : (concludeHandshake client response (judgeHeaders headers expectedAccept) parsed).2 =
      (concludeHandshake other stream (judgeHeaders text expectedAccept) parsed).2)
    (error : (concludeHandshake client response (judgeHeaders headers expectedAccept)
        parsed).1.error =
      (concludeHandshake other stream (judgeHeaders text expectedAccept) parsed).1.error) :
    judgeHeaders headers expectedAccept = judgeHeaders text expectedAccept := by
  have accepted (client : WebSocketClient τ ρ) (response : Bytes) :=
    (concludeHandshake_accepts client response parsed).1
  have refused : ("handshake failed: " ++ HandshakeStatus.notUpgraded.toString) ≠
      "handshake failed: " ++ HandshakeStatus.badAccept.toString := by decide
  rcases judgeHeaders_cases headers expectedAccept with left | left | left <;>
    rcases judgeHeaders_cases text expectedAccept with right | right | right <;>
    rw [left, right] at same error ⊢
  · rw [accepted] at same
    exact absurd same Bool.true_eq_false_eq_False
  · rw [accepted] at same
    exact absurd same Bool.true_eq_false_eq_False
  · rw [accepted] at same
    exact absurd same.symm Bool.true_eq_false_eq_False
  · exact absurd error refused
  · rw [accepted] at same
    exact absurd same.symm Bool.true_eq_false_eq_False
  · exact absurd error.symm refused

theorem parse_headless {stream : Bytes} (addressable : stream.length < 2 ^ 63)
    (block : stream.dropInfix? headerEnd = some (head, rest)) (single : ¬ crlf <:+: head)
    (switches : Switches head) :
    parseHandshakeResponse stream expectedAccept ⟨0, 0⟩ =
      some (judgeHeaders (crlf ++ rest) expectedAccept, ⟨head.length + 4, 101⟩) := by
  rw [parse_read addressable block (.headless single), judgeResponse_switches switches]

theorem judged_front {stream front : Bytes} (addressable : stream.length < 2 ^ 63)
    (block : stream.dropInfix? headerEnd = some (head, rest))
    (ceiling : head.length + 4 ≤ kMaxHandshakeBytes) (single : ¬ crlf <:+: head)
    (switches : Switches head) (isFront : front <+: rest) (few : front.length < kReadChunk)
    (free : SplitFree expectedAccept stream rest) :
    judgeHeaders (crlf ++ front) expectedAccept = judgeHeaders (crlf ++ rest) expectedAccept := by
  obtain ⟨after, rfl⟩ := isFront
  have whole := Search.eq_of_dropInfix? block
  have split : (bringing head front after).flatten = stream := by
    rw [flatten_bringing, whole]
  have delivers := delivers_scripted (bringing_fits few : ∀ piece ∈ bringing head front after, _)
  have judged := free scripted (waiting (bringing head front after)) _ _ delivers split
  unfold JudgesWhole at judged
  rw [parse_headless addressable block single switches] at judged
  obtain ⟨client, accepted, completed, verdict, error, _⟩ := judged
  -- The run with this split ends on the block and the front.
  have brought : [] ++ (singly (head ++ headerEnd.dropLast)).flatten ++ (ascii '\n' :: front) =
      head ++ headerEnd ++ front := by
    rw [flatten_singly]
    simp [headerEnd, crlf]
  have prefix_ : head ++ headerEnd ++ front <+: stream := ⟨after, by rw [whole]; simp⟩
  have marker : (singly (head ++ headerEnd.dropLast)).flatten.length = head.length + 3 := by
    rw [flatten_singly, List.length_append]
    rfl
  obtain ⟨middle, kept, _, _, returned⟩ := returns_at expectedAccept
    (waiting (bringing head front after)) [] addressable block ceiling delivers
    (by rw [brought]; exact prefix_) (by rw [List.nil_append, marker]; omega)
    (by rw [List.nil_append, marker, List.length_cons]; omega)
  have short := lt_of_le_of_lt prefix_.length_le addressable
  rw [brought, concluded, parse_headless short (block_again block front) single switches,
    Option.map_some] at returned
  have ended := Option.some.inj (Loop.Returns.unique completed returned)
  rw [Prod.mk.injEq] at ended
  rw [ended.2] at verdict
  rw [ended.1] at error
  exact concludeHandshake_tells verdict error

theorem handshake_split_iff (stream : StringView) (expectedAccept : Bytes) {head rest : Bytes}
    (block : stream.bytes.dropInfix? headerEnd = some (head, rest))
    (ceiling : head.length + 4 ≤ kMaxHandshakeBytes) :
    SplitFree expectedAccept stream.bytes rest ↔ ¬ ReadsBehind head rest := by
  constructor
  · rintro free ⟨single, switches, front, isFront, reached, looks⟩
    have judged {text : Bytes} (isFront : text <+: rest) (few : text.length < kReadChunk) :=
      judged_front stream.addressable block ceiling single switches isFront few free
    have nothing : judgeHeaders (crlf ++ []) expectedAccept = .notUpgraded := by
      rw [judgeHeaders_notUpgraded]
      rintro ⟨upgrade, _⟩
      exact absurd upgrade (by decide +kernel)
    have all := (judged List.nil_prefix (by decide)).symm.trans nothing
    have unlike : judgeHeaders (crlf ++ front) expectedAccept = .notUpgraded := by
      rcases reached with few | rfl
      · exact (judged isFront few).trans all
      · exact all
    rw [judgeHeaders_notUpgraded, looksSwitched_crlf] at unlike
    exact unlike looks
  · intro closed τ ρ net client pieces last delivers split
    exact judges_whole stream.addressable block ceiling closed client delivers split

def bareHead : Bytes := bytes "HTTP/1.1 101 Switching Protocols"

def laterHeaders : Bytes :=
  bytes "Upgrade: websocket\r\nConnection: Upgrade\r\nSec-WebSocket-Accept: abc\r\n"

def bareStream : StringView := ⟨bareHead ++ headerEnd ++ laterHeaders, by decide +kernel⟩

theorem handshake_split_iff_bare :
    bareStream.bytes.dropInfix? headerEnd = some (bareHead, laterHeaders) ∧
      bareHead.length + 4 ≤ kMaxHandshakeBytes ∧
      (SplitFree (bytes "abc") bareStream.bytes laterHeaders ↔
        ¬ ReadsBehind bareHead laterHeaders) :=
  ⟨by decide +kernel, by decide,
    handshake_split_iff bareStream (bytes "abc") (by decide +kernel) (by decide)⟩

theorem handshake_depends_on_split :
    ¬ SplitFree (bytes "abc") bareStream.bytes laterHeaders := by
  intro free
  have switches : Switches bareHead := ⟨bytes "101", by decide +kernel,
    ⟨by decide, by decide +kernel⟩, by decide +kernel⟩
  have judged := judged_front bareStream.addressable (by decide +kernel) (by decide)
    (by decide +kernel) switches List.nil_prefix (by decide) free
  exact absurd judged (by decide +kernel)

end Splits

end WebSocketClient

end Net

end Crossbook
