import Crossbook.Net.Connect

set_option autoImplicit false

namespace Crossbook

namespace Net

open WebSocketClient (describe)

def kMaxResponse : Nat := 64 * 1024 * 1024

def kHttpChunk : Nat := 16384

def httpsRequest (host path : Bytes) : Bytes :=
  (bytes "GET " ++ path ++ bytes " HTTP/1.1\r\n") ++
    (bytes "Host: " ++ host ++ bytes "\r\n") ++
    bytes "User-Agent: crossbook/0.2\r\n" ++
    bytes "Accept: application/json\r\n" ++
    bytes "Connection: close\r\n\r\n"

structure Fetching (τ : Type) where
  transport : τ
  response : Bytes

section Get

variable {τ : Type} (net : Transport τ)

def fetchRound (fetching : Fetching τ) : Fetching τ ⊕ Except Bytes Bytes :=
  let (transport, status, chunk) := net.read fetching.transport kHttpChunk
  match status with
  | .ok =>
    let response := fetching.response ++ chunk
    if kMaxResponse < response.length then .inr (.error (bytes "http response exceeded ceiling"))
    else .inl ⟨transport, response⟩
  | .closed => .inr (.ok fetching.response)
  | .timeout => .inr (.error (bytes "http read timed out"))
  | .error => .inr (.error (bytes (describe net "http read failed" transport)))

def readFetched (rounds : Nat) : Except Bytes Bytes → Option HttpResult
  | .error error => some (.failed [] error)
  | .ok response => readResponse rounds response

variable {net}

/-- A request and its response, in so many rounds of the loops; none when they do not suffice. -/
def httpsGet (dialer : Dialer net) (rounds : Nat) (host path : Bytes) : Option HttpResult :=
  match dialer.make true with
  | none => some (.failed [] (bytes "no TLS backend in this build"))
  | some made =>
    let (transport, connected) := dialer.connect made host 443
    if connected = false then some (.failed [] (bytes (net.lastError transport)))
    else
      let (transport, status) := net.write transport (httpsRequest host path)
      if status ≠ .ok then
        some (.failed [] (bytes (describe net "http write failed" transport)))
      else (Loop.run (fetchRound net) rounds ⟨transport, []⟩).bind (readFetched rounds)

end Get

section Messages

theorem httpHeader_lines (headers name : Bytes) : httpHeader headers name =
    ((linesOf headers).findSome? fun line => headerValue line name).getD [] := by
  fun_induction linesOf headers with
  | case1 headers empty =>
    rw [httpHeader, if_pos empty]
    rfl
  | case2 headers some_ single =>
    rw [httpHeader, if_neg some_]
    split
    · simp
    · rename_i found
      rw [single] at found
      contradiction
  | case3 headers some_ line rest found ih =>
    rw [httpHeader, if_neg some_]
    split
    · rename_i none_
      rw [found] at none_
      contradiction
    · rename_i other behind again
      rw [found, Option.some.injEq, Prod.mk.injEq] at again
      obtain ⟨rfl, rfl⟩ := again
      rw [List.findSome?_cons]
      cases headerValue line name with
      | none => exact ih
      | some value => rfl

inductive HttpBody where
  | whole (content : Bytes)
  | chunked (coding : ChunkedCoding) (trailer : Bytes)

namespace HttpBody

def wire : HttpBody → Bytes
  | whole content => content
  | chunked coding trailer => coding.bytes ++ trailer

def content : HttpBody → Bytes
  | whole content => content
  | chunked coding _ => coding.payload

def IsChunked : HttpBody → Prop
  | whole _ => False
  | chunked _ _ => True

end HttpBody

structure HttpMessage where
  version : Bytes
  reason : Bytes
  fields : List Bytes
  body : HttpBody
  spaceless : ascii ' ' ∉ version
  written : Written ((version ++ bytes " 200" ++ reason) :: fields)
  announced : bytes "chunked" <:+:
    (((version ++ bytes " 200" ++ reason) :: fields).findSome? fun line =>
      headerValue line (bytes "transfer-encoding")).getD [] ↔ body.IsChunked

namespace HttpMessage

def lines (message : HttpMessage) : List Bytes :=
  (message.version ++ bytes " 200" ++ message.reason) :: message.fields

def head (message : HttpMessage) : Bytes := crlf.intercalate message.lines

def wire (message : HttpMessage) : Bytes := message.head ++ headerEnd ++ message.body.wire

variable (message : HttpMessage)

theorem head_split (body : Bytes) :
    (message.head ++ headerEnd ++ body).dropInfix? headerEnd = some (message.head, body) :=
  block_split message.written (List.cons_ne_nil _ _) body

theorem head_status : ∃ behind,
    Spans.splitFirst (ascii ' ') message.head = some (message.version, bytes "200" ++ behind) := by
  obtain ⟨behind, joined⟩ : ∃ behind, message.head =
      message.version ++ bytes " 200" ++ message.reason ++ behind := by
    unfold head lines
    cases message.fields with
    | nil => exact ⟨[], by rw [List.intercalate_singleton, List.append_nil]⟩
    | cons field rest =>
      rw [List.intercalate_cons_cons, List.append_assoc]
      exact ⟨_, rfl⟩
  refine ⟨message.reason ++ behind, ?_⟩
  have shape : message.head = message.version ++ ascii ' ' :: (bytes "200" ++
      (message.reason ++ behind)) := by
    have code : bytes " 200" = ascii ' ' :: bytes "200" := by decide +kernel
    rw [joined, code]
    simp
  rw [shape]
  exact Spans.splitFirst_append message.spaceless _

theorem head_announces : bytes "chunked" <:+: httpHeader message.head (bytes "transfer-encoding") ↔
    message.body.IsChunked := by
  rw [httpHeader_lines, head, lines, linesOf_joined message.written]
  exact message.announced

theorem readResponse_head (fuel : Nat) (raw : Bytes) :
    readResponse fuel (message.head ++ headerEnd ++ raw) =
      if bytes "chunked" <:+: httpHeader message.head (bytes "transfer-encoding") then
        (decodeChunked fuel raw []).map fun (whole, body) =>
          if whole then ⟨true, body, []⟩ else .failed body (bytes "malformed chunked body")
      else some ⟨true, raw, []⟩ := by
  obtain ⟨behind, found⟩ := message.head_status
  have code : (bytes "200" ++ behind).take 3 = bytes "200" := List.take_left' (by decide +kernel)
  rw [readResponse]
  simp only [message.head_split raw, found, code, ne_eq, not_true_eq_false, if_false]

theorem readResponse_chunks {coding : ChunkedCoding} {trailer part : Bytes}
    (body : message.body = .chunked coding trailer)
    (addressable : (coding.bytes ++ part).length < 2 ^ 63) :
    ∃ fuel, ∀ more, readResponse (fuel + more) (message.head ++ headerEnd ++ (coding.bytes ++ part)) =
      some ⟨true, coding.payload, []⟩ := by
  have announces : bytes "chunked" <:+: httpHeader message.head (bytes "transfer-encoding") := by
    rw [message.head_announces, body]
    trivial
  have shape : coding.bytes ++ part =
      [] ++ (coding.chunks.flatMap Chunk.bytes ++ (coding.last.bytes ++ crlf ++ part)) := by
    simp only [ChunkedCoding.bytes, List.nil_append, List.append_assoc]
  rw [shape] at addressable ⊢
  obtain ⟨fuel, runs⟩ := whole_returns coding.last coding.terminal part coding.chunks [] [] addressable
  refine ⟨fuel, fun more => ?_⟩
  have decoded := Loop.run_add runs more
  change decodeChunked (fuel + more) _ [] = _ at decoded
  rw [message.readResponse_head, if_pos announces, decoded]
  rfl

theorem readResponse_cut {coding : ChunkedCoding} {trailer cut : Bytes}
    (body : message.body = .chunked coding trailer) (addressable : coding.bytes.length < 2 ^ 63)
    (isCut : cut <+: message.head ++ headerEnd ++ coding.bytes)
    (proper : cut ≠ message.head ++ headerEnd ++ coding.bytes) :
    ∃ fuel kept error, ∀ more, readResponse (fuel + more) cut = some (.failed kept error) := by
  -- A cut falls in a size line, in a payload or in front of the last line break; none of them ends
  -- the walk over the chunks.
  have clear := joined_clear message.written (List.cons_ne_nil _ _)
  rcases Search.cut_cases (by decide) clear isCut with open_ | ⟨kept, isKept, rfl⟩
  · refine ⟨0, [], bytes "http response had no header terminator", fun more => ?_⟩
    rw [readResponse]
    simp only [open_]
  · have shorter : kept ≠ coding.bytes := by
      rintro rfl
      exact proper rfl
    have announces : bytes "chunked" <:+: httpHeader message.head (bytes "transfer-encoding") := by
      rw [message.head_announces, body]
      trivial
    have inside : ([] ++ kept : Bytes).length < 2 ^ 63 := isKept.length_le.trans_lt addressable
    have representable : ∀ chunk ∈ coding.chunks, chunk.payload.length < 2 ^ 63 :=
      fun chunk member => (coding.payload_le member).trans_lt addressable
    obtain ⟨acc, fuel, runs⟩ := cut_returns coding.last coding.chunks [] [] kept inside
      representable isKept shorter
    refine ⟨fuel, acc, bytes "malformed chunked body", fun more => ?_⟩
    have decoded := Loop.run_add runs more
    change decodeChunked (fuel + more) kept [] = _ at decoded
    have read := message.readResponse_head (fuel + more) kept
    rw [if_pos announces, decoded] at read
    exact read

def enough : Bytes :=
  match message.body with
  | .whole _ => message.head ++ headerEnd
  | .chunked coding _ => message.head ++ headerEnd ++ coding.bytes

def contentOf (received : Bytes) : Bytes :=
  match message.body with
  | .whole _ => received.drop (message.head ++ headerEnd).length
  | .chunked coding _ => coding.payload

theorem contentOf_wire : message.contentOf message.wire = message.body.content := by
  unfold contentOf wire
  cases message.body with
  | whole content => exact List.drop_left
  | chunked coding trailer => rfl

theorem readResponse_received {received : Bytes} (front : received <+: message.wire)
    (addressable : message.wire.length < 2 ^ 63) :
    ∃ fuel result, (∀ more, readResponse (fuel + more) received = some result) ∧
      (result.succeeded = true ↔ message.enough <+: received) ∧
      (result.succeeded = true → result = ⟨true, message.contentOf received, []⟩) := by
  have announces := message.head_announces
  unfold wire at front addressable
  cases body : message.body with
  | whole content =>
    have clear := joined_clear message.written (List.cons_ne_nil _ _)
    simp only [enough, contentOf, body]
    rcases Search.cut_cases (by decide) clear front with open_ | ⟨kept, -, rfl⟩
    · refine ⟨0, .failed [] (bytes "http response had no header terminator"), ?_, ?_, ?_⟩
      · intro more
        rw [readResponse]
        simp only [open_]
      · refine iff_of_false Bool.false_ne_true ?_
        rintro ⟨behind, rfl⟩
        rw [message.head_split behind] at open_
        contradiction
      · exact fun succeeded => absurd succeeded Bool.false_ne_true
    · rw [body] at announces
      refine ⟨0, ⟨true, kept, []⟩, ?_, iff_of_true rfl (List.prefix_append _ _), ?_⟩
      · intro more
        have read := message.readResponse_head (0 + more) kept
        rwa [if_neg announces.mp] at read
      · exact fun _ => congrArg (HttpResult.mk true · []) List.drop_left.symm
  | chunked coding trailer =>
    rw [body] at front addressable
    change _ <+: message.head ++ headerEnd ++ (coding.bytes ++ trailer) at front
    change (message.head ++ headerEnd ++ (coding.bytes ++ trailer)).length < 2 ^ 63 at addressable
    rw [← List.append_assoc] at front addressable
    simp only [enough, contentOf, body]
    by_cases enough : message.head ++ headerEnd ++ coding.bytes <+: received
    · obtain ⟨part, rfl⟩ := enough
      rw [List.append_assoc] at front
      have fits : (coding.bytes ++ part).length < 2 ^ 63 := by
        have long := front.length_le
        simp only [List.length_append] at long addressable ⊢
        omega
      obtain ⟨fuel, whole⟩ := message.readResponse_chunks body fits
      rw [List.append_assoc]
      exact ⟨fuel, _, whole, iff_of_true rfl ⟨part, List.append_assoc ..⟩, fun _ => rfl⟩
    · have short := (List.prefix_or_prefix_of_prefix front (List.prefix_append _ trailer)).resolve_right
        enough
      have fits : coding.bytes.length < 2 ^ 63 := by
        simp only [List.length_append] at addressable
        omega
      obtain ⟨fuel, kept, error, failed⟩ := message.readResponse_cut body fits short
        fun same => enough (same ▸ List.prefix_rfl)
      exact ⟨fuel, _, failed, iff_of_false Bool.false_ne_true enough,
        fun succeeded => absurd succeeded Bool.false_ne_true⟩

end HttpMessage

end Messages

section Fetched

variable {τ : Type} {net : Transport τ}

inductive Fetches (net : Transport τ) : τ → List Bytes → τ → Prop
  | nil {state : τ} : Fetches net state [] state
  | cons {state next last : τ} {piece : Bytes} {later : List Bytes}
      (read : net.read state kHttpChunk = (next, .ok, piece)) (rest : Fetches net next later last) :
      Fetches net state (piece :: later) last

theorem fetchRound_piece {state next : τ} {piece : Bytes}
    (read : net.read state kHttpChunk = (next, .ok, piece)) (response : Bytes) :
    fetchRound net ⟨state, response⟩ =
      if kMaxResponse < (response ++ piece).length then
        .inr (.error (bytes "http response exceeded ceiling"))
      else .inl ⟨next, response ++ piece⟩ := by
  rw [fetchRound]
  simp only [read]

theorem Fetches.returns {state last : τ} {pieces : List Bytes} (fetches : Fetches net state pieces last)
    {response : Bytes} (fits : (response ++ pieces.flatten).length ≤ kMaxResponse)
    {result : Except Bytes Bytes}
    (ends : Loop.Returns (fetchRound net) ⟨last, response ++ pieces.flatten⟩ result) :
    Loop.Returns (fetchRound net) ⟨state, response⟩ result := by
  induction fetches generalizing response with
  | nil => simpa using ends
  | @cons state next last piece later read rest ih =>
    rw [List.flatten_cons, ← List.append_assoc] at fits ends
    have round := fetchRound_piece read response
    rw [if_neg (by rw [List.length_append] at fits; omega)] at round
    exact Loop.returns_next round (ih fits ends)

theorem Fetches.exceeds {state last : τ} {pieces : List Bytes} (fetches : Fetches net state pieces last)
    {response : Bytes} (fits : response.length ≤ kMaxResponse)
    (long : kMaxResponse < (response ++ pieces.flatten).length) :
    Loop.Returns (fetchRound net) ⟨state, response⟩
      (.error (bytes "http response exceeded ceiling")) := by
  induction fetches generalizing response with
  | nil =>
    rw [List.flatten_nil, List.append_nil] at long
    omega
  | @cons state next last piece later read rest ih =>
    rw [List.flatten_cons, ← List.append_assoc] at long
    have round := fetchRound_piece read response
    by_cases here : kMaxResponse < (response ++ piece).length
    · rw [if_pos here] at round
      exact Loop.returns_here round
    · rw [if_neg here] at round
      exact Loop.returns_next round (ih (Nat.le_of_not_lt here) long)

def Fetched (dialer : Dialer net) (host path : Bytes) (pieces : List Bytes) (last : τ) : Prop :=
  ∃ made dialled asked, dialer.make true = some made ∧
    dialer.connect made host 443 = (dialled, true) ∧
    net.write dialled (httpsRequest host path) = (asked, .ok) ∧ Fetches net asked pieces last

theorem Fetched.reads {dialer : Dialer net} {host path : Bytes} {pieces : List Bytes} {last : τ}
    (fetched : Fetched dialer host path pieces last) : ∃ asked, Fetches net asked pieces last ∧
      ∀ rounds, httpsGet dialer rounds host path =
        (Loop.run (fetchRound net) rounds ⟨asked, []⟩).bind (readFetched rounds) := by
  obtain ⟨made, dialled, asked, makes, dials, writes, fetches⟩ := fetched
  refine ⟨asked, fetches, fun rounds => ?_⟩
  rw [httpsGet]
  simp only [makes, dials, writes, Bool.true_eq_false, if_false, ne_eq, not_true_eq_false]

end Fetched

/-- A fetch over any transport, however the response is cut into reads: past the ceiling it fails,
and within it gives the body of the message exactly when enough came before the server closed, which
for a chunked one is everything up to its last chunk. -/
theorem https_get_exact {τ : Type} {net : Transport τ} {dialer : Dialer net} {host path : Bytes}
    {pieces : List Bytes} {last : τ} (fetched : Fetched dialer host path pieces last) :
    (kMaxResponse < pieces.flatten.length → ∃ rounds, httpsGet dialer rounds host path =
      some (.failed [] (bytes "http response exceeded ceiling"))) ∧
    (pieces.flatten.length ≤ kMaxResponse → (net.read last kHttpChunk).2.1 = .closed →
      ∀ message : HttpMessage, message.wire.length < 2 ^ 63 → pieces.flatten <+: message.wire →
        ∃ rounds result, httpsGet dialer rounds host path = some result ∧
          (result.succeeded = true ↔ message.enough <+: pieces.flatten) ∧
          (result.succeeded = true → result = ⟨true, message.contentOf pieces.flatten, []⟩) ∧
          (pieces.flatten = message.wire → result = ⟨true, message.body.content, []⟩)) := by
  obtain ⟨asked, fetches, get⟩ := fetched.reads
  constructor
  · intro long
    have empty : ([] : Bytes).length ≤ kMaxResponse := Nat.zero_le _
    obtain ⟨rounds, runs⟩ := fetches.exceeds empty long
    refine ⟨rounds, ?_⟩
    rw [get, runs]
    rfl
  · intro fits closes message addressable front
    have closing : fetchRound net ⟨last, [] ++ pieces.flatten⟩ = .inr (.ok pieces.flatten) := by
      rw [fetchRound]
      simp only [closes, List.nil_append]
    obtain ⟨rounds, runs⟩ := fetches.returns fits (Loop.returns_here closing)
    obtain ⟨fuel, result, read, succeeds, tells⟩ := message.readResponse_received front addressable
    refine ⟨rounds + fuel, result, ?_, succeeds, tells, ?_⟩
    · rw [get, Loop.run_add runs fuel, Option.bind_some, Nat.add_comm]
      exact read rounds
    · intro whole
      have came : message.enough <+: pieces.flatten := by
        rw [whole, HttpMessage.enough, HttpMessage.wire]
        cases message.body with
        | whole content => exact List.prefix_append _ _
        | chunked coding trailer => exact ⟨trailer, List.append_assoc ..⟩
      rw [tells (succeeds.mpr came), whole, message.contentOf_wire]

section Depth

def hangingUp : Transport (Option (List Bytes)) where
  connected state := state.isSome
  read state len :=
    match state with
    | none => (none, .error, [])
    | some [] => (some [], .closed, [])
    | some (data :: later) => (some later, .ok, data.take len)
  write state _ := (state, if state.isSome then .ok else .error)
  close _ := none
  lastError _ := ""
  readFits state len := by
    rcases state with _ | _ | ⟨data, later⟩ <;> simp

def sending (pieces : List Bytes) : Dialer hangingUp where
  absent := none
  make _ := some none
  connect _ _ _ := (some pieces, true)
  absent_down := rfl

def chunkedMessage : HttpMessage where
  version := bytes "HTTP/1.1"
  reason := bytes " OK"
  fields := [bytes "Content-Type: application/json", bytes "Transfer-Encoding: chunked"]
  body := .chunked framedChunks crlf
  spaceless := by decide +kernel
  written := by
    constructor <;> decide +kernel
  announced := iff_of_true (by decide +kernel) trivial

theorem https_get_exact_chunked :
    ∃ rounds, httpsGet (sending [chunkedMessage.wire]) rounds (bytes "h") (bytes "/") =
      some ⟨true, framedChunks.payload, []⟩ := by
  have short : chunkedMessage.wire.length ≤ kHttpChunk := by decide +kernel
  have whole : [chunkedMessage.wire].flatten = chunkedMessage.wire := List.flatten_singleton
  have fetched : Fetched (sending [chunkedMessage.wire]) (bytes "h") (bytes "/")
      [chunkedMessage.wire] (some []) := by
    refine ⟨none, some [chunkedMessage.wire], some [chunkedMessage.wire], rfl, rfl, rfl, .cons ?_ .nil⟩
    change (some [], IoStatus.ok, chunkedMessage.wire.take kHttpChunk) = _
    rw [List.take_of_length_le short]
  have fits : [chunkedMessage.wire].flatten.length ≤ kMaxResponse :=
    whole ▸ short.trans (by decide)
  obtain ⟨rounds, result, got, -, -, tells⟩ := (https_get_exact fetched).2 fits rfl chunkedMessage
    (short.trans_lt (by decide)) (whole ▸ List.prefix_rfl)
  exact ⟨rounds, tells whole ▸ got⟩

end Depth

end Net

end Crossbook
