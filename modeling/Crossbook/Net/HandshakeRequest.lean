import Crossbook.Net.Base64
import Crossbook.Net.HandshakeStrict
import Crossbook.Net.Sha1

set_option autoImplicit false

namespace Crossbook

namespace Net

def kWebSocketGuid : Bytes := bytes "258EAFA5-E914-47DA-95CA-C5AB0DC85B11"

def websocketAcceptFor (key : Bytes) : Bytes :=
  let combined := key ++ kWebSocketGuid
  base64Encode (sha1 combined)

/-- The port in the host header, left out when it is the one that goes with the scheme. -/
def hostPort (port : UInt16) (secure : Bool) : Bytes :=
  let defaultPort : UInt16 := if secure then 443 else 80
  if port ≠ defaultPort then bytes ":" ++ Decimal.print port.toNat else []

def makeHandshakeRequest (host : Bytes) (port : UInt16) (path key : Bytes) (secure : Bool) : Bytes :=
  bytes "GET " ++ (if path.isEmpty then bytes "/" else path) ++ bytes " HTTP/1.1\r\n" ++
    (bytes "Host: " ++ host ++ hostPort port secure ++ bytes "\r\n") ++
    bytes "Upgrade: websocket\r\n" ++
    bytes "Connection: Upgrade\r\n" ++
    (bytes "Sec-WebSocket-Key: " ++ key ++ bytes "\r\n") ++
    bytes "Sec-WebSocket-Version: 13\r\n" ++
    bytes "User-Agent: crossbook/0.2\r\n" ++
    bytes "\r\n"

section Blocks

structure Written (lines : List Bytes) : Prop where
  some_ : ∀ line ∈ lines, line ≠ []
  oneLine : ∀ line ∈ lines, ¬ crlf <:+: line

theorem Written.tail {line : Bytes} {lines : List Bytes} (written : Written (line :: lines)) :
    Written lines :=
  ⟨fun other member => written.some_ other (List.mem_cons_of_mem _ member),
    fun other member => written.oneLine other (List.mem_cons_of_mem _ member)⟩

theorem linesOf_oneLine (text : Bytes) : ∀ line ∈ linesOf text, ¬ crlf <:+: line := by
  fun_induction linesOf text with
  | case1 text empty => simp
  | case2 text some_ single =>
    intro line member
    rw [List.mem_singleton.mp member]
    exact (Search.dropInfix?_eq_none _ _).mp single
  | case3 text some_ line rest found ih =>
    refine List.forall_mem_cons.mpr ⟨?_, ih⟩
    intro occurs
    exact Search.clear_of_dropInfix? (by decide) found (occurs.trans (List.prefix_append _ _).isInfix)

theorem linesOf_joined {lines : List Bytes} (written : Written lines) :
    linesOf (crlf.intercalate lines) = lines := by
  induction lines with
  | nil =>
    rw [List.intercalate_nil, linesOf]
    rfl
  | cons line rest ih =>
    have oneLine := written.oneLine line (by simp)
    cases rest with
    | nil =>
      have some_ : ¬ line.isEmpty = true := by simpa using written.some_ line (by simp)
      rw [List.intercalate_singleton, linesOf, if_neg some_]
      split
      · rfl
      · rename_i found
        rw [(Search.dropInfix?_eq_none _ _).mpr oneLine] at found
        contradiction
    | cons next rest =>
      rw [List.intercalate_cons_cons,
        linesOf_first (Search.dropInfix?_append (crlf_clear oneLine) _), ih written.tail]

theorem starts_crlf {line behind : Bytes} (some_ : line ≠ [])
    (here : crlf <+: line ++ ascii '\r' :: behind) : crlf <+: line := by
  cases line with
  | nil => exact absurd rfl some_
  | cons c line =>
    obtain ⟨first, next⟩ := List.cons_prefix_cons.mp here
    cases line with
    | nil =>
      have wrong := (List.cons_prefix_cons.mp next).1
      exact absurd wrong (by decide)
    | cons d line =>
      have second := (List.cons_prefix_cons.mp next).1
      exact ⟨line, by rw [← first, ← second]; rfl⟩

theorem headerEnd_cases {line behind : Bytes} (oneLine : ¬ crlf <:+: line)
    (occurs : headerEnd <:+: line ++ crlf ++ behind) : crlf <+: behind ∨ headerEnd <:+: behind := by
  induction line with
  | nil =>
    change headerEnd <:+: ascii '\r' :: ([ascii '\n'] ++ behind) at occurs
    rw [List.infix_cons_iff] at occurs
    rcases occurs with here | later
    · left
      change ascii '\r' :: ascii '\n' :: crlf <+: ascii '\r' :: ascii '\n' :: behind at here
      simpa using here
    · right
      exact Search.infix_of_absent (by decide) later
  | cons c line ih =>
    have inner : ¬ crlf <:+: line := fun inside => oneLine (inside.trans (List.suffix_cons _ _).isInfix)
    rw [List.cons_append, List.cons_append, List.infix_cons_iff] at occurs
    rcases occurs with here | later
    · have shape : c :: (line ++ crlf ++ behind) = (c :: line) ++ ascii '\r' :: ascii '\n' :: behind := by
        simp [crlf]
      rw [shape] at here
      have start : crlf <+: headerEnd := List.prefix_append _ _
      exact absurd (starts_crlf (List.cons_ne_nil _ _) (start.trans here)).isInfix oneLine
    · exact ih inner later

theorem not_crlf_prefix {line behind : Bytes} (some_ : line ≠ []) (oneLine : ¬ crlf <:+: line) :
    ¬ crlf <+: line ++ ascii '\r' :: behind :=
  fun here => oneLine (starts_crlf some_ here).isInfix

theorem joined_clear {lines : List Bytes} (written : Written lines) (some_ : lines ≠ []) :
    ¬ headerEnd <:+: crlf.intercalate lines ++ headerEnd.dropLast := by
  change ¬ headerEnd <:+: crlf.intercalate lines ++ (crlf ++ [ascii '\r'])
  induction lines with
  | nil => exact absurd rfl some_
  | cons line rest ih =>
    intro occurs
    have oneLine := written.oneLine line (by simp)
    cases rest with
    | nil =>
      rw [List.intercalate_singleton, ← List.append_assoc] at occurs
      rcases headerEnd_cases oneLine occurs with here | later
      · exact absurd here (by decide)
      · exact absurd later (by decide)
    | cons next rest =>
      have shape : crlf.intercalate (line :: next :: rest) ++ (crlf ++ [ascii '\r']) =
          line ++ crlf ++ (crlf.intercalate (next :: rest) ++ (crlf ++ [ascii '\r'])) := by
        rw [List.intercalate_cons_cons]
        simp
      rw [shape] at occurs
      rcases headerEnd_cases oneLine occurs with here | later
      · refine absurd here ?_
        have nextSome := written.some_ next (by simp)
        have nextLine := written.oneLine next (by simp)
        cases rest with
        | nil =>
          rw [List.intercalate_singleton]
          exact not_crlf_prefix nextSome nextLine
        | cons third rest =>
          rw [List.intercalate_cons_cons, List.append_assoc, List.append_assoc]
          exact not_crlf_prefix nextSome nextLine
      · exact ih written.tail (by simp) later

theorem block_split {lines : List Bytes} (written : Written lines) (some_ : lines ≠ [])
    (body : Bytes) :
    (crlf.intercalate lines ++ headerEnd ++ body).dropInfix? headerEnd =
      some (crlf.intercalate lines, body) :=
  Search.dropInfix?_append (joined_clear written some_) body

end Blocks

def ReadsLines (request : Bytes) (lines : List Bytes) : Prop :=
  ∃ head, request.dropInfix? headerEnd = some (head, []) ∧ linesOf head = lines

section Request

variable (host : Bytes) (port : UInt16) (path key : Bytes) (secure : Bool)

def requestLine : Bytes := bytes "GET " ++ (if path.isEmpty then bytes "/" else path) ++ bytes " HTTP/1.1"

def hostLine : Bytes := bytes "Host: " ++ (host ++ hostPort port secure)

def keyLine : Bytes := bytes "Sec-WebSocket-Key: " ++ key

def requestLines : List Bytes :=
  [requestLine path, hostLine host port secure, bytes "Upgrade: websocket",
    bytes "Connection: Upgrade", keyLine key, bytes "Sec-WebSocket-Version: 13",
    bytes "User-Agent: crossbook/0.2"]

theorem makeHandshakeRequest_eq : makeHandshakeRequest host port path key secure =
    crlf.intercalate (requestLines host port path key secure) ++ headerEnd := by
  have version : bytes " HTTP/1.1\r\n" = bytes " HTTP/1.1" ++ crlf := by decide +kernel
  have upgrade : bytes "Upgrade: websocket\r\n" = bytes "Upgrade: websocket" ++ crlf := by
    decide +kernel
  have connection : bytes "Connection: Upgrade\r\n" = bytes "Connection: Upgrade" ++ crlf := by
    decide +kernel
  have thirteen : bytes "Sec-WebSocket-Version: 13\r\n" =
      bytes "Sec-WebSocket-Version: 13" ++ crlf := by decide +kernel
  have agent : bytes "User-Agent: crossbook/0.2\r\n" =
      bytes "User-Agent: crossbook/0.2" ++ crlf := by decide +kernel
  have ended : bytes "\r\n" = crlf := by decide
  rw [makeHandshakeRequest, version, upgrade, connection, thirteen, agent, ended]
  simp only [requestLines, requestLine, hostLine, keyLine, headerEnd, List.intercalate_cons_cons,
    List.intercalate_singleton, List.append_assoc]

theorem crlf_between {front middle back : Bytes} (first : ascii '\r' ∉ front)
    (last : ascii '\n' ∉ back) (occurs : crlf <:+: front ++ (middle ++ back)) : crlf <:+: middle := by
  have behind : [ascii '\r'] ++ [ascii '\n'] <:+: middle ++ back :=
    Search.infix_of_absent first occurs
  exact Search.infix_of_absent_last last behind

theorem hostPort_cases : hostPort port secure = [] ∨
    hostPort port secure = bytes ":" ++ Decimal.print port.toNat :=
  (ite_eq_or_eq _ _ _).symm

theorem hostPort_newline : ascii '\n' ∉ hostPort port secure := by
  rcases hostPort_cases port secure with none | named
  · rw [none]
    exact List.not_mem_nil
  · rw [named, List.mem_append, not_or]
    refine ⟨by decide, fun digit => ?_⟩
    exact absurd ((Decimal.print_number port.toNat).digits _ digit) (by decide)

theorem requestLine_oneLine : ¬ crlf <:+: requestLine path ↔ ¬ crlf <:+: path := by
  unfold requestLine
  by_cases empty : path.isEmpty = true
  · rw [if_pos empty, List.isEmpty_iff.mp empty]
    decide +kernel
  · rw [if_neg empty, List.append_assoc, not_iff_not]
    refine ⟨crlf_between (by decide) (by decide +kernel), fun inside => ?_⟩
    exact inside.trans ((List.prefix_append _ _).isInfix.trans (List.suffix_append _ _).isInfix)

theorem hostLine_oneLine : ¬ crlf <:+: hostLine host port secure ↔ ¬ crlf <:+: host := by
  rw [hostLine, not_iff_not]
  refine ⟨crlf_between (by decide +kernel) (hostPort_newline port secure), fun inside => ?_⟩
  exact inside.trans ((List.prefix_append _ _).isInfix.trans (List.suffix_append _ _).isInfix)

theorem keyLine_oneLine : ¬ crlf <:+: keyLine key ↔ ¬ crlf <:+: key := by
  rw [keyLine, not_iff_not]
  refine ⟨fun inside => ?_, fun inside => inside.trans (List.suffix_append _ _).isInfix⟩
  rw [← List.append_nil key] at inside
  exact crlf_between (by decide +kernel) List.not_mem_nil inside

structure OneLine : Prop where
  host : ¬ crlf <:+: host
  path : ¬ crlf <:+: path
  key : ¬ crlf <:+: key

theorem requestLines_some : ∀ line ∈ requestLines host port path key secure, line ≠ [] := by
  intro line member
  simp only [requestLines, List.mem_cons, List.not_mem_nil, or_false] at member
  rcases member with rfl | rfl | rfl | rfl | rfl | rfl | rfl <;>
    simp [requestLine, hostLine, keyLine, bytes]

theorem requestLines_written : Written (requestLines host port path key secure) ↔
    OneLine host path key := by
  constructor
  · intro written
    exact ⟨(hostLine_oneLine host port secure).mp (written.oneLine _ (by simp [requestLines])),
      (requestLine_oneLine path).mp (written.oneLine _ (by simp [requestLines])),
      (keyLine_oneLine key).mp (written.oneLine _ (by simp [requestLines]))⟩
  · intro plain
    refine ⟨requestLines_some host port path key secure, ?_⟩
    intro line member
    simp only [requestLines, List.mem_cons, List.not_mem_nil, or_false] at member
    rcases member with rfl | rfl | rfl | rfl | rfl | rfl | rfl
    · exact (requestLine_oneLine path).mpr plain.path
    · exact (hostLine_oneLine host port secure).mpr plain.host
    · decide +kernel
    · decide +kernel
    · exact (keyLine_oneLine key).mpr plain.key
    · decide +kernel
    · decide +kernel

end Request

section Fields

theorem trim_blank (value : Bytes) : trim (ascii ' ' :: value) = trim value := by
  rw [trim, List.dropWhile_cons_of_pos (by decide)]
  rfl

structure Bare (text : Bytes) : Prop where
  front : Spans.Stops isBlank text
  back : ∀ c ∈ text.getLast?, isTrailing c = false

theorem trim_bare {text : Bytes} (bare : Bare text) : trim text = text := by
  rw [trim, Spans.dropWhile_of_stops bare.front]
  cases text using List.reverseRecOn with
  | nil => rfl
  | append_singleton front c =>
    have last := bare.back c (by simp)
    rw [List.rdropWhile_concat_neg _ _ _ (by simp [last])]

theorem headerAt_named {field value : Bytes} (plain : ascii ':' ∉ field) (name : Bytes) :
    headerAt (field ++ ascii ':' :: value) name =
      if iequals (trim field) name then some (trim value) else none := by
  rw [headerAt, Spans.splitFirst_append plain]

variable (host : Bytes) (port : UInt16) (path key : Bytes) (secure : Bool)

theorem headerAt_host (name : Bytes) : headerAt (hostLine host port secure) name =
    if iequals (bytes "Host") name then some (trim (host ++ hostPort port secure)) else none := by
  have shape : hostLine host port secure =
      bytes "Host" ++ ascii ':' :: ascii ' ' :: (host ++ hostPort port secure) := by
    have text : bytes "Host: " = bytes "Host" ++ [ascii ':', ascii ' '] := by decide +kernel
    rw [hostLine, text]
    simp
  have bare : trim (bytes "Host") = bytes "Host" := by decide +kernel
  rw [shape, headerAt_named (by decide +kernel), trim_blank, bare]

theorem headerAt_key (name : Bytes) : headerAt (keyLine key) name =
    if iequals (bytes "Sec-WebSocket-Key") name then some (trim key) else none := by
  have shape : keyLine key = bytes "Sec-WebSocket-Key" ++ ascii ':' :: ascii ' ' :: key := by
    have text : bytes "Sec-WebSocket-Key: " =
        bytes "Sec-WebSocket-Key" ++ [ascii ':', ascii ' '] := by decide +kernel
    rw [keyLine, text]
    simp
  have bare : trim (bytes "Sec-WebSocket-Key") = bytes "Sec-WebSocket-Key" := by decide +kernel
  rw [shape, headerAt_named (by decide +kernel), trim_blank, bare]

structure Asks (lines : List Bytes) (host key : Bytes) : Prop where
  host : header lines "host" = some host
  upgrade : header lines "upgrade" = some (bytes "websocket")
  connection : header lines "connection" = some (bytes "Upgrade")
  key : header lines "sec-websocket-key" = some key
  version : header lines "sec-websocket-version" = some (bytes "13")

theorem requestLines_asks : Asks (requestLines host port path key secure).tail
    (trim (host ++ hostPort port secure)) (trim key) := by
  have others (name : String) (noHost : iequals (bytes "Host") (bytes name) = false)
      (noKey : iequals (bytes "Sec-WebSocket-Key") (bytes name) = false) :
      header (requestLines host port path key secure).tail name =
        header [bytes "Upgrade: websocket", bytes "Connection: Upgrade",
          bytes "Sec-WebSocket-Version: 13", bytes "User-Agent: crossbook/0.2"] name := by
    simp only [header, requestLines, List.tail_cons, List.findSome?_cons, headerAt_host,
      headerAt_key, noHost, noKey, Bool.false_eq_true, if_false]
  constructor
  · have here : iequals (bytes "Host") (bytes "host") = true := by decide +kernel
    simp only [header, requestLines, List.tail_cons, List.findSome?_cons, headerAt_host, here,
      if_true]
  · rw [others _ (by decide +kernel) (by decide +kernel)]
    decide +kernel
  · rw [others _ (by decide +kernel) (by decide +kernel)]
    decide +kernel
  · have here : iequals (bytes "Sec-WebSocket-Key") (bytes "sec-websocket-key") = true := by
      decide +kernel
    have noHost : iequals (bytes "Host") (bytes "sec-websocket-key") = false := by decide +kernel
    have noUpgrade : headerAt (bytes "Upgrade: websocket") (bytes "sec-websocket-key") = none := by
      decide +kernel
    have noConnection :
        headerAt (bytes "Connection: Upgrade") (bytes "sec-websocket-key") = none := by
      decide +kernel
    simp only [header, requestLines, List.tail_cons, List.findSome?_cons, headerAt_host,
      headerAt_key, here, noHost, noUpgrade, noConnection, Bool.false_eq_true, if_false, if_true]
  · rw [others _ (by decide +kernel) (by decide +kernel)]
    decide +kernel

end Fields

theorem reads_iff (host : Bytes) (port : UInt16) (path key : Bytes) (secure : Bool) :
    ReadsLines (makeHandshakeRequest host port path key secure)
      (requestLines host port path key secure) ↔ OneLine host path key := by
  rw [← requestLines_written host port path key secure, makeHandshakeRequest_eq]
  constructor
  · rintro ⟨head, -, same⟩
    refine ⟨requestLines_some host port path key secure, ?_⟩
    rw [← same]
    exact linesOf_oneLine head
  · intro written
    refine ⟨_, ?_, linesOf_joined written⟩
    have split := block_split written (by simp [requestLines]) []
    rwa [List.append_nil] at split

/-- A server reads the lines that were meant exactly when none of the parts brings a line end of its
own, and finds the host and the key in them. -/
theorem handshake_request_lines (host : Bytes) (port : UInt16) (path key : Bytes) (secure : Bool) :
    (ReadsLines (makeHandshakeRequest host port path key secure)
        (requestLines host port path key secure) ↔ OneLine host path key) ∧
      Asks (requestLines host port path key secure).tail (trim (host ++ hostPort port secure))
        (trim key) :=
  ⟨reads_iff host port path key secure, requestLines_asks host port path key secure⟩

section Accept

/-- The proof that a server has read the key, as the protocol specifies it. -/
def acceptFor (key : Bytes) : Bytes := Base64.encode (Sha1.digest (key ++ kWebSocketGuid))

theorem websocketAcceptFor_eq {key : Bytes} (short : key.length < 2 ^ 60) :
    websocketAcceptFor key = acceptFor key := by
  have guid : kWebSocketGuid.length = 36 := by decide +kernel
  rw [websocketAcceptFor, acceptFor, base64Encode_eq, sha1_eq]
  rw [List.length_append, guid]
  omega

end Accept

end Net

end Crossbook
