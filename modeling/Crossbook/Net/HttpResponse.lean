import Crossbook.Net.ChunkedCoding

set_option autoImplicit false

namespace Crossbook

namespace Net

def lower (c : UInt8) : UInt8 :=
  if ascii 'A' ≤ c ∧ c ≤ ascii 'Z' then c - ascii 'A' + ascii 'a' else c

def isBlank (c : UInt8) : Bool := c = ascii ' ' || c = ascii '\t'

def headerValue (line name : Bytes) : Option Bytes :=
  match Spans.splitFirst (ascii ':') line with
  | none => none
  | some (field, value) =>
    if field.length = name.length ∧ field.map lower = name.map lower then
      some (value.dropWhile isBlank)
    else none

def httpHeader (headers name : Bytes) : Bytes :=
  if headers.isEmpty then []
  else
    match _found : headers.dropInfix? crlf with
    | none => (headerValue headers name).getD []
    | some (line, rest) =>
      match headerValue line name with
      | some value => value
      | none => httpHeader rest name
termination_by headers.length
decreasing_by
  have whole := Search.eq_of_dropInfix? _found
  rw [whole, List.length_append, List.length_append, crlf, List.length_cons]
  omega

structure HttpResult where
  succeeded : Bool
  body : Bytes
  error : Bytes
  deriving DecidableEq, Repr

def HttpResult.failed (body error : Bytes) : HttpResult := ⟨false, body, error⟩

def headerEnd : Bytes := crlf ++ crlf

/-- What `https_get` makes of a response once the server has closed the connection. -/
def readResponse (fuel : Nat) (response : Bytes) : Option HttpResult :=
  match response.dropInfix? headerEnd with
  | none => some (.failed [] (bytes "http response had no header terminator"))
  | some (head, rawBody) =>
    match Spans.splitFirst (ascii ' ') head with
    | none => some (.failed [] (bytes "http response had no status line"))
    | some (_, status) =>
      let code := status.take 3
      if code ≠ bytes "200" then some (.failed [] (bytes "http status " ++ code))
      else if bytes "chunked" <:+: httpHeader head (bytes "transfer-encoding") then
        (decodeChunked fuel rawBody []).map fun (whole, body) =>
          if whole then ⟨true, body, []⟩ else .failed body (bytes "malformed chunked body")
      else some ⟨true, rawBody, []⟩

structure ChunkedHead (head : Bytes) : Prop where
  succeeded : ∃ version status, Spans.splitFirst (ascii ' ') head = some (version, status) ∧
    status.take 3 = bytes "200"
  coded : bytes "chunked" <:+: httpHeader head (bytes "transfer-encoding")

theorem readResponse_chunked {fuel : Nat} {response head rawBody : Bytes}
    (split : response.dropInfix? headerEnd = some (head, rawBody)) (chunked : ChunkedHead head) :
    readResponse fuel response = (decodeChunked fuel rawBody []).map fun (whole, body) =>
      if whole then ⟨true, body, []⟩ else .failed body (bytes "malformed chunked body") := by
  obtain ⟨version, status, found, code⟩ := chunked.succeeded
  rw [readResponse]
  simp only [split, found, code, ne_eq, not_true_eq_false, if_false, if_pos chunked.coded]

/-- Decoding undoes the chunked coding, and no cut of one is taken for a whole body. -/
theorem chunked_round_trip (coding : ChunkedCoding) (trailer out : Bytes)
    (addressable : (coding.bytes ++ trailer).length < 2 ^ 63) :
    (∃ fuel, decodeChunked fuel (coding.bytes ++ trailer) out =
      some (true, out ++ coding.payload)) ∧
    ∀ cut, cut <+: coding.bytes → cut ≠ coding.bytes →
      (∃ fuel acc, decodeChunked fuel cut out = some (false, acc)) ∧
      ∀ response head, response.dropInfix? headerEnd = some (head, cut) → ChunkedHead head →
        ∃ fuel body, readResponse fuel response =
          some (.failed body (bytes "malformed chunked body")) := by
  constructor
  · have shape : coding.bytes ++ trailer =
        [] ++ (coding.chunks.flatMap Chunk.bytes ++ (coding.last.bytes ++ crlf ++ trailer)) := by
      simp only [ChunkedCoding.bytes, List.nil_append, List.append_assoc]
    rw [shape] at addressable ⊢
    exact whole_returns coding.last coding.terminal trailer coding.chunks [] out addressable
  · intro cut isCut proper
    have inside : (coding.bytes).length < 2 ^ 63 := by
      rw [List.length_append] at addressable
      omega
    have short (start : Bytes) :
        ∃ fuel acc, decodeChunked fuel cut start = some (false, acc) := by
      have cutFits : ([] ++ cut : Bytes).length < 2 ^ 63 := lt_of_le_of_lt isCut.length_le inside
      obtain ⟨acc, fuel, runs⟩ := cut_returns coding.last coding.chunks [] start cut cutFits
        (fun chunk member => lt_of_le_of_lt (coding.payload_le member) inside) isCut proper
      exact ⟨fuel, acc, runs⟩
    refine ⟨short out, ?_⟩
    intro response head split chunked
    obtain ⟨fuel, body, decoded⟩ := short []
    refine ⟨fuel, body, ?_⟩
    rw [readResponse_chunked split chunked, decoded]
    rfl

def framedChunks : ChunkedCoding where
  chunks :=
    [⟨⟨bytes "005", some (bytes "n=v"), by decide, by decide +kernel, by decide⟩,
        bytes "0\r\n\r\n", by decide, by decide +kernel⟩,
      ⟨⟨bytes "1", none, by decide, by decide +kernel, by decide⟩,
        bytes ";", by decide, by decide +kernel⟩]
  last := ⟨bytes "00", none, by decide, by decide +kernel, by decide⟩
  terminal := by decide +kernel

theorem chunked_round_trip_framed :
    (∃ fuel, decodeChunked fuel (framedChunks.bytes ++ crlf) [] =
      some (true, [] ++ framedChunks.payload)) ∧
    ∀ cut, cut <+: framedChunks.bytes → cut ≠ framedChunks.bytes →
      (∃ fuel acc, decodeChunked fuel cut [] = some (false, acc)) ∧
      ∀ response head, response.dropInfix? headerEnd = some (head, cut) → ChunkedHead head →
        ∃ fuel body, readResponse fuel response =
          some (.failed body (bytes "malformed chunked body")) :=
  chunked_round_trip framedChunks crlf [] (by decide +kernel)

end Net

end Crossbook
