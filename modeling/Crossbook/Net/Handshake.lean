import Crossbook.Lib.Decimal
import Crossbook.Net.HttpResponse

set_option autoImplicit false

namespace Crossbook

namespace Net

inductive HandshakeStatus where
  | ok
  | incomplete
  | notSwitchingProtocols
  | notUpgraded
  | badAccept
  deriving DecidableEq, Repr

def HandshakeStatus.toString : HandshakeStatus → String
  | ok => "ok"
  | incomplete => "incomplete"
  | notSwitchingProtocols => "not_switching_protocols"
  | notUpgraded => "not_upgraded"
  | badAccept => "bad_accept"

section Detail

def iequals (a b : Bytes) : Bool := a.length == b.length && a.map lower == b.map lower

def icontains (haystack needle : Bytes) : Bool :=
  if needle.isEmpty || haystack.length < needle.length then needle.isEmpty
  else (List.range (haystack.length - needle.length + 1)).any fun i =>
    iequals ((haystack.drop i).take needle.length) needle

def isTrailing (c : UInt8) : Bool := isBlank c || c = ascii '\r'

def trim (s : Bytes) : Bytes := (s.dropWhile isBlank).rdropWhile isTrailing

def headerAt (line name : Bytes) : Option Bytes :=
  match Spans.splitFirst (ascii ':') line with
  | none => none
  | some (field, value) => if iequals (trim field) name then some (trim value) else none

def findHeader (headers name : Bytes) : Bytes :=
  if headers.isEmpty then []
  else
    match _found : headers.dropInfix? crlf with
    | none => (headerAt headers name).getD []
    | some (line, rest) =>
      match headerAt line name with
      | some value => value
      | none => findHeader rest name
termination_by headers.length
decreasing_by
  have whole := Search.eq_of_dropInfix? _found
  rw [whole, List.length_append, List.length_append, crlf, List.length_cons]
  omega

end Detail

structure HandshakeResponse where
  headerBytes : Nat
  statusCode : Int32
  deriving DecidableEq, Repr

-- An `int` that would leave its range has no result.
def pushDigit (code : Int32) (c : UInt8) : Option Int32 :=
  let value := code.toInt * 10 + (c - ascii '0').toNat
  if value < 2 ^ 31 then some (Int32.ofInt value) else none

inductive StatusScan where
  | code (value : Int32)
  | notDigits
  | overflow
  deriving DecidableEq, Repr

def scanStatus (code : Int32) : Bytes → StatusScan
  | [] => .code code
  | c :: rest =>
    if c = ascii ' ' then .code code
    else if c < ascii '0' ∨ ascii '9' < c then .notDigits
    else
      match pushDigit code c with
      | none => .overflow
      | some next => scanStatus next rest

def judgeHeaders (headers expectedAccept : Bytes) : HandshakeStatus :=
  if iequals (findHeader headers (bytes "upgrade")) (bytes "websocket") = false then .notUpgraded
  -- Any occurrence will do, in the middle of a token as well.
  else if icontains (findHeader headers (bytes "connection")) (bytes "upgrade") = false then
    .notUpgraded
  else if findHeader headers (bytes "sec-websocket-accept") ≠ expectedAccept then .badAccept
  else .ok

/-- The verdict on a status line and the headers read behind it; none when the code overflows. -/
def judgeResponse (statusLine headers expectedAccept : Bytes) (out : HandshakeResponse) :
    Option (HandshakeStatus × HandshakeResponse) :=
  match Spans.splitFirst (ascii ' ') statusLine with
  | none => some (.notSwitchingProtocols, out)
  | some (_, token) =>
    match scanStatus 0 token with
    | .overflow => none
    | .notDigits => some (.notSwitchingProtocols, out)
    | .code code =>
      let out := { out with statusCode := code }
      if code ≠ 101 then some (.notSwitchingProtocols, out)
      else some (judgeHeaders headers expectedAccept, out)

def parseHandshakeResponse (response expectedAccept : Bytes) (out : HandshakeResponse) :
    Option (HandshakeStatus × HandshakeResponse) :=
  match response.dropInfix? headerEnd with
  | none => some (.incomplete, out)
  | some (head, _) =>
    let (statusLine, afterLine) := (response.dropInfix? crlf).getD (response, [])
    -- The count wraps around when the first line is also the last.
    let count := UInt64.ofNat head.length - UInt64.ofNat statusLine.length - 2
    judgeResponse statusLine (afterLine.take count.toNat) expectedAccept
      { out with headerBytes := head.length + 4 }

end Net

end Crossbook
