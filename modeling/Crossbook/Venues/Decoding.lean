import Crossbook.Json.Walk
import Crossbook.Venue

set_option autoImplicit false

namespace Crossbook

namespace Venues

-- The first occurrence of a key wins.
def capture (slot value : JsonValue) : JsonValue := if slot.ok then slot else value

def captureAt (key : String) (slot : JsonValue) (member : Bytes × JsonValue) : JsonValue :=
  if member.1 = bytes key then capture slot member.2 else slot

def fail (message : DecodedMessage) (error : DecodeError) : DecodedMessage :=
  { message with error := error, levels := [] }

def failDecoded (message : DecodedMessage) : DecodedMessage :=
  fail message (if message.ok then .malformed else message.error)

/-- The message a walk builds, and whether it has failed; the walk goes on while it has not. -/
abbrev Progress := DecodedMessage × Bool

def failed (message : DecodedMessage) : Progress × Bool := ((message, true), false)

def refuse (message : DecodedMessage) (error : DecodeError) (token : Bytes) : Progress × Bool :=
  failed { message with error := error, badToken := token }

def parseFailure (error : ParseError) : DecodeError :=
  if error = .precisionLoss then .precisionLoss else .malformed

def pushLevel (spec : InstrumentSpec) (side : Side) (message : DecodedMessage)
    (priceToken qtyToken : Bytes) : Progress × Bool :=
  let price := parseFixed priceToken spec.priceScale
  let qty := parseFixed qtyToken spec.qtyScale
  if price.ok = false then refuse message (parseFailure price.error) priceToken
  else if qty.ok = false then refuse message (parseFailure qty.error) qtyToken
  -- The checksum is computed from the spelling, so a mantissa must give its token back.
  else if isCanonicalMantissa priceToken spec.priceScale price.mantissa = false then
    refuse message .nonCanonical priceToken
  else if isCanonicalMantissa qtyToken spec.qtyScale qty.mantissa = false then
    refuse message .nonCanonical qtyToken
  else
    (({ message with
        levels := message.levels ++ [⟨side, ⟨price.mantissa⟩, ⟨qty.mantissa⟩⟩] }, false), true)

/-- One side of a message, level by level; a side that is absent is empty. -/
def walkSide (decodeLevel : Progress → JsonValue → Progress × Bool) (message : DecodedMessage)
    (array : JsonValue) : DecodedMessage × Bool :=
  if array.ok = false then (message, true)
  else if array.type ≠ .array then (message, false)
  else
    let walked := Json.forEach array.raw decodeLevel (message, false)
    (walked.1.1, walked.2 && !walked.1.2)

-- ASCII only, whatever the locale.
def toLower (c : UInt8) : UInt8 :=
  if ascii 'A' ≤ c ∧ c ≤ ascii 'Z' then c - ascii 'A' + ascii 'a' else c

def equalsIgnoreCase (a b : Bytes) : Bool := a.map toLower == b.map toLower

end Venues

end Crossbook
