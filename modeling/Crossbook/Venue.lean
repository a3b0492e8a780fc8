import Crossbook.Sequence.Tracker

set_option autoImplicit false

namespace Crossbook

inductive MessageKind where
  | ignored
  | snapshot
  | update
  | venueError
  deriving DecidableEq, Repr

inductive DecodeError where
  | ok
  | malformed
  | precisionLoss
  | badSequence
  | tooManyLevels
  | nonCanonical
  | badChecksum
  | badTimestamp
  deriving DecidableEq, Repr

def DecodeError.toText : DecodeError → Bytes
  | .ok => bytes "ok"
  | .malformed => bytes "malformed"
  | .precisionLoss => bytes "precision_loss"
  | .badSequence => bytes "bad_sequence"
  | .tooManyLevels => bytes "too_many_levels"
  | .nonCanonical => bytes "non_canonical"
  | .badChecksum => bytes "bad_checksum"
  | .badTimestamp => bytes "bad_timestamp"

structure LevelUpdate where
  side : Side
  price : Price
  qty : Qty
  deriving DecidableEq, Repr

structure DecodedMessage where
  kind : MessageKind
  error : DecodeError
  symbol : Bytes
  ts : Timestamp
  ids : UpdateIds
  hasIds : Bool
  checksum : UInt32
  hasChecksum : Bool
  levels : List LevelUpdate
  badToken : Bytes
  deriving DecidableEq, Repr

namespace DecodedMessage

def ok (msg : DecodedMessage) : Bool := msg.error == .ok

def blank : DecodedMessage where
  kind := .ignored
  error := .ok
  symbol := []
  ts := 0
  ids := ⟨0, 0, 0⟩
  hasIds := false
  checksum := 0
  hasChecksum := false
  levels := []
  badToken := []

def reset (msg : DecodedMessage) : DecodedMessage :=
  { msg with
    kind := .ignored
    error := .ok
    symbol := []
    ts := 0
    ids := ⟨0, 0, 0⟩
    hasIds := false
    checksum := 0
    hasChecksum := false
    badToken := []
    levels := [] }

def tokenOr (msg : DecodedMessage) (fallback : Bytes) : Bytes :=
  if msg.badToken.isEmpty then fallback else msg.badToken

end DecodedMessage

def kMaxLevelsPerMessage : Nat := 10000

structure Decoder where
  spec : InstrumentSpec
  decode : Bytes → DecodedMessage

end Crossbook
