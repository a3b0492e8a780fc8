import Crossbook.Types

set_option autoImplicit false

namespace Crossbook

inductive DivergenceKind where
  | checksumMismatch
  | sequenceGap
  | precisionLoss
  | malformedMessage
  | staleFeed
  | venueError
  deriving DecidableEq, Repr

structure Divergence where
  kind : DivergenceKind
  venue : Bytes
  symbol : Bytes
  ts : Timestamp
  sequence : SequenceId
  expected : UInt64
  actual : UInt64
  detail : Bytes
  deriving DecidableEq, Repr

structure DivergenceLog where
  capacity : Nat
  entries : List Divergence
  counts : DivergenceKind → Nat
  verified : Nat
  totalRecorded : Nat
  dropped : Nat

namespace DivergenceLog

def kDefaultCapacity : Nat := 4096

def new (capacity : Nat) : DivergenceLog where
  capacity := capacity
  entries := []
  counts := fun _ => 0
  verified := 0
  totalRecorded := 0
  dropped := 0

def record (log : DivergenceLog) (d : Divergence) : DivergenceLog :=
  let counted :=
    { log with
      counts := Function.update log.counts d.kind (log.counts d.kind + 1)
      totalRecorded := log.totalRecorded + 1 }
  if log.entries.length < log.capacity then { counted with entries := log.entries ++ [d] }
  else { counted with dropped := log.dropped + 1 }

def recordVerified (log : DivergenceLog) : DivergenceLog :=
  { log with verified := log.verified + 1 }

end DivergenceLog

end Crossbook
