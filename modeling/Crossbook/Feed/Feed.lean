import Crossbook.Checksum
import Crossbook.Divergence
import Crossbook.Venue

set_option autoImplicit false

namespace Crossbook

inductive FeedStatus where
  | applied
  | ignored
  | needsSnapshot
  | rejected
  deriving DecidableEq, Repr

structure FeedStats where
  frames : Nat
  applied : Nat
  ignored : Nat
  rejected : Nat
  resyncsRequested : Nat
  snapshotsApplied : Nat
  checksumsVerified : Nat
  checksumMismatches : Nat
  venueErrors : Nat
  levelsTrimmed : Nat
  levelsRejected : Nat
  deriving DecidableEq, Repr

/-- One instrument on one venue, over any lawful side container. -/
structure Feed (S : Type) [SideImpl S] where
  venue : Bytes
  decoder : Decoder
  book : BasicL2Book S
  tracker : SequenceTracker
  depth : Nat
  log : DivergenceLog
  stats : FeedStats
  lastTs : Timestamp
  synced : Bool

namespace Feed

variable {S : Type} [SideImpl S] [LawfulSideImpl S]

def new (venue : Bytes) (decoder : Decoder) (policy : SequencePolicy) (depth : Nat) : Feed S where
  venue := venue
  decoder := decoder
  book := BasicL2Book.new decoder.spec
  tracker := SequenceTracker.new policy
  depth := depth
  log := DivergenceLog.new DivergenceLog.kDefaultCapacity
  stats := ⟨0, 0, 0, 0, 0, 0, 0, 0, 0, 0, 0⟩
  lastTs := 0
  synced := false

def record (feed : Feed S) (d : Divergence) : Feed S := { feed with log := feed.log.record d }

def countRejected (feed : Feed S) : Feed S :=
  { feed with stats := { feed.stats with rejected := feed.stats.rejected + 1 } }

def countIgnored (feed : Feed S) : Feed S :=
  { feed with stats := { feed.stats with ignored := feed.stats.ignored + 1 } }

def requestResync (feed : Feed S) : Feed S × FeedStatus :=
  ({ feed with
      synced := false
      tracker := feed.tracker.invalidate
      stats := { feed.stats with resyncsRequested := feed.stats.resyncsRequested + 1 } },
    .needsSnapshot)

def recordRejectedLevel (feed : Feed S) (msg : DecodedMessage) (lvl : LevelUpdate) : Feed S :=
  let counted :=
    { feed with stats := { feed.stats with levelsRejected := feed.stats.levelsRejected + 1 } }
  counted.record
    { kind := .malformedMessage
      venue := feed.venue
      symbol := feed.book.spec.symbol
      ts := msg.ts
      sequence := msg.ids.finalId
      expected := lvl.price.ticks.toUInt64
      actual := lvl.qty.units.toUInt64
      detail := bytes "book refused level" }

def applyLevel (msg : DecodedMessage) (feed : Feed S) (lvl : LevelUpdate) : Feed S :=
  let applied := feed.book.apply lvl.side lvl.price lvl.qty
  let stored := { feed with book := applied.1 }
  if applied.2 then stored else stored.recordRejectedLevel msg lvl

def applyLevels (feed : Feed S) (msg : DecodedMessage) : Feed S :=
  msg.levels.foldl (applyLevel msg) feed

def trimBook (feed : Feed S) : Feed S :=
  let trimmed := feed.book.trim feed.depth
  { feed with
    book := trimmed.1
    stats := { feed.stats with levelsTrimmed := feed.stats.levelsTrimmed + trimmed.2 } }

def stamp (feed : Feed S) (ts : Timestamp) : Feed S :=
  { feed with book := feed.book.setLastUpdate ts, lastTs := ts }

def verifyChecksum (feed : Feed S) (msg : DecodedMessage) : Feed S × Bool :=
  let counted :=
    { feed with
      stats := { feed.stats with checksumsVerified := feed.stats.checksumsVerified + 1 } }
  let localSum := krakenChecksum feed.book
  if localSum = msg.checksum then ({ counted with log := counted.log.recordVerified }, true)
  else
    let mismatched :=
      { counted with
        stats := { counted.stats with checksumMismatches := counted.stats.checksumMismatches + 1 } }
    (mismatched.record
      { kind := .checksumMismatch
        venue := feed.venue
        symbol := msg.symbol
        ts := msg.ts
        sequence := msg.ids.finalId
        expected := msg.checksum.toUInt64
        actual := localSum.toUInt64
        detail := krakenChecksumPayload feed.book }, false)

-- The end shared by both application paths: verify what can be verified.
def settle (feed : Feed S) (msg : DecodedMessage) : Feed S × FeedStatus :=
  if msg.hasChecksum then
    let verified := feed.verifyChecksum msg
    if verified.2 then (verified.1, .applied) else verified.1.requestResync
  else (feed, .applied)

def anchor (feed : Feed S) (msg : DecodedMessage) : Feed S :=
  if msg.hasIds then { feed with tracker := feed.tracker.onSnapshot msg.ids.finalId } else feed

def countSnapshot (feed : Feed S) : Feed S :=
  { feed with
    synced := true
    stats :=
      { feed.stats with
        snapshotsApplied := feed.stats.snapshotsApplied + 1
        applied := feed.stats.applied + 1 } }

def countApplied (feed : Feed S) : Feed S :=
  { feed with stats := { feed.stats with applied := feed.stats.applied + 1 } }

def applySnapshotMessage (feed : Feed S) (msg : DecodedMessage) : Feed S × FeedStatus :=
  if msg.ok = false then
    (feed.countRejected.record
      { kind := .malformedMessage
        venue := feed.venue
        symbol := feed.book.spec.symbol
        ts := msg.ts
        sequence := msg.ids.finalId
        expected := 0
        actual := 0
        detail := msg.tokenOr msg.error.toText }, .rejected)
  else
    let cleared := { feed with book := feed.book.clear }
    let stamped := (cleared.applyLevels msg).trimBook.stamp msg.ts
    -- In sync before the checksum is compared: `settle` takes it back where they differ.
    (stamped.anchor msg).countSnapshot.settle msg

def applyContinuous (feed : Feed S) (msg : DecodedMessage) : Feed S × FeedStatus :=
  ((feed.applyLevels msg).trimBook.stamp msg.ts).countApplied.settle msg

def track (feed : Feed S) (tracker : SequenceTracker) : Feed S := { feed with tracker := tracker }

def applyUpdateMessage (feed : Feed S) (msg : DecodedMessage) : Feed S × FeedStatus :=
  -- Not even the tracker sees an update while the book is lost.
  if feed.synced = false then (feed, .needsSnapshot)
  else if msg.hasIds then
    let answered := feed.tracker.onUpdate msg.ids
    let tracked := feed.track answered.1
    match answered.2 with
    | .discardStale => (tracked.countIgnored, .ignored)
    | .resyncRequired =>
      (tracked.record
        { kind := .sequenceGap
          venue := feed.venue
          symbol := msg.symbol
          ts := msg.ts
          sequence := msg.ids.finalId
          expected := tracked.tracker.lastFinalId
          actual := msg.ids.firstId
          detail := bytes "continuity broken; book must be rebuilt" }).requestResync
    | .apply => tracked.applyContinuous msg
  else feed.applyContinuous msg

def applySnapshot (feed : Feed S) (msg : DecodedMessage) : Feed S × FeedStatus :=
  feed.applySnapshotMessage msg

def handleMessage (feed : Feed S) (msg : DecodedMessage) : Feed S × FeedStatus :=
  if msg.ok = false then
    -- Two of the decoder's refusals are on record as a loss of precision.
    let spelling := msg.error == .precisionLoss || msg.error == .nonCanonical
    (feed.countRejected.record
      { kind := if spelling then .precisionLoss else .malformedMessage
        venue := feed.venue
        symbol := msg.symbol
        ts := msg.ts
        sequence := msg.ids.finalId
        expected := 0
        actual := 0
        detail := msg.tokenOr msg.error.toText }, .rejected)
  else
    match msg.kind with
    | .ignored => (feed.countIgnored, .ignored)
    | .venueError =>
      let counted :=
        { feed with stats := { feed.stats with venueErrors := feed.stats.venueErrors + 1 } }
      (counted.countRejected.record
        { kind := .venueError
          venue := feed.venue
          symbol := feed.book.spec.symbol
          ts := msg.ts
          sequence := msg.ids.finalId
          expected := 0
          actual := 0
          detail := msg.tokenOr (bytes "venue reported an error") }, .rejected)
    | .snapshot => feed.applySnapshotMessage msg
    | .update => feed.applyUpdateMessage msg

def handle (feed : Feed S) (frame : Bytes) : Feed S × FeedStatus :=
  let framed := { feed with stats := { feed.stats with frames := feed.stats.frames + 1 } }
  framed.handleMessage (framed.decoder.decode frame)

def invalidate (feed : Feed S) (reason : DivergenceKind) : Feed S :=
  -- A book that is lost already is not lost again, but a new one is asked for each time.
  let logged :=
    if feed.synced then
      feed.record
        { kind := reason
          venue := feed.venue
          symbol := feed.book.spec.symbol
          ts := feed.lastTs
          sequence := feed.tracker.lastFinalId
          expected := 0
          actual := 0
          detail := bytes "feed invalidated" }
    else feed
  { logged with
    synced := false
    tracker := logged.tracker.invalidate
    stats := { logged.stats with resyncsRequested := logged.stats.resyncsRequested + 1 } }

def checkStaleness (feed : Feed S) (now maxGap : Timestamp) : Feed S × Bool :=
  -- A feed whose last message had no usable time is never found stale.
  if feed.synced = false ∨ feed.lastTs = 0 ∨ maxGap ≤ 0 then (feed, false)
  else if maxGap < now - feed.lastTs then (feed.invalidate .staleFeed, true)
  else (feed, false)

end Feed

end Crossbook
