import Crossbook.Feed.Steps

set_option autoImplicit false

namespace Crossbook

namespace DivergenceKind

def all : List DivergenceKind :=
  [.checksumMismatch, .sequenceGap, .precisionLoss, .malformedMessage, .staleFeed, .venueError]

end DivergenceKind

namespace DivergenceLog

structure Consistent (log : DivergenceLog) : Prop where
  kinds : log.totalRecorded = (DivergenceKind.all.map log.counts).sum
  stored : log.totalRecorded = log.entries.length + log.dropped
  bounded : log.entries.length ≤ log.capacity

theorem new_consistent (capacity : Nat) : (new capacity).Consistent where
  kinds := rfl
  stored := rfl
  bounded := Nat.zero_le _

@[simp] theorem capacity_record (log : DivergenceLog) (d : Divergence) :
    (log.record d).capacity = log.capacity := by
  unfold record
  split <;> rfl

@[simp] theorem verified_record (log : DivergenceLog) (d : Divergence) :
    (log.record d).verified = log.verified := by
  unfold record
  split <;> rfl

@[simp] theorem counts_record (log : DivergenceLog) (d : Divergence) :
    (log.record d).counts = Function.update log.counts d.kind (log.counts d.kind + 1) := by
  unfold record
  split <;> rfl

@[simp] theorem totalRecorded_record (log : DivergenceLog) (d : Divergence) :
    (log.record d).totalRecorded = log.totalRecorded + 1 := by
  unfold record
  split <;> rfl

theorem sum_counts_update (counts : DivergenceKind → Nat) (kind : DivergenceKind) :
    (DivergenceKind.all.map (Function.update counts kind (counts kind + 1))).sum =
      (DivergenceKind.all.map counts).sum + 1 := by
  cases kind <;> simp [DivergenceKind.all] <;> omega

theorem Consistent.record {log : DivergenceLog} (consistent : log.Consistent) (d : Divergence) :
    (log.record d).Consistent where
  kinds := by simp [sum_counts_update, consistent.kinds]
  stored := by
    have stored := consistent.stored
    rw [totalRecorded_record]
    by_cases room : log.entries.length < log.capacity <;>
      simp only [DivergenceLog.record, room, if_true, if_false, List.length_append,
        List.length_singleton] <;>
      omega
  bounded := by
    have bounded := consistent.bounded
    rw [capacity_record]
    by_cases room : log.entries.length < log.capacity
    · simp only [DivergenceLog.record, room, if_true, List.length_append, List.length_singleton]
      omega
    · simpa only [DivergenceLog.record, room, if_false] using bounded

theorem Consistent.recordVerified {log : DivergenceLog} (consistent : log.Consistent) :
    log.recordVerified.Consistent :=
  ⟨consistent.kinds, consistent.stored, consistent.bounded⟩

end DivergenceLog

variable {S : Type} [SideImpl S]

structure Comparison (S : Type) [SideImpl S] where
  message : DecodedMessage
  book : BasicL2Book S

def Comparison.matched (c : Comparison S) : Bool :=
  decide (krakenChecksum c.book = c.message.checksum)

def comparisonOf (book : BasicL2Book S) (msg : DecodedMessage) : List (Comparison S) :=
  if msg.hasChecksum then [⟨msg, book⟩] else []

namespace FeedCore

variable [LawfulSideImpl S]

def snapshotComparison (c : FeedCore S) (msg : DecodedMessage) : List (Comparison S) :=
  if msg.ok then comparisonOf (c.rebuilt msg) msg else []

def updateComparison (c : FeedCore S) (msg : DecodedMessage) : List (Comparison S) :=
  if c.synced ∧ (msg.hasIds = true → (c.tracker.onUpdate msg.ids).2 = .apply) then
    comparisonOf (c.updated msg) msg
  else []

def handleComparison (c : FeedCore S) (msg : DecodedMessage) : List (Comparison S) :=
  if msg.ok then
    match msg.kind with
    | .ignored => []
    | .venueError => []
    | .snapshot => c.snapshotComparison msg
    | .update => c.updateComparison msg
  else []

def comparison (c : FeedCore S) : FeedCall → List (Comparison S)
  | .handle frame => c.handleComparison (c.decoder.decode frame)
  | .applySnapshot msg => c.snapshotComparison msg
  | .invalidate _ => []
  | .checkStaleness _ _ => []

end FeedCore

namespace Feed

section Compared

variable [LawfulSideImpl S]

def compared : Feed S → List FeedCall → List (Comparison S)
  | _, [] => []
  | feed, call :: rest => feed.core.comparison call ++ compared (feed.call call) rest

end Compared

/-- The counters behind the published match rate, against the comparisons made so far. -/
structure Backed (feed : Feed S) (compared : List (Comparison S)) : Prop where
  log : feed.log.Consistent
  capacity : feed.log.capacity = DivergenceLog.kDefaultCapacity
  counted : feed.stats.checksumsVerified = compared.length
  matched : feed.log.verified = compared.countP Comparison.matched
  mismatched : feed.stats.checksumMismatches = compared.countP (fun c => !c.matched)
  recorded : feed.log.counts .checksumMismatch = feed.stats.checksumMismatches

theorem new_backed [LawfulSideImpl S] (venue : Bytes) (decoder : Decoder) (policy : SequencePolicy)
    (depth : Nat) : (new venue decoder policy depth : Feed S).Backed [] where
  log := DivergenceLog.new_consistent _
  capacity := rfl
  counted := rfl
  matched := rfl
  mismatched := rfl
  recorded := rfl

namespace Backed

variable {feed : Feed S} {compared : List (Comparison S)}

-- Only the log and the two checksum counters matter; every other field may change.
theorem congr (backed : feed.Backed compared) {after : Feed S} (log : after.log = feed.log)
    (verified : after.stats.checksumsVerified = feed.stats.checksumsVerified)
    (mismatches : after.stats.checksumMismatches = feed.stats.checksumMismatches) :
    after.Backed compared where
  log := log ▸ backed.log
  capacity := log ▸ backed.capacity
  counted := verified.trans backed.counted
  matched := log ▸ backed.matched
  mismatched := mismatches.trans backed.mismatched
  recorded := by rw [log, mismatches, backed.recorded]

theorem record (backed : feed.Backed compared) (d : Divergence)
    (other : d.kind ≠ .checksumMismatch) : (feed.record d).Backed compared where
  log := backed.log.record d
  capacity := (feed.log.capacity_record d).trans backed.capacity
  counted := backed.counted
  matched := (feed.log.verified_record d).trans backed.matched
  mismatched := backed.mismatched
  recorded := by
    have kept : (feed.record d).log.counts .checksumMismatch = feed.log.counts .checksumMismatch := by
      simp [Feed.record, Function.update_of_ne (Ne.symm other)]
    rw [kept, backed.recorded]
    rfl

theorem countRejected (backed : feed.Backed compared) : feed.countRejected.Backed compared :=
  backed.congr rfl rfl rfl

theorem countIgnored (backed : feed.Backed compared) : feed.countIgnored.Backed compared :=
  backed.congr rfl rfl rfl

theorem requestResync (backed : feed.Backed compared) : feed.requestResync.1.Backed compared :=
  backed.congr rfl rfl rfl

theorem verifyChecksum (backed : feed.Backed compared) (msg : DecodedMessage) :
    (feed.verifyChecksum msg).1.Backed (compared ++ [⟨msg, feed.book⟩]) := by
  have capacity := backed.capacity
  have counted := backed.counted
  have matched := backed.matched
  have mismatched := backed.mismatched
  have recorded := backed.recorded
  by_cases same : krakenChecksum feed.book = msg.checksum
  · simp only [Feed.verifyChecksum, same, if_true]
    exact
      { log := backed.log.recordVerified
        capacity := capacity
        counted := by simp [counted]
        matched := by simp [DivergenceLog.recordVerified, Comparison.matched, same, matched]
        mismatched := by simp [Comparison.matched, same, mismatched]
        recorded := recorded }
  · simp only [Feed.verifyChecksum, same, if_false]
    exact
      { log := backed.log.record _
        capacity := (feed.log.capacity_record _).trans capacity
        counted := by simp [Feed.record, counted]
        matched := by simp [Feed.record, Comparison.matched, same, matched]
        mismatched := by simp [Feed.record, Comparison.matched, same, mismatched]
        recorded := by simp [Feed.record, recorded] }

theorem settle (backed : feed.Backed compared) (msg : DecodedMessage) :
    (feed.settle msg).1.Backed (compared ++ comparisonOf feed.book msg) := by
  cases carried : msg.hasChecksum with
  | false => simpa [Feed.settle, comparisonOf, carried] using backed
  | true =>
    have verified := backed.verifyChecksum msg
    cases answer : (feed.verifyChecksum msg).2 with
    | true => simpa [Feed.settle, comparisonOf, carried, answer] using verified
    | false => simpa [Feed.settle, comparisonOf, carried, answer] using verified.requestResync

theorem anchor (backed : feed.Backed compared) (msg : DecodedMessage) :
    (feed.anchor msg).Backed compared := by
  unfold Feed.anchor
  split
  · exact backed.congr rfl rfl rfl
  · exact backed

theorem invalidate (backed : feed.Backed compared) (reason : DivergenceKind)
    (other : reason ≠ .checksumMismatch) : (feed.invalidate reason).Backed compared := by
  unfold Feed.invalidate
  split
  · exact (backed.record _ other).congr rfl rfl rfl
  · exact backed.congr rfl rfl rfl

theorem checkStaleness [LawfulSideImpl S] (backed : feed.Backed compared) (now maxGap : Timestamp) :
    (feed.checkStaleness now maxGap).1.Backed compared := by
  obtain ⟨-, -, stale⟩ | ⟨-, fresh⟩ := feed.checkStaleness_cases now maxGap
  · rw [stale]
    exact backed.invalidate _ (by decide)
  · rw [fresh]
    exact backed

variable [LawfulSideImpl S]

theorem applyLevel (backed : feed.Backed compared) (msg : DecodedMessage) (lvl : LevelUpdate) :
    (Feed.applyLevel msg feed lvl).Backed compared := by
  cases accepted : (feed.book.apply lvl.side lvl.price lvl.qty).2 with
  | true =>
    simp only [Feed.applyLevel, accepted, if_true]
    exact backed.congr rfl rfl rfl
  | false =>
    have counted : ({ feed with
        book := (feed.book.apply lvl.side lvl.price lvl.qty).1
        stats := { feed.stats with levelsRejected := feed.stats.levelsRejected + 1 } } :
        Feed S).Backed compared := backed.congr rfl rfl rfl
    simp only [Feed.applyLevel, accepted, Bool.false_eq_true, if_false, recordRejectedLevel]
    exact counted.record _ (by simp)

theorem applyLevels (backed : feed.Backed compared) (msg : DecodedMessage) :
    (feed.applyLevels msg).Backed compared := by
  unfold Feed.applyLevels
  induction msg.levels generalizing feed with
  | nil => exact backed
  | cons lvl rest ih => exact ih (backed.applyLevel msg lvl)

theorem accept (backed : feed.Backed compared) (msg : DecodedMessage) :
    ((feed.applyLevels msg).trimBook.stamp msg.ts).Backed compared :=
  (backed.applyLevels msg).congr rfl rfl rfl

theorem applySnapshotMessage (backed : feed.Backed compared) (msg : DecodedMessage) :
    (feed.applySnapshotMessage msg).1.Backed (compared ++ feed.core.snapshotComparison msg) := by
  cases decoded : msg.ok with
  | false =>
    simp only [Feed.applySnapshotMessage, FeedCore.snapshotComparison, decoded, if_true,
      Bool.false_eq_true, if_false, List.append_nil]
    exact backed.countRejected.record _ (by simp)
  | true =>
    have cleared : ({ feed with book := feed.book.clear } : Feed S).Backed compared :=
      backed.congr rfl rfl rfl
    have loaded := (cleared.accept msg).anchor msg
    have counted : (((({ feed with book := feed.book.clear } : Feed S).applyLevels
        msg).trimBook.stamp msg.ts).anchor msg).countSnapshot.Backed compared :=
      loaded.congr rfl rfl rfl
    have core := core_accept { feed with book := feed.book.clear } msg
    have final := core_anchor ((({ feed with book := feed.book.clear } : Feed S).applyLevels
      msg).trimBook.stamp msg.ts) msg
    rw [core] at final
    have book := congrArg FeedCore.book final
    have settled := counted.settle msg
    simp only [Feed.applySnapshotMessage, FeedCore.snapshotComparison, decoded, if_true,
      Bool.true_eq_false, if_false]
    have same : (((({ feed with book := feed.book.clear } : Feed S).applyLevels
        msg).trimBook.stamp msg.ts).anchor msg).countSnapshot.book = feed.core.rebuilt msg := book
    rwa [same] at settled

theorem applyContinuous (backed : feed.Backed compared) (msg : DecodedMessage) :
    (feed.applyContinuous msg).1.Backed
      (compared ++ comparisonOf (feed.core.updated msg) msg) := by
  have counted : ((feed.applyLevels msg).trimBook.stamp msg.ts).countApplied.Backed compared :=
    (backed.accept msg).congr rfl rfl rfl
  have book : ((feed.applyLevels msg).trimBook.stamp msg.ts).countApplied.book =
      feed.core.updated msg := congrArg FeedCore.book (feed.core_accept msg)
  have settled := counted.settle msg
  rwa [book] at settled

theorem applyUpdateMessage (backed : feed.Backed compared) (msg : DecodedMessage) :
    (feed.applyUpdateMessage msg).1.Backed (compared ++ feed.core.updateComparison msg) := by
  have core : feed.core.synced = feed.synced := rfl
  have tracker : feed.core.tracker = feed.tracker := rfl
  cases held : feed.synced with
  | false => simpa [Feed.applyUpdateMessage, FeedCore.updateComparison, core, held] using backed
  | true =>
    have tracked : (feed.track (feed.tracker.onUpdate msg.ids).1).Backed compared :=
      backed.congr rfl rfl rfl
    cases numbered : msg.hasIds with
    | false =>
      simpa [Feed.applyUpdateMessage, FeedCore.updateComparison, core, held, numbered] using
        backed.applyContinuous msg
    | true =>
      simp only [Feed.applyUpdateMessage, FeedCore.updateComparison, core, tracker, held, numbered,
        Bool.true_eq_false, if_false, if_true, true_and, forall_const]
      cases answer : (feed.tracker.onUpdate msg.ids).2 with
      | discardStale =>
        rw [if_neg (by decide), List.append_nil]
        exact tracked.countIgnored
      | resyncRequired =>
        rw [if_neg (by decide), List.append_nil]
        exact (tracked.record _ (by simp)).requestResync
      | apply =>
        rw [if_pos rfl]
        exact tracked.applyContinuous msg

theorem handleMessage (backed : feed.Backed compared) (msg : DecodedMessage) :
    (feed.handleMessage msg).1.Backed (compared ++ feed.core.handleComparison msg) := by
  cases decoded : msg.ok with
  | false =>
    simp only [Feed.handleMessage, FeedCore.handleComparison, decoded, if_true, Bool.false_eq_true,
      if_false, List.append_nil]
    apply backed.countRejected.record
    dsimp only
    split <;> decide
  | true =>
    simp only [Feed.handleMessage, FeedCore.handleComparison, decoded, if_true, Bool.true_eq_false,
      if_false]
    cases msg.kind with
    | ignored => simpa using backed.countIgnored
    | venueError =>
      have counted : ({ feed with
          stats := { feed.stats with venueErrors := feed.stats.venueErrors + 1 } } :
          Feed S).Backed compared := backed.congr rfl rfl rfl
      rw [List.append_nil]
      exact counted.countRejected.record _ (by simp)
    | snapshot => exact backed.applySnapshotMessage msg
    | update => exact backed.applyUpdateMessage msg

theorem call (backed : feed.Backed compared) (call : FeedCall)
    (other : ∀ reason, call = .invalidate reason → reason ≠ .checksumMismatch) :
    (feed.call call).Backed (compared ++ feed.core.comparison call) := by
  cases call with
  | handle frame =>
    have framed : ({ feed with stats := { feed.stats with frames := feed.stats.frames + 1 } } :
        Feed S).Backed compared := backed.congr rfl rfl rfl
    exact framed.handleMessage _
  | applySnapshot msg => exact backed.applySnapshotMessage msg
  | invalidate reason =>
    rw [FeedCore.comparison, List.append_nil]
    exact backed.invalidate reason (other _ rfl)
  | checkStaleness now maxGap =>
    rw [FeedCore.comparison, List.append_nil]
    exact backed.checkStaleness now maxGap

theorem run (backed : feed.Backed compared) (calls : List FeedCall)
    (other : ∀ reason, .invalidate reason ∈ calls → reason ≠ .checksumMismatch) :
    (feed.run calls).Backed (compared ++ feed.compared calls) := by
  induction calls generalizing feed compared with
  | nil =>
    rw [Feed.compared, List.append_nil]
    exact backed
  | cons call rest ih =>
    have first := backed.call call (fun reason same => other reason (by simp [same]))
    have tail := ih first (fun reason member => other reason (by simp [member]))
    rwa [List.append_assoc] at tail

end Backed

end Feed

theorem matchRate_backed [LawfulSideImpl S] (venue : Bytes) (decoder : Decoder)
    (policy : SequencePolicy) (depth : Nat) (calls : List FeedCall)
    (other : ∀ reason, .invalidate reason ∈ calls → reason ≠ .checksumMismatch) :
    let start : Feed S := Feed.new venue decoder policy depth
    let feed := start.run calls
    let compared := start.compared calls
    feed.stats.checksumsVerified = feed.log.verified + feed.stats.checksumMismatches ∧
      feed.stats.checksumMismatches = feed.log.counts .checksumMismatch ∧
      feed.log.totalRecorded = (DivergenceKind.all.map feed.log.counts).sum ∧
      feed.log.totalRecorded = feed.log.entries.length + feed.log.dropped ∧
      feed.log.entries.length ≤ DivergenceLog.kDefaultCapacity ∧
      feed.stats.checksumsVerified = compared.length ∧
      feed.log.verified = compared.countP Comparison.matched ∧
      feed.stats.checksumMismatches = compared.countP (fun c => !c.matched) := by
  intro start feed compared
  have backed : feed.Backed compared :=
    (Feed.new_backed (S := S) venue decoder policy depth).run calls other
  have split : compared.length =
      compared.countP Comparison.matched + compared.countP (fun c => !c.matched) := by
    simpa using List.length_eq_countP_add_countP Comparison.matched (l := compared)
  refine ⟨?_, backed.recorded.symm, backed.log.kinds, backed.log.stored,
    backed.capacity ▸ backed.log.bounded, backed.counted, backed.matched, backed.mismatched⟩
  have counted := backed.counted
  have matched := backed.matched
  have mismatched := backed.mismatched
  omega

-- A snapshot that verifies, one that does not, and a reconnect.
def verifiedThenMismatched : List FeedCall :=
  [.applySnapshot { DecodedMessage.blank with kind := .snapshot, hasChecksum := true },
    .applySnapshot { DecodedMessage.blank with kind := .snapshot, hasChecksum := true, checksum := 7 },
    .invalidate .staleFeed]

theorem matchRate_backed_reconnect :
    let start : Feed MapSide :=
      Feed.new [] ⟨⟨[], 0, 0⟩, fun _ => DecodedMessage.blank⟩ .binanceSpot 0
    let feed := start.run verifiedThenMismatched
    feed.stats.checksumsVerified = feed.log.verified + feed.stats.checksumMismatches := by
  refine (matchRate_backed [] ⟨⟨[], 0, 0⟩, fun _ => DecodedMessage.blank⟩ .binanceSpot 0
    verifiedThenMismatched ?_).1
  intro reason member
  obtain rfl : reason = .staleFeed := by simpa [verifiedThenMismatched] using member
  decide

end Crossbook
