import Crossbook.Feed.Steps
import Crossbook.Lib.Replies

set_option autoImplicit false

namespace Crossbook

namespace Feed

section View

variable {S : Type} [SideImpl S] [LawfulSideImpl S]

-- The feed over the reference containers holding the same levels.
def toMap (feed : Feed S) : Feed MapSide where
  venue := feed.venue
  decoder := feed.decoder
  book := feed.book.toMap
  tracker := feed.tracker
  depth := feed.depth
  log := feed.log
  stats := feed.stats
  lastTs := feed.lastTs
  synced := feed.synced

theorem toMap_new (venue : Bytes) (decoder : Decoder) (policy : SequencePolicy) (depth : Nat) :
    (new venue decoder policy depth : Feed S).toMap = new venue decoder policy depth := by
  simp only [toMap, new, BasicL2Book.toMap_new]

theorem applyLevel_toMap (feed : Feed S) (msg : DecodedMessage) (lvl : LevelUpdate) :
    applyLevel msg feed.toMap lvl = (applyLevel msg feed lvl).toMap := by
  have applied := feed.book.apply_toMap lvl.side lvl.price lvl.qty
  have fst : (feed.book.toMap.apply lvl.side lvl.price lvl.qty).1 =
      (feed.book.apply lvl.side lvl.price lvl.qty).1.toMap := congrArg Prod.fst applied
  have snd : (feed.book.toMap.apply lvl.side lvl.price lvl.qty).2 =
      (feed.book.apply lvl.side lvl.price lvl.qty).2 := congrArg Prod.snd applied
  cases accepted : (feed.book.apply lvl.side lvl.price lvl.qty).2 with
  | true =>
    have viewed : (feed.toMap.book.apply lvl.side lvl.price lvl.qty).2 = true := snd.trans accepted
    simp only [applyLevel, accepted, viewed, if_true]
    simp only [toMap, fst]
  | false =>
    have viewed : (feed.toMap.book.apply lvl.side lvl.price lvl.qty).2 = false := snd.trans accepted
    simp only [applyLevel, accepted, viewed, Bool.false_eq_true, if_false]
    simp only [toMap, fst, recordRejectedLevel, record]
    rfl

theorem applyLevels_toMap (feed : Feed S) (msg : DecodedMessage) :
    feed.toMap.applyLevels msg = (feed.applyLevels msg).toMap := by
  unfold applyLevels
  induction msg.levels generalizing feed with
  | nil => rfl
  | cons lvl rest ih =>
    rw [List.foldl_cons, List.foldl_cons, applyLevel_toMap, ih]

theorem trimBook_toMap (feed : Feed S) : feed.toMap.trimBook = feed.trimBook.toMap := by
  have trimmed := feed.book.trim_toMap feed.depth
  simp only [trimBook, toMap, trimmed]

theorem verifyChecksum_toMap (feed : Feed S) (msg : DecodedMessage) :
    feed.toMap.verifyChecksum msg =
      ((feed.verifyChecksum msg).1.toMap, (feed.verifyChecksum msg).2) := by
  have sum : krakenChecksum feed.toMap.book = krakenChecksum feed.book :=
    krakenChecksum_toMap feed.book
  have payload : krakenChecksumPayload feed.toMap.book = krakenChecksumPayload feed.book :=
    krakenChecksumPayload_toMap feed.book
  unfold verifyChecksum
  simp only [sum, payload]
  split <;> rfl

theorem settle_toMap (feed : Feed S) (msg : DecodedMessage) :
    feed.toMap.settle msg = ((feed.settle msg).1.toMap, (feed.settle msg).2) := by
  have verified := feed.verifyChecksum_toMap msg
  unfold settle
  by_cases carried : msg.hasChecksum = true
  · simp only [carried, if_true, verified]
    split <;> rfl
  · simp only [carried]
    rfl

theorem anchor_toMap (feed : Feed S) (msg : DecodedMessage) :
    feed.toMap.anchor msg = (feed.anchor msg).toMap := by
  unfold anchor
  split <;> rfl

theorem accept_toMap (feed : Feed S) (msg : DecodedMessage) :
    (feed.toMap.applyLevels msg).trimBook.stamp msg.ts =
      ((feed.applyLevels msg).trimBook.stamp msg.ts).toMap := by
  rw [applyLevels_toMap, trimBook_toMap]
  rfl

theorem applySnapshotMessage_toMap (feed : Feed S) (msg : DecodedMessage) :
    feed.toMap.applySnapshotMessage msg =
      ((feed.applySnapshotMessage msg).1.toMap, (feed.applySnapshotMessage msg).2) := by
  cases decoded : msg.ok with
  | false =>
    simp only [applySnapshotMessage, decoded, if_true]
    rfl
  | true =>
    have cleared : ({ feed.toMap with book := feed.toMap.book.clear } : Feed MapSide) =
        ({ feed with book := feed.book.clear } : Feed S).toMap := by
      have book : feed.toMap.book.clear = feed.book.clear.toMap := feed.book.clear_toMap
      rw [book]
      rfl
    simp only [applySnapshotMessage, decoded, Bool.true_eq_false, if_false]
    rw [cleared, accept_toMap, anchor_toMap]
    generalize ((({ feed with book := feed.book.clear } : Feed S).applyLevels msg).trimBook.stamp
      msg.ts).anchor msg = loaded
    exact loaded.countSnapshot.settle_toMap msg

theorem applyContinuous_toMap (feed : Feed S) (msg : DecodedMessage) :
    feed.toMap.applyContinuous msg =
      ((feed.applyContinuous msg).1.toMap, (feed.applyContinuous msg).2) := by
  unfold applyContinuous
  rw [accept_toMap]
  generalize (feed.applyLevels msg).trimBook.stamp msg.ts = loaded
  exact loaded.countApplied.settle_toMap msg

theorem applyUpdateMessage_toMap (feed : Feed S) (msg : DecodedMessage) :
    feed.toMap.applyUpdateMessage msg =
      ((feed.applyUpdateMessage msg).1.toMap, (feed.applyUpdateMessage msg).2) := by
  have synced : feed.toMap.synced = feed.synced := rfl
  have tracker : feed.toMap.tracker = feed.tracker := rfl
  unfold applyUpdateMessage
  rw [synced, tracker]
  by_cases lost : feed.synced = false
  · simp only [lost, if_true]
  · by_cases numbered : msg.hasIds = true
    · simp only [lost, numbered, if_true]
      cases (feed.tracker.onUpdate msg.ids).2 with
      | discardStale => rfl
      | resyncRequired => rfl
      | apply => exact applyContinuous_toMap (feed.track (feed.tracker.onUpdate msg.ids).1) msg
    · simp only [lost, numbered]
      exact feed.applyContinuous_toMap msg

theorem handleMessage_toMap (feed : Feed S) (msg : DecodedMessage) :
    feed.toMap.handleMessage msg =
      ((feed.handleMessage msg).1.toMap, (feed.handleMessage msg).2) := by
  unfold handleMessage
  by_cases failed : msg.ok = false
  · simp only [failed, if_true]
    rfl
  · simp only [failed]
    cases msg.kind with
    | ignored => rfl
    | venueError => rfl
    | snapshot => exact feed.applySnapshotMessage_toMap msg
    | update => exact feed.applyUpdateMessage_toMap msg

theorem handle_toMap (feed : Feed S) (frame : Bytes) :
    feed.toMap.handle frame = ((feed.handle frame).1.toMap, (feed.handle frame).2) :=
  handleMessage_toMap { feed with stats := { feed.stats with frames := feed.stats.frames + 1 } } _

theorem invalidate_toMap (feed : Feed S) (reason : DivergenceKind) :
    feed.toMap.invalidate reason = (feed.invalidate reason).toMap := by
  unfold invalidate
  cases held : feed.synced with
  | true => simp only [toMap, held, if_true]; rfl
  | false => simp only [toMap, held]; rfl

theorem checkStaleness_toMap (feed : Feed S) (now maxGap : Timestamp) :
    feed.toMap.checkStaleness now maxGap =
      ((feed.checkStaleness now maxGap).1.toMap, (feed.checkStaleness now maxGap).2) := by
  have synced : feed.toMap.synced = feed.synced := rfl
  have lastTs : feed.toMap.lastTs = feed.lastTs := rfl
  unfold checkStaleness
  rw [synced, lastTs, invalidate_toMap]
  split
  · rfl
  · split <;> rfl

end View

inductive Answer where
  | status (status : FeedStatus)
  | invalidated
  | stale (stale : Bool)
  deriving DecidableEq, Repr

section Answers

variable {S : Type} [SideImpl S] [LawfulSideImpl S]

def answer (feed : Feed S) : FeedCall → Feed S × Answer
  | .handle frame =>
    let handled := feed.handle frame
    (handled.1, .status handled.2)
  | .applySnapshot msg =>
    let handled := feed.applySnapshot msg
    (handled.1, .status handled.2)
  | .invalidate reason => (feed.invalidate reason, .invalidated)
  | .checkStaleness now maxGap =>
    let checked := feed.checkStaleness now maxGap
    (checked.1, .stale checked.2)

theorem answer_call (feed : Feed S) (call : FeedCall) : (feed.answer call).1 = feed.call call := by
  cases call <;> rfl

theorem answer_views : Run.Views (toMap (S := S)) answer answer := by
  intro feed call
  cases call with
  | handle frame => simp only [answer, handle_toMap]
  | applySnapshot msg => simp only [answer, applySnapshot, applySnapshotMessage_toMap]
  | invalidate reason => simp only [answer, invalidate_toMap]
  | checkStaleness now maxGap => simp only [answer, checkStaleness_toMap]

end Answers

/-- What can be read off a feed: all but the inside of its side containers. -/
structure Agree {S T : Type} [SideImpl S] [LawfulSideImpl S] [SideImpl T] [LawfulSideImpl T]
    (a : Feed S) (b : Feed T) : Prop where
  stats : a.stats = b.stats
  log : a.log = b.log
  tracker : a.tracker = b.tracker
  lastTs : a.lastTs = b.lastTs
  synced : a.synced = b.synced
  top (s : Side) (n : Nat) : a.book.top s n = b.book.top s n
  best (s : Side) : a.book.best s = b.book.best s
  stateHash : a.book.stateHash = b.book.stateHash
  krakenChecksum : krakenChecksum a.book = krakenChecksum b.book

section Two

variable {S T : Type} [SideImpl S] [LawfulSideImpl S] [SideImpl T] [LawfulSideImpl T]

theorem agree_of_toMap {a : Feed S} {b : Feed T} (same : a.toMap = b.toMap) : Agree a b where
  stats := congrArg Feed.stats same
  log := congrArg Feed.log same
  tracker := congrArg Feed.tracker same
  lastTs := congrArg Feed.lastTs same
  synced := congrArg Feed.synced same
  top s n := by
    have book : a.book.toMap = b.book.toMap := congrArg Feed.book same
    rw [← a.book.top_toMap, book, b.book.top_toMap]
  best s := by
    have book : a.book.toMap = b.book.toMap := congrArg Feed.book same
    rw [← a.book.best_toMap, book, b.book.best_toMap]
  stateHash := by
    have book : a.book.toMap = b.book.toMap := congrArg Feed.book same
    rw [← a.book.stateHash_toMap, book, b.book.stateHash_toMap]
  krakenChecksum := by
    have book : a.book.toMap = b.book.toMap := congrArg Feed.book same
    rw [← krakenChecksum_toMap a.book, book, krakenChecksum_toMap b.book]

end Two

end Feed

theorem feed_container_independent {S T : Type} [SideImpl S] [LawfulSideImpl S] [SideImpl T]
    [LawfulSideImpl T] (venue : Bytes) (decoder : Decoder) (policy : SequencePolicy) (depth : Nat)
    (calls : List FeedCall) :
    let fast := Run.respond Feed.answer (Feed.new venue decoder policy depth : Feed S) calls
    let plain := Run.respond Feed.answer (Feed.new venue decoder policy depth : Feed T) calls
    fast.2 = plain.2 ∧ Feed.Agree fast.1 plain.1 := by
  intro fast plain
  have fastViewed := Feed.answer_views.respond (Feed.new venue decoder policy depth : Feed S) calls
  have plainViewed := Feed.answer_views.respond (Feed.new venue decoder policy depth : Feed T) calls
  rw [Feed.toMap_new] at fastViewed plainViewed
  have both := fastViewed.symm.trans plainViewed
  exact ⟨congrArg Prod.snd both, Feed.agree_of_toMap (congrArg Prod.fst both)⟩

end Crossbook
