import Crossbook.Feed.MatchRate
import Crossbook.Lib.Replies

set_option autoImplicit false

namespace Crossbook

inductive Fate where
  | applied
  | mismatched
  | ignored
  | rejected
  | gap
  | unsynced
  deriving DecidableEq, Repr

def Fate.status : Fate → FeedStatus
  | applied => .applied
  | mismatched => .needsSnapshot
  | ignored => .ignored
  | rejected => .rejected
  | gap => .needsSnapshot
  | unsynced => .needsSnapshot

@[ext] structure Tally where
  frames : Nat
  applied : Nat
  ignored : Nat
  rejected : Nat
  resyncs : Nat
  mismatches : Nat
  deriving DecidableEq, Repr

namespace Tally

def none : Tally := ⟨0, 0, 0, 0, 0, 0⟩

def plus (a b : Tally) : Tally where
  frames := a.frames + b.frames
  applied := a.applied + b.applied
  ignored := a.ignored + b.ignored
  rejected := a.rejected + b.rejected
  resyncs := a.resyncs + b.resyncs
  mismatches := a.mismatches + b.mismatches

theorem plus_plus (a b c : Tally) : (a.plus b).plus c = a.plus (b.plus c) := by
  simp only [plus, Nat.add_assoc]

end Tally

def FeedStats.tally (stats : FeedStats) : Tally where
  frames := stats.frames
  applied := stats.applied
  ignored := stats.ignored
  rejected := stats.rejected
  resyncs := stats.resyncsRequested
  mismatches := stats.checksumMismatches

def Fate.tally : Fate → Tally
  | applied => { Tally.none with applied := 1 }
  | mismatched => { Tally.none with applied := 1, resyncs := 1, mismatches := 1 }
  | ignored => { Tally.none with ignored := 1 }
  | rejected => { Tally.none with rejected := 1 }
  | gap => { Tally.none with resyncs := 1 }
  | unsynced => .none

def oneFrame : Tally := { Tally.none with frames := 1 }

variable {S : Type} [SideImpl S]

instance (book : BasicL2Book S) (msg : DecodedMessage) : Decidable (Verifies book msg) :=
  inferInstanceAs (Decidable (_ → _))

def settledFate (book : BasicL2Book S) (msg : DecodedMessage) : Fate :=
  if Verifies book msg then .applied else .mismatched

variable [LawfulSideImpl S]

namespace FeedCore

def snapshotFate (c : FeedCore S) (msg : DecodedMessage) : Fate :=
  if msg.ok then settledFate (c.rebuilt msg) msg else .rejected

def updateFate (c : FeedCore S) (msg : DecodedMessage) : Fate :=
  if c.synced = false then .unsynced
  else if msg.hasIds then
    match (c.tracker.onUpdate msg.ids).2 with
    | .discardStale => .ignored
    | .resyncRequired => .gap
    | .apply => settledFate (c.updated msg) msg
  else settledFate (c.updated msg) msg

def fate (c : FeedCore S) (msg : DecodedMessage) : Fate :=
  if msg.ok then
    match msg.kind with
    | .ignored => .ignored
    | .venueError => .rejected
    | .snapshot => c.snapshotFate msg
    | .update => c.updateFate msg
  else .rejected

end FeedCore

namespace Feed

section Counted

theorem tally_applyLevel (feed : Feed S) (msg : DecodedMessage) (lvl : LevelUpdate) :
    (applyLevel msg feed lvl).stats.tally = feed.stats.tally := by
  unfold applyLevel
  dsimp only
  split <;> rfl

theorem tally_applyLevels (feed : Feed S) (msg : DecodedMessage) :
    (feed.applyLevels msg).stats.tally = feed.stats.tally := by
  unfold applyLevels
  induction msg.levels generalizing feed with
  | nil => rfl
  | cons lvl rest ih =>
    rw [List.foldl_cons, ih]
    exact feed.tally_applyLevel msg lvl

theorem tally_accept (feed : Feed S) (msg : DecodedMessage) :
    ((feed.applyLevels msg).trimBook.stamp msg.ts).stats.tally = feed.stats.tally :=
  feed.tally_applyLevels msg

omit [LawfulSideImpl S] in
theorem tally_anchor (feed : Feed S) (msg : DecodedMessage) :
    (feed.anchor msg).stats.tally = feed.stats.tally := by
  unfold anchor
  split <;> rfl

omit [LawfulSideImpl S] in
theorem settle_tally (feed : Feed S) (msg : DecodedMessage) :
    ((feed.settle msg).1.stats.tally =
      if Verifies feed.book msg then feed.stats.tally
      else feed.stats.tally.plus { Tally.none with resyncs := 1, mismatches := 1 }) ∧
    (feed.settle msg).2 = (settledFate feed.book msg).status := by
  unfold settle settledFate
  cases carried : msg.hasChecksum with
  | false =>
    have verifies : Verifies feed.book msg := fun carries => by simp [carried] at carries
    rw [if_pos verifies, if_pos verifies]
    exact ⟨rfl, rfl⟩
  | true =>
    by_cases same : krakenChecksum feed.book = msg.checksum
    · have verifies : Verifies feed.book msg := fun _ => same
      rw [if_pos verifies, if_pos verifies]
      simp only [verifyChecksum, same, if_true]
      exact ⟨rfl, rfl⟩
    · have differs : ¬ Verifies feed.book msg := fun verifies => same (verifies carried)
      rw [if_neg differs, if_neg differs]
      simp only [verifyChecksum, same, if_true, if_false, Bool.false_eq_true]
      exact ⟨rfl, rfl⟩

/-- A frame whose fate is known has been counted and answered. -/
structure Counted (before : FeedStats) (fate : Fate) (after : Feed S × FeedStatus) : Prop where
  tally : after.1.stats.tally = before.tally.plus fate.tally
  status : after.2 = fate.status

omit [LawfulSideImpl S] in
theorem settle_counted {before : FeedStats} {loaded : Feed S} {book : BasicL2Book S}
    (msg : DecodedMessage) (held : loaded.book = book)
    (applied : loaded.stats.tally = before.tally.plus { Tally.none with applied := 1 }) :
    Counted before (settledFate book msg) (loaded.settle msg) := by
  obtain ⟨tally, status⟩ := loaded.settle_tally msg
  rw [held] at tally status
  refine ⟨tally.trans ?_, status⟩
  rw [applied, settledFate]
  split
  · rfl
  · rw [Tally.plus_plus]
    rfl

theorem applyContinuous_counted (feed : Feed S) (msg : DecodedMessage) :
    Counted feed.stats (settledFate (feed.core.updated msg) msg) (feed.applyContinuous msg) := by
  refine settle_counted msg (congrArg FeedCore.book (feed.core_accept msg)) ?_
  rw [← feed.tally_accept msg]
  rfl

theorem applySnapshotMessage_counted (feed : Feed S) (msg : DecodedMessage) :
    Counted feed.stats (feed.core.snapshotFate msg) (feed.applySnapshotMessage msg) := by
  unfold FeedCore.snapshotFate
  cases decoded : msg.ok with
  | false =>
    simp only [applySnapshotMessage, decoded, if_true, Bool.false_eq_true, if_false]
    exact ⟨rfl, rfl⟩
  | true =>
    have accepted := tally_accept ({ feed with book := feed.book.clear } : Feed S) msg
    have core := core_accept { feed with book := feed.book.clear } msg
    simp only [applySnapshotMessage, decoded, Bool.true_eq_false, if_false, if_true]
    generalize (({ feed with book := feed.book.clear } : Feed S).applyLevels msg).trimBook.stamp
      msg.ts = stamped at accepted core ⊢
    have anchored := stamped.core_anchor msg
    rw [core] at anchored
    refine settle_counted msg (congrArg FeedCore.book anchored) ?_
    have same : (stamped.anchor msg).stats.tally = feed.stats.tally :=
      (stamped.tally_anchor msg).trans accepted
    rw [← same]
    rfl

theorem applyUpdateMessage_counted (feed : Feed S) (msg : DecodedMessage) :
    Counted feed.stats (feed.core.updateFate msg) (feed.applyUpdateMessage msg) := by
  have core : feed.core.synced = feed.synced := rfl
  have tracker : feed.core.tracker = feed.tracker := rfl
  cases held : feed.synced with
  | false =>
    simp only [applyUpdateMessage, FeedCore.updateFate, core, held, if_true]
    exact ⟨rfl, rfl⟩
  | true =>
    cases numbered : msg.hasIds with
    | false =>
      simp only [applyUpdateMessage, FeedCore.updateFate, core, held, numbered, Bool.true_eq_false,
        Bool.false_eq_true, if_false]
      exact feed.applyContinuous_counted msg
    | true =>
      simp only [applyUpdateMessage, FeedCore.updateFate, core, tracker, held, numbered,
        Bool.true_eq_false, if_false, if_true]
      cases (feed.tracker.onUpdate msg.ids).2 with
      | discardStale => exact ⟨rfl, rfl⟩
      | resyncRequired => exact ⟨rfl, rfl⟩
      | apply => exact (feed.track (feed.tracker.onUpdate msg.ids).1).applyContinuous_counted msg

theorem handleMessage_counted (feed : Feed S) (msg : DecodedMessage) :
    Counted feed.stats (feed.core.fate msg) (feed.handleMessage msg) := by
  unfold FeedCore.fate
  cases decoded : msg.ok with
  | false =>
    simp only [handleMessage, decoded, if_true, Bool.false_eq_true, if_false]
    exact ⟨rfl, rfl⟩
  | true =>
    simp only [handleMessage, decoded, Bool.true_eq_false, if_false, if_true]
    cases msg.kind with
    | ignored => exact ⟨rfl, rfl⟩
    | venueError => exact ⟨rfl, rfl⟩
    | snapshot => exact feed.applySnapshotMessage_counted msg
    | update => exact feed.applyUpdateMessage_counted msg

theorem handle_counted (feed : Feed S) (frame : Bytes) :
    (feed.handle frame).1.stats.tally =
        (feed.stats.tally.plus oneFrame).plus (feed.core.fate (feed.decoder.decode frame)).tally ∧
      (feed.handle frame).2 = (feed.core.fate (feed.decoder.decode frame)).status := by
  obtain ⟨tally, status⟩ := handleMessage_counted
    { feed with stats := { feed.stats with frames := feed.stats.frames + 1 } }
    (feed.decoder.decode frame)
  exact ⟨tally, status⟩

end Counted

section Runs

def fates : Feed S → List Bytes → List Fate
  | _, [] => []
  | feed, frame :: rest =>
    feed.core.fate (feed.decoder.decode frame) :: fates (feed.handle frame).1 rest

theorem run_counted (feed : Feed S) (frames : List Bytes) :
    let ran := Run.respond handle feed frames
    let fates := feed.fates frames
    ran.2 = fates.map Fate.status ∧
      ran.1.stats.tally = feed.stats.tally.plus
        { frames := frames.length
          applied := fates.count .applied + fates.count .mismatched
          ignored := fates.count .ignored
          rejected := fates.count .rejected
          resyncs := fates.count .mismatched + fates.count .gap
          mismatches := fates.count .mismatched } := by
  induction frames generalizing feed with
  | nil => exact ⟨rfl, rfl⟩
  | cons frame rest ih =>
    obtain ⟨tally, status⟩ := feed.handle_counted frame
    obtain ⟨later, total⟩ := ih (feed.handle frame).1
    dsimp only at later total ⊢
    simp only [Run.respond, fates, List.map_cons, status, later, true_and]
    rw [total, tally]
    cases feed.core.fate (feed.decoder.decode frame) <;>
      ext <;> simp [Tally.plus, oneFrame, Fate.tally, Tally.none] <;> omega

theorem statuses_balance (fates : List Fate) :
    (fates.map Fate.status).count .applied = fates.count .applied ∧
      (fates.map Fate.status).count .ignored = fates.count .ignored ∧
      (fates.map Fate.status).count .rejected = fates.count .rejected ∧
      (fates.map Fate.status).count .needsSnapshot =
        fates.count .mismatched + fates.count .gap + fates.count .unsynced ∧
      fates.length = fates.count .applied + fates.count .mismatched + fates.count .ignored +
        fates.count .rejected + fates.count .gap + fates.count .unsynced := by
  induction fates with
  | nil => exact ⟨rfl, rfl, rfl, rfl, rfl⟩
  | cons fate rest ih =>
    obtain ⟨applied, ignored, rejected, needsSnapshot, total⟩ := ih
    cases fate <;>
      simp [Fate.status, applied, ignored, rejected, needsSnapshot, total] <;> omega

end Runs

end Feed

/-- Every frame of a run is counted once, under the answer it was given. -/
theorem frames_accounted (venue : Bytes) (decoder : Decoder) (policy : SequencePolicy) (depth : Nat)
    (frames : List Bytes) :
    let ran := Run.respond Feed.handle (Feed.new venue decoder policy depth : Feed S) frames
    let stats := ran.1.stats
    let unsynced := ((Feed.new venue decoder policy depth : Feed S).fates frames).count .unsynced
    stats.frames = frames.length ∧ stats.ignored = ran.2.count .ignored ∧
      stats.rejected = ran.2.count .rejected ∧
      stats.applied = ran.2.count .applied + stats.checksumMismatches ∧
      ran.2.count .needsSnapshot = stats.resyncsRequested + unsynced ∧
      stats.checksumMismatches ≤ stats.resyncsRequested ∧
      stats.frames + stats.checksumMismatches =
        stats.applied + stats.ignored + stats.rejected + stats.resyncsRequested + unsynced := by
  intro ran stats unsynced
  obtain ⟨answers, tally⟩ := (Feed.new venue decoder policy depth : Feed S).run_counted frames
  obtain ⟨applied, ignored, rejected, needsSnapshot, total⟩ :=
    Feed.statuses_balance ((Feed.new venue decoder policy depth : Feed S).fates frames)
  have counted (field : Tally → Nat) := congrArg field tally
  have frameCount : stats.frames = _ := (counted Tally.frames).trans (Nat.zero_add _)
  have appliedCount : stats.applied = _ := (counted Tally.applied).trans (Nat.zero_add _)
  have ignoredCount : stats.ignored = _ := (counted Tally.ignored).trans (Nat.zero_add _)
  have rejectedCount : stats.rejected = _ := (counted Tally.rejected).trans (Nat.zero_add _)
  have resyncCount : stats.resyncsRequested = _ := (counted Tally.resyncs).trans (Nat.zero_add _)
  have mismatchCount : stats.checksumMismatches = _ :=
    (counted Tally.mismatches).trans (Nat.zero_add _)
  have length : ((Feed.new venue decoder policy depth : Feed S).fates frames).length =
      frames.length := by
    have same := congrArg List.length answers
    rw [List.length_map, Run.length_respond] at same
    exact same.symm
  dsimp only at frameCount appliedCount ignoredCount rejectedCount resyncCount mismatchCount
  rw [answers, applied, ignored, rejected, needsSnapshot]
  refine ⟨frameCount, ignoredCount, rejectedCount, ?_, ?_, ?_, ?_⟩ <;> omega

end Crossbook
