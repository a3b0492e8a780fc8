import Crossbook.Feed.Feed
import Crossbook.Lib.Run

set_option autoImplicit false

namespace Crossbook

variable {S : Type} [SideImpl S]

-- What a feed knows: everything but its log and its counters.
structure FeedCore (S : Type) [SideImpl S] where
  decoder : Decoder
  book : BasicL2Book S
  tracker : SequenceTracker
  depth : Nat
  lastTs : Timestamp
  synced : Bool

def Feed.core (feed : Feed S) : FeedCore S where
  decoder := feed.decoder
  book := feed.book
  tracker := feed.tracker
  depth := feed.depth
  lastTs := feed.lastTs
  synced := feed.synced

variable [LawfulSideImpl S]

namespace BasicL2Book

def load (book : BasicL2Book S) (levels : List LevelUpdate) : BasicL2Book S :=
  levels.foldl (fun book lvl => (book.apply lvl.side lvl.price lvl.qty).1) book

def accept (book : BasicL2Book S) (depth : Nat) (msg : DecodedMessage) : BasicL2Book S :=
  ((book.load msg.levels).trim depth).1.setLastUpdate msg.ts

end BasicL2Book

omit [LawfulSideImpl S] in
def Verifies (book : BasicL2Book S) (msg : DecodedMessage) : Prop :=
  msg.hasChecksum = true → krakenChecksum book = msg.checksum

namespace FeedCore

def rebuilt (c : FeedCore S) (msg : DecodedMessage) : BasicL2Book S :=
  c.book.clear.accept c.depth msg

def updated (c : FeedCore S) (msg : DecodedMessage) : BasicL2Book S := c.book.accept c.depth msg

omit [LawfulSideImpl S] in
def anchored (c : FeedCore S) (msg : DecodedMessage) : SequenceTracker :=
  if msg.hasIds then c.tracker.onSnapshot msg.ids.finalId else c.tracker

omit [LawfulSideImpl S] in
def advanced (c : FeedCore S) (msg : DecodedMessage) : SequenceTracker :=
  if msg.hasIds then (c.tracker.onUpdate msg.ids).1 else c.tracker

end FeedCore

inductive SnapshotStep (c : FeedCore S) (msg : DecodedMessage) : FeedCore S → FeedStatus → Prop where
  | rejected (failed : msg.ok = false) : SnapshotStep c msg c .rejected
  | applied (decoded : msg.ok = true) (verified : Verifies (c.rebuilt msg) msg) :
    SnapshotStep c msg
      { c with
        book := c.rebuilt msg, tracker := c.anchored msg, lastTs := msg.ts, synced := true }
      .applied
  | mismatched (decoded : msg.ok = true) (differs : ¬ Verifies (c.rebuilt msg) msg) :
    SnapshotStep c msg
      { c with
        book := c.rebuilt msg, tracker := (c.anchored msg).invalidate, lastTs := msg.ts
        synced := false }
      .needsSnapshot

inductive UpdateStep (c : FeedCore S) (msg : DecodedMessage) : FeedCore S → FeedStatus → Prop where
  | unsynced (lost : c.synced = false) : UpdateStep c msg c .needsSnapshot
  | stale (held : c.synced = true) (numbered : msg.hasIds = true)
    (answer : (c.tracker.onUpdate msg.ids).2 = .discardStale) :
    UpdateStep c msg { c with tracker := (c.tracker.onUpdate msg.ids).1 } .ignored
  | gap (held : c.synced = true) (numbered : msg.hasIds = true)
    (answer : (c.tracker.onUpdate msg.ids).2 = .resyncRequired) :
    UpdateStep c msg
      { c with tracker := (c.tracker.onUpdate msg.ids).1.invalidate, synced := false }
      .needsSnapshot
  | applied (held : c.synced = true)
    (continues : msg.hasIds = true → (c.tracker.onUpdate msg.ids).2 = .apply)
    (verified : Verifies (c.updated msg) msg) :
    UpdateStep c msg
      { c with book := c.updated msg, tracker := c.advanced msg, lastTs := msg.ts } .applied
  | mismatched (held : c.synced = true)
    (continues : msg.hasIds = true → (c.tracker.onUpdate msg.ids).2 = .apply)
    (differs : ¬ Verifies (c.updated msg) msg) :
    UpdateStep c msg
      { c with
        book := c.updated msg, tracker := (c.advanced msg).invalidate, lastTs := msg.ts
        synced := false }
      .needsSnapshot

/-- Everything `handle` can do with a decoded message. -/
inductive HandleStep (c : FeedCore S) (msg : DecodedMessage) : FeedCore S → FeedStatus → Prop where
  | rejected (failed : msg.ok = false) : HandleStep c msg c .rejected
  | ignored (decoded : msg.ok = true) (kind : msg.kind = .ignored) : HandleStep c msg c .ignored
  | venueError (decoded : msg.ok = true) (kind : msg.kind = .venueError) :
    HandleStep c msg c .rejected
  | snapshot {after : FeedCore S} {status : FeedStatus} (decoded : msg.ok = true)
    (kind : msg.kind = .snapshot) (step : SnapshotStep c msg after status) :
    HandleStep c msg after status
  | update {after : FeedCore S} {status : FeedStatus} (decoded : msg.ok = true)
    (kind : msg.kind = .update) (step : UpdateStep c msg after status) :
    HandleStep c msg after status

namespace Feed

theorem core_applyLevel (feed : Feed S) (msg : DecodedMessage) (lvl : LevelUpdate) :
    (applyLevel msg feed lvl).core =
      { feed.core with book := (feed.book.apply lvl.side lvl.price lvl.qty).1 } := by
  cases accepted : (feed.book.apply lvl.side lvl.price lvl.qty).2 <;>
    simp only [applyLevel, accepted] <;> rfl

theorem core_applyLevels (feed : Feed S) (msg : DecodedMessage) :
    (feed.applyLevels msg).core = { feed.core with book := feed.book.load msg.levels } := by
  unfold applyLevels BasicL2Book.load
  induction msg.levels generalizing feed with
  | nil => rfl
  | cons lvl rest ih =>
    have first := feed.core_applyLevel msg lvl
    have book : (applyLevel msg feed lvl).book = (feed.book.apply lvl.side lvl.price lvl.qty).1 :=
      congrArg FeedCore.book first
    have tail := ih (applyLevel msg feed lvl)
    rw [first, book] at tail
    exact tail

theorem core_accept (feed : Feed S) (msg : DecodedMessage) :
    ((feed.applyLevels msg).trimBook.stamp msg.ts).core =
      { feed.core with book := feed.book.accept feed.depth msg, lastTs := msg.ts } := by
  have loaded := feed.core_applyLevels msg
  have book : (feed.applyLevels msg).book = feed.book.load msg.levels :=
    congrArg FeedCore.book loaded
  have depth : (feed.applyLevels msg).depth = feed.depth := congrArg FeedCore.depth loaded
  have stamped : ((feed.applyLevels msg).trimBook.stamp msg.ts).core =
      { (feed.applyLevels msg).core with
        book := ((feed.applyLevels msg).book.trim (feed.applyLevels msg).depth).1.setLastUpdate msg.ts
        lastTs := msg.ts } := rfl
  rw [stamped, loaded, book, depth]
  rfl

omit [LawfulSideImpl S] in
theorem settle_verified (feed : Feed S) (msg : DecodedMessage) (verified : Verifies feed.book msg) :
    (feed.settle msg).1.core = feed.core ∧ (feed.settle msg).2 = .applied := by
  unfold settle
  by_cases carried : msg.hasChecksum = true
  · simp only [carried, if_true, verifyChecksum, verified carried, and_true]
    rfl
  · simp [carried]

omit [LawfulSideImpl S] in
theorem settle_mismatched (feed : Feed S) (msg : DecodedMessage)
    (differs : ¬ Verifies feed.book msg) :
    (feed.settle msg).1.core =
        { feed.core with tracker := feed.tracker.invalidate, synced := false } ∧
      (feed.settle msg).2 = .needsSnapshot := by
  unfold Verifies at differs
  push Not at differs
  unfold settle
  simp only [differs.1, if_true, verifyChecksum, differs.2, if_false]
  exact ⟨rfl, rfl⟩

omit [LawfulSideImpl S] in
theorem core_anchor (feed : Feed S) (msg : DecodedMessage) :
    (feed.anchor msg).countSnapshot.core =
      { feed.core with tracker := feed.core.anchored msg, synced := true } := by
  cases numbered : msg.hasIds <;> simp only [anchor, FeedCore.anchored, numbered] <;> rfl

theorem applySnapshotMessage_step (feed : Feed S) (msg : DecodedMessage) :
    SnapshotStep feed.core msg (feed.applySnapshotMessage msg).1.core
      (feed.applySnapshotMessage msg).2 := by
  cases decoded : msg.ok with
  | false =>
    simp only [applySnapshotMessage, decoded, if_true]
    exact .rejected decoded
  | true =>
    have accepted := core_accept { feed with book := feed.book.clear } msg
    simp only [applySnapshotMessage, decoded, Bool.true_eq_false, if_false]
    generalize (({ feed with book := feed.book.clear } : Feed S).applyLevels msg).trimBook.stamp
      msg.ts = stamped at accepted ⊢
    have counted := stamped.core_anchor msg
    rw [accepted] at counted
    generalize (stamped.anchor msg).countSnapshot = loaded at counted ⊢
    have book : loaded.book = feed.core.rebuilt msg := congrArg FeedCore.book counted
    have tracker : loaded.tracker = feed.core.anchored msg := congrArg FeedCore.tracker counted
    by_cases verified : Verifies (feed.core.rebuilt msg) msg
    · obtain ⟨core, status⟩ := loaded.settle_verified msg (book ▸ verified)
      rw [core, status, counted]
      exact .applied decoded verified
    · obtain ⟨core, status⟩ := loaded.settle_mismatched msg (book ▸ verified)
      rw [core, status, counted, tracker]
      exact .mismatched decoded verified

theorem applyContinuous_step (feed : Feed S) (msg : DecodedMessage) :
    (Verifies (feed.core.updated msg) msg ∧
      (feed.applyContinuous msg).1.core =
        { feed.core with book := feed.core.updated msg, lastTs := msg.ts } ∧
      (feed.applyContinuous msg).2 = .applied) ∨
    (¬ Verifies (feed.core.updated msg) msg ∧
      (feed.applyContinuous msg).1.core =
        { feed.core with
          book := feed.core.updated msg, tracker := feed.tracker.invalidate, lastTs := msg.ts
          synced := false } ∧
      (feed.applyContinuous msg).2 = .needsSnapshot) := by
  have accepted := feed.core_accept msg
  unfold applyContinuous
  generalize (feed.applyLevels msg).trimBook.stamp msg.ts = stamped at accepted ⊢
  have counted : stamped.countApplied.core = stamped.core := rfl
  rw [accepted] at counted
  generalize stamped.countApplied = loaded at counted ⊢
  have book : loaded.book = feed.core.updated msg := congrArg FeedCore.book counted
  have tracker : loaded.tracker = feed.tracker := congrArg FeedCore.tracker counted
  by_cases verified : Verifies (feed.core.updated msg) msg
  · obtain ⟨core, status⟩ := loaded.settle_verified msg (book ▸ verified)
    exact .inl ⟨verified, core.trans counted, status⟩
  · obtain ⟨core, status⟩ := loaded.settle_mismatched msg (book ▸ verified)
    rw [counted, tracker] at core
    exact .inr ⟨verified, core, status⟩

theorem applyUpdateMessage_step (feed : Feed S) (msg : DecodedMessage) :
    UpdateStep feed.core msg (feed.applyUpdateMessage msg).1.core
      (feed.applyUpdateMessage msg).2 := by
  by_cases held : feed.synced = false
  · simp only [applyUpdateMessage, held, if_true]
    exact .unsynced held
  have synced : feed.core.synced = true := Bool.eq_true_of_not_eq_false held
  cases numbered : msg.hasIds with
  | false =>
    simp only [applyUpdateMessage, held, numbered, Bool.true_eq_false, Bool.false_eq_true, if_false]
    have advanced : feed.core.advanced msg = feed.tracker := by
      simp only [FeedCore.advanced, numbered]
      rfl
    obtain ⟨verified, core, status⟩ | ⟨differs, core, status⟩ := feed.applyContinuous_step msg
    · rw [core, status]
      have step := UpdateStep.applied synced (by simp [numbered]) verified
      rwa [advanced] at step
    · rw [core, status]
      have step := UpdateStep.mismatched synced (by simp [numbered]) differs
      rwa [advanced] at step
  | true =>
    simp only [applyUpdateMessage, held, numbered, Bool.true_eq_false, if_false, if_true]
    cases answer : (feed.tracker.onUpdate msg.ids).2 with
    | discardStale => exact .stale synced numbered answer
    | resyncRequired => exact .gap synced numbered answer
    | apply =>
      have advanced : feed.core.advanced msg = (feed.tracker.onUpdate msg.ids).1 := by
        simp only [FeedCore.advanced, numbered]
        rfl
      have continues : msg.hasIds = true → (feed.core.tracker.onUpdate msg.ids).2 = .apply :=
        fun _ => answer
      obtain ⟨verified, core, status⟩ | ⟨differs, core, status⟩ :=
        (feed.track (feed.tracker.onUpdate msg.ids).1).applyContinuous_step msg
      · simp only [core, status]
        have step := UpdateStep.applied synced continues verified
        rwa [advanced] at step
      · simp only [core, status]
        have step := UpdateStep.mismatched synced continues differs
        rwa [advanced] at step

theorem handleMessage_step (feed : Feed S) (msg : DecodedMessage) :
    HandleStep feed.core msg (feed.handleMessage msg).1.core (feed.handleMessage msg).2 := by
  cases decoded : msg.ok with
  | false =>
    simp only [handleMessage, decoded, if_true]
    exact .rejected decoded
  | true =>
    simp only [handleMessage, decoded, Bool.true_eq_false, if_false]
    cases kind : msg.kind with
    | ignored => exact .ignored decoded kind
    | venueError => exact .venueError decoded kind
    | snapshot => exact .snapshot decoded kind (feed.applySnapshotMessage_step msg)
    | update => exact .update decoded kind (feed.applyUpdateMessage_step msg)

theorem handle_step (feed : Feed S) (frame : Bytes) :
    HandleStep feed.core (feed.decoder.decode frame) (feed.handle frame).1.core
      (feed.handle frame).2 :=
  handleMessage_step { feed with stats := { feed.stats with frames := feed.stats.frames + 1 } } _

theorem applySnapshot_step (feed : Feed S) (msg : DecodedMessage) :
    SnapshotStep feed.core msg (feed.applySnapshot msg).1.core (feed.applySnapshot msg).2 :=
  feed.applySnapshotMessage_step msg

omit [LawfulSideImpl S] in
theorem core_invalidate (feed : Feed S) (reason : DivergenceKind) :
    (feed.invalidate reason).core =
      { feed.core with tracker := feed.tracker.invalidate, synced := false } := by
  cases held : feed.synced <;> simp only [invalidate, held] <;> rfl

omit [LawfulSideImpl S] in
theorem checkStaleness_cases (feed : Feed S) (now maxGap : Timestamp) :
    ((feed.synced = true ∧ feed.lastTs ≠ 0 ∧ 0 < maxGap ∧ maxGap < now - feed.lastTs) ∧
      (feed.checkStaleness now maxGap).2 = true ∧
      (feed.checkStaleness now maxGap).1 = feed.invalidate .staleFeed) ∨
    (¬ (feed.synced = true ∧ feed.lastTs ≠ 0 ∧ 0 < maxGap ∧ maxGap < now - feed.lastTs) ∧
      feed.checkStaleness now maxGap = (feed, false)) := by
  unfold checkStaleness
  by_cases idle : feed.synced = false ∨ feed.lastTs = 0 ∨ maxGap ≤ 0
  · rw [if_pos idle]
    exact .inr ⟨by grind, rfl⟩
  · rw [if_neg idle]
    by_cases late : maxGap < now - feed.lastTs
    · rw [if_pos late]
      exact .inl ⟨by grind, rfl, rfl⟩
    · rw [if_neg late]
      exact .inr ⟨by grind, rfl⟩

end Feed

inductive FeedCall where
  | handle (frame : Bytes)
  | applySnapshot (msg : DecodedMessage)
  | invalidate (reason : DivergenceKind)
  | checkStaleness (now maxGap : Timestamp)
  deriving DecidableEq

def Feed.call (feed : Feed S) : FeedCall → Feed S
  | .handle frame => (feed.handle frame).1
  | .applySnapshot msg => (feed.applySnapshot msg).1
  | .invalidate reason => feed.invalidate reason
  | .checkStaleness now maxGap => (feed.checkStaleness now maxGap).1

def Feed.run (feed : Feed S) (calls : List FeedCall) : Feed S := calls.foldl Feed.call feed

def Feed.Reachable (feed : Feed S) : Prop :=
  ∃ (venue : Bytes) (decoder : Decoder) (policy : SequencePolicy) (depth : Nat)
    (calls : List FeedCall), feed = (Feed.new venue decoder policy depth).run calls

end Crossbook
