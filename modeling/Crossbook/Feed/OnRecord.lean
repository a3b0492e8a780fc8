import Crossbook.Feed.MatchRate

set_option autoImplicit false

namespace Crossbook

namespace DivergenceKind

/-- The feed turned something away, and its book is none the worse for it. -/
def refusal : DivergenceKind → Bool
  | .malformedMessage => true
  | .precisionLoss => true
  | .venueError => true
  | _ => false

def loss : DivergenceKind → Bool
  | .checksumMismatch => true
  | .sequenceGap => true
  | .staleFeed => true
  | _ => false

end DivergenceKind

namespace DivergenceLog

structure Holds (log : DivergenceLog) (capacity : Nat) (all : List Divergence) : Prop where
  room : log.capacity = capacity
  entries : log.entries = all.take capacity
  dropped : log.dropped = all.length - capacity
  total : log.totalRecorded = all.length
  counts : ∀ kind, log.counts kind = all.countP (fun d => decide (d.kind = kind))

variable {log : DivergenceLog} {capacity : Nat} {all : List Divergence}

theorem new_holds (capacity : Nat) : (new capacity).Holds capacity [] where
  room := rfl
  entries := List.take_nil.symm
  dropped := (Nat.zero_sub capacity).symm
  total := rfl
  counts _ := rfl

theorem Holds.record (holds : log.Holds capacity all) (d : Divergence) :
    (log.record d).Holds capacity (all ++ [d]) where
  room := (capacity_record log d).trans holds.room
  entries := by
    have entries := holds.entries
    have kept : log.entries.length = min capacity all.length := by rw [entries, List.length_take]
    rw [DivergenceLog.record, holds.room, kept]
    by_cases room : all.length < capacity
    · rw [if_pos (by omega), List.take_of_length_le (by rw [List.length_append]; exact room)]
      change log.entries ++ [d] = _
      rw [entries, List.take_of_length_le (Nat.le_of_lt room)]
    · rw [if_neg (by omega), List.take_append_of_le_length (Nat.le_of_not_lt room)]
      exact entries
  dropped := by
    have dropped := holds.dropped
    have kept : log.entries.length = min capacity all.length := by
      rw [holds.entries, List.length_take]
    rw [DivergenceLog.record, holds.room, kept, List.length_append, List.length_singleton]
    by_cases room : all.length < capacity
    · rw [if_pos (by omega)]
      change log.dropped = _
      omega
    · rw [if_neg (by omega)]
      change log.dropped + 1 = _
      omega
  total := by
    rw [totalRecorded_record, holds.total, List.length_append, List.length_singleton]
  counts kind := by
    rw [counts_record, List.countP_append, List.countP_singleton, ← holds.counts]
    by_cases same : d.kind = kind
    · subst same
      simp
    · simp [Function.update_of_ne (Ne.symm same), same]

theorem Holds.recordVerified (holds : log.Holds capacity all) :
    log.recordVerified.Holds capacity all :=
  ⟨holds.room, holds.entries, holds.dropped, holds.total, holds.counts⟩

end DivergenceLog

variable {S : Type} [SideImpl S]

namespace Feed

/-- A feed went from one state to another and put these divergences on record, in this order. -/
structure Records (before : Feed S) (notes : List Divergence) (after : Feed S) : Prop where
  log : ∀ {capacity all}, before.log.Holds capacity all → after.log.Holds capacity (all ++ notes)
  venue : after.venue = before.venue
  sourced : ∀ d ∈ notes, d.venue = before.venue
  /-- What was compared is there to be compared again. -/
  reproducible : ∀ d ∈ notes, d.kind = .checksumMismatch →
    d.actual = (crc32 d.detail).toUInt64 ∧ d.expected ≠ d.actual
  refusals : after.stats.rejected + after.stats.levelsRejected =
    before.stats.rejected + before.stats.levelsRejected + notes.countP (fun d => d.kind.refusal)
  venueErrors : after.stats.venueErrors =
    before.stats.venueErrors + notes.countP (fun d => decide (d.kind = .venueError))
  mismatches : after.stats.checksumMismatches =
    before.stats.checksumMismatches + notes.countP (fun d => decide (d.kind = .checksumMismatch))
  resyncs : before.stats.resyncsRequested + notes.countP (fun d => d.kind.loss) ≤
    after.stats.resyncsRequested
  losses : before.synced = true → after.synced = false → ∃ d ∈ notes, d.kind.loss = true

namespace Records

variable {before middle after : Feed S} {notes more : List Divergence}

theorem trans (first : Records before notes middle) (second : Records middle more after) :
    Records before (notes ++ more) after where
  log holds := by
    rw [← List.append_assoc]
    exact second.log (first.log holds)
  venue := second.venue.trans first.venue
  sourced := List.forall_mem_append.mpr
    ⟨first.sourced, fun d member => (second.sourced d member).trans first.venue⟩
  reproducible := List.forall_mem_append.mpr ⟨first.reproducible, second.reproducible⟩
  refusals := by
    rw [List.countP_append, second.refusals, first.refusals, Nat.add_assoc]
  venueErrors := by
    rw [List.countP_append, second.venueErrors, first.venueErrors, Nat.add_assoc]
  mismatches := by
    rw [List.countP_append, second.mismatches, first.mismatches, Nat.add_assoc]
  resyncs := by
    have early := first.resyncs
    have late := second.resyncs
    rw [List.countP_append]
    omega
  losses held lost := by
    cases between : middle.synced with
    | false =>
      obtain ⟨d, member, loss⟩ := first.losses held between
      exact ⟨d, List.mem_append_left more member, loss⟩
    | true =>
      obtain ⟨d, member, loss⟩ := second.losses between lost
      exact ⟨d, List.mem_append_right notes member, loss⟩

def Counters (before after : FeedStats) : Prop :=
  after.rejected + after.levelsRejected = before.rejected + before.levelsRejected ∧
    after.venueErrors = before.venueErrors ∧
    after.checksumMismatches = before.checksumMismatches ∧
    before.resyncsRequested ≤ after.resyncsRequested

theorem quiet (log : ∀ {capacity all}, before.log.Holds capacity all → after.log.Holds capacity all)
    (venue : after.venue = before.venue) (counters : Counters before.stats after.stats)
    (kept : before.synced = true → after.synced = true) : Records before [] after where
  log holds := by
    rw [List.append_nil]
    exact log holds
  venue := venue
  sourced := List.forall_mem_nil _
  reproducible := List.forall_mem_nil _
  refusals := counters.1
  venueErrors := counters.2.1
  mismatches := counters.2.2.1
  resyncs := counters.2.2.2
  losses held lost := by simp [kept held] at lost

theorem still (log : after.log = before.log) (venue : after.venue = before.venue)
    (counters : Counters before.stats after.stats)
    (kept : before.synced = true → after.synced = true) : Records before [] after :=
  quiet (fun holds => log ▸ holds) venue counters kept

theorem refused {d : Divergence} (log : after.log = before.log.record d)
    (venue : after.venue = before.venue) (sourced : d.venue = before.venue)
    (refusal : d.kind.refusal = true)
    (refusals : after.stats.rejected + after.stats.levelsRejected =
      before.stats.rejected + before.stats.levelsRejected + 1)
    (venueErrors : after.stats.venueErrors =
      before.stats.venueErrors + if d.kind = .venueError then 1 else 0)
    (others : after.stats.checksumMismatches = before.stats.checksumMismatches ∧
      after.stats.resyncsRequested = before.stats.resyncsRequested)
    (kept : after.synced = before.synced) : Records before [d] after where
  log holds := log ▸ holds.record d
  venue := venue
  sourced := List.forall_mem_singleton.mpr sourced
  reproducible := by
    refine List.forall_mem_singleton.mpr fun kind => ?_
    simp [kind, DivergenceKind.refusal] at refusal
  refusals := by rw [refusals, List.countP_singleton, if_pos refusal]
  venueErrors := by simpa [List.countP_singleton] using venueErrors
  mismatches := by
    have other : d.kind ≠ .checksumMismatch := fun kind => by
      simp [kind, DivergenceKind.refusal] at refusal
    simp [others.1, other]
  resyncs := by
    have other : d.kind.loss = false := by
      generalize d.kind = kind at refusal
      cases kind <;> simp_all [DivergenceKind.refusal, DivergenceKind.loss]
    rw [List.countP_singleton, other, if_neg Bool.false_ne_true]
    exact others.2.ge
  losses held lost := by simp [kept, held] at lost

theorem lost {d : Divergence} (log : after.log = before.log.record d)
    (venue : after.venue = before.venue) (sourced : d.venue = before.venue)
    (loss : d.kind.loss = true)
    (reproducible : d.kind = .checksumMismatch →
      d.actual = (crc32 d.detail).toUInt64 ∧ d.expected ≠ d.actual)
    (others : after.stats.rejected + after.stats.levelsRejected =
      before.stats.rejected + before.stats.levelsRejected ∧
      after.stats.venueErrors = before.stats.venueErrors)
    (mismatches : after.stats.checksumMismatches =
      before.stats.checksumMismatches + if d.kind = .checksumMismatch then 1 else 0)
    (resyncs : after.stats.resyncsRequested = before.stats.resyncsRequested + 1) :
    Records before [d] after where
  log holds := log ▸ holds.record d
  venue := venue
  sourced := List.forall_mem_singleton.mpr sourced
  reproducible := List.forall_mem_singleton.mpr reproducible
  refusals := by
    have other : d.kind.refusal = false := by
      generalize d.kind = kind at loss
      cases kind <;> simp_all [DivergenceKind.refusal, DivergenceKind.loss]
    rw [others.1, List.countP_singleton, other, if_neg Bool.false_ne_true, Nat.add_zero]
  venueErrors := by
    have other : d.kind ≠ .venueError := fun kind => by simp [kind, DivergenceKind.loss] at loss
    simp [others.2, other]
  mismatches := by simpa [List.countP_singleton] using mismatches
  resyncs := by rw [resyncs, List.countP_singleton, if_pos loss]
  losses _ _ := ⟨d, List.mem_singleton_self d, loss⟩

end Records

/-- What became of the book between two states is on record. -/
def Explained (before after : Feed S) : Prop := ∃ notes, before.Records notes after

theorem Explained.trans {before middle after : Feed S} (first : before.Explained middle)
    (second : middle.Explained after) : before.Explained after := by
  obtain ⟨notes, early⟩ := first
  obtain ⟨more, late⟩ := second
  exact ⟨notes ++ more, early.trans late⟩

section Steps

theorem settle_explained (feed : Feed S) (msg : DecodedMessage) :
    feed.Explained (feed.settle msg).1 := by
  cases carried : msg.hasChecksum with
  | false =>
    simp only [settle, carried, Bool.false_eq_true, if_false]
    exact ⟨[], .still rfl rfl ⟨rfl, rfl, rfl, le_rfl⟩ id⟩
  | true =>
    by_cases same : krakenChecksum feed.book = msg.checksum
    · simp only [settle, carried, if_true, verifyChecksum, same]
      exact ⟨[], .quiet DivergenceLog.Holds.recordVerified rfl ⟨rfl, rfl, rfl, le_rfl⟩ id⟩
    · simp only [settle, carried, if_true, verifyChecksum, same, if_false, Bool.false_eq_true]
      refine ⟨[_], .lost rfl rfl rfl rfl (fun _ => ⟨rfl, ?_⟩) ⟨rfl, rfl⟩ rfl rfl⟩
      intro equal
      exact same (UInt32.toUInt64_inj.mp equal).symm

theorem anchor_explained (feed : Feed S) (msg : DecodedMessage) :
    feed.Explained (feed.anchor msg).countSnapshot := by
  unfold anchor
  split <;> exact ⟨[], .still rfl rfl ⟨rfl, rfl, rfl, le_rfl⟩ fun _ => rfl⟩

theorem invalidate_explained (feed : Feed S) : feed.Explained (feed.invalidate .staleFeed) := by
  unfold invalidate
  cases held : feed.synced with
  | false =>
    simp only [Bool.false_eq_true, if_false]
    exact ⟨[], .still rfl rfl ⟨rfl, rfl, rfl, Nat.le_succ _⟩ fun synced => by simp [held] at synced⟩
  | true =>
    simp only [if_true]
    exact ⟨[_], .lost rfl rfl rfl rfl (fun kind => by contradiction) ⟨rfl, rfl⟩ rfl rfl⟩

variable [LawfulSideImpl S]

theorem applyLevel_explained (feed : Feed S) (msg : DecodedMessage) (lvl : LevelUpdate) :
    feed.Explained (applyLevel msg feed lvl) := by
  unfold applyLevel
  dsimp only
  split
  · exact ⟨[], .still rfl rfl ⟨rfl, rfl, rfl, le_rfl⟩ id⟩
  · exact ⟨[_], .refused rfl rfl rfl rfl rfl rfl ⟨rfl, rfl⟩ rfl⟩

theorem applyLevels_explained (feed : Feed S) (msg : DecodedMessage) :
    feed.Explained (feed.applyLevels msg) := by
  unfold applyLevels
  induction msg.levels generalizing feed with
  | nil => exact ⟨[], .still rfl rfl ⟨rfl, rfl, rfl, le_rfl⟩ id⟩
  | cons lvl rest ih => exact (feed.applyLevel_explained msg lvl).trans (ih _)

theorem accept_explained (feed : Feed S) (msg : DecodedMessage) :
    feed.Explained ((feed.applyLevels msg).trimBook.stamp msg.ts) :=
  (feed.applyLevels_explained msg).trans ⟨[], .still rfl rfl ⟨rfl, rfl, rfl, le_rfl⟩ id⟩

theorem applySnapshotMessage_explained (feed : Feed S) (msg : DecodedMessage) :
    feed.Explained (feed.applySnapshotMessage msg).1 := by
  unfold applySnapshotMessage
  split
  · exact ⟨[_], .refused rfl rfl rfl rfl (Nat.succ_add _ _) rfl ⟨rfl, rfl⟩ rfl⟩
  · have cleared : feed.Explained { feed with book := feed.book.clear } :=
      ⟨[], .still rfl rfl ⟨rfl, rfl, rfl, le_rfl⟩ id⟩
    exact ((cleared.trans (accept_explained _ msg)).trans (anchor_explained _ msg)).trans
      (settle_explained _ msg)

theorem applyContinuous_explained (feed : Feed S) (msg : DecodedMessage) :
    feed.Explained (feed.applyContinuous msg).1 := by
  have counted (loaded : Feed S) : loaded.Explained loaded.countApplied :=
    ⟨[], .still rfl rfl ⟨rfl, rfl, rfl, le_rfl⟩ id⟩
  exact ((feed.accept_explained msg).trans (counted _)).trans (settle_explained _ msg)

theorem applyUpdateMessage_explained (feed : Feed S) (msg : DecodedMessage) :
    feed.Explained (feed.applyUpdateMessage msg).1 := by
  unfold applyUpdateMessage
  split
  · exact ⟨[], .still rfl rfl ⟨rfl, rfl, rfl, le_rfl⟩ id⟩
  · split
    · dsimp only
      split
      · exact ⟨[], .still rfl rfl ⟨rfl, rfl, rfl, le_rfl⟩ id⟩
      · exact ⟨[_], .lost rfl rfl rfl rfl (fun kind => by contradiction) ⟨rfl, rfl⟩ rfl rfl⟩
      · have tracked : feed.Explained (feed.track (feed.tracker.onUpdate msg.ids).1) :=
          ⟨[], .still rfl rfl ⟨rfl, rfl, rfl, le_rfl⟩ id⟩
        exact tracked.trans (applyContinuous_explained _ msg)
    · exact feed.applyContinuous_explained msg

theorem handleMessage_explained (feed : Feed S) (msg : DecodedMessage) :
    feed.Explained (feed.handleMessage msg).1 := by
  unfold handleMessage
  split
  · cases spelling : msg.error == .precisionLoss || msg.error == .nonCanonical with
    | false => exact ⟨[_], .refused rfl rfl rfl rfl (Nat.succ_add _ _) rfl ⟨rfl, rfl⟩ rfl⟩
    | true => exact ⟨[_], .refused rfl rfl rfl rfl (Nat.succ_add _ _) rfl ⟨rfl, rfl⟩ rfl⟩
  · split
    · exact ⟨[], .still rfl rfl ⟨rfl, rfl, rfl, le_rfl⟩ id⟩
    · exact ⟨[_], .refused rfl rfl rfl rfl (Nat.succ_add _ _) rfl ⟨rfl, rfl⟩ rfl⟩
    · exact feed.applySnapshotMessage_explained msg
    · exact feed.applyUpdateMessage_explained msg

theorem call_explained (feed : Feed S) (call : FeedCall)
    (stale : ∀ reason, call = .invalidate reason → reason = .staleFeed) :
    feed.Explained (feed.call call) := by
  cases call with
  | handle frame =>
    have framed : feed.Explained
        { feed with stats := { feed.stats with frames := feed.stats.frames + 1 } } :=
      ⟨[], .still rfl rfl ⟨rfl, rfl, rfl, le_rfl⟩ id⟩
    exact framed.trans (handleMessage_explained _ _)
  | applySnapshot msg => exact feed.applySnapshotMessage_explained msg
  | invalidate reason =>
    obtain rfl := stale reason rfl
    exact feed.invalidate_explained
  | checkStaleness now maxGap =>
    change feed.Explained (feed.checkStaleness now maxGap).1
    obtain ⟨-, -, lost⟩ | ⟨-, fresh⟩ := feed.checkStaleness_cases now maxGap
    · rw [lost]
      exact feed.invalidate_explained
    · rw [fresh]
      exact ⟨[], .still rfl rfl ⟨rfl, rfl, rfl, le_rfl⟩ id⟩

theorem run_explained (feed : Feed S) (calls : List FeedCall)
    (stale : ∀ reason, .invalidate reason ∈ calls → reason = .staleFeed) :
    feed.Explained (feed.run calls) := by
  induction calls generalizing feed with
  | nil => exact ⟨[], .still rfl rfl ⟨rfl, rfl, rfl, le_rfl⟩ id⟩
  | cons call rest ih =>
    have first := feed.call_explained call fun reason same => stale reason (by simp [same])
    exact first.trans (ih _ fun reason member => stale reason (List.mem_cons_of_mem call member))

end Steps

end Feed

/-- Nothing goes wrong off the record. Between any two points of a run, whatever cost the feed its
book and whatever it turned away is in the log with its cause, in order and in step with the
counters, and a mismatch with the text that was summed; the log keeps the first divergences and
counts the rest. -/
theorem divergences_on_record [LawfulSideImpl S] (venue : Bytes) (decoder : Decoder)
    (policy : SequencePolicy) (depth : Nat) (early late : List FeedCall)
    (stale : ∀ reason, .invalidate reason ∈ early ++ late → reason = .staleFeed) :
    let start : Feed S := Feed.new venue decoder policy depth
    ∃ noted more, start.Records noted (start.run early) ∧
      (start.run early).Records more (start.run (early ++ late)) ∧
      (start.run early).log.Holds DivergenceLog.kDefaultCapacity noted ∧
      (start.run (early ++ late)).log.Holds DivergenceLog.kDefaultCapacity (noted ++ more) := by
  intro start
  obtain ⟨noted, first⟩ := start.run_explained early
    fun reason member => stale reason (List.mem_append_left late member)
  obtain ⟨more, second⟩ := (start.run early).run_explained late
    fun reason member => stale reason (List.mem_append_right early member)
  have whole : start.run (early ++ late) = (start.run early).run late := List.foldl_append ..
  have held := first.log (DivergenceLog.new_holds DivergenceLog.kDefaultCapacity)
  refine ⟨noted, more, first, whole ▸ second, held, ?_⟩
  rw [whole]
  exact second.log held

theorem divergences_on_record_reconnect :
    let start : Feed MapSide :=
      Feed.new [] ⟨⟨[], 0, 0⟩, fun _ => DecodedMessage.blank⟩ .binanceSpot 0
    ∃ noted more, start.Records noted (start.run verifiedThenMismatched) ∧
      (start.run verifiedThenMismatched).Records more
        (start.run (verifiedThenMismatched ++ [.checkStaleness 9 1])) ∧
      (start.run verifiedThenMismatched).log.Holds DivergenceLog.kDefaultCapacity noted ∧
      (start.run (verifiedThenMismatched ++ [.checkStaleness 9 1])).log.Holds
        DivergenceLog.kDefaultCapacity (noted ++ more) := by
  refine divergences_on_record [] ⟨⟨[], 0, 0⟩, fun _ => DecodedMessage.blank⟩ .binanceSpot 0
    verifiedThenMismatched [.checkStaleness 9 1] ?_
  intro reason member
  simpa [verifiedThenMismatched] using member

end Crossbook
