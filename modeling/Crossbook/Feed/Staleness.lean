import Crossbook.Feed.Steps

set_option autoImplicit false

namespace Crossbook

-- A feed with the timestamps of the messages applied since the snapshot it synced on, that
-- snapshot's first.
structure Stamped (S : Type) [SideImpl S] where
  feed : Feed S
  stamps : List Timestamp

variable {S : Type} [SideImpl S] [LawfulSideImpl S]

namespace Stamped

def new (venue : Bytes) (decoder : Decoder) (policy : SequencePolicy) (depth : Nat) : Stamped S :=
  ⟨Feed.new venue decoder policy depth, []⟩

def call (w : Stamped S) (c : FeedCall) : Stamped S where
  feed := w.feed.call c
  stamps :=
    match c with
    | .handle frame =>
      let msg := w.feed.decoder.decode frame
      if (w.feed.handle frame).2 = .applied then
        if msg.kind = .snapshot then [msg.ts] else w.stamps ++ [msg.ts]
      else w.stamps
    | .applySnapshot msg =>
      if (w.feed.applySnapshot msg).2 = .applied then [msg.ts] else w.stamps
    | _ => w.stamps

def run (w : Stamped S) (calls : List FeedCall) : Stamped S := calls.foldl call w

/-- A timestamp that is unusable, or older than `now - maxGap`. -/
def Outdated (now maxGap ts : Timestamp) : Prop :=
  ts = 0 ∨ (maxGap.toInt < now.toInt - ts.toInt ∧ now.toInt - ts.toInt < 2 ^ 63)

/-- Nothing applied since the snapshot shows that the feed is still alive. -/
structure Dead (w : Stamped S) (now maxGap : Timestamp) : Prop where
  synced : w.feed.synced = true
  gap : 0 < maxGap
  outdated : ∀ ts ∈ w.stamps, Outdated now maxGap ts

def Detected (w : Stamped S) (now maxGap : Timestamp) : Prop :=
  (w.feed.checkStaleness now maxGap).2 = true ∧
    (w.feed.checkStaleness now maxGap).1.synced = false

omit [LawfulSideImpl S] in
def Tracks (w : Stamped S) : Prop :=
  w.feed.synced = true → w.stamps.getLast? = some w.feed.lastTs

end Stamped

theorem SnapshotStep.clock {c after : FeedCore S} {msg : DecodedMessage} {status : FeedStatus}
    (step : SnapshotStep c msg after status) :
    (status = .applied ∧ after.lastTs = msg.ts) ∨
      (status ≠ .applied ∧ (after.synced = true → c.synced = true ∧ after.lastTs = c.lastTs)) := by
  cases step with
  | rejected _ => exact .inr ⟨by simp, fun synced => ⟨synced, rfl⟩⟩
  | applied _ _ => exact .inl ⟨rfl, rfl⟩
  | mismatched _ _ => exact .inr ⟨by simp, by simp⟩

theorem UpdateStep.clock {c after : FeedCore S} {msg : DecodedMessage} {status : FeedStatus}
    (step : UpdateStep c msg after status) :
    (status = .applied ∧ after.lastTs = msg.ts) ∨
      (status ≠ .applied ∧ (after.synced = true → c.synced = true ∧ after.lastTs = c.lastTs)) := by
  cases step with
  | unsynced _ | stale _ _ _ => exact .inr ⟨by simp, fun synced => ⟨synced, rfl⟩⟩
  | gap _ _ _ | mismatched _ _ _ => exact .inr ⟨by simp, by simp⟩
  | applied _ _ _ => exact .inl ⟨rfl, rfl⟩

theorem HandleStep.clock {c after : FeedCore S} {msg : DecodedMessage} {status : FeedStatus}
    (step : HandleStep c msg after status) :
    (status = .applied ∧ after.lastTs = msg.ts) ∨
      (status ≠ .applied ∧ (after.synced = true → c.synced = true ∧ after.lastTs = c.lastTs)) := by
  cases step with
  | rejected _ | ignored _ _ | venueError _ _ => exact .inr ⟨by simp, fun synced => ⟨synced, rfl⟩⟩
  | snapshot _ _ step => exact step.clock
  | update _ _ step => exact step.clock

namespace Stamped

theorem call_tracks (w : Stamped S) (c : FeedCall) (tracks : w.Tracks) : (w.call c).Tracks := by
  intro synced
  cases c with
  | handle frame =>
    obtain ⟨applied, clock⟩ | ⟨other, kept⟩ := (w.feed.handle_step frame).clock
    · have last : (w.call (.handle frame)).feed.lastTs = (w.feed.decoder.decode frame).ts := clock
      rw [last]
      simp only [call, applied, if_true]
      split <;> simp
    · obtain ⟨held, clock⟩ := kept synced
      have last : (w.call (.handle frame)).feed.lastTs = w.feed.lastTs := clock
      rw [last]
      simpa only [call, other, if_false] using tracks held
  | applySnapshot msg =>
    obtain ⟨applied, clock⟩ | ⟨other, kept⟩ := (w.feed.applySnapshot_step msg).clock
    · have last : (w.call (.applySnapshot msg)).feed.lastTs = msg.ts := clock
      rw [last]
      simp [call, applied]
    · obtain ⟨held, clock⟩ := kept synced
      have last : (w.call (.applySnapshot msg)).feed.lastTs = w.feed.lastTs := clock
      rw [last]
      simpa only [call, other, if_false] using tracks held
  | invalidate reason =>
    have lost : (w.feed.invalidate reason).synced = false :=
      congrArg FeedCore.synced (w.feed.core_invalidate reason)
    exact absurd (synced.symm.trans lost) (by simp)
  | checkStaleness now maxGap =>
    obtain ⟨-, -, same⟩ | ⟨-, same⟩ := w.feed.checkStaleness_cases now maxGap
    · have lost : (w.feed.checkStaleness now maxGap).1.synced = false := by
        rw [same]
        exact congrArg FeedCore.synced (w.feed.core_invalidate .staleFeed)
      exact absurd (synced.symm.trans lost) (by simp)
    · have unchanged : (w.call (.checkStaleness now maxGap)).feed = w.feed := congrArg Prod.fst same
      rw [unchanged] at synced ⊢
      exact tracks synced

theorem run_tracks (venue : Bytes) (decoder : Decoder) (policy : SequencePolicy) (depth : Nat)
    (calls : List FeedCall) : ((new venue decoder policy depth : Stamped S).run calls).Tracks := by
  apply Run.foldl_invariant call_tracks
  intro synced
  exact absurd synced (by simp [new, Feed.new])

omit [LawfulSideImpl S] in
theorem detected_iff (w : Stamped S) (now maxGap : Timestamp) (tracks : w.Tracks)
    (dead : w.Dead now maxGap) : w.Detected now maxGap ↔ w.stamps.getLast? ≠ some 0 := by
  have last := tracks dead.synced
  have member : w.feed.lastTs ∈ w.stamps := List.mem_of_getLast? last
  rw [last]
  unfold Detected
  obtain ⟨met, found, same⟩ | ⟨unmet, same⟩ := w.feed.checkStaleness_cases now maxGap
  · rw [found, same]
    have lost : (w.feed.invalidate .staleFeed).synced = false :=
      congrArg FeedCore.synced (w.feed.core_invalidate .staleFeed)
    simp [lost, met.2.1]
  · rw [same]
    have unusable : w.feed.lastTs = 0 := by
      by_contra usable
      obtain ⟨late, fits⟩ := (dead.outdated _ member).resolve_left usable
      have positive : 0 ≤ maxGap.toInt := by
        have gap := Int64.lt_iff_toInt_lt.mp dead.gap
        simpa using gap.le
      have difference := MachineInt.toInt_sub_of_fits now w.feed.lastTs (by omega) fits
      apply unmet ⟨dead.synced, usable, dead.gap, ?_⟩
      rw [Int64.lt_iff_toInt_lt, difference]
      exact late
    simp [unusable]

end Stamped

/-- A dead feed is reported exactly when the last message applied to it had a usable timestamp. -/
theorem dead_feed_detected_iff (venue : Bytes) (decoder : Decoder) (policy : SequencePolicy)
    (depth : Nat) (calls : List FeedCall) (now maxGap : Timestamp)
    (dead : ((Stamped.new venue decoder policy depth : Stamped S).run calls).Dead now maxGap) :
    ((Stamped.new venue decoder policy depth : Stamped S).run calls).Detected now maxGap ↔
      ((Stamped.new venue decoder policy depth : Stamped S).run calls).stamps.getLast? ≠ some 0 :=
  Stamped.detected_iff _ now maxGap (Stamped.run_tracks venue decoder policy depth calls) dead

def stampedSnapshot (ts : Timestamp) : DecodedMessage :=
  { DecodedMessage.blank with kind := .snapshot, ts := ts }

def quietFeed (ts : Timestamp) : Stamped MapSide :=
  (Stamped.new [] ⟨⟨[], 0, 0⟩, fun _ => DecodedMessage.blank⟩ .binanceSpot 0).run
    [.applySnapshot (stampedSnapshot ts)]

theorem quietFeed_stamps (ts : Timestamp) : (quietFeed ts).stamps = [ts] := rfl

theorem dead_feed_detected_iff_old_snapshot :
    (quietFeed 5).Detected 1000 10 ↔ (quietFeed 5).stamps.getLast? ≠ some 0 := by
  apply dead_feed_detected_iff
  refine ⟨rfl, by decide, ?_⟩
  intro ts member
  change ts ∈ (quietFeed 5).stamps at member
  rw [quietFeed_stamps] at member
  obtain rfl := List.mem_singleton.mp member
  exact .inr (by decide)

-- A feed synced on a snapshot without a timestamp, and silent ever since.
theorem quiet_feed_undetected :
    (quietFeed 0).Dead 1000000000000000000 1000000000 ∧
      ¬ (quietFeed 0).Detected 1000000000000000000 1000000000 := by
  refine ⟨⟨rfl, by decide, ?_⟩, fun detected => absurd detected.1 (by decide)⟩
  intro ts member
  rw [quietFeed_stamps] at member
  exact .inl (List.mem_singleton.mp member)

end Crossbook
