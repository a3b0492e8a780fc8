import Crossbook.Feed.Load

set_option autoImplicit false

namespace Crossbook

variable {S : Type} [SideImpl S] [LawfulSideImpl S]

/-- Only a decoded snapshot may replace the book, move the tracker or change the sync state. -/
def SnapshotGuarded (feed : Feed S) (msg : DecodedMessage) : Prop :=
  ¬ (msg.ok = true ∧ msg.kind = .snapshot) →
    (feed.applySnapshot msg).1.book = feed.book ∧
      (feed.applySnapshot msg).1.tracker = feed.tracker ∧
      (feed.applySnapshot msg).1.synced = feed.synced

namespace SnapshotStep

variable {c after : FeedCore S} {msg : DecodedMessage} {status : FeedStatus}

theorem of_failed (step : SnapshotStep c msg after status) (failed : msg.ok = false) : after = c := by
  cases step with
  | rejected _ => rfl
  | applied decoded _ => exact absurd (decoded.symm.trans failed) (by simp)
  | mismatched decoded _ => exact absurd (decoded.symm.trans failed) (by simp)

-- Whether a decoded message leaves the feed synced is decided by its checksum alone.
theorem synced_iff (step : SnapshotStep c msg after status) (decoded : msg.ok = true) :
    after.synced = true ↔ Verifies (c.rebuilt msg) msg := by
  cases step with
  | rejected failed => exact absurd (decoded.symm.trans failed) (by simp)
  | applied _ verified => exact ⟨fun _ => verified, fun _ => rfl⟩
  | mismatched _ differs => exact ⟨fun synced => absurd synced (by simp), fun h => absurd h differs⟩

theorem depth_eq (step : SnapshotStep c msg after status) : after.depth = c.depth := by
  cases step <;> rfl

end SnapshotStep

theorem guarded_of_failed (feed : Feed S) (msg : DecodedMessage) (failed : msg.ok = false) :
    SnapshotGuarded feed msg := by
  have same := (feed.applySnapshot_step msg).of_failed failed
  intro _
  exact ⟨congrArg FeedCore.book same, congrArg FeedCore.tracker same, congrArg FeedCore.synced same⟩

theorem verifies_rebuilt (a b : Feed S) (msg : DecodedMessage) (depth : a.depth = b.depth) :
    Verifies (a.core.rebuilt msg) msg ↔ Verifies (b.core.rebuilt msg) msg := by
  have same := BasicL2Book.krakenChecksum_rebuilt a.book b.book b.depth msg
  unfold Verifies FeedCore.rebuilt Feed.core
  simp only [depth, same]

theorem some_feed_unguarded (msg : DecodedMessage) (decoded : msg.ok = true)
    (other : msg.kind ≠ .snapshot) : ∃ feed : Feed S, feed.Reachable ∧ ¬ SnapshotGuarded feed msg := by
  -- From a synced feed or from a new one, a decoded message of any kind changes the sync state.
  let decoder : Decoder := ⟨⟨[], 0, 0⟩, fun _ => DecodedMessage.blank⟩
  let fresh : Feed S := Feed.new [] decoder .binanceSpot 0
  by_cases verified : Verifies (fresh.core.rebuilt msg) msg
  · refine ⟨fresh, ⟨[], decoder, .binanceSpot, 0, [], rfl⟩, ?_⟩
    intro guarded
    have unchanged := (guarded fun snapshot => other snapshot.2).2.2
    have synced := ((fresh.applySnapshot_step msg).synced_iff decoded).mpr verified
    exact absurd (unchanged.symm.trans synced) Bool.false_ne_true
  · let unchecked : DecodedMessage := { msg with kind := .snapshot, hasChecksum := false }
    let held : Feed S := (fresh.applySnapshot unchecked).1
    refine ⟨held, ⟨[], decoder, .binanceSpot, 0, [.applySnapshot unchecked], rfl⟩, ?_⟩
    intro guarded
    have synced : held.synced = true := by
      apply ((fresh.applySnapshot_step unchecked).synced_iff decoded).mpr
      intro carried
      exact absurd carried Bool.false_ne_true
    have unchanged := (guarded fun snapshot => other snapshot.2).2.2
    have same := verifies_rebuilt held fresh msg (fresh.applySnapshot_step unchecked).depth_eq
    have verifiedHeld := ((held.applySnapshot_step msg).synced_iff decoded).mp (unchanged.trans synced)
    exact verified (same.mp verifiedHeld)

/-- The out-of-band entry point protects the feed from exactly the failed decodes. -/
theorem applySnapshot_guarded_iff (msg : DecodedMessage) :
    (∀ feed : Feed S, feed.Reachable → SnapshotGuarded feed msg) ↔
      msg.ok = false ∨ msg.kind = .snapshot := by
  constructor
  · intro guarded
    by_contra unmet
    push Not at unmet
    obtain ⟨feed, reachable, unguarded⟩ :=
      some_feed_unguarded (S := S) msg (Bool.eq_true_of_not_eq_false unmet.1) unmet.2
    exact unguarded (guarded feed reachable)
  · intro met feed _
    cases decoded : msg.ok with
    | false => exact guarded_of_failed feed msg decoded
    | true =>
      intro different
      exact absurd ⟨decoded, met.resolve_left (by simp [decoded])⟩ different

def oneBid : DecodedMessage :=
  { DecodedMessage.blank with kind := .snapshot, levels := [⟨.bid, ⟨100⟩, ⟨5⟩⟩] }

def bidFeed : Feed MapSide :=
  (Feed.new [] ⟨⟨[], 0, 0⟩, fun _ => DecodedMessage.blank⟩ .binanceSpot 0).call
    (.applySnapshot oneBid)

-- An ignored frame given to the entry point empties a synced book and leaves it synced.
theorem ignored_frame_empties_book :
    bidFeed.Reachable ∧ bidFeed.synced = true ∧ bidFeed.book.best .bid = some ⟨⟨100⟩, ⟨5⟩⟩ ∧
      (bidFeed.applySnapshot DecodedMessage.blank).1.synced = true ∧
      (bidFeed.applySnapshot DecodedMessage.blank).1.book.best .bid = none ∧
      ¬ SnapshotGuarded bidFeed DecodedMessage.blank := by
  have before : bidFeed.book.best .bid = some ⟨⟨100⟩, ⟨5⟩⟩ := by decide
  have after : (bidFeed.applySnapshot DecodedMessage.blank).1.book.best .bid = none := by decide
  refine ⟨⟨_, _, _, _, [.applySnapshot oneBid], rfl⟩, rfl, before, rfl, after, ?_⟩
  intro guarded
  have unchanged := (guarded (by decide)).1
  rw [unchanged, before] at after
  exact absurd after (by simp)

end Crossbook
