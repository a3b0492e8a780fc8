import Crossbook.Feed.Load

set_option autoImplicit false

namespace Crossbook

variable {S : Type} [SideImpl S] [LawfulSideImpl S]

structure VenueSide (s : Side) where
  levels : List Level
  ordered : BookOrder s levels
  resting : ∀ level ∈ levels, 0 ≤ level.price.ticks ∧ 0 < level.qty.units

abbrev Venue := (s : Side) → VenueSide s

def Venue.top (venue : Venue) (depth : Nat) (s : Side) : List Level := (venue s).levels.take depth

def Venue.checksum (venue : Venue) (depth : Nat) : UInt32 :=
  crc32
    (((venue.top depth .ask).take kKrakenChecksumDepth).flatMap writeLevel ++
      ((venue.top depth .bid).take kKrakenChecksumDepth).flatMap writeLevel)

def RightChecksum (depth : Nat) (venue : Venue) (msg : DecodedMessage) : Prop :=
  msg.hasChecksum = true → msg.checksum = venue.checksum depth

structure TopSnapshot (depth : Nat) (venue : Venue) (msg : DecodedMessage) : Prop where
  listed : ∀ s, ∀ level ∈ venue.top depth s, ⟨s, level.price, level.qty⟩ ∈ msg.levels
  only : ∀ lvl ∈ msg.levels, ⟨lvl.price, lvl.qty⟩ ∈ venue.top depth lvl.side
  checksum : RightChecksum depth venue msg

/-- A change of the venue's book as a top-of-book subscription reports it: the levels that are new
or different in the top, and a zero for those of the old top that are gone. A level that is merely
pushed out of the top is not mentioned. -/
structure TopUpdate (depth : Nat) (before after : Venue) (msg : DecodedMessage) : Prop where
  placed : ∀ s, ∀ level ∈ after.top depth s, level ∉ before.top depth s →
    ⟨s, level.price, level.qty⟩ ∈ msg.levels
  removed : ∀ s, ∀ level ∈ before.top depth s,
    (∀ other ∈ (after s).levels, other.price ≠ level.price) → ⟨s, level.price, ⟨0⟩⟩ ∈ msg.levels
  only : ∀ lvl ∈ msg.levels,
    (⟨lvl.price, lvl.qty⟩ ∈ after.top depth lvl.side ∧
      ⟨lvl.price, lvl.qty⟩ ∉ before.top depth lvl.side) ∨
    (lvl.qty = ⟨0⟩ ∧ (∃ level ∈ before.top depth lvl.side, level.price = lvl.price) ∧
      ∀ other ∈ (after lvl.side).levels, other.price ≠ lvl.price)
  checksum : RightChecksum depth after msg

def Mirrors (depth : Nat) (venue : Venue) (book : BasicL2Book S) : Prop :=
  ∀ s, book.levels s = venue.top depth s

theorem Venue.top_ordered (venue : Venue) (depth : Nat) (s : Side) :
    BookOrder s (venue.top depth s) :=
  (venue s).ordered.sublist (List.take_sublist depth _)

theorem Venue.mem_of_top {venue : Venue} {depth : Nat} {s : Side} {level : Level}
    (member : level ∈ venue.top depth s) : level ∈ (venue s).levels :=
  List.mem_of_mem_take member

-- A level of the venue outside the top comes after a full top.
theorem Venue.beyond_top {venue : Venue} {depth : Nat} {s : Side} {level : Level}
    (member : level ∈ (venue s).levels) (outside : level ∉ venue.top depth s) :
    (venue.top depth s).length = depth ∧
      ∀ other ∈ venue.top depth s, precedes s other.price.ticks level.price.ticks = true := by
  have split : (venue s).levels = venue.top depth s ++ (venue s).levels.drop depth :=
    (List.take_append_drop depth _).symm
  have beyond : level ∈ (venue s).levels.drop depth := by
    rw [split] at member
    exact (List.mem_append.mp member).resolve_left outside
  have ordered := (venue s).ordered
  rw [split] at ordered
  have full := List.length_pos_of_mem beyond
  rw [List.length_drop] at full
  refine ⟨?_, fun other inside => (List.pairwise_append.mp ordered).2.2 other inside level beyond⟩
  rw [Venue.top, List.length_take]
  omega

theorem Venue.price_nonneg {venue : Venue} {depth : Nat} {s : Side} {level : Level}
    (member : level ∈ venue.top depth s) : 0 ≤ level.price.ticks ∧ 0 < level.qty.units :=
  (venue s).resting level (Venue.mem_of_top member)

theorem stored_of_resting {qty : Qty} (resting : 0 < qty.units) :
    BasicL2Book.stored qty = some qty.units := by
  have nonzero : qty.isZero = false := by
    unfold Qty.isZero
    grind
  simp [BasicL2Book.stored, nonzero]

theorem qtyAt_of_mirrors {depth : Nat} {venue : Venue} {book : BasicL2Book S}
    (mirrors : Mirrors depth venue book) {s : Side} {level : Level} :
    level ∈ venue.top depth s ↔ book.qtyAt s level.price.ticks = some level.qty.units := by
  rw [← mirrors s, BasicL2Book.mem_levels]

theorem price_eq_of_ticks {a b : Price} (same : a.ticks = b.ticks) : a = b := by
  cases a
  cases b
  exact congrArg Price.mk same

namespace TopUpdate

variable {depth : Nat} {before after : Venue} {msg : DecodedMessage} {book : BasicL2Book S} {s : Side}
  {level : Level}

theorem qtyAt_top (update : TopUpdate depth before after msg) (mirrors : Mirrors depth before book)
    (member : level ∈ after.top depth s) :
    (book.load msg.levels).qtyAt s level.price.ticks = some level.qty.units := by
  have resting := Venue.price_nonneg member
  by_cases listed : BasicL2Book.Lists msg.levels s level.price.ticks
  · rw [← stored_of_resting resting.2]
    apply BasicL2Book.qtyAt_load_listed _ _ _ _ _ listed
    intro lvl inside side price
    subst side
    have price := price_eq_of_ticks price
    rcases update.only lvl inside with ⟨shown, -⟩ | ⟨-, -, gone⟩
    · have same := (after.top_ordered depth lvl.side).eq_of_price shown member price
      have qty : lvl.qty = level.qty := congrArg Level.qty same
      refine ⟨qty, ?_, ?_⟩
      · rw [price]
        exact resting.1
      · rw [qty]
        exact resting.2.le
    · exact absurd price.symm (gone level (Venue.mem_of_top member))
  · rw [BasicL2Book.qtyAt_load_unlisted _ _ _ _ listed, ← qtyAt_of_mirrors mirrors]
    by_contra fresh
    exact listed ⟨_, update.placed s level member fresh, rfl, rfl⟩

theorem resting_of_qtyAt (update : TopUpdate depth before after msg)
    (mirrors : Mirrors depth before book)
    (held : (book.load msg.levels).qtyAt s level.price.ticks = some level.qty.units)
    (outside : ∀ other ∈ after.top depth s, other.price ≠ level.price) :
    ∃ other ∈ (after s).levels, other.price = level.price := by
  by_contra gone
  push Not at gone
  by_cases listed : BasicL2Book.Lists msg.levels s level.price.ticks
  · have removed : (book.load msg.levels).qtyAt s level.price.ticks = BasicL2Book.stored ⟨0⟩ := by
      apply BasicL2Book.qtyAt_load_listed _ _ _ _ _ listed
      intro lvl inside side price
      subst side
      have price := price_eq_of_ticks price
      rcases update.only lvl inside with ⟨shown, -⟩ | ⟨zero, ⟨old, shown, same⟩, -⟩
      · exact absurd price (outside _ shown)
      · refine ⟨zero, ?_, ?_⟩
        · rw [← same]
          exact (Venue.price_nonneg shown).1
        · rw [zero]
    rw [removed] at held
    exact absurd held (by simp [BasicL2Book.stored, Qty.isZero])
  · rw [BasicL2Book.qtyAt_load_unlisted _ _ _ _ listed, ← qtyAt_of_mirrors mirrors] at held
    exact listed ⟨_, update.removed s level held gone, rfl, rfl⟩

theorem take_load (update : TopUpdate depth before after msg) (mirrors : Mirrors depth before book)
    (s : Side) : ((book.load msg.levels).levels s).take depth = after.top depth s := by
  have beyond : ∀ level ∈ (book.load msg.levels).levels s, level ∉ after.top depth s →
      ∃ other ∈ (after s).levels, other ∉ after.top depth s ∧ other.price = level.price := by
    intro level member hidden
    have held := ((book.load msg.levels).mem_levels s level).mp member
    have outside : ∀ other ∈ after.top depth s, other.price ≠ level.price := by
      intro other shown same
      have placed := update.qtyAt_top mirrors shown
      have inside := ((book.load msg.levels).mem_levels s other).mpr placed
      have equal := ((book.load msg.levels).levels_bookOrder s).eq_of_price inside member same
      exact hidden (equal ▸ shown)
    obtain ⟨other, resting, same⟩ := update.resting_of_qtyAt mirrors held outside
    exact ⟨other, resting, fun shown => outside other shown same, same⟩
  obtain ⟨rest, split, others⟩ := SortedList.starts_with
    (R := fun a b : Level => precedes s a.price.ticks b.price.ticks = true)
    (by simp [precedes_irrefl]) (fun a b c => precedes_trans s _ _ _)
    ((book.load msg.levels).levels_bookOrder s) (after.top_ordered depth s)
    (fun level shown => ((book.load msg.levels).mem_levels s level).mpr
      (update.qtyAt_top mirrors shown))
    (by
      intro level member hidden first shown
      obtain ⟨other, resting, unseen, same⟩ := beyond level member hidden
      rw [← same]
      exact (Venue.beyond_top resting unseen).2 first shown)
  rw [split]
  cases rest with
  | nil =>
    rw [List.append_nil]
    exact List.take_of_length_le (List.length_take_le _ _)
  | cons level rest =>
    obtain ⟨member, hidden⟩ := others level (by simp)
    obtain ⟨other, resting, unseen, -⟩ := beyond level member hidden
    have full := (Venue.beyond_top resting unseen).1
    exact List.take_left' full

end TopUpdate

theorem TopSnapshot.levels_load {depth : Nat} {venue : Venue} {msg : DecodedMessage}
    (snapshot : TopSnapshot depth venue msg) (book : BasicL2Book S) (s : Side) :
    (book.clear.load msg.levels).levels s = venue.top depth s := by
  apply ((book.clear.load msg.levels).levels_bookOrder s).eq_of_mem_iff (venue.top_ordered depth s)
  intro level
  rw [BasicL2Book.mem_levels]
  have loaded : ∀ shown ∈ venue.top depth s,
      (book.clear.load msg.levels).qtyAt s shown.price.ticks = some shown.qty.units := by
    intro shown member
    have resting := Venue.price_nonneg member
    rw [← stored_of_resting resting.2]
    apply BasicL2Book.qtyAt_load_listed
    · exact ⟨_, snapshot.listed s shown member, rfl, rfl⟩
    · intro lvl inside side price
      subst side
      have price := price_eq_of_ticks price
      have same := (venue.top_ordered depth lvl.side).eq_of_price (snapshot.only lvl inside) member price
      have qty : lvl.qty = shown.qty := congrArg Level.qty same
      refine ⟨qty, ?_, ?_⟩
      · rw [price]
        exact resting.1
      · rw [qty]
        exact resting.2.le
  constructor
  · intro held
    -- A level the snapshot does not list went with the old book.
    by_cases listed : BasicL2Book.Lists msg.levels s level.price.ticks
    · obtain ⟨lvl, inside, side, price⟩ := listed
      subst side
      have shown := snapshot.only lvl inside
      have placed := loaded _ shown
      have price := price_eq_of_ticks price
      simp only [price] at placed shown
      rw [held] at placed
      have units := Option.some.inj placed
      rcases level with ⟨_, ⟨_⟩⟩
      simp only at units
      subst units
      exact shown
    · rw [BasicL2Book.qtyAt_load_unlisted _ _ _ _ listed, BasicL2Book.qtyAt_clear] at held
      exact absurd held (by simp)
  · exact loaded level

theorem verifies_of_mirrors {depth : Nat} {venue : Venue} {msg : DecodedMessage}
    {book : BasicL2Book S} (mirrors : Mirrors depth venue book)
    (checksum : RightChecksum depth venue msg) : Verifies book msg := by
  intro carried
  rw [checksum carried, krakenChecksum, krakenChecksumPayload_eq, mirrors, mirrors]
  rfl

structure Move where
  call : FeedCall
  after : Venue

def Move.step (w : Feed S × Venue) (move : Move) : Feed S × Venue :=
  (w.1.call move.call, move.after)

def InSequence (feed : Feed S) (msg : DecodedMessage) : Prop :=
  msg.hasIds = true → (feed.tracker.onUpdate msg.ids).2 = .apply

def CarriesSnapshot (depth : Nat) (feed : Feed S) (move : Move) : Prop :=
  match move.call with
  | .handle frame =>
    (feed.decoder.decode frame).ok = true ∧ (feed.decoder.decode frame).kind = .snapshot ∧
      TopSnapshot depth move.after (feed.decoder.decode frame)
  | .applySnapshot msg => msg.ok = true ∧ TopSnapshot depth move.after msg
  | _ => False

def CarriesUpdate (depth : Nat) (feed : Feed S) (before : Venue) (move : Move) : Prop :=
  match move.call with
  | .handle frame =>
    (feed.decoder.decode frame).ok = true ∧ (feed.decoder.decode frame).kind = .update ∧
      TopUpdate depth before move.after (feed.decoder.decode frame) ∧
      InSequence feed (feed.decoder.decode frame)
  | _ => False

-- A frame that is not a book message, while nothing changes at the venue.
def CarriesNothing (feed : Feed S) (before : Venue) (move : Move) : Prop :=
  match move.call with
  | .handle frame =>
    ((feed.decoder.decode frame).ok = false ∨ (feed.decoder.decode frame).kind = .ignored ∨
      (feed.decoder.decode frame).kind = .venueError) ∧ move.after = before
  | _ => False

def Carries (depth : Nat) (w : Feed S × Venue) (move : Move) : Prop :=
  CarriesSnapshot depth w.1 move ∨ CarriesUpdate depth w.1 w.2 move ∨ CarriesNothing w.1 w.2 move

/-- A synced feed whose book is the top of the venue's. -/
structure Following (depth : Nat) (w : Feed S × Venue) : Prop where
  limited : w.1.depth = depth
  synced : w.1.synced = true
  mirrors : Mirrors depth w.2 w.1.book

theorem levels_accept_limited (book : BasicL2Book S) {depth : Nat} (limited : 0 < depth)
    (msg : DecodedMessage) (s : Side) :
    (book.accept depth msg).levels s = ((book.load msg.levels).levels s).take depth := by
  rw [BasicL2Book.levels_accept, if_neg (Nat.ne_of_gt limited)]

theorem SnapshotStep.follows {depth : Nat} (limited : 0 < depth) {c after : FeedCore S} {venue : Venue}
    {msg : DecodedMessage} {status : FeedStatus} (step : SnapshotStep c msg after status)
    (fits : c.depth = depth) (decoded : msg.ok = true) (snapshot : TopSnapshot depth venue msg) :
    after.depth = depth ∧ after.synced = true ∧ Mirrors depth venue after.book ∧
      status = .applied := by
  have mirrors : Mirrors depth venue (c.rebuilt msg) := by
    intro s
    rw [FeedCore.rebuilt, fits, levels_accept_limited _ limited, snapshot.levels_load]
    exact List.take_of_length_le (List.length_take_le _ _)
  cases step with
  | rejected failed => exact absurd (decoded.symm.trans failed) (by simp)
  | applied _ _ => exact ⟨fits, rfl, mirrors, rfl⟩
  | mismatched _ differs => exact absurd (verifies_of_mirrors mirrors snapshot.checksum) differs

theorem UpdateStep.follows {depth : Nat} (limited : 0 < depth) {c after : FeedCore S}
    {before venue : Venue} {msg : DecodedMessage} {status : FeedStatus}
    (step : UpdateStep c msg after status) (fits : c.depth = depth) (synced : c.synced = true)
    (mirrors : Mirrors depth before c.book) (update : TopUpdate depth before venue msg)
    (sequence : msg.hasIds = true → (c.tracker.onUpdate msg.ids).2 = .apply) :
    after.depth = depth ∧ after.synced = true ∧ Mirrors depth venue after.book ∧
      status = .applied := by
  have next : Mirrors depth venue (c.updated msg) := by
    intro s
    rw [FeedCore.updated, fits, levels_accept_limited _ limited, update.take_load mirrors]
  cases step with
  | unsynced lost => exact absurd (synced.symm.trans lost) (by simp)
  | stale _ numbered answer | gap _ numbered answer =>
    exact absurd (answer.symm.trans (sequence numbered)) (by simp)
  | applied _ _ _ => exact ⟨fits, synced, next, rfl⟩
  | mismatched _ _ differs => exact absurd (verifies_of_mirrors next update.checksum) differs

theorem follows_snapshot {depth : Nat} (limited : 0 < depth) (w : Feed S × Venue) (move : Move)
    (fits : w.1.depth = depth) (carries : CarriesSnapshot depth w.1 move) :
    Following depth (Move.step w move) := by
  rcases move with ⟨call, after⟩
  cases call with
  | handle frame =>
    obtain ⟨decoded, kind, snapshot⟩ := carries
    have step := w.1.handle_step frame
    have follows : (w.1.handle frame).1.core.depth = depth ∧
        (w.1.handle frame).1.core.synced = true ∧
        Mirrors depth after (w.1.handle frame).1.core.book := by
      generalize (w.1.handle frame).1.core = next, (w.1.handle frame).2 = status at step
      cases step with
      | rejected failed => exact absurd (decoded.symm.trans failed) (by simp)
      | ignored _ other | venueError _ other | update _ other _ =>
        exact absurd (kind.symm.trans other) (by simp)
      | snapshot _ _ step =>
        obtain ⟨depth, synced, mirrors, -⟩ := step.follows limited fits decoded snapshot
        exact ⟨depth, synced, mirrors⟩
    exact ⟨follows.1, follows.2.1, follows.2.2⟩
  | applySnapshot msg =>
    obtain ⟨decoded, snapshot⟩ := carries
    obtain ⟨depth, synced, mirrors, -⟩ :=
      (w.1.applySnapshot_step msg).follows limited fits decoded snapshot
    exact ⟨depth, synced, mirrors⟩
  | invalidate _ | checkStaleness _ _ => exact carries.elim

theorem follows_message {depth : Nat} (limited : 0 < depth) (feed : Feed S) (before after : Venue)
    (frame : Bytes) (following : Following depth (feed, before))
    (carries : CarriesUpdate depth feed before ⟨.handle frame, after⟩) :
    Following depth ((feed.handle frame).1, after) ∧ (feed.handle frame).2 = .applied := by
  obtain ⟨decoded, kind, update, sequence⟩ := carries
  have step := feed.handle_step frame
  have follows : (feed.handle frame).1.core.depth = depth ∧
      (feed.handle frame).1.core.synced = true ∧
      Mirrors depth after (feed.handle frame).1.core.book ∧ (feed.handle frame).2 = .applied := by
    generalize (feed.handle frame).1.core = next, (feed.handle frame).2 = status at step ⊢
    cases step with
    | rejected failed => exact absurd (decoded.symm.trans failed) (by simp)
    | ignored _ other | venueError _ other | snapshot _ other _ =>
      exact absurd (kind.symm.trans other) (by simp)
    | update _ _ step =>
      exact step.follows limited following.limited following.synced following.mirrors update sequence
  exact ⟨⟨follows.1, follows.2.1, follows.2.2.1⟩, follows.2.2.2⟩

theorem follows_move {depth : Nat} (limited : 0 < depth) (w : Feed S × Venue) (move : Move)
    (following : Following depth w) (carries : Carries depth w move) :
    Following depth (Move.step w move) := by
  rcases carries with snapshot | update | nothing
  · exact follows_snapshot limited w move following.limited snapshot
  · rcases move with ⟨call, after⟩
    cases call with
    | handle frame => exact (follows_message limited w.1 w.2 after frame following update).1
    | applySnapshot _ | invalidate _ | checkStaleness _ _ => exact update.elim
  · rcases move with ⟨call, after⟩
    cases call with
    | handle frame =>
      obtain ⟨idle, rfl⟩ := nothing
      have step := w.1.handle_step frame
      have same : (w.1.handle frame).1.core = w.1.core := by
        generalize (w.1.handle frame).1.core = next, (w.1.handle frame).2 = status at step ⊢
        cases step with
        | rejected _ | ignored _ _ | venueError _ _ => rfl
        | snapshot decoded kind _ | update decoded kind _ => simp [decoded, kind] at idle
      refine ⟨?_, ?_, ?_⟩
      · exact (congrArg FeedCore.depth same).trans following.limited
      · exact (congrArg FeedCore.synced same).trans following.synced
      · have book : (w.1.handle frame).1.book = w.1.book := congrArg FeedCore.book same
        intro s
        change (w.1.handle frame).1.book.levels s = _
        rw [book]
        exact following.mirrors s
    | applySnapshot _ | invalidate _ | checkStaleness _ _ => exact nothing.elim

structure Bounded (depth : Nat) (feed : Feed S) : Prop where
  limited : feed.depth = depth
  sizes : ∀ s, SideImpl.size (feed.book.side s) ≤ depth

theorem size_accept (book : BasicL2Book S) {depth : Nat} (limited : 0 < depth) (msg : DecodedMessage)
    (s : Side) : SideImpl.size ((book.accept depth msg).side s) ≤ depth := by
  rw [BasicL2Book.size_eq, levels_accept_limited _ limited]
  exact List.length_take_le _ _

theorem SnapshotStep.bounded {depth : Nat} (limited : 0 < depth) {c after : FeedCore S}
    {msg : DecodedMessage} {status : FeedStatus} (step : SnapshotStep c msg after status)
    (fits : c.depth = depth) (sizes : ∀ s, SideImpl.size (c.book.side s) ≤ depth) :
    after.depth = depth ∧ ∀ s, SideImpl.size (after.book.side s) ≤ depth := by
  cases step with
  | rejected _ => exact ⟨fits, sizes⟩
  | applied _ _ | mismatched _ _ =>
    refine ⟨fits, fun s => ?_⟩
    rw [← fits] at limited ⊢
    exact size_accept c.book.clear limited msg s

theorem HandleStep.bounded {depth : Nat} (limited : 0 < depth) {c after : FeedCore S}
    {msg : DecodedMessage} {status : FeedStatus} (step : HandleStep c msg after status)
    (fits : c.depth = depth) (sizes : ∀ s, SideImpl.size (c.book.side s) ≤ depth) :
    after.depth = depth ∧ ∀ s, SideImpl.size (after.book.side s) ≤ depth := by
  cases step with
  | rejected _ | ignored _ _ | venueError _ _ => exact ⟨fits, sizes⟩
  | snapshot _ _ step => exact step.bounded limited fits sizes
  | update _ _ step =>
    cases step with
    | unsynced _ | stale _ _ _ | gap _ _ _ => exact ⟨fits, sizes⟩
    | applied _ _ _ | mismatched _ _ _ =>
      refine ⟨fits, fun s => ?_⟩
      rw [← fits] at limited ⊢
      exact size_accept c.book limited msg s

theorem Bounded.call {depth : Nat} (limited : 0 < depth) (feed : Feed S) (call : FeedCall)
    (bounded : Bounded depth feed) : Bounded depth (feed.call call) := by
  cases call with
  | handle frame =>
    obtain ⟨fits, sizes⟩ := (feed.handle_step frame).bounded limited bounded.limited bounded.sizes
    exact ⟨fits, sizes⟩
  | applySnapshot msg =>
    obtain ⟨fits, sizes⟩ :=
      (feed.applySnapshot_step msg).bounded limited bounded.limited bounded.sizes
    exact ⟨fits, sizes⟩
  | invalidate reason =>
    have core := feed.core_invalidate reason
    have book : (feed.invalidate reason).book = feed.book := congrArg FeedCore.book core
    exact ⟨(congrArg FeedCore.depth core).trans bounded.limited, fun s => book ▸ bounded.sizes s⟩
  | checkStaleness now maxGap =>
    change Bounded depth (feed.checkStaleness now maxGap).1
    obtain ⟨-, -, same⟩ | ⟨-, same⟩ := feed.checkStaleness_cases now maxGap
    · have core := feed.core_invalidate .staleFeed
      have book : (feed.invalidate .staleFeed).book = feed.book := congrArg FeedCore.book core
      rw [same]
      exact ⟨(congrArg FeedCore.depth core).trans bounded.limited, fun s => book ▸ bounded.sizes s⟩
    · rw [same]
      exact bounded

/-- From any snapshot of the top on, the local book is the venue's top after every message; and no
run of any messages leaves a side larger than the depth. -/
theorem depth_limited_exact (depth : Nat) (limited : 0 < depth) :
    (∀ (feed : Feed S) (before after : Venue) (frame : Bytes),
      Following depth (feed, before) →
      CarriesUpdate depth feed before ⟨.handle frame, after⟩ →
      Following depth ((feed.handle frame).1, after) ∧ (feed.handle frame).2 = .applied) ∧
    (∀ (feed : Feed S) (unknown : Venue) (snapshot : Move) (moves : List Move),
      feed.depth = depth → CarriesSnapshot depth feed snapshot →
      Run.EachCall Move.step (Carries depth) (Move.step (feed, unknown) snapshot) moves →
      Run.Always Move.step (Following depth) (Move.step (feed, unknown) snapshot) moves) ∧
    (∀ (venue : Bytes) (decoder : Decoder) (policy : SequencePolicy) (calls : List FeedCall) (s : Side),
      SideImpl.size
        (((Feed.new venue decoder policy depth : Feed S).run calls).book.side s) ≤ depth) := by
  refine ⟨follows_message limited, ?_, ?_⟩
  · intro feed unknown snapshot moves fits carries given
    have start := follows_snapshot limited (feed, unknown) snapshot fits carries
    exact Run.always_of_invariant (follows_move limited) moves start given
  · intro venue decoder policy calls s
    have start : Bounded depth (Feed.new venue decoder policy depth : Feed S) := by
      refine ⟨rfl, fun s => ?_⟩
      rw [BasicL2Book.size_eq]
      have empty : (BasicL2Book.new decoder.spec : BasicL2Book S).levels s = [] := by
        apply List.eq_nil_iff_forall_not_mem.mpr
        intro level
        rw [BasicL2Book.mem_levels, BasicL2Book.qtyAt_new]
        simp
      change ((BasicL2Book.new decoder.spec : BasicL2Book S).levels s).length ≤ depth
      rw [empty]
      exact Nat.zero_le depth
    exact (Run.foldl_invariant (Bounded.call limited) calls start).sizes s

def bidVenue (levels : List Level) (ordered : BookOrder .bid levels)
    (resting : ∀ level ∈ levels, 0 ≤ level.price.ticks ∧ 0 < level.qty.units) : Venue
  | .bid => ⟨levels, ordered, resting⟩
  | .ask => ⟨[], List.Pairwise.nil, by simp⟩

def quietVenue : Venue :=
  bidVenue [⟨⟨100⟩, ⟨5⟩⟩] (by simp [BookOrder]) (by decide)

def busyVenue : Venue :=
  bidVenue [⟨⟨101⟩, ⟨1⟩⟩, ⟨⟨100⟩, ⟨5⟩⟩] (by simp [BookOrder, precedes]) (by decide)

def bidMessage (kind : MessageKind) (levels : List LevelUpdate) : DecodedMessage :=
  { DecodedMessage.blank with kind := kind, levels := levels }

-- Frame 1 announces the better bid, frame 2 its removal.
def pushDecoder : Decoder where
  spec := ⟨[], 0, 0⟩
  decode frame :=
    if frame = [1] then bidMessage .update [⟨.bid, ⟨101⟩, ⟨1⟩⟩]
    else bidMessage .update [⟨.bid, ⟨101⟩, ⟨0⟩⟩, ⟨.bid, ⟨100⟩, ⟨5⟩⟩]

theorem push_update : TopUpdate 1 quietVenue busyVenue (bidMessage .update [⟨.bid, ⟨101⟩, ⟨1⟩⟩]) where
  placed s := by cases s <;> decide
  removed s := by cases s <;> decide
  only := by
    intro lvl member
    obtain rfl := List.mem_singleton.mp member
    decide
  checksum carried := absurd carried (by decide)

theorem pull_update : TopUpdate 1 busyVenue quietVenue
    (bidMessage .update [⟨.bid, ⟨101⟩, ⟨0⟩⟩, ⟨.bid, ⟨100⟩, ⟨5⟩⟩]) where
  placed s := by cases s <;> decide
  removed s := by cases s <;> decide
  only := by
    intro lvl member
    simp only [bidMessage, List.mem_cons, List.not_mem_nil, or_false] at member
    obtain rfl | rfl := member
    · decide
    · decide
  checksum carried := absurd carried (by decide)

theorem quiet_snapshot : TopSnapshot 1 quietVenue (bidMessage .snapshot [⟨.bid, ⟨100⟩, ⟨5⟩⟩]) where
  listed s := by cases s <;> decide
  only := by
    intro lvl member
    obtain rfl := List.mem_singleton.mp member
    decide
  checksum carried := absurd carried (by decide)

-- A better bid pushes the only level out of a depth of one, and its removal lets it back in.
theorem depth_limited_exact_push_out :
    Run.Always Move.step (Following 1)
      (Move.step ((Feed.new [] pushDecoder .binanceSpot 1 : Feed MapSide), quietVenue)
        ⟨.applySnapshot (bidMessage .snapshot [⟨.bid, ⟨100⟩, ⟨5⟩⟩]), quietVenue⟩)
      [⟨.handle [1], busyVenue⟩, ⟨.handle [2], quietVenue⟩] := by
  have given : Run.EachCall Move.step (Carries 1)
      (Move.step ((Feed.new [] pushDecoder .binanceSpot 1 : Feed MapSide), quietVenue)
        ⟨.applySnapshot (bidMessage .snapshot [⟨.bid, ⟨100⟩, ⟨5⟩⟩]), quietVenue⟩)
      [⟨.handle [1], busyVenue⟩, ⟨.handle [2], quietVenue⟩] := by
    rw [Run.eachCall_cons, Run.eachCall_cons]
    refine ⟨.inr (.inl ?_), .inr (.inl ?_), Run.eachCall_nil _⟩
    · exact ⟨rfl, rfl, push_update, fun numbered => by cases numbered⟩
    · exact ⟨rfl, rfl, pull_update, fun numbered => by cases numbered⟩
  exact (depth_limited_exact 1 (by decide)).2.1 _ quietVenue
    ⟨.applySnapshot (bidMessage .snapshot [⟨.bid, ⟨100⟩, ⟨5⟩⟩]), quietVenue⟩ _ rfl
    ⟨rfl, quiet_snapshot⟩ given

end Crossbook
