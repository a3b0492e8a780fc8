import Crossbook.Feed.Load

set_option autoImplicit false

namespace Crossbook

variable {S : Type} [SideImpl S] [LawfulSideImpl S]

/-- A venue's book at every id: the quantity resting at each price, zero where there is none. -/
structure VenueHistory where
  qty : Nat → Side → Int64 → Int64
  qty_nonneg : ∀ id s ticks, 0 ≤ qty id s ticks
  price_nonneg : ∀ id s ticks, qty id s ticks ≠ 0 → 0 ≤ ticks

def rangeStart (policy : SequencePolicy) (ids : UpdateIds) : Nat :=
  if policy = .binanceFutures then ids.prevId.toNat else ids.firstId.toNat - 1

def VenueHistory.ChangedIn (history : VenueHistory) (start final : Nat) (s : Side) (ticks : Int64) :
    Prop :=
  ∃ id, start ≤ id ∧ id < final ∧ history.qty (id + 1) s ticks ≠ history.qty id s ticks

/-- A depth event of the venue: the quantity at its last id of every price changed in its range. -/
structure GenuineEvent (history : VenueHistory) (policy : SequencePolicy) (msg : DecodedMessage) :
    Prop where
  numbered : msg.hasIds = true
  bounded : msg.ids.finalId.toNat < 2 ^ 64 - 1
  forward : msg.ids.firstId ≤ msg.ids.finalId
  after : policy = .binanceFutures → msg.ids.prevId < msg.ids.firstId
  complete : ∀ s ticks,
    history.ChangedIn (rangeStart policy msg.ids) msg.ids.finalId.toNat s ticks →
      BasicL2Book.Lists msg.levels s ticks
  current : ∀ lvl ∈ msg.levels, 0 ≤ lvl.price.ticks ∧
    lvl.qty.units = history.qty msg.ids.finalId.toNat lvl.side lvl.price.ticks

structure GenuineSnapshot (history : VenueHistory) (msg : DecodedMessage) : Prop where
  numbered : msg.hasIds = true
  bounded : msg.ids.finalId.toNat < 2 ^ 64 - 1
  complete : ∀ s ticks, history.qty msg.ids.finalId.toNat s ticks ≠ 0 →
    BasicL2Book.Lists msg.levels s ticks
  current : ∀ lvl ∈ msg.levels, 0 ≤ lvl.price.ticks ∧
    lvl.qty.units = history.qty msg.ids.finalId.toNat lvl.side lvl.price.ticks

/-- What a feed can be given: the venue's events and snapshots in any order, any number of times
or never, and anything that does not decode to an update or a snapshot. -/
def GenuineCall (history : VenueHistory) (policy : SequencePolicy) (decoder : Decoder) :
    FeedCall → Prop
  | .handle frame =>
    (decoder.decode frame).ok = true →
      ((decoder.decode frame).kind = .update → GenuineEvent history policy (decoder.decode frame)) ∧
      ((decoder.decode frame).kind = .snapshot → GenuineSnapshot history (decoder.decode frame))
  | .applySnapshot msg => msg.ok = true → msg.kind = .snapshot ∧ GenuineSnapshot history msg
  | _ => True

-- A feed with the final id of the last message it applied.
structure Positioned (S : Type) [SideImpl S] where
  feed : Feed S
  position : Option SequenceId

namespace Positioned

def new (venue : Bytes) (decoder : Decoder) (policy : SequencePolicy) (depth : Nat) : Positioned S :=
  ⟨Feed.new venue decoder policy depth, none⟩

def call (w : Positioned S) (c : FeedCall) : Positioned S where
  feed := w.feed.call c
  position :=
    match c with
    | .handle frame =>
      if (w.feed.handle frame).2 = .applied then some (w.feed.decoder.decode frame).ids.finalId
      else w.position
    | .applySnapshot msg =>
      if (w.feed.applySnapshot msg).2 = .applied then some msg.ids.finalId else w.position
    | _ => w.position

def run (w : Positioned S) (calls : List FeedCall) : Positioned S := calls.foldl call w

end Positioned

def BookAt (history : VenueHistory) (id : Nat) (book : BasicL2Book S) : Prop :=
  ∀ s ticks, book.qtyAt s ticks = BasicL2Book.stored ⟨history.qty id s ticks⟩

def SequenceTracker.standing (t : SequenceTracker) : SequenceId :=
  if t.straddled then t.lastFinalId else t.snapshotId

-- A synced feed whose book is the venue's where its tracker stands.
structure OnHistory (history : VenueHistory) (policy : SequencePolicy) (decoder : Decoder)
    (c : FeedCore S) (position : Option SequenceId) : Prop where
  decoder_eq : c.decoder = decoder
  policy_eq : c.tracker.policy = policy
  full : c.depth = 0
  reconciled : c.synced = true →
    c.tracker.haveSnapshot = true ∧ position = some c.tracker.standing ∧
      c.tracker.standing.toNat < 2 ^ 64 - 1 ∧ BookAt history c.tracker.standing.toNat c.book

theorem VenueHistory.qty_eq_of_unchanged (history : VenueHistory) {start final base : Nat} {s : Side}
    {ticks : Int64} (unchanged : ¬ history.ChangedIn start final s ticks) (low : start ≤ base)
    (high : base ≤ final) : history.qty final s ticks = history.qty base s ticks := by
  induction final, high using Nat.le_induction with
  | base => rfl
  | succ id above ih =>
    have step : history.qty (id + 1) s ticks = history.qty id s ticks := by
      by_contra moved
      exact unchanged ⟨id, low.trans above, Nat.lt_succ_self id, moved⟩
    rw [step]
    apply ih
    intro ⟨other, from_start, before, moved⟩
    exact unchanged ⟨other, from_start, before.trans (Nat.lt_succ_self id), moved⟩

theorem SequenceTracker.range_covers {t : SequenceTracker} {ids : UpdateIds}
    (policy : t.policy ≠ .strictIncrement) (continues : t.Continues ids)
    (bounded : t.standing.toNat < 2 ^ 64 - 1) (forward : ids.firstId ≤ ids.finalId)
    (after : t.policy = .binanceFutures → ids.prevId < ids.firstId) :
    rangeStart t.policy ids ≤ t.standing.toNat ∧ t.standing.toNat ≤ ids.finalId.toNat := by
  unfold Continues at continues
  unfold standing at bounded ⊢
  unfold rangeStart
  cases kind : t.policy <;> cases straddled : t.straddled <;>
    simp only [kind, straddled, reduceCtorEq, ↓reduceIte, UInt64.le_iff_toNat_le,
      UInt64.lt_iff_toNat_lt, ← UInt64.toNat_inj, UInt64.toNat_add] at * <;> grind

theorem bookAt_of_event {history : VenueHistory} {policy : SequencePolicy} {msg : DecodedMessage}
    (genuine : GenuineEvent history policy msg) (book : BasicL2Book S) (base : Nat)
    (holds : BookAt history base book) (low : rangeStart policy msg.ids ≤ base)
    (high : base ≤ msg.ids.finalId.toNat) :
    BookAt history msg.ids.finalId.toNat (book.load msg.levels) := by
  intro s ticks
  by_cases listed : BasicL2Book.Lists msg.levels s ticks
  · apply BasicL2Book.qtyAt_load_listed _ _ _ _ _ listed
    intro lvl member side price
    obtain ⟨nonneg, qty⟩ := genuine.current lvl member
    rw [side, price] at qty
    have positive := history.qty_nonneg msg.ids.finalId.toNat s ticks
    exact ⟨congrArg Qty.mk qty, nonneg, qty ▸ positive⟩
  · rw [BasicL2Book.qtyAt_load_unlisted _ _ _ _ listed, holds,
      history.qty_eq_of_unchanged (fun changed => listed (genuine.complete s ticks changed)) low high]

theorem bookAt_of_snapshot {history : VenueHistory} {msg : DecodedMessage}
    (genuine : GenuineSnapshot history msg) (book : BasicL2Book S) :
    BookAt history msg.ids.finalId.toNat (book.clear.load msg.levels) := by
  intro s ticks
  by_cases listed : BasicL2Book.Lists msg.levels s ticks
  · apply BasicL2Book.qtyAt_load_listed _ _ _ _ _ listed
    intro lvl member side price
    obtain ⟨nonneg, qty⟩ := genuine.current lvl member
    rw [side, price] at qty
    have positive := history.qty_nonneg msg.ids.finalId.toNat s ticks
    exact ⟨congrArg Qty.mk qty, nonneg, qty ▸ positive⟩
  · have empty : history.qty msg.ids.finalId.toNat s ticks = 0 := by
      by_contra resting
      exact listed (genuine.complete s ticks resting)
    rw [BasicL2Book.qtyAt_load_unlisted _ _ _ _ listed, BasicL2Book.qtyAt_clear, empty]
    rfl

theorem qtyAt_accept_full (book : BasicL2Book S) (msg : DecodedMessage) (s : Side) (ticks : Int64) :
    (book.accept 0 msg).qtyAt s ticks = (book.load msg.levels).qtyAt s ticks := by
  unfold BasicL2Book.accept
  rw [BasicL2Book.trim_zero]
  cases s <;> rfl

namespace OnHistory

variable {history : VenueHistory} {policy : SequencePolicy} {decoder : Decoder}
  {c after : FeedCore S} {position : Option SequenceId} {msg : DecodedMessage} {status : FeedStatus}

theorem snapshot (on : OnHistory history policy decoder c position)
    (step : SnapshotStep c msg after status) (genuine : msg.ok = true → GenuineSnapshot history msg) :
    OnHistory history policy decoder after
      (if status = .applied then some msg.ids.finalId else position) := by
  cases step with
  | rejected _ => exact on
  | applied decoded _ =>
    have genuine := genuine decoded
    have anchored : c.anchored msg = c.tracker.onSnapshot msg.ids.finalId := by
      simp only [FeedCore.anchored, genuine.numbered, if_true]
    refine ⟨on.decoder_eq, ?_, on.full, ?_⟩
    · simpa only [anchored, SequenceTracker.onSnapshot] using on.policy_eq
    · intro _
      simp only [anchored]
      refine ⟨rfl, rfl, genuine.bounded, ?_⟩
      intro s ticks
      have loaded := bookAt_of_snapshot genuine c.book s ticks
      rw [FeedCore.rebuilt, on.full, qtyAt_accept_full, loaded]
      rfl
  | mismatched decoded _ =>
    refine ⟨on.decoder_eq, ?_, on.full, by simp⟩
    have numbered := (genuine decoded).numbered
    simpa only [FeedCore.anchored, numbered, if_true, SequenceTracker.invalidate,
      SequenceTracker.onSnapshot] using on.policy_eq

theorem update (on : OnHistory history policy decoder c position)
    (binance : policy ≠ .strictIncrement) (step : UpdateStep c msg after status)
    (genuine : GenuineEvent history policy msg) :
    OnHistory history policy decoder after
      (if status = .applied then some msg.ids.finalId else position) := by
  have advanced : c.advanced msg = (c.tracker.onUpdate msg.ids).1 := by
    simp only [FeedCore.advanced, genuine.numbered, if_true]
  have kind : (c.tracker.onUpdate msg.ids).1.policy = policy :=
    (c.tracker.onUpdate_policy msg.ids).trans on.policy_eq
  cases step with
  | unsynced _ => exact on
  | stale held _ answer =>
    -- Of the four answers only this one drops the event, and it leaves the tracker alone.
    obtain ⟨-, same⟩ | ⟨-, -, same⟩ | ⟨-, -, -, same⟩ | ⟨-, -, -, same⟩ :=
      c.tracker.onUpdate_cases msg.ids <;> rw [same] at answer <;> cases answer
    refine ⟨on.decoder_eq, kind, on.full, ?_⟩
    rw [same]
    exact on.reconciled
  | gap _ _ _ => exact ⟨on.decoder_eq, kind, on.full, by simp⟩
  | mismatched _ _ _ =>
    refine ⟨on.decoder_eq, ?_, on.full, by simp⟩
    rw [advanced]
    exact kind
  | applied held continues _ =>
    obtain ⟨have_snapshot, continues⟩ :=
      (c.tracker.onUpdate_apply_iff msg.ids).mp (continues genuine.numbered)
    obtain ⟨-, -, bounded, book⟩ := on.reconciled held
    have accepted := SequenceTracker.onUpdate_accept have_snapshot msg.ids continues
    have policy_eq := on.policy_eq
    -- The event covers the history from the last id applied to its own.
    have covers := SequenceTracker.range_covers (policy_eq ▸ binance) continues bounded
      genuine.forward (fun futures => genuine.after (policy_eq.symm.trans futures))
    rw [policy_eq] at covers
    refine ⟨on.decoder_eq, ?_, on.full, ?_⟩
    · rw [advanced]
      exact kind
    · intro _
      simp only [advanced, accepted]
      refine ⟨have_snapshot, rfl, genuine.bounded, ?_⟩
      intro s ticks
      have loaded := bookAt_of_event genuine c.book _ book covers.1 covers.2 s ticks
      rw [FeedCore.updated, on.full, qtyAt_accept_full, loaded]
      rfl

end OnHistory

namespace Positioned

variable {history : VenueHistory} {policy : SequencePolicy} {decoder : Decoder}

theorem call_onHistory (binance : policy ≠ .strictIncrement) (w : Positioned S) (call : FeedCall)
    (on : OnHistory history policy decoder w.feed.core w.position)
    (genuine : GenuineCall history policy decoder call) :
    OnHistory history policy decoder (w.call call).feed.core (w.call call).position := by
  cases call with
  | handle frame =>
    have given : w.feed.decoder.decode frame = decoder.decode frame :=
      congrArg (fun d => Decoder.decode d frame) on.decoder_eq
    have step := w.feed.handle_step frame
    simp only [Positioned.call]
    rw [given] at step ⊢
    change OnHistory history policy decoder (w.feed.handle frame).1.core _
    generalize (w.feed.handle frame).1.core = after, (w.feed.handle frame).2 = status at step ⊢
    cases step with
    | rejected _ | ignored _ _ | venueError _ _ => exact on
    | snapshot decoded kind step => exact on.snapshot step fun _ => (genuine decoded).2 kind
    | update decoded kind step => exact on.update binance step ((genuine decoded).1 kind)
  | applySnapshot msg =>
    exact on.snapshot (w.feed.applySnapshot_step msg) fun decoded => (genuine decoded).2
  | invalidate reason =>
    change OnHistory history policy decoder (w.feed.invalidate reason).core w.position
    rw [w.feed.core_invalidate]
    exact ⟨on.decoder_eq, on.policy_eq, on.full, by simp⟩
  | checkStaleness now maxGap =>
    change OnHistory history policy decoder (w.feed.checkStaleness now maxGap).1.core w.position
    obtain ⟨-, -, same⟩ | ⟨-, same⟩ := w.feed.checkStaleness_cases now maxGap
    · rw [same, w.feed.core_invalidate]
      exact ⟨on.decoder_eq, on.policy_eq, on.full, by simp⟩
    · rw [same]
      exact on

end Positioned

/-- However events are lost, repeated and reordered, a synced book is the venue's at the id of
the last message applied to it. -/
theorem reconciliation_exact (history : VenueHistory) (venue : Bytes) (decoder : Decoder)
    (policy : SequencePolicy) (binance : policy ≠ .strictIncrement) (calls : List FeedCall)
    (genuine : ∀ call ∈ calls, GenuineCall history policy decoder call)
    (synced : ((Positioned.new venue decoder policy 0 : Positioned S).run calls).feed.synced = true) :
    ∃ id, ((Positioned.new venue decoder policy 0 : Positioned S).run calls).position = some id ∧
      BookAt history id.toNat
        ((Positioned.new venue decoder policy 0 : Positioned S).run calls).feed.book := by
  have start : OnHistory history policy decoder
      (Positioned.new venue decoder policy 0 : Positioned S).feed.core none :=
    ⟨rfl, rfl, rfl, by simp [Positioned.new, Feed.new, Feed.core]⟩
  have kept : ∀ (w : Positioned S) (call : FeedCall),
      OnHistory history policy decoder w.feed.core w.position →
      GenuineCall history policy decoder call →
      OnHistory history policy decoder (w.call call).feed.core (w.call call).position :=
    Positioned.call_onHistory binance
  have always := Run.always_of_invariant kept calls start (Run.eachCall_of_forall fun _ => genuine)
  obtain ⟨-, position, -, book⟩ := always.last.reconciled synced
  exact ⟨_, position, book⟩

-- One bid whose quantity changes from 5 to 7 at id 103.
def oneChange : VenueHistory where
  qty id s ticks := if s = .bid ∧ ticks = 100 then (if id < 103 then 5 else 7) else 0
  qty_nonneg id s ticks := by
    split
    · split <;> decide
    · decide
  price_nonneg id s ticks resting := by
    have here : s = .bid ∧ ticks = 100 := by
      by_contra elsewhere
      exact resting (if_neg elsewhere)
    rw [here.2]
    decide

def changeEvent : DecodedMessage :=
  { DecodedMessage.blank with
    kind := .update, hasIds := true, ids := ⟨99, 105, 0⟩, levels := [⟨.bid, ⟨100⟩, ⟨7⟩⟩] }

def changeDecoder : Decoder where
  spec := ⟨[], 0, 0⟩
  decode frame := if frame = [] then DecodedMessage.blank else changeEvent

def beforeChange : DecodedMessage :=
  { DecodedMessage.blank with
    kind := .snapshot, hasIds := true, ids := ⟨100, 100, 100⟩, levels := [⟨.bid, ⟨100⟩, ⟨5⟩⟩] }

theorem oneChange_listed (id : Nat) (s : Side) (ticks : Int64) (levels : List LevelUpdate) (qty : Qty)
    (single : levels = [⟨.bid, ⟨100⟩, qty⟩]) (moved : oneChange.qty id s ticks ≠ 0) :
    BasicL2Book.Lists levels s ticks := by
  have here : s = .bid ∧ ticks = 100 := by
    by_contra elsewhere
    exact moved (if_neg elsewhere)
  exact ⟨⟨.bid, ⟨100⟩, qty⟩, by simp [single], here.1.symm, here.2.symm⟩

theorem changeEvent_genuine : GenuineEvent oneChange .binanceSpot changeEvent where
  numbered := rfl
  bounded := by decide
  forward := by decide
  after := by simp
  complete := by
    intro s ticks ⟨id, _, _, moved⟩
    by_cases resting : oneChange.qty id s ticks = 0
    · exact oneChange_listed (id + 1) s ticks _ _ rfl (fun empty => moved (empty.trans resting.symm))
    · exact oneChange_listed id s ticks _ _ rfl resting
  current := by
    intro lvl member
    obtain rfl := List.mem_singleton.mp member
    decide

theorem beforeChange_genuine : GenuineSnapshot oneChange beforeChange where
  numbered := rfl
  bounded := by decide
  complete := fun s ticks resting => oneChange_listed _ s ticks _ _ rfl resting
  current := by
    intro lvl member
    obtain rfl := List.mem_singleton.mp member
    decide

-- The snapshot falls inside the event's range, and the event arrives twice.
theorem reconciliation_exact_straddle :
    ∃ id, ((Positioned.new [] changeDecoder .binanceSpot 0 : Positioned MapSide).run
        [.applySnapshot beforeChange, .handle [1], .handle [1]]).position = some id ∧
      BookAt oneChange id.toNat
        ((Positioned.new [] changeDecoder .binanceSpot 0 : Positioned MapSide).run
          [.applySnapshot beforeChange, .handle [1], .handle [1]]).feed.book := by
  apply reconciliation_exact oneChange [] changeDecoder .binanceSpot (by simp)
  · intro call member
    simp only [List.mem_cons, List.not_mem_nil, or_false] at member
    obtain rfl | rfl | rfl := member
    · exact fun _ => ⟨rfl, beforeChange_genuine⟩
    · exact fun _ => ⟨fun _ => changeEvent_genuine, fun impossible => by cases impossible⟩
    · exact fun _ => ⟨fun _ => changeEvent_genuine, fun impossible => by cases impossible⟩
  · rfl

end Crossbook
