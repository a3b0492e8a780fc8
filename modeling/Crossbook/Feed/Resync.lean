import Crossbook.Feed.Containers
import Crossbook.Feed.Load
import Crossbook.Feed.Lockstep
import Crossbook.Venues.Binance

set_option autoImplicit false

namespace Crossbook

namespace SequenceTracker

def knows (t : SequenceTracker) : SequenceTracker := { t with stats := ⟨0, 0, 0, 0⟩ }

theorem onUpdate_knows {a b : SequenceTracker} (same : a.knows = b.knows) (ids : UpdateIds) :
    (a.onUpdate ids).2 = (b.onUpdate ids).2 ∧
      (a.onUpdate ids).1.knows = (b.onUpdate ids).1.knows := by
  cases a
  cases b
  simp only [knows, mk.injEq, and_true] at same
  obtain ⟨rfl, rfl, rfl, rfl, rfl⟩ := same
  unfold onUpdate onStrictUpdate onBinanceUpdate
  dsimp only [anchor, continuous]
  split_ifs <;> exact ⟨rfl, rfl⟩

theorem invalidate_knows {a b : SequenceTracker} (same : a.knows = b.knows) :
    a.invalidate.knows = b.invalidate.knows := by
  simp only [knows, invalidate, mk.injEq] at same ⊢
  tauto

theorem onSnapshot_knows {a b : SequenceTracker} (policy : a.policy = b.policy) (id : SequenceId) :
    (a.onSnapshot id).knows = (b.onSnapshot id).knows := by
  simp only [knows, onSnapshot, policy]

end SequenceTracker

variable {S : Type} [SideImpl S] [LawfulSideImpl S]

namespace BasicL2Book

variable {a b : BasicL2Book S} (same : ∀ s, a.levels s = b.levels s)

include same

theorem qtyAt_eq_of_levels (s : Side) (ticks : Int64) : a.qtyAt s ticks = b.qtyAt s ticks := by
  apply Option.ext
  intro units
  have left := a.mem_levels s ⟨⟨ticks⟩, ⟨units⟩⟩
  have right := b.mem_levels s ⟨⟨ticks⟩, ⟨units⟩⟩
  exact left.symm.trans ((same s) ▸ right)

theorem levels_accept_congr (depth : Nat) (msg : DecodedMessage) (s : Side) :
    (a.accept depth msg).levels s = (b.accept depth msg).levels s := by
  have loaded : (a.load msg.levels).levels s = (b.load msg.levels).levels s :=
    levels_congr fun ticks => qtyAt_load_congr (qtyAt_eq_of_levels same) msg.levels s ticks
  rw [levels_accept, levels_accept, loaded]

theorem krakenChecksum_congr : krakenChecksum a = krakenChecksum b := by
  unfold krakenChecksum
  rw [krakenChecksumPayload_eq, krakenChecksumPayload_eq, same, same]

theorem verifies_congr (msg : DecodedMessage) : Verifies a msg ↔ Verifies b msg := by
  unfold Verifies
  rw [krakenChecksum_congr same]

end BasicL2Book

def Numberless (decoder : Decoder) : Prop := ∀ frame, (decoder.decode frame).hasIds = false

namespace FeedCore

/-- Two feeds that will answer alike. -/
structure Alike (a b : FeedCore S) : Prop where
  decoder : a.decoder = b.decoder
  depth : a.depth = b.depth
  lastTs : a.lastTs = b.lastTs
  synced : a.synced = b.synced
  levels (s : Side) : a.book.levels s = b.book.levels s
  tracker : Numberless a.decoder ∨ a.tracker.knows = b.tracker.knows

variable {c d after : FeedCore S} {msg : DecodedMessage} {s : FeedStatus}

theorem Alike.updated (alike : Alike c d) (msg : DecodedMessage) (side : Side) :
    (c.updated msg).levels side = (d.updated msg).levels side := by
  rw [FeedCore.updated, FeedCore.updated, alike.depth]
  exact BasicL2Book.levels_accept_congr alike.levels _ _ _

theorem rebuilt_levels (depth : c.depth = d.depth) (msg : DecodedMessage) (side : Side) :
    (c.rebuilt msg).levels side = (d.rebuilt msg).levels side := by
  rw [FeedCore.rebuilt, FeedCore.rebuilt, depth]
  exact BasicL2Book.levels_rebuilt _ _ _ _ _

theorem alike_settled (decoder : c.decoder = d.decoder) (depth : c.depth = d.depth)
    {left right : BasicL2Book S} (levels : ∀ side, left.levels side = right.levels side)
    {mine theirs : SequenceTracker} (tracker : Numberless c.decoder ∨ mine.knows = theirs.knows)
    (ts : Timestamp) (synced : Bool) :
    Alike { c with book := left, tracker := mine, lastTs := ts, synced := synced }
      { d with book := right, tracker := theirs, lastTs := ts, synced := synced } where
  decoder := decoder
  depth := depth
  lastTs := rfl
  synced := rfl
  levels := levels
  tracker := tracker

theorem Alike.lost (alike : Alike c d) :
    Alike { c with tracker := c.tracker.invalidate, synced := false }
      { d with tracker := d.tracker.invalidate, synced := false } where
  decoder := alike.decoder
  depth := alike.depth
  lastTs := alike.lastTs
  synced := rfl
  levels := alike.levels
  tracker := alike.tracker.imp_right SequenceTracker.invalidate_knows

theorem Alike.anchored (alike : Alike c d) (msg : DecodedMessage) :
    Numberless c.decoder ∨ (c.anchored msg).knows = (d.anchored msg).knows := by
  refine alike.tracker.imp_right fun same => ?_
  have policy : c.tracker.knows.policy = d.tracker.knows.policy :=
    congrArg SequenceTracker.policy same
  unfold FeedCore.anchored
  split
  · exact SequenceTracker.onSnapshot_knows policy _
  · exact same

theorem snapshot_alike (decoded : msg.ok = true) (decoder : c.decoder = d.decoder)
    (depth : c.depth = d.depth)
    (tracker : Numberless c.decoder ∨ (c.anchored msg).knows = (d.anchored msg).knows)
    (step : SnapshotStep c msg after s) : ∃ other, SnapshotStep d msg other s ∧ Alike after other := by
  have levels := rebuilt_levels depth msg
  have checks := BasicL2Book.verifies_congr levels msg
  cases step with
  | rejected failed => simp [failed] at decoded
  | applied _ verified =>
    exact ⟨_, .applied decoded (checks.mp verified), alike_settled decoder depth levels tracker _ _⟩
  | mismatched _ differs =>
    exact ⟨_, .mismatched decoded (differs ∘ checks.mpr), alike_settled decoder depth levels
      (tracker.imp_right SequenceTracker.invalidate_knows) _ _⟩

section Simulation

variable (alike : Alike c d)

include alike

theorem Alike.snapshotStep (step : SnapshotStep c msg after s) :
    ∃ other, SnapshotStep d msg other s ∧ Alike after other := by
  cases decoded : msg.ok with
  | true => exact snapshot_alike decoded alike.decoder alike.depth (alike.anchored msg) step
  | false =>
    cases step with
    | rejected failed => exact ⟨d, .rejected failed, alike⟩
    | applied accepted _ => simp [decoded] at accepted
    | mismatched accepted _ => simp [decoded] at accepted

theorem Alike.updateStep (numbered : msg.hasIds = true → c.tracker.knows = d.tracker.knows)
    (step : UpdateStep c msg after s) : ∃ other, UpdateStep d msg other s ∧ Alike after other := by
  have levels := alike.updated msg
  have checks := BasicL2Book.verifies_congr levels msg
  have answer (carried : msg.hasIds = true) := SequenceTracker.onUpdate_knows (numbered carried) msg.ids
  have advanced : Numberless c.decoder ∨ (c.advanced msg).knows = (d.advanced msg).knows := by
    refine alike.tracker.imp_right fun same => ?_
    unfold FeedCore.advanced
    split
    next carried => exact (answer carried).2
    next => exact same
  cases step with
  | unsynced lost => exact ⟨d, .unsynced (alike.synced ▸ lost), alike⟩
  | stale held carried found =>
    refine ⟨_, .stale (alike.synced ▸ held) carried ((answer carried).1 ▸ found), ?_⟩
    exact { alike with tracker := .inr (answer carried).2 }
  | gap held carried found =>
    refine ⟨_, .gap (alike.synced ▸ held) carried ((answer carried).1 ▸ found), ?_⟩
    exact { alike with
      synced := rfl
      tracker := .inr (SequenceTracker.invalidate_knows (answer carried).2) }
  | applied held continues verified =>
    refine ⟨_, .applied (alike.synced ▸ held) (fun carried => ?_) (checks.mp verified), ?_⟩
    · rw [← (answer carried).1]
      exact continues carried
    · exact { alike with lastTs := rfl, levels := levels, tracker := advanced }
  | mismatched held continues differs =>
    refine ⟨_, .mismatched (alike.synced ▸ held) (fun carried => ?_) (differs ∘ checks.mpr), ?_⟩
    · rw [← (answer carried).1]
      exact continues carried
    · exact alike_settled alike.decoder alike.depth levels
        (advanced.imp_right SequenceTracker.invalidate_knows) _ _

theorem Alike.handleStep (numbered : msg.hasIds = true → c.tracker.knows = d.tracker.knows)
    (step : HandleStep c msg after s) : ∃ other, HandleStep d msg other s ∧ Alike after other := by
  cases step with
  | rejected failed => exact ⟨d, .rejected failed, alike⟩
  | ignored decoded kind => exact ⟨d, .ignored decoded kind, alike⟩
  | venueError decoded kind => exact ⟨d, .venueError decoded kind, alike⟩
  | snapshot decoded kind step =>
    obtain ⟨other, same, after⟩ := alike.snapshotStep step
    exact ⟨other, .snapshot decoded kind same, after⟩
  | update decoded kind step =>
    obtain ⟨other, same, after⟩ := alike.updateStep numbered step
    exact ⟨other, .update decoded kind same, after⟩

end Simulation

end FeedCore

theorem comparisonOf_matched {a b : BasicL2Book S} (same : ∀ s, a.levels s = b.levels s)
    (msg : DecodedMessage) :
    (comparisonOf a msg).map Comparison.matched = (comparisonOf b msg).map Comparison.matched := by
  unfold comparisonOf
  split
  · simp only [List.map_cons, List.map_nil, Comparison.matched,
      BasicL2Book.krakenChecksum_congr same]
  · rfl

theorem settledFate_congr {a b : BasicL2Book S} {msg : DecodedMessage}
    (same : ∀ s, a.levels s = b.levels s) : settledFate a msg = settledFate b msg := by
  simp only [settledFate, BasicL2Book.verifies_congr same msg]

theorem FeedCore.snapshotFate_congr {c d : FeedCore S} (depth : c.depth = d.depth)
    (msg : DecodedMessage) : c.snapshotFate msg = d.snapshotFate msg := by
  unfold snapshotFate
  rw [settledFate_congr (rebuilt_levels depth msg)]

namespace Feed

open FeedCore (Alike)

section Alike

variable {f g : Feed S} (alike : Alike f.core g.core)

include alike

theorem knows_of_numbered (frame : Bytes) (carried : (f.decoder.decode frame).hasIds = true) :
    f.core.tracker.knows = g.core.tracker.knows := by
  refine alike.tracker.resolve_left fun numberless => ?_
  have never : (f.decoder.decode frame).hasIds = false := numberless frame
  simp [never] at carried

theorem handle_alike (frame : Bytes) :
    (f.handle frame).2 = (g.handle frame).2 ∧
      Alike (f.handle frame).1.core (g.handle frame).1.core := by
  have decoder : f.decoder = g.decoder := alike.decoder
  obtain ⟨other, step, after⟩ :=
    alike.handleStep (knows_of_numbered alike frame) (f.handle_step frame)
  rw [decoder] at step
  obtain ⟨core, status⟩ := step.unique (g.handle_step frame)
  exact ⟨status, core ▸ after⟩

theorem applySnapshot_alike (msg : DecodedMessage) :
    (f.applySnapshot msg).2 = (g.applySnapshot msg).2 ∧
      Alike (f.applySnapshot msg).1.core (g.applySnapshot msg).1.core := by
  obtain ⟨other, step, after⟩ := alike.snapshotStep (f.applySnapshot_step msg)
  obtain ⟨core, status⟩ := step.unique (g.applySnapshot_step msg)
  exact ⟨status, core ▸ after⟩

theorem invalidate_alike (reason : DivergenceKind) :
    Alike (f.invalidate reason).core (g.invalidate reason).core := by
  rw [core_invalidate, core_invalidate]
  exact alike.lost

theorem checkStaleness_alike (now maxGap : Timestamp) :
    (f.checkStaleness now maxGap).2 = (g.checkStaleness now maxGap).2 ∧
      Alike (f.checkStaleness now maxGap).1.core (g.checkStaleness now maxGap).1.core := by
  have synced : f.synced = g.synced := alike.synced
  have lastTs : f.lastTs = g.lastTs := alike.lastTs
  obtain ⟨late, answer, after⟩ | ⟨fresh, same⟩ := f.checkStaleness_cases now maxGap
  · rw [synced, lastTs] at late
    obtain ⟨-, other, next⟩ | ⟨fresh, -⟩ := g.checkStaleness_cases now maxGap
    · rw [answer, other, after, next]
      exact ⟨rfl, invalidate_alike alike _⟩
    · exact absurd late fresh
  · rw [synced, lastTs] at fresh
    obtain ⟨late, -⟩ | ⟨-, other⟩ := g.checkStaleness_cases now maxGap
    · exact absurd late fresh
    · rw [same, other]
      exact ⟨rfl, alike⟩

theorem answer_alike (call : FeedCall) :
    (f.answer call).2 = (g.answer call).2 ∧
      Alike (f.answer call).1.core (g.answer call).1.core := by
  cases call with
  | handle frame =>
    obtain ⟨status, after⟩ := handle_alike alike frame
    exact ⟨congrArg Answer.status status, after⟩
  | applySnapshot msg =>
    obtain ⟨status, after⟩ := applySnapshot_alike alike msg
    exact ⟨congrArg Answer.status status, after⟩
  | invalidate reason => exact ⟨rfl, invalidate_alike alike reason⟩
  | checkStaleness now maxGap =>
    obtain ⟨stale, after⟩ := checkStaleness_alike alike now maxGap
    exact ⟨congrArg Answer.stale stale, after⟩

theorem comparison_alike (call : FeedCall) :
    (f.core.comparison call).map Comparison.matched =
      (g.core.comparison call).map Comparison.matched := by
  have snapshot (msg : DecodedMessage) : (f.core.snapshotComparison msg).map Comparison.matched =
      (g.core.snapshotComparison msg).map Comparison.matched := by
    unfold FeedCore.snapshotComparison
    split
    · exact comparisonOf_matched (FeedCore.rebuilt_levels alike.depth msg) msg
    · rfl
  cases call with
  | handle frame =>
    have decoder : g.core.decoder = f.core.decoder := alike.decoder.symm
    simp only [FeedCore.comparison, FeedCore.handleComparison, decoder]
    have numbered (carried : (f.core.decoder.decode frame).hasIds = true) :=
      SequenceTracker.onUpdate_knows (knows_of_numbered alike frame carried)
        (f.core.decoder.decode frame).ids
    generalize f.core.decoder.decode frame = msg at numbered ⊢
    have continues : (f.core.synced = true ∧
        (msg.hasIds = true → (f.core.tracker.onUpdate msg.ids).2 = .apply)) ↔
        g.core.synced = true ∧
          (msg.hasIds = true → (g.core.tracker.onUpdate msg.ids).2 = .apply) := by
      rw [alike.synced]
      refine and_congr_right fun _ => forall_congr' fun carried => ?_
      rw [(numbered carried).1]
    split
    · cases msg.kind with
      | ignored => rfl
      | venueError => rfl
      | snapshot => exact snapshot msg
      | update =>
        simp only [FeedCore.updateComparison, continues]
        split
        · exact comparisonOf_matched (alike.updated msg) msg
        · rfl
    · rfl
  | applySnapshot msg => exact snapshot msg
  | invalidate reason => rfl
  | checkStaleness now maxGap => rfl

theorem fate_alike (frame : Bytes) :
    f.core.fate (f.decoder.decode frame) = g.core.fate (g.decoder.decode frame) := by
  have decoder : g.decoder = f.decoder := alike.decoder.symm
  have numbered (carried : (f.decoder.decode frame).hasIds = true) :=
    SequenceTracker.onUpdate_knows (knows_of_numbered alike frame carried)
      (f.decoder.decode frame).ids
  rw [decoder]
  generalize f.decoder.decode frame = msg at numbered ⊢
  have settled : settledFate (f.core.updated msg) msg = settledFate (g.core.updated msg) msg :=
    settledFate_congr (alike.updated msg)
  unfold FeedCore.fate
  split
  · cases msg.kind with
    | ignored => rfl
    | venueError => rfl
    | snapshot => exact FeedCore.snapshotFate_congr alike.depth msg
    | update =>
      simp only [FeedCore.updateFate, alike.synced, settled]
      split
      · rfl
      · split
        next carried => rw [(numbered carried).1]
        next => rfl
  · rfl

end Alike

theorem fates_alike {f g : Feed S} (alike : Alike f.core g.core) (frames : List Bytes) :
    f.fates frames = g.fates frames := by
  induction frames generalizing f g with
  | nil => rfl
  | cons frame rest ih =>
    rw [fates, fates, fate_alike alike frame, ih (handle_alike alike frame).2]

theorem respond_alike {f g : Feed S} (alike : Alike f.core g.core) (calls : List FeedCall) :
    (Run.respond answer f calls).2 = (Run.respond answer g calls).2 ∧
      Alike (Run.respond answer f calls).1.core (Run.respond answer g calls).1.core ∧
      (f.compared calls).map Comparison.matched = (g.compared calls).map Comparison.matched := by
  induction calls generalizing f g with
  | nil => exact ⟨rfl, alike, rfl⟩
  | cons call rest ih =>
    obtain ⟨here, after⟩ := answer_alike alike call
    obtain ⟨answers, last, matched⟩ := ih after
    refine ⟨congrArg₂ List.cons here answers, last, ?_⟩
    rw [answer_call, answer_call] at matched
    rw [compared, compared, List.map_append, List.map_append, comparison_alike alike call, matched]

end Feed

namespace FeedCore

def setup (c : FeedCore S) : Decoder × Nat × SequencePolicy := (c.decoder, c.depth, c.tracker.policy)

variable {c after : FeedCore S} {msg : DecodedMessage} {s : FeedStatus}

omit [LawfulSideImpl S] in
theorem policy_anchored (c : FeedCore S) (msg : DecodedMessage) :
    (c.anchored msg).policy = c.tracker.policy := by
  unfold anchored
  split <;> rfl

omit [LawfulSideImpl S] in
theorem policy_advanced (c : FeedCore S) (msg : DecodedMessage) :
    (c.advanced msg).policy = c.tracker.policy := by
  unfold advanced
  split
  · exact c.tracker.onUpdate_policy _
  · rfl

theorem setup_snapshotStep (step : SnapshotStep c msg after s) : after.setup = c.setup := by
  cases step with
  | rejected failed => rfl
  | applied decoded verified => simp only [setup, policy_anchored]
  | mismatched decoded differs => simp only [setup, SequenceTracker.invalidate, policy_anchored]

theorem setup_updateStep (step : UpdateStep c msg after s) : after.setup = c.setup := by
  cases step with
  | unsynced lost => rfl
  | stale held carried answer => simp only [setup, SequenceTracker.onUpdate_policy]
  | gap held carried answer =>
    simp only [setup, SequenceTracker.invalidate, SequenceTracker.onUpdate_policy]
  | applied held continues verified => simp only [setup, policy_advanced]
  | mismatched held continues differs =>
    simp only [setup, SequenceTracker.invalidate, policy_advanced]

theorem setup_handleStep (step : HandleStep c msg after s) : after.setup = c.setup := by
  cases step with
  | rejected failed => rfl
  | ignored decoded kind => rfl
  | venueError decoded kind => rfl
  | snapshot decoded kind step => exact setup_snapshotStep step
  | update decoded kind step => exact setup_updateStep step

theorem snapshotStep_of_kind (decoded : msg.ok = true) (kind : msg.kind = .snapshot)
    (step : HandleStep c msg after s) : SnapshotStep c msg after s := by
  cases step with
  | rejected failed => simp [decoded] at failed
  | ignored _ other => simp [kind] at other
  | venueError _ other => simp [kind] at other
  | snapshot _ _ step => exact step
  | update _ other _ => simp [kind] at other

end FeedCore

namespace Feed

open FeedCore (Alike)

theorem setup_call (feed : Feed S) (call : FeedCall) :
    (feed.call call).core.setup = feed.core.setup := by
  cases call with
  | handle frame => exact FeedCore.setup_handleStep (feed.handle_step frame)
  | applySnapshot msg => exact FeedCore.setup_snapshotStep (feed.applySnapshot_step msg)
  | invalidate reason =>
    change (feed.invalidate reason).core.setup = _
    rw [core_invalidate]
    rfl
  | checkStaleness now maxGap =>
    change (feed.checkStaleness now maxGap).1.core.setup = _
    obtain ⟨-, -, after⟩ | ⟨-, same⟩ := feed.checkStaleness_cases now maxGap
    · rw [after, core_invalidate]
      rfl
    · rw [same]

theorem setup_run (feed : Feed S) (calls : List FeedCall) :
    (feed.run calls).core.setup = feed.core.setup := by
  induction calls generalizing feed with
  | nil => rfl
  | cons call rest ih => exact (ih (feed.call call)).trans (feed.setup_call call)

end Feed

inductive Opens (decoder : Decoder) : FeedCall → DecodedMessage → Prop where
  | framed (frame : Bytes) (decoded : (decoder.decode frame).ok = true)
    (kind : (decoder.decode frame).kind = .snapshot) :
    Opens decoder (.handle frame) (decoder.decode frame)
  | given (msg : DecodedMessage) (decoded : msg.ok = true) : Opens decoder (.applySnapshot msg) msg

namespace Feed

open FeedCore (Alike)

theorem opens_alike {f g : Feed S} (setup : f.core.setup = g.core.setup) {call : FeedCall}
    {msg : DecodedMessage} (opens : Opens f.decoder call msg)
    (numbered : msg.hasIds = true ∨ Numberless f.decoder) :
    (f.answer call).2 = (g.answer call).2 ∧
      Alike (f.answer call).1.core (g.answer call).1.core ∧
      (f.core.comparison call).map Comparison.matched =
        (g.core.comparison call).map Comparison.matched := by
  obtain ⟨decoder, same⟩ := Prod.mk.inj setup
  obtain ⟨depth, policy⟩ := Prod.mk.inj same
  have tracker : Numberless f.core.decoder ∨
      (f.core.anchored msg).knows = (g.core.anchored msg).knows := by
    refine numbered.symm.imp_right fun carried => ?_
    simp only [FeedCore.anchored, carried, if_true]
    exact SequenceTracker.onSnapshot_knows policy _
  have matched (decoded : msg.ok = true) :
      (f.core.snapshotComparison msg).map Comparison.matched =
        (g.core.snapshotComparison msg).map Comparison.matched := by
    simp only [FeedCore.snapshotComparison, decoded, if_true]
    exact comparisonOf_matched (FeedCore.rebuilt_levels depth msg) msg
  cases opens with
  | framed frame decoded kind =>
    have other : g.decoder.decode frame = f.decoder.decode frame := by
      rw [show g.decoder = f.decoder from decoder.symm]
    have mine := FeedCore.snapshotStep_of_kind decoded kind (f.handle_step frame)
    have theirs := g.handle_step frame
    rw [other] at theirs
    obtain ⟨after, step, alike⟩ := FeedCore.snapshot_alike decoded decoder depth tracker mine
    obtain ⟨core, status⟩ := step.unique (FeedCore.snapshotStep_of_kind decoded kind theirs)
    refine ⟨congrArg Answer.status status, core ▸ alike, ?_⟩
    have left : f.core.decoder.decode frame = f.decoder.decode frame := rfl
    have right : g.core.decoder.decode frame = f.decoder.decode frame := other
    simpa only [FeedCore.comparison, FeedCore.handleComparison, left, right, decoded, if_true, kind]
      using matched decoded
  | given msg decoded =>
    obtain ⟨after, step, alike⟩ :=
      FeedCore.snapshot_alike decoded decoder depth tracker (f.applySnapshot_step msg)
    obtain ⟨core, status⟩ := step.unique (g.applySnapshot_step msg)
    exact ⟨congrArg Answer.status status, core ▸ alike, matched decoded⟩

theorem respond_opens {f g : Feed S} (setup : f.core.setup = g.core.setup) {call : FeedCall}
    {msg : DecodedMessage} (opens : Opens f.decoder call msg)
    (numbered : msg.hasIds = true ∨ Numberless f.decoder) (later : List FeedCall) :
    (Run.respond answer f (call :: later)).2 = (Run.respond answer g (call :: later)).2 ∧
      Alike (Run.respond answer f (call :: later)).1.core
        (Run.respond answer g (call :: later)).1.core ∧
      (f.compared (call :: later)).map Comparison.matched =
        (g.compared (call :: later)).map Comparison.matched := by
  obtain ⟨here, alike, first⟩ := opens_alike setup opens numbered
  obtain ⟨answers, last, matched⟩ := respond_alike alike later
  refine ⟨congrArg₂ List.cons here answers, last, ?_⟩
  rw [answer_call, answer_call] at matched
  rw [compared, compared, List.map_append, List.map_append, first, matched]

theorem fates_opens {f g : Feed S} (setup : f.core.setup = g.core.setup) {frame : Bytes}
    (opens : Opens f.decoder (.handle frame) (f.decoder.decode frame))
    (numbered : (f.decoder.decode frame).hasIds = true ∨ Numberless f.decoder)
    (later : List Bytes) : f.fates (frame :: later) = g.fates (frame :: later) := by
  obtain ⟨-, alike, -⟩ := opens_alike setup opens numbered
  obtain ⟨decoder, same⟩ := Prod.mk.inj setup
  have other : g.decoder = f.decoder := decoder.symm
  rw [fates, fates, other]
  refine congrArg₂ List.cons ?_ (fates_alike alike later)
  cases opens with
  | framed _ decoded kind =>
    simp only [FeedCore.fate, decoded, if_true, kind]
    exact FeedCore.snapshotFate_congr (Prod.mk.inj same).1 _

end Feed

/-- A snapshot makes a feed forget: whatever it has been through, from its next snapshot on it
answers, and has the book, that a new feed would. -/
theorem snapshot_forgets (venue : Bytes) (decoder : Decoder) (policy : SequencePolicy) (depth : Nat)
    (past : List FeedCall) {snapshot : FeedCall} {msg : DecodedMessage}
    (opens : Opens decoder snapshot msg) (numbered : msg.hasIds = true ∨ Numberless decoder)
    (later : List FeedCall) :
    let start : Feed S := Feed.new venue decoder policy depth
    let seasoned := Run.respond Feed.answer (start.run past) (snapshot :: later)
    let fresh := Run.respond Feed.answer start (snapshot :: later)
    seasoned.2 = fresh.2 ∧ seasoned.1.synced = fresh.1.synced ∧
      (∀ side, seasoned.1.book.levels side = fresh.1.book.levels side) ∧
      ((start.run past).compared (snapshot :: later)).map Comparison.matched =
        (start.compared (snapshot :: later)).map Comparison.matched := by
  intro start seasoned fresh
  have setup := start.setup_run past
  have same : (start.run past).decoder = decoder := congrArg Prod.fst setup
  obtain ⟨answers, alike, matched⟩ :=
    Feed.respond_opens setup (same ▸ opens) (same ▸ numbered) later
  exact ⟨answers, alike.synced, alike.levels, matched⟩

section Reconnected

def btcUsdt : BinanceDepthDecoder := ⟨⟨bytes "BTCUSDT", 2, 8⟩, .spot⟩

def fetched : DecodedMessage :=
  { DecodedMessage.blank with
    kind := .snapshot
    hasIds := true
    ids := ⟨7, 7, 7⟩
    levels := [⟨.bid, ⟨100⟩, ⟨3⟩⟩] }

def beforehand : List FeedCall := [.applySnapshot fetched, .invalidate .staleFeed]

theorem snapshot_forgets_reconnected :
    let start : Feed MapSide :=
      Feed.new (bytes "binance") btcUsdt.toDecoder .binanceSpot 0
    let seasoned := Run.respond Feed.answer (start.run beforehand)
      (.applySnapshot fetched :: [.checkStaleness 9 1])
    let fresh := Run.respond Feed.answer start (.applySnapshot fetched :: [.checkStaleness 9 1])
    seasoned.2 = fresh.2 ∧ seasoned.1.synced = fresh.1.synced ∧
      (∀ side, seasoned.1.book.levels side = fresh.1.book.levels side) ∧
      ((start.run beforehand).compared
          (.applySnapshot fetched :: [.checkStaleness 9 1])).map Comparison.matched =
        (start.compared (.applySnapshot fetched :: [.checkStaleness 9 1])).map
          Comparison.matched :=
  snapshot_forgets (bytes "binance") btcUsdt.toDecoder .binanceSpot 0 beforehand
    (.given fetched (by decide)) (.inl rfl) [.checkStaleness 9 1]

end Reconnected

end Crossbook
