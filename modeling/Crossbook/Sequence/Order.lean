import Crossbook.Lib.Run
import Crossbook.Sequence.Tracker

set_option autoImplicit false

namespace Crossbook

inductive TrackerCall where
  | snapshot (id : SequenceId)
  | update (ids : UpdateIds)
  | invalidate
  deriving DecidableEq, Repr

-- A tracker with what it was given since the last snapshot: that snapshot's id and the final
-- ids of the updates it answered `apply`, in the order of the answers.
structure Watched where
  tracker : SequenceTracker
  snapshot : Option SequenceId
  applied : List SequenceId
  deriving DecidableEq, Repr

namespace Watched

def new (policy : SequencePolicy) : Watched := ⟨SequenceTracker.new policy, none, []⟩

def call (w : Watched) : TrackerCall → Watched
  | .snapshot id => ⟨w.tracker.onSnapshot id, some id, []⟩
  | .update ids =>
    let answered := w.tracker.onUpdate ids
    { w with
      tracker := answered.1
      applied := if answered.2 = .apply then w.applied ++ [ids.finalId] else w.applied }
  | .invalidate => { w with tracker := w.tracker.invalidate }

def InOrder (w : Watched) : Prop :=
  w.applied.Pairwise (· < ·) ∧
    (w.tracker.policy ≠ .binanceFutures →
      ∀ snapshot ∈ w.snapshot, ∀ id ∈ w.applied, snapshot < id)

-- What the tracker remembers of the applied updates while it is synced.
structure Tracks (w : Watched) : Prop where
  snapshot : w.tracker.haveSnapshot = true → w.snapshot = some w.tracker.snapshotId
  none : w.tracker.haveSnapshot = true → w.tracker.straddled = false → w.applied = []
  last : w.tracker.haveSnapshot = true → w.tracker.straddled = true →
    ∃ earlier, w.applied = earlier ++ [w.tracker.lastFinalId]

end Watched

/-- The ids a synced tracker can be given without falling back or standing still: a futures
`pu` or a spot `U` that names the last applied id comes with a later `u`, and neither a counter
nor a spot snapshot sits at the top of the id range when the stream runs on from zero. -/
def SequenceTracker.Advances (t : SequenceTracker) : TrackerCall → Prop
  | .update ids =>
    t.haveSnapshot = true →
      match t.policy, t.straddled with
      | .binanceFutures, true => ids.prevId = t.lastFinalId → t.lastFinalId < ids.finalId
      | .binanceSpot, true => ids.firstId = t.lastFinalId + 1 → t.lastFinalId < ids.finalId
      | .strictIncrement, true => ¬ (t.lastFinalId = 0xFFFFFFFFFFFFFFFF ∧ ids.finalId = 0)
      | .binanceSpot, false => ¬ (t.snapshotId = 0xFFFFFFFFFFFFFFFF ∧ ids.firstId = 0)
      | _, false => True
  | _ => True

theorem SequenceTracker.advances_iff {t : SequenceTracker} {ids : UpdateIds}
    (held : t.haveSnapshot = true) (continues : t.Continues ids) :
    t.Advances (.update ids) ↔
      if t.straddled then t.lastFinalId < ids.finalId
      else t.policy ≠ .binanceFutures → t.snapshotId < ids.finalId := by
  unfold Advances
  unfold Continues at continues
  cases policy : t.policy <;> cases straddled : t.straddled <;>
    simp only [policy, straddled] at continues ⊢ <;> simp [held, continues]
  all_goals grind

theorem SequenceTracker.advances_of_breaks {t : SequenceTracker} {ids : UpdateIds}
    (breaks : ¬ t.Continues ids) : t.Advances (.update ids) := by
  unfold Advances
  unfold Continues at breaks
  cases policy : t.policy <;> cases straddled : t.straddled <;>
    simp only [policy, straddled] at breaks ⊢ <;> grind

namespace Watched

theorem new_tracks (policy : SequencePolicy) : (new policy).Tracks := by
  constructor <;> simp [new, SequenceTracker.new]

theorem new_inOrder (policy : SequencePolicy) : (new policy).InOrder := by
  simp [InOrder, new]

theorem call_tracks (w : Watched) (call : TrackerCall) (tracks : w.Tracks) :
    (w.call call).Tracks := by
  cases call with
  | snapshot id => constructor <;> simp [Watched.call, SequenceTracker.onSnapshot]
  | invalidate => constructor <;> simp [Watched.call, SequenceTracker.invalidate]
  | update ids =>
    obtain ⟨-, same⟩ | ⟨held, -, same⟩ | ⟨-, -, -, same⟩ | ⟨-, -, -, same⟩ :=
      w.tracker.onUpdate_cases ids
    · simpa [Watched.call, same] using tracks
    · constructor
      · intro _
        simpa [Watched.call, same, SequenceTracker.accept] using tracks.snapshot held
      · simp [Watched.call, same, SequenceTracker.accept]
      · simp [Watched.call, same, SequenceTracker.accept]
    · obtain ⟨snapshot, none, last⟩ := tracks
      constructor <;> simpa [Watched.call, same, SequenceTracker.discard] using by assumption
    · constructor <;> simp [Watched.call, same, SequenceTracker.gap]

theorem pairwise_append_last (earlier : List SequenceId) (last id : SequenceId)
    (increasing : (earlier ++ [last]).Pairwise (· < ·)) :
    (earlier ++ [last] ++ [id]).Pairwise (· < ·) ↔ last < id := by
  rw [List.pairwise_append]
  constructor
  · intro ⟨_, _, above⟩
    exact above last (by simp) id (by simp)
  · intro above
    refine ⟨increasing, by simp, ?_⟩
    intro a member b single
    obtain rfl := List.mem_singleton.mp single
    rcases List.mem_append.mp member with before | final
    · have below := (List.pairwise_append.mp increasing).2.2 a before last (by simp)
      exact UInt64.lt_trans below above
    · obtain rfl := List.mem_singleton.mp final
      exact above

theorem accept_inOrder {w : Watched} {ids : UpdateIds} (tracks : w.Tracks) (ordered : w.InOrder)
    (held : w.tracker.haveSnapshot = true) (continues : w.tracker.Continues ids) :
    (w.call (.update ids)).InOrder ↔ w.tracker.Advances (.update ids) := by
  have same := SequenceTracker.onUpdate_accept held ids continues
  have snapshot := tracks.snapshot held
  obtain ⟨increasing, above⟩ := ordered
  have moved : w.call (.update ids) =
      ⟨w.tracker.accept ids.finalId, w.snapshot, w.applied ++ [ids.finalId]⟩ := by
    simp [Watched.call, same]
  rw [moved, SequenceTracker.advances_iff held continues]
  simp only [InOrder, snapshot, SequenceTracker.accept, Option.mem_some_iff, forall_eq']
  rw [snapshot] at above
  simp only [Option.mem_some_iff, forall_eq'] at above
  cases straddled : w.tracker.straddled with
  | false =>
    rw [tracks.none held straddled]
    simp
  | true =>
    obtain ⟨earlier, shape⟩ := tracks.last held straddled
    rw [shape] at increasing above ⊢
    rw [pairwise_append_last earlier _ _ increasing, if_pos rfl]
    refine ⟨fun h => h.1, fun h => ⟨h, ?_⟩⟩
    intro policy id member
    rcases List.mem_append.mp member with before | final
    · exact above policy id before
    · obtain rfl := List.mem_singleton.mp final
      exact UInt64.lt_trans (above policy _ (by simp)) h

theorem call_inOrder (w : Watched) (call : TrackerCall) (tracks : w.Tracks) (ordered : w.InOrder) :
    (w.call call).InOrder ↔ w.tracker.Advances call := by
  cases call with
  | snapshot id => simp [InOrder, Watched.call, SequenceTracker.Advances]
  | invalidate =>
    simpa [InOrder, Watched.call, SequenceTracker.Advances, SequenceTracker.invalidate] using ordered
  | update ids =>
    obtain ⟨lost, same⟩ | ⟨held, continues, -⟩ | ⟨-, breaks, -, same⟩ | ⟨-, breaks, -, same⟩ :=
      w.tracker.onUpdate_cases ids
    · simpa [InOrder, Watched.call, SequenceTracker.Advances, same, lost] using ordered
    · exact accept_inOrder tracks ordered held continues
    · simpa [InOrder, Watched.call, same, SequenceTracker.advances_of_breaks breaks,
        SequenceTracker.discard] using ordered
    · simpa [InOrder, Watched.call, same, SequenceTracker.advances_of_breaks breaks,
        SequenceTracker.gap] using ordered

end Watched

/-- A run applies updates in order, each once, exactly when each of its calls advances. -/
theorem applied_in_order (policy : SequencePolicy) (calls : List TrackerCall) :
    Run.Always Watched.call Watched.InOrder (Watched.new policy) calls ↔
      Run.EachCall Watched.call (fun w call => w.tracker.Advances call) (Watched.new policy)
        calls := by
  apply Run.always_iff_eachCall
  · exact Watched.call_tracks
  · exact Watched.call_inOrder
  · exact Watched.new_tracks policy
  · exact Watched.new_inOrder policy

-- A futures event whose `pu` names its own final id is applied as often as it is delivered.
theorem applied_twice :
    ((Watched.new .binanceFutures).call (.snapshot 100) |>.call (.update ⟨100, 105, 105⟩)
      |>.call (.update ⟨100, 105, 105⟩)).applied = [105, 105] ∧
    ¬ ∀ (policy : SequencePolicy) (calls : List TrackerCall),
      Run.Always Watched.call Watched.InOrder (Watched.new policy) calls := by
  constructor
  · decide
  · intro claim
    have last := (claim .binanceFutures [.snapshot 100, .update ⟨100, 105, 105⟩,
      .update ⟨100, 105, 105⟩]).last
    have increasing := last.1
    revert increasing
    decide

end Crossbook
