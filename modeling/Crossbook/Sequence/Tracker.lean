import Crossbook.Types

set_option autoImplicit false

namespace Crossbook

inductive SequencePolicy where
  | binanceSpot
  | binanceFutures
  | strictIncrement
  deriving DecidableEq, Repr

structure UpdateIds where
  firstId : SequenceId
  finalId : SequenceId
  prevId : SequenceId
  deriving DecidableEq, Repr

inductive SequenceAction where
  | apply
  | discardStale
  | resyncRequired
  deriving DecidableEq, Repr

structure SequenceStats where
  applied : Nat
  discardedStale : Nat
  gapsDetected : Nat
  snapshotsApplied : Nat
  deriving DecidableEq, Repr

structure SequenceTracker where
  policy : SequencePolicy
  snapshotId : SequenceId
  lastFinalId : SequenceId
  haveSnapshot : Bool
  straddled : Bool
  stats : SequenceStats
  deriving DecidableEq, Repr

namespace SequenceTracker

def new (policy : SequencePolicy) : SequenceTracker where
  policy := policy
  snapshotId := 0
  lastFinalId := 0
  haveSnapshot := false
  straddled := false
  stats := ⟨0, 0, 0, 0⟩

def onSnapshot (t : SequenceTracker) (snapshotId : SequenceId) : SequenceTracker :=
  { t with
    snapshotId := snapshotId
    haveSnapshot := true
    straddled := false
    lastFinalId := 0
    stats := { t.stats with snapshotsApplied := t.stats.snapshotsApplied + 1 } }

def discard (t : SequenceTracker) : SequenceTracker :=
  { t with stats := { t.stats with discardedStale := t.stats.discardedStale + 1 } }

def gap (t : SequenceTracker) : SequenceTracker :=
  { t with
    haveSnapshot := false
    stats := { t.stats with gapsDetected := t.stats.gapsDetected + 1 } }

def accept (t : SequenceTracker) (finalId : SequenceId) : SequenceTracker :=
  { t with
    straddled := true
    lastFinalId := finalId
    stats := { t.stats with applied := t.stats.applied + 1 } }

-- Spot anchors one past the snapshot, and the sum wraps as the code's does.
def anchor (t : SequenceTracker) : SequenceId :=
  if t.policy = .binanceSpot then t.snapshotId + 1 else t.snapshotId

def onStrictUpdate (t : SequenceTracker) (ids : UpdateIds) : SequenceTracker × SequenceAction :=
  -- The first update continues the snapshot, every other one the update before it.
  if t.straddled = false then
    if ids.finalId ≤ t.snapshotId then (t.discard, .discardStale)
    else if ids.finalId ≠ t.snapshotId + 1 then (t.gap, .resyncRequired)
    else (t.accept ids.finalId, .apply)
  else if ids.finalId ≠ t.lastFinalId + 1 then
    if ids.finalId ≤ t.lastFinalId then (t.discard, .discardStale)
    else (t.gap, .resyncRequired)
  else (t.accept ids.finalId, .apply)

def continuous (t : SequenceTracker) (ids : UpdateIds) : Bool :=
  if t.policy = .binanceSpot then ids.firstId == t.lastFinalId + 1 else ids.prevId == t.lastFinalId

def onBinanceUpdate (t : SequenceTracker) (ids : UpdateIds) : SequenceTracker × SequenceAction :=
  if t.straddled = false then
    -- The first update has to reach across the anchor.
    if ids.finalId < t.anchor then (t.discard, .discardStale)
    else if ¬ (ids.firstId ≤ t.anchor ∧ ids.finalId ≥ t.anchor) then (t.gap, .resyncRequired)
    else (t.accept ids.finalId, .apply)
  else if t.continuous ids = false then
    if ids.finalId ≤ t.lastFinalId then (t.discard, .discardStale)
    else (t.gap, .resyncRequired)
  else (t.accept ids.finalId, .apply)

def onUpdate (t : SequenceTracker) (ids : UpdateIds) : SequenceTracker × SequenceAction :=
  -- Nothing is counted while there is no snapshot to continue from.
  if t.haveSnapshot = false then (t, .resyncRequired)
  else if t.policy = .strictIncrement then t.onStrictUpdate ids
  else t.onBinanceUpdate ids

def invalidate (t : SequenceTracker) : SequenceTracker :=
  { t with haveSnapshot := false, straddled := false }

/-- The ids that let an update through: those that continue the stream after the last applied
update, and those that reach across the anchor when nothing has been applied yet. -/
def Continues (t : SequenceTracker) (ids : UpdateIds) : Prop :=
  match t.policy, t.straddled with
  | .strictIncrement, true => ids.finalId = t.lastFinalId + 1
  | .strictIncrement, false => t.snapshotId < ids.finalId ∧ ids.finalId = t.snapshotId + 1
  | .binanceSpot, true => ids.firstId = t.lastFinalId + 1
  | .binanceFutures, true => ids.prevId = t.lastFinalId
  | .binanceSpot, false => ids.firstId ≤ t.snapshotId + 1 ∧ t.snapshotId + 1 ≤ ids.finalId
  | .binanceFutures, false => ids.firstId ≤ t.snapshotId ∧ t.snapshotId ≤ ids.finalId

/-- The ids that mark an update which carries nothing new. -/
def Stale (t : SequenceTracker) (ids : UpdateIds) : Prop :=
  if t.straddled then ids.finalId ≤ t.lastFinalId
  else if t.policy = .strictIncrement then ids.finalId ≤ t.snapshotId
  else ids.finalId < t.anchor

@[simp] theorem policy_discard (t : SequenceTracker) : t.discard.policy = t.policy := rfl

@[simp] theorem snapshotId_discard (t : SequenceTracker) : t.discard.snapshotId = t.snapshotId := rfl

@[simp] theorem policy_gap (t : SequenceTracker) : t.gap.policy = t.policy := rfl

@[simp] theorem snapshotId_gap (t : SequenceTracker) : t.gap.snapshotId = t.snapshotId := rfl

@[simp] theorem policy_accept (t : SequenceTracker) (finalId : SequenceId) :
    (t.accept finalId).policy = t.policy := rfl

@[simp] theorem snapshotId_accept (t : SequenceTracker) (finalId : SequenceId) :
    (t.accept finalId).snapshotId = t.snapshotId := rfl

theorem onUpdate_lost {t : SequenceTracker} (lost : t.haveSnapshot = false) (ids : UpdateIds) :
    t.onUpdate ids = (t, .resyncRequired) := by
  simp [onUpdate, lost]

theorem onUpdate_accept {t : SequenceTracker} (held : t.haveSnapshot = true) (ids : UpdateIds)
    (continues : t.Continues ids) : t.onUpdate ids = (t.accept ids.finalId, .apply) := by
  unfold onUpdate onStrictUpdate onBinanceUpdate continuous anchor
  unfold Continues at continues
  cases policy : t.policy <;> cases straddled : t.straddled <;>
    simp only [policy, straddled] at continues <;> simp [held, continues]
  rw [← continues.2]
  exact continues.1

theorem onUpdate_discard {t : SequenceTracker} (held : t.haveSnapshot = true) (ids : UpdateIds)
    (breaks : ¬ t.Continues ids) (stale : t.Stale ids) :
    t.onUpdate ids = (t.discard, .discardStale) := by
  unfold onUpdate onStrictUpdate onBinanceUpdate continuous
  unfold Continues at breaks
  unfold Stale at stale
  cases policy : t.policy <;> cases straddled : t.straddled <;>
    simp only [policy, straddled] at breaks stale <;> simp_all

theorem onUpdate_gap {t : SequenceTracker} (held : t.haveSnapshot = true) (ids : UpdateIds)
    (breaks : ¬ t.Continues ids) (fresh : ¬ t.Stale ids) :
    t.onUpdate ids = (t.gap, .resyncRequired) := by
  unfold onUpdate onStrictUpdate onBinanceUpdate continuous anchor
  unfold Continues at breaks
  unfold Stale anchor at fresh
  cases policy : t.policy <;> cases straddled : t.straddled <;>
    simp only [policy, straddled] at breaks fresh <;> simp_all
  all_goals grind

theorem onUpdate_cases (t : SequenceTracker) (ids : UpdateIds) :
    (t.haveSnapshot = false ∧ t.onUpdate ids = (t, .resyncRequired)) ∨
    (t.haveSnapshot = true ∧ t.Continues ids ∧
      t.onUpdate ids = (t.accept ids.finalId, .apply)) ∨
    (t.haveSnapshot = true ∧ ¬ t.Continues ids ∧ t.Stale ids ∧
      t.onUpdate ids = (t.discard, .discardStale)) ∨
    (t.haveSnapshot = true ∧ ¬ t.Continues ids ∧ ¬ t.Stale ids ∧
      t.onUpdate ids = (t.gap, .resyncRequired)) := by
  -- Everything one call can do: what every invariant of the tracker is derived from.
  cases held : t.haveSnapshot
  · exact .inl ⟨rfl, onUpdate_lost held ids⟩
  · by_cases continues : t.Continues ids
    · exact .inr (.inl ⟨rfl, continues, onUpdate_accept held ids continues⟩)
    · by_cases stale : t.Stale ids
      · exact .inr (.inr (.inl ⟨rfl, continues, stale, onUpdate_discard held ids continues stale⟩))
      · exact .inr (.inr (.inr ⟨rfl, continues, stale, onUpdate_gap held ids continues stale⟩))

theorem onUpdate_apply_iff (t : SequenceTracker) (ids : UpdateIds) :
    (t.onUpdate ids).2 = .apply ↔ t.haveSnapshot = true ∧ t.Continues ids := by
  obtain ⟨held, same⟩ | ⟨held, continues, same⟩ | ⟨held, breaks, -, same⟩ | ⟨held, breaks, -, same⟩ :=
    t.onUpdate_cases ids <;> simp_all

theorem onUpdate_policy (t : SequenceTracker) (ids : UpdateIds) :
    (t.onUpdate ids).1.policy = t.policy := by
  obtain ⟨-, same⟩ | ⟨-, -, same⟩ | ⟨-, -, -, same⟩ | ⟨-, -, -, same⟩ := t.onUpdate_cases ids <;>
    rw [same] <;> rfl

end SequenceTracker

end Crossbook
