import Crossbook.Sequence.Tracker

set_option autoImplicit false

namespace Crossbook

def anchorOf (policy : SequencePolicy) (snapshotId : SequenceId) : Nat :=
  if policy = .binanceFutures then snapshotId.toNat else snapshotId.toNat + 1

def Ranged (policy : SequencePolicy) (ids : UpdateIds) : Prop :=
  ids.finalId.toNat < 2 ^ 64 - 1 ∧
    match policy with
    | .binanceSpot => ids.firstId ≤ ids.finalId
    | .binanceFutures => ids.prevId < ids.firstId ∧ ids.firstId ≤ ids.finalId
    | .strictIncrement => True

-- `ids` is the venue's next event after the one that ended at `finalId`.
def Resumes (policy : SequencePolicy) (finalId : SequenceId) (ids : UpdateIds) : Prop :=
  match policy with
  | .binanceSpot => ids.firstId.toNat = finalId.toNat + 1
  | .binanceFutures => ids.firstId.toNat = finalId.toNat + 1 ∧ ids.prevId = finalId
  | .strictIncrement => ids.finalId.toNat = finalId.toNat + 1

structure Contiguous (policy : SequencePolicy) (events : List UpdateIds) : Prop where
  ranged : ∀ ids ∈ events, Ranged policy ids
  chain : events.IsChain (fun earlier ids => Resumes policy earlier.finalId ids)

def StartsBy (policy : SequencePolicy) (limit : Nat) (ids : UpdateIds) : Prop :=
  match policy with
  | .strictIncrement => ids.finalId.toNat ≤ limit
  | _ => ids.firstId.toNat ≤ limit

/-- `Delivery seen pending deliveries`: after `seen`, the events of `pending` arrive in order,
any number of them, among repeats of what has arrived before. The flag tells the first arrival of
an event from a repeat. -/
inductive Delivery : List UpdateIds → List UpdateIds → List (UpdateIds × Bool) → Prop where
  | done (seen pending : List UpdateIds) : Delivery seen pending []
  | fresh {seen pending : List UpdateIds} {deliveries : List (UpdateIds × Bool)} (ids : UpdateIds)
      (later : Delivery (ids :: seen) pending deliveries) :
      Delivery seen (ids :: pending) ((ids, true) :: deliveries)
  | again {seen pending : List UpdateIds} {deliveries : List (UpdateIds × Bool)} (ids : UpdateIds)
      (arrived : ids ∈ seen) (later : Delivery seen pending deliveries) :
      Delivery seen pending ((ids, false) :: deliveries)

namespace SequenceTracker

def answers (t : SequenceTracker) : List UpdateIds → List SequenceAction
  | [] => []
  | ids :: rest => (t.onUpdate ids).2 :: answers (t.onUpdate ids).1 rest

def applied (t : SequenceTracker) : List UpdateIds → List UpdateIds
  | [] => []
  | ids :: rest =>
    (if (t.onUpdate ids).2 = .apply then [ids] else []) ++ applied (t.onUpdate ids).1 rest

end SequenceTracker

def expectedAnswer (policy : SequencePolicy) (snapshotId : SequenceId)
    (delivery : UpdateIds × Bool) : SequenceAction :=
  if delivery.2 = true ∧ anchorOf policy snapshotId ≤ delivery.1.finalId.toNat then .apply
  else .discardStale

-- What the tracker knows between two deliveries of one stretch.
structure Converging (t : SequenceTracker) (seen pending : List UpdateIds) : Prop where
  held : t.haveSnapshot = true
  spotFits : t.policy = .binanceSpot → t.snapshotId.toNat < 2 ^ 64 - 1
  contiguous : Contiguous t.policy pending
  ranged : ∀ ids ∈ seen, Ranged t.policy ids
  waiting : t.straddled = false →
    (∀ ids ∈ seen, ids.finalId.toNat < anchorOf t.policy t.snapshotId) ∧
      ∀ ids ∈ pending.head?, StartsBy t.policy (anchorOf t.policy t.snapshotId) ids
  following : t.straddled = true →
    (∀ ids ∈ seen, ids.finalId ≤ t.lastFinalId) ∧
      anchorOf t.policy t.snapshotId ≤ t.lastFinalId.toNat ∧
      t.lastFinalId.toNat < 2 ^ 64 - 1 ∧
      ∀ ids ∈ pending.head?, Resumes t.policy t.lastFinalId ids

namespace Converging

variable {t : SequenceTracker} {seen pending : List UpdateIds} {ids : UpdateIds}

theorem stale_of_seen (converging : Converging t seen pending)
    (arrived : ids ∈ seen) : ¬ t.Continues ids ∧ t.Stale ids := by
  have ranged := converging.ranged ids arrived
  have spotFits := converging.spotFits
  have waiting := converging.waiting
  have following := converging.following
  unfold SequenceTracker.Continues SequenceTracker.Stale SequenceTracker.anchor
  unfold Ranged at ranged
  unfold anchorOf at waiting following
  cases policy : t.policy <;> cases straddled : t.straddled <;>
    simp only [policy, straddled, reduceCtorEq, ↓reduceIte, UInt64.le_iff_toNat_le,
      UInt64.lt_iff_toNat_lt, ← UInt64.toNat_inj, UInt64.toNat_add] at * <;> grind

theorem stale_of_below (converging : Converging t seen pending)
    (straddled : t.straddled = false) (below : ids.finalId.toNat < anchorOf t.policy t.snapshotId) :
    ¬ t.Continues ids ∧ t.Stale ids := by
  have spotFits := converging.spotFits
  unfold SequenceTracker.Continues SequenceTracker.Stale SequenceTracker.anchor
  unfold anchorOf at below
  cases policy : t.policy <;>
    simp only [policy, straddled, reduceCtorEq, ↓reduceIte, UInt64.le_iff_toNat_le,
      UInt64.lt_iff_toNat_lt, ← UInt64.toNat_inj, UInt64.toNat_add] at * <;> grind

theorem continues_of_next (converging : Converging t seen (ids :: pending))
    (reaches : anchorOf t.policy t.snapshotId ≤ ids.finalId.toNat) : t.Continues ids := by
  have ranged := converging.contiguous.ranged ids (by simp)
  have spotFits := converging.spotFits
  have waiting := converging.waiting
  have following := converging.following
  unfold SequenceTracker.Continues
  unfold Ranged at ranged
  unfold anchorOf StartsBy at waiting
  unfold anchorOf at reaches following
  unfold Resumes at following
  cases policy : t.policy <;> cases straddled : t.straddled <;>
    simp only [policy, straddled, reduceCtorEq, ↓reduceIte, UInt64.le_iff_toNat_le,
      UInt64.lt_iff_toNat_lt, ← UInt64.toNat_inj, UInt64.toNat_add] at * <;> grind

theorem next_resumes (converging : Converging t seen (ids :: pending)) :
    Contiguous t.policy pending ∧ ∀ next ∈ pending.head?, Resumes t.policy ids.finalId next := by
  obtain ⟨ranged, chain⟩ := converging.contiguous
  obtain ⟨following, tail⟩ := List.isChain_cons.mp chain
  exact ⟨⟨fun next member => ranged next (List.mem_cons_of_mem ids member), tail⟩, following⟩

theorem next_ranged (converging : Converging t seen (ids :: pending)) :
    ∀ earlier ∈ ids :: seen, Ranged t.policy earlier := by
  intro earlier member
  rcases List.mem_cons.mp member with rfl | member
  · exact converging.contiguous.ranged earlier (by simp)
  · exact converging.ranged earlier member

-- What lets an event through once one has been applied puts it past the anchor.
theorem reaches_of_straddled (converging : Converging t seen (ids :: pending))
    (straddled : t.straddled = true) : t.lastFinalId < ids.finalId := by
  have ranged := converging.contiguous.ranged ids (by simp)
  have resumes := (converging.following straddled).2.2.2 ids rfl
  unfold Ranged at ranged
  unfold Resumes at resumes
  cases policy : t.policy <;>
    simp only [policy, UInt64.le_iff_toNat_le, UInt64.lt_iff_toNat_lt] at * <;> omega

theorem fresh_applied (converging : Converging t seen (ids :: pending))
    (reaches : anchorOf t.policy t.snapshotId ≤ ids.finalId.toNat) :
    Converging (t.accept ids.finalId) (ids :: seen) pending where
  held := converging.held
  spotFits := converging.spotFits
  contiguous := converging.next_resumes.1
  ranged := converging.next_ranged
  waiting := by simp [SequenceTracker.accept]
  following := by
    intro _
    refine ⟨?_, reaches, (converging.contiguous.ranged ids (by simp)).1, converging.next_resumes.2⟩
    intro earlier member
    change earlier.finalId ≤ ids.finalId
    rcases List.mem_cons.mp member with rfl | member
    · exact UInt64.le_refl _
    · cases straddled : t.straddled with
      | false =>
        have below := (converging.waiting straddled).1 earlier member
        exact UInt64.le_iff_toNat_le.mpr (below.le.trans reaches)
      | true =>
        have below := (converging.following straddled).1 earlier member
        exact UInt64.le_of_lt (UInt64.lt_of_le_of_lt below (converging.reaches_of_straddled straddled))

theorem fresh_discarded (converging : Converging t seen (ids :: pending))
    (below : ids.finalId.toNat < anchorOf t.policy t.snapshotId) :
    t.straddled = false ∧ Converging t.discard (ids :: seen) pending := by
  have straddled : t.straddled = false := by
    by_contra straddled
    have straddled : t.straddled = true := by simpa using straddled
    have above := UInt64.lt_iff_toNat_lt.mp (converging.reaches_of_straddled straddled)
    have anchored := (converging.following straddled).2.1
    omega
  refine ⟨straddled, ?_⟩
  exact {
    held := converging.held
    spotFits := converging.spotFits
    contiguous := converging.next_resumes.1
    ranged := converging.next_ranged
    waiting := by
      intro _
      constructor
      · intro earlier member
        rcases List.mem_cons.mp member with rfl | member
        · exact below
        · exact (converging.waiting straddled).1 earlier member
      · intro next member
        have resumes := converging.next_resumes.2 next member
        unfold Resumes at resumes
        unfold StartsBy
        change match t.policy with
          | .strictIncrement => next.finalId.toNat ≤ anchorOf t.policy t.snapshotId
          | _ => next.firstId.toNat ≤ anchorOf t.policy t.snapshotId
        cases policy : t.policy <;> simp only [policy] at * <;> omega
    following := by
      intro applied
      exact absurd (applied.symm.trans straddled) (by simp) }

theorem repeated (converging : Converging t seen pending) : Converging t.discard seen pending where
  held := converging.held
  spotFits := converging.spotFits
  contiguous := converging.contiguous
  ranged := converging.ranged
  waiting := converging.waiting
  following := converging.following

end Converging

/-- The events of a stretch that are not wholly below the anchor. -/
def aboveAnchor (policy : SequencePolicy) (snapshotId : SequenceId) (ids : UpdateIds) : Bool :=
  decide (anchorOf policy snapshotId ≤ ids.finalId.toNat)

theorem delivery_converges {seen pending : List UpdateIds} {deliveries : List (UpdateIds × Bool)}
    (delivery : Delivery seen pending deliveries) (t : SequenceTracker)
    (converging : Converging t seen pending) :
    t.answers (deliveries.map Prod.fst) =
        deliveries.map (expectedAnswer t.policy t.snapshotId) ∧
      ∃ arrived, arrived <+: pending ∧
        t.applied (deliveries.map Prod.fst) =
          arrived.filter (aboveAnchor t.policy t.snapshotId) := by
  induction delivery generalizing t with
  | done seen pending => exact ⟨rfl, [], List.nil_prefix, rfl⟩
  | fresh ids later ih =>
    by_cases reaches : anchorOf t.policy t.snapshotId ≤ ids.finalId.toNat
    · have answer :=
        SequenceTracker.onUpdate_accept converging.held ids (converging.continues_of_next reaches)
      obtain ⟨answers, arrived, isPrefix, applied⟩ := ih _ (converging.fresh_applied reaches)
      refine ⟨?_, ids :: arrived, List.cons_prefix_cons.mpr ⟨rfl, isPrefix⟩, ?_⟩
      · simpa [SequenceTracker.answers, answer, expectedAnswer, reaches] using answers
      · simpa [SequenceTracker.applied, answer, aboveAnchor, reaches] using applied
    · have below : ids.finalId.toNat < anchorOf t.policy t.snapshotId := Nat.not_le.mp reaches
      obtain ⟨straddled, next⟩ := converging.fresh_discarded below
      obtain ⟨breaks, stale⟩ := converging.stale_of_below straddled below
      have answer := SequenceTracker.onUpdate_discard converging.held ids breaks stale
      obtain ⟨answers, arrived, isPrefix, applied⟩ := ih _ next
      refine ⟨?_, ids :: arrived, List.cons_prefix_cons.mpr ⟨rfl, isPrefix⟩, ?_⟩
      · simpa [SequenceTracker.answers, answer, expectedAnswer, reaches] using answers
      · simpa [SequenceTracker.applied, answer, aboveAnchor, reaches] using applied
  | again ids arrived later ih =>
    obtain ⟨breaks, stale⟩ := converging.stale_of_seen arrived
    have answer := SequenceTracker.onUpdate_discard converging.held ids breaks stale
    obtain ⟨answers, applied⟩ := ih _ converging.repeated
    constructor
    · simpa [SequenceTracker.answers, answer, expectedAnswer] using answers
    · simpa [SequenceTracker.applied, answer] using applied

/-- After the snapshot nothing is taken for a gap: what is wholly below the anchor or repeated is
discarded, and the rest is applied once and in order. -/
def Converges (t : SequenceTracker) (snapshotId : SequenceId) (events : List UpdateIds)
    (deliveries : List (UpdateIds × Bool)) : Prop :=
  (t.onSnapshot snapshotId).answers (deliveries.map Prod.fst) =
      deliveries.map (expectedAnswer t.policy snapshotId) ∧
    ∃ arrived, arrived <+: events ∧
      (t.onSnapshot snapshotId).applied (deliveries.map Prod.fst) =
        arrived.filter (aboveAnchor t.policy snapshotId)

section Stream

variable {t : SequenceTracker} {snapshotId : SequenceId} {events : List UpdateIds}
  {deliveries : List (UpdateIds × Bool)}

theorem converges_below_limit
    (spotFits : t.policy = .binanceSpot → snapshotId.toNat < 2 ^ 64 - 1)
    (contiguous : Contiguous t.policy events)
    (starts : ∀ first ∈ events.head?, StartsBy t.policy (anchorOf t.policy snapshotId) first)
    (delivery : Delivery [] events deliveries) : Converges t snapshotId events deliveries := by
  apply delivery_converges delivery
  exact {
    held := rfl
    spotFits := spotFits
    contiguous := contiguous
    ranged := by simp
    waiting := fun _ => ⟨by simp, starts⟩
    following := by simp [SequenceTracker.onSnapshot] }

-- The spot anchor wraps to zero there, and no id is below it.
theorem not_discarded_at_limit (spot : t.policy = .binanceSpot)
    (limit : snapshotId.toNat = 2 ^ 64 - 1) (ids : UpdateIds) :
    ((t.onSnapshot snapshotId).onUpdate ids).2 ≠ .discardStale := by
  have wrapped : (t.onSnapshot snapshotId).anchor = 0 := by
    have sum : snapshotId + 1 = 0 := by
      rw [← UInt64.toNat_inj, UInt64.toNat_add, limit]
      rfl
    simp [SequenceTracker.anchor, SequenceTracker.onSnapshot, spot, sum]
  have fresh : ¬ (t.onSnapshot snapshotId).Stale ids := by
    intro stale
    have straddled : (t.onSnapshot snapshotId).straddled = false := rfl
    have policy : (t.onSnapshot snapshotId).policy = .binanceSpot := spot
    rw [SequenceTracker.Stale, straddled, policy, wrapped] at stale
    simp at stale
  obtain ⟨-, same⟩ | ⟨-, -, same⟩ | ⟨-, -, stale, -⟩ | ⟨-, -, -, same⟩ :=
    (t.onSnapshot snapshotId).onUpdate_cases ids
  · simp [same]
  · simp [same]
  · exact absurd stale fresh
  · simp [same]

theorem diverges_at_limit (spot : t.policy = .binanceSpot)
    (limit : snapshotId.toNat = 2 ^ 64 - 1) (delivery : Delivery [] events deliveries)
    (some_ : deliveries ≠ []) : ¬ Converges t snapshotId events deliveries := by
  rintro ⟨answers, -⟩
  cases delivery with
  | done => exact some_ rfl
  | again ids arrived later => simp at arrived
  | fresh ids later =>
    have below : ¬ anchorOf t.policy snapshotId ≤ ids.finalId.toNat := by
      have small := ids.finalId.toNat_lt
      rw [anchorOf, if_neg (by simp [spot]), limit]
      omega
    rw [List.map_cons, List.map_cons, SequenceTracker.answers, List.cons.injEq, expectedAnswer,
      if_neg (fun both => below both.2)] at answers
    exact not_discarded_at_limit spot limit ids answers.1

end Stream

/-- A stretch that starts by the anchor converges, but for a spot snapshot with the last of the ids. -/
theorem contiguous_stream_converges_iff (t : SequenceTracker) (snapshotId : SequenceId)
    (events : List UpdateIds) (deliveries : List (UpdateIds × Bool))
    (contiguous : Contiguous t.policy events)
    (starts : ∀ first ∈ events.head?, StartsBy t.policy (anchorOf t.policy snapshotId) first)
    (delivery : Delivery [] events deliveries) :
    Converges t snapshotId events deliveries ↔
      (t.policy = .binanceSpot → snapshotId.toNat = 2 ^ 64 - 1 → deliveries = []) := by
  constructor
  · intro converges spot limit
    by_contra some_
    exact diverges_at_limit spot limit delivery some_ converges
  · intro clear
    by_cases limit : t.policy = .binanceSpot ∧ snapshotId.toNat = 2 ^ 64 - 1
    · obtain rfl := clear limit.1 limit.2
      exact ⟨rfl, [], List.nil_prefix, rfl⟩
    · refine converges_below_limit ?_ contiguous starts delivery
      intro spot
      have small := snapshotId.toNat_lt
      have other : snapshotId.toNat ≠ 2 ^ 64 - 1 := fun last => limit ⟨spot, last⟩
      omega

-- The straddling event, a repeat of it and its successor.
theorem contiguous_stream_converges_iff_spot :
    Converges (SequenceTracker.new .binanceSpot) 100
        [⟨96, 100, 0⟩, ⟨101, 105, 0⟩, ⟨106, 106, 0⟩]
        [(⟨96, 100, 0⟩, true), (⟨101, 105, 0⟩, true), (⟨96, 100, 0⟩, false),
          (⟨106, 106, 0⟩, true)] ↔
      ((SequenceTracker.new .binanceSpot).policy = .binanceSpot →
        (100 : SequenceId).toNat = 2 ^ 64 - 1 →
        [((⟨96, 100, 0⟩, true) : UpdateIds × Bool), (⟨101, 105, 0⟩, true), (⟨96, 100, 0⟩, false),
          (⟨106, 106, 0⟩, true)] = []) := by
  have contiguous : Contiguous .binanceSpot [⟨96, 100, 0⟩, ⟨101, 105, 0⟩, ⟨106, 106, 0⟩] := by
    constructor
    · simp [Ranged]
    · simp [Resumes]
  have delivery : Delivery [] [⟨96, 100, 0⟩, ⟨101, 105, 0⟩, ⟨106, 106, 0⟩]
      [(⟨96, 100, 0⟩, true), (⟨101, 105, 0⟩, true), (⟨96, 100, 0⟩, false),
        (⟨106, 106, 0⟩, true)] :=
    .fresh _ (.fresh _ (.again _ (by simp) (.fresh _ (.done _ _))))
  exact contiguous_stream_converges_iff (SequenceTracker.new .binanceSpot) 100 _ _ contiguous
    (by simp [StartsBy, anchorOf, SequenceTracker.new]) delivery

-- An event far below the snapshot is taken for a gap.
theorem spot_snapshot_at_limit :
    Contiguous .binanceSpot [⟨101, 105, 0⟩] ∧
      StartsBy .binanceSpot (anchorOf .binanceSpot 18446744073709551615) ⟨101, 105, 0⟩ ∧
      Delivery [] [⟨101, 105, 0⟩] [(⟨101, 105, 0⟩, true)] ∧
      ((SequenceTracker.new .binanceSpot).onSnapshot 18446744073709551615).answers
        [⟨101, 105, 0⟩] = [.resyncRequired] ∧
      ¬ Converges (SequenceTracker.new .binanceSpot) 18446744073709551615 [⟨101, 105, 0⟩]
        [(⟨101, 105, 0⟩, true)] := by
  refine ⟨⟨by simp [Ranged], by simp⟩, by simp [StartsBy, anchorOf], ?_, by decide, ?_⟩
  · exact .fresh _ (.done _ _)
  · rintro ⟨answers, -⟩
    revert answers
    decide

end Crossbook
