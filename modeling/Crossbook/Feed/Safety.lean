import Crossbook.Feed.Steps

set_option autoImplicit false

namespace Crossbook

variable {S : Type} [SideImpl S] [LawfulSideImpl S]

def Allowed : FeedCall → Prop
  | .applySnapshot msg => msg.ok = false ∨ msg.kind = .snapshot
  | _ => True

omit [LawfulSideImpl S] in
-- The update is loaded into the book rather than dropped on its ids.
def LoadsUpdate (c : FeedCore S) (msg : DecodedMessage) : Prop :=
  msg.kind = .update ∧ c.synced = true ∧
    (msg.hasIds = true → (c.tracker.onUpdate msg.ids).2 = .apply)

/-- What a message leaves behind, by either entry point. -/
structure SafeOutcome (c : FeedCore S) (msg : DecodedMessage) (after : FeedCore S)
    (status : FeedStatus) : Prop where
  verified : msg.hasChecksum = true → status = .applied →
    krakenChecksum after.book = msg.checksum ∧ after.synced = true
  mismatched : msg.ok = true → (msg.kind = .snapshot ∨ LoadsUpdate c msg) →
    msg.hasChecksum = true → krakenChecksum after.book ≠ msg.checksum →
    after.synced = false ∧ status = .needsSnapshot
  resumes : c.synced = false → after.synced = true →
    msg.ok = true ∧ msg.kind = .snapshot ∧ status = .applied

structure SafeHandle (c : FeedCore S) (msg : DecodedMessage) (after : FeedCore S)
    (status : FeedStatus) : Prop extends SafeOutcome c msg after status where
  refused : c.synced = false → msg.kind = .update → after.book = c.book ∧
    (msg.ok = true → status = .needsSnapshot)
  gap : c.synced = true → msg.ok = true → msg.kind = .update → msg.hasIds = true →
    (c.tracker.onUpdate msg.ids).2 = .resyncRequired →
    after.synced = false ∧ status = .needsSnapshot
  quiet : status = .rejected ∨ status = .ignored →
    after.book = c.book ∧ after.book.lastUpdate = c.book.lastUpdate ∧ after.synced = c.synced ∧
      after.tracker.snapshotId = c.tracker.snapshotId ∧
      after.tracker.lastFinalId = c.tracker.lastFinalId

def SafeCall (feed : Feed S) : FeedCall → Prop
  | .handle frame =>
    SafeHandle feed.core (feed.decoder.decode frame) (feed.handle frame).1.core
      (feed.handle frame).2
  | .applySnapshot msg =>
    SafeOutcome feed.core msg (feed.applySnapshot msg).1.core (feed.applySnapshot msg).2
  | .invalidate reason => (feed.invalidate reason).synced = false
  | .checkStaleness now maxGap =>
    (feed.checkStaleness now maxGap).2 = true → (feed.checkStaleness now maxGap).1.synced = false

omit [LawfulSideImpl S] in
-- A feed that is left asking for a snapshot promises nothing more.
theorem SafeOutcome.of_lost {c after : FeedCore S} {msg : DecodedMessage}
    (lost : after.synced = false) : SafeOutcome c msg after .needsSnapshot where
  verified _ applied := absurd applied (by simp)
  mismatched _ _ _ _ := ⟨lost, rfl⟩
  resumes _ synced := absurd (synced.symm.trans lost) (by simp)

omit [LawfulSideImpl S] in
-- A message that is neither loaded nor refused changes nothing.
theorem SafeHandle.of_idle {c : FeedCore S} {msg : DecodedMessage} {status : FeedStatus}
    (idle : msg.ok = true → msg.kind ≠ .snapshot ∧ msg.kind ≠ .update) (other : status ≠ .applied) :
    SafeHandle c msg c status where
  verified _ applied := absurd applied other
  mismatched decoded loaded := by
    rcases loaded with snapshot | ⟨update, _⟩
    · exact absurd snapshot (idle decoded).1
    · exact absurd update (idle decoded).2
  resumes lost synced := absurd (synced.symm.trans lost) (by simp)
  refused _ kind := ⟨rfl, fun decoded => absurd kind (idle decoded).2⟩
  gap _ decoded kind := absurd kind (idle decoded).2
  quiet _ := ⟨rfl, rfl, rfl, rfl, rfl⟩

namespace SnapshotStep

variable {c after : FeedCore S} {msg : DecodedMessage} {status : FeedStatus}

theorem safe (step : SnapshotStep c msg after status)
    (given : msg.ok = true → msg.kind = .snapshot) : SafeOutcome c msg after status := by
  cases step with
  | rejected failed =>
    constructor
    · intro _ impossible
      cases impossible
    · intro decoded
      exact absurd (decoded.symm.trans failed) (by simp)
    · intro lost synced
      exact absurd (synced.symm.trans lost) (by simp)
  | applied decoded verified =>
    constructor
    · exact fun carried _ => ⟨verified carried, rfl⟩
    · exact fun _ _ carried differs => absurd (verified carried) differs
    · exact fun _ _ => ⟨decoded, given decoded, rfl⟩
  | mismatched decoded differs => exact .of_lost rfl

end SnapshotStep

namespace UpdateStep

variable {c after : FeedCore S} {msg : DecodedMessage} {status : FeedStatus}

theorem safe (step : UpdateStep c msg after status) (kind : msg.kind = .update) :
    SafeOutcome c msg after status := by
  cases step with
  | unsynced lost => exact .of_lost lost
  | stale held numbered answer =>
    constructor
    · intro _ impossible
      cases impossible
    · intro _ loaded
      rcases loaded with snapshot | ⟨_, _, continues⟩
      · exact absurd (kind.symm.trans snapshot) (by simp)
      · exact absurd (answer.symm.trans (continues numbered)) (by simp)
    · intro lost
      exact absurd (held.symm.trans lost) (by simp)
  | gap held numbered answer => exact .of_lost rfl
  | applied held continues verified =>
    constructor
    · exact fun carried _ => ⟨verified carried, held⟩
    · exact fun _ _ carried differs => absurd (verified carried) differs
    · intro lost
      exact absurd (held.symm.trans lost) (by simp)
  | mismatched held continues differs => exact .of_lost rfl

theorem refused (step : UpdateStep c msg after status) (lost : c.synced = false) :
    after = c ∧ status = .needsSnapshot := by
  cases step with
  | unsynced _ => exact ⟨rfl, rfl⟩
  | stale held _ _ | gap held _ _ | applied held _ _ | mismatched held _ _ =>
    exact absurd (held.symm.trans lost) (by simp)

theorem gap_found (step : UpdateStep c msg after status) (held : c.synced = true)
    (numbered : msg.hasIds = true)
    (answer : (c.tracker.onUpdate msg.ids).2 = .resyncRequired) :
    after.synced = false ∧ status = .needsSnapshot := by
  cases step with
  | unsynced lost => exact absurd (held.symm.trans lost) (by simp)
  | stale _ _ other => exact absurd (answer.symm.trans other) (by simp)
  | gap _ _ _ => exact ⟨rfl, rfl⟩
  | applied _ continues _ => exact absurd (answer.symm.trans (continues numbered)) (by simp)
  | mismatched _ continues _ => exact ⟨rfl, rfl⟩

theorem ignored (step : UpdateStep c msg after status) :
    status ≠ .rejected ∧
      (status = .ignored → after = { c with tracker := c.tracker.discard }) := by
  cases step with
  | stale _ _ answer =>
    refine ⟨by simp, fun _ => ?_⟩
    obtain ⟨-, same⟩ | ⟨-, -, same⟩ | ⟨-, -, -, same⟩ | ⟨-, -, -, same⟩ :=
      c.tracker.onUpdate_cases msg.ids <;> rw [same] at answer ⊢ <;> cases answer
  | unsynced _ | gap _ _ _ | applied _ _ _ | mismatched _ _ _ => simp

end UpdateStep

theorem HandleStep.safe {c after : FeedCore S} {msg : DecodedMessage} {status : FeedStatus}
    (step : HandleStep c msg after status) : SafeHandle c msg after status := by
  cases step with
  | rejected failed =>
    apply SafeHandle.of_idle _ (by simp)
    exact fun decoded => absurd (decoded.symm.trans failed) (by simp)
  | ignored decoded kind =>
    apply SafeHandle.of_idle _ (by simp)
    simp [kind]
  | venueError decoded kind =>
    apply SafeHandle.of_idle _ (by simp)
    simp [kind]
  | snapshot decoded kind step =>
    refine ⟨step.safe (fun _ => kind), ?_, ?_, ?_⟩
    · exact fun _ update => absurd (kind.symm.trans update) (by simp)
    · exact fun _ _ update => absurd (kind.symm.trans update) (by simp)
    · intro quiet
      cases step with
      | rejected failed => exact absurd (decoded.symm.trans failed) (by simp)
      | applied _ _ => simp at quiet
      | mismatched _ _ => simp at quiet
  | update decoded kind step =>
    refine ⟨step.safe kind, ?_, ?_, ?_⟩
    · intro lost _
      obtain ⟨same, answer⟩ := step.refused lost
      exact ⟨congrArg FeedCore.book same, fun _ => answer⟩
    · exact fun held _ _ numbered answer => step.gap_found held numbered answer
    · intro quiet
      have same := step.ignored.2 (quiet.resolve_left step.ignored.1)
      subst same
      exact ⟨rfl, rfl, rfl, rfl, rfl⟩

namespace Feed

theorem call_safe (feed : Feed S) (call : FeedCall) (allowed : Allowed call) : SafeCall feed call := by
  cases call with
  | handle frame => exact (feed.handle_step frame).safe
  | applySnapshot msg =>
    exact (feed.applySnapshot_step msg).safe fun decoded =>
      allowed.resolve_left (by simp [decoded])
  | invalidate reason => exact congrArg FeedCore.synced (feed.core_invalidate reason)
  | checkStaleness now maxGap =>
    intro stale
    obtain ⟨-, -, same⟩ | ⟨-, same⟩ := feed.checkStaleness_cases now maxGap
    · rw [same]
      exact congrArg FeedCore.synced (feed.core_invalidate .staleFeed)
    · simp [same] at stale

def AcceptsSnapshot (feed : Feed S) : FeedCall → Prop
  | .handle frame =>
    (feed.decoder.decode frame).ok = true ∧ (feed.decoder.decode frame).kind = .snapshot ∧
      (feed.handle frame).2 = .applied
  | .applySnapshot msg => msg.ok = true ∧ (feed.applySnapshot msg).2 = .applied
  | _ => False

def RefusesUpdate (feed : Feed S) : FeedCall → Prop
  | .handle frame =>
    (feed.decoder.decode frame).ok = true → (feed.decoder.decode frame).kind = .update →
      (feed.handle frame).2 = .needsSnapshot ∧ (feed.handle frame).1.book = feed.book
  | _ => True

theorem call_stays_lost (feed : Feed S) (call : FeedCall) (allowed : Allowed call)
    (lost : feed.synced = false) (unaccepted : ¬ feed.AcceptsSnapshot call) :
    (feed.call call).synced = false := by
  have safe := feed.call_safe call allowed
  by_contra synced
  have synced : (feed.call call).synced = true := Bool.eq_true_of_not_eq_false synced
  cases call with
  | handle frame => exact unaccepted (safe.resumes lost synced)
  | applySnapshot msg =>
    obtain ⟨decoded, -, answer⟩ := safe.resumes lost synced
    exact unaccepted ⟨decoded, answer⟩
  | invalidate reason => exact absurd (synced.symm.trans safe) (by simp)
  | checkStaleness now maxGap =>
    obtain ⟨⟨held, -⟩, -⟩ | ⟨-, same⟩ := feed.checkStaleness_cases now maxGap
    · exact absurd (held.symm.trans lost) (by simp)
    · have unchanged : feed.call (.checkStaleness now maxGap) = feed := congrArg Prod.fst same
      rw [unchanged] at synced
      exact absurd (synced.symm.trans lost) (by simp)

theorem call_refuses (feed : Feed S) (call : FeedCall) (lost : feed.synced = false) :
    feed.RefusesUpdate call := by
  cases call with
  | handle frame =>
    intro decoded kind
    obtain ⟨same, answer⟩ := (feed.handle_step frame).safe.refused lost kind
    exact ⟨answer decoded, same⟩
  | applySnapshot _ | invalidate _ | checkStaleness _ _ => trivial

end Feed

theorem Feed.lost_until_snapshot (feed : Feed S) (calls : List FeedCall)
    (allowed : ∀ call ∈ calls, Allowed call) (lost : feed.synced = false)
    (unaccepted : Run.EachCall Feed.call (fun feed call => ¬ feed.AcceptsSnapshot call) feed calls) :
    Run.Always Feed.call (fun feed => feed.synced = false) feed calls ∧
      Run.EachCall Feed.call Feed.RefusesUpdate feed calls := by
  -- From an unsynced feed, nothing but an accepted snapshot restores sync.
  have always : Run.Always Feed.call (fun feed => feed.synced = false) feed calls := by
    have kept : ∀ (feed : Feed S) (call : FeedCall), feed.synced = false →
        Allowed call ∧ ¬ feed.AcceptsSnapshot call → (feed.call call).synced = false :=
      fun feed call lost given => feed.call_stays_lost call given.1 lost given.2
    apply Run.always_of_invariant kept calls lost
    intro before call isPrefix
    exact ⟨allowed call (isPrefix.subset (by simp)), unaccepted before call isPrefix⟩
  exact ⟨always, Run.eachCall_of_always always Feed.call_refuses⟩

/-- Every call of every run is safe, and sync once lost stays lost until a snapshot is accepted. -/
theorem feed_safe (venue : Bytes) (decoder : Decoder) (policy : SequencePolicy) (depth : Nat)
    (calls : List FeedCall) (allowed : ∀ call ∈ calls, Allowed call) :
    Run.EachCall Feed.call SafeCall (Feed.new venue decoder policy depth : Feed S) calls ∧
      ∀ before after, calls = before ++ after →
        ((Feed.new venue decoder policy depth : Feed S).run before).synced = false →
        Run.EachCall Feed.call (fun feed call => ¬ feed.AcceptsSnapshot call)
          ((Feed.new venue decoder policy depth : Feed S).run before) after →
        Run.Always Feed.call (fun feed => feed.synced = false)
            ((Feed.new venue decoder policy depth : Feed S).run before) after ∧
          Run.EachCall Feed.call Feed.RefusesUpdate
            ((Feed.new venue decoder policy depth : Feed S).run before) after := by
  constructor
  · apply Run.eachCall_of_forall
    exact fun feed call member => feed.call_safe call (allowed call member)
  · intro before after split lost unaccepted
    apply Feed.lost_until_snapshot _ after _ lost unaccepted
    intro call member
    exact allowed call (by simp [split, member])

section Lossy

-- An update in step, one with a wrong checksum, and one behind a gap.
def lossyDecoder : Decoder where
  spec := ⟨[], 0, 0⟩
  decode
    | [1] =>
      { DecodedMessage.blank with
        kind := .update, ids := ⟨101, 101, 0⟩, hasIds := true, levels := [⟨.bid, ⟨5⟩, ⟨1⟩⟩], ts := 6 }
    | [2] =>
      { DecodedMessage.blank with
        kind := .update, ids := ⟨102, 102, 0⟩, hasIds := true, hasChecksum := true, ts := 7 }
    | [3] => { DecodedMessage.blank with kind := .update, ids := ⟨205, 205, 0⟩, hasIds := true, ts := 8 }
    | _ => DecodedMessage.blank

def lossySnapshot : FeedCall :=
  .applySnapshot
    { DecodedMessage.blank with
      kind := .snapshot, ids := ⟨100, 100, 0⟩, hasIds := true, levels := [⟨.ask, ⟨7⟩, ⟨1⟩⟩], ts := 5 }

def lossyStart : Feed MapSide := Feed.new [] lossyDecoder .binanceSpot 0

def mismatchCalls : List FeedCall := [lossySnapshot, .handle [1], .handle [2]]

def lossyCalls : List FeedCall :=
  mismatchCalls ++ [.handle [1], lossySnapshot, .handle [1], .handle [3], lossySnapshot,
    .checkStaleness 100 10]

theorem feed_safe_mismatch_and_gap :
    Run.EachCall Feed.call SafeCall lossyStart lossyCalls ∧
      Run.Always Feed.call (fun feed => feed.synced = false) (lossyStart.run mismatchCalls)
        [.handle [1]] ∧
      Run.EachCall Feed.call Feed.RefusesUpdate (lossyStart.run mismatchCalls) [.handle [1]] ∧
      (lossyStart.run lossyCalls).stats = ⟨5, 6, 0, 0, 3, 3, 1, 1, 0, 0, 0⟩ := by
  have allowed : ∀ call ∈ lossyCalls, Allowed call := by
    simp [lossyCalls, mismatchCalls, lossySnapshot, Allowed]
  have early : ∀ call ∈ mismatchCalls ++ [.handle [1]], Allowed call := by
    simp [mismatchCalls, lossySnapshot, Allowed]
  have update (before : List FeedCall) (call : FeedCall)
      (isPrefix : before ++ [call] <+: [.handle [1]]) :
      ¬ ((lossyStart.run mismatchCalls).run before).AcceptsSnapshot call := by
    obtain ⟨rfl, rfl⟩ : before = [] ∧ call = .handle [1] := by
      cases before with
      | nil => simpa using isPrefix
      | cons first more => simp at isPrefix
    rintro ⟨-, snapshot, -⟩
    revert snapshot
    decide +kernel
  obtain ⟨safe, -⟩ := feed_safe (S := MapSide) [] lossyDecoder .binanceSpot 0 lossyCalls allowed
  obtain ⟨-, lost⟩ := feed_safe (S := MapSide) [] lossyDecoder .binanceSpot 0 _ early
  obtain ⟨stays, refuses⟩ := lost mismatchCalls [.handle [1]] rfl (by decide +kernel) update
  exact ⟨safe, stays, refuses, by decide +kernel⟩

end Lossy

end Crossbook
