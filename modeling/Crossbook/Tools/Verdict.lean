import Crossbook.Feed.Accounting

set_option autoImplicit false

namespace Crossbook

namespace Tools

variable {S : Type} [SideImpl S]

def verdict (feed : Feed S) : Nat :=
  let stats := feed.stats
  if stats.checksumsVerified = 0 ∧ stats.applied = 0 then 1
  else if stats.checksumMismatches ≠ 0 ∨ stats.rejected ≠ 0 ∨ stats.resyncsRequested ≠ 0 then 1
  else if stats.checksumsVerified = 0 then 1
  else 0

theorem verdict_passes (feed : Feed S) : verdict feed = 0 ↔
    feed.stats.checksumsVerified ≠ 0 ∧ feed.stats.checksumMismatches = 0 ∧
      feed.stats.rejected = 0 ∧ feed.stats.resyncsRequested = 0 := by
  unfold verdict
  dsimp only
  split
  · omega
  · split
    · omega
    · split <;> omega

/-- The answers of a run that never lost the book: nothing before the first snapshot was needed, and
everything since was applied or is not for the book. -/
def Uninterrupted (answers : List FeedStatus) : Prop :=
  ∃ early late, answers = early ++ late ∧
    (∀ answer ∈ early, answer = .ignored ∨ answer = .needsSnapshot) ∧
    ∀ answer ∈ late, answer = .applied ∨ answer = .ignored

end Tools

variable {S : Type} [SideImpl S] [LawfulSideImpl S]

namespace FeedCore

def keepsStep (before after : Bool) : Fate → Prop
  | .applied => after = true
  | .mismatched => after = false
  | .ignored => after = before
  | .rejected => after = before
  | .gap => before = true ∧ after = false
  | .unsynced => before = false ∧ after = false

end FeedCore

namespace Feed

variable {c after : FeedCore S} {msg : DecodedMessage} {answer : FeedStatus}

theorem snapshotStep_keepsStep (step : SnapshotStep c msg after answer) :
    FeedCore.keepsStep c.synced after.synced (c.snapshotFate msg) := by
  cases step with
  | rejected failed =>
    have fate : c.snapshotFate msg = .rejected := by simp [FeedCore.snapshotFate, failed]
    rw [fate]
    rfl
  | applied decoded verified =>
    have fate : c.snapshotFate msg = .applied := by
      simp [FeedCore.snapshotFate, decoded, settledFate, verified]
    rw [fate]
    rfl
  | mismatched decoded differs =>
    have fate : c.snapshotFate msg = .mismatched := by
      simp [FeedCore.snapshotFate, decoded, settledFate, differs]
    rw [fate]
    rfl

theorem updateFate_continuing (held : c.synced = true)
    (continues : msg.hasIds = true → (c.tracker.onUpdate msg.ids).2 = .apply) :
    c.updateFate msg = settledFate (c.updated msg) msg := by
  cases numbered : msg.hasIds with
  | false => simp [FeedCore.updateFate, held, numbered]
  | true => simp [FeedCore.updateFate, held, numbered, continues numbered]

theorem updateStep_keepsStep (step : UpdateStep c msg after answer) :
    FeedCore.keepsStep c.synced after.synced (c.updateFate msg) := by
  cases step with
  | unsynced lost =>
    have fate : c.updateFate msg = .unsynced := by simp [FeedCore.updateFate, lost]
    rw [fate]
    exact ⟨lost, lost⟩
  | stale held numbered found =>
    have fate : c.updateFate msg = .ignored := by simp [FeedCore.updateFate, held, numbered, found]
    rw [fate]
    rfl
  | gap held numbered found =>
    have fate : c.updateFate msg = .gap := by simp [FeedCore.updateFate, held, numbered, found]
    rw [fate]
    exact ⟨held, rfl⟩
  | applied held continues verified =>
    rw [updateFate_continuing held continues, settledFate, if_pos verified]
    exact held
  | mismatched held continues differs =>
    rw [updateFate_continuing held continues, settledFate, if_neg differs]
    rfl

theorem handle_keepsStep (feed : Feed S) (frame : Bytes) :
    FeedCore.keepsStep feed.synced (feed.handle frame).1.synced
      (feed.core.fate (feed.decoder.decode frame)) := by
  have step := feed.handle_step frame
  generalize feed.decoder.decode frame = msg at step ⊢
  change FeedCore.keepsStep feed.core.synced (feed.handle frame).1.core.synced _
  generalize (feed.handle frame).1.core = after, (feed.handle frame).2 = answer at step ⊢
  cases step with
  | rejected failed =>
    have fate : feed.core.fate msg = .rejected := by simp [FeedCore.fate, failed]
    rw [fate]
    rfl
  | ignored decoded kind =>
    have fate : feed.core.fate msg = .ignored := by simp [FeedCore.fate, decoded, kind]
    rw [fate]
    rfl
  | venueError decoded kind =>
    have fate : feed.core.fate msg = .rejected := by simp [FeedCore.fate, decoded, kind]
    rw [fate]
    rfl
  | snapshot decoded kind step =>
    have fate : feed.core.fate msg = feed.core.snapshotFate msg := by
      simp [FeedCore.fate, decoded, kind]
    rw [fate]
    exact snapshotStep_keepsStep step
  | update decoded kind step =>
    have fate : feed.core.fate msg = feed.core.updateFate msg := by
      simp [FeedCore.fate, decoded, kind]
    rw [fate]
    exact updateStep_keepsStep step

/-- Nothing that a verdict holds against a run has happened in it. -/
def Clean (fates : List Fate) : Prop :=
  ∀ fate ∈ fates, fate = .applied ∨ fate = .ignored ∨ fate = .unsynced

theorem synced_clean (feed : Feed S) (synced : feed.synced = true) (frames : List Bytes)
    (clean : Clean (feed.fates frames)) :
    ∀ answer ∈ (feed.fates frames).map Fate.status, answer = .applied ∨ answer = .ignored := by
  induction frames generalizing feed with
  | nil => simp [fates]
  | cons frame rest ih =>
    have keeps := feed.handle_keepsStep frame
    obtain ⟨here, later⟩ := List.forall_mem_cons.mp clean
    rw [fates, List.map_cons]
    generalize feed.core.fate (feed.decoder.decode frame) = fate at keeps here ⊢
    rcases here with rfl | rfl | rfl
    · exact List.forall_mem_cons.mpr ⟨.inl rfl, ih _ keeps later⟩
    · exact List.forall_mem_cons.mpr ⟨.inr rfl, ih _ (keeps.trans synced) later⟩
    · exact absurd (keeps.1.symm.trans synced) (by decide)

theorem unsynced_clean (feed : Feed S) (unsynced : feed.synced = false) (frames : List Bytes)
    (clean : Clean (feed.fates frames)) :
    Tools.Uninterrupted ((feed.fates frames).map Fate.status) := by
  induction frames generalizing feed with
  | nil => exact ⟨[], [], rfl, by simp, by simp⟩
  | cons frame rest ih =>
    have keeps := feed.handle_keepsStep frame
    obtain ⟨here, later⟩ := List.forall_mem_cons.mp clean
    rw [fates, List.map_cons]
    generalize feed.core.fate (feed.decoder.decode frame) = fate at keeps here ⊢
    rcases here with rfl | rfl | rfl
    · refine ⟨[], _, rfl, by simp, List.forall_mem_cons.mpr ⟨.inl rfl, ?_⟩⟩
      exact synced_clean _ keeps rest later
    · obtain ⟨early, late, same, before, since⟩ := ih _ (keeps.trans unsynced) later
      exact ⟨.ignored :: early, late, by rw [same]; rfl,
        List.forall_mem_cons.mpr ⟨.inl rfl, before⟩, since⟩
    · obtain ⟨early, late, same, before, since⟩ := ih _ keeps.2 later
      exact ⟨.needsSnapshot :: early, late, by rw [same]; rfl,
        List.forall_mem_cons.mpr ⟨.inr rfl, before⟩, since⟩

theorem Fate.clean_of_status {fate : Fate}
    (fine : fate.status = .applied ∨ fate.status = .ignored) :
    fate = .applied ∨ fate = .ignored ∨ fate = .unsynced := by
  cases fate <;> simp_all [Fate.status]

theorem clean_of_uninterrupted (feed : Feed S) (unsynced : feed.synced = false)
    (frames : List Bytes) (matched : Fate.mismatched ∉ feed.fates frames)
    (uninterrupted : Tools.Uninterrupted ((feed.fates frames).map Fate.status)) :
    Clean (feed.fates frames) := by
  obtain ⟨early, late, same, before, since⟩ := uninterrupted
  induction early generalizing feed frames with
  | nil =>
    intro fate member
    refine Fate.clean_of_status (since _ ?_)
    rw [List.nil_append] at same
    exact same ▸ List.mem_map_of_mem member
  | cons answer early ih =>
    cases frames with
    | nil => simp [fates] at same
    | cons frame rest =>
      have keeps := feed.handle_keepsStep frame
      obtain ⟨here, earlier⟩ := List.forall_mem_cons.mp before
      rw [fates, List.mem_cons, not_or] at matched
      rw [fates, List.map_cons, List.cons_append, List.cons.injEq] at same
      rw [fates]
      generalize feed.core.fate (feed.decoder.decode frame) = fate at keeps matched same ⊢
      have next (stays : (feed.handle frame).1.synced = false) :
          Clean ((feed.handle frame).1.fates rest) := ih _ stays rest matched.2 same.2 earlier
      rw [← same.1] at here
      cases fate with
      | applied => simp [Fate.status] at here
      | mismatched => exact absurd rfl matched.1
      | ignored =>
        exact List.forall_mem_cons.mpr ⟨.inr (.inl rfl), next (keeps.trans unsynced)⟩
      | rejected => simp [Fate.status] at here
      | gap => exact absurd (keeps.1.symm.trans unsynced) (by decide)
      | unsynced => exact List.forall_mem_cons.mpr ⟨.inr (.inr rfl), next keeps.2⟩

theorem clean_iff (fates : List Fate) : Clean fates ↔
    fates.count .mismatched = 0 ∧ fates.count .rejected = 0 ∧ fates.count .gap = 0 := by
  simp only [List.count_eq_zero]
  constructor
  · intro clean
    refine ⟨fun member => ?_, fun member => ?_, fun member => ?_⟩
    · simpa using clean _ member
    · simpa using clean _ member
    · simpa using clean _ member
  · rintro ⟨matched, accepted, gapless⟩ fate member
    cases fate with
    | applied => exact .inl rfl
    | mismatched => exact absurd member matched
    | ignored => exact .inr (.inl rfl)
    | rejected => exact absurd member accepted
    | gap => exact absurd member gapless
    | unsynced => exact .inr (.inr rfl)

theorem respond_run (feed : Feed S) (frames : List Bytes) :
    (Run.respond handle feed frames).1 = feed.run (frames.map FeedCall.handle) := by
  rw [Run.respond_state, run, List.foldl_map]
  rfl

theorem verdict_clean (venue : Bytes) (decoder : Decoder) (policy : SequencePolicy) (depth : Nat)
    (frames : List Bytes) :
    let start : Feed S := new venue decoder policy depth
    let feed := (Run.respond handle start frames).1
    let compared := start.compared (frames.map FeedCall.handle)
    (Tools.verdict feed = 0 ↔ Clean (start.fates frames) ∧ compared ≠ []) ∧
      (feed.stats.checksumMismatches = 0 ↔ ∀ c ∈ compared, c.matched = true) ∧
      feed.stats.checksumMismatches = (start.fates frames).count .mismatched ∧
      feed.stats.checksumsVerified = compared.length := by
  intro start feed compared
  obtain ⟨-, tally⟩ := start.run_counted frames
  have backed := (new_backed (S := S) venue decoder policy depth).run
    (frames.map FeedCall.handle) (by simp)
  rw [← respond_run, List.nil_append] at backed
  have counted (field : Tally → Nat) := congrArg field tally
  have rejected : feed.stats.rejected = (start.fates frames).count .rejected :=
    (counted Tally.rejected).trans (Nat.zero_add _)
  have resyncs : feed.stats.resyncsRequested =
      (start.fates frames).count .mismatched + (start.fates frames).count .gap :=
    (counted Tally.resyncs).trans (Nat.zero_add _)
  have mismatches : feed.stats.checksumMismatches = (start.fates frames).count .mismatched :=
    (counted Tally.mismatches).trans (Nat.zero_add _)
  have something : feed.stats.checksumsVerified ≠ 0 ↔ compared ≠ [] := by
    rw [backed.counted, ne_eq, List.length_eq_zero_iff]
  refine ⟨?_, ?_, mismatches, backed.counted⟩
  · rw [Tools.verdict_passes, something, clean_iff, mismatches, rejected, resyncs,
      Nat.add_eq_zero_iff]
    tauto
  · rw [backed.mismatched, List.countP_eq_zero]
    simp only [Bool.not_eq_true, Bool.not_eq_false']
    exact Iff.rfl

end Feed

theorem verdict_passes_iff (venue : Bytes) (decoder : Decoder) (policy : SequencePolicy)
    (depth : Nat) (frames : List Bytes) :
    let start : Feed S := Feed.new venue decoder policy depth
    let ran := Run.respond Feed.handle start frames
    let compared := start.compared (frames.map FeedCall.handle)
    Tools.verdict ran.1 = 0 ↔
      Tools.Uninterrupted ran.2 ∧ compared ≠ [] ∧ ∀ c ∈ compared, c.matched = true := by
  intro start ran compared
  obtain ⟨passes, agreed, mismatches, -⟩ :=
    Feed.verdict_clean (S := S) venue decoder policy depth frames
  rw [passes, (start.run_counted frames).1]
  constructor
  · rintro ⟨clean, compares⟩
    refine ⟨start.unsynced_clean rfl frames clean, compares, agreed.mp ?_⟩
    exact mismatches.trans ((Feed.clean_iff _).mp clean).1
  · rintro ⟨uninterrupted, compares, matched⟩
    have never : Fate.mismatched ∉ start.fates frames :=
      List.count_eq_zero.mp (mismatches.symm.trans (agreed.mpr matched))
    exact ⟨start.clean_of_uninterrupted rfl frames never uninterrupted, compares⟩

end Crossbook
