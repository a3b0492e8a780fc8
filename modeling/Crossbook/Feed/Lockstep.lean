import Crossbook.Feed.Accounting

set_option autoImplicit false

namespace Crossbook

variable {S : Type} [SideImpl S] [LawfulSideImpl S]

section Unique

variable {c a b : FeedCore S} {msg : DecodedMessage} {s t : FeedStatus}

theorem SnapshotStep.unique (left : SnapshotStep c msg a s) (right : SnapshotStep c msg b t) :
    a = b ∧ s = t := by
  cases left with
  | rejected failed =>
    cases right with
    | rejected _ => exact ⟨rfl, rfl⟩
    | applied decoded _ => simp [failed] at decoded
    | mismatched decoded _ => simp [failed] at decoded
  | applied decoded verified =>
    cases right with
    | rejected failed => simp [failed] at decoded
    | applied _ _ => exact ⟨rfl, rfl⟩
    | mismatched _ differs => exact absurd verified differs
  | mismatched decoded differs =>
    cases right with
    | rejected failed => simp [failed] at decoded
    | applied _ verified => exact absurd verified differs
    | mismatched _ _ => exact ⟨rfl, rfl⟩

theorem UpdateStep.unique (left : UpdateStep c msg a s) (right : UpdateStep c msg b t) :
    a = b ∧ s = t := by
  cases left with
  | unsynced lost => cases right <;> simp_all
  | stale held numbered answer => cases right <;> simp_all
  | gap held numbered answer => cases right <;> simp_all
  | applied held continues verified => cases right <;> simp_all
  | mismatched held continues differs => cases right <;> simp_all

theorem HandleStep.unique (left : HandleStep c msg a s) (right : HandleStep c msg b t) :
    a = b ∧ s = t := by
  -- What a feed is after a message, and what it answers, is fixed by what it was and the message.
  cases left with
  | rejected failed => cases right <;> simp_all
  | ignored decoded kind => cases right <;> simp_all
  | venueError decoded kind => cases right <;> simp_all
  | snapshot decoded kind step =>
    cases right with
    | rejected failed => simp [failed] at decoded
    | ignored _ other => simp [kind] at other
    | venueError _ other => simp [kind] at other
    | snapshot _ _ other => exact step.unique other
    | update _ other _ => simp [kind] at other
  | update decoded kind step =>
    cases right with
    | rejected failed => simp [failed] at decoded
    | ignored _ other => simp [kind] at other
    | venueError _ other => simp [kind] at other
    | snapshot _ other _ => simp [kind] at other
    | update _ _ other => exact step.unique other

theorem HandleStep.decoder_eq (step : HandleStep c msg a s) : a.decoder = c.decoder := by
  cases step with
  | rejected failed => rfl
  | ignored decoded kind => rfl
  | venueError decoded kind => rfl
  | snapshot decoded kind step => cases step <;> rfl
  | update decoded kind step => cases step <;> rfl

end Unique

namespace Feed

theorem run_decoder (feed : Feed S) (frames : List Bytes) :
    (Run.respond handle feed frames).1.decoder = feed.decoder := by
  induction frames generalizing feed with
  | nil => rfl
  | cons frame rest ih => exact (ih _).trans (feed.handle_step frame).decoder_eq

section Lockstep

variable {a b : Feed S} (same : a.core = b.core)

omit [LawfulSideImpl S] in
include same in
theorem decoder_lockstep : a.decoder = b.decoder := congrArg FeedCore.decoder same

end Lockstep

section Append

theorem fates_append (feed : Feed S) (front later : List Bytes) :
    feed.fates (front ++ later) =
      feed.fates front ++ (Run.respond handle feed front).1.fates later := by
  induction front generalizing feed with
  | nil => rfl
  | cons frame rest ih => simp only [List.cons_append, fates, Run.respond, ih]

theorem compared_append (feed : Feed S) (front later : List Bytes) :
    feed.compared ((front ++ later).map FeedCall.handle) =
      feed.compared (front.map FeedCall.handle) ++
        (Run.respond handle feed front).1.compared (later.map FeedCall.handle) := by
  induction front generalizing feed with
  | nil => rfl
  | cons frame rest ih =>
    simp only [List.cons_append, List.map_cons, compared, call, Run.respond, ih, List.append_assoc]

end Append

section Waiting

def NoSnapshot (decoder : Decoder) (frame : Bytes) : Prop :=
  (decoder.decode frame).ok = true → (decoder.decode frame).kind ≠ .snapshot

def Refused (decoder : Decoder) (frame : Bytes) : Prop :=
  (decoder.decode frame).ok = true → (decoder.decode frame).kind = .venueError

theorem handle_waiting (feed : Feed S) (unsynced : feed.synced = false) {frame : Bytes}
    (other : NoSnapshot feed.decoder frame) :
    (feed.handle frame).1.core = feed.core ∧
      feed.core.comparison (.handle frame) = [] ∧
      feed.core.fate (feed.decoder.decode frame) ∈ [Fate.ignored, .unsynced, .rejected] ∧
      (feed.core.fate (feed.decoder.decode frame) = .rejected ↔ Refused feed.decoder frame) := by
  have step := feed.handle_step frame
  have lost : feed.core.synced = false := unsynced
  have decoder : feed.core.decoder = feed.decoder := rfl
  unfold NoSnapshot at other
  unfold Refused
  simp only [FeedCore.comparison, FeedCore.handleComparison, FeedCore.fate, decoder]
  generalize feed.decoder.decode frame = msg at step other ⊢
  generalize (feed.handle frame).1.core = after, (feed.handle frame).2 = answer at step ⊢
  cases step with
  | rejected failed => simp [failed]
  | ignored decoded kind => simp [decoded, kind]
  | venueError decoded kind => simp [decoded, kind]
  | snapshot decoded kind _ => exact absurd kind (other decoded)
  | update decoded kind step =>
    cases step with
    | unsynced _ =>
      simp [decoded, kind, FeedCore.updateComparison, FeedCore.updateFate, lost]
    | stale held _ _ => simp [lost] at held
    | gap held _ _ => simp [lost] at held
    | applied held _ _ => simp [lost] at held
    | mismatched held _ _ => simp [lost] at held

theorem run_waiting (feed : Feed S) (unsynced : feed.synced = false) (frames : List Bytes)
    (other : ∀ frame ∈ frames, NoSnapshot feed.decoder frame) :
    (Run.respond handle feed frames).1.core = feed.core ∧
      feed.compared (frames.map FeedCall.handle) = [] ∧
      (∀ fate ∈ feed.fates frames, fate ∈ [Fate.ignored, .unsynced, .rejected]) ∧
      (.rejected ∈ feed.fates frames ↔ ∃ frame ∈ frames, Refused feed.decoder frame) := by
  induction frames generalizing feed with
  | nil => exact ⟨rfl, rfl, by simp [fates], by simp [fates]⟩
  | cons frame rest ih =>
    obtain ⟨here, later⟩ := List.forall_mem_cons.mp other
    obtain ⟨core, nothing, fate, refused⟩ := feed.handle_waiting unsynced here
    have decoder : (feed.handle frame).1.decoder = feed.decoder := decoder_lockstep core
    have lost : (feed.handle frame).1.synced = feed.synced := congrArg FeedCore.synced core
    obtain ⟨after, compared, fates, rejected⟩ :=
      ih (feed.handle frame).1 (lost.trans unsynced) (by rwa [decoder])
    rw [decoder] at rejected
    refine ⟨after.trans core, ?_, ?_, ?_⟩
    · rw [List.map_cons, Feed.compared, nothing]
      exact compared
    · exact List.forall_mem_cons.mpr ⟨fate, fates⟩
    · rw [Feed.fates, List.mem_cons, rejected, List.exists_mem_cons_iff, ← refused]
      exact or_congr_left eq_comm

end Waiting

end Feed

end Crossbook
