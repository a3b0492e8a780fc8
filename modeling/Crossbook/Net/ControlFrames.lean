import Crossbook.Net.FrameLayout
import Crossbook.Net.Segmentation

set_option autoImplicit false

namespace Crossbook

namespace Net

open FrameReader

namespace Frame

def isData (frame : Frame) : Bool := !frame.opcode.isControl

def sizeAfter (size : Nat) (frame : Frame) : Nat :=
  if frame.fin then 0 else size + frame.payload.length

end Frame

def bytesOf (frames : List Frame) : Bytes := frames.flatMap Frame.bytes

def LegalData (limit : Nat) : Bool → Nat → List Frame → Prop
  | _, _, [] => True
  | assembling, size, frame :: frames =>
    frame.isData = true ∧ (frame.opcode = .continuation ↔ assembling = true) ∧
      size + frame.payload.length ≤ limit ∧
      LegalData limit (!frame.fin) (frame.sizeAfter size) frames

/-- Every control frame fits the ceiling together with the unfinished message before it. -/
def Roomy (limit : Nat) : Nat → List Frame → Prop
  | _, [] => True
  | size, frame :: frames =>
    if frame.isData then Roomy limit (frame.sizeAfter size) frames
    else size + frame.payload.length ≤ limit ∧ Roomy limit size frames

def messages (reports : List Report) : List (Opcode × Bytes) :=
  reports.filterMap fun report =>
    if report.status = .message then report.event.map fun event => (event.opcode, event.payload)
    else none

def Fine (reports : List Report) : Prop := ∀ report ∈ reports, report.status.isFailure = false

instance (reports : List Report) : Decidable (Fine reports) :=
  inferInstanceAs (Decidable (∀ report ∈ reports, _))

section Reports

variable {limit : Nat} {assembly : Assembly}

theorem reports_data {frame : Frame} (data : frame.isData = true)
    (order : frame.opcode = .continuation ↔ assembly.assembling = true)
    (fits : assembly.gathered.length + frame.payload.length ≤ limit) :
    ∃ after reported, Fine reported ∧
      (∀ rest, reports limit assembly (frame.bytes ++ rest) = reported ++ reports limit after rest) ∧
      after.assembling = (!frame.fin) ∧
      after.gathered.length = frame.sizeAfter assembly.gathered.length := by
  have small : ¬ tooLarge limit assembly frame.payload.length := by
    unfold tooLarge
    omega
  have passed (rest : Bytes) := pass_bytes limit assembly frame rest
  have control : ¬ frame.opcode.isControl = true := by simpa [Frame.isData] using data
  have placed : ¬ (frame.opcode = .continuation ↔ assembly.assembling = false) := by
    rw [order]
    cases assembly.assembling <;> simp
  simp only [if_neg small, Assembly.receive, if_neg control, if_neg placed] at passed
  cases fin : frame.fin with
  | false =>
    simp only [fin, Bool.false_eq_true, if_false] at passed
    refine ⟨_, [], by simp [Fine], fun rest => reports_pass (passed rest), rfl, ?_⟩
    simp [Frame.sizeAfter, fin]
  | true =>
    simp only [fin, if_true] at passed
    refine ⟨_, [_], ?_, fun rest => (reports_pass (passed rest)).trans
      (if_neg (by simp [ReadStatus.isFailure])), rfl, ?_⟩
    · simp [Fine, ReadStatus.isFailure]
    · simp [Frame.sizeAfter, fin]

theorem reports_control {frame : Frame} (pingPong : frame.opcode = .ping ∨ frame.opcode = .pong)
    (fits : assembly.gathered.length + frame.payload.length ≤ limit) :
    ∃ report : Report, report.status.isFailure = false ∧ report.status ≠ .message ∧
      ∀ rest, reports limit assembly (frame.bytes ++ rest) = report :: reports limit assembly rest := by
  have small : ¬ tooLarge limit assembly frame.payload.length := by
    unfold tooLarge
    omega
  refine ⟨Assembly.controlReport frame.opcode frame.payload, ?_, ?_, fun rest => ?_⟩
  · rcases pingPong with ping | pong <;> simp [Assembly.controlReport, ReadStatus.isFailure, *]
  · rcases pingPong with ping | pong <;> simp [Assembly.controlReport, *]
  · have passed := pass_bytes limit assembly frame rest
    have control : frame.opcode.isControl = true := by
      rcases pingPong with ping | pong <;> simp only [*] <;> rfl
    simp only [if_neg small, Assembly.receive, if_pos control] at passed
    rw [reports_pass passed]
    refine if_neg ?_
    rcases pingPong with ping | pong <;> simp [Assembly.controlReport, ReadStatus.isFailure, *]

theorem reports_crowded {frame : Frame}
    (crowded : limit < assembly.gathered.length + frame.payload.length) (rest : Bytes) :
    reports limit assembly (frame.bytes ++ rest) = [⟨.messageTooLarge, none⟩] := by
  have passed := pass_bytes limit assembly frame rest
  rw [if_pos (.inr crowded)] at passed
  rw [reports_pass passed]
  rfl

theorem messages_append (front later : List Report) :
    messages (front ++ later) = messages front ++ messages later := List.filterMap_append

theorem bytesOf_cons (frame : Frame) (frames : List Frame) :
    bytesOf (frame :: frames) = frame.bytes ++ bytesOf frames := rfl

theorem reports_mixed (limit : Nat) (assembly : Assembly) (mixed : List Frame)
    (pingPong : ∀ frame ∈ mixed, frame.isData = false → frame.opcode = .ping ∨ frame.opcode = .pong)
    (legal : LegalData limit assembly.assembling assembly.gathered.length
      (mixed.filter Frame.isData)) :
    (Roomy limit assembly.gathered.length mixed →
      Fine (reports limit assembly (bytesOf mixed)) ∧
        messages (reports limit assembly (bytesOf mixed)) =
          messages (reports limit assembly (bytesOf (mixed.filter Frame.isData)))) ∧
      (¬ Roomy limit assembly.gathered.length mixed →
        ¬ Fine (reports limit assembly (bytesOf mixed))) := by
  induction mixed generalizing assembly with
  | nil =>
    have nothing : reports limit assembly (bytesOf []) = [] := reports_wait rfl
    exact ⟨fun _ => ⟨by simp [nothing, Fine], rfl⟩, fun crowded => absurd trivial crowded⟩
  | cons frame mixed ih =>
    obtain ⟨here, later⟩ := List.forall_mem_cons.mp pingPong
    rw [bytesOf_cons]
    cases data : frame.isData with
    | true =>
      rw [List.filter_cons_of_pos data] at legal ⊢
      obtain ⟨_, order, fits, rest⟩ := legal
      obtain ⟨after, reported, fine, read, assembling, size⟩ := reports_data data order fits
      rw [← assembling, ← size] at rest
      obtain ⟨roomy, crowded⟩ := ih _ later rest
      rw [bytesOf_cons, read, read, Roomy, if_pos data, ← size]
      refine ⟨fun room => ?_, fun none all => crowded none ?_⟩
      · obtain ⟨good, same⟩ := roomy room
        refine ⟨List.forall_mem_append.mpr ⟨fine, good⟩, ?_⟩
        rw [messages_append, messages_append, same]
      · exact (List.forall_mem_append.mp all).2
    | false =>
      rw [List.filter_cons_of_neg (by simp [data])] at legal ⊢
      obtain ⟨roomy, crowded⟩ := ih _ later legal
      rw [Roomy, if_neg (by simp [data])]
      -- A control frame does not join the message, but the bytes gathered count against it.
      by_cases fits : assembly.gathered.length + frame.payload.length ≤ limit
      · obtain ⟨report, fine, other, read⟩ := reports_control (here data) fits
        rw [read]
        refine ⟨fun room => ?_, fun none all => crowded (fun room => none ⟨fits, room⟩) ?_⟩
        · obtain ⟨good, same⟩ := roomy room.2
          refine ⟨List.forall_mem_cons.mpr ⟨fine, good⟩, ?_⟩
          rw [← same]
          simp [messages, other]
        · exact (List.forall_mem_cons.mp all).2
      · rw [reports_crowded (by omega)]
        refine ⟨fun room => absurd room.1 fits, fun _ all => ?_⟩
        have fine := all _ (List.mem_singleton_self _)
        contradiction

end Reports

section Runs

theorem upToFailure_fine {reports : List Report} (fine : Fine (upToFailure reports)) :
    Fine reports ∧ messages (upToFailure reports) = messages reports := by
  induction reports with
  | nil => exact ⟨fine, rfl⟩
  | cons report reports ih =>
    rw [upToFailure_cons] at fine ⊢
    by_cases waits : report.status = .needMore
    · rw [if_pos waits] at fine ⊢
      obtain ⟨rest, same⟩ := ih fine
      refine ⟨List.forall_mem_cons.mpr ⟨by rw [waits]; rfl, rest⟩, ?_⟩
      rw [same]
      simp [messages, waits]
    · rw [if_neg waits] at fine ⊢
      by_cases failed : report.status.isFailure = true
      · rw [if_pos failed] at fine
        exact absurd (fine report (List.mem_singleton_self _)) (by simp [failed])
      · rw [if_neg failed] at fine ⊢
        obtain ⟨here, later⟩ := List.forall_mem_cons.mp fine
        obtain ⟨rest, same⟩ := ih later
        refine ⟨List.forall_mem_cons.mpr ⟨here, rest⟩, ?_⟩
        simp only [messages, List.filterMap_cons] at same ⊢
        rw [same]

theorem fine_upToFailure {reports : List Report} (fine : Fine reports) :
    Fine (upToFailure reports) := by
  induction reports with
  | nil => exact fine
  | cons report reports ih =>
    obtain ⟨here, later⟩ := List.forall_mem_cons.mp fine
    rw [upToFailure_cons]
    split
    · exact ih later
    · rw [if_neg (by simp [here])]
      exact List.forall_mem_cons.mpr ⟨here, ih later⟩

theorem LegalData.data {limit : Nat} {assembling : Bool} {size : Nat} {frames : List Frame}
    (legal : LegalData limit assembling size frames) :
    Roomy limit size frames ∧ ∀ frame ∈ frames, frame.isData = true := by
  induction frames generalizing assembling size with
  | nil => exact ⟨trivial, by simp⟩
  | cons frame frames ih =>
    obtain ⟨data, _, _, rest⟩ := legal
    obtain ⟨roomy, all⟩ := ih rest
    rw [Roomy, if_pos data]
    exact ⟨roomy, List.forall_mem_cons.mpr ⟨data, all⟩⟩

structure Carries (limit : Nat) (calls : List Call) (frames : List Frame) : Prop where
  stream : streamOf calls = bytesOf frames
  exhausted : Exhausted (fresh limit) calls

theorem Carries.reports {limit : Nat} {calls : List Call} {frames : List Frame}
    (carries : Carries limit calls frames) :
    upToFailure ((fresh limit).run calls).2 = Net.reports limit .start (bytesOf frames) := by
  rw [exhausted_complete calls (sound_fresh limit) rfl carries.exhausted, carries.stream]
  rfl

/-- Pings and pongs leave the messages as they are, and cause no failure, exactly when each fits
the ceiling together with what is assembled before it. -/
theorem control_frames_undisturbing_iff (limit : Nat) (mixed : List Frame)
    (calls dataCalls : List Call)
    (pingPong : ∀ frame ∈ mixed, frame.isData = false → frame.opcode = .ping ∨ frame.opcode = .pong)
    (legal : LegalData limit false 0 (mixed.filter Frame.isData))
    (carries : Carries limit calls mixed)
    (dataCarries : Carries limit dataCalls (mixed.filter Frame.isData)) :
    (Fine ((fresh limit).run calls).2 ∧
        messages ((fresh limit).run calls).2 = messages ((fresh limit).run dataCalls).2) ↔
      Roomy limit 0 mixed := by
  have read := carries.reports
  have dataRead := dataCarries.reports
  obtain ⟨room, onlyData⟩ := legal.data
  obtain ⟨roomy, crowded⟩ := reports_mixed limit .start mixed pingPong legal
  obtain ⟨dataFine, _⟩ := (reports_mixed limit .start
    (mixed.filter Frame.isData)
    (fun frame listed data => absurd (onlyData frame listed) (by simp [data]))
    (by rwa [List.filter_eq_self.mpr onlyData])).1 room
  rw [← dataRead] at dataFine
  constructor
  · rintro ⟨fine, _⟩
    by_contra none
    rw [← read] at crowded
    exact crowded none (fine_upToFailure fine)
  · intro room
    obtain ⟨fine, same⟩ := roomy room
    rw [← read] at fine
    rw [← read, ← dataRead, (upToFailure_fine fine).2, (upToFailure_fine dataFine).2] at same
    exact ⟨(upToFailure_fine fine).1, same⟩

def fragment (size : Nat) (fits : size < 2 ^ 63) : Frame where
  opcode := .text
  fin := false
  payload := List.replicate size 0x78
  lengthFits := by simpa using fits
  controlFits := fun control => absurd control (by decide)

def keepalive : Frame where
  opcode := .ping
  fin := true
  payload := bytes "alive"
  lengthFits := by decide
  controlFits := by decide

def lastFragment : Frame where
  opcode := .continuation
  fin := true
  payload := bytes "end"
  lengthFits := by decide
  controlFits := by decide

def pinged (size : Nat) (fits : size < 2 ^ 63) : List Frame :=
  [fragment size fits, keepalive, lastFragment]

def wholesale (frames : List Frame) : List Call :=
  [.append (bytesOf frames), .next, .next, .next]

theorem control_frames_undisturbing_short :
    Fine ((fresh 125).run (wholesale (pinged 4 (by decide)))).2 ∧
      messages ((fresh 125).run (wholesale (pinged 4 (by decide)))).2 =
        messages ((fresh 125).run (wholesale ((pinged 4 (by decide)).filter Frame.isData))).2 := by
  refine (control_frames_undisturbing_iff 125 (pinged 4 (by decide)) _ _ ?_ ?_
    ⟨by simp [streamOf, Call.bytes], .inr ⟨[_, _, _], rfl, ⟨.needMore, none⟩, ?_, rfl⟩⟩
    ⟨by simp [streamOf, Call.bytes], .inr ⟨[_, _, _], rfl, ⟨.needMore, none⟩, ?_, rfl⟩⟩).mpr ?_
  · intro frame listed control
    simp only [pinged, List.mem_cons, List.not_mem_nil, or_false] at listed
    rcases listed with rfl | rfl | rfl
    · contradiction
    · exact .inl rfl
    · contradiction
  · exact ⟨rfl, by decide, by decide, rfl, by decide, by decide, trivial⟩
  · decide +kernel
  · decide +kernel
  · exact ⟨by decide, trivial⟩

/-- The message fits the ceiling, and so does the ping, but the reader adds them up. -/
theorem ping_near_ceiling_fails :
    LegalData 125 false 0 ((pinged 122 (by decide)).filter Frame.isData) ∧
      ¬ (Fine ((fresh 125).run (wholesale (pinged 122 (by decide)))).2 ∧
        messages ((fresh 125).run (wholesale (pinged 122 (by decide)))).2 =
          messages ((fresh 125).run (wholesale ((pinged 122 (by decide)).filter Frame.isData))).2) := by
  refine ⟨⟨rfl, by decide, ?_, rfl, by decide, ?_, trivial⟩, ?_⟩
  · decide +kernel
  · decide +kernel
  · decide +kernel

end Runs

end Net

end Crossbook
