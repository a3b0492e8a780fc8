import Crossbook.Net.ReaderRefinement

set_option autoImplicit false

namespace Crossbook

namespace Net

inductive Call where
  | append (data : Bytes)
  | read (undetermined data : Bytes) (fits : data.length ≤ undetermined.length)
  | next

def Call.bytes : Call → Bytes
  | .append data => data
  | .read _ data _ => data
  | .next => []

def streamOf (calls : List Call) : Bytes := calls.flatMap Call.bytes

def Report.ends (report : Report) : Bool := report.status == .needMore || report.status.isFailure

/-- What was reported, up to and including the first failure; `needMore` is no event. -/
def upToFailure : List Report → List Report
  | [] => []
  | report :: later =>
    if report.status = .needMore then upToFailure later
    else if report.status.isFailure = true then [report]
    else report :: upToFailure later

namespace FrameReader

def call (reader : FrameReader) : Call → FrameReader × List Report
  | .append data => (reader.append data, [])
  | .read undetermined data _ =>
    (((reader.writableTail undetermined).fillTail undetermined.length data).commit data.length
      undetermined.length, [])
  | .next => (reader.next.1, [reader.next.2])

def run (reader : FrameReader) : List Call → FrameReader × List Report
  | [] => (reader, [])
  | call :: calls =>
    let called := reader.call call
    let rest := called.1.run calls
    (rest.1, called.2 ++ rest.2)

def drain : Nat → FrameReader → List Report
  | 0, _ => []
  | calls + 1, reader =>
    if reader.next.2.ends then [reader.next.2] else reader.next.2 :: drain calls reader.next.1

/-- Calls to `next` to exhaustion: no event leaves as many bytes unread as it found. -/
def exhaust (reader : FrameReader) : List Report := drain (reader.unread.length + 1) reader

end FrameReader

open FrameReader

section Lists

theorem upToFailure_cons (report : Report) (later : List Report) :
    upToFailure (report :: later) =
      if report.status = .needMore then upToFailure later
      else if report.status.isFailure = true then [report]
      else report :: upToFailure later := rfl

theorem upToFailure_fails {report : Report} (failed : report.status.isFailure = true)
    (later : List Report) : upToFailure (report :: later) = [report] := by
  have proper : report.status ≠ .needMore := by
    intro waits
    rw [waits] at failed
    contradiction
  rw [upToFailure_cons, if_neg proper, if_pos failed]

theorem upToFailure_event {report : Report} (proper : report.status ≠ .needMore)
    (fine : report.status.isFailure = false) (later : List Report) :
    upToFailure (report :: later) = report :: upToFailure later := by
  rw [upToFailure_cons, if_neg proper, if_neg (by simp [fine])]

theorem upToFailure_append {front : List Report}
    (fine : ∀ report ∈ front, report.status.isFailure = false) (later : List Report) :
    upToFailure (front ++ later) = upToFailure front ++ upToFailure later := by
  induction front with
  | nil => rfl
  | cons report front ih =>
    obtain ⟨here, rest⟩ := List.forall_mem_cons.mp fine
    rw [List.cons_append, upToFailure_cons, upToFailure_cons, ih rest]
    by_cases waits : report.status = .needMore <;> simp [waits, here]

theorem upToFailure_append_failed {front : List Report}
    (failed : ∃ report ∈ front, report.status.isFailure = true) (later : List Report) :
    upToFailure (front ++ later) = upToFailure front := by
  induction front with
  | nil => simp at failed
  | cons report front ih =>
    rw [List.cons_append]
    cases here : report.status.isFailure with
    | true => rw [upToFailure_fails here, upToFailure_fails here]
    | false =>
      have rest := ih (by simpa [here] using failed)
      rw [upToFailure_cons, upToFailure_cons, rest]

end Lists

variable {reader : FrameReader}

theorem drain_future (calls : Nat) (sound : reader.Sound) (live : reader.failure = .needMore)
    (enough : reader.unread.length < calls) :
    upToFailure (reader.drain calls) = reader.future [] ∧
      ∃ report, (reader.drain calls).getLast? = some report ∧ report.ends = true := by
  induction calls generalizing reader with
  | zero => omega
  | succ calls ih =>
    have answer := next_answer sound live
    rw [drain]
    generalize reader.next = called at answer ⊢
    obtain ⟨after, report⟩ := called
    dsimp only at answer ⊢
    cases answer with
    | wait sound live same idle =>
      rw [if_pos (by rfl)]
      exact ⟨(idle.symm.trans (same [])), _, rfl, rfl⟩
    | fails failed last =>
      have ends : report.ends = true := by simp [Report.ends, failed]
      rw [if_pos ends]
      exact ⟨(upToFailure_fails failed []).trans (last []).symm, _, rfl, ends⟩
    | reports proper fine sound live first shorter =>
      obtain ⟨all, report', last, ends⟩ := ih sound live (by omega)
      rw [if_neg (by simp [Report.ends, proper, fine]), upToFailure_event proper fine, all, first]
      refine ⟨rfl, report', ?_, ends⟩
      rw [List.getLast?_cons, last]
      rfl

theorem run_future (calls : List Call) (sound : reader.Sound) (live : reader.failure = .needMore) :
    upToFailure ((reader.run calls).2 ++ (reader.run calls).1.exhaust) =
      reader.future (streamOf calls) := by
  induction calls generalizing reader with
  | nil => exact (drain_future _ sound live (Nat.lt_succ_self _)).1
  | cons call calls ih =>
    have bytes : streamOf (call :: calls) = call.bytes ++ streamOf calls := rfl
    cases call with
    | append data =>
      have extends_ := append_extends sound data
      rw [bytes, Call.bytes, ← extends_.future]
      exact ih extends_.sound (extends_.failure.trans live)
    | read undetermined data fits =>
      have extends_ := append_extends sound data
      rw [bytes, Call.bytes, ← extends_.future, run, call, commit_append reader _ _ fits]
      exact ih extends_.sound (extends_.failure.trans live)
    | next =>
      have answer := next_answer sound live
      rw [bytes, Call.bytes, List.nil_append, run, call]
      generalize reader.next = called at answer ⊢
      obtain ⟨after, report⟩ := called
      dsimp only [List.cons_append, List.nil_append] at answer ⊢
      cases answer with
      | wait sound live same idle => exact (ih sound live).trans (same _)
      | fails failed last => exact (upToFailure_fails failed _).trans (last _).symm
      | reports proper fine sound live first shorter =>
        rw [upToFailure_event proper fine, ih sound live, first]

theorem run_append (reader : FrameReader) (front later : List Call) :
    reader.run (front ++ later) =
      (((reader.run front).1.run later).1,
        (reader.run front).2 ++ ((reader.run front).1.run later).2) := by
  induction front generalizing reader with
  | nil => rfl
  | cons call front ih => simp only [List.cons_append, run, ih, List.append_assoc]

theorem run_live (calls : List Call) (sound : reader.Sound) (live : reader.failure = .needMore)
    (fine : ∀ report ∈ (reader.run calls).2, report.status.isFailure = false) :
    (reader.run calls).1.Sound ∧ (reader.run calls).1.failure = .needMore := by
  induction calls generalizing reader with
  | nil => exact ⟨sound, live⟩
  | cons call calls ih =>
    cases call with
    | append data =>
      have extends_ := append_extends sound data
      exact ih extends_.sound (extends_.failure.trans live) fine
    | read undetermined data fits =>
      have extends_ := append_extends sound data
      rw [run, call, commit_append reader _ _ fits] at fine ⊢
      exact ih extends_.sound (extends_.failure.trans live) fine
    | next =>
      have answer := next_answer sound live
      rw [run, call] at fine ⊢
      generalize reader.next = called at answer fine ⊢
      obtain ⟨after, report⟩ := called
      dsimp only [List.cons_append, List.nil_append] at answer fine ⊢
      obtain ⟨here, later⟩ := List.forall_mem_cons.mp fine
      cases answer with
      | wait sound live same idle => exact ih sound live later
      | fails failed last => exact absurd (failed.symm.trans here) (by decide)
      | reports proper fine sound live first shorter => exact ih sound live later

def Exhausted (reader : FrameReader) (calls : List Call) : Prop :=
  (∃ report ∈ (reader.run calls).2, report.status.isFailure = true) ∨
    ∃ earlier, calls = earlier ++ [.next] ∧
      ∃ report, (reader.run calls).2.getLast? = some report ∧ report.status = .needMore

theorem exhausted_complete (calls : List Call) (sound : reader.Sound)
    (live : reader.failure = .needMore) (exhausted : Exhausted reader calls) :
    upToFailure (reader.run calls).2 = reader.future (streamOf calls) := by
  rw [← run_future calls sound live]
  by_cases failed : ∃ report ∈ (reader.run calls).2, report.status.isFailure = true
  · exact (upToFailure_append_failed failed _).symm
  have fine : ∀ report ∈ (reader.run calls).2, report.status.isFailure = false := by
    simpa using failed
  obtain ⟨earlier, rfl, report, last, waits⟩ := exhausted.resolve_left failed
  rw [upToFailure_append fine]
  rw [run_append, run, call] at fine last ⊢
  simp only [run, List.append_nil] at fine last ⊢
  obtain ⟨sound, live⟩ := run_live earlier sound live fun report listed =>
    fine report (List.mem_append_left _ listed)
  have answer := next_answer sound live
  generalize (reader.run earlier).1.next = called at answer fine last ⊢
  obtain ⟨after, final⟩ := called
  obtain rfl : final = report := by simpa using last
  cases answer with
  | wait sound live same idle =>
    have nothing := (drain_future _ sound live (Nat.lt_succ_self _)).1
    rw [FrameReader.exhaust, nothing, idle, List.append_nil]
  | fails failed last =>
    rw [waits] at failed
    contradiction
  | reports proper fine sound live first shorter => exact absurd waits proper

/-- The events of a stream do not depend on how it was cut up, nor on when `next` was called. -/
theorem next_ignores_segmentation (maxMessageBytes : Nat) (calls : List Call) :
    let ran := (fresh maxMessageBytes).run calls
    let whole := ((fresh maxMessageBytes).append (streamOf calls)).exhaust
    upToFailure (ran.2 ++ ran.1.exhaust) = upToFailure whole ∧
      (Exhausted (fresh maxMessageBytes) calls → upToFailure ran.2 = upToFailure whole) ∧
      ∃ report, whole.getLast? = some report ∧ report.ends = true := by
  have sound := sound_fresh maxMessageBytes
  have extends_ := append_extends sound (streamOf calls)
  obtain ⟨once, ends⟩ := drain_future _ extends_.sound extends_.failure (Nat.lt_succ_self _)
  have same := once.trans (extends_.future [])
  rw [List.append_nil] at same
  exact ⟨(run_future calls sound rfl).trans same.symm,
    fun exhausted => (exhausted_complete calls sound rfl exhausted).trans same.symm, ends⟩

def splitPing : List Call :=
  [.append [0x89], .next, .read [0, 0, 0] [0x01, 0x41] (by decide), .append [], .next, .next]

theorem next_ignores_segmentation_ping :
    upToFailure ((fresh 125).run splitPing).2 =
      upToFailure ((fresh 125).append (streamOf splitPing)).exhaust :=
  (next_ignores_segmentation 125 splitPing).2.1
    (.inr ⟨[_, _, _, _, _], rfl, ⟨.needMore, none⟩, by decide +kernel, rfl⟩)

end Net

end Crossbook
