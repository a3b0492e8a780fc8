import Crossbook.Net.FrameStream

set_option autoImplicit false

namespace Crossbook

namespace Net

namespace FrameReader

section Views

variable (reader : FrameReader)

def unread : Bytes := reader.buf.drop (reader.readPos + reader.pendingConsume)

def assembly : Assembly where
  gathered := if reader.pendingClearAssembled then [] else reader.assembled
  opcode := reader.messageOpcode
  assembling := reader.assembling

structure Sound : Prop where
  inside : reader.readPos + reader.pendingConsume ≤ reader.buf.length
  idle : reader.assembling = false → reader.assembly.gathered = []

structure Settled : Prop where
  consumed : reader.pendingConsume = 0
  cleared : reader.pendingClearAssembled = false

end Views

/-- A reader that stands for the same stream as another, whatever its buffers look like. -/
structure Same (before after : FrameReader) : Prop where
  maxMessageBytes : after.maxMessageBytes = before.maxMessageBytes
  failure : after.failure = before.failure
  assembly : after.assembly = before.assembly
  unread : after.unread = before.unread
  sound : after.Sound

variable {reader : FrameReader}

theorem sound_fresh (maxMessageBytes : Nat) : (fresh maxMessageBytes).Sound :=
  ⟨Nat.zero_le _, fun _ => rfl⟩

theorem consumePending_same (sound : reader.Sound) : Same reader reader.consumePending := by
  have inside := sound.inside
  have idle := sound.idle
  refine ⟨rfl, rfl, ?_, ?_, ⟨?_, ?_⟩⟩
  · simp [assembly, consumePending]
  · simp [unread, consumePending]
  · simpa [consumePending] using inside
  · simpa [assembly, consumePending] using idle

theorem consumePending_settled (reader : FrameReader) : reader.consumePending.Settled := ⟨rfl, rfl⟩

theorem compact_same (sound : reader.Sound) :
    Same reader reader.compact ∧ reader.compact.Settled := by
  obtain ⟨sameMax, sameFailure, sameAssembly, sameUnread, inside, idle⟩ :=
    consumePending_same sound
  obtain ⟨consumed, cleared⟩ := consumePending_settled reader
  simp only [consumed, Nat.add_zero] at inside
  simp only [unread, consumed, Nat.add_zero] at sameUnread
  unfold compact
  dsimp only
  split
  · exact ⟨⟨sameMax, sameFailure, sameAssembly, by simpa [unread, consumed] using sameUnread,
      by simpa [consumed] using inside, idle⟩, consumed, cleared⟩
  split
  · rename_i all
    refine ⟨⟨sameMax, sameFailure, sameAssembly, ?_, ?_, idle⟩, consumed, cleared⟩
    · rw [all, List.drop_length] at sameUnread
      simpa [unread, consumed] using sameUnread
    · simp [consumed]
  split
  · exact ⟨⟨sameMax, sameFailure, sameAssembly, by simpa [unread, consumed] using sameUnread,
      by simpa [consumed] using inside, idle⟩, consumed, cleared⟩
  · exact ⟨⟨sameMax, sameFailure, sameAssembly, by simpa [unread, consumed] using sameUnread,
      by simp [consumed], idle⟩, consumed, cleared⟩

/-- A reader that stands for the stream of another with `data` behind it. -/
structure Extends (before : FrameReader) (data : Bytes) (after : FrameReader) : Prop where
  maxMessageBytes : after.maxMessageBytes = before.maxMessageBytes
  failure : after.failure = before.failure
  assembly : after.assembly = before.assembly
  unread : after.unread = before.unread ++ data
  sound : after.Sound

theorem append_extends (sound : reader.Sound) (data : Bytes) :
    Extends reader data (reader.append data) := by
  obtain ⟨⟨sameMax, sameFailure, sameAssembly, sameUnread, inside, idle⟩, consumed, _⟩ :=
    compact_same sound
  refine ⟨sameMax, sameFailure, sameAssembly, ?_, ?_, idle⟩
  · rw [← sameUnread]
    simp only [unread, append]
    exact List.drop_append_of_le_length inside
  · simp only [append, List.length_append]
    omega

theorem commit_append (reader : FrameReader) (undetermined data : Bytes)
    (fits : data.length ≤ undetermined.length) :
    ((reader.writableTail undetermined).fillTail undetermined.length data).commit data.length
      undetermined.length = reader.append data := by
  have old : (reader.compact.buf ++ undetermined).length - undetermined.length =
      reader.compact.buf.length := by
    rw [List.length_append]
    omega
  simp only [writableTail, fillTail, commit, append, old, List.take_left]
  congr 1
  rw [List.take_append_of_le_length, List.take_of_length_le]
  all_goals
    simp only [List.length_append, List.length_drop]
    omega

theorem emitControl_report (reader : FrameReader) (opcode : Opcode) (payload : Bytes) :
    (reader.emitControl opcode payload).2 = Assembly.controlReport opcode payload := by
  unfold emitControl Assembly.controlReport
  dsimp only
  split
  · rfl
  split
  · rfl
  rcases payload with _ | ⟨high, _ | ⟨low, rest⟩⟩ <;> rfl

theorem emitControl_state (reader : FrameReader) (opcode : Opcode) (payload : Bytes) :
    (reader.emitControl opcode payload).1 = { reader with control := payload } := by
  unfold emitControl
  dsimp only
  split
  · rfl
  split
  · rfl
  rcases payload with _ | ⟨high, _ | ⟨low, rest⟩⟩ <;> rfl

section Passes

variable (sound : reader.Sound) (settled : reader.Settled)

include settled in
theorem Settled.unread : reader.unread = reader.buf.drop reader.readPos := by
  rw [FrameReader.unread, settled.consumed, Nat.add_zero]

include settled in
theorem Settled.assembly :
    reader.assembly = ⟨reader.assembled, reader.messageOpcode, reader.assembling⟩ := by
  simp [FrameReader.assembly, settled.cleared]

include settled in
theorem nextFrame_wait (waits : pass reader.maxMessageBytes reader.assembly reader.unread = none) :
    reader.nextFrame = (reader, some ⟨.needMore, none⟩) := by
  rw [settled.unread, settled.assembly] at waits
  unfold pass at waits
  unfold nextFrame
  dsimp only
  cases parsed : parseFrameHeader (reader.buf.drop reader.readPos) with
  | incomplete => rfl
  | protocolError =>
    rw [parsed] at waits
    contradiction
  | ok header =>
    rw [parsed] at waits
    dsimp only at waits ⊢
    split at waits
    · contradiction
    rename_i unmasked
    rw [if_neg unmasked]
    split at waits
    · contradiction
    rename_i fits
    rw [if_neg (by exact fits)]
    split at waits
    · rename_i short
      rw [if_pos short]
    · contradiction

structure Reached (before : FrameReader) (step : Pass) (after : FrameReader) : Prop where
  maxMessageBytes : after.maxMessageBytes = before.maxMessageBytes
  failure : after.failure = before.failure
  assembly : after.assembly = step.assembly
  unread : after.unread = step.rest
  sound : after.Sound
  settled : step.report = none → after.Settled

include settled in
theorem Ready.passes {header : FrameHeader} (ready : reader.Ready header) :
    pass reader.maxMessageBytes reader.assembly reader.unread =
      some
        (let received := Assembly.receive
          ⟨reader.assembled, reader.messageOpcode, reader.assembling⟩ header.opcode header.fin
          (reader.payloadAt header)
         ⟨received.1, reader.buf.drop (reader.readPos + (header.headerSize + header.payloadLen)),
          received.2⟩) := by
  have fits := ready.fits
  rw [settled.unread, settled.assembly, pass, ready.parsed]
  dsimp only
  rw [if_neg (by simp [ready.unmasked]), if_neg (by exact fits), if_neg ready.complete]
  simp only [payloadAt, List.drop_drop]

theorem Ready.inside {header : FrameHeader} (ready : reader.Ready header)
    (inside : reader.readPos ≤ reader.buf.length) :
    reader.readPos + (header.headerSize + header.payloadLen) ≤ reader.buf.length := by
  have complete := ready.complete
  rw [List.length_drop] at complete
  omega

include sound settled in
theorem nextFrame_pass {step : Pass}
    (passed : pass reader.maxMessageBytes reader.assembly reader.unread = some step) :
    reader.nextFrame.2 = step.report ∧
      ((∀ report, step.report = some report → report.status.isFailure = false) →
        Reached reader step reader.nextFrame.1) := by
  have idle := sound.idle
  have inside := sound.inside
  rw [settled.consumed, Nat.add_zero] at inside
  rw [settled.assembly] at idle
  have taken := reader.nextFrame_step
  generalize reader.nextFrame = result at taken ⊢
  cases taken with
  | waits waiting =>
    rw [settled.unread, settled.assembly, pass] at passed
    rcases waiting with parsed | ⟨header, parsed, unmasked, fits, short⟩
    · rw [parsed] at passed
      contradiction
    · rw [parsed] at passed
      dsimp only at passed
      rw [if_neg (by simp [unmasked]), if_neg (by exact fits), if_pos short] at passed
      contradiction
  | malformed parsed =>
    rw [settled.unread, settled.assembly, pass, parsed] at passed
    obtain rfl := Option.some.inj passed
    exact ⟨rfl, fun goes => absurd (goes _ rfl) (by decide)⟩
  | masked parsed masked =>
    rw [settled.unread, settled.assembly, pass, parsed] at passed
    dsimp only at passed
    rw [if_pos masked] at passed
    obtain rfl := Option.some.inj passed
    exact ⟨rfl, fun goes => absurd (goes _ rfl) (by decide)⟩
  | tooLarge parsed unmasked large =>
    rw [settled.unread, settled.assembly, pass, parsed] at passed
    dsimp only at passed
    rw [if_neg (by simp [unmasked]), if_pos (by exact large)] at passed
    obtain rfl := Option.some.inj passed
    exact ⟨rfl, fun goes => absurd (goes _ rfl) (by decide)⟩
  | @control header ready control after report emitted =>
    rw [ready.passes settled, Assembly.receive, if_pos control] at passed
    obtain rfl := Option.some.inj passed
    obtain rfl := (congrArg Prod.fst emitted).symm.trans (emitControl_state _ _ _)
    obtain rfl := (congrArg Prod.snd emitted).symm.trans (emitControl_report _ _ _)
    refine ⟨rfl, fun _ => ⟨rfl, rfl, by simp [FrameReader.assembly, settled.cleared],
      by simp [FrameReader.unread, settled.consumed], ⟨?_, ?_⟩, by simp⟩⟩
    · simpa [settled.consumed] using ready.inside inside
    · simpa [FrameReader.assembly, settled.cleared] using idle
  | misplaced ready data misplaced =>
    rw [ready.passes settled, Assembly.receive, if_neg (by simp [data]), if_pos misplaced] at passed
    obtain rfl := Option.some.inj passed
    exact ⟨rfl, fun goes => absurd (goes _ rfl) (by decide)⟩
  | whole ready data placed fin alone =>
    rw [ready.passes settled, Assembly.receive, if_neg (by simp [data]), if_neg placed, alone,
      if_pos fin] at passed
    obtain rfl := Option.some.inj passed
    have empty : reader.assembled = [] := idle alone
    refine ⟨rfl, fun _ => ⟨rfl, rfl, ?_, ?_, ⟨ready.inside inside, ?_⟩, by simp⟩⟩
    · simp [FrameReader.assembly, empty, opcodeAt, alone]
    · rfl
    · simp [FrameReader.assembly, empty]
  | last ready data placed fin joins =>
    rw [ready.passes settled, Assembly.receive, if_neg (by simp [data]), if_neg placed, joins,
      if_pos fin] at passed
    obtain rfl := Option.some.inj passed
    refine ⟨rfl, fun _ => ⟨rfl, rfl, ?_, ?_, ⟨?_, ?_⟩, by simp⟩⟩
    · simp [FrameReader.assembly, gather, opcodeAt]
    · simp [FrameReader.unread, gather, settled.consumed]
    · simpa [gather, settled.consumed] using ready.inside inside
    · simp [FrameReader.assembly]
  | part ready data placed fin =>
    rw [ready.passes settled, Assembly.receive, if_neg (by simp [data]), if_neg placed,
      if_neg (by simp [fin])] at passed
    obtain rfl := Option.some.inj passed
    refine ⟨rfl, fun _ => ⟨rfl, rfl, ?_, ?_, ⟨?_, ?_⟩, ?_⟩⟩
    · simp [FrameReader.assembly, gather, settled.cleared, opcodeAt]
    · simp [FrameReader.unread, gather, settled.consumed]
    · simpa [gather, settled.consumed] using ready.inside inside
    · simp [gather]
    · exact fun _ => ⟨settled.consumed, settled.cleared⟩

end Passes

section Calls

def future (reader : FrameReader) (data : Bytes) : List Report :=
  reports reader.maxMessageBytes reader.assembly (reader.unread ++ data)

theorem Same.future {before after : FrameReader} (same : Same before after) (data : Bytes) :
    after.future data = before.future data := by
  rw [FrameReader.future, same.maxMessageBytes, same.assembly, same.unread]
  rfl

theorem Extends.future {before after : FrameReader} {data : Bytes}
    (extends_ : Extends before data after) (later : Bytes) :
    after.future later = before.future (data ++ later) := by
  rw [FrameReader.future, extends_.maxMessageBytes, extends_.assembly, extends_.unread,
    List.append_assoc]
  rfl

/-- How a call stands to what its reader had to report. -/
inductive Answer (before : FrameReader) : FrameReader → Report → Prop
  | wait {after : FrameReader} (sound : after.Sound) (live : after.failure = .needMore)
      (same : ∀ data, after.future data = before.future data) (idle : after.future [] = []) :
      Answer before after ⟨.needMore, none⟩
  | fails {after : FrameReader} {report : Report} (failed : report.status.isFailure = true)
      (last : ∀ data, before.future data = [report]) : Answer before after report
  | reports {after : FrameReader} {report : Report} (proper : report.status ≠ .needMore)
      (fine : report.status.isFailure = false) (sound : after.Sound)
      (live : after.failure = .needMore)
      (first : ∀ data, before.future data = report :: after.future data)
      (shorter : after.unread.length < before.unread.length) : Answer before after report

theorem Answer.earlier {before again after : FrameReader} {report : Report}
    (answer : Answer again after report) (same : ∀ data, again.future data = before.future data)
    (shorter : again.unread.length ≤ before.unread.length) : Answer before after report := by
  cases answer with
  | wait sound live later idle =>
    exact .wait sound live (fun data => (later data).trans (same data)) idle
  | fails failed last => exact .fails failed fun data => (same data).symm.trans (last data)
  | reports proper fine sound live first less =>
    exact .reports proper fine sound live (fun data => (same data).symm.trans (first data))
      (less.trans_le shorter)

theorem controlReport_proper (opcode : Opcode) (payload : Bytes) :
    (Assembly.controlReport opcode payload).status ≠ .needMore := by
  unfold Assembly.controlReport
  split
  · simp
  split
  · simp
  rcases payload with _ | ⟨high, _ | ⟨low, rest⟩⟩ <;> simp

theorem pass_proper {maxMessageBytes : Nat} {assembly : Assembly} {stream : Bytes} {step : Pass}
    {report : Report} (passed : pass maxMessageBytes assembly stream = some step)
    (reported : step.report = some report) : report.status ≠ .needMore := by
  unfold pass at passed
  split at passed
  · contradiction
  · obtain rfl := Option.some.inj passed
    obtain rfl := Option.some.inj reported
    simp
  split at passed
  · obtain rfl := Option.some.inj passed
    obtain rfl := Option.some.inj reported
    simp
  split at passed
  · obtain rfl := Option.some.inj passed
    obtain rfl := Option.some.inj reported
    simp
  split at passed
  · contradiction
  obtain rfl := Option.some.inj passed
  dsimp only [Assembly.receive] at reported
  split at reported
  · obtain rfl := Option.some.inj reported
    exact controlReport_proper _ _
  split at reported
  · obtain rfl := Option.some.inj reported
    simp
  split at reported
  · obtain rfl := Option.some.inj reported
    simp
  · contradiction

theorem nextFrames_answer (sound : reader.Sound) (settled : reader.Settled)
    (live : reader.failure = .needMore) :
    Answer reader reader.nextFrames.1 reader.nextFrames.2 := by
  fun_induction nextFrames reader with
  | case1 reader stopped report stops =>
    cases passed : pass reader.maxMessageBytes reader.assembly reader.unread with
    | none =>
      obtain ⟨rfl, same⟩ := Prod.mk.inj (stops.symm.trans (nextFrame_wait settled passed))
      obtain rfl := Option.some.inj same
      refine .wait sound live (fun _ => rfl) ?_
      rw [future, List.append_nil]
      exact reports_wait passed
    | some step =>
      obtain ⟨reported, reached⟩ := nextFrame_pass sound settled passed
      rw [stops] at reported reached
      have proper := pass_proper passed reported.symm
      have goes (data : Bytes) := reports_pass (pass_more passed data)
      simp only [← reported] at goes reached
      cases failed : report.status.isFailure with
      | true =>
        refine .fails failed fun data => ?_
        rw [future, goes data, if_pos failed]
      | false =>
        have reached := reached (by simpa using failed)
        refine .reports proper failed reached.sound (reached.failure.trans live) ?_ ?_
        · intro data
          rw [future, goes data, if_neg (by simp [failed]), future, reached.maxMessageBytes,
            reached.assembly, reached.unread]
        · rw [reached.unread]
          exact pass_shorter passed (by simpa [← reported] using failed)
  | case2 reader again goes ih =>
    cases passed : pass reader.maxMessageBytes reader.assembly reader.unread with
    | none =>
      have stops := goes.symm.trans (nextFrame_wait settled passed)
      simp at stops
    | some step =>
      obtain ⟨reported, reached⟩ := nextFrame_pass sound settled passed
      rw [goes] at reported reached
      have reached := reached (by simp [← reported])
      refine (ih reached.sound (reached.settled reported.symm)
        (reached.failure.trans live)).earlier ?_ ?_
      · intro data
        have first := reports_pass (pass_more passed data)
        simp only [← reported] at first
        rw [future, future, first, reached.maxMessageBytes, reached.assembly, reached.unread]
      · rw [reached.unread]
        exact (pass_shorter passed (by simp [← reported])).le

theorem next_answer (sound : reader.Sound) (live : reader.failure = .needMore) :
    Answer reader reader.next.1 reader.next.2 := by
  have same := consumePending_same sound
  rw [next, if_neg (by simp [live])]
  refine (nextFrames_answer same.sound (consumePending_settled reader)
    (same.failure.trans live)).earlier same.future ?_
  rw [same.unread]

end Calls

end FrameReader

end Net

end Crossbook
