import Crossbook.Feed.Resync
import Crossbook.Replay.Sweep
import Crossbook.Tools.Reproduce

set_option autoImplicit false

namespace Crossbook

variable {S : Type} [SideImpl S] [LawfulSideImpl S]

namespace Feed

section Ignoring

/-- A frame that is not for the book. -/
def Ignores (decoder : Decoder) (frame : Bytes) : Prop :=
  (decoder.decode frame).ok = true ∧ (decoder.decode frame).kind = .ignored

theorem handle_ignored (feed : Feed S) {frame : Bytes} (ignores : Ignores feed.decoder frame) :
    (feed.handle frame).1.core = feed.core ∧ feed.core.comparison (.handle frame) = [] ∧
      feed.core.fate (feed.decoder.decode frame) = .ignored := by
  obtain ⟨decoded, kind⟩ := ignores
  have decoder : feed.core.decoder = feed.decoder := rfl
  have step := feed.handle_step frame
  refine ⟨(step.unique (.ignored decoded kind)).1, ?_, ?_⟩
  · simp [FeedCore.comparison, FeedCore.handleComparison, decoder, decoded, kind]
  · simp [FeedCore.fate, decoded, kind]

theorem run_ignored (feed : Feed S) (frames : List Bytes)
    (ignores : ∀ frame ∈ frames, Ignores feed.decoder frame) :
    (Run.respond handle feed frames).1.core = feed.core ∧
      feed.compared (frames.map FeedCall.handle) = [] ∧
      feed.fates frames = List.replicate frames.length .ignored := by
  induction frames generalizing feed with
  | nil => exact ⟨rfl, rfl, rfl⟩
  | cons frame rest ih =>
    obtain ⟨here, later⟩ := List.forall_mem_cons.mp ignores
    obtain ⟨core, nothing, fate⟩ := feed.handle_ignored here
    have decoder : (feed.handle frame).1.decoder = feed.decoder := decoder_lockstep core
    obtain ⟨after, compared, fates⟩ := ih (feed.handle frame).1 (by rwa [decoder])
    refine ⟨after.trans core, ?_, ?_⟩
    · rw [List.map_cons, Feed.compared, nothing]
      exact compared
    · rw [Feed.fates, fate, fates]
      rfl

end Ignoring

structure Rebuilds (decoder : Decoder) (early : List Bytes) (opening : Bytes) : Prop where
  ignores : ∀ frame ∈ early, Ignores decoder frame
  opens : Opens decoder (.handle opening) (decoder.decode opening)
  numbered : (decoder.decode opening).hasIds = true ∨ Numberless decoder

section Copies

variable {early : List Bytes} {opening : Bytes} {rest : List Bytes} {f g : Feed S}

theorem setup_respond (feed : Feed S) (frames : List Bytes) :
    (Run.respond handle feed frames).1.core.setup = feed.core.setup := by
  rw [respond_run]
  exact feed.setup_run _

theorem ignored_alike (setup : f.core.setup = g.core.setup) {part : List Bytes}
    (ignores : ∀ frame ∈ part, Ignores f.decoder frame) :
    f.fates part = g.fates part ∧ f.compared (part.map FeedCall.handle) = [] ∧
      g.compared (part.map FeedCall.handle) = [] := by
  have decoder : f.decoder = g.decoder := (Prod.mk.inj setup).1
  obtain ⟨-, nothing, fates⟩ := f.run_ignored part ignores
  obtain ⟨-, neither, same⟩ := g.run_ignored part (decoder ▸ ignores)
  exact ⟨fates.trans same.symm, nothing, neither⟩

theorem part_alike (rebuilds : Rebuilds f.decoder early opening)
    (setup : f.core.setup = g.core.setup) {part : List Bytes}
    (front : part <+: early ++ opening :: rest) :
    f.fates part = g.fates part ∧
      (f.compared (part.map FeedCall.handle)).map Comparison.matched =
        (g.compared (part.map FeedCall.handle)).map Comparison.matched := by
  rcases List.prefix_or_prefix_of_prefix front (List.prefix_append early _) with inside | ⟨more, rfl⟩
  · obtain ⟨fates, nothing, neither⟩ :=
      ignored_alike setup fun frame member => rebuilds.ignores frame (inside.subset member)
    exact ⟨fates, by rw [nothing, neither]⟩
  · obtain ⟨fates, nothing, neither⟩ := ignored_alike setup rebuilds.ignores
    have later := (List.prefix_append_right_inj early).mp front
    have ready : (Run.respond handle f early).1.core.setup =
        (Run.respond handle g early).1.core.setup :=
      (f.setup_respond early).trans (setup.trans (g.setup_respond early).symm)
    have decoder : (Run.respond handle f early).1.decoder = f.decoder := f.run_decoder early
    rw [fates_append, fates_append, compared_append, compared_append, fates, nothing, neither]
    cases more with
    | nil => exact ⟨rfl, rfl⟩
    | cons first others =>
      obtain ⟨rfl, -⟩ := List.cons_prefix_cons.mp later
      have opens := rebuilds.opens
      have numbered := rebuilds.numbered
      rw [← decoder] at opens numbered
      refine ⟨congrArg _ (fates_opens ready opens numbered others), ?_⟩
      exact (respond_opens ready opens numbered (others.map FeedCall.handle)).2.2

theorem fates_take (feed : Feed S) (frames : List Bytes) (n : Nat) :
    feed.fates frames = feed.fates (frames.take n) ++
      (Run.respond handle feed (frames.take n)).1.fates (frames.drop n) := by
  rw [← fates_append, List.take_append_drop]

theorem compared_take (feed : Feed S) (frames : List Bytes) (n : Nat) :
    feed.compared (frames.map FeedCall.handle) =
      feed.compared ((frames.take n).map FeedCall.handle) ++
        (Run.respond handle feed (frames.take n)).1.compared
          ((frames.drop n).map FeedCall.handle) := by
  rw [← compared_append, List.take_append_drop]

/-- Two runs meet with the same fates, and both compare checksums or neither does. -/
def Meets (f : Feed S) (part : List Bytes) (g : Feed S) (frames : List Bytes) : Prop :=
  (∀ fate, fate ∈ f.fates part ↔ fate ∈ g.fates frames) ∧
    (f.compared (part.map FeedCall.handle) = [] ↔ g.compared (frames.map FeedCall.handle) = [])

theorem Meets.append {part more frames : List Bytes} {m n : Nat}
    (first : Meets f part g (frames.take m))
    (second : Meets (Run.respond handle f part).1 more g (frames.take n)) :
    Meets f (part ++ more) g (frames.take (max m n)) := by
  have within (k : Nat) (shorter : k ≤ max m n) :
      (frames.take (max m n)).take k = frames.take k := by
    rw [List.take_take, min_eq_left shorter]
  have left := g.fates_take (frames.take (max m n)) m
  have right := g.fates_take (frames.take (max m n)) n
  have mine := g.compared_take (frames.take (max m n)) m
  have theirs := g.compared_take (frames.take (max m n)) n
  rw [within m (le_max_left _ _)] at left mine
  rw [within n (le_max_right _ _)] at right theirs
  constructor
  · intro fate
    rw [fates_append, List.mem_append, first.1, second.1]
    constructor
    · rintro (member | member)
      · exact left ▸ List.mem_append_left _ member
      · exact right ▸ List.mem_append_left _ member
    · rcases le_total m n with shorter | longer
      · rw [max_eq_right shorter]
        exact .inr
      · rw [max_eq_left longer]
        exact .inl
  · rw [compared_append, List.append_eq_nil_iff, first.2, second.2]
    constructor
    · rcases le_total m n with shorter | longer
      · rw [max_eq_right shorter]
        exact And.right
      · rw [max_eq_left longer]
        exact And.left
    · intro none_
      exact ⟨(List.append_eq_nil_iff.mp (mine.symm.trans none_)).1,
        (List.append_eq_nil_iff.mp (theirs.symm.trans none_)).1⟩

theorem meets_copies (rebuilds : Rebuilds g.decoder early opening)
    (setup : f.core.setup = g.core.setup) {copies : Nat} {part : List Bytes}
    (front : part <+: (List.replicate copies (early ++ opening :: rest)).flatten) :
    Meets f part g ((early ++ opening :: rest).take part.length) := by
  induction copies generalizing f part with
  | zero =>
    rw [List.replicate_zero, List.flatten_nil, List.prefix_nil] at front
    subst front
    exact ⟨fun _ => Iff.rfl, Iff.rfl⟩
  | succ copies ih =>
    rw [List.replicate_succ, List.flatten_cons] at front
    have decoder : f.decoder = g.decoder := (Prod.mk.inj setup).1
    have alone {piece : List Bytes} (inside : piece <+: early ++ opening :: rest) :
        Meets f piece g ((early ++ opening :: rest).take piece.length) := by
      obtain ⟨fates, matched⟩ := part_alike (decoder ▸ rebuilds) setup inside
      rw [← List.prefix_iff_eq_take.mp inside, Meets, fates]
      refine ⟨fun _ => Iff.rfl, ?_⟩
      rw [← List.map_eq_nil_iff (f := Comparison.matched), matched, List.map_eq_nil_iff]
    rcases List.prefix_or_prefix_of_prefix front (List.prefix_append _ _) with inside | ⟨more, rfl⟩
    · exact alone inside
    · have later := (List.prefix_append_right_inj _).mp front
      have whole := alone List.prefix_rfl
      have next := ih ((f.setup_respond (early ++ opening :: rest)).trans setup) later
      have both := whole.append next
      rw [List.take_of_length_le (le_max_left _ _)] at both
      rwa [List.length_append, List.take_of_length_le (Nat.le_add_right _ _)]

def reach (parts : List (List Bytes)) : Nat := (parts.map List.length).foldr max 0

theorem meets_parts (rebuilds : Rebuilds g.decoder early opening)
    (setup : f.core.setup = g.core.setup) {parts : List (List Bytes)}
    (fronts : ∀ part ∈ parts, ∃ copies,
      part <+: (List.replicate copies (early ++ opening :: rest)).flatten) :
    Meets f parts.flatten g ((early ++ opening :: rest).take (reach parts)) := by
  induction parts generalizing f with
  | nil => exact ⟨fun _ => Iff.rfl, Iff.rfl⟩
  | cons part others ih =>
    obtain ⟨⟨copies, front⟩, later⟩ := List.forall_mem_cons.mp fronts
    have here := meets_copies rebuilds setup front
    exact here.append (ih ((f.setup_respond part).trans setup) later)

end Copies

end Feed

namespace Tools

open Replay (Clocked ReplayEvent ReplayOptions SweepOptions SweepResult Speed Steady Lasts Climbed
  replayOpenLoop replaySweep rungEvents sweepStride)

inductive ReplayMode where
  | unpaced
  | paced (options : ReplayOptions)
  | swept (options : SweepOptions)

def replayEvents (capture : Capture) : List ReplayEvent :=
  capture.frames.map fun frame => ⟨frame.tsRecv, frame.payload⟩

def ReplayMode.needs : ReplayMode → Capture → List (Nat × Nat)
  | .unpaced, _ => []
  | .paced options, capture => Replay.needs options (replayEvents capture)
  | .swept options, capture =>
    match sweepStride (replayEvents capture) with
    | none => []
    | some stride =>
      Replay.sweepNeeds options (replayEvents capture) stride options.ladder

def handleEvent (feed : Feed S) (event : ReplayEvent) : Feed S := (feed.handle event.frame).1

def runReplayWith (mode : ReplayMode) (feed : Feed S) (capture : Capture) : Clocked Nat :=
  match mode with
  | .swept options => do
    let swept ← replaySweep handleEvent options (replayEvents capture) feed
    return verdict swept.2
  | .paced options => do
    let replayed ← replayOpenLoop handleEvent options (replayEvents capture) feed
    return verdict replayed.2
  | .unpaced =>
    return verdict (capture.frames.foldl (fun feed frame => (feed.handle frame.payload).1) feed)

/-- A replay in any mode; `runReplay` is the one that is not paced. -/
def runReplayIn (mode : ReplayMode) (options : Options) (contents : Bytes) : Clocked Nat :=
  match Capture.parse contents with
  | .error _ => return 1
  | .ok capture =>
    if capture.frames.isEmpty then return 1
    else
      match (replayFeed options capture : Option (Feed S)) with
      | none => return 1
      | some feed => runReplayWith mode feed capture

theorem foldl_handleEvent (feed : Feed S) (events : List ReplayEvent) :
    events.foldl handleEvent feed =
      (Run.respond Feed.handle feed (events.map ReplayEvent.frame)).1 := by
  rw [Run.respond_state, List.foldl_map]
  rfl

theorem frames_replayEvents (capture : Capture) :
    (replayEvents capture).map ReplayEvent.frame = capture.frames.map CapturedFrame.payload := by
  simp [replayEvents, Function.comp_def]

theorem frames_rungEvents (options : SweepOptions) (events : List ReplayEvent)
    (stride : Timestamp) (speed : Speed) :
    ∃ copies, (rungEvents options events stride speed).map ReplayEvent.frame <+:
      (List.replicate copies (events.map ReplayEvent.frame)).flatten := by
  refine ⟨(Replay.sweepLoops (UInt64.ofNat events.length) options.wanted speed.budget).toNat, ?_⟩
  rw [← Replay.frames_tileCapture stride]
  refine List.IsPrefix.map _ ?_
  unfold rungEvents Replay.sweepTiled
  dsimp only
  split
  · exact List.prefix_rfl
  · split
    · exact List.prefix_rfl
    · exact List.take_prefix _ _

section Verdicts

variable {options : Options} {contents : Bytes} {capture : Capture} {start : Feed S}

theorem replayed_start (parsed : Capture.parse contents = .ok capture)
    (some_ : capture.frames.isEmpty = false) (fed : replayFeed options capture = some start) :
    replayed options contents = some (Run.respond Feed.handle start
      (capture.frames.map CapturedFrame.payload)).1 := by
  rw [replayed, parsed]
  simp only [some_, Bool.false_eq_true, if_false, fed, Option.map_some]

theorem runReplayWith_paced {pacing : ReplayOptions} {readings later : List UInt64} {status : Nat}
    (ran : runReplayWith (.paced pacing) start capture readings = some (status, later)) :
    status = verdict (Run.respond Feed.handle start
      (capture.frames.map CapturedFrame.payload)).1 := by
  obtain ⟨replayed, _, replays, returned⟩ := Replay.bind_eq_some.mp ran
  obtain ⟨rfl, -⟩ := Replay.pure_eq_some.mp returned
  rw [(Replay.replayOpenLoop_counts replays).1, foldl_handleEvent, frames_replayEvents]

theorem runReplayWith_unpaced {readings later : List UInt64} {status : Nat}
    (ran : runReplayWith .unpaced start capture readings = some (status, later)) :
    status = verdict (Run.respond Feed.handle start
      (capture.frames.map CapturedFrame.payload)).1 := by
  obtain ⟨rfl, -⟩ := Replay.pure_eq_some.mp ran
  rw [Run.respond_state, List.foldl_map]

def sweptParts (sweep : SweepOptions) (capture : Capture) (stride : Timestamp) (rungs : List Speed) :
    List (List Bytes) :=
  rungs.map fun speed =>
    (rungEvents sweep (replayEvents capture) stride speed).map ReplayEvent.frame

theorem runReplayWith_swept {sweep : SweepOptions} {readings later : List UInt64} {status : Nat}
    (ran : runReplayWith (.swept sweep) start capture readings = some (status, later)) :
    ∃ swept last, replaySweep handleEvent sweep (replayEvents capture) start readings =
      some ((swept, last), later) ∧ status = verdict last := by
  obtain ⟨swept, _, sweeps, returned⟩ := Replay.bind_eq_some.mp ran
  obtain ⟨rfl, rfl⟩ := Replay.pure_eq_some.mp returned
  exact ⟨swept.1, swept.2, sweeps, rfl⟩

theorem climbed_handled {sweep : SweepOptions} {stride : Timestamp} {swept : SweepResult}
    {last : Feed S} {rungs : List Speed}
    (climbed : Climbed handleEvent sweep (replayEvents capture) stride start swept last rungs) :
    last = (Run.respond Feed.handle start (sweptParts sweep capture stride rungs).flatten).1 := by
  rw [climbed.handled, foldl_handleEvent, List.map_flatMap, List.flatMap_def]
  rfl

theorem runReplayWith_lasts (mode : ReplayMode) {clock : List UInt64} (steady : Steady clock)
    (lasts : Lasts (mode.needs capture) clock) : (runReplayWith mode start capture clock).isSome := by
  cases mode with
  | unpaced => rfl
  | paced pacing =>
    rw [ReplayMode.needs, ← List.append_nil (Replay.needs _ _)] at lasts
    obtain ⟨result, later, replays, -⟩ :=
      Replay.replayOpenLoop_lasts handleEvent pacing start (replayEvents capture) steady lasts
    simp only [runReplayWith, bind, StateT.bind, replays, Option.bind_some]
    rfl
  | swept sweep =>
    have ends : (replaySweep handleEvent sweep (replayEvents capture) start clock).isSome := by
      rw [ReplayMode.needs] at lasts
      split at lasts
      next unstepped =>
        rw [replaySweep, unstepped]
        rfl
      next stride stepped => exact Replay.replaySweep_lasts stepped start steady lasts
    obtain ⟨returned, sweeps⟩ := Option.isSome_iff_exists.mp ends
    simp only [runReplayWith, bind, StateT.bind, sweeps, Option.bind_some]
    rfl

theorem runReplayIn_lasts (mode : ReplayMode) {clock : List UInt64} (steady : Steady clock)
    (lasts : ∀ capture, Capture.parse contents = .ok capture → Lasts (mode.needs capture) clock) :
    (runReplayIn (S := S) mode options contents clock).isSome := by
  rw [runReplayIn]
  cases parsed : Capture.parse contents with
  | error failed => rfl
  | ok capture =>
    dsimp only
    by_cases none_ : capture.frames.isEmpty = true
    · rw [if_pos none_]
      rfl
    · rw [if_neg none_]
      cases (replayFeed options capture : Option (Feed S)) with
      | none => rfl
      | some feed => exact runReplayWith_lasts mode steady (lasts capture parsed)

theorem replayFeed_new (fed : replayFeed options capture = some start) :
    ∃ venue decoder policy depth, start = Feed.new venue decoder policy depth := by
  unfold replayFeed at fed
  obtain ⟨scales, -, rfl⟩ := Option.map_eq_some_iff.mp fed
  dsimp only
  split
  · exact ⟨_, _, _, _, rfl⟩
  · exact ⟨_, _, _, _, rfl⟩

theorem verdict_meets (fed : replayFeed options capture = some start)
    {part frames : List Bytes} (meets : Feed.Meets start part start frames) :
    verdict (Run.respond Feed.handle start part).1 = 0 ↔
      verdict (Run.respond Feed.handle start frames).1 = 0 := by
  obtain ⟨venue, decoder, policy, depth, rfl⟩ := replayFeed_new fed
  obtain ⟨left, -⟩ := Feed.verdict_clean (S := S) venue decoder policy depth part
  obtain ⟨right, -⟩ := Feed.verdict_clean (S := S) venue decoder policy depth frames
  rw [left, right, ne_eq, ne_eq, meets.2]
  refine and_congr_left' (forall_congr' fun fate => ?_)
  rw [meets.1]

theorem runReplayIn_ordered {mode : ReplayMode} (ordered : ∀ sweep, mode ≠ .swept sweep)
    {readings later : List UInt64} {status : Nat}
    (ran : runReplayIn (S := S) mode options contents readings = some (status, later)) :
    status = runReplay (S := S) options contents := by
  have unread (nothing : replayed (S := S) options contents = none) :
      runReplay (S := S) options contents = 1 := by rw [runReplay, nothing]
  rw [runReplayIn] at ran
  cases parsed : Capture.parse contents with
  | error failed =>
    rw [parsed] at ran
    rw [unread (by rw [replayed, parsed])]
    exact (Replay.pure_eq_some.mp ran).1.symm
  | ok capture =>
    rw [parsed] at ran
    dsimp only at ran
    cases none_ : capture.frames.isEmpty with
    | true =>
      rw [none_, if_pos rfl] at ran
      rw [unread (by simp [replayed, parsed, none_])]
      exact (Replay.pure_eq_some.mp ran).1.symm
    | false =>
      rw [none_, if_neg Bool.false_ne_true] at ran
      cases fed : (replayFeed options capture : Option (Feed S)) with
      | none =>
        rw [fed] at ran
        rw [unread (by simp [replayed, parsed, none_, fed])]
        exact (Replay.pure_eq_some.mp ran).1.symm
      | some start =>
        rw [fed] at ran
        rw [runReplay_replayed (replayed_start parsed none_ fed)]
        cases mode with
        | unpaced => exact runReplayWith_unpaced ran
        | paced pacing => exact runReplayWith_paced ran
        | swept sweep => exact absurd rfl (ordered sweep)

end Verdicts

/-- What the exit status of a sweep says: it is that of a plain replay of as much of the capture as the
longest of the rungs that it has climbed covers. -/
structure SweptVerdict (options : Options) (contents : Bytes) (capture : Capture) (start : Feed S)
    (sweep : SweepOptions) (stride : Timestamp) (swept : SweepResult) (last : Feed S)
    (rungs : List Speed) (status : Nat) : Prop where
  climbed : Climbed handleEvent sweep (replayEvents capture) stride start swept last rungs
  covered : status = 0 ↔ verdict (Run.respond Feed.handle start
    ((capture.frames.map CapturedFrame.payload).take
      (Feed.reach (sweptParts sweep capture stride rungs)))).1 = 0
  whole : capture.frames.length ≤ Feed.reach (sweptParts sweep capture stride rungs) →
    (status = 0 ↔ runReplay (S := S) options contents = 0)

/-- The mode of a replay does not change its verdict. Every mode ends on a clock that does not go back
and lasts; a paced replay exits as the plain one does, whatever the clock says; and a sweep, which
feeds one book over and over, passes exactly when the plain replay of what its longest rung covers
does, if the capture has a rate and begins with its snapshot. -/
theorem replay_modes_agree (mode : ReplayMode) (options : Options) (contents : Bytes)
    (clock : List UInt64) :
    (Steady clock →
      (∀ capture, Capture.parse contents = .ok capture → Lasts (mode.needs capture) clock) →
      (runReplayIn (S := S) mode options contents clock).isSome) ∧
    ∀ status later, runReplayIn (S := S) mode options contents clock = some (status, later) →
      ((∀ sweep, mode ≠ .swept sweep) → status = runReplay (S := S) options contents) ∧
      ∀ sweep, mode = .swept sweep → ∀ (capture : Capture) (start : Feed S),
        Capture.parse contents = .ok capture → replayFeed options capture = some start →
        capture.frames.length < 2 ^ 64 →
        ∀ (early : List Bytes) (opening : Bytes) (rest : List Bytes),
        capture.frames.map CapturedFrame.payload = early ++ opening :: rest →
        Feed.Rebuilds start.decoder early opening →
        ∀ stride, sweepStride (replayEvents capture) = some stride →
        ∃ swept last rungs,
          replaySweep handleEvent sweep (replayEvents capture) start clock =
            some ((swept, last), later) ∧
          SweptVerdict options contents capture start sweep stride swept last rungs status := by
  refine ⟨fun steady lasts => runReplayIn_lasts mode steady lasts, fun status later ran =>
    ⟨fun ordered => runReplayIn_ordered ordered ran, ?_⟩⟩
  rintro sweep rfl capture start parsed fed few early opening rest frames rebuilds stride stepped
  have some_ : capture.frames.isEmpty = false := by
    rw [← List.isEmpty_map (f := CapturedFrame.payload), frames]
    simp
  have plain := runReplay_replayed (S := S) (replayed_start parsed some_ fed)
  rw [runReplayIn, parsed] at ran
  simp only [some_, Bool.false_eq_true, if_false, fed] at ran
  obtain ⟨swept, last, sweeps, rfl⟩ := runReplayWith_swept ran
  have events : (replayEvents capture).length < 2 ^ 64 := by
    rwa [replayEvents, List.length_map]
  obtain ⟨rungs, climbed⟩ := Replay.replaySweep_climbed stepped events sweeps
  have fronts : ∀ part ∈ sweptParts sweep capture stride rungs, ∃ copies,
      part <+: (List.replicate copies (early ++ opening :: rest)).flatten := by
    refine List.forall_mem_map.mpr fun speed _ => ?_
    rw [← frames, ← frames_replayEvents]
    exact frames_rungEvents sweep (replayEvents capture) stride speed
  have meets := verdict_meets fed (Feed.meets_parts rebuilds rfl fronts)
  rw [← frames, ← climbed_handled climbed] at meets
  refine ⟨swept, last, rungs, sweeps, climbed, meets, fun whole => ?_⟩
  rw [meets, plain, List.take_of_length_le (by rwa [List.length_map])]

section Swept

open CaptureWriter (headerLine recordBytes)
open KrakenBookDecoder (bookFrame entryText levelText)

def sweptCapture : Capture where
  venue := bytes "kraken"
  symbol := askOne.symbol
  startUnixNs := Capture.parseI64 (CaptureWriter.printI64 3)
  frames := [acknowledgement, firstSnapshot]

def sweptContents : Bytes :=
  headerLine (bytes "kraken") askOne.symbol 3 ++ [acknowledgement, firstSnapshot].flatMap recordBytes

def sweptFeed : Feed MapSide := krakenFeed (askOne.adopt ⟨1, 8, 1⟩).spec askOne.size

theorem sweptContents_parse : Capture.parse sweptContents = .ok sweptCapture :=
  parse_live ⟨by decide +kernel, by decide +kernel, by decide +kernel⟩ (by decide +kernel) 3
    (by decide +kernel) (by decide +kernel)

theorem sweptCapture_feeds : replayFeed askOne sweptCapture = some sweptFeed :=
  firstSnapshot_opens.feeds ⟨rfl, rfl⟩ [] _

theorem sweptCapture_rebuilds :
    Feed.Rebuilds sweptFeed.decoder [acknowledgement.payload] firstSnapshot.payload where
  ignores := by
    refine List.forall_mem_singleton.mpr ⟨?_, ?_⟩ <;> decide +kernel
  opens := by
    refine .framed _ ?_ ?_
    all_goals
      unfold firstSnapshot bookFrame entryText levelText
      simp only [bytes_append, -String.reduceAppend]
      decide +kernel
  numbered := .inr fun frame => KrakenBookDecoder.decode_numberless _ frame

theorem replay_modes_agree_swept :
    ∃ status later swept last rungs,
      runReplayIn (S := MapSide) (.swept Replay.asRecorded) askOne sweptContents Replay.sweepClock =
        some (status, later) ∧
      replaySweep handleEvent Replay.asRecorded (replayEvents sweptCapture) sweptFeed
        Replay.sweepClock = some ((swept, last), later) ∧
      SweptVerdict askOne sweptContents sweptCapture sweptFeed Replay.asRecorded 4 swept last rungs
        status := by
  obtain ⟨ends, agrees⟩ := replay_modes_agree (S := MapSide) (.swept Replay.asRecorded) askOne
    sweptContents Replay.sweepClock
  have steady : Steady Replay.sweepClock := by unfold Steady; decide +kernel
  have lasts : Lasts ((ReplayMode.swept Replay.asRecorded).needs sweptCapture) Replay.sweepClock :=
    ⟨by decide +kernel, trivial⟩
  have whole := ends steady fun capture parsed => by
    rw [sweptContents_parse] at parsed
    exact Except.ok.inj parsed ▸ lasts
  obtain ⟨returned, ran⟩ := Option.isSome_iff_exists.mp whole
  obtain ⟨swept, last, rungs, sweeps, verdict⟩ := (agrees returned.1 returned.2 ran).2 _ rfl _ _
    sweptContents_parse sweptCapture_feeds (by decide) _ _ _ rfl sweptCapture_rebuilds 4
    (by decide +kernel)
  exact ⟨returned.1, returned.2, swept, last, rungs, ran, sweeps, verdict⟩

end Swept

end Tools

end Crossbook
